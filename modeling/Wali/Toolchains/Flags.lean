import Wali.Py.Format
import Wali.Toolchains.Agreement

/-!
# The texts of the flags

`gen_toolchains.py` joins the flags to one text for all files. The directories in it are names in
braces, and `str.format` puts in how each file refers to them. It reads the flags along with the
names: a brace in a flag is not a brace any more.

A definition is one line of its file. `textwrap.dedent` takes blanks from the start of the line only.
-/

namespace Wali.Toolchains

open Py (Str)
open Py.Format (Args Mark IsKey isBrace chars source result)

/-- `wali.toml` with the flags for C++. -/
structure FlagConfig extends Config where
  extraCxxflags : List Str

/-- The names in braces. -/
inductive Slot where
  | sysrootVar | libcxxVar | cflagsVar
  deriving DecidableEq

def Slot.key : Slot → Str
  | .sysrootVar => "SYSROOTVAR"
  | .libcxxVar => "LIBCXXVAR"
  | .cflagsVar => "CFLAGSVAR"

/-- The variable that a name stands for. -/
def Slot.var : Slot → Var
  | .sysrootVar => .sysrootDir
  | .libcxxVar => .libcxxDir
  | .cflagsVar => .commonCflags

/-- How a file refers to the variable. -/
def File.spelling : File → Slot → Str
  | .makefile, .sysrootVar => "$(WALI_SYSROOT_DIR)"
  | .makefile, .libcxxVar => "$(WALI_LIBCXX_DIR)"
  | .makefile, .cflagsVar => "$(WALI_COMMON_CFLAGS)"
  | .bash, .sysrootVar => "${WALI_SYSROOT_DIR}"
  | .bash, .libcxxVar => "${WALI_LIBCXX_DIR}"
  | .bash, .cflagsVar => "${WALI_COMMON_CFLAGS}"
  | .fish, .sysrootVar => "$WALI_SYSROOT_DIR"
  | .fish, .libcxxVar => "$WALI_LIBCXX_DIR"
  | .fish, .cflagsVar => "$WALI_COMMON_CFLAGS"
  | .cmake, .sysrootVar => "${CMAKE_SYSROOT}"
  | .cmake, .libcxxVar => "${WALI_LIBCXX_DIR}"
  | .cmake, .cflagsVar => "${CMAKE_C_FLAGS}"

def File.kwargs (f : File) (slots : List Slot) : List (Str × Str) := slots.map fun s => (s.key, f.spelling s)

/-- Python, as far as `format` depends on it: what becomes of a name with attributes, items, a
conversion or a format spec behind it. The names of the arguments do not occur in what a string has
to show, least of all after a brace. -/
structure Interpreter where
  extended : (kwargs : List (Str × Str)) → (key rest : Str) → Except Py.FormatError Str
  inert : ∀ (f : File) (slots : List Slot), ∀ s ∈ slots, ∀ rest out,
    extended (f.kwargs slots) s.key rest = .ok out → ¬ ('{' :: s.key) <:+: out

/-- An interpreter that raises whenever a field is more than a name. -/
def strict : Interpreter where
  extended := fun _ _ rest => .error (.raised rest)
  inert := fun _ _ _ _ _ _ h => nomatch h

def File.args (py : Interpreter) (f : File) (slots : List Slot) : Args where
  kwargs := f.kwargs slots
  extended := py.extended (f.kwargs slots)

/-- What one entry of `[flags.link]` adds. -/
def LinkValue.options (key : Str) : LinkValue → List Str
  | .flag on => if on then [("-Wl,--" : Str) ++ key] else []
  | .list xs => xs.map fun x => ("-Wl,--" : Str) ++ key ++ "=" ++ x
  | .value x => [("-Wl,--" : Str) ++ key ++ "=" ++ x]

/-- The loop over `[flags.link]`. -/
def ldflags (link : List (Str × LinkValue)) : List Str :=
  link.foldl (fun flags entry => flags ++ entry.2.options entry.1) []

namespace Config

variable (cfg : Config)

def commonCflagsText : Str :=
  Py.join [' '] ([("--target=" : Str) ++ cfg.triple, "--sysroot={SYSROOTVAR}"] ++ cfg.extraCflags ++
    cfg.warningCflags.map (("-W" : Str) ++ ·) ++ cfg.wasmFeatures)

def commonLdflagsText : Str :=
  Py.join [' '] ((["-L{SYSROOTVAR}/lib", "-L{LIBCXXVAR}/lib"] : List Str) ++ ldflags cfg.link)

end Config

def commonCxxflagsText : Str :=
  Py.join [' '] ["-stdlib=libc++", "{CFLAGSVAR}", "-I{LIBCXXVAR}/include/c++/v1"]

structure FlagTexts where
  cflags : Str
  cxxflags : Str
  ldflags : Str

/-- What is put into one of the files. -/
def File.flagTexts (py : Interpreter) (cfg : Config) (f : File) : Except Py.FormatError FlagTexts := do
  let cflags ← Py.format (f.args py [.sysrootVar]) cfg.commonCflagsText
  let cxxflags ← Py.format (f.args py [.cflagsVar, .libcxxVar]) commonCxxflagsText
  let ldflags ← Py.format (f.args py [.sysrootVar, .libcxxVar]) cfg.commonLdflagsText
  return ⟨cflags, cxxflags, ldflags⟩

/-- Why there are no files. -/
inductive Stop where
  | exit (message : Str)
  | format (e : Py.FormatError)

/-- `main`, for the flags. The flags for C++ are read and then forgotten. -/
def flagTexts (py : Interpreter) (cfg : FlagConfig) : Except Stop (File → FlagTexts) :=
  match generate cfg.toConfig with
  | .error message => .error (.exit message)
  | .ok _ => Except.mapError .format do
    let makefile ← File.makefile.flagTexts py cfg.toConfig
    let bash ← File.bash.flagTexts py cfg.toConfig
    let fish ← File.fish.flagTexts py cfg.toConfig
    let cmake ← File.cmake.flagTexts py cfg.toConfig
    return fun
      | .makefile => makefile
      | .bash => bash
      | .fish => fish
      | .cmake => cmake

/-- What is left of a text on the line of its definition. -/
def firstLine (s : Str) : Str := s.takeWhile (· != '\n')

/-- A flag is in a text, between blanks. -/
def Appears (flag s : Str) : Prop := ∃ before behind, s = Py.join [' '] (before ++ flag :: behind)

/-- All flags of the configuration are in a file as they are, in order. -/
structure Keeps (cfg : FlagConfig) (f : File) (texts : FlagTexts) : Prop where
  cflags : firstLine texts.cflags =
    Py.join [' '] ([("--target=" : Str) ++ cfg.triple, ("--sysroot=" : Str) ++ f.spelling .sysrootVar] ++
      cfg.extraCflags ++ cfg.warningCflags.map (("-W" : Str) ++ ·) ++ cfg.wasmFeatures)
  cxxflags : ∀ flag ∈ cfg.extraCxxflags, Appears flag (firstLine texts.cxxflags)
  ldflags : firstLine texts.ldflags =
    Py.join [' '] ([("-L" : Str) ++ f.spelling .sysrootVar ++ "/lib",
      ("-L" : Str) ++ f.spelling .libcxxVar ++ "/lib"] ++ cfg.ldflagTexts)

def KeepsFlags (py : Interpreter) (cfg : FlagConfig) : Prop :=
  ∃ texts, flagTexts py cfg = .ok texts ∧ ∀ f, Keeps cfg f (texts f)

/-- No brace and no line break. -/
def Plain (s : Str) : Prop := ∀ c ∈ s, isBrace c = false ∧ c ≠ '\n'

/-- What is used of an entry in `[flags.link]` is plain. -/
def LinkValue.Plain (key : Str) : LinkValue → Prop
  | .flag on => on = true → Toolchains.Plain key
  | .list xs => ∀ x ∈ xs, Toolchains.Plain key ∧ Toolchains.Plain x
  | .value x => Toolchains.Plain key ∧ Toolchains.Plain x

/-- What it takes for the flags to get into the files. -/
structure Survives (cfg : FlagConfig) : Prop where
  parts : (cfg.triple.splitOn '-').length = 4
  triple : Plain cfg.triple
  cflags : ∀ flag ∈ cfg.extraCflags ++ cfg.warningCflags ++ cfg.wasmFeatures, Plain flag
  /-- The one flag that is in the C++ flags of every file. -/
  cxxflags : ∀ flag ∈ cfg.extraCxxflags, flag = "-stdlib=libc++"
  link : ∀ entry ∈ cfg.link, entry.2.Plain entry.1

-- ════════════════════════════════════════════════════════════════════════
-- Arguments
-- ════════════════════════════════════════════════════════════════════════

theorem Slot.isKey (s : Slot) : IsKey s.key := by
  cases s with
  | sysrootVar => exact ⟨by decide, Py.forall_mem_of_all (by decide)⟩
  | libcxxVar => exact ⟨by decide, Py.forall_mem_of_all (by decide)⟩
  | cflagsVar => exact ⟨by decide, Py.forall_mem_of_all (by decide)⟩

theorem Slot.key_injective : Function.Injective Slot.key := by
  intro s t h
  cases s
  all_goals cases t
  all_goals first | rfl | exact absurd h (by decide)

/-- No file has the name in braces, a line break or a blank in its way to refer to the variable. -/
theorem File.spelling_spec (f : File) (s : Slot) :
    ¬ ('{' :: s.key) <:+: f.spelling s ∧ '\n' ∉ f.spelling s ∧ ' ' ∉ f.spelling s := by
  rw [← Py.contains_iff]
  cases f
  all_goals cases s
  all_goals decide

section Args

variable (py : Interpreter) (f : File)

theorem File.lookup_kwargs {slots : List Slot} {s : Slot} (hs : s ∈ slots) :
    (f.kwargs slots).lookup s.key = some (f.spelling s) := by
  induction slots with
  | nil => cases hs
  | cons t slots ih =>
    change List.lookup s.key ((t.key, f.spelling t) :: f.kwargs slots) = _
    by_cases hst : s = t
    · rw [hst]
      exact List.lookup_cons_self
    · have hne : (s.key == t.key) = false := beq_eq_false_iff_ne.mpr fun h => hst (Slot.key_injective h)
      rw [List.lookup_cons, hne]
      exact ih ((List.mem_cons.mp hs).resolve_left hst)

theorem File.inert_args (slots : List Slot) : (f.args py slots).Inert := by
  intro read out hout
  rw [Args.field] at hout
  split at hout
  · cases hout
  · next value hvalue =>
    have hmem : (Py.Format.fieldName read, value) ∈ f.kwargs slots := by
      obtain ⟨l, l', hl, _⟩ := List.lookup_eq_some_iff.mp hvalue
      change f.kwargs slots = _ at hl
      rw [hl]
      simp
    obtain ⟨s, hs, he⟩ := List.mem_map.mp hmem
    obtain ⟨hkey, hspelling⟩ := Prod.mk.inj he
    rw [← hkey] at hout ⊢
    split at hout
    · cases hout
      rw [← hspelling]
      exact (f.spelling_spec s).1
    · exact py.inert f slots s hs _ out hout

/-- A name in braces, with a character in front of it. -/
def Slot.mark (c : Char) (s : Slot) : Mark := .slot c s.key (f.spelling s)

theorem Slot.provided_mark {slots : List Slot} {s : Slot} (hs : s ∈ slots) {c : Char}
    (hc : isBrace c = false) : (s.mark f c).Provided (f.args py slots) :=
  ⟨hc, s.isKey, f.lookup_kwargs hs⟩

end Args

-- ════════════════════════════════════════════════════════════════════════
-- Plain texts
-- ════════════════════════════════════════════════════════════════════════

theorem plain_append {s t : Str} : Plain (s ++ t) ↔ Plain s ∧ Plain t := List.forall_mem_append

/-- A text that is not from the configuration. -/
theorem plain_of_all {s : Str} (h : s.all (fun c => !isBrace c && c != '\n') = true) : Plain s := by
  intro c hc
  have hall := List.all_eq_true.mp h c hc
  rw [Bool.and_eq_true, Bool.not_eq_true', bne_iff_ne] at hall
  exact hall

theorem plain_flatMap {flags : List Str} :
    Plain (flags.flatMap ([' '] ++ ·)) ↔ ∀ flag ∈ flags, Plain flag := by
  have hblank : Plain [' '] := plain_of_all (by decide)
  constructor
  · exact fun h flag hflag c hc => h c (List.mem_flatMap.mpr ⟨flag, hflag, List.mem_append_right _ hc⟩)
  · intro h c hc
    obtain ⟨flag, hflag, hc⟩ := List.mem_flatMap.mp hc
    exact plain_append.mpr ⟨hblank, h flag hflag⟩ c hc

theorem plain_cflagTexts {cfg : Config} : (∀ flag ∈ cfg.cflagTexts, Plain flag) ↔
    ∀ flag ∈ cfg.extraCflags ++ cfg.warningCflags ++ cfg.wasmFeatures, Plain flag := by
  have hw : Plain ("-W" : Str) := plain_of_all (by decide)
  have hwarn : (∀ flag ∈ cfg.warningCflags.map (("-W" : Str) ++ ·), Plain flag) ↔
      ∀ flag ∈ cfg.warningCflags, Plain flag := by
    rw [List.forall_mem_map]
    exact forall₂_congr fun flag _ => plain_append.trans (and_iff_right hw)
  rw [Config.cflagTexts]
  simp only [List.forall_mem_append, hwarn]

theorem plain_ldflagTexts {cfg : Config} :
    (∀ flag ∈ cfg.ldflagTexts, Plain flag) ↔ ∀ entry ∈ cfg.link, entry.2.Plain entry.1 := by
  have hwl : Plain ("-Wl,--" : Str) := plain_of_all (by decide)
  have heq : Plain ("=" : Str) := plain_of_all (by decide)
  have hkey : ∀ key : Str, Plain (("-Wl,--" : Str) ++ key) ↔ Plain key :=
    fun key => plain_append.trans (and_iff_right hwl)
  have hvalue : ∀ key x : Str, Plain (("-Wl,--" : Str) ++ key ++ "=" ++ x) ↔ Plain key ∧ Plain x := by
    intro key x
    rw [plain_append, plain_append, hkey, and_iff_left heq]
  rw [Config.ldflagTexts, List.forall_mem_flatMap]
  refine forall₂_congr fun entry _ => ?_
  obtain ⟨key, val⟩ := entry
  cases val with
  | flag on =>
    cases on with
    | false => exact iff_of_true (List.forall_mem_nil _) fun hon => absurd hon Bool.false_ne_true
    | true => exact List.forall_mem_singleton.trans ((hkey key).trans ⟨fun h _ => h, fun h => h rfl⟩)
  | list xs => exact List.forall_mem_map.trans (forall₂_congr fun x _ => hvalue key x)
  | value x => exact List.forall_mem_singleton.trans (hvalue key x)

-- ════════════════════════════════════════════════════════════════════════
-- Templates
-- ════════════════════════════════════════════════════════════════════════

/-- A slot is filled, and with a text that does not end the line. -/
def Fits (args : Args) : Mark → Prop
  | .chr _ => True
  | .slot c key value => (Mark.slot c key value).Provided args ∧ '\n' ∉ c :: value

/-- The characters of a template. -/
def PlainChars (ms : List Mark) : Prop := ∀ c, .chr c ∈ ms → isBrace c = false ∧ c ≠ '\n'

theorem fits_chars (args : Args) (s : Str) : ∀ m ∈ chars s, Fits args m := List.forall_mem_map.mpr fun _ _ => trivial

theorem Slot.fits_mark (py : Interpreter) (f : File) {slots : List Slot} {s : Slot} (hs : s ∈ slots) {c : Char}
    (hc : isBrace c = false) (hline : c ≠ '\n') : Fits (f.args py slots) (s.mark f c) :=
  ⟨s.provided_mark py f hs hc, List.not_mem_cons_of_ne_of_not_mem hline.symm (f.spelling_spec s).2.1⟩

/-- A slot behind some text, in front of marks that fit. -/
theorem Slot.fits_append_cons (py : Interpreter) (f : File) {slots : List Slot} {s : Slot} (hs : s ∈ slots)
    {c : Char} (hc : isBrace c = false) (hline : c ≠ '\n') (t : Str) {ms : List Mark}
    (hms : ∀ m ∈ ms, Fits (f.args py slots) m) : ∀ m ∈ chars t ++ s.mark f c :: ms, Fits (f.args py slots) m :=
  List.forall_mem_append.mpr
    ⟨fits_chars _ t, List.forall_mem_cons.mpr ⟨s.fits_mark py f hs hc hline, hms⟩⟩

theorem plainChars_chars {s : Str} : PlainChars (chars s) ↔ Plain s :=
  forall_congr' fun _ => imp_congr_left Py.Format.chr_mem_chars

theorem plainChars_append {ms ms' : List Mark} : PlainChars (ms ++ ms') ↔ PlainChars ms ∧ PlainChars ms' := by
  simp only [PlainChars, List.mem_append]
  exact ⟨fun h => ⟨fun c hc => h c (Or.inl hc), fun c hc => h c (Or.inr hc)⟩,
    fun h c hc => hc.elim (h.1 c) (h.2 c)⟩

theorem plainChars_mark (f : File) (s : Slot) (c : Char) {ms : List Mark} :
    PlainChars (s.mark f c :: ms) ↔ PlainChars ms := by
  simp [PlainChars, Slot.mark]

theorem firstLine_of_not_mem {s : Str} (h : '\n' ∉ s) : firstLine s = s := by
  refine List.takeWhile_eq_self_iff.mpr fun c hc => bne_iff_ne.mpr ?_
  rintro rfl
  exact h hc

theorem not_mem_firstLine (s : Str) : '\n' ∉ firstLine s := fun h => by
  have hne := List.mem_takeWhile_imp h
  exact absurd hne (by decide)

theorem provided_of_fits {args : Args} {ms : List Mark} (hms : ∀ m ∈ ms, Fits args m) :
    ∀ m ∈ ms, m.Provided args := by
  intro m hm
  cases m with
  | chr c => trivial
  | slot c key value => exact (hms _ hm).1

theorem format_of_plainChars {args : Args} {ms : List Mark} (hms : ∀ m ∈ ms, Fits args m)
    (h : PlainChars ms) : Py.format args (source ms) = .ok (result ms) :=
  Py.Format.format_source (provided_of_fits hms) fun c hc => (h c hc).1

theorem firstLine_result {args : Args} {ms : List Mark} (hms : ∀ m ∈ ms, Fits args m) (h : PlainChars ms) :
    firstLine (result ms) = result ms := by
  refine firstLine_of_not_mem fun hmem => ?_
  obtain ⟨m, hm, hc⟩ := List.mem_flatMap.mp hmem
  cases m with
  | chr c => exact (h c hm).2 (List.mem_singleton.mp hc).symm
  | slot c key value => exact (hms _ hm).2 hc

/-- A template fills its line as it is meant to exactly if it has no braces and line breaks of its own. -/
theorem firstLine_format_iff {args : Args} (hinert : args.Inert) {ms : List Mark}
    (hms : ∀ m ∈ ms, Fits args m) :
    (∃ out, Py.format args (source ms) = .ok out ∧ firstLine out = result ms) ↔ PlainChars ms := by
  constructor
  · rintro ⟨out, hformat, hline⟩ c hc
    have hstart : result ms <+: out := hline ▸ List.takeWhile_prefix _
    refine ⟨Py.Format.isBrace_of_format hinert (provided_of_fits hms) hformat hstart c hc, ?_⟩
    rintro rfl
    refine not_mem_firstLine out ?_
    rw [hline]
    exact List.mem_flatMap.mpr ⟨_, hc, List.mem_singleton_self _⟩
  · exact fun h => ⟨result ms, format_of_plainChars hms h, firstLine_result hms h⟩

section Texts

variable (py : Interpreter) (cfg : Config) (f : File)

/-- The flags for C, with the part that differs between the files. -/
def cflagsMarks : List Mark :=
  chars ("--target=" ++ cfg.triple ++ ' ' :: "--sysroot") ++ Slot.sysrootVar.mark f '=' ::
    chars (cfg.cflagTexts.flatMap ([' '] ++ ·))

def cxxflagsMarks : List Mark :=
  chars "-stdlib=libc++" ++ Slot.cflagsVar.mark f ' ' :: (chars " -" ++
    Slot.libcxxVar.mark f 'I' :: chars "/include/c++/v1")

def ldflagsMarks : List Mark :=
  chars "-" ++ Slot.sysrootVar.mark f 'L' :: (chars "/lib -" ++ Slot.libcxxVar.mark f 'L' ::
    chars ("/lib" ++ cfg.ldflagTexts.flatMap ([' '] ++ ·)))

theorem ldflags_eq : ldflags cfg.link = cfg.ldflagTexts := by
  rw [ldflags, ← List.flatMap_eq_foldl, Config.ldflagTexts]
  refine List.flatMap_congr fun entry _ => ?_
  obtain ⟨key, val⟩ := entry
  cases val with
  | flag on => rfl
  | list xs => rfl
  | value x => rfl

theorem join_cons_cons_eq (x y : Str) (flags : List Str) :
    Py.join [' '] (x :: y :: flags) = x ++ ' ' :: (y ++ flags.flatMap ([' '] ++ ·)) := by
  rw [Py.join_cons, List.flatMap_cons, List.append_assoc]
  rfl

/-- The flags for C, whatever stands for the sysroot. -/
theorem join_cflags (sysroot : Str) :
    Py.join [' '] ([("--target=" : Str) ++ cfg.triple, ("--sysroot=" : Str) ++ sysroot] ++ cfg.extraCflags ++
      cfg.warningCflags.map (("-W" : Str) ++ ·) ++ cfg.wasmFeatures) =
    ("--target=" ++ cfg.triple ++ ' ' :: "--sysroot") ++ '=' :: (sysroot ++
      cfg.cflagTexts.flatMap ([' '] ++ ·)) := by
  have hsysroot : ("--sysroot=" : Str) = "--sysroot" ++ ['='] := by decide
  refine (join_cons_cons_eq _ _ cfg.cflagTexts).trans ?_
  rw [hsysroot]
  simp only [List.append_assoc, List.cons_append, List.nil_append]

/-- The flags for the linker, whatever stands for the two directories. -/
theorem join_ldflags (sysroot libcxx : Str) :
    Py.join [' '] ([("-L" : Str) ++ sysroot ++ "/lib", ("-L" : Str) ++ libcxx ++ "/lib"] ++ cfg.ldflagTexts) =
    "-" ++ 'L' :: (sysroot ++ ("/lib -" ++ 'L' :: (libcxx ++ ("/lib" ++
      cfg.ldflagTexts.flatMap ([' '] ++ ·))))) := by
  have hl : ("-L" : Str) = "-" ++ ['L'] := by decide
  have hlib : ("/lib -" : Str) = "/lib" ++ ' ' :: "-" := by decide
  refine (join_cons_cons_eq _ _ cfg.ldflagTexts).trans ?_
  rw [hl, hlib]
  simp only [List.append_assoc, List.cons_append, List.nil_append]

theorem join_cxxflags (cflags libcxx : Str) :
    Py.join [' '] ["-stdlib=libc++", cflags, ("-I" : Str) ++ libcxx ++ "/include/c++/v1"] =
    "-stdlib=libc++" ++ ' ' :: (cflags ++ (" -" ++ 'I' :: (libcxx ++ "/include/c++/v1"))) := by
  have hi : ("-I" : Str) = "-" ++ ['I'] := by decide
  have hblank : (" -" : Str) = ' ' :: "-" := by decide
  refine (join_cons_cons_eq _ _ _).trans ?_
  rw [hi, hblank, List.flatMap_singleton]
  simp only [List.append_assoc, List.cons_append, List.nil_append]

theorem source_cflagsMarks : source (cflagsMarks cfg f) = cfg.commonCflagsText := by
  have hsysroot : ("--sysroot={SYSROOTVAR}" : Str) =
      "--sysroot=" ++ ('{' :: Slot.sysrootVar.key ++ ['}']) := by decide
  rw [Config.commonCflagsText, hsysroot, join_cflags, cflagsMarks, Py.Format.source_append,
    Py.Format.source_chars, Slot.mark, Py.Format.source_slot, Py.Format.source_chars]
  simp only [List.append_assoc, List.cons_append, List.nil_append]

theorem result_cflagsMarks : result (cflagsMarks cfg f) =
    Py.join [' '] ([("--target=" : Str) ++ cfg.triple, ("--sysroot=" : Str) ++ f.spelling .sysrootVar] ++
      cfg.extraCflags ++ cfg.warningCflags.map (("-W" : Str) ++ ·) ++ cfg.wasmFeatures) := by
  rw [join_cflags, cflagsMarks, Py.Format.result_append, Py.Format.result_chars, Slot.mark,
    Py.Format.result_slot, Py.Format.result_chars]

theorem source_cxxflagsMarks : source (cxxflagsMarks f) = commonCxxflagsText := by
  have hcflags : ("{CFLAGSVAR}" : Str) = '{' :: Slot.cflagsVar.key ++ ['}'] := by decide
  have hlibcxx : ("-I{LIBCXXVAR}/include/c++/v1" : Str) =
      "-I" ++ ('{' :: Slot.libcxxVar.key ++ ['}']) ++ "/include/c++/v1" := by decide
  rw [commonCxxflagsText, hcflags, hlibcxx, join_cxxflags, cxxflagsMarks, Py.Format.source_append,
    Py.Format.source_chars, Slot.mark, Py.Format.source_slot, Py.Format.source_append,
    Py.Format.source_chars, Slot.mark, Py.Format.source_slot, Py.Format.source_chars]
  simp only [List.append_assoc, List.cons_append, List.nil_append]

theorem source_ldflagsMarks : source (ldflagsMarks cfg f) = cfg.commonLdflagsText := by
  have hsysroot : ("-L{SYSROOTVAR}/lib" : Str) =
      "-L" ++ ('{' :: Slot.sysrootVar.key ++ ['}']) ++ "/lib" := by decide
  have hlibcxx : ("-L{LIBCXXVAR}/lib" : Str) =
      "-L" ++ ('{' :: Slot.libcxxVar.key ++ ['}']) ++ "/lib" := by decide
  rw [Config.commonLdflagsText, ldflags_eq, hsysroot, hlibcxx, join_ldflags, ldflagsMarks,
    Py.Format.source_append, Py.Format.source_chars, Slot.mark, Py.Format.source_slot,
    Py.Format.source_append, Py.Format.source_chars, Slot.mark, Py.Format.source_slot, Py.Format.source_chars]
  simp only [List.append_assoc, List.cons_append, List.nil_append]

theorem result_ldflagsMarks : result (ldflagsMarks cfg f) =
    Py.join [' '] ([("-L" : Str) ++ f.spelling .sysrootVar ++ "/lib",
      ("-L" : Str) ++ f.spelling .libcxxVar ++ "/lib"] ++ cfg.ldflagTexts) := by
  rw [join_ldflags, ldflagsMarks, Py.Format.result_append, Py.Format.result_chars, Slot.mark,
    Py.Format.result_slot, Py.Format.result_append, Py.Format.result_chars, Slot.mark,
    Py.Format.result_slot, Py.Format.result_chars]

theorem fits_cflagsMarks : ∀ m ∈ cflagsMarks cfg f, Fits (f.args py [.sysrootVar]) m :=
  Slot.fits_append_cons py f (by decide) rfl (by decide) _ (fits_chars _ _)

theorem fits_cxxflagsMarks : ∀ m ∈ cxxflagsMarks f, Fits (f.args py [.cflagsVar, .libcxxVar]) m :=
  Slot.fits_append_cons py f (by decide) rfl (by decide) _
    (Slot.fits_append_cons py f (by decide) rfl (by decide) _ (fits_chars _ _))

theorem fits_ldflagsMarks : ∀ m ∈ ldflagsMarks cfg f, Fits (f.args py [.sysrootVar, .libcxxVar]) m :=
  Slot.fits_append_cons py f (by decide) rfl (by decide) _
    (Slot.fits_append_cons py f (by decide) rfl (by decide) _ (fits_chars _ _))

theorem plainChars_cflagsMarks : PlainChars (cflagsMarks cfg f) ↔
    Plain cfg.triple ∧ ∀ flag ∈ cfg.extraCflags ++ cfg.warningCflags ++ cfg.wasmFeatures, Plain flag := by
  have htarget : Plain ("--target=" : Str) := plain_of_all (by decide)
  have hsysroot : Plain (' ' :: "--sysroot" : Str) := plain_of_all (by decide)
  rw [cflagsMarks, plainChars_append, plainChars_mark, plainChars_chars, plainChars_chars, plain_flatMap,
    plain_cflagTexts, plain_append, plain_append, and_iff_left hsysroot, and_iff_right htarget]

theorem plainChars_cxxflagsMarks : PlainChars (cxxflagsMarks f) := by
  rw [cxxflagsMarks, plainChars_append, plainChars_mark, plainChars_append, plainChars_mark]
  simp only [plainChars_chars]
  exact ⟨plain_of_all (by decide), plain_of_all (by decide), plain_of_all (by decide)⟩

theorem plainChars_ldflagsMarks :
    PlainChars (ldflagsMarks cfg f) ↔ ∀ entry ∈ cfg.link, entry.2.Plain entry.1 := by
  have hminus : Plain ("-" : Str) := plain_of_all (by decide)
  have hboth : Plain ("/lib -" : Str) := plain_of_all (by decide)
  have hlib : Plain ("/lib" : Str) := plain_of_all (by decide)
  rw [ldflagsMarks, plainChars_append, plainChars_mark, plainChars_append, plainChars_mark, plainChars_chars,
    plainChars_chars, plainChars_chars, plain_append, plain_flatMap, plain_ldflagTexts, and_iff_right hminus,
    and_iff_right hboth, and_iff_right hlib]

theorem cflags_kept_iff : (∃ out, Py.format (f.args py [.sysrootVar]) cfg.commonCflagsText = .ok out ∧
      firstLine out = result (cflagsMarks cfg f)) ↔
    Plain cfg.triple ∧ ∀ flag ∈ cfg.extraCflags ++ cfg.warningCflags ++ cfg.wasmFeatures, Plain flag := by
  rw [← source_cflagsMarks cfg f, firstLine_format_iff (f.inert_args py _) (fits_cflagsMarks py cfg f),
    plainChars_cflagsMarks]

theorem ldflags_kept_iff : (∃ out, Py.format (f.args py [.sysrootVar, .libcxxVar]) cfg.commonLdflagsText =
      .ok out ∧ firstLine out = result (ldflagsMarks cfg f)) ↔
    ∀ entry ∈ cfg.link, entry.2.Plain entry.1 := by
  rw [← source_ldflagsMarks cfg f, firstLine_format_iff (f.inert_args py _) (fits_ldflagsMarks py cfg f),
    plainChars_ldflagsMarks]

/-- The C++ flags, as words. -/
def cxxflagWords : List Str :=
  ["-stdlib=libc++", f.spelling .cflagsVar, ("-I" : Str) ++ f.spelling .libcxxVar ++ "/include/c++/v1"]

theorem result_cxxflagsMarks : result (cxxflagsMarks f) = Py.join [' '] (cxxflagWords f) := by
  rw [cxxflagWords, join_cxxflags, cxxflagsMarks, Py.Format.result_append, Py.Format.result_chars, Slot.mark,
    Py.Format.result_slot, Py.Format.result_append, Py.Format.result_chars, Slot.mark,
    Py.Format.result_slot, Py.Format.result_chars]

theorem format_commonCxxflagsText : Py.format (f.args py [.cflagsVar, .libcxxVar]) commonCxxflagsText =
    .ok (Py.join [' '] (cxxflagWords f)) := by
  rw [← source_cxxflagsMarks f, ← result_cxxflagsMarks]
  exact format_of_plainChars (fits_cxxflagsMarks py f) (plainChars_cxxflagsMarks f)

theorem firstLine_cxxflags : firstLine (Py.join [' '] (cxxflagWords f)) = Py.join [' '] (cxxflagWords f) := by
  rw [← result_cxxflagsMarks]
  exact firstLine_result (fits_cxxflagsMarks strict f) (plainChars_cxxflagsMarks f)

theorem splitOn_cxxflagWords : (Py.join [' '] (cxxflagWords f)).splitOn ' ' = cxxflagWords f := by
  have hlibcxx : ' ' ∉ ("-I" : Str) ++ f.spelling .libcxxVar ++ "/include/c++/v1" := by
    rw [List.mem_append, List.mem_append, not_or, not_or]
    exact ⟨⟨by decide, (f.spelling_spec .libcxxVar).2.2⟩, by decide⟩
  rw [Py.splitOn_join (by simp [cxxflagWords]), cxxflagWords, List.flatMap_cons, List.flatMap_cons,
    List.flatMap_singleton, Py.splitOn_of_not_mem (by decide),
    Py.splitOn_of_not_mem (f.spelling_spec .cflagsVar).2.2, Py.splitOn_of_not_mem hlibcxx]
  rfl

end Texts

/-- The words of a flag that appears in a text follow each other there. -/
theorem Appears.infix_splitOn {flag s : Str} (h : Appears flag s) : flag.splitOn ' ' <:+: s.splitOn ' ' := by
  obtain ⟨before, behind, rfl⟩ := h
  rw [Py.splitOn_join (by simp), List.flatMap_append, List.flatMap_cons, ← List.append_assoc]
  exact List.infix_append _ _ _

/-- The other words are not the same in all files. -/
theorem appears_cxxflags_iff {flag : Str} :
    (∀ f, Appears flag (Py.join [' '] (cxxflagWords f))) ↔ flag = "-stdlib=libc++" := by
  constructor
  · intro h
    have hwithin : ∀ f, flag.splitOn ' ' <:+: cxxflagWords f :=
      fun f => splitOn_cxxflagWords f ▸ (h f).infix_splitOn
    have hcommon : ∀ w ∈ cxxflagWords .makefile, w ∈ cxxflagWords .fish → w = "-stdlib=libc++" := by
      decide +kernel
    have hword : ∀ w ∈ flag.splitOn ' ', w = ("-stdlib=libc++" : Str) :=
      fun w hw => hcommon w ((hwithin .makefile).subset hw) ((hwithin .fish).subset hw)
    have hnodup : (flag.splitOn ' ').Nodup :=
      (hwithin .makefile).sublist.nodup (show (cxxflagWords .makefile).Nodup by decide +kernel)
    have hone : flag.splitOn ' ' = [("-stdlib=libc++" : Str)] := by
      obtain ⟨w, ws, hws⟩ := List.exists_cons_of_ne_nil (List.splitOnP_ne_nil (· == ' ') flag)
      change flag.splitOn ' ' = w :: ws at hws
      rw [hws] at hword hnodup ⊢
      rw [List.forall_mem_cons] at hword
      have hnil : ws = [] := by
        refine List.eq_nil_iff_forall_not_mem.mpr fun v hv => (List.nodup_cons.mp hnodup).1 ?_
        rwa [hword.1, ← hword.2 v hv]
      rw [hword.1, hnil]
    have hjoin : [' '].intercalate (flag.splitOn ' ') = flag := List.intercalate_splitOn ' '
    rw [← hjoin, hone]
    rfl
  · rintro rfl f
    exact ⟨[], [f.spelling .cflagsVar, ("-I" : Str) ++ f.spelling .libcxxVar ++ "/include/c++/v1"], rfl⟩

-- ════════════════════════════════════════════════════════════════════════
-- The files
-- ════════════════════════════════════════════════════════════════════════

theorem File.flagTexts_eq_ok {py : Interpreter} {cfg : Config} {f : File} {texts : FlagTexts} :
    f.flagTexts py cfg = .ok texts ↔
      Py.format (f.args py [.sysrootVar]) cfg.commonCflagsText = .ok texts.cflags ∧
      texts.cxxflags = Py.join [' '] (cxxflagWords f) ∧
      Py.format (f.args py [.sysrootVar, .libcxxVar]) cfg.commonLdflagsText = .ok texts.ldflags := by
  rw [File.flagTexts, format_commonCxxflagsText]
  constructor
  · intro h
    obtain ⟨cflags, hc, h⟩ := Py.bind_eq_ok_iff.mp h
    obtain ⟨cxxflags, hcxx, h⟩ := Py.bind_eq_ok_iff.mp h
    obtain ⟨ldflags, hld, h⟩ := Py.bind_eq_ok_iff.mp h
    cases hcxx
    cases h
    exact ⟨hc, rfl, hld⟩
  · rintro ⟨hc, hcxx, hld⟩
    rw [hc, hld]
    obtain ⟨cflags, cxxflags, ldflags⟩ := texts
    cases hcxx
    rfl

theorem flagTexts_eq_ok {py : Interpreter} {cfg : FlagConfig} {texts : File → FlagTexts} :
    flagTexts py cfg = .ok texts ↔
      (cfg.triple.splitOn '-').length = 4 ∧ ∀ f : File, f.flagTexts py cfg.toConfig = .ok (texts f) := by
  by_cases hparts : (cfg.triple.splitOn '-').length = 4
  · have hgen : generate cfg.toConfig = .ok fun f => f.content cfg.toConfig := if_neg (not_not.mpr hparts)
    rw [flagTexts, hgen, and_iff_right hparts]
    refine Py.mapError_eq_ok_iff.trans ⟨fun h => ?_, fun h => ?_⟩
    · obtain ⟨makefile, hmakefile, h⟩ := Py.bind_eq_ok_iff.mp h
      obtain ⟨bash, hbash, h⟩ := Py.bind_eq_ok_iff.mp h
      obtain ⟨fish, hfish, h⟩ := Py.bind_eq_ok_iff.mp h
      obtain ⟨cmake, hcmake, h⟩ := Py.bind_eq_ok_iff.mp h
      cases h
      intro f
      cases f with
      | makefile => exact hmakefile
      | bash => exact hbash
      | fish => exact hfish
      | cmake => exact hcmake
    · rw [h .makefile, h .bash, h .fish, h .cmake]
      refine congrArg Except.ok (funext fun f => ?_)
      cases f with
      | makefile => rfl
      | bash => rfl
      | fish => rfl
      | cmake => rfl
  · have hgen : ∃ message, generate cfg.toConfig = .error message := ⟨_, if_pos hparts⟩
    obtain ⟨message, hgen⟩ := hgen
    rw [flagTexts, hgen]
    exact iff_of_false (fun h => nomatch h) fun h => hparts h.1

/-- For one file. -/
theorem keeps_iff (py : Interpreter) (cfg : FlagConfig) (f : File) :
    (∃ texts, f.flagTexts py cfg.toConfig = .ok texts ∧ Keeps cfg f texts) ↔
      (Plain cfg.triple ∧ ∀ flag ∈ cfg.extraCflags ++ cfg.warningCflags ++ cfg.wasmFeatures, Plain flag) ∧
      (∀ flag ∈ cfg.extraCxxflags, Appears flag (Py.join [' '] (cxxflagWords f))) ∧
      ∀ entry ∈ cfg.link, entry.2.Plain entry.1 := by
  have hline := firstLine_cxxflags f
  have hcmarks := result_cflagsMarks cfg.toConfig f
  have hldmarks := result_ldflagsMarks cfg.toConfig f
  constructor
  · rintro ⟨texts, hok, hkeeps⟩
    obtain ⟨hc, hcxx, hld⟩ := File.flagTexts_eq_ok.mp hok
    have hcflags := (cflags_kept_iff py cfg.toConfig f).mp ⟨texts.cflags, hc, hkeeps.cflags.trans hcmarks.symm⟩
    have hldflags := (ldflags_kept_iff py cfg.toConfig f).mp ⟨texts.ldflags, hld, hkeeps.ldflags.trans hldmarks.symm⟩
    have hcxxflags := hkeeps.cxxflags
    rw [hcxx, hline] at hcxxflags
    exact ⟨hcflags, hcxxflags, hldflags⟩
  · rintro ⟨hcflags, hcxxflags, hldflags⟩
    obtain ⟨cflags, hc, hcflags⟩ := (cflags_kept_iff py cfg.toConfig f).mpr hcflags
    obtain ⟨ldflags, hld, hldflags⟩ := (ldflags_kept_iff py cfg.toConfig f).mpr hldflags
    rw [← hline] at hcxxflags
    exact ⟨⟨cflags, _, ldflags⟩, File.flagTexts_eq_ok.mpr ⟨hc, rfl, hld⟩, hcflags.trans hcmarks, hcxxflags,
      hldflags.trans hldmarks⟩

/-- All flags get into all files exactly if the target has four parts, there are no flags for C++ but
the one that is there anyway, and no brace or line break is in the target and the other flags. -/
theorem keepsFlags_iff (py : Interpreter) (cfg : FlagConfig) : KeepsFlags py cfg ↔ Survives cfg := by
  constructor
  · rintro ⟨texts, hok, hkeeps⟩
    obtain ⟨hparts, hfiles⟩ := flagTexts_eq_ok.mp hok
    have hall := fun f => (keeps_iff py cfg f).mp ⟨texts f, hfiles f, hkeeps f⟩
    obtain ⟨⟨htriple, hcflags⟩, _, hlink⟩ := hall .makefile
    refine ⟨hparts, htriple, hcflags, fun flag hflag => ?_, hlink⟩
    exact appears_cxxflags_iff.mp fun f => (hall f).2.1 flag hflag
  · intro h
    have hall : ∀ f : File, ∃ texts, f.flagTexts py cfg.toConfig = .ok texts ∧ Keeps cfg f texts := by
      intro f
      refine (keeps_iff py cfg f).mpr ⟨⟨h.triple, h.cflags⟩, fun flag hflag => ?_, h.link⟩
      exact appears_cxxflags_iff.mpr (h.cxxflags flag hflag) f
    choose texts hok hkeeps using hall
    exact ⟨texts, flagTexts_eq_ok.mpr ⟨h.parts, hok⟩, hkeeps⟩

/-- The configuration in the repository is plain. -/
theorem plain_waliToml :
    (Plain waliToml.triple ∧
      ∀ flag ∈ waliToml.extraCflags ++ waliToml.warningCflags ++ waliToml.wasmFeatures, Plain flag) ∧
    ∀ entry ∈ waliToml.link, entry.2.Plain entry.1 := by
  have hcflags : ∀ flag ∈ waliToml.extraCflags ++ waliToml.warningCflags ++ waliToml.wasmFeatures,
      flag.all (fun c => !isBrace c && c != '\n') = true := by decide +kernel
  have hldflags : ∀ flag ∈ waliToml.ldflagTexts, flag.all (fun c => !isBrace c && c != '\n') = true := by
    decide +kernel
  refine ⟨⟨plain_of_all (by decide +kernel), fun flag hflag => plain_of_all (hcflags flag hflag)⟩, ?_⟩
  exact plain_ldflagTexts.mp fun flag hflag => plain_of_all (hldflags flag hflag)

theorem parts_waliToml : (waliToml.triple.splitOn '-').length = 4 := by decide +kernel

theorem keepsFlags_waliToml : KeepsFlags strict ⟨waliToml, []⟩ :=
  (keepsFlags_iff strict ⟨waliToml, []⟩).mpr
    ⟨parts_waliToml, plain_waliToml.1.1, plain_waliToml.1.2, fun _ hflag => (nomatch hflag), plain_waliToml.2⟩

/-- The configuration in the repository with one flag for C++. -/
def noRtti : FlagConfig where
  toConfig := waliToml
  extraCxxflags := ["-fno-rtti"]

theorem noRtti_ok : ∃ texts, flagTexts strict noRtti = .ok texts := by
  have hall : ∀ f : File, ∃ texts, f.flagTexts strict waliToml = .ok texts := by
    intro f
    obtain ⟨cflags, hc, _⟩ := (cflags_kept_iff strict waliToml f).mpr plain_waliToml.1
    obtain ⟨ldflags, hld, _⟩ := (ldflags_kept_iff strict waliToml f).mpr plain_waliToml.2
    exact ⟨⟨cflags, _, ldflags⟩, File.flagTexts_eq_ok.mpr ⟨hc, rfl, hld⟩⟩
  choose texts hok using hall
  exact ⟨texts, flagTexts_eq_ok.mpr ⟨parts_waliToml, hok⟩⟩

/-- The files are written, and the flag is in none of them. -/
theorem cxxflags_lost : ∃ texts, flagTexts strict noRtti = .ok texts ∧
    (∀ f, ¬ ("-fno-rtti" : Str) <:+: (texts f).cxxflags) ∧ ¬ KeepsFlags strict noRtti := by
  have hwords : ∀ f : File, Py.contains (Py.join [' '] (cxxflagWords f)) "-fno-rtti" = false := by
    intro f
    cases f
    all_goals decide +kernel
  obtain ⟨texts, hok⟩ := noRtti_ok
  refine ⟨texts, hok, fun f hwithin => ?_, ?_⟩
  · obtain ⟨_, hcxx, _⟩ := File.flagTexts_eq_ok.mp ((flagTexts_eq_ok.mp hok).2 f)
    have hcontains := Py.contains_iff.mpr hwithin
    rw [hcxx, hwords f] at hcontains
    cases hcontains
  · rintro ⟨texts', hok', hkeeps⟩
    have happears : ∀ f, Appears ("-fno-rtti" : Str) (Py.join [' '] (cxxflagWords f)) := by
      intro f
      have h := (hkeeps f).cxxflags _ List.mem_cons_self
      rwa [(File.flagTexts_eq_ok.mp ((flagTexts_eq_ok.mp hok').2 f)).2.1, firstLine_cxxflags] at h
    exact absurd (appears_cxxflags_iff.mp happears) (by decide)

-- ════════════════════════════════════════════════════════════════════════
-- The definitions in the files
-- ════════════════════════════════════════════════════════════════════════

section Definitions

variable {f : File} {env : Var → Str}

theorem expand_commonCflags (cfg : Config) (henv : ∀ s : Slot, env s.var = f.spelling s) :
    expand env (cfg.commonCflags .sysrootDir) = result (cflagsMarks cfg f) := by
  have hsysroot : env .sysrootDir = f.spelling .sysrootVar := henv .sysrootVar
  have hnil : ("" : Str) = [] := rfl
  rw [Config.commonCflags, expand_shJoin, List.map_cons, List.map_cons, expand_text, expand_around,
    map_expand_text, hsysroot, result_cflagsMarks, hnil, List.append_nil]
  rfl

theorem expand_commonCxxflags (henv : ∀ s : Slot, env s.var = f.spelling s) :
    expand env (commonCxxflags .commonCflags .libcxxDir) = Py.join [' '] (cxxflagWords f) := by
  have hcflags : env .commonCflags = f.spelling .cflagsVar := henv .cflagsVar
  have hlibcxx : env .libcxxDir = f.spelling .libcxxVar := henv .libcxxVar
  rw [commonCxxflags, expand_shJoin, List.map_cons, List.map_cons, List.map_singleton, expand_text, expand_ref,
    expand_around, hcflags, hlibcxx]
  rfl

theorem expand_commonLdflags (cfg : Config) (henv : ∀ s : Slot, env s.var = f.spelling s) :
    expand env (cfg.commonLdflags .sysrootDir .libcxxDir) = result (ldflagsMarks cfg f) := by
  have hsysroot : env .sysrootDir = f.spelling .sysrootVar := henv .sysrootVar
  have hlibcxx : env .libcxxDir = f.spelling .libcxxVar := henv .libcxxVar
  rw [Config.commonLdflags, expand_shJoin, List.map_cons, List.map_cons, expand_around, expand_around,
    map_expand_text, hsysroot, hlibcxx, result_ldflagsMarks]
  rfl

/-- The right-hand sides of the definitions. -/
def Config.expandFlags (cfg : Config) (env : Var → Str) : FlagTexts where
  cflags := expand env (cfg.commonCflags .sysrootDir)
  cxxflags := expand env (Toolchains.commonCxxflags .commonCflags .libcxxDir)
  ldflags := expand env (cfg.commonLdflags .sysrootDir .libcxxDir)

/-- Where no brace and no line break is in the flags, their texts are the right-hand sides of the
definitions, with the variables as the file refers to them. -/
theorem flagTexts_eq_expand {py : Interpreter} {cfg : FlagConfig} {texts : File → FlagTexts}
    (htriple : Plain cfg.triple)
    (hcflags : ∀ flag ∈ cfg.extraCflags ++ cfg.warningCflags ++ cfg.wasmFeatures, Plain flag)
    (hlink : ∀ entry ∈ cfg.link, entry.2.Plain entry.1) (hok : flagTexts py cfg = .ok texts)
    (henv : ∀ s : Slot, env s.var = f.spelling s) : texts f = cfg.expandFlags env := by
  obtain ⟨hc, hcxx, hld⟩ := File.flagTexts_eq_ok.mp ((flagTexts_eq_ok.mp hok).2 f)
  have hcformat := format_of_plainChars (fits_cflagsMarks py cfg.toConfig f)
    ((plainChars_cflagsMarks cfg.toConfig f).mpr ⟨htriple, hcflags⟩)
  have hldformat := format_of_plainChars (fits_ldflagsMarks py cfg.toConfig f)
    ((plainChars_ldflagsMarks cfg.toConfig f).mpr hlink)
  rw [source_cflagsMarks, hc, ← expand_commonCflags cfg.toConfig henv] at hcformat
  rw [source_ldflagsMarks, hld, ← expand_commonLdflags cfg.toConfig henv] at hldformat
  rw [Config.expandFlags, ← Except.ok.inj hcformat, ← Except.ok.inj hldformat, expand_commonCxxflags henv,
    ← hcxx]

theorem plain_of_literal {L : Languages} {s : Str} (h : ∀ c ∈ s, L.isLiteral c = true) : Plain s := by
  have hne : ∀ {c d : Char}, c ∈ s → L.isLiteral d = false → c ≠ d := by
    rintro c d hc hd rfl
    exact Bool.false_ne_true (hd.symm.trans (h c hc))
  intro c hc
  refine ⟨?_, hne hc L.no_newline⟩
  rw [isBrace, Bool.or_eq_false_iff, beq_eq_false_iff_ne, beq_eq_false_iff_ne]
  exact ⟨hne hc L.no_braces.1, hne hc L.no_braces.2⟩

/-- In particular where all texts are literal: what is put into the files is what is read from them. -/
theorem flagTexts_of_literal {L : Languages} {py : Interpreter} {cfg : FlagConfig} {texts : File → FlagTexts}
    (h : L.Literal cfg.toConfig) (hok : flagTexts py cfg = .ok texts)
    (henv : ∀ s : Slot, env s.var = f.spelling s) : texts f = cfg.expandFlags env := by
  have hplain : ∀ s ∈ cfg.texts, Plain s := fun s hs => plain_of_literal (h s hs)
  rw [Config.texts, List.forall_mem_append, List.forall_mem_append, List.forall_mem_cons,
    List.forall_mem_flatMap] at hplain
  refine flagTexts_eq_expand hplain.1.1.1 hplain.1.2 (fun entry hentry => ?_) hok henv
  obtain ⟨key, val⟩ := entry
  obtain ⟨hkey, hval⟩ := List.forall_mem_cons.mp (hplain.2 _ hentry)
  cases val with
  | flag on => exact fun _ => hkey
  | list xs => exact fun x hx => ⟨hkey, hval x hx⟩
  | value x => exact ⟨hkey, hval x (List.mem_singleton_self x)⟩

end Definitions

end Wali.Toolchains
