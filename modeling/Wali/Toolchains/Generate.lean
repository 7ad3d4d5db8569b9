import Wali.Toolchains.Template
import Wali.Paths

/-!
# The toolchain files

`gen_toolchains.py` writes the same toolchain for Make, Bash, Fish and CMake. Every file finds the
directory it is in and builds its paths from there. Three of them go up one level first, to the
root of the project; the CMake file does not.
-/

namespace Wali.Toolchains

open Py (Str)
open Paths (IsName Leads WordTo climb normText)

/-- The variables. In the CMake file `CMAKE_SYSROOT`, `CMAKE_C_COMPILER`, `CMAKE_C_FLAGS` and so on
stand for `WALI_SYSROOT_DIR`, `WALI_CC`, `WALI_COMMON_CFLAGS`. -/
inductive Var where
  /-- Where the file is. -/
  | location
  | rootDir | buildDir | llvmDir | sysrootDir | libcxxDir | llvmBinDir
  | cc | cxx | ld | ar | ranlib
  | commonCflags | commonCxxflags | commonLdflags
  | target | targetNovendor | llvmVersion | llvmMajorVersion | libclangRtLib
  deriving DecidableEq

/-- A value in `[flags.link]`. -/
inductive LinkValue where
  | flag (on : Bool)
  | list (xs : List Str)
  | value (x : Str)

/-- `wali.toml`. -/
structure Config where
  triple : Str
  llvmVersion : Str
  buildDir : Str
  llvmDir : Str
  sysroot : Str
  libcxx : Str
  extraCflags : List Str
  warningCflags : List Str
  wasmFeatures : List Str
  link : List (Str × LinkValue)

namespace Config

variable (cfg : Config)

/-- The flags behind the target and the sysroot. -/
def cflagTexts : List Str :=
  cfg.extraCflags ++ cfg.warningCflags.map (("-W" : Str) ++ ·) ++ cfg.wasmFeatures

def ldflagTexts : List Str :=
  cfg.link.flatMap fun
    | (key, .flag on) => if on then [("-Wl,--" : Str) ++ key] else []
    | (key, .list xs) => xs.map fun x => ("-Wl,--" : Str) ++ key ++ "=" ++ x
    | (key, .value x) => [("-Wl,--" : Str) ++ key ++ "=" ++ x]

def targetText : Str := "--target=" ++ cfg.triple

def targetNovendor : Str :=
  let parts := cfg.triple.splitOn '-'
  Py.join "-" (parts.take 1 ++ parts.drop 2)

def llvmMajor : Str := ((cfg.llvmVersion.splitOn '.').head?).getD []

def commonCflags (sysrootVar : Var) : Template Var :=
  shJoin (text cfg.targetText :: around "--sysroot=" sysrootVar "" :: cfg.cflagTexts.map text)

def commonLdflags (sysrootVar libcxxVar : Var) : Template Var :=
  shJoin (around "-L" sysrootVar "/lib" :: around "-L" libcxxVar "/lib" :: cfg.ldflagTexts.map text)

end Config

/-- The configuration has flags for C++ too, but they are not used. -/
def commonCxxflags (cflagsVar libcxxVar : Var) : Template Var :=
  shJoin [text "-stdlib=libc++", [.ref cflagsVar], around "-I" libcxxVar "/include/c++/v1"]

/-- A definition that is not quoted: a name below a directory. -/
def path (v dir : Var) (name : Str) : Assignment Var := ⟨v, false, around [] dir ('/' :: name)⟩

/-- What `wali.mk`, `wali.sh` and `wali.fish` define. In Bash the flags are quoted. -/
def envFile (cfg : Config) : List (Assignment Var) :=
  [path .rootDir .location "..",
    path .buildDir .rootDir cfg.buildDir,
    path .llvmDir .buildDir cfg.llvmDir,
    path .sysrootDir .buildDir cfg.sysroot,
    path .libcxxDir .buildDir cfg.libcxx,
    path .llvmBinDir .llvmDir "bin",
    path .cc .llvmBinDir "clang",
    path .cxx .llvmBinDir "clang++",
    path .ld .llvmBinDir "wasm-ld",
    path .ar .llvmBinDir "llvm-ar",
    path .ranlib .llvmBinDir "llvm-ranlib",
    ⟨.commonCflags, true, cfg.commonCflags .sysrootDir⟩,
    ⟨.commonCxxflags, true, commonCxxflags .commonCflags .libcxxDir⟩,
    ⟨.commonLdflags, true, cfg.commonLdflags .sysrootDir .libcxxDir⟩,
    ⟨.target, false, text cfg.triple⟩,
    ⟨.targetNovendor, false, text cfg.targetNovendor⟩,
    ⟨.llvmVersion, false, text cfg.llvmVersion⟩,
    ⟨.llvmMajorVersion, false, text cfg.llvmMajor⟩,
    ⟨.libclangRtLib, false, around [] .llvmDir "/lib/clang" ++
      around "/" .llvmMajorVersion ("/lib/" ++ cfg.triple ++ "/libclang_rt.builtins.a")⟩]

inductive File where
  | makefile | bash | fish | cmake
  deriving DecidableEq

def makefile : Config → List (Assignment Var) := envFile

def bash : Config → List (Assignment Var) := envFile

def fish : Config → List (Assignment Var) := envFile

def cmake (cfg : Config) : List (Assignment Var) :=
  [⟨.rootDir, true, [.ref .location]⟩,
    path .buildDir .rootDir cfg.buildDir,
    path .llvmBinDir .buildDir (cfg.llvmDir ++ "/bin"),
    path .libcxxDir .buildDir cfg.libcxx,
    path .sysrootDir .buildDir cfg.sysroot,
    path .cc .llvmBinDir "clang",
    path .cxx .llvmBinDir "clang++",
    path .ar .llvmBinDir "llvm-ar",
    path .ranlib .llvmBinDir "llvm-ranlib",
    path .ld .llvmBinDir "wasm-ld",
    ⟨.commonCflags, true, cfg.commonCflags .sysrootDir⟩,
    ⟨.commonCxxflags, true, commonCxxflags .commonCflags .libcxxDir⟩,
    ⟨.commonLdflags, true, cfg.commonLdflags .sysrootDir .libcxxDir⟩]

def File.content (cfg : Config) : File → List (Assignment Var)
  | .makefile => Toolchains.makefile cfg
  | .bash => Toolchains.bash cfg
  | .fish => Toolchains.fish cfg
  | .cmake => Toolchains.cmake cfg

/-- `main`. -/
def generate (cfg : Config) : Except Str (File → List (Assignment Var)) :=
  if (cfg.triple.splitOn '-').length ≠ 4 then
    .error "[target.triple] requires full 4-tuple specification (arch-vendor-os-env)"
  else .ok fun f => f.content cfg

-- ════════════════════════════════════════════════════════════════════════
-- Reading the files
-- ════════════════════════════════════════════════════════════════════════

/-- Letters, digits, blanks and what else is in the texts of the generator. -/
def isOrdinary (c : Char) : Bool := c.isAlphanum || (" -_./+=," : Str).contains c

/-- Make, Bash, Fish and CMake, and what they do with quotes, escapes, wildcards, comments and so on
before they read a definition. A right-hand side of literal characters stays as it is. -/
structure Languages where
  isLiteral : Char → Bool
  ordinary : ∀ c, isOrdinary c = true → isLiteral c = true
  /-- Braces in the flags are not for them but for `format`. -/
  no_braces : isLiteral '{' = false ∧ isLiteral '}' = false
  /-- A definition is one line of its file. -/
  no_newline : isLiteral '\n' = false
  read : File → Template Var → Template Var
  read_literal : ∀ f t, (∀ c, .chr c ∈ t → isLiteral c = true) → read f t = t

def LinkValue.texts : LinkValue → List Str
  | .flag _ => []
  | .list xs => xs
  | .value x => [x]

/-- All texts in the configuration. -/
def Config.texts (cfg : Config) : List Str :=
  [cfg.triple, cfg.llvmVersion, cfg.buildDir, cfg.llvmDir, cfg.sysroot, cfg.libcxx] ++
    (cfg.extraCflags ++ cfg.warningCflags ++ cfg.wasmFeatures) ++
    cfg.link.flatMap fun e => e.1 :: e.2.texts

namespace Languages

variable (L : Languages)

/-- The texts in the configuration are read as they stand. -/
def Literal (cfg : Config) : Prop := ∀ s ∈ cfg.texts, ∀ c ∈ s, L.isLiteral c = true

/-- The definitions as the languages read them. -/
def readFiles (files : File → List (Assignment Var)) (f : File) : List (Assignment Var) :=
  (files f).map fun a => { a with rhs := L.read f a.rhs }

end Languages

/-- The directory the files are in: an absolute path without links and blanks. -/
structure Location where
  comps : List Str
  isName : ∀ c ∈ comps, IsName c
  no_blank : ∀ c ∈ comps, ' ' ∉ c

namespace Location

variable (loc : Location)

def file (name : Str) : Str := loc.comps.flatMap ('/' :: ·) ++ '/' :: name

end Location

/-- `$(dir s)`. -/
def makeDir (s : Str) : Str := s.rdropWhile (· != '/')

/-- `$(patsubst %/,%,s)`. -/
def stripSlash (s : Str) : Str := if Py.endsWith s "/" then s.dropLast else s

def dirname (s : Str) : Str :=
  let dir := Py.rstripChar '/' (makeDir s)
  if dir = [] then "/" else dir

/-- How a file finds out where it is. -/
def File.location (loc : Location) : File → Str
  | .makefile => stripSlash (makeDir (loc.file "wali.mk"))
  | .bash => dirname (loc.file "wali.sh")
  | .fish => dirname (loc.file "wali.fish")
  | .cmake => Paths.absolute loc.comps

/-- At first only the location is known. -/
def start {α : Type} (x : List α) : Var → List α := Function.update (fun _ => []) .location x

/-- What a variable has been defined as. Fish exports a list with blanks between its words. -/
def value (files : File → List (Assignment Var)) (loc : Location) : File → Var → Str
  | .makefile => run evalMake (start (File.makefile.location loc)) (files .makefile)
  | .bash => run evalBash (start (File.bash.location loc)) (files .bash)
  | .fish => fun v => Py.join [' '] (run evalFish (start [File.fish.location loc]) (files .fish) v)
  | .cmake => run evalCmake (start (File.cmake.location loc)) (files .cmake)

/-- The variables that make up the toolchain. -/
def toolchain : List Var :=
  [.sysrootDir, .libcxxDir, .cc, .cxx, .ld, .ar, .ranlib, .commonCflags, .commonCxxflags, .commonLdflags]

/-- The files define the same toolchain, up to the normal form of paths. -/
def Agree (files : File → List (Assignment Var)) (loc : Location) : Prop :=
  ∀ v ∈ toolchain, ∀ f g, normText (value files loc f v) = normText (value files loc g v)

/-- What it takes for the files to agree. -/
structure Aligned (cfg : Config) (loc : Location) : Prop where
  /-- No directory name has a blank in it. -/
  dirs : ∀ d ∈ [cfg.buildDir, cfg.llvmDir, cfg.sysroot, cfg.libcxx], ' ' ∉ d
  /-- The directories below the build directory lead up to the root of the file system. -/
  climbs : ∀ d ∈ [cfg.llvmDir, cfg.sysroot, cfg.libcxx],
    loc.comps.length ≤ climb (cfg.buildDir.splitOn '/' ++ d.splitOn '/')
  /-- No flag is empty, starts or ends with a blank or has two blanks in a row. -/
  flags : ∀ e ∈ cfg.targetText :: cfg.cflagTexts ++ cfg.ldflagTexts, [] ∉ e.splitOn ' '

-- ════════════════════════════════════════════════════════════════════════
-- Literal texts
-- ════════════════════════════════════════════════════════════════════════

namespace Languages

section Literal

variable {L : Languages} {cfg : Config}

/-- A right-hand side of literal characters. -/
def IsLiteral (L : Languages) (t : Template Var) : Prop := ∀ c, .chr c ∈ t → L.isLiteral c = true

theorem isLiteral_of_all (L : Languages) {s : Str} (h : s.all isOrdinary = true) :
    ∀ c ∈ s, L.isLiteral c = true :=
  fun c hc => L.ordinary c (List.all_eq_true.mp h c hc)

theorem isLiteral_text {s : Str} (h : ∀ c ∈ s, L.isLiteral c = true) : L.IsLiteral (text s) := by
  intro c hc
  obtain ⟨d, hd, he⟩ := List.mem_map.mp hc
  exact Sym.chr.inj he ▸ h d hd

theorem isLiteral_append {t t' : Template Var} (h : L.IsLiteral t) (h' : L.IsLiteral t') :
    L.IsLiteral (t ++ t') := fun c hc => (List.mem_append.mp hc).elim (h c) (h' c)

theorem isLiteral_ref (v : Var) : L.IsLiteral [.ref v] := by
  intro c hc
  cases List.mem_singleton.mp hc

theorem isLiteral_around {pre post : Str} (hpre : ∀ c ∈ pre, L.isLiteral c = true)
    (hpost : ∀ c ∈ post, L.isLiteral c = true) (v : Var) : L.IsLiteral (around pre v post) := by
  have htail : L.IsLiteral ([.ref v] ++ text post) :=
    isLiteral_append (isLiteral_ref v) (isLiteral_text hpost)
  rw [around]
  exact isLiteral_append (isLiteral_text hpre) htail

theorem isLiteral_shJoin {xs : List (Template Var)} (h : ∀ t ∈ xs, L.IsLiteral t) :
    L.IsLiteral (shJoin xs) := by
  have hblank : L.IsLiteral (text [' ']) := isLiteral_text (L.isLiteral_of_all (by decide))
  refine Cut.intercalate_induction (fun c hc => absurd hc List.not_mem_nil) (fun t t' ht ht' => ?_) h
  exact isLiteral_append (isLiteral_append ht hblank) ht'

theorem isLiteral_texts {xs : List Str} (h : ∀ s ∈ xs, ∀ c ∈ s, L.isLiteral c = true) :
    ∀ t ∈ xs.map text, L.IsLiteral t := by
  rw [List.forall_mem_map]
  exact fun s hs => isLiteral_text (h s hs)

theorem isLiteral_path {name : Str} (h : ∀ c ∈ name, L.isLiteral c = true) (v d : Var) :
    L.IsLiteral (path v d name).rhs := by
  change L.IsLiteral (around [] d ('/' :: name))
  refine isLiteral_around (L.isLiteral_of_all rfl) ?_ d
  rw [List.forall_mem_cons]
  exact ⟨L.ordinary _ (by decide), h⟩

theorem Literal.cflagTexts (h : L.Literal cfg) :
    ∀ s ∈ cfg.targetText :: cfg.cflagTexts, ∀ c ∈ s, L.isLiteral c = true := by
  have hflags : ∀ s ∈ cfg.extraCflags ++ cfg.warningCflags ++ cfg.wasmFeatures,
      ∀ c ∈ s, L.isLiteral c = true := by
    intro s hs
    refine h s ?_
    rw [Config.texts]
    exact List.mem_append_left _ (List.mem_append_right _ hs)
  rw [List.forall_mem_append, List.forall_mem_append] at hflags
  have hwarn : ∀ s ∈ cfg.warningCflags.map (("-W" : Str) ++ ·), ∀ c ∈ s, L.isLiteral c = true :=
    List.forall_mem_map.mpr fun s hs =>
      List.forall_mem_append.mpr ⟨L.isLiteral_of_all (by decide), hflags.1.2 s hs⟩
  have htarget : ∀ c ∈ cfg.targetText, L.isLiteral c = true :=
    List.forall_mem_append.mpr ⟨L.isLiteral_of_all (by decide), h cfg.triple (by simp [Config.texts])⟩
  refine List.forall_mem_cons.mpr ⟨htarget, ?_⟩
  rw [Config.cflagTexts]
  exact List.forall_mem_append.mpr ⟨List.forall_mem_append.mpr ⟨hflags.1.1, hwarn⟩, hflags.2⟩

theorem Literal.ldflagTexts (h : L.Literal cfg) :
    ∀ s ∈ cfg.ldflagTexts, ∀ c ∈ s, L.isLiteral c = true := by
  have hlink : ∀ e ∈ cfg.link, ∀ s ∈ e.1 :: e.2.texts, ∀ c ∈ s, L.isLiteral c = true := by
    intro e he s hs
    refine h s ?_
    rw [Config.texts]
    exact List.mem_append_right _ (List.mem_flatMap.mpr ⟨e, he, hs⟩)
  have hkey : ∀ {key : Str}, (∀ c ∈ key, L.isLiteral c = true) →
      ∀ c ∈ ("-Wl,--" : Str) ++ key, L.isLiteral c = true := fun hk =>
    List.forall_mem_append.mpr ⟨L.isLiteral_of_all (by decide), hk⟩
  have hvalue : ∀ {key x : Str}, (∀ c ∈ key, L.isLiteral c = true) → (∀ c ∈ x, L.isLiteral c = true) →
      ∀ c ∈ ("-Wl,--" : Str) ++ key ++ "=" ++ x, L.isLiteral c = true := fun hk hx =>
    List.forall_mem_append.mpr ⟨List.forall_mem_append.mpr ⟨hkey hk, L.isLiteral_of_all (by decide)⟩, hx⟩
  rw [Config.ldflagTexts, List.forall_mem_flatMap]
  rintro ⟨key, val⟩ he
  obtain ⟨hk, hv⟩ := List.forall_mem_cons.mp (hlink _ he)
  cases val with
  | flag on =>
    cases on with
    | false => exact List.forall_mem_nil _
    | true => exact List.forall_mem_singleton.mpr (hkey hk)
  | list xs => exact List.forall_mem_map.mpr fun x hx => hvalue hk (hv x hx)
  | value x => exact List.forall_mem_singleton.mpr (hvalue hk (hv x (List.mem_singleton_self x)))

theorem Literal.commonCflags (h : L.Literal cfg) (v : Var) : L.IsLiteral (cfg.commonCflags v) := by
  have htexts := List.forall_mem_cons.mp h.cflagTexts
  refine isLiteral_shJoin (List.forall_mem_cons.mpr ⟨isLiteral_text htexts.1,
    List.forall_mem_cons.mpr ⟨?_, isLiteral_texts htexts.2⟩⟩)
  exact isLiteral_around (L.isLiteral_of_all (by decide)) (L.isLiteral_of_all (by decide)) v

theorem isLiteral_commonCxxflags (u v : Var) : L.IsLiteral (commonCxxflags u v) := by
  refine isLiteral_shJoin ?_
  simp only [List.forall_mem_cons]
  exact ⟨isLiteral_text (L.isLiteral_of_all (by decide)), isLiteral_ref u,
    isLiteral_around (L.isLiteral_of_all (by decide)) (L.isLiteral_of_all (by decide)) v,
    List.forall_mem_nil _⟩

theorem Literal.commonLdflags (h : L.Literal cfg) (u v : Var) : L.IsLiteral (cfg.commonLdflags u v) := by
  have hdir : ∀ w : Var, L.IsLiteral (around "-L" w "/lib") :=
    isLiteral_around (L.isLiteral_of_all (by decide)) (L.isLiteral_of_all (by decide))
  exact isLiteral_shJoin (List.forall_mem_cons.mpr ⟨hdir u,
    List.forall_mem_cons.mpr ⟨hdir v, isLiteral_texts h.ldflagTexts⟩⟩)

theorem Literal.targetNovendor (h : L.Literal cfg) :
    ∀ c ∈ cfg.targetNovendor, L.isLiteral c = true := by
  intro c hc
  rcases Py.mem_join hc with hc | ⟨part, hpart, hc⟩
  · exact L.isLiteral_of_all (by decide) c hc
  · have hsplit : part ∈ cfg.triple.splitOn '-' := by
      rcases List.mem_append.mp hpart with hpart | hpart
      · exact List.mem_of_mem_take hpart
      · exact List.mem_of_mem_drop hpart
    exact h cfg.triple (by simp [Config.texts]) c ((Py.mem_splitOn hsplit).2 c hc)

theorem Literal.llvmMajor (h : L.Literal cfg) : ∀ c ∈ cfg.llvmMajor, L.isLiteral c = true := by
  intro c hc
  obtain ⟨part, parts, hparts⟩ := List.exists_cons_of_ne_nil (List.splitOnP_ne_nil (· == '.') cfg.llvmVersion)
  have hsplit : part ∈ cfg.llvmVersion.splitOn '.' := by
    rw [List.splitOn, hparts]
    exact List.mem_cons_self
  have hmajor : cfg.llvmMajor = part := by
    rw [Config.llvmMajor, List.splitOn, hparts]
    rfl
  exact h cfg.llvmVersion (by simp [Config.texts]) c ((Py.mem_splitOn hsplit).2 c (hmajor ▸ hc))

theorem Literal.path (h : L.Literal cfg) {name : Str}
    (hname : name ∈ [cfg.buildDir, cfg.llvmDir, cfg.sysroot, cfg.libcxx]) (v d : Var) :
    L.IsLiteral (path v d name).rhs := by
  refine isLiteral_path (h name ?_) v d
  rw [Config.texts]
  exact List.mem_append_left _ (List.mem_append_left _ (List.mem_cons_of_mem _ (List.mem_cons_of_mem _ hname)))

/-- A name that is not from the configuration. -/
theorem isLiteral_path_of_all {name : Str} (h : name.all isOrdinary = true) (v d : Var) :
    L.IsLiteral (Toolchains.path v d name).rhs := isLiteral_path (L.isLiteral_of_all h) v d

theorem Literal.envFile (h : L.Literal cfg) : ∀ a ∈ envFile cfg, L.IsLiteral a.rhs := by
  have htriple := h cfg.triple (by simp [Config.texts])
  have hversion := h cfg.llvmVersion (by simp [Config.texts])
  have hlib : L.IsLiteral (around [] .llvmDir "/lib/clang" ++
      around "/" .llvmMajorVersion ("/lib/" ++ cfg.triple ++ "/libclang_rt.builtins.a")) := by
    refine isLiteral_append (isLiteral_around (L.isLiteral_of_all rfl) (L.isLiteral_of_all (by decide)) _)
      (isLiteral_around (L.isLiteral_of_all (by decide)) ?_ _)
    simp only [List.forall_mem_append]
    exact ⟨⟨L.isLiteral_of_all (by decide), htriple⟩, L.isLiteral_of_all (by decide)⟩
  simp only [Toolchains.envFile, List.forall_mem_cons]
  exact ⟨isLiteral_path_of_all (by decide) _ _, h.path (by simp) _ _, h.path (by simp) _ _,
    h.path (by simp) _ _, h.path (by simp) _ _, isLiteral_path_of_all (by decide) _ _,
    isLiteral_path_of_all (by decide) _ _, isLiteral_path_of_all (by decide) _ _,
    isLiteral_path_of_all (by decide) _ _, isLiteral_path_of_all (by decide) _ _,
    isLiteral_path_of_all (by decide) _ _, h.commonCflags _, isLiteral_commonCxxflags _ _,
    h.commonLdflags _ _, isLiteral_text htriple, isLiteral_text h.targetNovendor,
    isLiteral_text hversion, isLiteral_text h.llvmMajor, hlib, List.forall_mem_nil _⟩

theorem Literal.cmake (h : L.Literal cfg) : ∀ a ∈ cmake cfg, L.IsLiteral a.rhs := by
  have hbin : ∀ c ∈ cfg.llvmDir ++ ("/bin" : Str), L.isLiteral c = true :=
    List.forall_mem_append.mpr ⟨h cfg.llvmDir (by simp [Config.texts]), L.isLiteral_of_all (by decide)⟩
  simp only [Toolchains.cmake, List.forall_mem_cons]
  exact ⟨isLiteral_ref _, h.path (by simp) _ _, isLiteral_path hbin _ _, h.path (by simp) _ _,
    h.path (by simp) _ _, isLiteral_path_of_all (by decide) _ _, isLiteral_path_of_all (by decide) _ _,
    isLiteral_path_of_all (by decide) _ _, isLiteral_path_of_all (by decide) _ _,
    isLiteral_path_of_all (by decide) _ _, h.commonCflags _, isLiteral_commonCxxflags _ _,
    h.commonLdflags _ _, List.forall_mem_nil _⟩

theorem Literal.content (h : L.Literal cfg) (f : File) : ∀ a ∈ f.content cfg, L.IsLiteral a.rhs := by
  cases f with
  | makefile => exact h.envFile
  | bash => exact h.envFile
  | fish => exact h.envFile
  | cmake => exact h.cmake

/-- Then the languages do not change the files. -/
theorem Literal.readFiles_content (h : L.Literal cfg) :
    L.readFiles (File.content cfg) = File.content cfg := by
  funext f
  refine (List.map_congr_left fun a ha => ?_).trans (List.map_id _)
  rw [L.read_literal f a.rhs (h.content f a ha)]
  rfl

end Literal

end Languages

-- ════════════════════════════════════════════════════════════════════════
-- Locations
-- ════════════════════════════════════════════════════════════════════════

section Locations

variable (loc : Location)

theorem makeDir_file {name : Str} (h : '/' ∉ name) :
    makeDir (loc.file name) = loc.comps.flatMap ('/' :: ·) ++ ['/'] := by
  have hall : ∀ c ∈ name.reverse, (c != '/') = true := by
    intro c hc
    rw [bne_iff_ne]
    rintro rfl
    exact h (List.mem_reverse.mp hc)
  rw [makeDir, Location.file, List.rdropWhile, List.reverse_append, List.reverse_cons, List.append_assoc,
    List.singleton_append, Cut.dropWhile_append_cons (by decide), List.dropWhile_eq_nil_iff.mpr hall,
    List.nil_append, List.reverse_cons, List.reverse_reverse]

theorem location_makefile : File.makefile.location loc = loc.comps.flatMap ('/' :: ·) := by
  have hend : Py.endsWith (loc.comps.flatMap ('/' :: ·) ++ ['/']) "/" = true :=
    Py.endsWith_iff.mpr ⟨_, rfl⟩
  rw [File.location, makeDir_file loc (by decide), stripSlash, if_pos hend, List.dropLast_concat]

/-- The text of a directory does not end in a slash. -/
theorem rstripChar_flatMap :
    Py.rstripChar '/' (loc.comps.flatMap ('/' :: ·)) = loc.comps.flatMap ('/' :: ·) := by
  rcases List.eq_nil_or_concat loc.comps with hnil | ⟨dir, d, hd⟩
  · rw [hnil]
    rfl
  · have hname := loc.isName d (by rw [hd]; simp)
    obtain ⟨e, c, rfl⟩ := (List.eq_nil_or_concat d).resolve_left hname.ne_nil
    have hc : ¬ (c == '/') = true := by
      rw [beq_iff_eq]
      rintro rfl
      exact hname.no_slash (by simp)
    rw [hd, List.concat_eq_append, List.concat_eq_append, List.flatMap_append, List.flatMap_singleton,
      ← List.cons_append, ← List.append_assoc, Py.rstripChar]
    exact List.rdropWhile_concat_neg (· == '/') _ _ hc

theorem dirname_file {name : Str} (h : '/' ∉ name) : dirname (loc.file name) = Paths.absolute loc.comps := by
  have hstrip : Py.rstripChar '/' (loc.comps.flatMap ('/' :: ·) ++ ['/']) =
      Py.rstripChar '/' (loc.comps.flatMap ('/' :: ·)) := List.rdropWhile_concat_pos _ _ _ (by decide)
  rw [dirname, makeDir_file loc h, hstrip, rstripChar_flatMap, Paths.absolute]
  cases loc.comps with
  | nil => rfl
  | cons d dir => rfl

/-- Make knows the location without a slash at the root, the others do not. -/
theorem location_eq (f : File) :
    f.location loc = loc.comps.flatMap ('/' :: ·) ∨ f.location loc = Paths.absolute loc.comps := by
  cases f with
  | makefile => exact Or.inl (location_makefile loc)
  | bash => exact Or.inr (dirname_file loc (by decide))
  | fish => exact Or.inr (dirname_file loc (by decide))
  | cmake => exact Or.inr rfl

theorem leads_location (f : File) : Leads (f.location loc) loc.comps := by
  rcases location_eq loc f with h | h
  · exact h ▸ Paths.leads_flatMap loc.isName
  · exact h ▸ Paths.leads_absolute loc.isName

theorem blank_not_mem_location (f : File) : ' ' ∉ f.location loc := by
  have hflat : ' ' ∉ loc.comps.flatMap ('/' :: ·) := by
    intro hmem
    obtain ⟨d, hd, hc⟩ := List.mem_flatMap.mp hmem
    rcases List.mem_cons.mp hc with hc | hc
    · exact absurd hc (by decide)
    · exact loc.no_blank d hd hc
  rcases location_eq loc f with h | h
  · rwa [h]
  · rw [h, Paths.absolute]
    split
    · decide
    · exact hflat

/-- The root of the project, one level up. -/
theorem wordTo_root (f : File) : WordTo (f.location loc ++ ("/.." : Str)) loc.comps.dropLast :=
  (leads_location loc f).wordTo_below (blank_not_mem_location loc f) (by decide)

theorem wordTo_cmake : WordTo (File.cmake.location loc) loc.comps where
  leads := leads_location loc .cmake
  ne_nil := Paths.absolute_ne_nil loc.comps
  no_blank := blank_not_mem_location loc .cmake

end Locations

-- ════════════════════════════════════════════════════════════════════════
-- The definitions as equations
-- ════════════════════════════════════════════════════════════════════════

section Equations

variable (cfg : Config)

theorem refs_text (s : Str) : refs (text s : Template Var) = [] := by
  rw [refs, text, List.filterMap_map]
  exact List.filterMap_none s

theorem refs_around (pre : Str) (v : Var) (post : Str) : refs (around pre v post) = [v] := by
  rw [around, refs, List.filterMap_append]
  change refs (text pre) ++ v :: refs (text post) = _
  rw [refs_text, refs_text, List.nil_append]

theorem refs_append (t t' : Template Var) : refs (t ++ t') = refs t ++ refs t' :=
  List.filterMap_append

theorem refs_shJoin (xs : List (Template Var)) : refs (shJoin xs) = xs.flatMap refs := by
  induction xs with
  | nil => rfl
  | cons x xs ih =>
    cases xs with
    | nil => simp [shJoin]
    | cons y ys =>
      rw [shJoin_cons_cons, refs_append, List.flatMap_cons, ← ih]
      rfl

theorem refs_texts (xs : List Str) : (xs.map text).flatMap refs = ([] : List Var) := by
  refine List.flatMap_eq_nil_iff.mpr fun t ht => ?_
  obtain ⟨s, _, rfl⟩ := List.mem_map.mp ht
  exact refs_text s

theorem refs_commonCflags (v : Var) : refs (cfg.commonCflags v) = [v] := by
  rw [Config.commonCflags, refs_shJoin, List.flatMap_cons, List.flatMap_cons, refs_text, refs_around,
    refs_texts]
  rfl

theorem refs_commonCxxflags (u v : Var) : refs (commonCxxflags u v) = [u, v] := by
  rw [commonCxxflags, refs_shJoin, List.flatMap_cons, List.flatMap_cons, List.flatMap_singleton,
    refs_text, refs_around]
  rfl

theorem refs_commonLdflags (u v : Var) : refs (cfg.commonLdflags u v) = [u, v] := by
  rw [Config.commonLdflags, refs_shJoin, List.flatMap_cons, List.flatMap_cons, refs_around,
    refs_around, refs_texts]
  rfl

theorem ordered_envFile : Ordered (envFile cfg) := by
  simp [Ordered, envFile, path, refs_around, refs_text, refs_append, refs_commonCflags,
    refs_commonCxxflags, refs_commonLdflags]

theorem ordered_cmake : Ordered (cmake cfg) := by
  have href : refs [Sym.ref Var.location] = [Var.location] := rfl
  simp [Ordered, cmake, path, refs_around, href, refs_commonCflags, refs_commonCxxflags,
    refs_commonLdflags]

end Equations

end Wali.Toolchains
