import Wali.Syscalls
import Wali.Abi.Invariant

/-!
# The WAMR generator

`WamrGenerator`: C prototypes and bodies for the engine side of every call, and the table of
native symbols with a signature string for each. Parameter lists and signature characters are
separate from the text around them, so that they can be compared.
-/

namespace Wali

open Py (Str)

/-- The fixed-width C type of a primitive. -/
def Primitive.ctype (p : Primitive) : Str :=
  (if p.signed then "int" else "uint") ++ Py.natStr (p.size * 8) ++ "_t"

/-- Stubs between two texts, either of which may be missing. -/
def stubFile (before : Str) (stubs : List Str) (after : Str) : Str :=
  Py.join "\n" ((if before = [] then [] else [before]) ++ [Py.join "\n" stubs] ++
    (if after = [] then [] else [after]))

/-- `gen_and_write`: the stubs of the implemented syscalls, or of all, between two texts. -/
def genAndWrite (stub : Syscall → Except Py.Error Str) (syscalls : List Syscall)
    (includeUnimplementedCalls : Bool) (before after : Str) : Except Py.Error Str := do
  let chosen := syscalls.filter fun sc => includeUnimplementedCalls || sc.implemented
  let buf ← chosen.mapM stub
  return stubFile before buf after

namespace Wamr

variable (R : TypeRegistry)

/-- `_arg_ctype`. -/
def argCtype (arg : SyscallArg) : Except Py.Error Str :=
  if arg.isFnPtr then .ok "WasmTableInternalIdx"
  else if arg.isPtr then .ok "WasmMemAddr"
  else (R.resolvePrimitive arg).map Primitive.ctype

/-- The typed parameters of a prototype: types by position, names beside them. -/
def params (args : List SyscallArg) (argsId : List Str) : Except Py.Error (List (Str × Str)) :=
  (args.zip argsId).mapM fun e => (argCtype R e.1).map (·, e.2)

def paramText (ps : List (Str × Str)) : Str :=
  Py.join [] (ps.map fun p => ", " ++ p.1 ++ " " ++ p.2)

/-- The parameters `declr_stub` and `impl_stub` write. -/
def declrParams (sc : Syscall) : Except Py.Error (List (Str × Str)) := do
  params R (← sc.argsReduce R) sc.argsId

def declrStub (sc : Syscall) : Except Py.Error Str := do
  let ps ← declrParams R sc
  return "long wali_syscall_" ++ sc.name ++ " (wasm_exec_env_t exec_env" ++ paramText ps ++ ");"

/-- What `impl_stub` passes on: the name of a parameter, and whether it is wrapped in `MADDR`. -/
def callArgs (args : List SyscallArg) (argsId : List Str) : List (Str × Bool) :=
  (args.zip argsId).map fun e => (e.2, Py.endsWith e.1 "*")

def callText (cs : List (Str × Bool)) : Str :=
  Py.join [] (cs.map fun c => if c.2 then ", MADDR(" ++ c.1 ++ ")" else ", " ++ c.1)

/-- The call in the body of an `impl_stub`: the number in `__syscallN` and the arguments. -/
structure NativeCall where
  arity : ℕ
  args : List (Str × Bool)
  deriving DecidableEq

def implCall (sc : Syscall) : Except Py.Error NativeCall := do
  let red ← sc.argsReduce R
  return ⟨red.length, callArgs red sc.argsId⟩

def implStub (sc : Syscall) : Except Py.Error Str := do
  let ps ← declrParams R sc
  let call ← implCall R sc
  let margin : Str := List.replicate 16 ' '
  return Py.dedent (Py.join ("\n" ++ margin) [
    margin ++ "// " ++ Py.intStr sc.nr ++ " TODO",
    "long wali_syscall_" ++ sc.name ++ " (wasm_exec_env_t exec_env" ++ paramText ps ++ ") \x7b",
    "    SC(" ++ Py.intStr sc.nr ++ ", " ++ sc.name ++ ");",
    "    ERRSC(" ++ sc.name ++ ");",
    "    RETURN(__syscall" ++ Py.natStr call.arity ++ "(SYS_" ++ sc.name ++ callText call.args ++
      "));",
    "\x7d",
    []])

/-- The character `symbols_stub` chooses, by the spelling of the type. -/
def spelledSigChar (arg : SyscallArg) : Char :=
  if Py.endsWith arg "long long" || Py.endsWith arg "long" then 'I' else 'i'

/-- The parameter part of the signature `symbols_stub` writes. -/
def symbolsParams (sc : Syscall) : Except Py.Error Str := do
  return (← sc.argsReduce R).map spelledSigChar

def nsymbol (name function sig : Str) : Str :=
  "\tNSYMBOL ( " ++ Py.rjust 20 name ++ ", " ++ Py.rjust 30 function ++ ", " ++ Py.rjust 12 sig ++
    " ),"

def symbolsStub (sc : Syscall) : Except Py.Error Str := do
  let ps ← symbolsParams R sc
  return nsymbol ("SYS_" ++ sc.name) ("wali_syscall_" ++ sc.name) ("\"(" ++ ps ++ ")I\"")

/-- `_native_sig_char`: by the size of the type. -/
def nativeSigChar (arg : SyscallArg) : Except Py.Error Char :=
  if arg.isPtr || arg.isFnPtr then .ok 'i'
  else (R.resolvePrimitive arg).map fun p => if p.size = 8 then 'I' else 'i'

section Types

variable {R}
variable {arg : SyscallArg} {p : Primitive}

theorem argCtype_of_pointer (h : arg.Pointer) :
    argCtype R arg = .ok (if arg.isFnPtr then "WasmTableInternalIdx" else "WasmMemAddr") := by
  unfold argCtype
  cases hf : arg.isFnPtr with
  | true => rfl
  | false =>
    have hp : arg.isPtr = true := h.resolve_right (by rw [hf]; decide)
    rw [hp]
    rfl

theorem argCtype_of_byValue (h : arg.ByValue) (hp : R.resolvePrimitive arg = .ok p) :
    argCtype R arg = .ok p.ctype := by
  rw [argCtype, h.1, h.2, hp]
  rfl

theorem nativeSigChar_of_pointer (h : arg.Pointer) : nativeSigChar R arg = .ok 'i' := by
  rw [nativeSigChar, h.or_eq]
  rfl

theorem nativeSigChar_of_byValue (h : arg.ByValue) (hp : R.resolvePrimitive arg = .ok p) :
    nativeSigChar R arg = .ok (if p.size = 8 then 'I' else 'i') := by
  rw [nativeSigChar, h.or_eq, hp]
  rfl

end Types

def auxFnName (aux : AuxSyscall) : Str := "wali_" ++ Py.lstripChar '_' aux.name

def auxRetType (aux : AuxSyscall) : Str :=
  match aux.result with
  | some result => if result = [] then "void" else result
  | none => "void"

def auxDeclrStub (aux : AuxSyscall) : Except Py.Error Str := do
  let ps ← params R aux.args aux.argsId
  return auxRetType aux ++ " " ++ auxFnName aux ++ " (wasm_exec_env_t exec_env" ++ paramText ps ++
    ");"

def auxImplStub (aux : AuxSyscall) : Except Py.Error Str := do
  let ps ← params R aux.args aux.argsId
  let tag := Py.lstripChar '_' aux.name
  return Py.join "\n" ([
    "// " ++ aux.name ++ " TODO",
    auxRetType aux ++ " " ++ auxFnName aux ++ " (wasm_exec_env_t exec_env" ++ paramText ps ++
      ") \x7b",
    "    PC(" ++ tag ++ ");",
    "    ERRSC(" ++ tag ++ ", \"Not yet implemented\");"] ++
    (if auxRetType aux = "void" then [] else [("    return 0;" : Str)]) ++ [("\x7d\n" : Str)])

/-- The parameter part of the signature `aux_symbols_stub` writes. -/
def auxSymbolsParams (aux : AuxSyscall) : Except Py.Error Str := aux.args.mapM (nativeSigChar R)

/-- The return part of it. -/
def auxSymbolsRet (aux : AuxSyscall) : Except Py.Error Str :=
  match aux.result with
  | none => .ok []
  | some result => (nativeSigChar R result).map ([·])

def auxSymbolsStub (aux : AuxSyscall) : Except Py.Error Str := do
  let ps ← auxSymbolsParams R aux
  let ret ← auxSymbolsRet R aux
  return nsymbol aux.name (auxFnName aux) ("\"(" ++ ps ++ ")" ++ ret ++ "\"")

/-- The three files, `declr.out`, `impl.out` and `symbols.out`. -/
structure Output where
  declr : Str
  impl : Str
  symbols : Str
  deriving DecidableEq

def generate (syscalls : List Syscall) (auxSyscalls : List AuxSyscall) :
    Except Py.Error Output := do
  let auxDeclrs ← auxSyscalls.mapM (auxDeclrStub R)
  let auxImpls ← auxSyscalls.mapM (auxImplStub R)
  let auxSymbols ← auxSyscalls.mapM (auxSymbolsStub R)
  let declr ← genAndWrite (declrStub R) syscalls false
    "typedef uint32_t WasmMemAddr;\ntypedef uint32_t WasmTableInternalIdx;\n\n/* Syscalls */"
    ("\n/* Auxiliary calls */\n" ++ Py.join "\n" auxDeclrs)
  let impl ← genAndWrite (implStub R) syscalls false "/* Syscalls */"
    ("/* Auxiliary calls */\n" ++ Py.join "\n" auxImpls)
  let symbols ← genAndWrite (symbolsStub R) syscalls false "\t/* Syscalls */"
    ("\n\t/* Auxiliary calls */\n" ++ Py.join "\n" auxSymbols)
  return { declr, impl, symbols }

/-- The 64-bit integer types among the types of parameters. -/
def Is64 (ctype : Str) : Prop := ctype = "int64_t" ∨ ctype = "uint64_t"

instance (ctype : Str) : Decidable (Is64 ctype) := inferInstanceAs (Decidable (_ ∨ _))

theorem is64_ctype {p : Primitive} (h : TypeRegistry.IsWidth p.size) : Is64 p.ctype ↔ p.size = 8 := by
  obtain ⟨size, signed⟩ := p
  simp only at h
  rcases h with rfl | rfl | rfl | rfl <;> cases signed <;> decide

variable {R}

/-- The size decides the parameter type and the engine's character in the same way. -/
theorem is64_iff_nativeSigChar (hw : ∀ p ∈ R.cPrimitives.values, TypeRegistry.IsWidth p.size)
    {arg : SyscallArg} {ty : Str} (h : argCtype R arg = .ok ty) :
    ∃ c, nativeSigChar R arg = .ok c ∧ (c = 'I' ↔ Is64 ty) ∧ (c = 'i' ↔ ¬ Is64 ty) := by
  rcases arg.pointer_or_byValue with hp | hv
  · rw [argCtype_of_pointer hp] at h
    obtain rfl := Except.ok.inj h
    refine ⟨'i', nativeSigChar_of_pointer hp, ?_⟩
    cases arg.isFnPtr <;> decide
  · rw [argCtype, hv.1, hv.2] at h
    obtain ⟨p, hr, rfl⟩ := Py.map_eq_ok_iff.mp h
    have h64 := is64_ctype (hw p (TypeRegistry.resolvePrimitive_mem hr))
    refine ⟨_, nativeSigChar_of_byValue hv hr, ?_⟩
    rw [h64]
    by_cases hs : p.size = 8
    · simp [hs]
    · simp [hs]

/-- A character describes the parameter type if it is the engine's own. -/
theorem describes_iff (hw : ∀ p ∈ R.cPrimitives.values, TypeRegistry.IsWidth p.size)
    {arg : SyscallArg} {ty : Str} (h : argCtype R arg = .ok ty) {s : Char} :
    ((s = 'I' ↔ Is64 ty) ∧ (s = 'i' ↔ ¬ Is64 ty)) ↔ nativeSigChar R arg = .ok s := by
  obtain ⟨c, hc, hI, hi⟩ := is64_iff_nativeSigChar hw h
  rw [hc, Except.ok.injEq]
  constructor
  · rintro ⟨hsI, hsi⟩
    by_cases h64 : Is64 ty
    · rw [hsI.mpr h64, hI.mpr h64]
    · rw [hsi.mpr h64, hi.mpr h64]
  · rintro rfl
    exact ⟨hI, hi⟩

/-- The spellings of shipped 8-byte types that do not end in `long`, and of the aliases of such. -/
def wideSpellings : List Str := [
  "reg", "unsigned reg", "syscall_result", "int64_t", "uint64_t",
  "time_t", "suseconds_t", "ino_t", "dev_t", "nlink_t", "blkcnt_t", "fsblkcnt_t", "fsfilcnt_t",
  "epoll_data_t"]

theorem shippedPrimitives_chars : ∀ e ∈ TypeRegistry.shippedPrimitives.entries,
    SyscallArg.isPtr e.1 = false ∧ SyscallArg.isFnPtr e.1 = false ∧
      (spelledSigChar e.1 = (if e.2.size = 8 then 'I' else 'i') ↔ e.1 ∉ wideSpellings) := by
  decide +kernel

theorem shippedAliases_chars : ∀ e ∈ TypeRegistry.shippedAliases.entries,
    ∃ q ∈ TypeRegistry.shippedPrimitives.entries, q.1 = e.2 ∧
      (spelledSigChar q.1 = (if q.2.size = 8 then 'I' else 'i') ↔ e.1 ∉ wideSpellings) := by
  decide +kernel

theorem wideSpellings_not_ptr : ∀ t ∈ wideSpellings, SyscallArg.isPtr t = false := by decide

theorem spelledSigChar_of_ptr {arg : SyscallArg} (h : arg.isPtr = true) : spelledSigChar arg = 'i' := by
  obtain ⟨u, rfl⟩ := Py.endsWith_iff.mp h
  have hlong : ∀ w : Str, w.getLast? = some 'g' → Py.endsWith (u ++ ("*" : String).toList) w = false := by
    intro w hw
    rw [← Bool.not_eq_true, Py.endsWith_iff]
    rintro ⟨v, hv⟩
    have hlast := congrArg List.getLast? hv
    rw [List.getLast?_append, List.getLast?_append, hw] at hlast
    cases hlast
  simp only [spelledSigChar, hlong ("long long" : String).toList rfl,
    hlong ("long" : String).toList rfl, Bool.or_self, Bool.false_eq_true, if_false]

/-- One argument over the shipped tables: its type is found, and the spelling gives the engine's
character unless it is one of the wide spellings. -/
theorem spelledSigChar_iff (hprims : R.cPrimitives = TypeRegistry.shippedPrimitives)
    (haliases : R.typeAliases = TypeRegistry.shippedAliases) {sc : Syscall} {arg r : SyscallArg}
    (hr : sc.reduceArg R arg = .ok r)
    (hres : arg.isPtr = false → ∃ p, R.resolvePrimitive arg = .ok p) :
    ∃ ty, argCtype R r = .ok ty ∧
      (nativeSigChar R r = .ok (spelledSigChar r) ↔ arg ∉ wideSpellings) := by
  cases hptr : arg.isPtr with
  | true =>
    rw [Syscall.reduceArg_of_ptr hptr] at hr
    obtain rfl := Except.ok.inj hr
    have hmem : arg ∉ wideSpellings := fun hm => by
      rw [wideSpellings_not_ptr arg hm] at hptr
      cases hptr
    refine ⟨_, argCtype_of_pointer (Or.inl hptr), iff_of_true ?_ hmem⟩
    rw [nativeSigChar_of_pointer (Or.inl hptr), spelledSigChar_of_ptr hptr]
  | false =>
    obtain ⟨p, hp⟩ := hres hptr
    obtain ⟨r', hr', hp', hcase⟩ := sc.reduceArg_of_resolves hptr hp
    obtain rfl := Except.ok.inj (hr'.symm.trans hr)
    -- both kinds of argument reduce to an entry of the primitive table
    have hentry : (r', p) ∈ TypeRegistry.shippedPrimitives.entries ∧
        (spelledSigChar r' = (if p.size = 8 then 'I' else 'i') ↔ arg ∉ wideSpellings) := by
      rw [hprims, haliases] at hcase
      rcases hcase with ⟨rfl, hget⟩ | ⟨_, hget⟩
      · have hm := Py.Dict.get?_eq_some_iff.mp hget
        exact ⟨hm, (shippedPrimitives_chars _ hm).2.2⟩
      · obtain ⟨q, hq, he, hchars⟩ := shippedAliases_chars _ (Py.Dict.get?_eq_some_iff.mp hget)
        obtain ⟨q1, q2⟩ := q
        obtain rfl : q1 = r' := he
        have hq2 : R.resolvePrimitive q1 = .ok q2 := by
          rw [TypeRegistry.resolvePrimitive_eq, hprims, Py.Dict.get?_eq_some_iff.mpr hq]
        obtain rfl : q2 = p := Except.ok.inj (hq2.symm.trans hp')
        exact ⟨hq, hchars⟩
    obtain ⟨hm, hchars⟩ := hentry
    obtain ⟨hptr', hfn', _⟩ := shippedPrimitives_chars _ hm
    refine ⟨_, argCtype_of_byValue ⟨hptr', hfn'⟩ hp', ?_⟩
    rw [nativeSigChar_of_byValue ⟨hptr', hfn'⟩ hp', Except.ok.injEq, eq_comm]
    exact hchars

/-- The parameters by position. -/
theorem params_getElem? {args : List SyscallArg} {argsId : List Str} {ps : List (Str × Str)}
    (h : params R args argsId = .ok ps) {i : ℕ} {ty id : Str} :
    ps[i]? = some (ty, id) ↔
      ∃ arg, args[i]? = some arg ∧ argsId[i]? = some id ∧ argCtype R arg = .ok ty := by
  rw [Py.mapM_zip_getElem? h]
  constructor
  · rintro ⟨arg, _, _, harg, hid, hty, he⟩
    obtain ⟨rfl, rfl⟩ := Prod.mk.inj he
    exact ⟨arg, harg, hid, hty⟩
  · rintro ⟨arg, harg, hid, hty⟩
    exact ⟨arg, id, ty, harg, hid, hty, rfl⟩

/-- `open` as shipped. -/
def openCall : Syscall :=
  { name := "open", nrs := { x86_64 := 2 }, args := ["char*", "int", "mode_t"],
    argsId := ["pathname", "flags", "mode"], implemented := true }

/-- `mknod` with its arguments, which the shipped table leaves out. -/
def mknodCall : Syscall :=
  { name := "mknod", nrs := { x86_64 := 133 }, args := ["char*", "mode_t", "dev_t"],
    argsId := ["pathname", "mode", "dev"], implemented := true }

/-- The native signature against the prototype, over the shipped primitives and aliases. -/
theorem symbolsParams_match_iff (R : TypeRegistry)
    (hprims : R.cPrimitives = TypeRegistry.shippedPrimitives)
    (haliases : R.typeAliases = TypeRegistry.shippedAliases) (sc : Syscall)
    (red : List SyscallArg) (hred : sc.argsReduce R = .ok red)
    (hres : ∀ arg ∈ sc.args, arg.isPtr = false → ∃ p, R.resolvePrimitive arg = .ok p) :
    ∃ ps sig, declrParams R sc = .ok ps ∧ symbolsParams R sc = .ok sig ∧
      ((∀ (i : ℕ) ty id c, ps[i]? = some (ty, id) → sig[i]? = some c →
          (c = 'I' ↔ Is64 ty) ∧ (c = 'i' ↔ ¬ Is64 ty)) ↔
        ∀ e ∈ sc.args.zip sc.argsId, e.1 ∉ wideSpellings) ∧
      ((∀ (i : ℕ) r c, red[i]? = some r → sig[i]? = some c → nativeSigChar R r = .ok c) ↔
        ∀ arg ∈ sc.args, arg ∉ wideSpellings) := by
  have hw : ∀ p ∈ R.cPrimitives.values, TypeRegistry.IsWidth p.size := by
    rw [hprims]
    decide
  -- one position: the reduced argument, its C type, and whether its letter is right
  have hpoint : ∀ (i : ℕ) (arg r : SyscallArg), sc.args[i]? = some arg → red[i]? = some r →
      ∃ ty, argCtype R r = .ok ty ∧
        (nativeSigChar R r = .ok (spelledSigChar r) ↔ arg ∉ wideSpellings) := by
    intro i arg r hi hr
    obtain ⟨r', hr', hok⟩ := Py.mapM_ok_getElem? hred hi
    obtain rfl : r' = r := Option.some.inj (hr'.symm.trans hr)
    exact spelledSigChar_iff hprims haliases hok (hres arg (List.mem_of_getElem? hi))
  obtain ⟨ps, hps⟩ : ∃ ps, params R red sc.argsId = .ok ps := by
    refine Py.mapM_exists_ok fun e he => ?_
    obtain ⟨i, hi⟩ := List.getElem?_of_mem (List.of_mem_zip he).1
    obtain ⟨arg, harg, _⟩ := Py.mapM_ok_getElem?_inv hred hi
    obtain ⟨ty, hty, _⟩ := hpoint i arg e.1 harg hi
    exact ⟨(ty, e.2), by rw [hty]; rfl⟩
  have hsig : ∀ (i : ℕ) c, (red.map spelledSigChar)[i]? = some c ↔
      ∃ r, red[i]? = some r ∧ spelledSigChar r = c := by
    intro i c
    rw [List.getElem?_map, Option.map_eq_some_iff]
  refine ⟨ps, red.map spelledSigChar, by rw [declrParams, hred]; exact hps,
    by rw [symbolsParams, hred]; rfl, ⟨fun h e he => ?_, fun h i ty id c hp hc => ?_⟩,
    ⟨fun h arg harg => ?_, fun h i r c hr hc => ?_⟩⟩
  · obtain ⟨i, hi⟩ := List.getElem?_of_mem he
    obtain ⟨hi, hid⟩ := List.getElem?_zip_eq_some.mp hi
    obtain ⟨r, hr, _⟩ := Py.mapM_ok_getElem? hred hi
    obtain ⟨ty, hty, hiff⟩ := hpoint i e.1 r hi hr
    have hp : ps[i]? = some (ty, e.2) := (params_getElem? hps).mpr ⟨r, hr, hid, hty⟩
    exact hiff.mp ((describes_iff hw hty).mp (h i ty e.2 _ hp ((hsig i _).mpr ⟨r, hr, rfl⟩)))
  · obtain ⟨r, hr, hid, hty⟩ := (params_getElem? hps).mp hp
    obtain ⟨arg, harg, _⟩ := Py.mapM_ok_getElem?_inv hred hr
    obtain ⟨_, _, hiff⟩ := hpoint i arg r harg hr
    obtain ⟨r', hr', rfl⟩ := (hsig i c).mp hc
    obtain rfl : r = r' := Option.some.inj (hr.symm.trans hr')
    have hmem : (arg, id) ∈ sc.args.zip sc.argsId :=
      List.mem_of_getElem? (List.getElem?_zip_eq_some.mpr ⟨harg, hid⟩)
    exact (describes_iff hw hty).mpr (hiff.mpr (h _ hmem))
  · obtain ⟨i, hi⟩ := List.getElem?_of_mem harg
    obtain ⟨r, hr, _⟩ := Py.mapM_ok_getElem? hred hi
    obtain ⟨_, _, hiff⟩ := hpoint i arg r hi hr
    exact hiff.mp (h i r _ hr ((hsig i _).mpr ⟨r, hr, rfl⟩))
  · obtain ⟨arg, hi, _⟩ := Py.mapM_ok_getElem?_inv hred hr
    obtain ⟨_, _, hiff⟩ := hpoint i arg r hi hr
    obtain ⟨r', hr', rfl⟩ := (hsig i c).mp hc
    obtain rfl : r = r' := Option.some.inj (hr.symm.trans hr')
    exact hiff.mpr (h arg (List.mem_of_getElem? hi))

theorem symbolsParams_match_iff_open :
    ∃ ps sig, declrParams TypeRegistry.shippedBare openCall = .ok ps ∧
      symbolsParams TypeRegistry.shippedBare openCall = .ok sig ∧
      (∀ (i : ℕ) ty id c, ps[i]? = some (ty, id) → sig[i]? = some c →
        (c = 'I' ↔ Is64 ty) ∧ (c = 'i' ↔ ¬ Is64 ty)) := by
  obtain ⟨ps, sig, hps, hsig, hmatch, _⟩ := symbolsParams_match_iff TypeRegistry.shippedBare rfl rfl
    openCall ["char*", "int", "int"] (by decide +kernel) (by
      intro arg harg hptr
      simp only [openCall, List.mem_cons, List.not_mem_nil, or_false] at harg
      rcases harg with rfl | rfl | rfl
      · exact absurd hptr (by decide)
      · exact ⟨⟨4, true⟩, by decide +kernel⟩
      · exact ⟨⟨4, true⟩, by decide +kernel⟩)
  exact ⟨ps, sig, hps, hsig, hmatch.mpr (by decide +kernel)⟩

/-- `mknod` takes a device number, which is 64 bits wide and not spelled so. -/
theorem symbolsParams_narrow_mknod :
    declrParams TypeRegistry.shippedBare mknodCall =
        .ok [("WasmMemAddr", "pathname"), ("int32_t", "mode"), ("uint64_t", "dev")] ∧
      symbolsParams TypeRegistry.shippedBare mknodCall = .ok "iii" ∧
      nativeSigChar TypeRegistry.shippedBare "uint64_t" = .ok 'I' := by
  decide +kernel

end Wamr

end Wali
