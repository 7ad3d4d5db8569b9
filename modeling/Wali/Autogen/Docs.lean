import Wali.Autogen.Wamr

/-!
# The documentation generator

The signatures on the pages of `DocsGenerator`. The Wasm import signature of an auxiliary call is
compared with the signature the engine registers for it.
-/

namespace Wali.Docs

open Py (Str)

variable (R : TypeRegistry)

def cSignature (name : Str) (args : List SyscallArg) (argsId : List Str) (retType : Str) : Str :=
  let params : Str :=
    if args = [] then "void" else Py.join ", " ((args.zip argsId).map fun e => e.1 ++ " " ++ e.2)
  retType ++ " " ++ name ++ "(" ++ params ++ ");"

/-- `i` and the width of a WIT integer type, at least 32. -/
def widen (wit : Str) : Str :=
  'i' :: (if Py.intOfDigits (wit.drop 1) < 32 then "32" else wit.drop 1)

/-- `to_wasm_type`. -/
def toWasmType (ptrWit : Str) (type : SyscallArg) : Except Py.Error Str :=
  if type.isPtr || type.isFnPtr then .ok (widen ptrWit)
  else (R.resolvePrimitive type).map fun p => widen p.witName

section Types

variable {R}
variable {ptrWit : Str} {type : SyscallArg} {p : Primitive}

theorem toWasmType_of_pointer (h : type.Pointer) : toWasmType R ptrWit type = .ok (widen ptrWit) := by
  rw [toWasmType, h.or_eq]
  rfl

theorem toWasmType_of_byValue (h : type.ByValue) (hp : R.resolvePrimitive type = .ok p) :
    toWasmType R ptrWit type = .ok (widen p.witName) := by
  rw [toWasmType, h.or_eq, hp]
  rfl

end Types

/-- The type has an entry on the page of types. -/
def isDocumentedType (typeName : Str) : Bool :=
  (R.structDefs.get? typeName).isSome || (R.typeAliases.get? typeName).isSome ||
    (R.arrayTypes.get? typeName).isSome

def aliasAnchor (name : Str) : Str :=
  Py.rstripChar '_' (Py.lstripChar '_' ((Py.replaceChar ' ' '_' name).filter (· ≠ '*')))

def typeLink (typeName : Str) (relativeLink : Str := "types.md") : Str :=
  if isDocumentedType R typeName then
    "[" ++ typeName ++ "](" ++ relativeLink ++ "#" ++ aliasAnchor typeName ++ ")"
  else "`" ++ typeName ++ "`"

/-- The type of a field in the layout table. -/
def fieldTypeDisplay (typeName : Str) : Str :=
  if Py.endsWith typeName "*" then
    let stripped := Py.strip (Py.rstripChar '*' typeName)
    let stars := List.replicate (typeName.length - stripped.length) '*'
    if isDocumentedType R stripped then typeLink R stripped ++ stars else "`" ++ typeName ++ "`"
  else if (TypeRegistry.parseInlineArray typeName).isSome then "`" ++ typeName ++ "`"
  else typeLink R typeName

/-- The names and types in the `param` clauses of `_wasm_signature`. -/
def wasmParams (args : List SyscallArg) (argsId : List Str) : Except Py.Error (List (Str × Str)) :=
  match R.cPrimitives.get? "ptr" with
  | none => .error (.keyError "ptr")
  | some ptr => (args.zip argsId).mapM fun e => (toWasmType R ptr.witName e.1).map (e.2, ·)

/-- The `result` clause of `_wasm_signature`. -/
def resultClause (retType : Str) : Str :=
  if retType = [] then [] else "(result " ++ retType ++ ")"

def wasmSignature (name : Str) (args : List SyscallArg) (argsId : List Str) (retType : Str)
    (isSyscall : Bool) : Except Py.Error Str := do
  let ps ← wasmParams R args argsId
  let params := Py.join " " (ps.map fun p => "(param $" ++ p.1 ++ " " ++ p.2 ++ ")")
  let importName := if isSyscall then "SYS_" ++ name else name
  let funcBody := Py.strip ("(func " ++ params ++ " " ++ resultClause retType ++ ")")
  return "(import \"wali\" \"" ++ importName ++ "\" " ++ funcBody ++ ")"

/-- The two signatures on the page of a syscall. -/
def syscallSignatures (sc : Syscall) : Except Py.Error (Str × Str) := do
  let wasm ← wasmSignature R sc.name sc.args sc.argsId "i64" true
  return (cSignature sc.name sc.args sc.argsId "long", wasm)

/-- `wasm_ret` on the page of an auxiliary call. The return type is never empty here: the absence
of one has become `void`. -/
def auxWasmRet (aux : AuxSyscall) : Str :=
  let retType := Wamr.auxRetType aux
  if retType = "int" ∨ retType = "unsigned int" then "i32"
  else if retType ≠ [] then "i64" else []

/-- The two signatures on the page of an auxiliary call. -/
def auxSignatures (aux : AuxSyscall) : Except Py.Error (Str × Str) := do
  let wasm ← wasmSignature R aux.name aux.args aux.argsId (auxWasmRet aux) false
  return (cSignature aux.name aux.args aux.argsId (Wamr.auxRetType aux), wasm)

/-- What the result clause should be for the return part of an engine signature. -/
def clauseOf (ret : Str) : Str :=
  if ret = [] then [] else if ret = "I" then "(result i64)" else "(result i32)"

/-- The engine passes a value of the type in 32 bits. -/
def Narrow (type : SyscallArg) (p : Primitive) : Prop := type.Pointer ∨ p.size ≠ 8

instance (type : SyscallArg) (p : Primitive) : Decidable (Narrow type p) :=
  inferInstanceAs (Decidable ((_ ∨ _) ∨ _))

variable {R}

theorem nativeSigChar_eq_narrow {type : SyscallArg} {p : Primitive}
    (h : R.resolvePrimitive type = .ok p) :
    Wamr.nativeSigChar R type = .ok (if Narrow type p then 'i' else 'I') := by
  rcases type.pointer_or_byValue with hp | hv
  · have hn : Narrow type p := Or.inl hp
    rw [Wamr.nativeSigChar_of_pointer hp, if_pos hn]
  · have hn : Narrow type p ↔ ¬ p.size = 8 := or_iff_right hv.not_pointer
    rw [Wamr.nativeSigChar_of_byValue hv h]
    by_cases hs : p.size = 8
    · rw [if_pos hs, if_neg fun hb => hn.mp hb hs]
    · rw [if_neg hs, if_pos (hn.mpr hs)]

/-- The two spellings the page compares with. -/
def IntSpelled (type : SyscallArg) : Prop := type = "int" ∨ type = "unsigned int"

instance (type : SyscallArg) : Decidable (IntSpelled type) := inferInstanceAs (Decidable (_ ∨ _))

theorem resultClause_of_none {aux : AuxSyscall} (h : aux.result = none) :
    resultClause (auxWasmRet aux) = "(result i64)" := by
  simp only [auxWasmRet, Wamr.auxRetType, h]
  decide

theorem resultClause_of_some {aux : AuxSyscall} {t : SyscallArg} (h : aux.result = some t) :
    resultClause (auxWasmRet aux) = clauseOf [if IntSpelled t then 'i' else 'I'] := by
  simp only [auxWasmRet, Wamr.auxRetType, h]
  by_cases ht : t = []
  · subst ht
    decide
  · rw [if_neg ht]
    by_cases hs : IntSpelled t
    · rw [if_pos (show t = _ ∨ t = _ from hs), if_pos hs]
      decide
    · rw [if_neg (show ¬ (t = _ ∨ t = _) from hs), if_neg hs, if_pos ht]
      decide

/-- The documented result clause against the engine's return character. -/
theorem auxWasmRet_agrees_iff (R : TypeRegistry) (aux : AuxSyscall)
    (hres : ∀ t, aux.result = some t → ∃ p, R.resolvePrimitive t = .ok p) :
    (∃ ret, Wamr.auxSymbolsRet R aux = .ok ret ∧
        resultClause (auxWasmRet aux) = clauseOf ret) ↔
      ∃ t p, aux.result = some t ∧ R.resolvePrimitive t = .ok p ∧
        (IntSpelled t ↔ Narrow t p) := by
  cases hr : aux.result with
  | none =>
    refine iff_of_false ?_ (by simp)
    rintro ⟨ret, hret, he⟩
    rw [Wamr.auxSymbolsRet, hr] at hret
    rw [resultClause_of_none hr, ← Except.ok.inj hret] at he
    exact absurd he (by decide)
  | some t =>
    obtain ⟨p, hp⟩ := hres t hr
    have hret : Wamr.auxSymbolsRet R aux = .ok [if Narrow t p then 'i' else 'I'] := by
      simp only [Wamr.auxSymbolsRet, hr, nativeSigChar_eq_narrow hp, Except.map]
    have hclauses : clauseOf [if IntSpelled t then 'i' else 'I'] =
        clauseOf [if Narrow t p then 'i' else 'I'] ↔ (IntSpelled t ↔ Narrow t p) := by
      by_cases hs : IntSpelled t <;> by_cases hn : Narrow t p <;> simp only [hs, hn] <;> decide
    rw [resultClause_of_some hr]
    constructor
    · rintro ⟨ret, hret', he⟩
      obtain rfl := Except.ok.inj (hret.symm.trans hret')
      exact ⟨t, p, rfl, hp, hclauses.mp he⟩
    · rintro ⟨u, q, hu, hq, hiff⟩
      obtain rfl := Option.some.inj hu
      obtain rfl := Except.ok.inj (hp.symm.trans hq)
      exact ⟨_, hret, hclauses.mpr hiff⟩

/-- `__init` as shipped. -/
def initCall : AuxSyscall := { name := "__init", args := [], argsId := [], result := some "int" }

/-- `__proc_exit` as shipped. -/
def procExit : AuxSyscall :=
  { name := "__proc_exit", args := ["int"], argsId := ["status"], result := none }

theorem auxWasmRet_agrees_iff_init :
    ∃ ret, Wamr.auxSymbolsRet TypeRegistry.shippedBare initCall = .ok ret ∧
      resultClause (auxWasmRet initCall) = clauseOf ret := by
  have hint : TypeRegistry.shippedBare.resolvePrimitive "int" = .ok ⟨4, true⟩ := by decide +kernel
  refine (auxWasmRet_agrees_iff TypeRegistry.shippedBare initCall ?_).mpr
    ⟨"int", ⟨4, true⟩, rfl, hint, by decide⟩
  intro t ht
  obtain rfl := Option.some.inj ht
  exact ⟨_, hint⟩

/-- A call without a result is documented with one. -/
theorem auxWasmRet_procExit :
    Wamr.auxSymbolsRet TypeRegistry.shippedBare procExit = .ok "" ∧
      auxSignatures TypeRegistry.shippedBare procExit =
        .ok ("void __proc_exit(int status);",
          "(import \"wali\" \"__proc_exit\" (func (param $status i32) (result i64)))") := by
  decide +kernel

end Wali.Docs
