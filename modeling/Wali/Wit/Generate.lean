import Wali.Wit.Records
import Mathlib.Data.List.Dedup
import Mathlib.Data.List.Sort

/-!
# The WIT file

`WitGenerator.generate` writes three interfaces. `types` declares the names of the registry;
`syscalls` and `aux` use them and have functions. A pointer type has an alias of its own, `ptr-`
and the name of what it points to: `syscalls` declares the aliases it collects from struct fields
and from arguments, `aux` takes over those that its own arguments need.
-/

namespace Wali.Wit

open Py (Str Dict)

/-- `WIT_KEYWORDS_RESERVED_MAP`. -/
def witKeywordsReservedMap : Dict Str Str where
  entries := [("flags", "flags-id"), ("type", "type-id"), ("resource", "resource-id"),
    ("list", "list-id"), ("option", "option-id")]
  nodup := by decide

def paramName (id : Str) : Str := (witKeywordsReservedMap.get? id).getD (Py.replaceChar '_' '-' id)

/-- A function with its comment. -/
structure WitFunc where
  comment : Str
  name : Str
  params : List (Str × Str)
  result : Option Str
  deriving DecidableEq, Repr

namespace WitFunc

def text (f : WitFunc) : Str :=
  let params := Py.join ", " (f.params.map fun e => e.1 ++ ": " ++ e.2)
  let result : Str := match f.result with
    | some t => " -> " ++ t
    | none => ""
  "\t// " ++ f.comment ++ "\n\t" ++ f.name ++ ": func(" ++ params ++ ")" ++ result ++ ";"

/-- The types in the signature. -/
def types (f : WitFunc) : List Str := f.params.map Prod.snd ++ f.result.toList

end WitFunc

section Generate

variable (R : TypeRegistry)

def witParams (argsId : List Str) (args : List SyscallArg) : List (Str × Str) :=
  (argsId.zip args).map fun e => (paramName e.1, argText R e.2)

def syscallFunc (sc : Syscall) : WitFunc where
  comment := "[" ++ Py.intStr sc.nr ++ "] " ++ sc.name ++ "(" ++ Py.join ", " sc.args ++ ")"
  name := "SYS-" ++ Py.replaceChar '_' '-' sc.name
  params := witParams R sc.argsId sc.args
  result := some "syscall-result"

def auxFunc (sc : AuxSyscall) : WitFunc where
  comment := sc.name ++ "(" ++ Py.join ", " sc.args ++ ")"
  name := Py.replaceChar '_' '-' (Py.lstripChar '_' sc.name)
  params := witParams R sc.argsId sc.args
  result := sc.result.bind (resultText R)

/-- The aliases of the pointers among some arguments. -/
def argPtrTypes (args : List SyscallArg) : List Str :=
  (args.map witArg).filter (Py.startsWith · "ptr-")

/-- The aliases of the fields that are pointers. -/
def fieldPtrTypes : List Str :=
  ((R.structDefs.values.flatMap (·.fields)).filter fun f => Py.endsWith f.typeName "*").map
    fun f => ptrName f.typeName

/-- `uniq_ptr_types`: unimplemented syscalls count as well. -/
def uniqPtrTypes (scs : List Syscall) : List Str :=
  (fieldPtrTypes R ++ scs.flatMap fun sc => argPtrTypes sc.args).dedup

def auxPtrTypes (auxs : List AuxSyscall) : List Str := (auxs.flatMap fun sc => argPtrTypes sc.args).dedup

/-- What the three interfaces are written from. -/
structure WitFile where
  /-- The declarations of `types`, which the other two use. -/
  types : Dict Str WitType
  /-- The pointer aliases `syscalls` declares. -/
  ptrTypes : List Str
  records : List WitRecord
  syscallFuncs : List WitFunc
  /-- The pointer aliases `aux` uses from `syscalls`. -/
  auxUses : List Str
  auxFuncs : List WitFunc

def generate (scs : List Syscall) (auxs : List AuxSyscall) : Except Py.Error WitFile := do
  let types ← buildWitCompTypes R
  let recs ← records R
  return {
    types
    ptrTypes := (uniqPtrTypes R scs).insertionSort (Py.le · ·)
    records := recs
    syscallFuncs := (scs.filter (·.implemented)).map (syscallFunc R)
    auxUses := (auxPtrTypes auxs).filter (uniqPtrTypes R scs).contains
    auxFuncs := auxs.map (auxFunc R) }

end Generate

-- ════════════════════════════════════════════════════════════════════════
-- The text
-- ════════════════════════════════════════════════════════════════════════

def typeLine (name value : Str) : Str := "\ttype " ++ name ++ " = " ++ value ++ ";"

def useLine (source : Str) (names : List Str) : Str :=
  "\tuse " ++ source ++ ".\x7b" ++ Py.join ", " names ++ "\x7d;"

def interfaceLines (name : Str) (body : List Str) : List Str :=
  ("interface " ++ name ++ " \x7b") :: body ++ [("\x7d" : Str)]

namespace WitFile

variable (w : WitFile)

def typesLines : List Str :=
  interfaceLines "types" (w.types.entries.map fun e => typeLine e.1 e.2.text)

def syscallsLines : List Str :=
  let uses : List Str := [useLine "types" w.types.keys, "\t/// Readable pointer types"]
  let recordLines : List Str :=
    ["", "\t/// Record types", "\t" ++ Py.join "\n\t" ((recordContent w.records).splitOn '\n'), "",
      "\t/// Syscall methods"]
  interfaceLines "syscalls" (uses ++ w.ptrTypes.map (typeLine · "ptr") ++ recordLines ++
    w.syscallFuncs.map WitFunc.text)

def auxLines : List Str :=
  let uses : List Str :=
    [useLine "types" w.types.keys, useLine "syscalls" w.auxUses, "", "\t/// Aux methods"]
  interfaceLines "aux" (uses ++ w.auxFuncs.map WitFunc.text)

end WitFile

-- ════════════════════════════════════════════════════════════════════════
-- Names in scope
-- ════════════════════════════════════════════════════════════════════════

/-- The names in a type of the finished file. There an innermost array is a tuple that repeats its
element. -/
def WitType.names : WitType → List Str
  | .ident name => [name]
  | .array count (.ident name) => List.replicate count name
  | .array _ elem => elem.names

namespace WitFile

variable (w : WitFile)

/-- What `syscalls` introduces by `use` and `type`. -/
def syscallsScope : List Str := w.types.keys ++ w.ptrTypes

/-- What `aux` introduces by `use`. -/
def auxScope : List Str := w.types.keys ++ w.auxUses

/-- The type names in the record fields and signatures of `syscalls`. -/
def syscallsNames : List Str :=
  w.records.flatMap (fun r => r.fields.flatMap fun f => f.2.names) ++
    w.syscallFuncs.flatMap WitFunc.types

/-- The type names in the signatures of `aux`. -/
def auxNames : List Str := w.auxFuncs.flatMap WitFunc.types

/-- In both interfaces, every pointer alias that occurs is introduced exactly once. -/
def PtrsInScope : Prop :=
  (∀ x ∈ w.syscallsNames, Py.startsWith x "ptr-" = true → w.syscallsScope.count x = 1) ∧
    ∀ x ∈ w.auxNames, Py.startsWith x "ptr-" = true → w.auxScope.count x = 1

end WitFile

section Conditions

variable (R : TypeRegistry) (scs : List Syscall) (auxs : List AuxSyscall)

/-- A name that `types` declares. -/
def Declared (x : Str) : Prop := ∃ k ∈ declared R, toWit k = x

/-- A name that signatures replace by an integer type. -/
def Basic (x : Str) : Prop := ∃ e ∈ namedPrimitives R, toWit e.1 = x

/-- The alias of a struct field that is a pointer, or of an argument of some syscall. -/
def Collected (x : Str) : Prop :=
  (∃ sd ∈ R.structDefs.values, ∃ f ∈ sd.fields,
    Py.endsWith f.typeName "*" = true ∧ ptrName f.typeName = x) ∨
  ∃ sc ∈ scs, ∃ arg ∈ sc.args, witArg arg = x

/-- The alias of an argument of an auxiliary call. -/
def AuxCollected (x : Str) : Prop := ∃ sc ∈ auxs, ∃ arg ∈ sc.args, witArg arg = x

instance (x : Str) : Decidable (Declared R x) := inferInstanceAs (Decidable (∃ k ∈ declared R, _))

instance (x : Str) : Decidable (Basic R x) := inferInstanceAs (Decidable (∃ e ∈ namedPrimitives R, _))

instance (x : Str) : Decidable (Collected R scs x) := inferInstanceAs (Decidable (_ ∨ _))

instance (x : Str) : Decidable (AuxCollected auxs x) := inferInstanceAs (Decidable (∃ sc ∈ auxs, _))

/-- The names in the type of a field. -/
def fieldNames (f : StructField) : List Str :=
  match fieldTypeToWit R f.typeName with
  | .ok w => w.names
  | .error _ => []

/-- What the tables must satisfy for the aliases to be in scope. -/
structure PtrScoped : Prop where
  /-- The alias of a pointer field is no declared name. -/
  pointers : ∀ sd ∈ R.structDefs.values, ∀ f ∈ sd.fields, Py.endsWith f.typeName "*" = true →
    ¬ Declared R (ptrName f.typeName)
  /-- What looks like an alias inside another field, say in an array of pointers, is either a
  declared name or an alias collected elsewhere. -/
  fields : ∀ sd ∈ R.structDefs.values, ∀ f ∈ sd.fields, Py.endsWith f.typeName "*" = false →
    ∀ x ∈ fieldNames R f, Py.startsWith x "ptr-" = true → Xor (Declared R x) (Collected R scs x)
  /-- The alias of an argument that is written is no declared name. -/
  args : ∀ sc ∈ scs, sc.implemented = true → ∀ e ∈ sc.argsId.zip sc.args,
    Py.startsWith (witArg e.2) "ptr-" = true → ¬ Basic R (witArg e.2) → ¬ Declared R (witArg e.2)
  /-- In `aux` it is a declared name, or collected elsewhere. -/
  auxArgs : ∀ sc ∈ auxs, ∀ e ∈ sc.argsId.zip sc.args,
    Py.startsWith (witArg e.2) "ptr-" = true → ¬ Basic R (witArg e.2) →
    Xor (Declared R (witArg e.2)) (Collected R scs (witArg e.2))
  /-- A result spelled like an alias also has to be the type of an argument in `aux`. -/
  auxResults : ∀ sc ∈ auxs, ∀ x ∈ sc.result, Py.startsWith x "ptr-" = true → ¬ Basic R x →
    Xor (Declared R x) (Collected R scs x ∧ AuxCollected auxs x)

end Conditions

variable {R : TypeRegistry} {scs : List Syscall} {auxs : List AuxSyscall} {w : WitFile} {x : Str}

/-- In two lists without repetition a name occurs once if it is in exactly one of them. -/
theorem count_append_eq_one_iff {l l' : List Str} (hl : l.Nodup) (hl' : l'.Nodup) :
    (l ++ l').count x = 1 ↔ Xor (x ∈ l) (x ∈ l') := by
  rw [List.count_append, hl.count, hl'.count]
  by_cases h : x ∈ l <;> by_cases h' : x ∈ l' <;> simp [h, h', Xor]

theorem generate_eq_ok_iff :
    generate R scs auxs = .ok w ↔
      ∃ types recs, buildWitCompTypes R = .ok types ∧ records R = .ok recs ∧
        w = { types
              ptrTypes := (uniqPtrTypes R scs).insertionSort (Py.le · ·)
              records := recs
              syscallFuncs := (scs.filter (·.implemented)).map (syscallFunc R)
              auxUses := (auxPtrTypes auxs).filter (uniqPtrTypes R scs).contains
              auxFuncs := auxs.map (auxFunc R) } := by
  unfold generate
  cases buildWitCompTypes R with
  | error e => exact iff_of_false (fun h => by cases h) fun ⟨_, _, ht, _⟩ => by cases ht
  | ok types =>
    cases records R with
    | error e => exact iff_of_false (fun h => by cases h) fun ⟨_, _, _, hr, _⟩ => by cases hr
    | ok recs =>
      refine ⟨fun h => ⟨types, recs, rfl, rfl, (Except.ok.inj h).symm⟩, ?_⟩
      rintro ⟨_, _, ht, hr, rfl⟩
      obtain rfl := Except.ok.inj ht
      obtain rfl := Except.ok.inj hr
      rfl

/-- An accepted registry with primitive array elements can be written. -/
theorem generate_ok (hv : R.validate = .ok ())
    (h : ∀ a ∈ R.arrayTypes.values, a.elementType ∈ R.cPrimitives.keys) (scs : List Syscall)
    (auxs : List AuxSyscall) : ∃ w, generate R scs auxs = .ok w := by
  obtain ⟨types, ht⟩ := buildWitCompTypes_ok h
  obtain ⟨recs, hr⟩ := records_ok hv
  exact ⟨_, generate_eq_ok_iff.mpr ⟨types, recs, ht, hr, rfl⟩⟩

-- ════════════════════════════════════════════════════════════════════════
-- What is collected
-- ════════════════════════════════════════════════════════════════════════

theorem mem_argPtrTypes {args : List SyscallArg} (hx : Py.startsWith x "ptr-" = true) :
    x ∈ argPtrTypes args ↔ ∃ arg ∈ args, witArg arg = x := by
  simp only [argPtrTypes, List.mem_filter, List.mem_map, hx, and_true]

theorem mem_uniqPtrTypes (hx : Py.startsWith x "ptr-" = true) :
    x ∈ uniqPtrTypes R scs ↔ Collected R scs x := by
  simp only [uniqPtrTypes, List.mem_dedup, List.mem_append, fieldPtrTypes, List.mem_map,
    List.mem_filter, List.mem_flatMap, mem_argPtrTypes hx, Collected]
  refine or_congr_left ⟨?_, ?_⟩
  · rintro ⟨f, ⟨⟨sd, hsd, hf⟩, hstar⟩, he⟩
    exact ⟨sd, hsd, f, hf, hstar, he⟩
  · rintro ⟨sd, hsd, f, hf, hstar, he⟩
    exact ⟨f, ⟨⟨sd, hsd, hf⟩, hstar⟩, he⟩

theorem mem_auxPtrTypes (hx : Py.startsWith x "ptr-" = true) :
    x ∈ auxPtrTypes auxs ↔ AuxCollected auxs x := by
  simp only [auxPtrTypes, List.mem_dedup, List.mem_flatMap, mem_argPtrTypes hx, AuxCollected]

/-- A text like an alias stands in a signature as it is, unless it is the name of a basic type. -/
theorem resolveArgWit_eq_iff (hx : Py.startsWith x "ptr-" = true) {t : Str} :
    resolveArgWit R t = x ↔ t = x ∧ ¬ Basic R x := by
  have hbasic : ∀ y, Basic R y ↔ ∃ v, (basicTypesWit R).get? y = some v := fun y =>
    mem_keys_basicTypes.symm.trans Dict.mem_keys_iff
  unfold resolveArgWit
  cases hget : (basicTypesWit R).get? t with
  | none =>
    refine ⟨?_, And.left⟩
    rintro rfl
    refine ⟨rfl, fun hb => ?_⟩
    obtain ⟨v, hv⟩ := (hbasic t).mp hb
    rw [hget] at hv
    cases hv
  | some v =>
    refine iff_of_false ?_ ?_
    · rintro rfl
      obtain ⟨e, _, he⟩ := List.mem_map.mp (Dict.mem_of_get?_ofList hget)
      rw [Option.getD_some, ← (Prod.mk.inj he).2, startsWith_witName] at hx
      cases hx
    · rintro ⟨rfl, hb⟩
      exact hb ((hbasic t).mpr ⟨v, hget⟩)

-- ════════════════════════════════════════════════════════════════════════
-- What occurs
-- ════════════════════════════════════════════════════════════════════════

theorem mem_map_witParams (hx : Py.startsWith x "ptr-" = true) {argsId : List Str}
    {args : List SyscallArg} :
    x ∈ (witParams R argsId args).map Prod.snd ↔
      ∃ e ∈ argsId.zip args, witArg e.2 = x ∧ ¬ Basic R x := by
  rw [witParams, List.map_map, List.mem_map]
  exact exists_congr fun e => and_congr_right' (resolveArgWit_eq_iff hx)

theorem mem_types_syscallFunc (hx : Py.startsWith x "ptr-" = true) {sc : Syscall} :
    x ∈ (syscallFunc R sc).types ↔ ∃ e ∈ sc.argsId.zip sc.args, witArg e.2 = x ∧ ¬ Basic R x := by
  rw [WitFunc.types, List.mem_append, ← mem_map_witParams hx]
  refine or_iff_left fun hres => ?_
  obtain rfl := Option.some.inj (Option.mem_toList.mp hres)
  revert hx
  decide

theorem mem_types_auxFunc (hx : Py.startsWith x "ptr-" = true) {sc : AuxSyscall} :
    x ∈ (auxFunc R sc).types ↔
      (∃ e ∈ sc.argsId.zip sc.args, witArg e.2 = x ∧ ¬ Basic R x) ∨ x ∈ sc.result ∧ ¬ Basic R x := by
  rw [WitFunc.types, List.mem_append, ← mem_map_witParams hx]
  refine or_congr_right ?_
  simp only [auxFunc, Option.mem_toList, Option.mem_def, Option.bind_eq_some_iff, resultText]
  constructor
  · rintro ⟨t, ht, hres⟩
    split at hres
    · cases hres
    · obtain ⟨rfl, hb⟩ := (resolveArgWit_eq_iff hx).mp (Option.some.inj hres)
      exact ⟨ht, hb⟩
  · rintro ⟨ht, hb⟩
    refine ⟨x, ht, ?_⟩
    rw [if_neg (by rintro rfl; cases hx), (resolveArgWit_eq_iff hx).mpr ⟨rfl, hb⟩]

/-- The names in the records are those in the fields of the structs. -/
theorem mem_names_records {rs : List WitRecord} (hr : records R = .ok rs) :
    x ∈ rs.flatMap (fun r => r.fields.flatMap fun f => f.2.names) ↔
      ∃ sd ∈ R.structDefs.values, ∃ f ∈ sd.fields, x ∈ fieldNames R f := by
  have hfields : ∀ (fs : List StructField) out, recordFields R fs = .ok out →
      out.map (fun f => f.2.names) = fs.map (fieldNames R) := by
    intro fs out hout
    refine Py.mapM_ok_map (fun f e he => ?_) hout
    obtain ⟨t, ht, rfl⟩ := Py.map_eq_ok_iff.mp he
    simp only [fieldNames, ht]
  have hrecords : rs.map (fun r => r.fields.flatMap fun f => f.2.names) =
      R.structDefs.values.map fun sd => sd.fields.flatMap (fieldNames R) := by
    refine Py.mapM_ok_map (fun sd r hok => ?_) hr
    obtain ⟨out, hout, rfl⟩ := Py.map_eq_ok_iff.mp hok
    rw [List.flatMap_def, List.flatMap_def, hfields _ _ hout]
  rw [List.flatMap_def, hrecords, ← List.flatMap_def]
  simp only [List.mem_flatMap]

/-- A pointer field is written as its alias. -/
theorem fieldNames_of_ptr {f : StructField} (h : Py.endsWith f.typeName "*" = true) :
    fieldNames R f = [ptrName f.typeName] := by
  simp only [fieldNames, fieldTypeToWit_of_ptr h, WitType.names]

section Scope

variable (h : generate R scs auxs = .ok w) (hx : Py.startsWith x "ptr-" = true)

include h hx

theorem count_syscallsScope :
    w.syscallsScope.count x = 1 ↔ Xor (Declared R x) (Collected R scs x) := by
  obtain ⟨types, recs, ht, hr, rfl⟩ := generate_eq_ok_iff.mp h
  have hnd : ((uniqPtrTypes R scs).insertionSort (Py.le · ·)).Nodup :=
    (List.perm_insertionSort _ _).nodup_iff.mpr (List.nodup_dedup _)
  have hdec : x ∈ types.entries.map Prod.fst ↔ Declared R x := mem_keys_compTypes ht
  refine (count_append_eq_one_iff types.nodup hnd).trans ?_
  rw [hdec, List.mem_insertionSort, mem_uniqPtrTypes hx]

theorem count_auxScope :
    w.auxScope.count x = 1 ↔
      Xor (Declared R x) (Collected R scs x ∧ AuxCollected auxs x) := by
  obtain ⟨types, recs, ht, hr, rfl⟩ := generate_eq_ok_iff.mp h
  have hnd : ((auxPtrTypes auxs).filter (uniqPtrTypes R scs).contains).Nodup :=
    (List.nodup_dedup _).filter _
  have hdec : x ∈ types.entries.map Prod.fst ↔ Declared R x := mem_keys_compTypes ht
  refine (count_append_eq_one_iff types.nodup hnd).trans ?_
  rw [hdec, List.mem_filter, mem_auxPtrTypes hx, List.contains_iff_mem, mem_uniqPtrTypes hx, and_comm]

theorem mem_syscallsNames :
    x ∈ w.syscallsNames ↔
      (∃ sd ∈ R.structDefs.values, ∃ f ∈ sd.fields, x ∈ fieldNames R f) ∨
      ∃ sc ∈ scs, sc.implemented = true ∧
        ∃ e ∈ sc.argsId.zip sc.args, witArg e.2 = x ∧ ¬ Basic R x := by
  obtain ⟨types, recs, ht, hr, rfl⟩ := generate_eq_ok_iff.mp h
  rw [WitFile.syscallsNames, List.mem_append, mem_names_records hr, List.flatMap_map]
  simp only [List.mem_flatMap, List.mem_filter, mem_types_syscallFunc hx, and_assoc]

theorem mem_auxNames :
    x ∈ w.auxNames ↔ ∃ sc ∈ auxs,
      (∃ e ∈ sc.argsId.zip sc.args, witArg e.2 = x ∧ ¬ Basic R x) ∨ x ∈ sc.result ∧ ¬ Basic R x := by
  obtain ⟨types, recs, ht, hr, rfl⟩ := generate_eq_ok_iff.mp h
  rw [WitFile.auxNames, List.flatMap_map]
  simp only [List.mem_flatMap, mem_types_auxFunc hx]

end Scope

theorem xor_iff_not_left {a b : Prop} (hb : b) : Xor a b ↔ ¬ a := by
  simp [Xor, hb]

/-- Aliases in scope put conditions on the tables: what is collected must not be declared too. -/
theorem WitFile.PtrsInScope.scoped (hw : w.PtrsInScope) (h : generate R scs auxs = .ok w) :
    PtrScoped R scs auxs := by
  obtain ⟨hsys, haux⟩ := hw
  have hsys' : ∀ x, Py.startsWith x "ptr-" = true → x ∈ w.syscallsNames →
      Xor (Declared R x) (Collected R scs x) := fun x hx hmem =>
    (count_syscallsScope h hx).mp (hsys x hmem hx)
  have haux' : ∀ x, Py.startsWith x "ptr-" = true → x ∈ w.auxNames →
      Xor (Declared R x) (Collected R scs x ∧ AuxCollected auxs x) := fun x hx hmem =>
    (count_auxScope h hx).mp (haux x hmem hx)
  refine ⟨fun sd hsd f hf hstar => ?_, fun sd hsd f hf _ x hmem hx => ?_,
    fun sc hsc hi e he hx hb => ?_, fun sc hsc e he hx hb => ?_, fun sc hsc x hres hx hb => ?_⟩
  · have hmem : ptrName f.typeName ∈ fieldNames R f := by
      rw [fieldNames_of_ptr hstar]
      exact List.mem_singleton_self _
    have hx := startsWith_ptrName hstar
    have hcol : Collected R scs (ptrName f.typeName) := Or.inl ⟨sd, hsd, f, hf, hstar, rfl⟩
    exact (xor_iff_not_left hcol).mp
      (hsys' _ hx ((mem_syscallsNames h hx).mpr (Or.inl ⟨sd, hsd, f, hf, hmem⟩)))
  · exact hsys' x hx ((mem_syscallsNames h hx).mpr (Or.inl ⟨sd, hsd, f, hf, hmem⟩))
  · have hcol : Collected R scs (witArg e.2) := Or.inr ⟨sc, hsc, e.2, (List.of_mem_zip he).2, rfl⟩
    exact (xor_iff_not_left hcol).mp
      (hsys' _ hx ((mem_syscallsNames h hx).mpr (Or.inr ⟨sc, hsc, hi, e, he, rfl, hb⟩)))
  · have hcol : AuxCollected auxs (witArg e.2) := ⟨sc, hsc, e.2, (List.of_mem_zip he).2, rfl⟩
    have hxor := haux' _ hx ((mem_auxNames h hx).mpr ⟨sc, hsc, Or.inl ⟨e, he, rfl, hb⟩⟩)
    rwa [and_iff_left hcol] at hxor
  · exact haux' x hx ((mem_auxNames h hx).mpr ⟨sc, hsc, Or.inr ⟨hres, hb⟩⟩)

theorem PtrScoped.syscalls (hs : PtrScoped R scs auxs) (h : generate R scs auxs = .ok w)
    (hx : Py.startsWith x "ptr-" = true) (hmem : x ∈ w.syscallsNames) :
    Xor (Declared R x) (Collected R scs x) := by
  rcases (mem_syscallsNames h hx).mp hmem with ⟨sd, hsd, f, hf, hname⟩ | ⟨sc, hsc, hi, e, he, rfl, hb⟩
  · cases hstar : Py.endsWith f.typeName "*" with
    | true =>
      rw [fieldNames_of_ptr hstar, List.mem_singleton] at hname
      subst hname
      exact (xor_iff_not_left (Or.inl ⟨sd, hsd, f, hf, hstar, rfl⟩)).mpr
        (hs.pointers sd hsd f hf hstar)
    | false => exact hs.fields sd hsd f hf hstar x hname hx
  · exact (xor_iff_not_left (Or.inr ⟨sc, hsc, e.2, (List.of_mem_zip he).2, rfl⟩)).mpr
      (hs.args sc hsc hi e he hx hb)

theorem PtrScoped.aux (hs : PtrScoped R scs auxs) (h : generate R scs auxs = .ok w)
    (hx : Py.startsWith x "ptr-" = true) (hmem : x ∈ w.auxNames) :
    Xor (Declared R x) (Collected R scs x ∧ AuxCollected auxs x) := by
  obtain ⟨sc, hsc, ⟨e, he, rfl, hb⟩ | ⟨hres, hb⟩⟩ := (mem_auxNames h hx).mp hmem
  · have hcol : AuxCollected auxs (witArg e.2) := ⟨sc, hsc, e.2, (List.of_mem_zip he).2, rfl⟩
    rw [and_iff_left hcol]
    exact hs.auxArgs sc hsc e he hx hb
  · exact hs.auxResults sc hsc x hres hx hb

/-- **Pointer aliases**: they are in scope exactly when the tables meet the conditions. -/
theorem ptrsInScope_iff (R : TypeRegistry) (scs : List Syscall) (auxs : List AuxSyscall) (w : WitFile)
    (h : generate R scs auxs = .ok w) : w.PtrsInScope ↔ PtrScoped R scs auxs := by
  refine ⟨fun hw => hw.scoped h, fun hs => ⟨fun x hmem hx => ?_, fun x hmem hx => ?_⟩⟩
  · exact (count_syscallsScope h hx).mpr (hs.syscalls h hx hmem)
  · exact (count_auxScope h hx).mpr (hs.aux h hx hmem)

/-- `open` as shipped. -/
def openSyscall : Syscall where
  name := "open"
  nrs := { x86_64 := 2 }
  args := ["char*", "int", "mode_t"]
  argsId := ["pathname", "flags", "mode"]
  implemented := true

/-- `__cl_copy_argv` as shipped. -/
def copyArgv : AuxSyscall where
  name := "__cl_copy_argv"
  args := ["char*", "unsigned int"]
  argsId := ["argbuf", "arg_index"]
  result := some ("int" : Str)

theorem ptrsInScope_iff_copyArgv :
    ∃ w, generate TypeRegistry.withTimers [openSyscall] [copyArgv] = .ok w ∧ w.PtrsInScope := by
  obtain ⟨w, hw⟩ := generate_ok (R := TypeRegistry.withTimers) (by decide +kernel)
    (by decide +kernel) [openSyscall] [copyArgv]
  refine ⟨w, hw, (ptrsInScope_iff _ _ _ w hw).mpr ?_⟩
  exact ⟨by decide +kernel, by decide +kernel, by decide +kernel, by decide +kernel, by decide +kernel⟩

/-- `sigsetjmp` with a type of its own for the buffer. -/
def sigsetjmpTyped : AuxSyscall where
  name := "sigsetjmp"
  args := ["sigjmp_buf*", "int"]
  argsId := ["sigjmp_buf", "savesigs"]
  result := some ("int" : Str)

/-- The shipped tables with a struct that holds an array of pointers. -/
def withPointerArray : TypeRegistry :=
  (StructDecl.postInit ⟨"struct argv_block", [⟨"argv", "char*[4]", none⟩], none, false⟩
    TypeRegistry.shippedBare).2

/-- An alias only `aux` needs is declared nowhere, nor is one that only an array field needs. -/
theorem ptrsInScope_undeclared :
    (∃ w, generate TypeRegistry.shippedBare [openSyscall] [sigsetjmpTyped] = .ok w ∧
      ("ptr-sigjmp-buf" : Str) ∈ w.auxNames ∧ w.auxScope.count ("ptr-sigjmp-buf" : Str) = 0 ∧
      ¬ w.PtrsInScope) ∧
    ∃ w, generate withPointerArray [] [] = .ok w ∧
      ("ptr-char" : Str) ∈ w.syscallsNames ∧ w.syscallsScope.count ("ptr-char" : Str) = 0 ∧
      ¬ w.PtrsInScope := by
  have haux : (generate TypeRegistry.shippedBare [openSyscall] [sigsetjmpTyped]).map
      (fun w => (w.auxNames, w.auxScope.count ("ptr-sigjmp-buf" : Str))) =
      .ok (["ptr-sigjmp-buf", "s32", "s32"], 0) := by decide +kernel
  have hsys : (generate withPointerArray [] []).map
      (fun w => (w.syscallsNames, w.syscallsScope.count ("ptr-char" : Str))) =
      .ok (["ptr-char", "ptr-char", "ptr-char", "ptr-char"], 0) := by decide +kernel
  obtain ⟨w, hw, he⟩ := Py.map_eq_ok_iff.mp haux
  obtain ⟨w', hw', he'⟩ := Py.map_eq_ok_iff.mp hsys
  obtain ⟨hnames, hcount⟩ := Prod.mk.inj he
  obtain ⟨hnames', hcount'⟩ := Prod.mk.inj he'
  have hmem : ("ptr-sigjmp-buf" : Str) ∈ w.auxNames := by rw [hnames]; decide
  have hmem' : ("ptr-char" : Str) ∈ w'.syscallsNames := by rw [hnames']; decide
  refine ⟨⟨w, hw, hmem, hcount, fun hs => ?_⟩, ⟨w', hw', hmem', hcount', fun hs => ?_⟩⟩
  · exact Nat.zero_ne_one (hcount.symm.trans (hs.2 _ hmem (by decide)))
  · exact Nat.zero_ne_one (hcount'.symm.trans (hs.1 _ hmem' (by decide)))

end Wali.Wit
