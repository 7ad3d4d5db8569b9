import Wali.Syscalls

/-!
# WIT names of types

How `WitGenerator` names types: hyphens for blanks and underscores, `ptr-` for every star, the
builtin integers for the stdint names. `Array[n, t]` is the generator's own intermediate notation
for a fixed-size array.
-/

namespace Wali.Wit

open Py (Str Dict)

/-- The text of a WIT type before arrays are expanded: a name, or `Array[count, elem]`. -/
inductive WitType where
  | ident (name : Str)
  | array (count : ℕ) (elem : WitType)
  deriving DecidableEq, Repr

namespace WitType

def text : WitType → Str
  | .ident name => name
  | .array count elem => "Array[" ++ Py.natStr count ++ ", " ++ elem.text ++ "]"

/-- The name a type is made of. -/
def name : WitType → Str
  | .ident name => name
  | .array _ elem => elem.name

end WitType

/-- `_to_wit`. -/
def toWit (name : Str) : Str := Py.replaceChar '_' '-' (Py.replaceChar ' ' '-' name)

/-- `_is_stdint`. -/
def isStdint (name : Str) : Bool :=
  Py.endsWith name "_t" && decide (1 < name.length) &&
    (name.head? == some 'i' || name.head? == some 'u')

/-- As many `ptr-` as there are stars. -/
def ptrs (indirection : ℕ) : Str := (List.replicate indirection ("ptr-" : String).toList).flatten

/-- The name of a pointer type: `struct iovec*` becomes `ptr-struct-iovec`. -/
def ptrName (typeName : Str) : Str :=
  let stripped := Py.rstripChar '*' typeName
  ptrs (typeName.length - stripped.length) ++ toWit (Py.strip stripped)

variable (R : TypeRegistry)

/-- `_field_type_to_wit`, with a bound on the number of array suffixes. -/
def fieldTypeToWitIn : ℕ → Str → Except Py.Error WitType
  | 0, _ => .error .recursionError
  | n + 1, typeName =>
    if Py.endsWith typeName "*" then .ok (.ident (ptrName typeName)) else
    if (R.typeAliases.get? typeName).isSome then .ok (.ident (toWit typeName)) else
    if (R.arrayTypes.get? typeName).isSome then .ok (.ident (toWit typeName)) else
    if (R.structDefs.get? typeName).isSome then .ok (.ident (toWit typeName)) else
    match R.cPrimitives.get? typeName with
    | some p => .ok (.ident (if isStdint typeName then p.witName else toWit typeName))
    | none =>
    match TypeRegistry.parseInlineArray typeName with
    | some (count, elem) => (fieldTypeToWitIn n elem).map (.array count)
    | none => .error (.runtimeError ("Cannot convert type '" ++ typeName ++ "' to WIT name"))

/-- Every array suffix takes characters, so the bound is never reached. -/
def fieldTypeToWit (typeName : Str) : Except Py.Error WitType :=
  fieldTypeToWitIn R (typeName.length + 1) typeName

/-- The primitives that have a WIT name of their own. -/
def namedPrimitives : List (Str × Primitive) := R.cPrimitives.entries.filter fun e => !isStdint e.1

/-- `_basic_types_wit`. -/
def basicTypesWit : Dict Str Str := .ofList ((namedPrimitives R).map fun e => (toWit e.1, e.2.witName))

/-- `_resolve_arg_wit`. -/
def resolveArgWit (arg : Str) : Str := ((basicTypesWit R).get? arg).getD arg

/-- `transform_ptr_arg`, on a hyphenated type. -/
def transformPtrArg (arg : SyscallArg) : Str :=
  if arg.isFnPtr then "ptr-func"
  else ptrs (arg.length - (Py.rstripChar '*' arg).length) ++ Py.rstripChar '*' arg

/-- The WIT form of an argument type. -/
def witArg (arg : SyscallArg) : Str := transformPtrArg (toWit (Py.strip arg))

/-- What an alias is declared as. -/
def aliasTarget (target : Str) : Str :=
  match R.cPrimitives.get? target with
  | some p => if isStdint target then p.witName else toWit target
  | none => toWit target

/-- What an array type is declared as. -/
def arrayDecl (a : ArrayType) : Except Py.Error WitType :=
  match R.cPrimitives.get? a.elementType with
  | some p => .ok (.array a.count (.ident p.witName))
  | none => .error (.keyError a.elementType)

/-- The assignments of `_build_wit_comp_types`, in order. -/
def compEntries : Except Py.Error (List (Str × WitType)) := do
  let prims := (namedPrimitives R).map fun e => (toWit e.1, WitType.ident e.2.witName)
  let aliases := R.typeAliases.entries.map fun e => (toWit e.1, WitType.ident (aliasTarget R e.2))
  let arrays ← R.arrayTypes.entries.mapM fun e => (arrayDecl R e.2).map (toWit e.1, ·)
  return prims ++ aliases ++ arrays

/-- `_build_wit_comp_types`. -/
def buildWitCompTypes : Except Py.Error (Dict Str WitType) := (compEntries R).map Dict.ofList

/-- The builtin types of WIT. -/
def builtins : List Str :=
  ["bool", "s8", "s16", "s32", "s64", "u8", "u16", "u32", "u64", "f32", "f64", "char", "string"]

theorem blank_not_mem_toWit (t : Str) : ' ' ∉ toWit t ∧ '_' ∉ toWit t := by
  simp [toWit, Py.mem_replaceChar]

theorem toWit_of_clean {t : Str} (hb : ' ' ∉ t) (hu : '_' ∉ t) : toWit t = t := by
  rw [toWit, Py.replaceChar_of_not_mem hb, Py.replaceChar_of_not_mem hu]

theorem length_toWit (t : Str) : (toWit t).length = t.length := by
  simp only [toWit, Py.replaceChar, List.length_map]

/-- The characters that hyphenation neither removes nor writes. -/
theorem beq_hyphen {x : Char} (hx : x ≠ '-' ∧ x ≠ ' ' ∧ x ≠ '_') (c : Char) :
    ((if (if c = ' ' then '-' else c) = '_' then '-' else if c = ' ' then '-' else c) == x) =
      (c == x) := by
  by_cases hb : c = ' '
  · subst c
    simp [hx.1.symm, hx.2.1.symm]
  · by_cases hu : c = '_'
    · subst c
      simp [hx.1.symm, hx.2.2.symm]
    · simp [hb, hu]

theorem rstripChar_toWit (s : Str) :
    Py.rstripChar '*' (toWit s) = toWit (Py.rstripChar '*' s) := by
  have hstar : ((fun c => c == '*') ∘ fun c : Char => if c = '_' then '-' else c) ∘
      (fun c : Char => if c = ' ' then '-' else c) = fun c => c == '*' := by
    funext c
    exact beq_hyphen (by decide) c
  simp only [Py.rstripChar, List.rdropWhile, toWit, Py.replaceChar, ← List.map_reverse,
    List.dropWhile_map, hstar]

theorem startsWith_toWit {pre : Str} (h : ∀ c ∈ pre, c ≠ '-' ∧ c ≠ ' ' ∧ c ≠ '_') (s : Str) :
    Py.startsWith (toWit s) pre = Py.startsWith s pre := by
  induction pre generalizing s with
  | nil => rfl
  | cons x pre ih =>
    cases s with
    | nil => rfl
    | cons c s =>
      have hhead := beq_hyphen (h x List.mem_cons_self) c
      have htail := ih (fun d hd => h d (List.mem_cons_of_mem x hd)) s
      rw [Bool.beq_comm, Bool.beq_comm (a := c)] at hhead
      simp only [Py.startsWith, List.isPrefixOf] at htail ⊢
      exact congrArg₂ (· && ·) hhead htail

theorem not_isStdint_of_clean {t : Str} (hu : '_' ∉ t) : isStdint t = false := by
  have hend : Py.endsWith t "_t" = false := by
    rw [← Bool.not_eq_true, Py.endsWith_iff]
    rintro ⟨u, rfl⟩
    exact hu (by simp)
  rw [isStdint, hend]
  rfl

theorem not_mem_ptrs {c : Char} (h : c ∉ ("ptr-" : Str)) (n : ℕ) : c ∉ ptrs n := by
  intro hmem
  obtain ⟨l, hl, hc⟩ := List.mem_flatten.mp hmem
  rw [List.eq_of_mem_replicate hl] at hc
  exact h hc

theorem startsWith_ptrs {n : ℕ} (h : 0 < n) (s : Str) : Py.startsWith (ptrs n ++ s) "ptr-" = true := by
  obtain ⟨m, rfl⟩ := Nat.exists_eq_add_of_le' h
  rw [Py.startsWith_iff, ptrs, List.replicate_succ, List.flatten_cons, List.append_assoc]
  exact List.prefix_append _ _

theorem startsWith_ptrName {t : Str} (h : Py.endsWith t "*" = true) :
    Py.startsWith (ptrName t) "ptr-" = true :=
  startsWith_ptrs (Nat.sub_pos_of_lt (Py.length_rstripChar_lt h)) _

theorem builtins_clean : ∀ t ∈ builtins, ' ' ∉ t ∧ '_' ∉ t := by decide

variable {R}

theorem fieldTypeToWitIn_stable {n m : ℕ} {t : Str} (hn : t.length < n) (hm : t.length < m) :
    fieldTypeToWitIn R n t = fieldTypeToWitIn R m t := by
  induction n generalizing m t with
  | zero => exact absurd hn (Nat.not_lt_zero _)
  | succ n ih =>
    cases m with
    | zero => exact absurd hm (Nat.not_lt_zero _)
    | succ m =>
      rw [fieldTypeToWitIn, fieldTypeToWitIn]
      cases ha : TypeRegistry.parseInlineArray t with
      | none => rfl
      | some e =>
        have hlt := (TypeRegistry.parseInlineArray_elem ha).2
        simp only [ih (show e.2.length < n by omega) (show e.2.length < m by omega)]

theorem fieldTypeToWit_of_ptr {t : Str} (h : Py.endsWith t "*" = true) :
    fieldTypeToWit R t = .ok (.ident (ptrName t)) := by
  rw [fieldTypeToWit, fieldTypeToWitIn, if_pos h]

/-- Aliases, arrays and structs go by their names. -/
theorem fieldTypeToWit_of_named {t : Str} (h : Py.endsWith t "*" = false)
    (hk : t ∈ R.typeAliases.keys ∨ t ∈ R.arrayTypes.keys ∨ t ∈ R.structDefs.keys) :
    fieldTypeToWit R t = .ok (.ident (toWit t)) := by
  simp only [Dict.mem_keys_iff, ← Option.isSome_iff_exists] at hk
  rw [fieldTypeToWit, fieldTypeToWitIn, if_neg (by rw [h]; decide)]
  rcases hk with hk | hk | hk
  · rw [if_pos hk]
  · rw [if_pos hk, ite_self]
  · rw [if_pos hk, ite_self, ite_self]

theorem fieldTypeToWit_of_primitive {t : Str} {p : Primitive} (h : Py.endsWith t "*" = false)
    (hk : ¬ (t ∈ R.typeAliases.keys ∨ t ∈ R.arrayTypes.keys ∨ t ∈ R.structDefs.keys))
    (hp : R.cPrimitives.get? t = some p) :
    fieldTypeToWit R t = .ok (.ident (if isStdint t then p.witName else toWit t)) := by
  simp only [not_or, ← Dict.get?_eq_none_iff] at hk
  rw [fieldTypeToWit, fieldTypeToWitIn, if_neg (by rw [h]; decide), hk.1, hk.2.1, hk.2.2, hp]
  rfl

theorem fieldTypeToWit_of_inlineArray {t elem : Str} {count : ℕ} (h : Py.endsWith t "*" = false)
    (hk : ¬ (t ∈ R.typeAliases.keys ∨ t ∈ R.arrayTypes.keys ∨ t ∈ R.structDefs.keys))
    (hp : R.cPrimitives.get? t = none)
    (ha : TypeRegistry.parseInlineArray t = some (count, elem)) :
    fieldTypeToWit R t = (fieldTypeToWit R elem).map (.array count) := by
  simp only [not_or, ← Dict.get?_eq_none_iff] at hk
  rw [fieldTypeToWit, fieldTypeToWitIn, if_neg (by rw [h]; decide), hk.1, hk.2.1, hk.2.2, hp, ha]
  have hlt := (TypeRegistry.parseInlineArray_elem ha).2
  have hin : fieldTypeToWitIn R t.length elem = fieldTypeToWit R elem :=
    fieldTypeToWitIn_stable hlt (Nat.lt_succ_self elem.length)
  rw [← hin]
  rfl

variable (R)

/-- The names of the registry that are declared in `interface types`. -/
def declared : List Str := (namedPrimitives R).map Prod.fst ++ R.typeAliases.keys ++ R.arrayTypes.keys

variable {R}

/-- The three parts of the declarations. -/
theorem compEntries_parts {es : List (Str × WitType)} (h : compEntries R = .ok es) :
    ∃ arrays, (R.arrayTypes.entries.mapM fun e => (arrayDecl R e.2).map (toWit e.1, ·)) = .ok arrays ∧
      es = (namedPrimitives R).map (fun e => (toWit e.1, WitType.ident e.2.witName)) ++
        R.typeAliases.entries.map (fun e => (toWit e.1, WitType.ident (aliasTarget R e.2))) ++
        arrays := by
  unfold compEntries at h
  cases ha : (R.arrayTypes.entries.mapM fun e => (arrayDecl R e.2).map (toWit e.1, ·)) with
  | error e => rw [ha] at h; cases h
  | ok arrays =>
    rw [ha] at h
    exact ⟨arrays, rfl, (Except.ok.inj h).symm⟩

theorem map_fst_compEntries {es : List (Str × WitType)} (h : compEntries R = .ok es) :
    es.map Prod.fst = (declared R).map toWit := by
  obtain ⟨arrays, ha, rfl⟩ := compEntries_parts h
  have hkeys : arrays.map Prod.fst = R.arrayTypes.entries.map fun e => toWit e.1 := by
    refine Py.mapM_ok_map (fun e y hy => ?_) ha
    obtain ⟨_, _, rfl⟩ := Py.map_eq_ok_iff.mp hy
    rfl
  simp only [List.map_append, List.map_map, hkeys, declared, Dict.keys]
  rfl

theorem mem_keys_compTypes {comp : Dict Str WitType} (h : buildWitCompTypes R = .ok comp) {x : Str} :
    x ∈ comp.keys ↔ ∃ k ∈ declared R, toWit k = x := by
  obtain ⟨es, hes, rfl⟩ := Py.map_eq_ok_iff.mp h
  rw [Dict.mem_keys_ofList, map_fst_compEntries hes, List.mem_map]

theorem mem_keys_basicTypes {x : Str} :
    x ∈ (basicTypesWit R).keys ↔ ∃ e ∈ namedPrimitives R, toWit e.1 = x := by
  rw [basicTypesWit, Dict.mem_keys_ofList, List.map_map, List.mem_map]
  rfl

theorem mem_namedPrimitives {k : Str} {p : Primitive} :
    (k, p) ∈ namedPrimitives R ↔ R.cPrimitives.get? k = some p ∧ isStdint k = false := by
  rw [namedPrimitives, List.mem_filter, Dict.get?_eq_some_iff, Bool.not_eq_true']

/-- What a declaration can be: a primitive, the target of an alias, or an array of a primitive. -/
theorem compEntries_cases {es : List (Str × WitType)} (h : compEntries R = .ok es)
    {e : Str × WitType} (he : e ∈ es) :
    (∃ k p, R.cPrimitives.get? k = some p ∧ e = (toWit k, .ident p.witName)) ∨
      (∃ k u, (k, u) ∈ R.typeAliases.entries ∧ e = (toWit k, .ident (aliasTarget R u))) ∨
      ∃ k n elem p, R.cPrimitives.get? elem = some p ∧ e = (toWit k, .array n (.ident p.witName)) := by
  obtain ⟨arrays, harr, rfl⟩ := compEntries_parts h
  rw [List.mem_append, List.mem_append] at he
  rcases he with (he | he) | he
  · obtain ⟨⟨k, p⟩, hp, rfl⟩ := List.mem_map.mp he
    exact Or.inl ⟨k, p, (mem_namedPrimitives.mp hp).1, rfl⟩
  · obtain ⟨⟨k, u⟩, hu, rfl⟩ := List.mem_map.mp he
    exact Or.inr (Or.inl ⟨k, u, hu, rfl⟩)
  · obtain ⟨⟨k, a⟩, _, hok⟩ := Py.exists_of_mem_mapM_ok harr he
    obtain ⟨t, ht, rfl⟩ := Py.map_eq_ok_iff.mp hok
    unfold arrayDecl at ht
    cases hp : R.cPrimitives.get? a.elementType with
    | none => rw [hp] at ht; cases ht
    | some p =>
      rw [hp] at ht
      obtain rfl := Except.ok.inj ht
      exact Or.inr (Or.inr ⟨k, a.count, a.elementType, p, hp, rfl⟩)

/-- The declarations can be built only if array elements are primitives. -/
theorem elements_of_buildWitCompTypes {comp : Dict Str WitType} (h : buildWitCompTypes R = .ok comp)
    {a : ArrayType} (ha : a ∈ R.arrayTypes.values) : a.elementType ∈ R.cPrimitives.keys := by
  obtain ⟨es, hes, _⟩ := Py.map_eq_ok_iff.mp h
  obtain ⟨arrays, harr, _⟩ := compEntries_parts hes
  obtain ⟨k, hk⟩ := Dict.mem_values.mp ha
  obtain ⟨i, hi⟩ := List.getElem?_of_mem hk
  obtain ⟨y, _, hok⟩ := Py.mapM_ok_getElem? harr hi
  obtain ⟨_, hd, _⟩ := Py.map_eq_ok_iff.mp hok
  rw [Dict.mem_keys_iff]
  unfold arrayDecl at hd
  cases hp : R.cPrimitives.get? a.elementType with
  | some p => exact ⟨p, rfl⟩
  | none => rw [hp] at hd; cases hd

/-- And then they can. -/
theorem buildWitCompTypes_ok (h : ∀ a ∈ R.arrayTypes.values, a.elementType ∈ R.cPrimitives.keys) :
    ∃ comp, buildWitCompTypes R = .ok comp := by
  obtain ⟨arrays, ha⟩ : ∃ arrays,
      (R.arrayTypes.entries.mapM fun e => (arrayDecl R e.2).map (toWit e.1, ·)) = .ok arrays := by
    refine Py.mapM_exists_ok fun e he => ?_
    obtain ⟨p, hp⟩ := Dict.mem_keys_iff.mp (h e.2 (Dict.mem_values.mpr ⟨e.1, he⟩))
    exact ⟨(toWit e.1, .array e.2.count (.ident p.witName)), by rw [arrayDecl, hp]; rfl⟩
  rw [buildWitCompTypes, compEntries, ha]
  exact ⟨_, rfl⟩

theorem mem_declared_of_primitive {k : Str} {p : Primitive} (h : R.cPrimitives.get? k = some p)
    (hs : isStdint k = false) : k ∈ declared R :=
  List.mem_append_left _ (List.mem_append_left _
    (List.mem_map.mpr ⟨(k, p), mem_namedPrimitives.mpr ⟨h, hs⟩, rfl⟩))

theorem mem_declared_of_alias {k u : Str} (h : R.typeAliases.get? k = some u) : k ∈ declared R :=
  List.mem_append_left _ (List.mem_append_right _ (Dict.mem_keys_iff.mpr ⟨u, h⟩))

theorem mem_declared_of_array {k : Str} {a : ArrayType} (h : R.arrayTypes.get? k = some a) :
    k ∈ declared R :=
  List.mem_append_right _ (Dict.mem_keys_iff.mpr ⟨a, h⟩)

variable (R)

/-- No other declaration goes by the hyphenated name, and no builtin. -/
def Unshared (k : Str) : Prop := toWit k ∉ builtins ∧ ((declared R).map toWit).count (toWit k) = 1

instance (k : Str) : Decidable (Unshared R k) := inferInstanceAs (Decidable (_ ∧ _))

variable {R}

theorem unshared_of_nodup {k : Str} (hk : k ∈ declared R) (hnd : ((declared R).map toWit).Nodup)
    (hb : toWit k ∉ builtins) : Unshared R k :=
  ⟨hb, List.count_eq_one_of_mem hnd (List.mem_map_of_mem hk)⟩

section Lookup

variable {comp : Dict Str WitType} (hc : buildWitCompTypes R = .ok comp) {k : Str}
  (hone : Unshared R k)

include hc hone

/-- A declaration with a name of its own is found under it. -/
theorem Unshared.get?_compTypes {w : WitType}
    (h : ∀ es, compEntries R = .ok es → (toWit k, w) ∈ es) : comp.get? (toWit k) = some w := by
  obtain ⟨es, hes, rfl⟩ := Py.map_eq_ok_iff.mp hc
  exact Dict.get?_ofList_of_count (by rw [map_fst_compEntries hes]; exact hone.2) (h es hes)

theorem Unshared.get?_primitive {p : Primitive} (h : (k, p) ∈ namedPrimitives R) :
    comp.get? (toWit k) = some (.ident p.witName) := by
  refine hone.get?_compTypes hc fun es hes => ?_
  obtain ⟨arrays, _, rfl⟩ := compEntries_parts hes
  exact List.mem_append_left _ (List.mem_append_left _ (List.mem_map.mpr ⟨(k, p), h, rfl⟩))

theorem Unshared.get?_alias {u : Str} (h : R.typeAliases.get? k = some u) :
    comp.get? (toWit k) = some (.ident (aliasTarget R u)) := by
  refine hone.get?_compTypes hc fun es hes => ?_
  obtain ⟨arrays, _, rfl⟩ := compEntries_parts hes
  exact List.mem_append_left _ (List.mem_append_right _
    (List.mem_map.mpr ⟨(k, u), Dict.get?_eq_some_iff.mp h, rfl⟩))

theorem Unshared.get?_array {a : ArrayType} {p : Primitive}
    (h : R.arrayTypes.get? k = some a) (hp : R.cPrimitives.get? a.elementType = some p) :
    comp.get? (toWit k) = some (.array a.count (.ident p.witName)) := by
  refine hone.get?_compTypes hc fun es hes => ?_
  obtain ⟨arrays, ha, rfl⟩ := compEntries_parts hes
  obtain ⟨i, hi⟩ := List.getElem?_of_mem (Dict.get?_eq_some_iff.mp h)
  obtain ⟨y, hy, hok⟩ := Py.mapM_ok_getElem? ha hi
  rw [arrayDecl, hp] at hok
  obtain rfl := Except.ok.inj hok
  exact List.mem_append_right _ (List.mem_of_getElem? hy)

end Lookup

end Wali.Wit
