import Wali.Wit.Scalars
import Wali.Abi.Primitives

/-!
# Records

`_generate_record_content` writes a record for every struct. Reading a record back through the
other records and the declared names gives a sequence of integer types; the registry gives one by
expanding the struct. `mirrors_of_primitivesIn` is the simulation between the two.
-/

namespace Wali.Wit

open Py (Str Dict)
open TypeRegistry (IsWidth)

structure WitRecord where
  name : Str
  fields : List (Str × WitType)
  deriving DecidableEq, Repr

variable (R : TypeRegistry)

def recordFields (fields : List StructField) : Except Py.Error (List (Str × WitType)) :=
  fields.mapM fun f => (fieldTypeToWit R f.typeName).map (toWit f.name, ·)

def recordOf (sd : StructDef) : Except Py.Error WitRecord :=
  (recordFields R sd.fields).map (WitRecord.mk (toWit sd.name))

/-- The records of all structs, in the order of registration. -/
def records : Except Py.Error (List WitRecord) := R.structDefs.values.mapM (recordOf R)

/-- The line of the field at a position: all but the last end in a comma. -/
def WitRecord.fieldLine (r : WitRecord) (i : ℕ) (f : Str × WitType) : Str :=
  let comma : Str := if i + 1 < r.fields.length then "," else ""
  "  " ++ f.1 ++ ": " ++ f.2.text ++ comma

def WitRecord.lines (r : WitRecord) : List Str :=
  let closing : List Str := ["\x7d", ""]
  ("record " ++ r.name ++ " \x7b") :: r.fields.mapIdx r.fieldLine ++ closing

/-- The text `_generate_record_content` returns. -/
def recordContent (rs : List WitRecord) : Str := Py.join "\n" (rs.flatMap WitRecord.lines)

-- ════════════════════════════════════════════════════════════════════════
-- Reading records back
-- ════════════════════════════════════════════════════════════════════════

/-- The records by name. -/
def recordEnv (rs : List WitRecord) : Dict Str (List (Str × WitType)) :=
  .ofList (rs.map fun r => (r.name, r.fields))

section Expand

variable (comp : Dict Str WitType) (env : Dict Str (List (Str × WitType)))

/-- What a name stands for. -/
inductive NameMeaning where
  | integer (name : Str)
  | type (w : WitType)
  | record (fields : List (Str × WitType))
  | unknown

/-- Pointers are offsets of 32 bits. -/
def meaningOf (name : Str) : NameMeaning :=
  if Py.startsWith name "ptr-" then .integer "u32" else
  if builtins.contains name then .integer name else
  match comp.get? name with
  | some w => .type w
  | none =>
  match env.get? name with
  | some fields => .record fields
  | none => .unknown

/-- The integer types a WIT type is made of. The first argument bounds the nesting. -/
def expandWit : ℕ → WitType → Option (List Str)
  | 0, _ => none
  | n + 1, .array count elem => (expandWit n elem).map fun ws => (List.replicate count ws).flatten
  | n + 1, .ident name =>
    match meaningOf comp env name with
    | .integer s => some [s]
    | .type w => expandWit n w
    | .record fields => (fields.mapM fun f => expandWit n f.2).map List.flatten
    | .unknown => none

def expandRecord (n : ℕ) (fields : List (Str × WitType)) : Option (List Str) :=
  (fields.mapM fun f => expandWit comp env n f.2).map List.flatten

/-- At every sufficient depth, the type expands to the given integer types. -/
def WitExpands (w : WitType) (ws : List Str) : Prop := ∃ m, ∀ m' ≥ m, expandWit comp env m' w = some ws

variable {comp env} {name : Str} {ws : List Str}

theorem meaningOf_ptr (h : Py.startsWith name "ptr-" = true) :
    meaningOf comp env name = .integer "u32" := if_pos h

section NotPointer

variable (h : Py.startsWith name "ptr-" = false)

include h

theorem meaningOf_builtin (hb : name ∈ builtins) : meaningOf comp env name = .integer name := by
  rw [meaningOf, h, if_neg (by decide), if_pos (List.contains_iff_mem.mpr hb)]

theorem meaningOf_declared (hb : name ∉ builtins) {w : WitType} (hget : comp.get? name = some w) :
    meaningOf comp env name = .type w := by
  rw [meaningOf, h, if_neg (by decide), if_neg (mt List.contains_iff_mem.mp hb), hget]

theorem meaningOf_record (hb : name ∉ builtins) (hget : comp.get? name = none)
    {fields : List (Str × WitType)} (henv : env.get? name = some fields) :
    meaningOf comp env name = .record fields := by
  rw [meaningOf, h, if_neg (by decide), if_neg (mt List.contains_iff_mem.mp hb), hget, henv]

end NotPointer

theorem WitExpands.of_integer {s : Str} (h : meaningOf comp env name = .integer s) :
    WitExpands comp env (.ident name) [s] := by
  refine ⟨1, fun m hm => ?_⟩
  obtain ⟨n, rfl⟩ := Nat.exists_eq_add_of_le' hm
  rw [expandWit, h]

/-- An expansion that goes one level down. -/
theorem WitExpands.of_succ {w : WitType} {expand : ℕ → Option (List Str)}
    (hstep : ∀ n, expandWit comp env (n + 1) w = expand n)
    (h : ∃ m, ∀ m' ≥ m, expand m' = some ws) : WitExpands comp env w ws := by
  obtain ⟨m, hm⟩ := h
  refine ⟨m + 1, fun m' hm' => ?_⟩
  obtain ⟨n, rfl⟩ := Nat.exists_eq_add_of_le' (Nat.le_trans (Nat.le_add_left 1 m) hm')
  rw [hstep]
  exact hm n (Nat.le_of_succ_le_succ hm')

theorem WitExpands.of_type {w : WitType} (h : meaningOf comp env name = .type w)
    (hw : WitExpands comp env w ws) : WitExpands comp env (.ident name) ws := by
  refine .of_succ (fun n => ?_) hw
  rw [expandWit, h]

theorem WitExpands.of_record {fields : List (Str × WitType)}
    (h : meaningOf comp env name = .record fields)
    (hf : ∃ m, ∀ m' ≥ m, expandRecord comp env m' fields = some ws) :
    WitExpands comp env (.ident name) ws := by
  refine .of_succ (fun n => ?_) hf
  rw [expandWit, h]
  rfl

theorem WitExpands.array {w : WitType} (count : ℕ) (hw : WitExpands comp env w ws) :
    WitExpands comp env (.array count w) (List.replicate count ws).flatten := by
  obtain ⟨m, hm⟩ := hw
  refine .of_succ (fun _ => rfl) ⟨m, fun n hn => ?_⟩
  rw [expandWit, hm n hn]
  rfl

/-- A record that has itself as a field cannot be read back. -/
theorem expandWit_of_self {fields : List (Str × WitType)}
    (h : meaningOf comp env name = .record fields) {id : Str} (hself : (id, .ident name) ∈ fields)
    (n : ℕ) : expandWit comp env n (.ident name) = none := by
  induction n with
  | zero => rfl
  | succ n ih =>
    rw [expandWit, h]
    refine Option.map_eq_none_iff.mpr (Option.eq_none_iff_forall_ne_some.mpr fun wss hwss => ?_)
    obtain ⟨ws, hws⟩ := TypeRegistry.mapM_some_mem hwss hself
    rw [ih] at hws
    cases hws

end Expand

-- ════════════════════════════════════════════════════════════════════════
-- Names
-- ════════════════════════════════════════════════════════════════════════

/-- All names of the registry. -/
def names : List Str :=
  R.cPrimitives.keys ++ R.typeAliases.keys ++ R.arrayTypes.keys ++ R.structDefs.keys

/-- The names stay apart after hyphenation and lead to each other. -/
structure NamesApart : Prop where
  distinct : ((names R).map toWit).Nodup
  notBuiltin : ∀ k ∈ names R, toWit k ∉ builtins
  targets : ∀ u ∈ R.typeAliases.values, u ∈ names R
  elements : ∀ a ∈ R.arrayTypes.values, a.elementType ∈ R.cPrimitives.keys

/-- Besides, pointers and what looks like one have the width they have in WIT, and the other
primitives have a WIT type. -/
structure RecordNames : Prop extends NamesApart R where
  widths : ∀ p ∈ R.cPrimitives.values, IsWidth p.size
  ptr : ∀ p, R.cPrimitives.get? "ptr" = some p → p = ⟨4, false⟩
  ptrNames : ∀ k ∈ names R, Py.startsWith (toWit k) "ptr-" = true →
    R.resolvePrimitive k = .ok ⟨4, false⟩
  starless : ∀ u ∈ R.targets, Py.endsWith u "*" = false

variable {R}

theorem namesApart_of_and (h : ((names R).map toWit).Nodup ∧ (∀ k ∈ names R, toWit k ∉ builtins) ∧
    (∀ u ∈ R.typeAliases.values, u ∈ names R) ∧
    ∀ a ∈ R.arrayTypes.values, a.elementType ∈ R.cPrimitives.keys) : NamesApart R :=
  ⟨h.1, h.2.1, h.2.2.1, h.2.2.2⟩

theorem declared_sublist_names : (declared R).Sublist (names R) := by
  have hprims : ((namedPrimitives R).map Prod.fst).Sublist R.cPrimitives.keys :=
    List.filter_sublist.map Prod.fst
  exact ((hprims.append (.refl _)).append (.refl _)).trans (List.sublist_append_left _ _)

theorem RecordNames.unshared (h : RecordNames R) {k : Str} (hk : k ∈ declared R) : Unshared R k :=
  unshared_of_nodup hk ((declared_sublist_names.map toWit).nodup h.distinct)
    (h.notBuiltin k (declared_sublist_names.subset hk))

theorem RecordNames.distinct_structs (h : RecordNames R) : (R.structDefs.keys.map toWit).Nodup :=
  ((List.sublist_append_right _ _).map toWit).nodup h.distinct

theorem mem_names_of_primitive {k : Str} {p : Primitive} (h : R.cPrimitives.get? k = some p) :
    k ∈ names R :=
  List.mem_append_left _ (List.mem_append_left _
    (List.mem_append_left _ (Dict.mem_keys_iff.mpr ⟨p, h⟩)))

theorem RecordNames.not_named (h : RecordNames R) {k : Str} (hk : k ∈ R.cPrimitives.keys) :
    ¬ (k ∈ R.typeAliases.keys ∨ k ∈ R.arrayTypes.keys ∨ k ∈ R.structDefs.keys) := by
  have hnd := h.distinct.of_map
  simp only [names, List.append_assoc] at hnd
  have hdis := List.disjoint_of_nodup_append hnd hk
  simpa only [List.mem_append] using hdis

/-- No declaration goes by the name of a record. -/
theorem RecordNames.toWit_not_mem_keys (h : RecordNames R) {comp : Dict Str WitType}
    (hc : buildWitCompTypes R = .ok comp) {k : Str} (hk : k ∈ R.structDefs.keys) :
    toWit k ∉ comp.keys := by
  intro hmem
  obtain ⟨d, hd, he⟩ := (mem_keys_compTypes hc).mp hmem
  have hkn : k ∈ names R := List.mem_append_right _ hk
  obtain rfl := List.inj_on_of_nodup_map h.distinct (declared_sublist_names.subset hd) hkn he
  exact List.disjoint_of_nodup_append h.distinct.of_map
    (((List.filter_sublist.map Prod.fst).append (.refl _)).append (.refl _) |>.subset hd) hk

/-- A name is written the same as a field type and as the target of an alias. -/
theorem RecordNames.fieldTypeToWit_of_mem (h : RecordNames R) {k : Str} (hk : k ∈ names R)
    (hs : Py.endsWith k "*" = false) :
    fieldTypeToWit R k = .ok (.ident (aliasTarget R k)) := by
  unfold aliasTarget
  cases hp : R.cPrimitives.get? k with
  | some p =>
    exact fieldTypeToWit_of_primitive hs (h.not_named (Dict.mem_keys_iff.mpr ⟨p, hp⟩)) hp
  | none =>
    refine fieldTypeToWit_of_named hs ?_
    simp only [names, List.mem_append, or_assoc] at hk
    exact hk.resolve_left (Dict.get?_eq_none_iff.mp hp)

-- ════════════════════════════════════════════════════════════════════════
-- The records can be written
-- ════════════════════════════════════════════════════════════════════════

theorem fieldTypeToWit_of_shape_inlineArray {t elem : Str} {count : ℕ} {w : WitType}
    (hs : R.shape t = .inlineArray count elem) (hw : fieldTypeToWit R elem = .ok w) :
    fieldTypeToWit R t = .ok (.array count w) := by
  obtain ⟨hstar, hp, ha, hy, hd, harr⟩ := TypeRegistry.shape_inlineArray hs
  have hk : ¬ (t ∈ R.typeAliases.keys ∨ t ∈ R.arrayTypes.keys ∨ t ∈ R.structDefs.keys) := by
    simp only [not_or, ← Dict.get?_eq_none_iff]
    exact ⟨ha, hy, hd⟩
  rw [fieldTypeToWit_of_inlineArray hstar hk hp harr, hw]
  rfl

/-- What resolves can be written. -/
theorem fieldTypeToWit_of_resolves {t : Str} (ht : R.Resolves t) :
    ∃ w, fieldTypeToWit R t = .ok w := by
  have hnamed : ∀ t, t ∈ R.typeAliases.keys ∨ t ∈ R.arrayTypes.keys ∨ t ∈ R.structDefs.keys →
      ∃ w, fieldTypeToWit R t = .ok w := by
    intro t hk
    cases hs : Py.endsWith t "*" with
    | true => exact ⟨_, fieldTypeToWit_of_ptr hs⟩
    | false => exact ⟨_, fieldTypeToWit_of_named hs hk⟩
  refine ht.induct (fun t ht hend => ?_) (fun t u _ hu _ ih => ?_)
  · rcases ht.end_cases hend with ⟨hs, _⟩ | ⟨p, hs⟩ | ⟨sd, hs⟩
    · exact ⟨_, fieldTypeToWit_of_ptr (TypeRegistry.shape_pointer hs)⟩
    · obtain ⟨hstar, hp⟩ := TypeRegistry.shape_primitive hs
      by_cases hk : t ∈ R.typeAliases.keys ∨ t ∈ R.arrayTypes.keys ∨ t ∈ R.structDefs.keys
      · exact hnamed t hk
      · exact ⟨_, fieldTypeToWit_of_primitive hstar hk hp⟩
    · have hget := (TypeRegistry.shape_struct hs).2.2.2.2
      exact hnamed t (Or.inr (Or.inr (Dict.mem_keys_iff.mpr ⟨sd, hget⟩)))
  · rcases R.next_cases hu with hs | ⟨a, hs, rfl⟩ | ⟨count, hs⟩
    · exact hnamed t (Or.inl (Dict.mem_keys_iff.mpr ⟨u, (TypeRegistry.shape_aliasTo hs).2.2⟩))
    · have hget := (TypeRegistry.shape_arrayOf hs).2.2.2
      exact hnamed t (Or.inr (Or.inl (Dict.mem_keys_iff.mpr ⟨a, hget⟩)))
    · obtain ⟨w, hw⟩ := ih
      exact ⟨.array count w, fieldTypeToWit_of_shape_inlineArray hs hw⟩

theorem records_ok (hv : R.validate = .ok ()) : ∃ rs, records R = .ok rs := by
  refine Py.mapM_exists_ok fun sd hsd => ?_
  obtain ⟨fields, hf⟩ : ∃ fields, recordFields R sd.fields = .ok fields := by
    refine Py.mapM_exists_ok fun f hf => ?_
    obtain ⟨w, hw⟩ := fieldTypeToWit_of_resolves (TypeRegistry.validate_fields hv hsd hf)
    exact ⟨(toWit f.name, w), by rw [hw]; rfl⟩
  exact ⟨⟨toWit sd.name, fields⟩, by rw [recordOf, hf]; rfl⟩

/-- The record of a struct is found under its name. -/
theorem get?_recordEnv (hnd : (R.structDefs.keys.map toWit).Nodup) {rs : List WitRecord}
    (hr : records R = .ok rs) {sd : StructDef} (hsd : sd ∈ R.structDefs.values) :
    ∃ fields, recordFields R sd.fields = .ok fields ∧ ⟨toWit sd.name, fields⟩ ∈ rs ∧
      (recordEnv rs).get? (toWit sd.name) = some fields := by
  have hname : ∀ sd r, recordOf R sd = .ok r → r.name = toWit sd.name := by
    intro sd r h
    obtain ⟨_, _, rfl⟩ := Py.map_eq_ok_iff.mp h
    rfl
  have hkeys : rs.map WitRecord.name = R.structDefs.keys.map toWit := by
    rw [Py.mapM_ok_map hname hr, Dict.keys, Dict.values, List.map_map, List.map_map]
    exact List.map_congr_left fun e he => congrArg toWit (R.named e he)
  obtain ⟨i, hi⟩ := List.getElem?_of_mem hsd
  obtain ⟨r, hget, hok⟩ := Py.mapM_ok_getElem? hr hi
  obtain ⟨fields, hf, rfl⟩ := Py.map_eq_ok_iff.mp hok
  have hmem := List.mem_of_getElem? hget
  refine ⟨fields, hf, hmem, Dict.get?_ofList_of_mem ?_ (List.mem_map.mpr ⟨_, hmem, rfl⟩)⟩
  rw [List.map_map]
  exact hkeys ▸ hnd

-- ════════════════════════════════════════════════════════════════════════
-- The simulation
-- ════════════════════════════════════════════════════════════════════════

/-- A name that resolves to a primitive is made of nothing else. -/
theorem RecordNames.primitivesIn_of_resolvePrimitive (h : RecordNames R) {n : ℕ} {t : Str}
    {p : Primitive} {ps : List Primitive} (hs : Py.endsWith t "*" = false)
    (hp : R.resolvePrimitive t = .ok p) (hps : R.primitivesIn n t = some ps) : ps = [p] := by
  induction n generalizing t with
  | zero => cases hps
  | succ n ih =>
    rw [TypeRegistry.primitivesIn] at hps
    rcases TypeRegistry.resolvePrimitive_cases hp with hget | ⟨hnone, u, ha, hu⟩
    · rw [R.shape_of_primitive hs hget] at hps
      exact (Option.some.inj hps).symm
    · rw [R.shape_of_alias hs hnone ha] at hps
      have hmem : u ∈ R.typeAliases.values := Dict.mem_values.mpr ⟨t, Dict.get?_eq_some_iff.mp ha⟩
      exact ih (h.starless u (List.mem_append_left _ hmem)) hu hps

theorem startsWith_witName (p : Primitive) : Py.startsWith p.witName "ptr-" = false := by
  obtain ⟨size, signed⟩ := p
  cases signed <;> rfl

/-- Whatever primitives the type is made of, its WIT form expands to their integer types. -/
def Mirrors (R : TypeRegistry) (comp : Dict Str WitType) (env : Dict Str (List (Str × WitType)))
    (t : Str) (ps : List Primitive) : Prop :=
  ∃ w, fieldTypeToWit R t = .ok w ∧ WitExpands comp env w (ps.map Primitive.witName)

section Simulation

variable (h : RecordNames R) {comp : Dict Str WitType} (hc : buildWitCompTypes R = .ok comp)
  {rs : List WitRecord} (hr : records R = .ok rs)

include h in
theorem RecordNames.expands_witName (env : Dict Str (List (Str × WitType))) {k : Str} {p : Primitive}
    (hp : R.cPrimitives.get? k = some p) : WitExpands comp env (.ident p.witName) [p.witName] :=
  .of_integer (meaningOf_builtin (startsWith_witName p)
    (witName_mem_builtins (h.widths p (Dict.mem_values.mpr ⟨k, Dict.get?_eq_some_iff.mp hp⟩))))

include h in
/-- The names that look like pointers are pointers. -/
theorem RecordNames.expands_name (env : Dict Str (List (Str × WitType))) {n : ℕ} {k : Str}
    {ps : List Primitive} (hk : k ∈ names R) (hs : Py.endsWith k "*" = false)
    (hps : R.primitivesIn n k = some ps)
    (hrest : Py.startsWith (toWit k) "ptr-" = false →
      WitExpands comp env (.ident (toWit k)) (ps.map Primitive.witName)) :
    WitExpands comp env (.ident (toWit k)) (ps.map Primitive.witName) := by
  cases hptr : Py.startsWith (toWit k) "ptr-" with
  | false => exact hrest hptr
  | true =>
    obtain rfl := h.primitivesIn_of_resolvePrimitive hs (h.ptrNames k hk hptr) hps
    exact .of_integer (meaningOf_ptr hptr)

include h in
/-- The same for a name with a declaration of its own. -/
theorem RecordNames.expands_declared (env : Dict Str (List (Str × WitType))) {n : ℕ} {k : Str}
    {w : WitType} {ps : List Primitive} (hk : k ∈ declared R) (hs : Py.endsWith k "*" = false)
    (hps : R.primitivesIn n k = some ps)
    (hget : Unshared R k → comp.get? (toWit k) = some w)
    (hw : WitExpands comp env w (ps.map Primitive.witName)) :
    WitExpands comp env (.ident (toWit k)) (ps.map Primitive.witName) := by
  have hone := h.unshared hk
  exact h.expands_name env (declared_sublist_names.subset hk) hs hps fun hptr =>
    .of_type (meaningOf_declared hptr hone.1 (hget hone)) hw

include h hc in
theorem RecordNames.mirrors_primitive (env : Dict Str (List (Str × WitType))) {n : ℕ} {t : Str}
    {p : Primitive} (hs : R.shape t = .primitive p) {ps : List Primitive}
    (hps : R.primitivesIn n t = some ps) : Mirrors R comp env t ps := by
  obtain ⟨hstar, hp⟩ := TypeRegistry.shape_primitive hs
  have hval : R.resolvePrimitive t = .ok p := by rw [TypeRegistry.resolvePrimitive_eq, hp]
  obtain rfl := h.primitivesIn_of_resolvePrimitive hstar hval hps
  refine ⟨_, h.fieldTypeToWit_of_mem (mem_names_of_primitive hp) hstar, ?_⟩
  simp only [aliasTarget, hp]
  cases hstd : isStdint t with
  | true => exact h.expands_witName env hp
  | false =>
    exact h.expands_declared env (mem_declared_of_primitive hp hstd) hstar hps
      (fun hone => hone.get?_primitive hc (mem_namedPrimitives.mpr ⟨hp, hstd⟩))
      (h.expands_witName env hp)

include h hc in
theorem RecordNames.mirrors_alias (env : Dict Str (List (Str × WitType))) {n : ℕ} {t u : Str}
    (hs : R.shape t = .aliasTo u) {ps : List Primitive} (hps : R.primitivesIn n t = some ps)
    (hu : Mirrors R comp env u ps) : Mirrors R comp env t ps := by
  obtain ⟨hstar, _, ha⟩ := TypeRegistry.shape_aliasTo hs
  have hmem : u ∈ R.typeAliases.values := Dict.mem_values.mpr ⟨t, Dict.get?_eq_some_iff.mp ha⟩
  -- the declaration of `t` names its target as a field of that type would
  obtain ⟨w, hw, hexp⟩ := hu
  rw [h.fieldTypeToWit_of_mem (h.targets u hmem) (h.starless u (List.mem_append_left _ hmem))] at hw
  obtain rfl := Except.ok.inj hw
  refine ⟨_, fieldTypeToWit_of_named hstar (Or.inl (Dict.mem_keys_iff.mpr ⟨u, ha⟩)), ?_⟩
  exact h.expands_declared env (mem_declared_of_alias ha) hstar hps
    (fun hone => hone.get?_alias hc ha) hexp

include h hc in
theorem RecordNames.mirrors_array (env : Dict Str (List (Str × WitType))) {n : ℕ} {t : Str}
    {a : ArrayType} (hs : R.shape t = .arrayOf a) {qs : List Primitive}
    (hps : R.primitivesIn (n + 1) t = some (List.replicate a.count qs).flatten)
    (hqs : R.primitivesIn n a.elementType = some qs) :
    Mirrors R comp env t (List.replicate a.count qs).flatten := by
  obtain ⟨hstar, _, _, ha⟩ := TypeRegistry.shape_arrayOf hs
  have hmem : a ∈ R.arrayTypes.values := Dict.mem_values.mpr ⟨t, Dict.get?_eq_some_iff.mp ha⟩
  obtain ⟨q, hq⟩ := Dict.mem_keys_iff.mp (h.elements a hmem)
  have hval : R.resolvePrimitive a.elementType = .ok q := by
    rw [TypeRegistry.resolvePrimitive_eq, hq]
  obtain rfl := h.primitivesIn_of_resolvePrimitive
    (h.starless _ (List.mem_append_right _ (List.mem_map_of_mem hmem))) hval hqs
  refine ⟨_, fieldTypeToWit_of_named hstar (Or.inr (Or.inl (Dict.mem_keys_iff.mpr ⟨a, ha⟩))), ?_⟩
  refine h.expands_declared env (mem_declared_of_array ha) hstar hps
    (fun hone => hone.get?_array hc ha hq) ?_
  rw [List.map_flatten, List.map_replicate]
  exact .array a.count (h.expands_witName env hq)

include h hc hr in
theorem RecordNames.mirrors_struct {n : ℕ} {t : Str} {sd : StructDef} (hs : R.shape t = .struct sd)
    {ps : List Primitive} (hps : R.primitivesIn n t = some ps)
    (hrec : ∀ fields, recordFields R sd.fields = .ok fields →
      ∃ m, ∀ m' ≥ m, expandRecord comp (recordEnv rs) m' fields = some (ps.map Primitive.witName)) :
    Mirrors R comp (recordEnv rs) t ps := by
  obtain ⟨hstar, _, _, _, hget⟩ := TypeRegistry.shape_struct hs
  have hk : t ∈ R.structDefs.keys := Dict.mem_keys_iff.mpr ⟨sd, hget⟩
  have hkn : t ∈ names R := List.mem_append_right _ hk
  obtain ⟨fields, hf, _, henv⟩ := get?_recordEnv h.distinct_structs hr
    (TypeRegistry.shape_struct_mem hs)
  rw [R.named _ (Dict.get?_eq_some_iff.mp hget)] at henv
  refine ⟨_, fieldTypeToWit_of_named hstar (Or.inr (Or.inr hk)), ?_⟩
  refine h.expands_name _ hkn hstar hps fun hptr => .of_record (meaningOf_record hptr ?_ ?_ henv) ?_
  · exact h.notBuiltin t hkn
  · exact Dict.get?_eq_none_iff.mpr (h.toWit_not_mem_keys hc hk)
  · exact hrec fields hf

omit h hc hr in
theorem mirrors_inlineArray {env : Dict Str (List (Str × WitType))} {t elem : Str} {count : ℕ}
    (hs : R.shape t = .inlineArray count elem) {qs : List Primitive}
    (helem : Mirrors R comp env elem qs) :
    Mirrors R comp env t (List.replicate count qs).flatten := by
  obtain ⟨w, hw, hexp⟩ := helem
  refine ⟨.array count w, fieldTypeToWit_of_shape_inlineArray hs hw, ?_⟩
  rw [List.map_flatten, List.map_replicate]
  exact .array count hexp

omit h hc hr in
/-- Field by field, what holds of types holds of records. -/
theorem expandRecord_of_fields {env : Dict Str (List (Str × WitType))} {n : ℕ}
    (ih : ∀ t ps, R.primitivesIn n t = some ps → Mirrors R comp env t ps) {fs : List StructField}
    {fields : List (Str × WitType)} {ps : List Primitive} (hf : recordFields R fs = .ok fields)
    (hps : (fs.mapM fun f => R.primitivesIn n f.typeName).map List.flatten = some ps) :
    ∃ m, ∀ m' ≥ m, expandRecord comp env m' fields = some (ps.map Primitive.witName) := by
  rw [recordFields, Py.mapM_eq_ok_iff] at hf
  induction fs generalizing fields ps with
  | nil =>
    obtain rfl := List.map_eq_nil_iff.mp hf.symm
    obtain rfl := Option.some.inj hps
    exact ⟨0, fun _ _ => rfl⟩
  | cons f fs ihf =>
    cases fields with
    | nil => cases hf
    | cons g fields =>
      obtain ⟨hg, hfs⟩ := List.cons.inj hf
      obtain ⟨pss, hpss, rfl⟩ := Option.map_eq_some_iff.mp hps
      simp only [List.mapM_cons, Option.bind_eq_bind, Option.bind_eq_some_iff] at hpss
      obtain ⟨qs, hqs, qss, hqss, he⟩ := hpss
      obtain rfl := Option.some.inj he
      obtain ⟨w, hw, k, hk⟩ := ih _ _ hqs
      obtain ⟨w', hw', rfl⟩ := Py.map_eq_ok_iff.mp hg
      rw [hw] at hw'
      obtain rfl := Except.ok.inj hw'
      obtain ⟨m, hm⟩ := ihf hfs (by rw [hqss]; rfl)
      refine ⟨max m k, fun m' hm' => ?_⟩
      obtain ⟨wss, hwss, hflat⟩ := Option.map_eq_some_iff.mp (hm m' (le_trans (le_max_left m k) hm'))
      rw [expandRecord, List.mapM_cons, hk m' (le_trans (le_max_right m k) hm'), hwss]
      simp only [Option.bind_eq_bind, Option.bind_some, Option.pure_def, Option.map_some,
        List.flatten_cons, hflat, List.map_append]

include h hc hr in
/-- **Simulation**: a type that expands in the registry is written as a type that expands in WIT,
to the same integers. -/
theorem RecordNames.mirrors (n : ℕ) (t : Str) (ps : List Primitive)
    (hps : R.primitivesIn n t = some ps) : Mirrors R comp (recordEnv rs) t ps := by
  induction n generalizing t ps with
  | zero => cases hps
  | succ n ih =>
    have hstep := hps
    rw [TypeRegistry.primitivesIn] at hstep
    cases hs : R.shape t with
    | pointer =>
      rw [hs] at hstep
      obtain ⟨p, hp, rfl⟩ := Option.map_eq_some_iff.mp hstep
      obtain rfl := h.ptr p hp
      have hstar := TypeRegistry.shape_pointer hs
      exact ⟨_, fieldTypeToWit_of_ptr hstar, .of_integer (meaningOf_ptr (startsWith_ptrName hstar))⟩
    | primitive p => exact h.mirrors_primitive hc _ hs hps
    | aliasTo u =>
      rw [hs] at hstep
      exact h.mirrors_alias hc _ hs hps (ih u ps hstep)
    | arrayOf a =>
      rw [hs] at hstep
      obtain ⟨qs, hqs, rfl⟩ := Option.map_eq_some_iff.mp hstep
      exact h.mirrors_array hc _ hs hps hqs
    | struct sd =>
      rw [hs] at hstep
      exact h.mirrors_struct hc hr hs hps fun fields hf => expandRecord_of_fields ih hf hstep
    | inlineArray count elem =>
      rw [hs] at hstep
      obtain ⟨qs, hqs, rfl⟩ := Option.map_eq_some_iff.mp hstep
      exact mirrors_inlineArray hs (ih elem qs hqs)
    | unknown => rw [hs] at hstep; cases hstep

end Simulation

/-- **Records are faithful**: every record reads back as the integer types of the primitives its
struct is made of. -/
theorem records_faithful (R : TypeRegistry) (hv : R.validate = .ok ()) (hself : R.SelfFree)
    (h : RecordNames R) :
    ∃ comp rs, buildWitCompTypes R = .ok comp ∧ records R = .ok rs ∧
      ∀ sd ∈ R.structDefs.values, ∃ fields ps, ⟨toWit sd.name, fields⟩ ∈ rs ∧
        ∃ n, ∀ m ≥ n, R.primitivesOfStructIn m sd = some ps ∧
          expandRecord comp (recordEnv rs) m fields = some (ps.map Primitive.witName) := by
  obtain ⟨comp, hc⟩ := buildWitCompTypes_ok h.elements
  obtain ⟨rs, hr⟩ := records_ok hv
  refine ⟨comp, rs, hc, hr, fun sd hsd => ?_⟩
  obtain ⟨fields, hf, hmem, _⟩ := get?_recordEnv h.distinct_structs hr hsd
  obtain ⟨n, ps, hps⟩ := (TypeRegistry.selfFree_iff hv).mp hself sd hsd
  obtain ⟨k, hk⟩ := expandRecord_of_fields (h.mirrors hc hr n) hf hps
  refine ⟨fields, ps, hmem, max n k, fun m hm => ⟨?_, hk m (le_trans (le_max_right n k) hm)⟩⟩
  exact TypeRegistry.primitivesOfStructIn_mono (le_trans (le_max_left n k) hm) hps

theorem records_faithful_itimerval :
    ∃ comp rs, buildWitCompTypes TypeRegistry.withTimers = .ok comp ∧
      records TypeRegistry.withTimers = .ok rs ∧
      ∃ fields ps, ⟨toWit "struct itimerval", fields⟩ ∈ rs ∧
        ∃ n, ∀ m ≥ n, TypeRegistry.withTimers.primitivesOfStructIn m
            ⟨TypeRegistry.itimerval, ⟨[0, 16], [16, 16], 32, 8⟩⟩ = some ps ∧
          expandRecord comp (recordEnv rs) m fields = some (ps.map Primitive.witName) := by
  have hptr : TypeRegistry.withTimers.cPrimitives.get? "ptr" = some ⟨4, false⟩ := by decide +kernel
  have hnames : RecordNames TypeRegistry.withTimers :=
    { namesApart_of_and (by decide +kernel) with
      widths := by decide +kernel
      ptr := fun p hp => Option.some.inj (hp.symm.trans hptr)
      ptrNames := by decide +kernel
      starless := by decide +kernel }
  obtain ⟨comp, rs, hc, hr, hall⟩ := records_faithful TypeRegistry.withTimers (by decide +kernel)
    (TypeRegistry.selfFree_of_reachable (by decide) TypeRegistry.withTimers_reachable) hnames
  exact ⟨comp, rs, hc, hr, hall ⟨TypeRegistry.itimerval, ⟨[0, 16], [16, 16], 32, 8⟩⟩
    (by decide +kernel)⟩

/-- A registry with one struct of one field. -/
def oneField (prims : Dict Str Primitive) (aliases : Dict Str Str) (type : Str) : TypeRegistry :=
  (StructDecl.postInit ⟨"struct one", [⟨"field", type, none⟩], none, false⟩
    (TypeRegistry.bare prims aliases .empty)).2

/-- Addresses of 64 bits. -/
def longPointers : TypeRegistry :=
  oneField ⟨[("int", ⟨4, true⟩), ("ptr", ⟨8, false⟩)], by decide⟩ .empty "void*"

/-- An integer of 64 bits with the name of an address. -/
def longLookalike : TypeRegistry := oneField ⟨[("ptr_cookie", ⟨8, false⟩)], by decide⟩ .empty "ptr_cookie"

/-- An alias for a primitive that is spelled like an address. -/
def starredTarget : TypeRegistry :=
  oneField ⟨[("ptr", ⟨4, false⟩), ("quad*", ⟨8, true⟩)], by decide⟩ ⟨[("cookie", "quad*")], by decide⟩
    "cookie"

/-- An integer of 24 bits, and something else that goes by the name it would have in WIT. -/
def oddWidth : TypeRegistry :=
  oneField ⟨[("int", ⟨4, true⟩), ("int24", ⟨3, true⟩)], by decide⟩ ⟨[("s24", "int")], by decide⟩ "int24"

/-- A struct under the name of an array, which its field then refers to. -/
def selfContained : TypeRegistry :=
  (StructDecl.postInit ⟨"int[2]", [⟨"field", "int[2]", none⟩], none, false⟩
    (TypeRegistry.bare ⟨[("int", ⟨4, true⟩)], by decide⟩ .empty .empty)).2

/-- The one struct is made of the first integers, its record of the second. -/
def ReadsAs (R : TypeRegistry) (struct record : List Str) : Prop :=
  (R.structDefs.values.map fun sd =>
    (R.primitivesOfStructIn 4 sd).map (List.map Primitive.witName)) = [some struct] ∧
  (match buildWitCompTypes R, records R with
    | .ok comp, .ok rs => rs.map fun r => expandRecord comp (recordEnv rs) 4 r.fields
    | _, _ => []) = [some record]

instance (R : TypeRegistry) (struct record : List Str) : Decidable (ReadsAs R struct record) :=
  inferInstanceAs (Decidable (_ ∧ _))

/-- Without the conditions on widths and on names like pointers a record reads back as something
else, and a struct that contains itself does not read back at all. -/
theorem records_unfaithful :
    (longPointers.validate = .ok () ∧ NamesApart longPointers ∧
      ReadsAs longPointers ["u64"] ["u32"]) ∧
    (longLookalike.validate = .ok () ∧ NamesApart longLookalike ∧
      ReadsAs longLookalike ["u64"] ["u32"]) ∧
    (starredTarget.validate = .ok () ∧ NamesApart starredTarget ∧
      ReadsAs starredTarget ["u32"] ["s64"]) ∧
    (oddWidth.validate = .ok () ∧ NamesApart oddWidth ∧
      ReadsAs oddWidth ["s24"] ["s32"]) ∧
    (selfContained.validate = .ok () ∧ NamesApart selfContained ∧
      ∃ comp rs fields, buildWitCompTypes selfContained = .ok comp ∧ records selfContained = .ok rs ∧
        rs = [⟨"int[2]", fields⟩] ∧ ∀ n, expandRecord comp (recordEnv rs) n fields = none) := by
  refine ⟨⟨by decide +kernel, namesApart_of_and (by decide +kernel), by decide +kernel⟩,
    ⟨by decide +kernel, namesApart_of_and (by decide +kernel), by decide +kernel⟩,
    ⟨by decide +kernel, namesApart_of_and (by decide +kernel), by decide +kernel⟩,
    ⟨by decide +kernel, namesApart_of_and (by decide +kernel), by decide +kernel⟩,
    by decide +kernel, namesApart_of_and (by decide +kernel), ?_⟩
  · obtain ⟨comp, hc⟩ := buildWitCompTypes_ok (R := selfContained) (by decide +kernel)
    have hr : records selfContained = .ok [⟨"int[2]", [("field", .ident "int[2]")]⟩] := by
      decide +kernel
    refine ⟨comp, _, _, hc, hr, rfl, fun n => ?_⟩
    have hkeys : ("int[2]" : Str) ∉ comp.keys := by
      rw [mem_keys_compTypes hc]
      decide +kernel
    have henv : (recordEnv [⟨"int[2]", [("field", .ident "int[2]")]⟩]).get? "int[2]" =
        some [(("field" : Str), WitType.ident "int[2]")] := by decide +kernel
    have hnone := expandWit_of_self (meaningOf_record (by decide) (by decide)
      (Dict.get?_eq_none_iff.mpr hkeys) henv) List.mem_cons_self n
    rw [expandRecord, List.mapM_cons, hnone]
    rfl

end Wali.Wit
