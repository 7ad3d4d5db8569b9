import Wali.Abi.Leaves
import Mathlib.Data.List.Perm.Basic

/-!
# The order of the declarations

`abi.py` declares its structs one after the other while it is imported, and a declaration reads what
the ones before it have registered. Two orders of the same declarations that are both accepted leave
the same structs behind, and which orders are accepted can be read off the field types alone: a
struct has to come after those its fields are made of. Everything is about registries of which one
is a part of the other; `Sub.resolve` says that the smaller one is never contradicted.
-/

namespace Wali.TypeRegistry

open Py (Str Dict)
open Relation (ReflTransGen)

-- ════════════════════════════════════════════════════════════════════════
-- Loading
-- ════════════════════════════════════════════════════════════════════════

/-- The declarations of a module, from the first to the last. An assertion or an unknown type ends the
import. -/
def load (R : TypeRegistry) : List StructDecl → Except Py.Error TypeRegistry
  | [] => .ok R
  | d :: ds =>
    match d.postInit R with
    | (.error e, _) => .error e
    | (.ok _, R') => R'.load ds

section Statement

variable (R : TypeRegistry)

/-- A name that only a struct can have: no other table has it and it is not written as an array. -/
structure OwnName (name : Str) : Prop where
  unclaimed : R.Unclaimed name
  noArray : parseInlineArray name = none

/-- To know the size of a type one has to know that of another, at which its aliases and array elements
end. -/
def Needs (t u : Str) : Prop := ReflTransGen (fun a b => R.next a = some b) t u ∧ R.next u = none

/-- A field of the one struct is made of the other. -/
def BuiltFrom (d e : StructDecl) : Prop := ∃ f ∈ d.fields, R.Needs f.typeName e.name

end Statement

variable {R R' R₁ R₂ S : TypeRegistry} {d : StructDecl} {ds ds' : List StructDecl} {t : Str}

theorem load_cons_ok_iff : R.load (d :: ds) = .ok R' ↔
    ∃ sd, d.postInit R = (.ok sd, R.addStruct sd) ∧ (R.addStruct sd).load ds = .ok R' := by
  rw [load]
  rcases postInit_cases d R with ⟨e, he⟩ | ⟨L, _, _, _, he⟩
  · rw [he]
    refine iff_of_false (by simp) ?_
    rintro ⟨sd, h, _⟩
    cases h
  · rw [he]
    refine ⟨fun h => ⟨_, rfl, h⟩, ?_⟩
    rintro ⟨sd, hsd, h⟩
    cases hsd
    exact h

-- ════════════════════════════════════════════════════════════════════════
-- A registry that is a part of another
-- ════════════════════════════════════════════════════════════════════════

/-- The same tables and fewer structs. What is missing is missing under a name of its own. -/
structure Sub (R R' : TypeRegistry) : Prop where
  cPrimitives : R'.cPrimitives = R.cPrimitives
  typeAliases : R'.typeAliases = R.typeAliases
  arrayTypes : R'.arrayTypes = R.arrayTypes
  structs : ∀ n sd, R.structDefs.get? n = some sd → R'.structDefs.get? n = some sd
  own : ∀ n sd, R.structDefs.get? n = none → R'.structDefs.get? n = some sd → R.OwnName n

theorem OwnName.of_tables {n : Str} (h : R.OwnName n) (hp : R'.cPrimitives = R.cPrimitives)
    (ha : R'.typeAliases = R.typeAliases) (harr : R'.arrayTypes = R.arrayTypes) : R'.OwnName n := by
  obtain ⟨⟨h1, h2, h3, h4⟩, h5⟩ := h
  exact ⟨⟨h1, hp ▸ h2, ha ▸ h3, harr ▸ h4⟩, h5⟩

theorem OwnName.shape_unknown {n : Str} (h : R.OwnName n) (hn : R.structDefs.get? n = none) :
    R.shape n = .unknown := by
  obtain ⟨⟨h1, h2, h3, h4⟩, h5⟩ := h
  simp only [shape, h1, h2, h3, h4, h5, hn, Bool.false_eq_true, if_false]

theorem OwnName.shape_struct {n : Str} {sd : StructDef} (h : R.OwnName n)
    (hn : R.structDefs.get? n = some sd) : R.shape n = .struct sd := by
  obtain ⟨⟨h1, h2, h3, h4⟩, _⟩ := h
  simp only [shape, h1, h2, h3, h4, hn, Bool.false_eq_true, if_false]

theorem OwnName.not_resolves {n : Str} (h : R.OwnName n) (hn : R.structDefs.get? n = none) :
    ¬ R.Resolves n := by
  refine not_resolves_of_error (e := .runtimeError ("Cannot resolve size for type '" ++ n ++ "'")) ?_
  rw [resolveSize_eq, h.shape_unknown hn]

namespace Sub

theorem refl (R : TypeRegistry) : Sub R R where
  cPrimitives := rfl
  typeAliases := rfl
  arrayTypes := rfl
  structs := fun _ _ h => h
  own := fun n sd hnone hsome => by rw [hnone] at hsome; cases hsome

theorem ownName (h : Sub R R') {n : Str} (hn : R.OwnName n) : R'.OwnName n :=
  hn.of_tables h.cPrimitives h.typeAliases h.arrayTypes

/-- A name has the same shape in both, or it is a struct that the smaller one does not know. -/
theorem shape_cases (h : Sub R R') (t : Str) :
    R'.shape t = R.shape t ∨
      R.OwnName t ∧ R.structDefs.get? t = none ∧ ∃ sd, R'.structDefs.get? t = some sd := by
  cases ht : R.structDefs.get? t with
  | some sd =>
    left
    simp only [shape, h.cPrimitives, h.typeAliases, h.arrayTypes, ht, h.structs t sd ht]
  | none =>
    cases ht' : R'.structDefs.get? t with
    | some sd => exact .inr ⟨h.own t sd ht ht', rfl, sd, rfl⟩
    | none =>
      left
      simp only [shape, h.cPrimitives, h.typeAliases, h.arrayTypes, ht, ht']

theorem next (h : Sub R R') (t : Str) : R'.next t = R.next t := by
  unfold TypeRegistry.next
  rcases h.shape_cases t with hs | ⟨hown, hnone, sd, hsd⟩
  · rw [hs]
  · rw [hown.shape_unknown hnone, (h.ownName hown).shape_struct hsd]
    rfl

theorem shape_of_resolves (h : Sub R R') (ht : R.Resolves t) : R'.shape t = R.shape t := by
  rcases h.shape_cases t with hs | ⟨hown, hnone, _⟩
  · exact hs
  · exact absurd ht (hown.not_resolves hnone)

theorem ptrSize (h : Sub R R') : R'.ptrSize = R.ptrSize := by
  simp only [TypeRegistry.ptrSize, h.cPrimitives]

/-- What resolves in the smaller registry resolves in the same way in the larger one. -/
theorem resolve (h : Sub R R') (ht : R.Resolves t) :
    R'.resolveSize t = R.resolveSize t ∧ R'.resolveAlignment t = R.resolveAlignment t := by
  refine ht.induct (fun t ht hend => ?_) (fun t u ht hu _ ih => ?_)
  · rw [resolveSize_eq, resolveAlignment_eq, resolveSize_eq, resolveAlignment_eq, h.shape_of_resolves ht,
      h.ptrSize]
    rcases ht.end_cases hend with ⟨hs, _⟩ | ⟨p, hs⟩ | ⟨sd, hs⟩ <;> rw [hs] <;> exact ⟨rfl, rfl⟩
  · refine ⟨?_, ?_⟩
    · rw [resolveSize_eq, resolveSize_eq R, h.shape_of_resolves ht]
      rcases R.next_cases hu with hs | ⟨a, hs, rfl⟩ | ⟨count, hs⟩ <;> rw [hs] <;> simp only [ih.1]
    · rw [resolveAlignment_of_next hu, resolveAlignment_of_next ((h.next t).trans hu), ih.2]

theorem resolves (h : Sub R R') (ht : R.Resolves t) : R'.Resolves t := by
  rw [Resolves, (h.resolve ht).1]
  exact ht

theorem slotOf (h : Sub R R') {packed : Bool} {f : StructField} (hf : R.Resolves f.typeName) :
    R'.slotOf packed f = R.slotOf packed f := by
  obtain ⟨hs, ha⟩ := h.resolve hf
  simp only [TypeRegistry.slotOf, hs, ha]

/-- Where the fields resolve, both registries lay a struct out in the same way. -/
theorem computeStructLayout (h : Sub R R') {fields : List StructField} {packed : Bool}
    (hf : ∀ f ∈ fields, R.Resolves f.typeName) {L : StructLayout} :
    R'.computeStructLayout fields packed = .ok L ↔ R.computeStructLayout fields packed = .ok L := by
  have hslots : fields.map (R'.slotOf packed) = fields.map (R.slotOf packed) :=
    List.map_congr_left fun f hm => h.slotOf (hf f hm)
  rw [computeStructLayout_eq_ok_iff, computeStructLayout_eq_ok_iff, hslots]
  refine and_congr_left fun _ => iff_of_true (fun f hm => ?_) fun f hm => ?_
  · exact fieldResolves_iff.mpr (h.resolves (hf f hm))
  · exact fieldResolves_iff.mpr (hf f hm)

theorem addStruct_left (h : Sub R R') {sd : StructDef} (hsd : R'.structDefs.get? sd.name = some sd) :
    Sub (R.addStruct sd) R' where
  cPrimitives := h.cPrimitives
  typeAliases := h.typeAliases
  arrayTypes := h.arrayTypes
  structs := by
    intro n sd' hn
    by_cases he : n = sd.name
    · subst he
      rw [TypeRegistry.addStruct, Dict.get?_set_self] at hn
      rw [hsd, hn]
    · rw [TypeRegistry.addStruct, Dict.get?_set_of_ne _ _ he] at hn
      exact h.structs n sd' hn
  own := by
    intro n sd' hnone hn
    by_cases he : n = sd.name
    · subst he
      rw [TypeRegistry.addStruct, Dict.get?_set_self] at hnone
      cases hnone
    · rw [TypeRegistry.addStruct, Dict.get?_set_of_ne _ _ he] at hnone
      exact (h.own n sd' hnone hn).of_tables rfl rfl rfl

end Sub

theorem sub_addStruct {sd : StructDef} (hown : R.OwnName sd.name) (hnew : sd.name ∉ R.structDefs.keys) :
    Sub R (R.addStruct sd) where
  cPrimitives := rfl
  typeAliases := rfl
  arrayTypes := rfl
  structs := by
    intro n sd' hn
    have hne : n ≠ sd.name := by
      rintro rfl
      exact hnew (Dict.mem_keys_iff.mpr ⟨sd', hn⟩)
    rw [addStruct, Dict.get?_set_of_ne _ _ hne]
    exact hn
  own := by
    intro n sd' hnone hn
    by_cases he : n = sd.name
    · rw [he]
      exact hown
    · rw [addStruct, Dict.get?_set_of_ne _ _ he, hnone] at hn
      cases hn

theorem Sub.trans (h : Sub R S) (h' : Sub S R') : Sub R R' where
  cPrimitives := h'.cPrimitives.trans h.cPrimitives
  typeAliases := h'.typeAliases.trans h.typeAliases
  arrayTypes := h'.arrayTypes.trans h.arrayTypes
  structs := fun n sd hn => h'.structs n sd (h.structs n sd hn)
  own := by
    intro n sd hnone hn
    cases hS : S.structDefs.get? n with
    | some sd' => exact h.own n sd' hnone hS
    | none =>
      exact (h'.own n sd hS hn).of_tables h.cPrimitives.symm h.typeAliases.symm h.arrayTypes.symm

-- ════════════════════════════════════════════════════════════════════════
-- What a name needs
-- ════════════════════════════════════════════════════════════════════════

theorem Sub.needs_iff (h : Sub R R') {u : Str} : R'.Needs t u ↔ R.Needs t u := by
  have hnext : R'.next = R.next := funext h.next
  rw [Needs, Needs, hnext]

theorem Sub.builtFrom_iff (h : Sub R R') {e : StructDecl} : R'.BuiltFrom d e ↔ R.BuiltFrom d e := by
  simp only [BuiltFrom, h.needs_iff]

theorem Resolves.needs {u : Str} (ht : R.Resolves t) (h : R.Needs t u) : R.Resolves u := by
  obtain ⟨hpath, -⟩ := h
  induction hpath with
  | refl => exact ht
  | tail _ hstep ih => exact ih.of_next hstep

/-- A field that resolves is not made of a struct that is not there. -/
theorem not_builtFrom_of_resolves {e : StructDecl} (hf : ∀ f ∈ d.fields, R.Resolves f.typeName)
    (hown : R.OwnName e.name) (he : R.structDefs.get? e.name = none) : ¬ R.BuiltFrom d e := by
  rintro ⟨f, hm, hneeds⟩
  exact hown.not_resolves he ((hf f hm).needs hneeds)

/-- What resolves in the larger registry resolves in the smaller one, if that has the struct the name
needs. -/
theorem Sub.resolves_of_needs (h : Sub R R') (ht : R'.Resolves t)
    (hneeds : ∀ u sd, R.Needs t u → R'.structDefs.get? u = some sd → R.structDefs.get? u ≠ none) :
    R.Resolves t := by
  revert hneeds
  refine ht.induct (fun t ht hend hneeds => ?_) (fun t u _ hu _ ih hneeds => ?_)
  · rcases h.shape_cases t with hs | ⟨_, hnone, sd, hsd⟩
    · obtain ⟨n, hn⟩ := ht
      refine ⟨n, hn ▸ ?_⟩
      rw [resolveSize_eq, resolveSize_eq R', hs, h.ptrSize]
      unfold TypeRegistry.next at hend
      rw [hs] at hend
      cases hR : R.shape t <;> rw [hR] at hend <;> first | rfl | cases hend
    · exact absurd hnone (hneeds t sd ⟨.refl, h.next t ▸ hend⟩ hsd)
  · rw [h.next] at hu
    exact resolves_of_next hu (ih fun v sd hv => hneeds v sd ⟨.head hu hv.1, hv.2⟩)

-- ════════════════════════════════════════════════════════════════════════
-- What loading leaves behind
-- ════════════════════════════════════════════════════════════════════════

/-- The struct of a declaration is there, as the registry itself lays it out. -/
def Has (R : TypeRegistry) (d : StructDecl) : Prop :=
  ∃ L, R.structDefs.get? d.name = some ⟨d, L⟩ ∧ R.computeStructLayout d.fields d.packed = .ok L ∧
    ∀ e, d.expectedSize = some e → (L.totalSize : ℤ) = e

theorem resolves_of_layout {fields : List StructField} {packed : Bool} {L : StructLayout}
    (h : R.computeStructLayout fields packed = .ok L) : ∀ f ∈ fields, R.Resolves f.typeName :=
  fun f hm => fieldResolves_iff.mp ((computeStructLayout_eq_ok_iff.mp h).1 f hm)

theorem Sub.has (h : Sub R R') (hd : R.Has d) : R'.Has d := by
  obtain ⟨L, hget, hL, hsize⟩ := hd
  exact ⟨L, h.structs _ _ hget, (h.computeStructLayout (resolves_of_layout hL)).mpr hL, hsize⟩

/-- One declaration that succeeds. -/
theorem postInit_loaded {sd : StructDef} (hown : R.OwnName d.name)
    (h : d.postInit R = (.ok sd, R.addStruct sd)) : sd.toStructDecl = d ∧ R.structDefs.get? d.name = none ∧
      (∀ f ∈ d.fields, R.Resolves f.typeName) ∧ Sub R (R.addStruct sd) ∧ (R.addStruct sd).Has d := by
  obtain ⟨hL, rfl, hsize, hnew, -⟩ := postInit_ok_iff.mp h
  have hf := resolves_of_layout hL
  have hsub : Sub R (R.addStruct sd) := sub_addStruct hown hnew
  refine ⟨rfl, Dict.get?_eq_none_iff.mpr hnew, hf, hsub, sd.toStructLayout, ?_, ?_, hsize⟩
  · rw [addStruct, Dict.get?_set_self]
  · exact (hsub.computeStructLayout hf).mpr hL

/-- What a load that succeeds has done. -/
structure Loaded (R : TypeRegistry) (ds : List StructDecl) (R' : TypeRegistry) : Prop where
  sub : Sub R R'
  has : ∀ d ∈ ds, R'.Has d
  /-- Structs of other names are as before, -/
  frame : ∀ n, n ∉ ds.map StructDecl.name → R'.structDefs.get? n = R.structDefs.get? n
  /-- the declared ones were not there, -/
  new : ∀ d ∈ ds, R.structDefs.get? d.name = none
  nodup : (ds.map StructDecl.name).Nodup
  /-- and each is made of what was declared before it. -/
  self : ∀ d ∈ ds, ¬ R.BuiltFrom d d
  later : ds.Pairwise fun d e => ¬ R.BuiltFrom d e

theorem loaded_nil (R : TypeRegistry) : Loaded R [] R where
  sub := .refl R
  has := List.forall_mem_nil _
  frame := fun _ _ => rfl
  new := List.forall_mem_nil _
  nodup := List.nodup_nil
  self := List.forall_mem_nil _
  later := .nil

theorem Loaded.cons {sd : StructDef} (hown : ∀ e ∈ d :: ds, R.OwnName e.name)
    (h : d.postInit R = (.ok sd, R.addStruct sd)) (hds : Loaded (R.addStruct sd) ds R') :
    Loaded R (d :: ds) R' := by
  have hd := hown d List.mem_cons_self
  obtain ⟨rfl, hnew, hf, hsub, hhas⟩ := postInit_loaded hd h
  have hne : ∀ e ∈ ds, e.name ≠ sd.name := by
    intro e he hname
    have hnone := hds.new e he
    rw [hname, addStruct, Dict.get?_set_self] at hnone
    cases hnone
  have hnew' : ∀ e ∈ ds, R.structDefs.get? e.name = none := by
    intro e he
    have hnone := hds.new e he
    rwa [addStruct, Dict.get?_set_of_ne _ _ (hne e he)] at hnone
  refine ⟨hsub.trans hds.sub, List.forall_mem_cons.mpr ⟨hds.sub.has hhas, hds.has⟩, fun n hn => ?_,
    List.forall_mem_cons.mpr ⟨hnew, hnew'⟩, ?_, List.forall_mem_cons.mpr ⟨?_, fun e he => ?_⟩,
    List.pairwise_cons.mpr ⟨fun e he => ?_, ?_⟩⟩
  · rw [List.map_cons, List.mem_cons, not_or] at hn
    rw [hds.frame n hn.2, addStruct, Dict.get?_set_of_ne _ _ hn.1]
  · rw [List.map_cons, List.nodup_cons]
    refine ⟨fun hmem => ?_, hds.nodup⟩
    obtain ⟨e, he, hname⟩ := List.mem_map.mp hmem
    exact hne e he hname
  · exact not_builtFrom_of_resolves hf hd hnew
  · rw [← hsub.builtFrom_iff]
    exact hds.self e he
  · exact not_builtFrom_of_resolves hf (hown e (List.mem_cons_of_mem _ he)) (hnew' e he)
  · simpa only [hsub.builtFrom_iff] using hds.later

theorem loaded_of_load (hown : ∀ d ∈ ds, R.OwnName d.name) (h : R.load ds = .ok R') : Loaded R ds R' := by
  induction ds generalizing R with
  | nil =>
    obtain rfl : R = R' := Except.ok.inj h
    exact loaded_nil R
  | cons d ds ih =>
    obtain ⟨sd, hsd, hds⟩ := load_cons_ok_iff.mp h
    refine .cons hown hsd (ih (fun e he => ?_) hds)
    exact (hown e (List.mem_cons_of_mem _ he)).of_tables rfl rfl rfl

-- ════════════════════════════════════════════════════════════════════════
-- Another order
-- ════════════════════════════════════════════════════════════════════════

/-- Declarations whose structs a registry has, laid out as it lays them out, only lead to a part of
it. -/
theorem Sub.load (h : Sub S R₁) (hown : ∀ d ∈ ds, S.OwnName d.name) (hhas : ∀ d ∈ ds, R₁.Has d)
    (hload : S.load ds = .ok R₂) : Sub R₂ R₁ := by
  induction ds generalizing S with
  | nil =>
    obtain rfl : S = R₂ := Except.ok.inj hload
    exact h
  | cons d ds ih =>
    obtain ⟨sd, hsd, hds⟩ := load_cons_ok_iff.mp hload
    obtain ⟨L, hget, hL, -⟩ := hhas d List.mem_cons_self
    obtain ⟨hL', rfl, -⟩ := postInit_ok_iff.mp hsd
    have hlayout : L = sd.toStructLayout :=
      Except.ok.inj (hL.symm.trans ((h.computeStructLayout (resolves_of_layout hL')).mpr hL'))
    refine ih (h.addStruct_left ?_) (fun e he => ?_) (fun e he => hhas e (List.mem_cons_of_mem _ he)) hds
    · rw [hget, hlayout]
    · exact (hown e (List.mem_cons_of_mem _ he)).of_tables rfl rfl rfl

/-- In an order in which no struct is made of a later one, every declaration succeeds. `R₁` is where
another order has led to. -/
theorem exists_load (h : Sub S R₁) (hown : ∀ d ∈ ds, S.OwnName d.name) (hhas : ∀ d ∈ ds, R₁.Has d)
    (hnew : ∀ d ∈ ds, S.structDefs.get? d.name = none) (hnodup : (ds.map StructDecl.name).Nodup)
    (hcover : ∀ n sd, S.structDefs.get? n = none → R₁.structDefs.get? n = some sd →
      n ∈ ds.map StructDecl.name)
    (hself : ∀ d ∈ ds, ¬ S.BuiltFrom d d) (hlater : ds.Pairwise fun d e => ¬ S.BuiltFrom d e) :
    ∃ R₂, S.load ds = .ok R₂ := by
  induction ds generalizing S with
  | nil => exact ⟨S, rfl⟩
  | cons d ds ih =>
    obtain ⟨hown, hown'⟩ := List.forall_mem_cons.mp hown
    obtain ⟨⟨L, hget, hL, hsize⟩, hhas'⟩ := List.forall_mem_cons.mp hhas
    obtain ⟨hnew, hnew'⟩ := List.forall_mem_cons.mp hnew
    obtain ⟨hself, hself'⟩ := List.forall_mem_cons.mp hself
    obtain ⟨hlater, hlater'⟩ := List.pairwise_cons.mp hlater
    rw [List.map_cons, List.nodup_cons] at hnodup
    -- a field whose struct is missing is made of this declaration or of a later one
    have hf : ∀ f ∈ d.fields, S.Resolves f.typeName := by
      intro f hm
      refine h.resolves_of_needs (resolves_of_layout hL f hm) fun u sd hu hsd hnone => ?_
      obtain ⟨e, he, rfl⟩ := List.mem_map.mp (hcover u sd hnone hsd)
      rcases List.mem_cons.mp he with rfl | he
      · exact hself ⟨f, hm, hu⟩
      · exact hlater e he ⟨f, hm, hu⟩
    have hinit : d.postInit S = (.ok ⟨d, L⟩, S.addStruct ⟨d, L⟩) :=
      postInit_ok_iff.mpr ⟨(h.computeStructLayout hf).mp hL, rfl, hsize, Dict.get?_eq_none_iff.mp hnew, rfl⟩
    have hsub := (postInit_loaded hown hinit).2.2.2.1
    have hnew'' : ∀ e ∈ ds, (S.addStruct ⟨d, L⟩).structDefs.get? e.name = none := by
      intro e he
      have hne : e.name ≠ d.name := fun heq => hnodup.1 (heq ▸ List.mem_map_of_mem he)
      rw [addStruct, Dict.get?_set_of_ne _ _ hne]
      exact hnew' e he
    have hcover' : ∀ n sd, (S.addStruct ⟨d, L⟩).structDefs.get? n = none → R₁.structDefs.get? n = some sd →
        n ∈ ds.map StructDecl.name := by
      intro n sd hnone hsd
      have hn : n ≠ d.name := by
        rintro rfl
        rw [addStruct, Dict.get?_set_self] at hnone
        cases hnone
      rw [addStruct, Dict.get?_set_of_ne _ _ hn] at hnone
      exact (List.mem_cons.mp (hcover n sd hnone hsd)).resolve_left hn
    obtain ⟨R₂, hR₂⟩ := ih (h.addStruct_left hget) (fun e he => hsub.ownName (hown' e he)) hhas' hnew''
      hnodup.2 hcover' (fun e he => hsub.builtFrom_iff.not.mpr (hself' e he))
      (by simpa only [hsub.builtFrom_iff] using hlater')
    exact ⟨R₂, load_cons_ok_iff.mpr ⟨_, hinit, hR₂⟩⟩

/-- Registries that are parts of each other resolve every name alike, in the errors too. -/
theorem Sub.antisymm (h : Sub R R') (h' : Sub R' R) : (∀ n, R'.structDefs.get? n = R.structDefs.get? n) ∧
    ∀ t, R'.resolveSize t = R.resolveSize t ∧ R'.resolveAlignment t = R.resolveAlignment t := by
  have hget : ∀ n, R'.structDefs.get? n = R.structDefs.get? n := by
    intro n
    cases hn : R.structDefs.get? n with
    | some sd => exact h.structs n sd hn
    | none =>
      cases hn' : R'.structDefs.get? n with
      | some sd =>
        have hsd := h'.structs n sd hn'
        rw [hn] at hsd
        cases hsd
      | none => rfl
  have hshape : R'.shape = R.shape := by
    funext t
    simp only [shape, h.cPrimitives, h.typeAliases, h.arrayTypes, hget]
  have hnext : R'.next = R.next := funext h.next
  have hdepth : ∀ t, R'.depthBound t = R.depthBound t := by
    intro t
    simp only [depthBound, targets, h.typeAliases, h.arrayTypes]
  have hsize : R'.endSize = R.endSize := by
    funext t
    simp only [endSize, hshape, h.ptrSize]
  have halign : R'.endAlignment = R.endAlignment := by
    funext t
    simp only [endAlignment, hshape, h.ptrSize]
  refine ⟨hget, fun t => ⟨?_, ?_⟩⟩
  · rw [resolveSize, resolveSize, hdepth, resolveSizeIn_eq_fold, resolveSizeIn_eq_fold, hnext, hsize, hshape]
  · rw [resolveAlignment, resolveAlignment, hdepth, resolveAlignmentIn_eq_fold, resolveAlignmentIn_eq_fold,
      hnext, halign]

/-- **The order of the declarations**: when a list of structs loads, a permutation of it loads exactly
if no struct in it is made of a later one. It then leaves the same layout under every name, and every type
resolves in the same way. -/
theorem load_perm (hown : ∀ d ∈ ds, R.OwnName d.name) (h : R.load ds = .ok R₁) (hperm : ds'.Perm ds) :
    ((∃ R₂, R.load ds' = .ok R₂) ↔ ds'.Pairwise fun d e => ¬ R.BuiltFrom d e) ∧
    ∀ R₂, R.load ds' = .ok R₂ → (∀ n, R₂.structDefs.get? n = R₁.structDefs.get? n) ∧
      ∀ t, R₂.resolveSize t = R₁.resolveSize t ∧ R₂.resolveAlignment t = R₁.resolveAlignment t := by
  have hloaded := loaded_of_load hown h
  have hown' : ∀ d ∈ ds', R.OwnName d.name := fun d hd => hown d (hperm.mem_iff.mp hd)
  refine ⟨⟨?_, fun hlater => ?_⟩, fun R₂ h₂ => ?_⟩
  · rintro ⟨R₂, h₂⟩
    exact (loaded_of_load hown' h₂).later
  · refine exists_load hloaded.sub hown' (fun d hd => hloaded.has d (hperm.mem_iff.mp hd))
      (fun d hd => hloaded.new d (hperm.mem_iff.mp hd)) ((hperm.map _).nodup_iff.mpr hloaded.nodup)
      (fun n sd hnone hsd => ?_) (fun d hd => hloaded.self d (hperm.mem_iff.mp hd)) hlater
    by_contra hn
    rw [(hperm.map _).mem_iff] at hn
    rw [hloaded.frame n hn, hnone] at hsd
    cases hsd
  · have hloaded₂ := loaded_of_load hown' h₂
    refine Sub.antisymm ?_ ?_
    · exact (Sub.load hloaded₂.sub hown (fun d hd => hloaded₂.has d (hperm.mem_iff.mpr hd)) h)
    · exact (Sub.load hloaded.sub hown' (fun d hd => hloaded.has d (hperm.mem_iff.mp hd)) h₂)

theorem ownName_timers : ∀ d ∈ [timeval, itimerval], shippedBare.OwnName d.name := by
  refine List.forall_mem_cons.mpr ⟨⟨⟨by decide, by decide, by decide, by decide⟩, by decide⟩, ?_⟩
  exact List.forall_mem_singleton.mpr ⟨⟨by decide, by decide, by decide, by decide⟩, by decide⟩

theorem load_timers : ∃ R₁, shippedBare.load [timeval, itimerval] = .ok R₁ := by
  have htimeval : timeval.postInit shippedBare = (.ok ⟨timeval, ⟨[0, 8], [8, 8], 16, 8⟩⟩, _) :=
    postInit_ok_iff.mpr ⟨by decide +kernel, rfl, by decide, by decide, rfl⟩
  have hitimerval : itimerval.postInit (shippedBare.addStruct ⟨timeval, ⟨[0, 8], [8, 8], 16, 8⟩⟩) =
      (.ok ⟨itimerval, ⟨[0, 16], [16, 16], 32, 8⟩⟩, _) :=
    postInit_ok_iff.mpr ⟨by decide +kernel, rfl, by decide, by decide, rfl⟩
  exact ⟨_, load_cons_ok_iff.mpr ⟨_, htimeval, load_cons_ok_iff.mpr ⟨_, hitimerval, rfl⟩⟩⟩

/-- `struct itimerval` cannot come first. -/
theorem load_perm_timers : (∃ R₁, shippedBare.load [timeval, itimerval] = .ok R₁) ∧
    ¬ ∃ R₂, shippedBare.load [itimerval, timeval] = .ok R₂ := by
  obtain ⟨R₁, hload⟩ := load_timers
  refine ⟨⟨R₁, hload⟩, fun h => ?_⟩
  have hlater := (load_perm ownName_timers hload (.swap timeval itimerval [])).1.mp h
  refine (List.pairwise_cons.mp hlater).1 timeval List.mem_cons_self ?_
  exact ⟨_, List.mem_cons_self, .refl, by decide +kernel⟩

end Wali.TypeRegistry
