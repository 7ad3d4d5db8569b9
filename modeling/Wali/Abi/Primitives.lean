import Wali.Abi.Leaves
import Wali.Abi.Validate
import Mathlib.Data.Set.Finite.Basic
import Mathlib.Order.WellFounded

/-!
# The primitives of a struct, without their places

Expanding a struct ends unless some struct contains itself by value. In an accepted registry the
two are equivalent: `selfFree_iff`.
-/

namespace Wali.TypeRegistry

open Py (Str Dict)
open Placement (Placed)

variable (R : TypeRegistry)

/-- The primitives a type is made of, in order. The first argument bounds the nesting. -/
def primitivesIn : ℕ → Str → Option (List Primitive)
  | 0, _ => none
  | n + 1, typeName =>
    match R.shape typeName with
    | .pointer => (R.cPrimitives.get? "ptr").map ([·])
    | .primitive p => some [p]
    | .aliasTo target => primitivesIn n target
    | .arrayOf a => (primitivesIn n a.elementType).map fun ps => (List.replicate a.count ps).flatten
    | .struct sd => (sd.fields.mapM fun f => primitivesIn n f.typeName).map List.flatten
    | .inlineArray count elem => (primitivesIn n elem).map fun ps => (List.replicate count ps).flatten
    | .unknown => none

def primitivesOfStructIn (n : ℕ) (sd : StructDef) : Option (List Primitive) :=
  (sd.fields.mapM fun f => R.primitivesIn n f.typeName).map List.flatten

/-- The struct has a field made, through aliases and arrays, of the other struct. -/
def Uses (sd sd' : StructDef) : Prop :=
  ∃ f ∈ sd.fields, ∃ u, Relation.ReflTransGen (fun t u => R.next t = some u) f.typeName u ∧
    R.shape u = .struct sd'

/-- No struct contains itself by value. -/
def SelfFree : Prop := ∀ sd, ¬ Relation.TransGen R.Uses sd sd

variable {R}

theorem mapM_some_mono {α β : Type*} {f g : α → Option β} (h : ∀ x y, f x = some y → g x = some y)
    {xs : List α} {ys : List β} (hys : xs.mapM f = some ys) : xs.mapM g = some ys := by
  induction xs generalizing ys with
  | nil => exact hys
  | cons x xs ih =>
    simp only [List.mapM_cons, Option.bind_eq_bind, Option.bind_eq_some_iff] at hys ⊢
    obtain ⟨y, hy, zs, hzs, he⟩ := hys
    exact ⟨y, h x y hy, zs, ih hzs, he⟩

theorem mapM_some_mem {α β : Type*} {f : α → Option β} {xs : List α} {ys : List β}
    (hys : xs.mapM f = some ys) {x : α} (hx : x ∈ xs) : ∃ y, f x = some y := by
  induction xs generalizing ys with
  | nil => cases hx
  | cons z xs ih =>
    simp only [List.mapM_cons, Option.bind_eq_bind, Option.bind_eq_some_iff] at hys
    obtain ⟨y, hy, zs, hzs, _⟩ := hys
    rcases List.mem_cons.mp hx with rfl | hx
    · exact ⟨y, hy⟩
    · exact ih hzs hx

theorem primitivesIn_succ {n : ℕ} {t : Str} {ps : List Primitive}
    (h : R.primitivesIn n t = some ps) : R.primitivesIn (n + 1) t = some ps := by
  induction n generalizing t ps with
  | zero => cases h
  | succ n ih =>
    rw [primitivesIn] at h ⊢
    cases hs : R.shape t with
    | aliasTo target => rw [hs] at h; exact ih h
    | arrayOf a =>
      rw [hs] at h
      obtain ⟨qs, hqs, he⟩ := Option.map_eq_some_iff.mp h
      exact Option.map_eq_some_iff.mpr ⟨qs, ih hqs, he⟩
    | inlineArray count elem =>
      rw [hs] at h
      obtain ⟨qs, hqs, he⟩ := Option.map_eq_some_iff.mp h
      exact Option.map_eq_some_iff.mpr ⟨qs, ih hqs, he⟩
    | struct sd =>
      rw [hs] at h
      obtain ⟨qss, hqss, he⟩ := Option.map_eq_some_iff.mp h
      exact Option.map_eq_some_iff.mpr ⟨qss, mapM_some_mono (fun _ _ => ih) hqss, he⟩
    | pointer => rw [hs] at h; exact h
    | primitive p => rw [hs] at h; exact h
    | unknown => rw [hs] at h; exact h

theorem primitivesIn_mono {n m : ℕ} (hnm : n ≤ m) {t : Str} {ps : List Primitive}
    (h : R.primitivesIn n t = some ps) : R.primitivesIn m t = some ps := by
  induction hnm with
  | refl => exact h
  | step _ ih => exact primitivesIn_succ ih

theorem primitivesOfStructIn_mono {n m : ℕ} (hnm : n ≤ m) {sd : StructDef} {ps : List Primitive}
    (h : R.primitivesOfStructIn n sd = some ps) : R.primitivesOfStructIn m sd = some ps := by
  obtain ⟨qss, hqss, he⟩ := Option.map_eq_some_iff.mp h
  exact Option.map_eq_some_iff.mpr
    ⟨qss, mapM_some_mono (fun _ _ => primitivesIn_mono hnm) hqss, he⟩

theorem expandFields_items {e : Str → Option (List Leaf)} {e' : Str → Option (List Primitive)}
    {fs : List StructField} {os : List ℕ} {ls : List Leaf} (hlen : fs.length = os.length)
    (h : ∀ t l, e t = some l → e' t = some (l.map Placed.item))
    (hls : expandFields e fs os = some ls) :
    (fs.mapM fun f => e' f.typeName).map List.flatten = some (ls.map Placed.item) := by
  induction fs generalizing os ls with
  | nil =>
    obtain rfl := Option.some.inj hls
    rfl
  | cons f fs ih =>
    cases os with
    | nil => cases hlen
    | cons o os =>
      simp only [expandFields, Option.bind_eq_bind, Option.bind_eq_some_iff] at hls
      obtain ⟨l, hl, rest, hrest, he⟩ := hls
      obtain rfl := Option.some.inj he
      obtain ⟨pss, hpss, hflat⟩ := Option.map_eq_some_iff.mp (ih (Nat.succ.inj hlen) hrest)
      rw [List.mapM_cons, h _ _ hl, hpss]
      simp only [Option.bind_eq_bind, Option.bind_some, Option.pure_def, Option.map_some,
        List.flatten_cons, hflat, List.map_append, Placement.map_item_shift]

/-- The leaves of a type are its primitives, put in place. -/
theorem primitivesIn_of_expandIn
    (hlen : ∀ sd ∈ R.structDefs.values, sd.fields.length = sd.fieldOffsets.length) {n : ℕ} {t : Str}
    {ls : List Leaf} (h : R.expandIn n t = some ls) :
    R.primitivesIn n t = some (ls.map Placed.item) := by
  induction n generalizing t ls with
  | zero => cases h
  | succ n ih =>
    rw [expandIn] at h
    rw [primitivesIn]
    cases hs : R.shape t with
    | aliasTo target => rw [hs] at h; exact ih h
    | arrayOf a =>
      rw [hs] at h
      obtain ⟨_, _, l, hl, rfl⟩ := R.expandElements_eq_some_iff.mp h
      simp only [ih hl, Option.map_some, Placement.map_item_copies]
    | inlineArray count elem =>
      rw [hs] at h
      obtain ⟨_, _, l, hl, rfl⟩ := R.expandElements_eq_some_iff.mp h
      simp only [ih hl, Option.map_some, Placement.map_item_copies]
    | struct sd =>
      rw [hs] at h
      exact expandFields_items (hlen sd (shape_struct_mem hs))
        (fun _ _ => ih) h
    | pointer =>
      rw [hs] at h
      obtain ⟨p, hp, rfl⟩ := Option.map_eq_some_iff.mp h
      simp only [hp, Option.map_some]
      rfl
    | primitive p =>
      rw [hs] at h
      obtain rfl := Option.some.inj h
      rfl
    | unknown => rw [hs] at h; cases h

/-- The next name on the way has an expansion of smaller depth. -/
theorem primitivesIn_next {n : ℕ} {t u : Str} {ps : List Primitive}
    (h : R.primitivesIn n t = some ps) (hu : R.next t = some u) :
    ∃ k < n, ∃ qs, R.primitivesIn k u = some qs := by
  cases n with
  | zero => cases h
  | succ n =>
    refine ⟨n, Nat.lt_succ_self n, ?_⟩
    rw [primitivesIn] at h
    rcases R.next_cases hu with hs | ⟨a, hs, rfl⟩ | ⟨count, hs⟩
    · rw [hs] at h
      exact ⟨ps, h⟩
    · rw [hs] at h
      obtain ⟨qs, hqs, _⟩ := Option.map_eq_some_iff.mp h
      exact ⟨qs, hqs⟩
    · rw [hs] at h
      obtain ⟨qs, hqs, _⟩ := Option.map_eq_some_iff.mp h
      exact ⟨qs, hqs⟩

/-- What a struct uses has an expansion of smaller depth. -/
theorem Uses.primitives {sd sd' : StructDef} (hu : R.Uses sd sd') {n : ℕ} {ps : List Primitive}
    (h : R.primitivesOfStructIn n sd = some ps) :
    ∃ k < n, ∃ qs, R.primitivesOfStructIn k sd' = some qs := by
  obtain ⟨f, hf, u, hreach, hs⟩ := hu
  obtain ⟨qss, hqss, _⟩ := Option.map_eq_some_iff.mp h
  obtain ⟨qs, hqs⟩ := mapM_some_mem hqss hf
  clear hqss h
  generalize f.typeName = t at hreach hqs
  induction hreach using Relation.ReflTransGen.head_induction_on generalizing n qs with
  | refl =>
    cases n with
    | zero => cases hqs
    | succ n =>
      rw [primitivesIn, hs] at hqs
      exact ⟨n, Nat.lt_succ_self n, qs, hqs⟩
  | head hstep _ ih =>
    obtain ⟨k, hk, rs, hrs⟩ := primitivesIn_next hqs hstep
    obtain ⟨j, hj, hout⟩ := ih rs hrs
    exact ⟨j, hj.trans hk, hout⟩

/-- A struct with an expansion does not contain itself: the depths would decrease for ever. -/
theorem not_transGen_uses_of_primitives {n : ℕ} {sd : StructDef} {ps : List Primitive}
    (h : R.primitivesOfStructIn n sd = some ps) : ¬ Relation.TransGen R.Uses sd sd := by
  intro hself
  have hless : ∀ {sd sd' n ps}, Relation.TransGen R.Uses sd sd' →
      R.primitivesOfStructIn n sd = some ps →
      ∃ k < n, ∃ qs, R.primitivesOfStructIn k sd' = some qs := by
    intro sd sd' n ps hr hps
    induction hr with
    | single hu => exact hu.primitives hps
    | tail _ hu ih =>
      obtain ⟨k, hk, qs, hqs⟩ := ih
      obtain ⟨j, hj, hout⟩ := hu.primitives hqs
      exact ⟨j, hj.trans hk, hout⟩
  induction n using Nat.strong_induction_on generalizing ps with
  | _ n ih =>
    obtain ⟨k, hk, qs, hqs⟩ := hless hself h
    exact ih k hk hqs

/-- A name that resolves expands, if the structs it leads to do. -/
theorem Resolves.exists_primitivesIn {t : Str} (ht : R.Resolves t)
    (hsd : ∀ u sd, Relation.ReflTransGen (fun t u => R.next t = some u) t u →
      R.shape u = .struct sd → ∃ n ps, R.primitivesOfStructIn n sd = some ps) :
    ∃ n ps, R.primitivesIn n t = some ps := by
  revert hsd
  refine ht.induct (fun t ht hend hsd => ?_) (fun t u _ hu _ ih hsd => ?_)
  · rcases ht.end_cases hend with ⟨hs, p, hp⟩ | ⟨p, hs⟩ | ⟨sd, hs⟩
    · exact ⟨1, [p], by rw [primitivesIn, hs]; simp only [hp, Option.map_some]⟩
    · exact ⟨1, [p], by rw [primitivesIn, hs]⟩
    · obtain ⟨n, ps, hps⟩ := hsd t sd .refl hs
      exact ⟨n + 1, ps, by rw [primitivesIn, hs]; exact hps⟩
  · obtain ⟨n, ps, hps⟩ := ih fun v sd hv => hsd v sd (.head hu hv)
    rcases R.next_cases hu with hs | ⟨a, hs, rfl⟩ | ⟨count, hs⟩
    · exact ⟨n + 1, ps, by rw [primitivesIn, hs]; exact hps⟩
    · exact ⟨n + 1, _, by rw [primitivesIn, hs]; exact congrArg (Option.map _) hps⟩
    · exact ⟨n + 1, _, by rw [primitivesIn, hs]; exact congrArg (Option.map _) hps⟩

/-- A depth that serves every field. -/
theorem exists_primitivesOfStructIn {sd : StructDef}
    (h : ∀ f ∈ sd.fields, ∃ n ps, R.primitivesIn n f.typeName = some ps) :
    ∃ n ps, R.primitivesOfStructIn n sd = some ps := by
  suffices key : ∃ n qss, (sd.fields.mapM fun f => R.primitivesIn n f.typeName) = some qss by
    obtain ⟨n, qss, hqss⟩ := key
    exact ⟨n, qss.flatten, by rw [primitivesOfStructIn, hqss]; rfl⟩
  generalize sd.fields = fs at h
  induction fs with
  | nil => exact ⟨0, [], rfl⟩
  | cons f fs ih =>
    obtain ⟨n, qss, hqss⟩ := ih fun g hg => h g (List.mem_cons_of_mem f hg)
    obtain ⟨k, qs, hqs⟩ := h f List.mem_cons_self
    refine ⟨max n k, qs :: qss, ?_⟩
    rw [List.mapM_cons, primitivesIn_mono (le_max_right n k) hqs,
      mapM_some_mono (fun _ _ => primitivesIn_mono (le_max_left n k)) hqss]
    rfl

/-- **Termination**: in an accepted registry every struct expands exactly when none contains
itself. -/
theorem selfFree_iff (hv : R.validate = .ok ()) :
    R.SelfFree ↔ ∀ sd ∈ R.structDefs.values, ∃ n ps, R.primitivesOfStructIn n sd = some ps := by
  constructor
  · intro hself sd hsd
    have : Finite {sd // sd ∈ R.structDefs.values} := List.finite_toSet _
    have hwf := Chase.wellFounded_of_acyclic (p := (· ∈ R.structDefs.values)) fun sd _ => hself sd
    suffices key : ∀ s : {sd // sd ∈ R.structDefs.values},
        ∃ n ps, R.primitivesOfStructIn n s.1 = some ps from key ⟨sd, hsd⟩
    intro s
    induction s using hwf.induction with
    | _ s ih =>
      refine exists_primitivesOfStructIn fun f hf => ?_
      refine (validate_fields hv s.2 hf).exists_primitivesIn fun u sd' hu hs => ?_
      exact ih ⟨sd', shape_struct_mem hs⟩ ⟨f, hf, u, hu, hs⟩
  · intro h sd hself
    -- the last step of the cycle leads to `sd`, so it is registered
    obtain ⟨sd', _, f, _, u, _, hs⟩ := Relation.TransGen.tail'_iff.mp hself
    obtain ⟨n, ps, hps⟩ := h sd (shape_struct_mem hs)
    exact not_transGen_uses_of_primitives hps hself

/-- Registration under fresh names never makes a struct contain itself. -/
theorem selfFree_of_reachable {prims : Dict Str Primitive} {aliases : Dict Str Str}
    {arrays : Dict Str ArrayType} (hprims : ∀ p ∈ prims.values, IsWidth p.size)
    (hR : Relation.ReflTransGen RegistersFresh (bare prims aliases arrays) R) : R.SelfFree := by
  have hnone : ∀ sd, sd ∉ (bare prims aliases arrays).structDefs.values := by
    intro sd hsd
    cases hsd
  have hco : R.Coherent := Coherent.reachable (fun sd h => absurd h (hnone sd)) hR
  have hok := LeavesOk.reachable (fun sd h => absurd h (hnone sd)) (fun sd h => absurd h (hnone sd))
    (SizesOk.bare aliases arrays hprims) hR
  have hlen : ∀ sd ∈ R.structDefs.values, sd.fields.length = sd.fieldOffsets.length := by
    intro sd hsd
    have hL := congrArg StructLayout.fieldOffsets (computeStructLayout_eq_ok_iff.mp (hco sd hsd)).2.2
    rw [hL]
    simp only [layoutOf, Layout.length_offsets, List.length_map]
  intro sd hself
  obtain ⟨sd', _, f, _, u, _, hs⟩ := Relation.TransGen.tail'_iff.mp hself
  have hsd : sd ∈ R.structDefs.values := shape_struct_mem hs
  obtain ⟨ls, ⟨n, hn⟩, _⟩ := hok sd hsd
  exact not_transGen_uses_of_primitives
    (expandFields_items (hlen sd hsd) (fun _ _ => primitivesIn_of_expandIn hlen) (hn n le_rfl)) hself

end Wali.TypeRegistry
