import Wali.Placement
import Wali.Abi.Invariant

/-!
# The primitives inside a struct

A struct is expanded through its stored field offsets, through aliases and through array elements
down to the primitives it is made of. A struct may be expanded once all it contains has been
registered before it, so what holds of the leaves is an invariant of registration: the step is
`LeavesOk.registersFresh`.
-/

namespace Wali

/-- Neither packed nor with an explicit offset. -/
def StructDef.Plain (sd : StructDef) : Prop :=
  sd.packed = false ∧ ∀ f ∈ sd.fields, f.offset = none

namespace TypeRegistry

open Py (Str Dict)
open Layout (Slot maskUp)
open Placement (Placed Fills Natural copies)

abbrev Leaf := Placed Primitive

/-- The leaves of the fields, each moved to the offset of its field. -/
def expandFields (expand : Str → Option (List Leaf)) : List StructField → List ℕ → Option (List Leaf)
  | f :: fs, o :: os => do
    let ls ← expand f.typeName
    let rest ← expandFields expand fs os
    return ls.map (Placed.shift o) ++ rest
  | _, _ => some []

variable (R : TypeRegistry)

/-- The leaves of `count` elements in a row. -/
def expandElements (count : ℕ) (elem : Str) (leaves : Option (List Leaf)) : Option (List Leaf) := do
  let stride ← (R.resolveSize elem).toOption
  return copies stride count (← leaves)

theorem expandElements_eq_some_iff {count : ℕ} {elem : Str} {leaves : Option (List Leaf)}
    {ls : List Leaf} :
    R.expandElements count elem leaves = some ls ↔ ∃ stride, (R.resolveSize elem).toOption = some stride ∧
      ∃ l, leaves = some l ∧ copies stride count l = ls := by
  simp only [expandElements, Option.bind_eq_bind, Option.bind_eq_some_iff, Option.pure_def,
    Option.some.injEq]

/-- The leaves of a type, relative to its start. The first argument bounds the nesting. -/
def expandIn : ℕ → Str → Option (List Leaf)
  | 0, _ => none
  | n + 1, typeName =>
    match R.shape typeName with
    | .pointer => (R.cPrimitives.get? "ptr").map fun p => [⟨0, p⟩]
    | .primitive p => some [⟨0, p⟩]
    | .aliasTo target => expandIn n target
    | .arrayOf a => R.expandElements a.count a.elementType (expandIn n a.elementType)
    | .struct sd => expandFields (expandIn n) sd.fields sd.fieldOffsets
    | .inlineArray count elem => R.expandElements count elem (expandIn n elem)
    | .unknown => none

def expandStructIn (n : ℕ) (sd : StructDef) : Option (List Leaf) :=
  expandFields (R.expandIn n) sd.fields sd.fieldOffsets

theorem expandFields_mono {e e' : Str → Option (List Leaf)}
    (h : ∀ t ls, e t = some ls → e' t = some ls) {fs : List StructField} {os : List ℕ}
    {ls : List Leaf} (hls : expandFields e fs os = some ls) : expandFields e' fs os = some ls := by
  induction fs generalizing os ls with
  | nil => exact hls
  | cons f fs ih =>
    cases os with
    | nil => exact hls
    | cons o os =>
      simp only [expandFields, Option.bind_eq_bind, Option.bind_eq_some_iff] at hls ⊢
      obtain ⟨l, hl, rest, hrest, he⟩ := hls
      exact ⟨l, h _ _ hl, rest, ih hrest, he⟩

theorem expandElements_mono {count : ℕ} {elem : Str} {leaves leaves' : Option (List Leaf)}
    (h : ∀ {l}, leaves = some l → leaves' = some l) {ls : List Leaf}
    (hls : R.expandElements count elem leaves = some ls) :
    R.expandElements count elem leaves' = some ls := by
  obtain ⟨stride, hstride, l, hl, he⟩ := R.expandElements_eq_some_iff.mp hls
  exact R.expandElements_eq_some_iff.mpr ⟨stride, hstride, l, h hl, he⟩

theorem expandIn_succ {n : ℕ} {t : Str} {ls : List Leaf} (h : R.expandIn n t = some ls) :
    R.expandIn (n + 1) t = some ls := by
  induction n generalizing t ls with
  | zero => cases h
  | succ n ih =>
    rw [expandIn] at h ⊢
    cases hs : R.shape t with
    | aliasTo target => rw [hs] at h; exact ih h
    | arrayOf a => rw [hs] at h; exact R.expandElements_mono ih h
    | inlineArray count elem => rw [hs] at h; exact R.expandElements_mono ih h
    | struct sd => rw [hs] at h; exact expandFields_mono (fun _ _ => ih) h
    | pointer => rw [hs] at h; exact h
    | primitive p => rw [hs] at h; exact h
    | unknown => rw [hs] at h; exact h

theorem expandIn_mono {n m : ℕ} (hnm : n ≤ m) {t : Str} {ls : List Leaf}
    (h : R.expandIn n t = some ls) : R.expandIn m t = some ls := by
  induction hnm with
  | refl => exact h
  | step _ ih => exact R.expandIn_succ ih

/-- The type expands to these leaves, at every sufficient depth. -/
def Expands (t : Str) (ls : List Leaf) : Prop := ∃ n, ∀ m ≥ n, R.expandIn m t = some ls

def ExpandsStruct (sd : StructDef) (ls : List Leaf) : Prop :=
  ∃ n, ∀ m ≥ n, R.expandStructIn m sd = some ls

variable {R R' : TypeRegistry}

theorem expands_of_expandIn {n : ℕ} {t : Str} {ls : List Leaf} (h : R.expandIn n t = some ls) :
    R.Expands t ls :=
  ⟨n, fun _ hm => R.expandIn_mono hm h⟩

/-- One step of an expansion multiplies the leaves. -/
theorem Expands.of_next {t u : Str} {s : ℕ} {ls : List Leaf} (hu : R.next t = some u)
    (hs : R.resolveSize u = .ok s) (h : R.Expands u ls) :
    R.Expands t (copies s (R.shape t).factor ls) := by
  obtain ⟨n, hn⟩ := h
  have hl := hn n le_rfl
  refine expands_of_expandIn (n := n + 1) ?_
  rw [expandIn]
  rcases R.next_cases hu with hsh | ⟨a, hsh, rfl⟩ | ⟨count, hsh⟩
  · simp only [hsh, Shape.factor, Placement.copies_one, hl]
  · simp only [hsh, Shape.factor, expandElements, hs, hl]
    rfl
  · simp only [hsh, Shape.factor, expandElements, hs, hl]
    rfl

theorem Expands.of_struct {t : Str} {sd : StructDef} {ls : List Leaf}
    (hs : R.shape t = .struct sd) (h : R.ExpandsStruct sd ls) : R.Expands t ls := by
  obtain ⟨n, hn⟩ := h
  refine expands_of_expandIn (n := n + 1) ?_
  rw [expandIn, hs]
  exact hn n le_rfl

variable (R)

/-- A value of the first type is made of values of the second, at least one. -/
def MadeOf (t u : Str) : Prop := R.next t = some u ∧ 0 < (R.shape t).factor

/-- A value of the type is the struct, or a non-empty array of it. -/
def Holds (t : Str) (sd : StructDef) : Prop :=
  ∃ u, Relation.ReflTransGen R.MadeOf t u ∧ R.shape u = .struct sd

/-- The struct has a field that holds the other struct. -/
def Contains (sd sd' : StructDef) : Prop := ∃ f ∈ sd.fields, R.Holds f.typeName sd'

/-- The struct and all it contains by value are plain. -/
def PlainWithin (sd : StructDef) : Prop :=
  ∀ sd', Relation.ReflTransGen R.Contains sd sd' → sd'.Plain

/-- All structs a type holds are plain, with all they contain. -/
def PlainType (t : Str) : Prop := ∀ sd, R.Holds t sd → R.PlainWithin sd

variable {R}

theorem PlainType.of_madeOf {t u : Str} (h : R.PlainType t) (hu : R.MadeOf t u) : R.PlainType u := by
  rintro sd ⟨v, huv, hv⟩
  exact h sd ⟨v, .head hu huv, hv⟩

theorem PlainWithin.field {sd : StructDef} (h : R.PlainWithin sd) {f : StructField}
    (hf : f ∈ sd.fields) : R.PlainType f.typeName :=
  fun _ hsd' _ hr => h _ (.head ⟨f, hf, hsd'⟩ hr)

/-- The leaves of a type: inside its size, and naturally aligned where the type is plain. -/
def TypeLeaves (R : TypeRegistry) (t : Str) (n a : ℕ) (ls : List Leaf) : Prop :=
  R.Expands t ls ∧ Fills Primitive.size 0 n ls ∧ (R.PlainType t → Natural Primitive.size a ls)

def StructLeaves (R : TypeRegistry) (sd : StructDef) (ls : List Leaf) : Prop :=
  R.ExpandsStruct sd ls ∧ Fills Primitive.size 0 sd.totalSize ls ∧
    (R.PlainWithin sd → Natural Primitive.size sd.alignment ls)

/-- Greedy placement of expanded fields. The leaves keep the order of the fields because each
field fills no more than its slot. -/
theorem expandFields_placed (plain : Prop) {packed : Bool} {A p : ℕ} {fields : List StructField}
    (hc : Layout.Clear maskUp p (fields.map (R.slotOf packed)))
    (hr : ∀ f ∈ fields, Layout.RoundsTo maskUp (R.slotOf packed f).align)
    (hplain : plain → ∀ f ∈ fields, f.offset = none ∧ (R.slotOf packed f).align ∣ A)
    (hls : ∀ f ∈ fields, ∃ ls, R.Expands f.typeName ls ∧
      Fills Primitive.size 0 (R.slotOf packed f).size ls ∧
      (plain → Natural Primitive.size (R.slotOf packed f).align ls)) :
    ∃ ls, (∃ n, ∀ m ≥ n, expandFields (R.expandIn m) fields
        (Layout.offsets maskUp p (fields.map (R.slotOf packed))) = some ls) ∧
      Fills Primitive.size p (Layout.finish maskUp p (fields.map (R.slotOf packed))) ls ∧
      (plain → Natural Primitive.size A ls) := by
  induction fields generalizing p with
  | nil => exact ⟨[], ⟨0, fun _ _ => rfl⟩, le_rfl, fun _ x hx => by cases hx⟩
  | cons f fs ih =>
    obtain ⟨rest, ⟨n, hn⟩, hfill, hnat⟩ := ih hc.2
      (fun g hg => hr g (List.mem_cons_of_mem f hg))
      (fun hp g hg => hplain hp g (List.mem_cons_of_mem f hg))
      (fun g hg => hls g (List.mem_cons_of_mem f hg))
    obtain ⟨ls, ⟨k, hk⟩, hfill', hnat'⟩ := hls f List.mem_cons_self
    obtain ⟨hle, had⟩ := Slot.admits_place (hr f List.mem_cons_self) hc.1
    refine ⟨ls.map (Placed.shift ((R.slotOf packed f).place maskUp p)) ++ rest,
      ⟨max n k, fun m hm => ?_⟩, ?_, fun hp => ?_⟩
    · simp only [List.map_cons, Layout.offsets, expandFields, hk m (le_trans (le_max_right n k) hm),
        hn m (le_trans (le_max_left n k) hm)]
      rfl
    · exact ((hfill'.shift _).widen hle le_rfl).append hfill
    · obtain ⟨hoff, hdvd⟩ := hplain hp f List.mem_cons_self
      have hplace : (R.slotOf packed f).align ∣ (R.slotOf packed f).place maskUp p := by
        have hfix : (R.slotOf packed f).fixed = none := hoff
        rwa [Slot.Admits, hfix] at had
      exact (((hnat' hp).shift hplace).of_dvd hdvd).append (hnat hp)

/-- A struct is as sound as its fields. -/
theorem structLeaves_of_fields (h : R.SizesOk) {sd : StructDef}
    (hL : R.computeStructLayout sd.fields sd.packed = .ok sd.toStructLayout)
    (hls : ∀ f ∈ sd.fields, ∀ n a, R.resolveSize f.typeName = .ok n →
      R.resolveAlignment f.typeName = .ok a → ∃ ls, R.TypeLeaves f.typeName n a ls) :
    ∃ ls, R.StructLeaves sd ls := by
  obtain ⟨hf, hc, he⟩ := computeStructLayout_eq_ok_iff.mp hL
  have hwidth : ∀ f ∈ sd.fields, IsWidth (R.slotOf sd.packed f).align := fun f hm =>
    h.fieldAlign (hf f hm).1 (fieldAlign_eq (hf f hm))
  have hmax := h.maxAlign hf
  have hfields : ∀ f ∈ sd.fields, ∃ ls, R.Expands f.typeName ls ∧
      Fills Primitive.size 0 (R.slotOf sd.packed f).size ls ∧
      (R.PlainWithin sd → Natural Primitive.size (R.slotOf sd.packed f).align ls) := by
    intro f hm
    obtain ⟨n, hn⟩ := (hf f hm).1
    obtain ⟨a, ha, _⟩ := h.resolve hn
    obtain ⟨ls, hexp, hfill, hnat⟩ := hls f hm n a hn ha
    have hsize : (R.slotOf sd.packed f).size = n := slotOf_size sd.packed hn
    refine ⟨ls, hexp, by rwa [hsize], fun hp => ?_⟩
    have hpacked : sd.packed = false := (hp sd .refl).1
    have halign : (R.slotOf sd.packed f).align = a := by
      rw [hpacked]
      exact slotOf_align ha
    rw [halign]
    exact hnat (hp.field hm)
  obtain ⟨ls, hexp, hfill, hnat⟩ := expandFields_placed (R.PlainWithin sd) hc
    (fun f hm => (hwidth f hm).roundsTo)
    (fun hp f hm => ⟨(hp sd .refl).2 f hm, (hwidth f hm).dvd_of_le hmax
      (Layout.align_le_maxAlign (List.mem_map_of_mem hm))⟩) hfields
  refine ⟨ls, ?_, ?_, ?_⟩
  · simp only [ExpandsStruct, expandStructIn, he]
    exact hexp
  · rw [he]
    exact hfill.widen le_rfl (hmax.roundsTo.le _)
  · rw [he]
    exact hnat

/-- The leaves of every registered struct are in order. -/
def LeavesOk (R : TypeRegistry) : Prop := ∀ sd ∈ R.structDefs.values, ∃ ls, R.StructLeaves sd ls

/-- Then the leaves of every type that resolves are. -/
theorem LeavesOk.type (h : R.LeavesOk) (hsz : R.SizesOk) {t : Str} {n a : ℕ}
    (hn : R.resolveSize t = .ok n) (ha : R.resolveAlignment t = .ok a) :
    ∃ ls, R.TypeLeaves t n a ls := by
  suffices key : ∀ n a, R.resolveSize t = .ok n → R.resolveAlignment t = .ok a →
      ∃ ls, R.TypeLeaves t n a ls from key n a hn ha
  have ht : R.Resolves t := ⟨n, hn⟩
  refine ht.induct (fun t ht hend => ?_) (fun t u _ hu _ ih => ?_)
  · intro n a hn ha
    rw [resolveSize_eq] at hn
    rw [resolveAlignment_eq] at ha
    have hone : ∀ p : Primitive, Fills Primitive.size 0 p.size [⟨0, p⟩] ∧
        Natural Primitive.size p.size [⟨0, p⟩] := by
      intro p
      refine ⟨⟨le_rfl, by simp [Fills]⟩, fun x hx => ?_⟩
      obtain rfl := List.mem_singleton.mp hx
      exact ⟨Nat.dvd_zero _, Nat.dvd_refl _⟩
    rcases ht.end_cases hend with ⟨hs, p, hp⟩ | ⟨p, hs⟩ | ⟨sd, hs⟩
    · rw [hs] at hn ha
      simp only [ptrSize, hp, Except.ok.injEq] at hn ha
      subst hn ha
      refine ⟨[⟨0, p⟩], expands_of_expandIn (n := 1) ?_, (hone p).1, fun _ => (hone p).2⟩
      simp only [expandIn, hs, hp, Option.map_some]
    · rw [hs] at hn ha
      simp only [Except.ok.injEq] at hn ha
      subst hn ha
      refine ⟨[⟨0, p⟩], expands_of_expandIn (n := 1) ?_, (hone p).1, fun _ => (hone p).2⟩
      simp only [expandIn, hs]
    · rw [hs] at hn ha
      simp only [Except.ok.injEq] at hn ha
      subst hn ha
      obtain ⟨ls, hexp, hfill, hnat⟩ := h sd (shape_struct_mem hs)
      exact ⟨ls, .of_struct hs hexp, hfill, fun hp => hnat (hp sd ⟨t, .refl, hs⟩)⟩
  · intro n a hn ha
    obtain ⟨s, hs, rfl⟩ := resolveSize_of_next hu hn
    rw [resolveAlignment_of_next hu] at ha
    obtain ⟨ls, hexp, hfill, hnat⟩ := ih s a hs ha
    refine ⟨_, hexp.of_next hu hs, hfill.copies _, fun hp => ?_⟩
    -- an array of no elements has no leaves, and nothing of its element type is in the struct
    rcases Nat.eq_zero_or_pos (R.shape t).factor with h0 | hpos
    · intro x hx
      rw [h0] at hx
      cases hx
    · obtain ⟨b, hb, _, hdvd⟩ := hsz.resolve hs
      rw [ha, Except.ok.injEq] at hb
      exact (hnat (hp.of_madeOf ⟨hu, hpos⟩)).copies (hb ▸ hdvd) _

/-- The field types of registered structs resolve. -/
theorem Coherent.fields_resolve (h : R.Coherent) {sd : StructDef} (hsd : sd ∈ R.structDefs.values)
    {f : StructField} (hf : f ∈ sd.fields) : R.Resolves f.typeName :=
  ((computeStructLayout_eq_ok_iff.mp (h sd hsd)).1 f hf).1

theorem Resolves.shape_addStruct {sd : StructDef} {t : Str} (hfresh : ¬ R.Resolves sd.name)
    (ht : R.Resolves t) : (R.addStruct sd).shape t = R.shape t :=
  shape_addStruct_of_ne fun he => hfresh (he ▸ ht)

theorem expandFields_congr {e e' : Str → Option (List Leaf)} {fs : List StructField}
    (h : ∀ f ∈ fs, e f.typeName = e' f.typeName) (os : List ℕ) :
    expandFields e fs os = expandFields e' fs os := by
  induction fs generalizing os with
  | nil => rfl
  | cons f fs ih =>
    cases os with
    | nil => rfl
    | cons o os =>
      rw [expandFields, expandFields, h f List.mem_cons_self,
        ih (fun g hg => h g (List.mem_cons_of_mem f hg))]

/-- A struct under a fresh name changes no earlier expansion. -/
theorem expandIn_addStruct (hco : R.Coherent) {sd : StructDef} (hfresh : ¬ R.Resolves sd.name)
    (n : ℕ) {t : Str} (ht : R.Resolves t) : (R.addStruct sd).expandIn n t = R.expandIn n t := by
  induction n generalizing t with
  | zero => rfl
  | succ n ih =>
    have hnext : ∀ u, R.next t = some u → R.Resolves u := fun u hu => ht.of_next hu
    rw [expandIn, expandIn, ht.shape_addStruct hfresh]
    unfold next at hnext
    cases hs : R.shape t with
    | aliasTo target => exact ih (hnext target (by rw [hs]; rfl))
    | arrayOf a =>
      have hu := hnext a.elementType (by rw [hs]; rfl)
      simp only [expandElements, (hu.addStruct hfresh).1, ih hu]
    | inlineArray count elem =>
      have hu := hnext elem (by rw [hs]; rfl)
      simp only [expandElements, (hu.addStruct hfresh).1, ih hu]
    | struct sd' =>
      refine expandFields_congr (fun f hf => ih ?_) _
      exact hco.fields_resolve (shape_struct_mem hs) hf
    | pointer => rfl
    | primitive p => rfl
    | unknown => rfl

theorem Holds.addStruct {sd sd' : StructDef} (hfresh : ¬ R.Resolves sd.name) {t : Str}
    (ht : R.Resolves t) (h : R.Holds t sd') : (R.addStruct sd).Holds t sd' := by
  obtain ⟨u, htu, hu⟩ := h
  induction htu using Relation.ReflTransGen.head_induction_on with
  | refl => exact ⟨u, .refl, by rwa [ht.shape_addStruct hfresh]⟩
  | head hstep _ ih =>
    obtain ⟨v, hv, hsh⟩ := ih (ht.of_next hstep.1)
    refine ⟨v, .head ?_ hv, hsh⟩
    rw [MadeOf, next, ht.shape_addStruct hfresh]
    exact hstep

/-- What is plain after the registration was plain before it. -/
theorem PlainWithin.of_addStruct (hco : R.Coherent) {sd sd' : StructDef}
    (hfresh : ¬ R.Resolves sd.name) (hsd' : sd' ∈ R.structDefs.values)
    (h : (R.addStruct sd).PlainWithin sd') : R.PlainWithin sd' := by
  intro s hs
  refine h s ?_
  induction hs using Relation.ReflTransGen.head_induction_on with
  | refl => exact .refl
  | head hstep _ ih =>
    obtain ⟨f, hf, hhold⟩ := hstep
    have hmem : _ ∈ R.structDefs.values :=
      let ⟨u, _, hu⟩ := hhold
      shape_struct_mem hu
    have hcont : (R.addStruct sd).Contains _ _ :=
      ⟨f, hf, hhold.addStruct hfresh (hco.fields_resolve hsd' hf)⟩
    exact .head hcont (ih hmem fun s' hs' => h s' (.head hcont hs'))

theorem PlainType.of_addStruct (hco : R.Coherent) {sd : StructDef} (hfresh : ¬ R.Resolves sd.name)
    {t : Str} (ht : R.Resolves t) (h : (R.addStruct sd).PlainType t) : R.PlainType t := by
  intro s hs
  obtain ⟨u, _, hu⟩ := id hs
  exact (h s (hs.addStruct hfresh ht)).of_addStruct hco hfresh
    (shape_struct_mem hu)

/-- **Step**: one registration under a fresh name keeps all leaves in order. -/
theorem LeavesOk.registersFresh (h : R.LeavesOk) (hco : R.Coherent) (hsz : R.SizesOk)
    (hr : R.RegistersFresh R') : R'.LeavesOk := by
  have hco' := hco.registersFresh hr
  obtain ⟨d, sd, hfresh, hp⟩ := hr
  have hsz' := hsz.registers ⟨d, sd, hp⟩
  obtain ⟨hL, rfl, _, _, rfl⟩ := postInit_ok_iff.mp hp
  have hexp : ∀ {t ls}, R.Resolves t → R.Expands t ls → (R.addStruct sd).Expands t ls := by
    rintro t ls ht ⟨n, hn⟩
    exact ⟨n, fun m hm => (expandIn_addStruct hco hfresh m ht).trans (hn m hm)⟩
  intro sd' hsd'
  rcases Dict.mem_values_set hsd' with rfl | hmem
  · refine structLeaves_of_fields hsz' (hco' sd' hsd') fun f hf n a hn ha => ?_
    have ht : R.Resolves f.typeName := fieldResolves_iff.mp
      ((computeStructLayout_eq_ok_iff.mp hL).1 f hf)
    rw [(ht.addStruct hfresh).1] at hn
    rw [(ht.addStruct hfresh).2] at ha
    obtain ⟨ls, hls, hfill, hnat⟩ := h.type hsz hn ha
    exact ⟨ls, hexp ht hls, hfill, fun hp => hnat (hp.of_addStruct hco hfresh ht)⟩
  · obtain ⟨ls, ⟨n, hn⟩, hfill, hnat⟩ := h sd' hmem
    refine ⟨ls, ⟨n, fun m hm => ?_⟩, hfill, fun hp => hnat (hp.of_addStruct hco hfresh hmem)⟩
    rw [← hn m hm]
    exact expandFields_congr
      (fun f hf => expandIn_addStruct hco hfresh m (hco.fields_resolve hmem hf)) _

/-- **Run**: so does every sequence of them. -/
theorem LeavesOk.reachable (h : R.LeavesOk) (hco : R.Coherent) (hsz : R.SizesOk)
    (hr : Relation.ReflTransGen RegistersFresh R R') : R'.LeavesOk := by
  suffices key : R'.LeavesOk ∧ R'.Coherent ∧ R'.SizesOk from key.1
  induction hr with
  | refl => exact ⟨h, hco, hsz⟩
  | tail _ hstep ih =>
    obtain ⟨ih, hco, hsz⟩ := ih
    obtain ⟨d, sd, _, hp⟩ := id hstep
    exact ⟨ih.registersFresh hco hsz hstep, hco.registersFresh hstep, hsz.registers ⟨d, sd, hp⟩⟩

/-- **Deep layout**: the primitives a struct is made of lie in order, apart and inside the struct,
and each at a multiple of its size unless packing or an explicit offset interferes. -/
theorem struct_leaves_sound (prims : Dict Str Primitive) (aliases : Dict Str Str)
    (arrays : Dict Str ArrayType) (hprims : ∀ p ∈ prims.values, IsWidth p.size)
    (R : TypeRegistry) (hR : Relation.ReflTransGen RegistersFresh (bare prims aliases arrays) R)
    (sd : StructDef) (hsd : sd ∈ R.structDefs.values) :
    ∃ ls, (∃ n, ∀ m ≥ n, R.expandStructIn m sd = some ls) ∧
      ls.Pairwise (fun x y => x.offset + x.item.size ≤ y.offset) ∧
      (∀ x ∈ ls, x.offset + x.item.size ≤ sd.totalSize) ∧
      ((∀ sd', Relation.ReflTransGen R.Contains sd sd' → sd'.Plain) →
        ∀ x ∈ ls, x.item.size ∣ x.offset) := by
  have hnone : ∀ sd, sd ∉ (bare prims aliases arrays).structDefs.values := by
    intro sd hsd
    cases hsd
  have hok := LeavesOk.reachable (fun sd h => absurd h (hnone sd)) (fun sd h => absurd h (hnone sd))
    (SizesOk.bare aliases arrays hprims) hR
  obtain ⟨ls, hexp, hfill, hnat⟩ := hok sd hsd
  exact ⟨ls, hexp, hfill.pairwise, fun x hx => (hfill.mem hx).2, fun hp x hx => (hnat hp x hx).1⟩

/-- `struct timeval` as shipped. -/
def timeval : StructDecl :=
  { name := "struct timeval"
    fields := [⟨"tv_sec", "time_t", none⟩, ⟨"tv_usec", "suseconds_t", none⟩]
    expectedSize := some 16 }

/-- `struct itimerval` as shipped. -/
def itimerval : StructDecl :=
  { name := "struct itimerval"
    fields := [⟨"it_interval", "struct timeval", none⟩, ⟨"it_value", "struct timeval", none⟩] }

/-- The shipped tables with the two structs registered. -/
def withTimers : TypeRegistry := (itimerval.postInit (timeval.postInit shippedBare).2).2

theorem withTimers_reachable : Relation.ReflTransGen RegistersFresh shippedBare withTimers := by
  have hunknown : shippedBare.resolveSize timeval.name =
      .error (.runtimeError "Cannot resolve size for type 'struct timeval'") := by decide +kernel
  have hunknown' : (timeval.postInit shippedBare).2.resolveSize itimerval.name =
      .error (.runtimeError "Cannot resolve size for type 'struct itimerval'") := by decide +kernel
  have hreg : timeval.postInit shippedBare =
      (.ok ⟨timeval, ⟨[0, 8], [8, 8], 16, 8⟩⟩, (timeval.postInit shippedBare).2) :=
    Prod.ext (by decide +kernel) rfl
  have hreg' : itimerval.postInit (timeval.postInit shippedBare).2 =
      (.ok ⟨itimerval, ⟨[0, 16], [16, 16], 32, 8⟩⟩, withTimers) :=
    Prod.ext (by decide +kernel) rfl
  exact .tail (.single ⟨_, _, not_resolves_of_error hunknown, hreg⟩)
    ⟨_, _, not_resolves_of_error hunknown', hreg'⟩

theorem struct_leaves_sound_itimerval :
    ∃ ls, (∃ n, ∀ m ≥ n,
        withTimers.expandStructIn m ⟨itimerval, ⟨[0, 16], [16, 16], 32, 8⟩⟩ = some ls) ∧
      ls.Pairwise (fun x y => x.offset + x.item.size ≤ y.offset) ∧
      (∀ x ∈ ls, x.offset + x.item.size ≤ 32) := by
  obtain ⟨ls, hexp, hpair, hin, _⟩ := struct_leaves_sound shippedPrimitives shippedAliases
    shippedArrays (by decide) withTimers withTimers_reachable _
    (show ⟨itimerval, ⟨[0, 16], [16, 16], 32, 8⟩⟩ ∈ withTimers.structDefs.values by decide +kernel)
  exact ⟨ls, hexp, hpair, hin⟩

example : withTimers.expandStructIn 4 ⟨itimerval, ⟨[0, 16], [16, 16], 32, 8⟩⟩ =
    some [⟨0, 8, true⟩, ⟨8, 8, true⟩, ⟨16, 8, true⟩, ⟨24, 8, true⟩] := by
  decide +kernel

end TypeRegistry

end Wali
