import Wali.Layout
import Wali.Abi.Resolve

/-!
# Struct layout

`compute_struct_layout` walks over the fields with a running offset. Once the
field types resolve, its loop is the greedy placement of `Wali.Layout` with
mask rounding: `computeStructLayout_eq_ok_iff` for success and
`computeStructLayout_overlap` for the assertion.
-/

namespace Wali.TypeRegistry

open Py (Str Dict)
open Layout (Slot maskUp)

variable (R : TypeRegistry)

/-- The loop variables of `compute_struct_layout`. -/
structure LayoutState where
  offsets : List ℕ
  sizes : List ℕ
  currentOffset : ℕ
  maxAlignment : ℕ

/-- The assertion that an explicit offset is not before the end of the previous field. -/
def overlapError (f : StructField) (offset : ℤ) (currentOffset : ℕ) : Py.Error :=
  .assertionError ("StructField '" ++ f.name ++ "': explicit offset " ++ Py.intStr offset ++
    " overlaps previous field end at " ++ Py.natStr currentOffset)

/-- `1 if packed else cls.resolve_alignment(f.type_name)`. -/
def fieldAlign (packed : Bool) (f : StructField) : Except Py.Error ℕ :=
  if packed then .ok 1 else R.resolveAlignment f.typeName

/-- Where the field starts: at its explicit offset, else at the running offset rounded up. -/
def fieldStart (currentOffset fAlign : ℕ) (f : StructField) : Except Py.Error ℕ :=
  match f.offset with
  | some offset =>
    if (currentOffset : ℤ) ≤ offset then .ok offset.toNat
    else .error (overlapError f offset currentOffset)
  | none => .ok (maskUp currentOffset fAlign)

/-- One turn of the loop. -/
def layoutField (packed : Bool) (st : LayoutState) (f : StructField) :
    Except Py.Error LayoutState := do
  let fSize ← R.resolveSize f.typeName
  let fAlign ← R.fieldAlign packed f
  let currentOffset ← fieldStart st.currentOffset fAlign f
  return { offsets := st.offsets ++ [currentOffset]
           sizes := st.sizes ++ [fSize]
           currentOffset := currentOffset + fSize
           maxAlignment := max st.maxAlignment fAlign }

def computeStructLayout (fields : List StructField) (packed : Bool) :
    Except Py.Error StructLayout := do
  let st ← fields.foldlM (R.layoutField packed) ⟨[], [], 0, 1⟩
  return { fieldOffsets := st.offsets
           fieldSizes := st.sizes
           totalSize := maskUp st.currentOffset st.maxAlignment
           alignment := st.maxAlignment }

/-- The slot a field asks for. Where the type does not resolve the numbers mean nothing. -/
def slotOf (packed : Bool) (f : StructField) : Slot where
  size := (R.resolveSize f.typeName).toOption.getD 0
  align := if packed then 1 else (R.resolveAlignment f.typeName).toOption.getD 0
  fixed := f.offset

/-- What the loop reads of a field is there. -/
def FieldResolves (packed : Bool) (f : StructField) : Prop :=
  (∃ n, R.resolveSize f.typeName = .ok n) ∧
    (packed = false → ∃ a, R.resolveAlignment f.typeName = .ok a)

/-- The end of the fields when each explicit offset is taken as it is. -/
def runningEnd (packed : Bool) (fields : List StructField) : ℕ :=
  Layout.finish maskUp 0 (fields.map (R.slotOf packed))

/-- The layout the greedy placement of the slots gives. -/
def layoutOf (slots : List Slot) : StructLayout where
  fieldOffsets := Layout.offsets maskUp 0 slots
  fieldSizes := slots.map Slot.size
  totalSize := maskUp (Layout.finish maskUp 0 slots) (Layout.maxAlign slots)
  alignment := Layout.maxAlign slots

variable {R}

theorem slotOf_size (packed : Bool) {f : StructField} {n : ℕ} (h : R.resolveSize f.typeName = .ok n) :
    (R.slotOf packed f).size = n := by simp [slotOf, h, Except.toOption]

theorem slotOf_align {f : StructField} {a : ℕ} (h : R.resolveAlignment f.typeName = .ok a) :
    (R.slotOf false f).align = a := by simp [slotOf, h, Except.toOption]

/-- The loop variables after a slot has been placed. -/
def LayoutState.advance (st : LayoutState) (s : Slot) : LayoutState where
  offsets := st.offsets ++ [s.place maskUp st.currentOffset]
  sizes := st.sizes ++ [s.size]
  currentOffset := s.place maskUp st.currentOffset + s.size
  maxAlignment := max st.maxAlignment s.align

theorem fieldAlign_eq {packed : Bool} {f : StructField} (hf : R.FieldResolves packed f) :
    R.fieldAlign packed f = .ok (R.slotOf packed f).align := by
  cases packed with
  | true => rfl
  | false =>
    obtain ⟨a, ha⟩ := hf.2 rfl
    rw [slotOf_align ha]
    exact ha

theorem layoutField_eq {packed : Bool} {f : StructField} (hf : R.FieldResolves packed f)
    (st : LayoutState) (hc : ∀ x, f.offset = some x → (st.currentOffset : ℤ) ≤ x) :
    R.layoutField packed st f = .ok (st.advance (R.slotOf packed f)) := by
  obtain ⟨n, hn⟩ := hf.1
  have hstart : fieldStart st.currentOffset (R.slotOf packed f).align f =
      .ok ((R.slotOf packed f).place maskUp st.currentOffset) := by
    simp only [fieldStart, Slot.place, slotOf]
    cases hx : f.offset with
    | none => rfl
    | some x => simp only [if_pos (hc x hx)]
  rw [layoutField, hn, fieldAlign_eq hf]
  simp only [bind, Except.bind, hstart, pure, Except.pure, LayoutState.advance,
    slotOf_size packed hn]

theorem layoutField_overlap {packed : Bool} {f : StructField} (hf : R.FieldResolves packed f)
    (st : LayoutState) {x : ℤ} (hx : f.offset = some x) (hlt : ¬ (st.currentOffset : ℤ) ≤ x) :
    R.layoutField packed st f = .error (overlapError f x st.currentOffset) := by
  obtain ⟨n, hn⟩ := hf.1
  rw [layoutField, hn, fieldAlign_eq hf]
  simp only [bind, Except.bind, fieldStart, hx, if_neg hlt]

theorem layoutField_unresolved {packed : Bool} {f : StructField} (hf : ¬ R.FieldResolves packed f)
    (st : LayoutState) : ∃ e, R.layoutField packed st f = .error e := by
  rw [layoutField, fieldAlign]
  cases hn : R.resolveSize f.typeName with
  | error e => exact ⟨e, rfl⟩
  | ok n =>
    cases packed with
    | true => exact absurd ⟨⟨n, hn⟩, by simp⟩ hf
    | false =>
      cases ha : R.resolveAlignment f.typeName with
      | error e => exact ⟨e, rfl⟩
      | ok a => exact absurd ⟨⟨n, hn⟩, fun _ => ⟨a, ha⟩⟩ hf

/-- A run of the loop that nothing stops. -/
theorem foldlM_layoutField_eq {packed : Bool} {fields : List StructField}
    (hf : ∀ f ∈ fields, R.FieldResolves packed f) (st : LayoutState) (hmax : 1 ≤ st.maxAlignment)
    (hc : Layout.Clear maskUp st.currentOffset (fields.map (R.slotOf packed))) :
    fields.foldlM (R.layoutField packed) st = .ok
      { offsets := st.offsets ++
          Layout.offsets maskUp st.currentOffset (fields.map (R.slotOf packed))
        sizes := st.sizes ++ (fields.map (R.slotOf packed)).map Slot.size
        currentOffset := Layout.finish maskUp st.currentOffset (fields.map (R.slotOf packed))
        maxAlignment := max st.maxAlignment (Layout.maxAlign (fields.map (R.slotOf packed))) } := by
  induction fields generalizing st with
  | nil =>
    simp [Layout.offsets, Layout.finish, Layout.maxAlign, pure, Except.pure, max_eq_left hmax]
  | cons f fields ih =>
    rw [List.map_cons] at hc
    rw [List.foldlM_cons, layoutField_eq (hf f List.mem_cons_self) st hc.1]
    simp only [bind, Except.bind]
    rw [ih (fun g hg => hf g (List.mem_cons_of_mem f hg)) _ (le_max_of_le_left hmax) hc.2]
    simp [LayoutState.advance, Layout.offsets, Layout.finish, Layout.maxAlign, max_assoc]

/-- A run of the loop over resolving fields that meets a fixed field too early. -/
theorem foldlM_layoutField_overlap {packed : Bool} {fields : List StructField}
    (hf : ∀ f ∈ fields, R.FieldResolves packed f) (st : LayoutState)
    (hc : ¬ Layout.Clear maskUp st.currentOffset (fields.map (R.slotOf packed))) :
    ∃ f ∈ fields, ∃ x cur, f.offset = some x ∧
      fields.foldlM (R.layoutField packed) st = .error (overlapError f x cur) := by
  induction fields generalizing st with
  | nil => exact absurd trivial hc
  | cons f fields ih =>
    have hff := hf f List.mem_cons_self
    by_cases hhead : ∀ x, f.offset = some x → (st.currentOffset : ℤ) ≤ x
    · rw [List.foldlM_cons, layoutField_eq hff st hhead]
      obtain ⟨g, hg, x, cur, hx, he⟩ := ih (fun g hg => hf g (List.mem_cons_of_mem f hg))
        (st.advance (R.slotOf packed f)) (fun hrest => hc ⟨hhead, hrest⟩)
      exact ⟨g, List.mem_cons_of_mem f hg, x, cur, hx, he⟩
    · push Not at hhead
      obtain ⟨x, hx, hlt⟩ := hhead
      refine ⟨f, List.mem_cons_self, x, st.currentOffset, hx, ?_⟩
      rw [List.foldlM_cons, layoutField_overlap hff st hx (by omega)]
      rfl

theorem foldlM_layoutField_unresolved {packed : Bool} {fields : List StructField}
    (hf : ¬ ∀ f ∈ fields, R.FieldResolves packed f) (st : LayoutState) :
    ∃ e, fields.foldlM (R.layoutField packed) st = .error e := by
  induction fields generalizing st with
  | nil => simp at hf
  | cons f fields ih =>
    rw [List.foldlM_cons]
    cases hst : R.layoutField packed st f with
    | error e => exact ⟨e, rfl⟩
    | ok st' =>
      by_cases hff : R.FieldResolves packed f
      · apply ih
        intro hrest
        apply hf
        intro g hg
        rcases List.mem_cons.mp hg with rfl | hg
        · exact hff
        · exact hrest g hg
      · obtain ⟨e, he⟩ := layoutField_unresolved hff st
        rw [hst] at he
        cases he

theorem computeStructLayout_of_clear {packed : Bool} {fields : List StructField}
    (hf : ∀ f ∈ fields, R.FieldResolves packed f)
    (hc : Layout.Clear maskUp 0 (fields.map (R.slotOf packed))) :
    R.computeStructLayout fields packed = .ok (layoutOf (fields.map (R.slotOf packed))) := by
  have hmax : max 1 (Layout.maxAlign (fields.map (R.slotOf packed))) =
      Layout.maxAlign (fields.map (R.slotOf packed)) := max_eq_right (Layout.one_le_maxAlign _)
  rw [computeStructLayout, foldlM_layoutField_eq hf _ le_rfl hc]
  simp only [bind, Except.bind, pure, Except.pure, List.nil_append, layoutOf, hmax]

theorem computeStructLayout_overlap {packed : Bool} {fields : List StructField}
    (hf : ∀ f ∈ fields, R.FieldResolves packed f)
    (hc : ¬ Layout.Clear maskUp 0 (fields.map (R.slotOf packed))) :
    ∃ f ∈ fields, ∃ x cur, f.offset = some x ∧
      R.computeStructLayout fields packed = .error (overlapError f x cur) := by
  obtain ⟨f, hm, x, cur, hx, he⟩ := foldlM_layoutField_overlap hf ⟨[], [], 0, 1⟩ hc
  exact ⟨f, hm, x, cur, hx, by rw [computeStructLayout, he]; rfl⟩

/-- The layout is computed exactly when every field resolves and none clashes. -/
theorem computeStructLayout_eq_ok_iff {packed : Bool} {fields : List StructField}
    {L : StructLayout} : R.computeStructLayout fields packed = .ok L ↔
      (∀ f ∈ fields, R.FieldResolves packed f) ∧
      Layout.Clear maskUp 0 (fields.map (R.slotOf packed)) ∧
      L = layoutOf (fields.map (R.slotOf packed)) := by
  constructor
  · intro h
    by_cases hf : ∀ f ∈ fields, R.FieldResolves packed f
    · by_cases hc : Layout.Clear maskUp 0 (fields.map (R.slotOf packed))
      · rw [computeStructLayout_of_clear hf hc, Except.ok.injEq] at h
        exact ⟨hf, hc, h.symm⟩
      · obtain ⟨f, _, x, cur, _, he⟩ := computeStructLayout_overlap hf hc
        rw [h] at he
        cases he
    · obtain ⟨e, he⟩ := foldlM_layoutField_unresolved hf ⟨[], [], 0, 1⟩
      rw [computeStructLayout, he] at h
      cases h
  · rintro ⟨hf, hc, rfl⟩
    exact computeStructLayout_of_clear hf hc

theorem layoutOf_lastEnd (slots : List Slot) :
    (layoutOf slots).lastEnd = Layout.finish maskUp 0 slots := (Layout.finish_eq_last 0 slots).symm

variable (R) in
/-- An offset for every field: not before the end of the field in front of it, exactly at an
explicit offset, and otherwise at a multiple of the alignment, which is one when packed. -/
def ValidOffsets (packed : Bool) (fields : List StructField) (os : List ℕ) : Prop :=
  Layout.Fits 0 (fields.map (R.slotOf packed)) os

theorem slotOf_roundsTo {packed : Bool} {f : StructField}
    (h : ∃ k, R.resolveAlignment f.typeName = .ok (2 ^ k)) :
    Layout.RoundsTo maskUp (R.slotOf packed f).align := by
  cases packed with
  | true => exact Layout.maskUp_roundsTo 0
  | false =>
    obtain ⟨k, hk⟩ := h
    rw [slotOf_align hk]
    exact Layout.maskUp_roundsTo k

theorem maxAlign_two_pow (packed : Bool) {fields : List StructField}
    (h : ∀ f ∈ fields, ∃ k, R.resolveAlignment f.typeName = .ok (2 ^ k)) :
    ∃ k, Layout.maxAlign (fields.map (R.slotOf packed)) = 2 ^ k := by
  rcases Layout.maxAlign_mem (fields.map (R.slotOf packed)) with h1 | ⟨s, hs, he⟩
  · exact ⟨0, h1⟩
  · obtain ⟨f, hf, rfl⟩ := List.mem_map.mp hs
    cases packed with
    | true => exact ⟨0, he.symm⟩
    | false =>
      obtain ⟨k, hk⟩ := h f hf
      exact ⟨k, by rw [← he, slotOf_align hk]⟩

theorem maxAlign_packed (fields : List StructField) :
    Layout.maxAlign (fields.map (R.slotOf true)) = 1 := by
  rcases Layout.maxAlign_mem (fields.map (R.slotOf true)) with h1 | ⟨s, hs, he⟩
  · exact h1
  · obtain ⟨f, _, rfl⟩ := List.mem_map.mp hs
    exact he.symm

theorem maxAlign_isGreatest {fields : List StructField}
    (h : ∀ f ∈ fields, ∃ k, R.resolveAlignment f.typeName = .ok (2 ^ k)) (hne : fields ≠ []) :
    IsGreatest {a | ∃ f ∈ fields, R.resolveAlignment f.typeName = .ok a}
      (Layout.maxAlign (fields.map (R.slotOf false))) := by
  have hub : ∀ f ∈ fields, ∀ a, R.resolveAlignment f.typeName = .ok a →
      a ≤ Layout.maxAlign (fields.map (R.slotOf false)) := by
    intro f hf a ha
    rw [← slotOf_align ha]
    exact Layout.align_le_maxAlign (List.mem_map_of_mem hf)
  refine ⟨?_, fun a ⟨f, hf, ha⟩ => hub f hf a ha⟩
  rcases Layout.maxAlign_mem (fields.map (R.slotOf false)) with h1 | ⟨s, hs, he⟩
  · -- every alignment is then one, the first field's too
    obtain ⟨f, hf⟩ := List.exists_mem_of_ne_nil fields hne
    obtain ⟨k, hk⟩ := h f hf
    have hle := hub f hf _ hk
    have hpos := Nat.two_pow_pos k
    refine ⟨f, hf, ?_⟩
    rw [hk, h1]
    rw [h1] at hle
    exact congrArg Except.ok (by omega)
  · obtain ⟨f, hf, rfl⟩ := List.mem_map.mp hs
    obtain ⟨k, hk⟩ := h f hf
    refine ⟨f, hf, ?_⟩
    rw [← he, slotOf_align hk]
    exact hk

theorem map_resolveSize_eq {packed : Bool} {fields : List StructField}
    (hf : ∀ f ∈ fields, ∃ n, R.resolveSize f.typeName = .ok n) :
    (fields.map fun f => R.resolveSize f.typeName) =
      ((fields.map (R.slotOf packed)).map Slot.size).map .ok := by
  rw [List.map_map, List.map_map]
  apply List.map_congr_left
  intro f hm
  obtain ⟨n, hn⟩ := hf f hm
  simp only [Function.comp_apply, slotOf_size packed hn, hn]

/-- `compute_struct_layout` fails its overlap assertion exactly when there is no valid assignment
of offsets, and otherwise returns the least one, with the tightest total size. -/
theorem computeStructLayout_least (R : TypeRegistry) (fields : List StructField) (packed : Bool)
    (hsize : ∀ f ∈ fields, ∃ n, R.resolveSize f.typeName = .ok n)
    (halign : ∀ f ∈ fields, ∃ k, R.resolveAlignment f.typeName = .ok (2 ^ k)) :
    ((∃ f ∈ fields, ∃ x cur, f.offset = some x ∧
        R.computeStructLayout fields packed = .error (overlapError f x cur)) ↔
      ¬ ∃ os, R.ValidOffsets packed fields os) ∧
    ((∃ os, R.ValidOffsets packed fields os) →
      ∃ L, R.computeStructLayout fields packed = .ok L ∧
        R.ValidOffsets packed fields L.fieldOffsets ∧
        (∀ os, R.ValidOffsets packed fields os → List.Forall₂ (· ≤ ·) L.fieldOffsets os) ∧
        (fields.map fun f => R.resolveSize f.typeName) = L.fieldSizes.map .ok ∧
        (packed = true ∨ fields = [] → L.alignment = 1) ∧
        (packed = false → fields ≠ [] →
          IsGreatest {a | ∃ f ∈ fields, R.resolveAlignment f.typeName = .ok a} L.alignment) ∧
        IsLeast {m | L.alignment ∣ m ∧ L.lastEnd ≤ m} L.totalSize) := by
  have hf : ∀ f ∈ fields, R.FieldResolves packed f := by
    intro f hm
    obtain ⟨k, hk⟩ := halign f hm
    exact ⟨hsize f hm, fun _ => ⟨2 ^ k, hk⟩⟩
  have hr : ∀ s ∈ fields.map (R.slotOf packed), Layout.RoundsTo maskUp s.align := by
    intro s hs
    obtain ⟨f, hm, rfl⟩ := List.mem_map.mp hs
    exact slotOf_roundsTo (halign f hm)
  have hclear : (∃ os, R.ValidOffsets packed fields os) ↔
      Layout.Clear maskUp 0 (fields.map (R.slotOf packed)) := Layout.exists_fits_iff hr
  refine ⟨?_, fun hv => ?_⟩
  · rw [hclear]
    constructor
    · rintro ⟨f, _, x, cur, _, he⟩ hc
      rw [computeStructLayout_of_clear hf hc] at he
      cases he
    · exact computeStructLayout_overlap hf
  · have hc := hclear.mp hv
    refine ⟨_, computeStructLayout_of_clear hf hc, hc.fits hr,
      fun os hos => Layout.Fits.offsets_le hr le_rfl hos, map_resolveSize_eq hsize, ?_, ?_, ?_⟩
    · rintro (rfl | rfl)
      · exact maxAlign_packed fields
      · rfl
    · rintro rfl hne
      exact maxAlign_isGreatest halign hne
    · rw [layoutOf_lastEnd]
      obtain ⟨k, hk⟩ := maxAlign_two_pow packed halign
      simp only [layoutOf, hk]
      exact Layout.maskUp_roundsTo k _

/-- `struct epoll_event` as it would be laid out if it were not packed. -/
def epollFields : List StructField := [⟨"events", "uint32_t", none⟩, ⟨"data", "epoll_data_t", none⟩]

theorem computeStructLayout_least_epollFields :
    ∃ L, shippedBare.computeStructLayout epollFields false = .ok L ∧ L.totalSize = 16 ∧
      ∀ os, shippedBare.ValidOffsets false epollFields os →
        List.Forall₂ (· ≤ ·) L.fieldOffsets os := by
  have h := (computeStructLayout_least shippedBare epollFields false
    (by
      intro f hf
      rcases List.mem_cons.mp hf with rfl | hf
      · exact ⟨4, by decide +kernel⟩
      · rw [List.mem_singleton.mp hf]
        exact ⟨8, by decide +kernel⟩)
    (by
      intro f hf
      rcases List.mem_cons.mp hf with rfl | hf
      · exact ⟨2, by decide +kernel⟩
      · rw [List.mem_singleton.mp hf]
        exact ⟨3, by decide +kernel⟩)).2 ⟨[0, 8], by unfold ValidOffsets; decide +kernel⟩
  obtain ⟨L, hL, _, hleast, _⟩ := h
  have he : shippedBare.computeStructLayout epollFields false = .ok ⟨[0, 8], [4, 8], 16, 8⟩ := by
    decide +kernel
  refine ⟨L, hL, ?_, hleast⟩
  rw [he, Except.ok.injEq] at hL
  rw [← hL]

end Wali.TypeRegistry
