import Wali.Abi.Invariant
import Wali.Py.Text

/-!
# Explicit padding

The struct tables mix three ways to say where a field is: nothing, so that it is aligned; an
explicit offset; and fields of bytes in front of it, in a struct that is packed. The layout of a
field list can be said in any of them.
-/

namespace Wali.TypeRegistry

open Py (Str Dict)
open Layout (Slot maskUp)

/-- The fields with explicit offsets. -/
def withOffsets (fields : List StructField) (os : List ℕ) : List StructField :=
  List.zipWith (fun f o => { f with offset := some (o : ℤ) }) fields os

/-- `uint8_t[k]`. -/
def byteArray (k : ℕ) : Str := "uint8_t[" ++ Py.natStr k ++ "]"

/-- A byte array in front of every field and one at the end, for the gaps that the layout leaves.
The first number is the end of the field before. -/
def padFields (name : ℕ → Str) : ℕ → List StructField → List ℕ → List ℕ → ℕ → List StructField
  | p, f :: fs, o :: os, n :: ns, t =>
    ⟨name p, byteArray (o - p), none⟩ :: { f with offset := none } :: padFields name (o + n) fs os ns t
  | p, _, _, _, t => [⟨name p, byteArray (t - p), none⟩]

/-- The fields with their padding made explicit. -/
def withPadding (name : ℕ → Str) (fields : List StructField) (L : StructLayout) : List StructField :=
  padFields name 0 fields L.fieldOffsets L.fieldSizes L.totalSize

variable {R : TypeRegistry}

/-- Where a field asks to be placed does not change whether its type resolves. -/
theorem fieldResolves_withOffsets {packed : Bool} {fields : List StructField} {os : List ℕ}
    (h : ∀ f ∈ fields, R.FieldResolves packed f) : ∀ f ∈ withOffsets fields os, R.FieldResolves packed f := by
  intro f hf
  obtain ⟨i, hi⟩ := List.mem_iff_getElem?.mp hf
  rw [withOffsets, List.getElem?_zipWith_eq_some] at hi
  obtain ⟨g, o, hg, _, rfl⟩ := hi
  exact h g (List.mem_of_getElem? hg)

theorem map_slotOf_withOffsets (packed : Bool) (fields : List StructField) (os : List ℕ) :
    (withOffsets fields os).map (R.slotOf packed) =
      List.zipWith Slot.pin (fields.map (R.slotOf packed)) os := by
  rw [withOffsets, List.map_zipWith, List.zipWith_map_left]
  rfl

theorem layoutOf_pin (ss : List Slot) :
    layoutOf (List.zipWith Slot.pin ss (Layout.offsets maskUp 0 ss)) = layoutOf ss := by
  rw [layoutOf, Layout.offsets_pin, Layout.map_size_pin, Layout.finish_pin, Layout.maxAlign_pin]
  rfl

theorem SizesOk.slots_roundsTo (h : R.SizesOk) {packed : Bool} {fields : List StructField}
    (hf : ∀ f ∈ fields, R.FieldResolves packed f) :
    ∀ s ∈ fields.map (R.slotOf packed), Layout.RoundsTo maskUp s.align := by
  intro s hs
  obtain ⟨f, hm, rfl⟩ := List.mem_map.mp hs
  exact (h.fieldAlign (hf f hm).1 (fieldAlign_eq (hf f hm))).roundsTo

/-- Writing the computed offsets down gives the same layout. -/
theorem SizesOk.computeStructLayout_withOffsets (h : R.SizesOk) {packed : Bool}
    {fields : List StructField} {L : StructLayout} (hL : R.computeStructLayout fields packed = .ok L) :
    R.computeStructLayout (withOffsets fields L.fieldOffsets) packed = .ok L := by
  obtain ⟨hf, hc, rfl⟩ := computeStructLayout_eq_ok_iff.mp hL
  refine computeStructLayout_eq_ok_iff.mpr ⟨fieldResolves_withOffsets hf, ?_, ?_⟩
  · rw [map_slotOf_withOffsets]
    exact hc.pin (h.slots_roundsTo hf)
  · rw [map_slotOf_withOffsets]
    exact (layoutOf_pin _).symm

section Padding

variable (hpad : ∀ k, R.resolveSize (byteArray k) = .ok k) (name : ℕ → Str)

include hpad

theorem slotOf_byteArray (p k : ℕ) : R.slotOf true ⟨name p, byteArray k, none⟩ = .loose k := by
  have hsize : (R.resolveSize (byteArray k)).toOption.getD 0 = k := by
    rw [hpad]
    rfl
  exact congrArg Slot.loose hsize

/-- The slots of the padded fields are those of the fields, with the gaps filled. -/
theorem map_slotOf_padFields (fields : List StructField) (p t : ℕ) (os : List ℕ) :
    (padFields name p fields os ((fields.map (R.slotOf false)).map Slot.size) t).map (R.slotOf true) =
      Layout.fillGaps p (fields.map (R.slotOf false)) os t := by
  induction fields generalizing p os with
  | nil => exact congrArg ([·]) (slotOf_byteArray hpad name p _)
  | cons f fields ih =>
    cases os with
    | nil => exact congrArg ([·]) (slotOf_byteArray hpad name p _)
    | cons o os =>
      rw [List.map_cons, List.map_cons, padFields, List.map_cons, List.map_cons, ih,
        slotOf_byteArray hpad, Layout.fillGaps]
      rfl

theorem fieldResolves_padFields {fields : List StructField} (p t : ℕ) (os ns : List ℕ)
    (hf : ∀ f ∈ fields, R.FieldResolves false f) :
    ∀ f ∈ padFields name p fields os ns t, R.FieldResolves true f := by
  have hbytes : ∀ p k, R.FieldResolves true ⟨name p, byteArray k, none⟩ := fun p k =>
    ⟨⟨k, hpad k⟩, by simp⟩
  fun_induction padFields name p fields os ns t with
  | case1 p f fs o os n ns t ih =>
    rw [List.forall_mem_cons] at hf
    rw [List.forall_mem_cons, List.forall_mem_cons]
    exact ⟨hbytes p _, ⟨hf.1.1, by simp⟩, ih hf.2⟩
  | case2 => exact List.forall_mem_singleton.mpr (hbytes _ _)

end Padding

/-- In the padded list the fields are at the odd places. -/
theorem getElem?_padFields (name : ℕ → Str) {fields : List StructField} (p t : ℕ) {os ns : List ℕ}
    (hos : os.length = fields.length) (hns : ns.length = fields.length) {i : ℕ}
    (hi : i < fields.length) : (padFields name p fields os ns t)[2 * i + 1]? =
      fields[i]?.map fun f => { f with offset := none } := by
  induction fields generalizing p os ns i with
  | nil => cases hi
  | cons f fields ih =>
    obtain ⟨o, os, rfl⟩ := List.exists_cons_of_length_eq_add_one hos
    obtain ⟨n, ns, rfl⟩ := List.exists_cons_of_length_eq_add_one hns
    cases i with
    | zero => rfl
    | succ i => exact ih _ (Nat.succ.inj hos) (Nat.succ.inj hns) (Nat.lt_of_succ_lt_succ hi)

/-- Packing the fields together with their padding gives the layout they had. -/
theorem SizesOk.computeStructLayout_withPadding (h : R.SizesOk)
    (hpad : ∀ k, R.resolveSize (byteArray k) = .ok k) (name : ℕ → Str) {fields : List StructField}
    {L : StructLayout} (hL : R.computeStructLayout fields false = .ok L) :
    ∃ L', R.computeStructLayout (withPadding name fields L) true = .ok L' ∧
      L'.totalSize = L.totalSize ∧ ∀ i < fields.length, L'.fieldOffsets[2 * i + 1]? = L.fieldOffsets[i]? := by
  obtain ⟨hf, hc, rfl⟩ := computeStructLayout_eq_ok_iff.mp hL
  have hone : Layout.RoundsTo maskUp 1 := Layout.maskUp_roundsTo 0
  have hr := h.slots_roundsTo hf
  have hslots : (withPadding name fields (layoutOf (fields.map (R.slotOf false)))).map (R.slotOf true) =
      Layout.fillGaps 0 (fields.map (R.slotOf false)) (Layout.offsets maskUp 0 (fields.map (R.slotOf false)))
        (layoutOf (fields.map (R.slotOf false))).totalSize := map_slotOf_padFields hpad name fields 0 _ _
  refine ⟨_, computeStructLayout_eq_ok_iff.mpr ⟨fieldResolves_padFields hpad name _ _ _ _ hf, ?_, rfl⟩, ?_, ?_⟩
  · rw [hslots]
    exact Layout.clear_fillGaps ..
  · have hend := Layout.finish_fillGaps hone hr hc ((h.maxAlign hf).roundsTo.le _)
    rw [hslots]
    change maskUp (Layout.finish maskUp 0 _) (Layout.maxAlign _) = _
    rw [Layout.maxAlign_fillGaps]
    exact (Slot.place_loose hone 0 _).trans hend
  · intro i hi
    rw [hslots]
    refine (hc.fits hr).getElem?_offsets_fillGaps hone _ ?_
    rwa [Layout.length_offsets, List.length_map]

/-- **Padding can be made explicit**: as explicit offsets, with the same layout, and as fields of
bytes in a packed struct, with every field where it was and the same size. -/
theorem explicit_padding (prims : Dict Str Primitive) (aliases : Dict Str Str)
    (arrays : Dict Str ArrayType) (hprims : ∀ p ∈ prims.values, IsWidth p.size)
    (R : TypeRegistry) (hR : Relation.ReflTransGen Registers (bare prims aliases arrays) R)
    (hpad : ∀ k, R.resolveSize (byteArray k) = .ok k) (fields : List StructField) :
    (∀ packed L, R.computeStructLayout fields packed = .ok L →
      R.computeStructLayout (withOffsets fields L.fieldOffsets) packed = .ok L) ∧
    ∀ L, R.computeStructLayout fields false = .ok L → ∀ name, ∃ L',
      R.computeStructLayout (withPadding name fields L) true = .ok L' ∧
      L'.totalSize = L.totalSize ∧
      ∀ i < fields.length,
        (withPadding name fields L)[2 * i + 1]? = fields[i]?.map (fun f => { f with offset := none }) ∧
        L'.fieldOffsets[2 * i + 1]? = L.fieldOffsets[i]? := by
  have h := (SizesOk.bare aliases arrays hprims).reachable hR
  refine ⟨fun packed L hL => h.computeStructLayout_withOffsets hL, fun L hL name => ?_⟩
  obtain ⟨L', hL', htotal, hoffsets⟩ := h.computeStructLayout_withPadding hpad name hL
  refine ⟨L', hL', htotal, fun i hi => ⟨?_, hoffsets i hi⟩⟩
  obtain ⟨_, _, rfl⟩ := computeStructLayout_eq_ok_iff.mp hL
  refine getElem?_padFields name 0 _ ?_ ?_ hi
  · exact (Layout.length_offsets _ _).trans (List.length_map _)
  · exact (List.length_map _).trans (List.length_map _)

/-- No name in the shipped tables has a bracket in it. -/
theorem resolveSize_byteArray (k : ℕ) : shippedBare.resolveSize (byteArray k) = .ok k := by
  have hmem : '[' ∈ byteArray k :=
    List.mem_append_left _ (List.mem_append_left _ (by decide))
  have hkeys : (∀ t ∈ shippedBare.cPrimitives.keys, '[' ∉ t) ∧
      (∀ t ∈ shippedBare.typeAliases.keys, '[' ∉ t) ∧ ∀ t ∈ shippedBare.arrayTypes.keys, '[' ∉ t := by
    decide +kernel
  have hend : Py.endsWith (byteArray k) "*" = false := by
    rw [Bool.eq_false_iff, ne_eq, Py.endsWith_iff]
    rintro ⟨u, hu⟩
    exact absurd (List.append_inj_right' hu rfl) (by decide)
  have hparse : parseInlineArray (byteArray k) = some (k, ("uint8_t" : Str)) := by
    refine parseInlineArray_eq_some_iff.mpr ⟨Py.natStr k, [], ?_, Or.inl rfl, Py.natStr_ne_nil k,
      fun c hc => Py.isDigit_natStr hc, by decide, by decide, Py.intOfDigits_natStr k⟩
    exact (List.append_assoc ..).trans rfl
  have hshape := shippedBare.shape_of_inlineArray ⟨hend,
    Dict.get?_eq_none_iff.mpr fun hk => hkeys.1 _ hk hmem,
    Dict.get?_eq_none_iff.mpr fun hk => hkeys.2.1 _ hk hmem,
    Dict.get?_eq_none_iff.mpr fun hk => hkeys.2.2 _ hk hmem, rfl, hparse⟩
  have helem : shippedBare.resolveSize "uint8_t" = .ok 1 := by decide +kernel
  rw [resolveSize_eq, hshape]
  simp only [helem, Except.map, Nat.mul_one]

/-- A byte, a word and an integer: seven bytes before the word and four at the end. -/
def unevenFields : List StructField :=
  [⟨"tag", "uint8_t", none⟩, ⟨"value", "long", none⟩, ⟨"count", "int", none⟩]

theorem explicit_padding_uneven :
    shippedBare.computeStructLayout unevenFields false = .ok ⟨[0, 8, 16], [1, 8, 4], 24, 8⟩ ∧
    shippedBare.computeStructLayout (withOffsets unevenFields [0, 8, 16]) false =
      .ok ⟨[0, 8, 16], [1, 8, 4], 24, 8⟩ ∧
    ∃ L', shippedBare.computeStructLayout
        (withPadding (fun _ => "pad") unevenFields ⟨[0, 8, 16], [1, 8, 4], 24, 8⟩) true = .ok L' ∧
      L'.totalSize = 24 ∧ L'.fieldOffsets[3]? = some 8 := by
  have hL : shippedBare.computeStructLayout unevenFields false = .ok ⟨[0, 8, 16], [1, 8, 4], 24, 8⟩ := by
    decide +kernel
  have h := explicit_padding shippedPrimitives shippedAliases shippedArrays (by decide) shippedBare .refl
    resolveSize_byteArray unevenFields
  obtain ⟨L', hL', htotal, hoffsets⟩ := h.2 _ hL fun _ => "pad"
  exact ⟨hL, h.1 false _ hL, L', hL', htotal, (hoffsets 1 (by decide)).2⟩

end Wali.TypeRegistry
