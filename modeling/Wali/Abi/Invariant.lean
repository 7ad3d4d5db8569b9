import Wali.Abi.Registration

/-!
# What every reachable registry satisfies

Two invariants of registration. `SizesOk`: alignments are 1, 2, 4 or 8 and divide sizes, which is
what makes the mask rounding of `compute_struct_layout` right. `Coherent`: the layout stored with
a struct is the one that would be computed for it now.
-/

namespace Wali.TypeRegistry

open Py (Str Dict)
open Layout (Slot maskUp)

variable {R R' : TypeRegistry}

/-- The sizes of primitive types. -/
def IsWidth (n : ℕ) : Prop := n = 1 ∨ n = 2 ∨ n = 4 ∨ n = 8

instance : DecidablePred IsWidth := fun n => inferInstanceAs (Decidable (n = 1 ∨ n = 2 ∨ n = 4 ∨ n = 8))

theorem IsWidth.two_pow {n : ℕ} (h : IsWidth n) : ∃ k, n = 2 ^ k := by
  rcases h with rfl | rfl | rfl | rfl
  · exact ⟨0, rfl⟩
  · exact ⟨1, rfl⟩
  · exact ⟨2, rfl⟩
  · exact ⟨3, rfl⟩

theorem IsWidth.roundsTo {n : ℕ} (h : IsWidth n) : Layout.RoundsTo maskUp n := by
  obtain ⟨k, rfl⟩ := h.two_pow
  exact Layout.maskUp_roundsTo k

theorem IsWidth.dvd_of_le {a b : ℕ} (ha : IsWidth a) (hb : IsWidth b) (h : a ≤ b) : a ∣ b := by
  rcases ha with rfl | rfl | rfl | rfl <;> rcases hb with rfl | rfl | rfl | rfl <;>
    first | decide | omega

/-- Primitive sizes are widths; struct alignments are widths and divide struct sizes. -/
structure SizesOk (R : TypeRegistry) : Prop where
  prims : ∀ p ∈ R.cPrimitives.values, IsWidth p.size
  structs : ∀ sd ∈ R.structDefs.values, IsWidth sd.alignment ∧ sd.alignment ∣ sd.totalSize

theorem SizesOk.resolve (h : R.SizesOk) {t : Str} {n : ℕ} (hn : R.resolveSize t = .ok n) :
    ∃ a, R.resolveAlignment t = .ok a ∧ IsWidth a ∧ a ∣ n := by
  suffices key : ∀ n, R.resolveSize t = .ok n →
      ∃ a, R.resolveAlignment t = .ok a ∧ IsWidth a ∧ a ∣ n from key n hn
  have ht : R.Resolves t := ⟨n, hn⟩
  refine ht.induct (fun t ht hend => ?_) (fun t u _ hu _ ih => ?_)
  · intro n hn
    rw [resolveSize_eq] at hn
    rw [resolveAlignment_eq]
    rcases ht.end_cases hend with ⟨hs, p, hp⟩ | ⟨p, hs⟩ | ⟨sd, hs⟩
    · rw [hs] at hn ⊢
      simp only [ptrSize, hp, Except.ok.injEq] at hn ⊢
      subst hn
      exact ⟨p.size, rfl, h.prims p (Dict.mem_values.mpr ⟨_, Dict.get?_eq_some_iff.mp hp⟩), dvd_rfl⟩
    · rw [hs] at hn ⊢
      simp only [Except.ok.injEq] at hn ⊢
      subst hn
      exact ⟨p.size, rfl, h.prims p (Dict.mem_values.mpr
        ⟨_, Dict.get?_eq_some_iff.mp (shape_primitive hs).2⟩), dvd_rfl⟩
    · rw [hs] at hn ⊢
      simp only [Except.ok.injEq] at hn ⊢
      subst hn
      exact ⟨sd.alignment, rfl, h.structs sd (shape_struct_mem hs)⟩
  · intro n hn
    obtain ⟨m, hm, rfl⟩ := resolveSize_of_next hu hn
    obtain ⟨a, ha, hw, hd⟩ := ih m hm
    rw [resolveAlignment_of_next hu]
    exact ⟨a, ha, hw, hd.mul_left _⟩

theorem SizesOk.fieldAlign (h : R.SizesOk) {packed : Bool} {f : StructField} {a : ℕ}
    (hf : R.Resolves f.typeName) (ha : R.fieldAlign packed f = .ok a) : IsWidth a := by
  cases packed with
  | true =>
    obtain rfl := Except.ok.inj ha
    exact Or.inl rfl
  | false =>
    obtain ⟨n, hn⟩ := hf
    obtain ⟨b, hb, hw, _⟩ := h.resolve hn
    have he : R.resolveAlignment f.typeName = .ok a := ha
    rw [hb, Except.ok.injEq] at he
    exact he ▸ hw

theorem SizesOk.maxAlign (h : R.SizesOk) {packed : Bool} {fields : List StructField}
    (hf : ∀ f ∈ fields, R.FieldResolves packed f) :
    IsWidth (Layout.maxAlign (fields.map (R.slotOf packed))) := by
  rcases Layout.maxAlign_mem (fields.map (R.slotOf packed)) with h1 | ⟨s, hs, he⟩
  · exact Or.inl h1
  · obtain ⟨f, hm, rfl⟩ := List.mem_map.mp hs
    rw [← he]
    exact h.fieldAlign (hf f hm).1 (fieldAlign_eq (hf f hm))

theorem SizesOk.layout (h : R.SizesOk) {packed : Bool} {fields : List StructField}
    {L : StructLayout} (hL : R.computeStructLayout fields packed = .ok L) :
    IsWidth L.alignment ∧ L.alignment ∣ L.totalSize := by
  obtain ⟨hf, _, rfl⟩ := computeStructLayout_eq_ok_iff.mp hL
  have hw := h.maxAlign hf
  exact ⟨hw, hw.roundsTo.dvd _⟩

/-- One registration keeps the sizes in order. -/
theorem SizesOk.registers (h : R.SizesOk) (hr : R.Registers R') : R'.SizesOk := by
  obtain ⟨d, sd, hp⟩ := hr
  obtain ⟨hL, _, _, _, rfl⟩ := postInit_ok_iff.mp hp
  refine ⟨h.prims, fun sd' hsd' => ?_⟩
  rcases Dict.mem_values_set hsd' with rfl | hmem
  · exact h.layout hL
  · exact h.structs sd' hmem

theorem SizesOk.reachable (h : R.SizesOk) (hr : Relation.ReflTransGen Registers R R') :
    R'.SizesOk := by
  induction hr with
  | refl => exact h
  | tail _ hstep ih => exact ih.registers hstep

theorem SizesOk.bare {prims : Dict Str Primitive} (aliases : Dict Str Str)
    (arrays : Dict Str ArrayType) (h : ∀ p ∈ prims.values, IsWidth p.size) :
    (bare prims aliases arrays).SizesOk := ⟨h, by simp [TypeRegistry.bare, Dict.values]⟩

/-- In every registry that registrations lead to, an alignment is 1, 2, 4 or 8 and divides the
size, and every rounding that `compute_struct_layout` does is to the next multiple. -/
theorem resolve_alignment_dvd_size (prims : Dict Str Primitive) (aliases : Dict Str Str)
    (arrays : Dict Str ArrayType) (hprims : ∀ p ∈ prims.values, IsWidth p.size)
    (R : TypeRegistry) (hR : Relation.ReflTransGen Registers (bare prims aliases arrays) R) :
    (∀ t n, R.resolveSize t = .ok n → ∃ a, R.resolveAlignment t = .ok a ∧
      (a = 1 ∨ a = 2 ∨ a = 4 ∨ a = 8) ∧ a ∣ n) ∧
    (∀ packed f a, R.Resolves f.typeName → R.fieldAlign packed f = .ok a →
      ∀ x, IsLeast {m | a ∣ m ∧ x ≤ m} (maskUp x a)) ∧
    ∀ fields packed L, R.computeStructLayout fields packed = .ok L →
      ∀ x, IsLeast {m | L.alignment ∣ m ∧ x ≤ m} (maskUp x L.alignment) := by
  have h := (SizesOk.bare aliases arrays hprims).reachable hR
  refine ⟨fun t n hn => h.resolve hn, fun packed f a hf ha => (h.fieldAlign hf ha).roundsTo,
    fun fields packed L hL => (h.layout hL).1.roundsTo⟩

/-- `struct epoll_event` as shipped. -/
def epollEvent : StructDecl :=
  { name := "struct epoll_event", fields := epollFields, expectedSize := some 12, packed := true }

theorem postInit_epollEvent :
    epollEvent.postInit shippedBare =
      (.ok ⟨epollEvent, ⟨[0, 4], [4, 8], 12, 1⟩⟩, (epollEvent.postInit shippedBare).2) :=
  Prod.ext (by decide +kernel) rfl

theorem resolve_alignment_dvd_size_epollEvent :
    ∃ a, (epollEvent.postInit shippedBare).2.resolveAlignment "struct epoll_event[3]" = .ok a ∧
      (a = 1 ∨ a = 2 ∨ a = 4 ∨ a = 8) ∧ a ∣ 36 :=
  (resolve_alignment_dvd_size shippedPrimitives shippedAliases shippedArrays (by decide) _
    (.single ⟨_, _, postInit_epollEvent⟩)).1 _ 36 (by decide +kernel)

/-- Computing the layout of a registered struct again gives what is stored. -/
def Coherent (R : TypeRegistry) : Prop :=
  ∀ sd ∈ R.structDefs.values, R.computeStructLayout sd.fields sd.packed = .ok sd.toStructLayout

theorem fieldResolves_iff {packed : Bool} {f : StructField} :
    R.FieldResolves packed f ↔ R.Resolves f.typeName :=
  ⟨fun h => h.1, fun h => ⟨h, fun _ => h.alignment⟩⟩

theorem slotOf_addStruct {sd : StructDef} (hfresh : ¬ R.Resolves sd.name) {packed : Bool}
    {f : StructField} (hf : R.Resolves f.typeName) :
    (R.addStruct sd).slotOf packed f = R.slotOf packed f := by
  obtain ⟨hs, ha⟩ := hf.addStruct hfresh
  simp only [slotOf, hs, ha]

theorem computeStructLayout_addStruct {sd : StructDef} (hfresh : ¬ R.Resolves sd.name)
    {fields : List StructField} {packed : Bool} {L : StructLayout}
    (h : R.computeStructLayout fields packed = .ok L) :
    (R.addStruct sd).computeStructLayout fields packed = .ok L := by
  obtain ⟨hf, hc, rfl⟩ := computeStructLayout_eq_ok_iff.mp h
  have hmap : fields.map ((R.addStruct sd).slotOf packed) = fields.map (R.slotOf packed) :=
    List.map_congr_left fun f hm => slotOf_addStruct hfresh (fieldResolves_iff.mp (hf f hm))
  rw [computeStructLayout_eq_ok_iff, hmap]
  refine ⟨fun f hm => fieldResolves_iff.mpr ?_, hc, rfl⟩
  have hr : R.Resolves f.typeName := fieldResolves_iff.mp (hf f hm)
  refine hr.imp fun n hn => ?_
  exact (hr.addStruct hfresh).1.trans hn

theorem Coherent.registersFresh (h : R.Coherent) (hr : R.RegistersFresh R') : R'.Coherent := by
  obtain ⟨d, sd, hfresh, hp⟩ := hr
  obtain ⟨hL, rfl, _, _, rfl⟩ := postInit_ok_iff.mp hp
  intro sd' hsd'
  rcases Dict.mem_values_set hsd' with rfl | hmem
  · exact computeStructLayout_addStruct hfresh hL
  · exact computeStructLayout_addStruct hfresh (h sd' hmem)

theorem Coherent.reachable (h : R.Coherent) (hr : Relation.ReflTransGen RegistersFresh R R') :
    R'.Coherent := by
  induction hr with
  | refl => exact h
  | tail _ hstep ih => exact ih.registersFresh hstep

/-- When a construction succeeds, in terms of the fields and the registry alone. -/
theorem postInit_succeeds_iff (R : TypeRegistry) (d : StructDecl) :
    (∃ sd, (d.postInit R).1 = .ok sd) ↔
      (∀ f ∈ d.fields, R.Resolves f.typeName) ∧
      (∀ pre f post x, d.fields = pre ++ f :: post → f.offset = some x →
        (R.runningEnd d.packed pre : ℤ) ≤ x) ∧
      (∀ e, d.expectedSize = some e →
        ((layoutOf (d.fields.map (R.slotOf d.packed))).totalSize : ℤ) = e) ∧
      d.name ∉ R.structDefs.keys := by
  -- fields without an explicit offset never fail, so the condition is on the others alone
  have hclear : Layout.Clear maskUp 0 (d.fields.map (R.slotOf d.packed)) ↔
      ∀ pre f post x, d.fields = pre ++ f :: post → f.offset = some x →
        (R.runningEnd d.packed pre : ℤ) ≤ x := by
    rw [Layout.clear_iff]
    constructor
    · intro h pre f post x he hx
      exact h (pre.map (R.slotOf d.packed)) (R.slotOf d.packed f) (post.map (R.slotOf d.packed)) x
        (by rw [he, List.map_append, List.map_cons]) hx
    · intro h pre s post x he hx
      obtain ⟨l₁, l₂, hl, rfl, hl₂⟩ := List.map_eq_append_iff.mp he
      obtain ⟨f, l₃, rfl, rfl, rfl⟩ := List.map_eq_cons_iff.mp hl₂
      exact h l₁ f l₃ x hl hx
  rw [← hclear]
  constructor
  · rintro ⟨sd, h⟩
    obtain ⟨hL, rfl, hx, hk, _⟩ := postInit_ok_iff.mp (Prod.ext h rfl)
    obtain ⟨hf, hc, he⟩ := computeStructLayout_eq_ok_iff.mp hL
    rw [← he]
    exact ⟨fun f hm => fieldResolves_iff.mp (hf f hm), hc, hx, hk⟩
  · rintro ⟨hf, hc, hx, hk⟩
    have hL : R.computeStructLayout d.fields d.packed =
        .ok (layoutOf (d.fields.map (R.slotOf d.packed))) :=
      computeStructLayout_of_clear (fun f hm => fieldResolves_iff.mpr (hf f hm)) hc
    have hp : d.postInit R = (.ok ⟨d, layoutOf (d.fields.map (R.slotOf d.packed))⟩, _) :=
      postInit_ok_iff.mpr ⟨hL, rfl, hx, hk, rfl⟩
    exact ⟨_, congrArg Prod.fst hp⟩

/-- A name that resolves nowhere is no primitive, so three tables remain that could shadow it. -/
theorem unclaimed_of_not_resolves {t : Str} (h : ¬ R.Resolves t)
    (hptr : Py.endsWith t "*" = false) (halias : t ∉ R.typeAliases.keys)
    (harray : t ∉ R.arrayTypes.keys) : R.Unclaimed t := by
  refine ⟨hptr, ?_, Dict.get?_eq_none_iff.mpr halias, Dict.get?_eq_none_iff.mpr harray⟩
  cases hp : R.cPrimitives.get? t with
  | none => rfl
  | some p =>
    refine absurd ⟨p.size, ?_⟩ h
    rw [resolveSize_eq]
    simp only [shape, hptr, hp, Bool.false_eq_true, if_false]

/-- Registration is atomic, and under a fresh name it is conservative. -/
theorem postInit_atomic_conservative :
    (∀ (R : TypeRegistry) (d : StructDecl),
      ((∃ sd, (d.postInit R).1 = .ok sd) ↔
        (∀ f ∈ d.fields, R.Resolves f.typeName) ∧
        (∀ pre f post x, d.fields = pre ++ f :: post → f.offset = some x →
          (R.runningEnd d.packed pre : ℤ) ≤ x) ∧
        (∀ e, d.expectedSize = some e →
          ((layoutOf (d.fields.map (R.slotOf d.packed))).totalSize : ℤ) = e) ∧
        d.name ∉ R.structDefs.keys) ∧
      (∀ e, (d.postInit R).1 = .error e → (d.postInit R).2 = R) ∧
      (∀ sd, (d.postInit R).1 = .ok sd → ¬ R.Resolves d.name →
        (∀ t, R.Resolves t →
          (d.postInit R).2.resolveSize t = R.resolveSize t ∧
          (d.postInit R).2.resolveAlignment t = R.resolveAlignment t) ∧
        (Py.endsWith d.name "*" = false → d.name ∉ R.typeAliases.keys →
          d.name ∉ R.arrayTypes.keys →
          (d.postInit R).2.resolveSize d.name = .ok sd.totalSize ∧
          (d.postInit R).2.resolveAlignment d.name = .ok sd.alignment))) ∧
    (∀ R R' : TypeRegistry, R.Coherent → Relation.ReflTransGen RegistersFresh R R' →
      R'.Coherent) := by
  refine ⟨fun R d => ⟨postInit_succeeds_iff R d, fun e he => postInit_error he, ?_⟩,
    fun R R' h hr => h.reachable hr⟩
  intro sd hsd hfresh
  have hp : d.postInit R = (.ok sd, (d.postInit R).2) := Prod.ext hsd rfl
  obtain ⟨_, rfl, _, _, hR⟩ := postInit_ok_iff.mp hp
  simp only [hR]
  exact ⟨fun t ht => ht.addStruct hfresh, fun hptr halias harray =>
    resolve_addStruct_self (unclaimed_of_not_resolves hfresh hptr halias harray)⟩

theorem postInit_atomic_conservative_epollEvent :
    (epollEvent.postInit shippedBare).2.resolveSize "struct epoll_event" = .ok 12 ∧
      (epollEvent.postInit shippedBare).2.resolveAlignment "struct epoll_event" = .ok 1 ∧
      (epollEvent.postInit shippedBare).2.Coherent := by
  have hunknown : shippedBare.resolveSize epollEvent.name =
      .error (.runtimeError "Cannot resolve size for type 'struct epoll_event'") := by
    decide +kernel
  have hfresh := not_resolves_of_error hunknown
  have hok := congrArg Prod.fst postInit_epollEvent
  obtain ⟨hsize, halign⟩ := ((postInit_atomic_conservative.1 shippedBare epollEvent).2.2 _ hok
    hfresh).2 (by decide) (by decide) (by decide)
  refine ⟨hsize, halign, postInit_atomic_conservative.2 shippedBare _ ?_
    (.single ⟨_, _, hfresh, postInit_epollEvent⟩)⟩
  intro sd hsd
  cases hsd

/-- An alias whose target does not exist, in an otherwise empty registry. -/
def danglingAlias : TypeRegistry :=
  bare ⟨[("ptr", ⟨4, false⟩)], by decide⟩ ⟨[("foo", "bar")], by decide⟩ Dict.empty

/-- An array whose element does not exist. -/
def danglingArray : TypeRegistry :=
  bare ⟨[("ptr", ⟨4, false⟩)], by decide⟩ Dict.empty ⟨[("foo", ⟨"bar", 2⟩)], by decide⟩

/-- A struct under a name that is looked up elsewhere first can be registered, and is not found. -/
theorem postInit_shadowed :
    let d : StructDecl := { name := "foo", fields := [], expectedSize := none, packed := false }
    let star : StructDecl := { d with name := "foo*" }
    let unpointed : TypeRegistry := bare Dict.empty Dict.empty Dict.empty
    ((d.postInit danglingAlias).1 = .ok ⟨d, ⟨[], [], 0, 1⟩⟩ ∧
      danglingAlias.resolveSize "foo" = .error (.runtimeError "Cannot resolve size for type 'bar'") ∧
      (d.postInit danglingAlias).2.resolveSize "foo" =
        .error (.runtimeError "Cannot resolve size for type 'bar'")) ∧
    ((d.postInit danglingArray).1 = .ok ⟨d, ⟨[], [], 0, 1⟩⟩ ∧
      danglingArray.resolveSize "foo" = .error (.runtimeError "Cannot resolve size for type 'bar'") ∧
      (d.postInit danglingArray).2.resolveSize "foo" =
        .error (.runtimeError "Cannot resolve size for type 'bar'")) ∧
    (star.postInit unpointed).1 = .ok ⟨star, ⟨[], [], 0, 1⟩⟩ ∧
      unpointed.resolveSize "foo*" = .error (.keyError "ptr") ∧
      (star.postInit unpointed).2.resolveSize "foo*" = .error (.keyError "ptr") := by
  decide +kernel

end Wali.TypeRegistry
