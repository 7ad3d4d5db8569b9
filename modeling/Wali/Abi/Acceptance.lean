import Wali.Abi.Invariant
import Wali.Abi.Termination
import Wali.Abi.Validate

/-!
# Accepted registries

`validate` resolves one level of each table. An accepted registry resolves more than that: whole
alias chains, and all types written with stars and array suffixes over its names. Registering
structs keeps a registry accepted, whatever their names are: a new struct can only end a
resolution earlier.
-/

namespace Wali.TypeRegistry

open Py (Str Dict)

variable (R : TypeRegistry)

/-- A name has a finite resolution: finitely many references lead from it to a pointer, a primitive
or a struct. -/
inductive FiniteResolution : Str → Prop
  | pointer {t : Str} {p : Primitive} (h : R.shape t = .pointer)
      (hp : R.cPrimitives.get? "ptr" = some p) : FiniteResolution t
  | primitive {t : Str} {p : Primitive} (h : R.shape t = .primitive p) : FiniteResolution t
  | struct {t : Str} {sd : StructDef} (h : R.shape t = .struct sd) : FiniteResolution t
  | refer {t u : Str} (h : R.next t = some u) (hu : FiniteResolution u) : FiniteResolution t

/-- The names of the registry and the types of its fields. -/
def Named (t : Str) : Prop :=
  t ∈ R.typeAliases.keys ∨ t ∈ R.arrayTypes.keys ∨ t ∈ R.structDefs.keys ∨
    ∃ sd ∈ R.structDefs.values, ∃ f ∈ sd.fields, f.typeName = t

/-- The types written over these names. An array suffix is read only after a text that is not
empty and has no line break. -/
inductive BuiltOver : Str → Prop
  | named {t : Str} (h : R.Named t) : BuiltOver t
  | pointer {t : Str} (h : BuiltOver t) : BuiltOver (t ++ ['*'])
  | array {t digits : Str} (h : BuiltOver t) (hne : t ≠ []) (hline : '\n' ∉ t) (hd : digits ≠ [])
      (hdig : ∀ c ∈ digits, Py.isDigit c) : BuiltOver (t ++ '[' :: (digits ++ [']']))

variable {R} {R' : TypeRegistry}

theorem finiteResolution_iff {t : Str} : R.FiniteResolution t ↔ R.Resolves t := by
  constructor
  · intro h
    induction h with
    | pointer hs hp => exact resolves_of_pointer hs hp
    | primitive hs => exact resolves_of_primitive hs
    | struct hs => exact resolves_of_struct hs
    | refer hu _ ih => exact resolves_of_next hu ih
  · intro h
    refine h.induct (fun t ht hend => ?_) (fun t u _ hu _ ih => .refer hu ih)
    rcases ht.end_cases hend with ⟨hs, p, hp⟩ | ⟨p, hs⟩ | ⟨sd, hs⟩
    · exact .pointer hs hp
    · exact .primitive hs
    · exact .struct hs

/-- The three kinds of references. -/
theorem validate_iff : R.validate = .ok () ↔
    (∀ e ∈ R.typeAliases.entries, R.Resolves e.2) ∧
    (∀ e ∈ R.arrayTypes.entries, R.Resolves e.2.elementType) ∧
    ∀ sd ∈ R.structDefs.values, ∀ f ∈ sd.fields, R.Resolves f.typeName := by
  rw [validate_eq_ok_iff, references]
  simp only [List.forall_mem_append, List.forall_mem_map, List.forall_mem_flatMap, and_assoc]

/-- A name spelled like a pointer needs `ptr`. -/
theorem resolves_of_shape_pointer {t : Str} (hs : R.shape t = .pointer)
    (hptr : (∃ p, R.cPrimitives.get? "ptr" = some p) ∨ '*' ∉ t) : R.Resolves t := by
  rcases hptr with ⟨p, hp⟩ | hstar
  · exact resolves_of_pointer hs hp
  · obtain ⟨u, rfl⟩ := Py.endsWith_iff.mp (shape_pointer hs)
    exact absurd (List.mem_append_right u List.mem_cons_self) hstar

/-- What a table has under a name is found before array suffixes are looked for. -/
theorem shape_of_key {t : Str}
    (h : t ∈ R.typeAliases.keys ∨ t ∈ R.arrayTypes.keys ∨ t ∈ R.structDefs.keys) :
    (∀ count elem, R.shape t ≠ .inlineArray count elem) ∧ R.shape t ≠ .unknown := by
  simp only [Dict.mem_keys_iff] at h
  rw [shape]
  split
  · simp
  cases R.cPrimitives.get? t with
  | some p => simp
  | none =>
  cases ha : R.typeAliases.get? t with
  | some u => simp
  | none =>
  cases hb : R.arrayTypes.get? t with
  | some a => simp
  | none =>
  cases hc : R.structDefs.get? t with
  | some sd => simp
  | none => simp [ha, hb, hc] at h

section Accepted

variable (hv : R.validate = .ok ())

include hv

/-- What a resolution goes on with resolves, unless an array suffix was cut off. -/
theorem resolves_of_shape {t : Str} (hptr : (∃ p, R.cPrimitives.get? "ptr" = some p) ∨ '*' ∉ t)
    (helem : ∀ count elem, R.shape t = .inlineArray count elem → R.Resolves elem)
    (hknown : R.shape t ≠ .unknown) : R.Resolves t := by
  obtain ⟨haliases, harrays, _⟩ := validate_iff.mp hv
  cases hs : R.shape t with
  | pointer => exact resolves_of_shape_pointer hs hptr
  | primitive p => exact resolves_of_primitive hs
  | struct sd => exact resolves_of_struct hs
  | aliasTo u =>
    refine resolves_of_next (by rw [next, hs]; rfl) (haliases (t, u) ?_)
    exact Dict.get?_eq_some_iff.mp (shape_aliasTo hs).2.2
  | arrayOf a =>
    refine resolves_of_next (u := a.elementType) (by rw [next, hs]; rfl) (harrays (t, a) ?_)
    exact Dict.get?_eq_some_iff.mp (shape_arrayOf hs).2.2.2
  | inlineArray count elem =>
    exact resolves_of_next (by rw [next, hs]; rfl) (helem count elem hs)
  | unknown => exact absurd hs hknown

/-- The names of an accepted registry resolve. -/
theorem Named.resolves {t : Str} (h : R.Named t)
    (hptr : (∃ p, R.cPrimitives.get? "ptr" = some p) ∨ '*' ∉ t) : R.Resolves t := by
  have hkey : t ∈ R.typeAliases.keys ∨ t ∈ R.arrayTypes.keys ∨ t ∈ R.structDefs.keys →
      R.Resolves t := fun hk =>
    resolves_of_shape hv hptr (fun count elem hs => absurd hs ((shape_of_key hk).1 count elem))
      (shape_of_key hk).2
  rcases h with hk | hk | hk | ⟨sd, hsd, f, hf, rfl⟩
  · exact hkey (Or.inl hk)
  · exact hkey (Or.inr (Or.inl hk))
  · exact hkey (Or.inr (Or.inr hk))
  · exact (validate_iff.mp hv).2.2 sd hsd f hf

/-- So do the types written over them. -/
theorem BuiltOver.resolves {t : Str} (h : R.BuiltOver t)
    (hptr : (∃ p, R.cPrimitives.get? "ptr" = some p) ∨ '*' ∉ t) : R.Resolves t := by
  induction h with
  | named h => exact h.resolves hv hptr
  | @pointer t _ _ =>
    have hend : Py.endsWith (t ++ ['*']) "*" = true := Py.endsWith_iff.mpr ⟨t, rfl⟩
    exact resolves_of_shape_pointer (by rw [shape, if_pos hend]) hptr
  | @array t digits _ hne hline hd hdig ih =>
    have hparse : parseInlineArray (t ++ '[' :: (digits ++ [']'])) =
        some (Py.intOfDigits digits, t) :=
      parseInlineArray_eq_some_iff.mpr ⟨digits, [], rfl, Or.inl rfl, hd, hdig, hne, hline, rfl⟩
    refine resolves_of_shape hv hptr (fun count elem hs => ?_) fun hs => ?_
    · have hparse' := (shape_inlineArray hs).2.2.2.2.2
      rw [hparse, Option.some.injEq, Prod.mk.injEq] at hparse'
      rw [← hparse'.2]
      exact ih (hptr.imp_right fun hstar hmem => hstar (List.mem_append_left _ hmem))
    · have hcases := R.shape_cases (t ++ '[' :: (digits ++ [']']))
      rw [hs] at hcases
      rw [hparse] at hcases
      cases hcases.2

end Accepted

/-- A new struct leaves the shape of a name as it was, or is its shape. -/
theorem shape_addStruct_cases (sd : StructDef) (t : Str) :
    (R.addStruct sd).shape t = R.shape t ∨ (R.addStruct sd).shape t = .struct sd := by
  by_cases hne : t = sd.name
  · subst hne
    simp only [shape, addStruct, Dict.get?_set_self]
    split
    · exact Or.inl rfl
    cases R.cPrimitives.get? sd.name with
    | some p => exact Or.inl rfl
    | none =>
    cases R.typeAliases.get? sd.name with
    | some u => exact Or.inl rfl
    | none =>
    cases R.arrayTypes.get? sd.name with
    | some a => exact Or.inl rfl
    | none => exact Or.inr rfl
  · exact Or.inl (shape_addStruct_of_ne hne)

/-- A name that resolves still resolves when a struct is added under any name. -/
theorem Resolves.addStruct_resolves {t : Str} (h : R.Resolves t) (sd : StructDef) :
    (R.addStruct sd).Resolves t := by
  refine h.induct (fun t ht hend => ?_) (fun t u _ hu _ ih => ?_)
  · rcases shape_addStruct_cases sd t with hsame | hstruct
    · rcases ht.end_cases hend with ⟨hs, p, hp⟩ | ⟨p, hs⟩ | ⟨sd', hs⟩
      · exact resolves_of_pointer (hsame.trans hs) hp
      · exact resolves_of_primitive (hsame.trans hs)
      · exact resolves_of_struct (hsame.trans hs)
    · exact resolves_of_struct hstruct
  · rcases shape_addStruct_cases sd t with hsame | hstruct
    · exact resolves_of_next (by rw [next, hsame]; exact hu) ih
    · exact resolves_of_struct hstruct

theorem validate_registers (hv : R.validate = .ok ()) (h : R.Registers R') :
    R'.validate = .ok () := by
  obtain ⟨d, sd, hp⟩ := h
  obtain ⟨hL, rfl, _, _, rfl⟩ := postInit_ok_iff.mp hp
  obtain ⟨haliases, harrays, hstructs⟩ := validate_iff.mp hv
  refine validate_iff.mpr ⟨fun e he => (haliases e he).addStruct_resolves sd,
    fun e he => (harrays e he).addStruct_resolves sd, fun sd' hsd' f hf => ?_⟩
  rcases Dict.mem_values_set hsd' with rfl | hmem
  · have hfields := (computeStructLayout_eq_ok_iff.mp hL).1
    exact (fieldResolves_iff.mp (hfields f hf)).addStruct_resolves sd'
  · exact (hstructs sd' hmem f hf).addStruct_resolves sd

theorem validate_reachable (hv : R.validate = .ok ()) (h : Relation.ReflTransGen Registers R R') :
    R'.validate = .ok () := by
  induction h with
  | refl => exact hv
  | tail _ hstep ih => exact validate_registers ih hstep

/-- **Acceptance**: `validate` accepts a registry exactly when every reference has a finite
resolution. In an accepted registry the types written over its names have a size and an alignment,
where those with a star need `ptr`. Registration keeps a registry accepted. -/
theorem validate_accepts (R : TypeRegistry) :
    (R.validate = .ok () ↔
      (∀ e ∈ R.typeAliases.entries, R.FiniteResolution e.2) ∧
      (∀ e ∈ R.arrayTypes.entries, R.FiniteResolution e.2.elementType) ∧
      ∀ sd ∈ R.structDefs.values, ∀ f ∈ sd.fields, R.FiniteResolution f.typeName) ∧
    (R.validate = .ok () → ∀ t, R.BuiltOver t →
      (∃ p, R.cPrimitives.get? "ptr" = some p) ∨ '*' ∉ t →
      ∃ n a, R.resolveSize t = .ok n ∧ R.resolveAlignment t = .ok a) ∧
    ∀ R', R.validate = .ok () → Relation.ReflTransGen Registers R R' → R'.validate = .ok () := by
  refine ⟨?_, fun hv t ht hptr => ?_, fun R' hv h => validate_reachable hv h⟩
  · simp only [finiteResolution_iff]
    exact validate_iff
  · obtain ⟨n, hn⟩ := ht.resolves hv hptr
    obtain ⟨a, ha⟩ := resolves_iff_alignment.mp ⟨n, hn⟩
    exact ⟨n, a, hn, ha⟩

theorem validate_accepts_shipped : shippedBare.validate = .ok () ∧
    (∃ n a, shippedBare.resolveSize "off_t*[16]" = .ok n ∧
      shippedBare.resolveAlignment "off_t*[16]" = .ok a) ∧
    (epollEvent.postInit shippedBare).2.validate = .ok () := by
  have hv : shippedBare.validate = .ok () := by decide +kernel
  have hbuilt : shippedBare.BuiltOver "off_t*[16]" := by
    have hname : shippedBare.BuiltOver "off_t" := .named (Or.inl (by decide +kernel))
    exact .array (.pointer hname) (by decide) (by decide) (show ("16" : Str) ≠ [] by decide)
      (Py.forall_mem_of_all (by decide))
  obtain ⟨_, htypes, hreg⟩ := validate_accepts shippedBare
  refine ⟨hv, htypes hv _ hbuilt (Or.inl ⟨⟨4, false⟩, by decide +kernel⟩), hreg _ hv ?_⟩
  exact .single ⟨_, _, postInit_epollEvent⟩

/-- An alias whose name has a line break in it. -/
def lineBreakName : TypeRegistry :=
  bare shippedPrimitives ⟨[("two\nlines", "unsigned int")], by decide⟩ .empty

/-- An alias in a registry that has no `ptr`. -/
def withoutPtr : TypeRegistry :=
  bare (Dict.empty.set "int" ⟨4, true⟩) ⟨[("word", "int")], by decide⟩ .empty

/-- Both are accepted, and there are an array over the name of the one and a pointer to that of the
other that have no size. -/
theorem validate_unsound :
    (lineBreakName.validate = .ok () ∧ ("two\nlines" : String).toList ∈ lineBreakName.typeAliases.keys ∧
      ¬ lineBreakName.Resolves "two\nlines[4]") ∧
    withoutPtr.validate = .ok () ∧ ("word" : String).toList ∈ withoutPtr.typeAliases.keys ∧
      ¬ withoutPtr.Resolves "word*" := by
  have hline : lineBreakName.resolveSize "two\nlines[4]" =
      .error (.runtimeError "Cannot resolve size for type 'two\nlines[4]'") := by decide +kernel
  have hptr : withoutPtr.resolveSize "word*" = .error (.keyError "ptr") := by decide +kernel
  exact ⟨⟨by decide +kernel, by decide +kernel, not_resolves_of_error hline⟩, by decide +kernel,
    by decide +kernel, not_resolves_of_error hptr⟩

end Wali.TypeRegistry
