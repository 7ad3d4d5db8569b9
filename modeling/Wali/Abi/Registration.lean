import Wali.Abi.StructLayout
import Mathlib.Logic.Relation

/-!
# Registering structs

`StructDef.__post_init__` computes the layout, checks it and enters the struct
in the registry. It is a function from the registry before to the outcome and
the registry after, so that what a failed construction leaves behind can be
stated.
-/

namespace Wali

open Py (Str Dict)
open Layout (Slot maskUp)

namespace TypeRegistry

/-- `TypeRegistry.struct_defs[self.name] = self`. -/
def addStruct (R : TypeRegistry) (sd : StructDef) : TypeRegistry where
  cPrimitives := R.cPrimitives
  typeAliases := R.typeAliases
  arrayTypes := R.arrayTypes
  structDefs := R.structDefs.set sd.name sd
  named := by
    intro e he
    rcases Dict.mem_set_entries.mp he with rfl | ⟨he, _⟩
    · rfl
    · exact R.named e he

end TypeRegistry

/-- The assertion that the computed size is the expected one. -/
def sizeError (d : StructDecl) (total : ℕ) (expected : ℤ) : Py.Error :=
  .assertionError (d.name ++ ": computed size " ++ Py.natStr total ++ " != expected " ++
    Py.intStr expected)

/-- The assertion that the name is new. -/
def duplicateError (d : StructDecl) : Py.Error :=
  .assertionError ("Duplicate struct definition: '" ++ d.name ++ "'")

/-- `assert self.total_size == self.expected_size`, where one is given. -/
def StructDecl.checkSize (d : StructDecl) (total : ℕ) : Except Py.Error Unit :=
  match d.expectedSize with
  | some expected => if (total : ℤ) = expected then .ok () else .error (sizeError d total expected)
  | none => .ok ()

/-- `StructDef.__post_init__`. -/
def StructDecl.postInit (d : StructDecl) (R : TypeRegistry) :
    Except Py.Error StructDef × TypeRegistry :=
  match R.computeStructLayout d.fields d.packed with
  | .error e => (.error e, R)
  | .ok L =>
    match d.checkSize L.totalSize with
    | .error e => (.error e, R)
    | .ok () =>
      if d.name ∈ R.structDefs.keys then (.error (duplicateError d), R)
      else (.ok ⟨d, L⟩, R.addStruct ⟨d, L⟩)

namespace TypeRegistry

variable {R R' : TypeRegistry}

/-- Everything a construction can do. -/
theorem postInit_cases (d : StructDecl) (R : TypeRegistry) :
    (∃ e, d.postInit R = (.error e, R)) ∨
      ∃ L, R.computeStructLayout d.fields d.packed = .ok L ∧
        (∀ e, d.expectedSize = some e → (L.totalSize : ℤ) = e) ∧ d.name ∉ R.structDefs.keys ∧
        d.postInit R = (.ok ⟨d, L⟩, R.addStruct ⟨d, L⟩) := by
  unfold StructDecl.postInit
  cases hL : R.computeStructLayout d.fields d.packed with
  | error e => exact Or.inl ⟨e, rfl⟩
  | ok L =>
    unfold StructDecl.checkSize
    cases hx : d.expectedSize with
    | none =>
      by_cases hk : d.name ∈ R.structDefs.keys
      · exact Or.inl ⟨duplicateError d, by simp only [if_pos hk]⟩
      · exact Or.inr ⟨L, rfl, by simp, hk, by simp only [if_neg hk]⟩
    | some x =>
      by_cases he : (L.totalSize : ℤ) = x
      · by_cases hk : d.name ∈ R.structDefs.keys
        · exact Or.inl ⟨duplicateError d, by simp only [if_pos he, if_pos hk]⟩
        · refine Or.inr ⟨L, rfl, ?_, hk, by simp only [if_pos he, if_neg hk]⟩
          intro y hy
          rw [he, Option.some.inj hy]
      · exact Or.inl ⟨sizeError d L.totalSize x, by simp only [if_neg he]⟩

theorem postInit_ok_iff {d : StructDecl} {sd : StructDef} :
    d.postInit R = (.ok sd, R') ↔
      R.computeStructLayout d.fields d.packed = .ok sd.toStructLayout ∧ sd.toStructDecl = d ∧
        (∀ e, d.expectedSize = some e → (sd.totalSize : ℤ) = e) ∧ d.name ∉ R.structDefs.keys ∧
        R' = R.addStruct sd := by
  constructor
  · intro h
    rcases postInit_cases d R with ⟨e, he⟩ | ⟨L, hL, hx, hk, he⟩
    · rw [he] at h
      cases h
    · rw [he] at h
      cases h
      exact ⟨hL, rfl, hx, hk, rfl⟩
  · rintro ⟨hL, rfl, hx, hk, rfl⟩
    unfold StructDecl.postInit StructDecl.checkSize
    rw [hL]
    cases he : sd.expectedSize with
    | none => simp only [if_neg hk]
    | some x => simp only [if_pos (hx x he), if_neg hk]

/-- A failed construction leaves the registry as it was. -/
theorem postInit_error {d : StructDecl} {e : Py.Error} (h : (d.postInit R).1 = .error e) :
    (d.postInit R).2 = R := by
  rcases postInit_cases d R with ⟨e', he⟩ | ⟨L, _, _, _, he⟩
  · rw [he]
  · rw [he] at h
    cases h

/-- One successful registration. -/
def Registers (R R' : TypeRegistry) : Prop := ∃ d sd, StructDecl.postInit d R = (.ok sd, R')

/-- One successful registration under a name that did not resolve before. -/
def RegistersFresh (R R' : TypeRegistry) : Prop :=
  ∃ d sd, ¬ R.Resolves d.name ∧ StructDecl.postInit d R = (.ok sd, R')

theorem shape_addStruct_of_ne {sd : StructDef} {t : Str} (h : t ≠ sd.name) :
    (R.addStruct sd).shape t = R.shape t := by
  simp only [shape, addStruct, Dict.get?_set_of_ne R.structDefs sd h]

/-- No table that is consulted before the structs has the name. -/
def Unclaimed (R : TypeRegistry) (name : Str) : Prop :=
  Py.endsWith name "*" = false ∧ R.cPrimitives.get? name = none ∧
    R.typeAliases.get? name = none ∧ R.arrayTypes.get? name = none

theorem shape_addStruct_self {sd : StructDef} (h : R.Unclaimed sd.name) :
    (R.addStruct sd).shape sd.name = .struct sd := by
  obtain ⟨h1, h2, h3, h4⟩ := h
  simp only [shape, addStruct, h1, h2, h3, h4, Dict.get?_set_self, Bool.false_eq_true, if_false]

/-- **Frame**: a name that resolves keeps its resolution when a struct is added under a name that
does not resolve. -/
theorem Resolves.addStruct {t : Str} (ht : R.Resolves t) {sd : StructDef}
    (hfresh : ¬ R.Resolves sd.name) :
    (R.addStruct sd).resolveSize t = R.resolveSize t ∧
      (R.addStruct sd).resolveAlignment t = R.resolveAlignment t := by
  have hne : ∀ t, R.Resolves t → t ≠ sd.name := fun t ht he => hfresh (he ▸ ht)
  refine ht.induct (fun t ht hn => ?_) (fun t u ht hu _ ih => ?_)
  · rw [resolveSize_eq, resolveAlignment_eq, resolveSize_eq, resolveAlignment_eq,
      shape_addStruct_of_ne (hne t ht)]
    rcases ht.end_cases hn with ⟨hs, _⟩ | ⟨p, hs⟩ | ⟨sd', hs⟩ <;> rw [hs]
    · exact ⟨rfl, rfl⟩
    · exact ⟨rfl, rfl⟩
    · exact ⟨rfl, rfl⟩
  · rw [resolveSize_eq, resolveAlignment_eq, resolveSize_eq, resolveAlignment_eq,
      shape_addStruct_of_ne (hne t ht)]
    unfold next at hu
    cases hs : R.shape t with
    | aliasTo target => rw [hs] at hu; obtain rfl := Option.some.inj hu; exact ih
    | arrayOf a => rw [hs] at hu; obtain rfl := Option.some.inj hu; simp only [ih, and_self]
    | inlineArray count elem =>
      rw [hs] at hu
      obtain rfl := Option.some.inj hu
      simp only [ih, and_self]
    | pointer => rw [hs] at hu; cases hu
    | primitive p => rw [hs] at hu; cases hu
    | struct sd' => rw [hs] at hu; cases hu
    | unknown => rw [hs] at hu; cases hu

theorem resolve_addStruct_self {sd : StructDef} (h : R.Unclaimed sd.name) :
    (R.addStruct sd).resolveSize sd.name = .ok sd.totalSize ∧
      (R.addStruct sd).resolveAlignment sd.name = .ok sd.alignment := by
  rw [resolveSize_eq, resolveAlignment_eq, shape_addStruct_self h]
  exact ⟨rfl, rfl⟩

end TypeRegistry

end Wali
