import Wali.Abi.Resolve

/-!
# Validating a registry

`validate` resolves every reference of the registry and reports those that fail. It catches
`RuntimeError`, and with it the `RecursionError` of a circular table; the `KeyError` of a registry
without `ptr` passes through.
-/

namespace Wali.TypeRegistry

open Py (Str Dict)

variable (R : TypeRegistry)

/-- One `try` block: the messages it appends. -/
def checkReference (label : Str) (typeName : Str) : Except Py.Error (List Str) :=
  match R.resolveSize typeName with
  | .ok _ => .ok []
  | .error e => if e.isRuntimeError then .ok [label ++ ": " ++ e.text] else .error e

/-- A reference to a type, with the beginning of the message that reports it. -/
structure Reference where
  label : Str
  typeName : Str

/-- What `validate` resolves. -/
def references : List Reference :=
  R.typeAliases.entries.map (fun e => ⟨"type_alias '" ++ e.1 ++ "' -> '" ++ e.2 ++ "'", e.2⟩) ++
  R.arrayTypes.entries.map (fun e =>
    ⟨"array_type '" ++ e.1 ++ "' element '" ++ e.2.elementType ++ "'", e.2.elementType⟩) ++
  R.structDefs.values.flatMap fun sd => sd.fields.map fun f =>
    ⟨"struct '" ++ sd.name ++ "' field '" ++ f.name ++ "' type '" ++ f.typeName ++ "'", f.typeName⟩

def validate : Except Py.Error Unit := do
  let errors := (← R.references.mapM fun e => R.checkReference e.label e.typeName).flatten
  if errors = [] then return ()
  else throw (.runtimeError (Py.natStr errors.length ++ " type resolution errors found"))

variable {R}

theorem checkReference_eq_nil_iff {label t : Str} :
    R.checkReference label t = .ok [] ↔ R.Resolves t := by
  unfold checkReference Resolves
  cases h : R.resolveSize t with
  | ok n => exact iff_of_true rfl ⟨n, rfl⟩
  | error e =>
    refine iff_of_false ?_ (by rintro ⟨n, hn⟩; cases hn)
    simp only
    split <;> nofun

theorem validate_eq_ok_iff : R.validate = .ok () ↔ ∀ e ∈ R.references, R.Resolves e.typeName := by
  unfold validate
  cases h : R.references.mapM fun e => R.checkReference e.label e.typeName with
  | error e =>
    refine iff_of_false nofun fun hall => ?_
    obtain ⟨ys, hys⟩ : ∃ ys, (R.references.mapM fun e => R.checkReference e.label e.typeName) = .ok ys :=
      Py.mapM_exists_ok fun e he => ⟨[], checkReference_eq_nil_iff.mpr (hall e he)⟩
    rw [hys] at h
    cases h
  | ok ys =>
    have hiff : ys.flatten = [] ↔ ∀ e ∈ R.references, R.Resolves e.typeName := by
      rw [List.flatten_eq_nil_iff]
      constructor
      · intro hnil e he
        obtain ⟨i, hi⟩ := List.getElem?_of_mem he
        obtain ⟨y, hy, hok⟩ := Py.mapM_ok_getElem? h hi
        rw [hnil y (List.mem_of_getElem? hy)] at hok
        exact checkReference_eq_nil_iff.mp hok
      · intro hall y hy
        obtain ⟨i, hi⟩ := List.getElem?_of_mem hy
        obtain ⟨e, he, hok⟩ := Py.mapM_ok_getElem?_inv h hi
        rw [checkReference_eq_nil_iff.mpr (hall e (List.mem_of_getElem? he))] at hok
        exact (Except.ok.inj hok).symm
    rw [← hiff]
    by_cases hnil : ys.flatten = []
    · exact iff_of_true (if_pos hnil) hnil
    · refine iff_of_false (fun hok => ?_) hnil
      rw [show (Except.ok ys >>= _) = _ from if_neg hnil] at hok
      cases hok

/-- The references of an accepted registry resolve. -/
theorem validate_fields (h : R.validate = .ok ()) {sd : StructDef} (hsd : sd ∈ R.structDefs.values)
    {f : StructField} (hf : f ∈ sd.fields) : R.Resolves f.typeName :=
  validate_eq_ok_iff.mp h _ (List.mem_append_right _
    (List.mem_flatMap.mpr ⟨sd, hsd, List.mem_map_of_mem hf⟩))

end Wali.TypeRegistry
