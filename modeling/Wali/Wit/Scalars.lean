import Wali.Wit.Types
import Wali.Abi.Invariant
import Wali.Abi.Validate

/-!
# The meaning of scalar types in the WIT file

A scalar type is written by three pieces of code: as an argument, as the result of an auxiliary
call and as a struct field. What it means there is read off the declarations in
`interface types`.
-/

namespace Wali.Wit

open Py (Str Dict)
open TypeRegistry (IsWidth)

/-- A builtin means itself, a declared name what it is declared as. -/
inductive Denotes (comp : Dict Str WitType) : Str → Str → Prop
  | builtin {t : Str} : t ∈ builtins → Denotes comp t t
  | declared {t u b : Str} :
      t ∉ builtins → comp.get? t = some (.ident u) → Denotes comp u b → Denotes comp t b

/-- The type of an argument, in the signature of a syscall or of an auxiliary call. -/
def argText (R : TypeRegistry) (type : SyscallArg) : Str := resolveArgWit R (witArg type)

/-- The type of the result of an auxiliary call, where one is written. -/
def resultText (R : TypeRegistry) (type : SyscallArg) : Option Str :=
  if type = [] then none else some (resolveArgWit R type)

/-- The three texts for a type are all there and all mean the primitive. -/
def OneMeaning (R : TypeRegistry) (type : Str) (p : Primitive) : Prop :=
  ∃ comp, buildWitCompTypes R = .ok comp ∧ Denotes comp (argText R type) p.witName ∧
    (∃ t, resultText R type = some t ∧ Denotes comp t p.witName) ∧
    ∃ t, fieldTypeToWit R type = .ok (.ident t) ∧ Denotes comp t p.witName

/-- The spelling survives every lookup, and there is something to write. -/
structure Writable (R : TypeRegistry) (type : Str) (p : Primitive) : Prop where
  nonempty : type ≠ []
  noBlank : ' ' ∉ type
  noUnderscore : '_' ∉ type
  builtin : p.witName ∈ builtins
  elements : ∀ a ∈ R.arrayTypes.values, a.elementType ∈ R.cPrimitives.keys

/-- No declared name of the alias chain shares its hyphenation, and the spelling has no white space
around it. -/
structure Unshadowed (R : TypeRegistry) (type : Str) : Prop where
  stripped : Py.strip type = type
  chain : ∀ k ∈ declared R, Relation.ReflTransGen (fun a b => R.nextAlias a = some b) type k →
    Unshared R k

variable {R : TypeRegistry} {comp : Dict Str WitType}

theorem witName_mem_builtins {p : Primitive} (h : IsWidth p.size) : p.witName ∈ builtins := by
  obtain ⟨size, signed⟩ := p
  simp only at h
  rcases h with rfl | rfl | rfl | rfl <;> cases signed <;> decide

theorem Denotes.builtin_or_declared {t b : Str} (h : Denotes comp t b) :
    t ∈ builtins ∨ t ∈ comp.keys := by
  cases h with
  | builtin hb => exact Or.inl hb
  | declared _ hget _ => exact Or.inr (Dict.mem_keys_iff.mpr ⟨_, hget⟩)

/-- Only texts without blanks and underscores mean anything. -/
theorem Denotes.clean (hc : buildWitCompTypes R = .ok comp) {t b : Str} (h : Denotes comp t b) :
    ' ' ∉ t ∧ '_' ∉ t := by
  rcases h.builtin_or_declared with hb | hk
  · exact builtins_clean t hb
  · obtain ⟨k, _, rfl⟩ := (mem_keys_compTypes hc).mp hk
    exact blank_not_mem_toWit k

theorem Denotes.mem_builtins {t b : Str} (h : Denotes comp t b) : b ∈ builtins := by
  induction h with
  | builtin hb => exact hb
  | declared _ _ _ ih => exact ih

theorem nextAlias_eq {t u : Str} (hget : R.cPrimitives.get? t = none)
    (ha : R.typeAliases.get? t = some u) : R.nextAlias t = some u := by
  rw [TypeRegistry.nextAlias, hget, ha]
  rfl

/-- An alias chain of the registry has its counterpart in the declarations. -/
theorem Unshadowed.denotes (hc : buildWitCompTypes R = .ok comp) {t : Str} {p : Primitive}
    (h : Unshadowed R t) (hp : R.resolvePrimitive t = .ok p) (hb : p.witName ∈ builtins) :
    Denotes comp (aliasTarget R t) p.witName := by
  have hchain := h.chain
  clear h
  revert hchain
  refine TypeRegistry.resolvePrimitive_induct hp (fun t hget hchain => ?_)
    fun t u hget ha _ ih hchain => ?_
  · simp only [aliasTarget, hget]
    cases hs : isStdint t with
    | true => exact .builtin hb
    | false =>
      have hone := hchain t (mem_declared_of_primitive hget hs) .refl
      exact .declared hone.1 (hone.get?_primitive hc (mem_namedPrimitives.mpr ⟨hget, hs⟩))
        (.builtin hb)
  · have hone := hchain t (mem_declared_of_alias ha) .refl
    simp only [aliasTarget, hget]
    exact .declared hone.1 (hone.get?_alias hc ha)
      (ih fun k hk hr => hchain k hk (.head (nextAlias_eq hget ha) hr))

theorem aliasTarget_of_clean {t : Str} (hblank : ' ' ∉ t) (hunder : '_' ∉ t) :
    aliasTarget R t = t := by
  unfold aliasTarget
  rw [not_isStdint_of_clean hunder, toWit_of_clean hblank hunder]
  cases R.cPrimitives.get? t <;> rfl

section Clean

variable {t : Str} {p : Primitive} (hp : R.resolvePrimitive t = .ok p) (hblank : ' ' ∉ t)
  (hunder : '_' ∉ t)

include hp hunder

theorem mem_declared_of_clean : t ∈ declared R := by
  rcases TypeRegistry.resolvePrimitive_cases hp with hget | ⟨_, u, ha, _⟩
  · exact mem_declared_of_primitive hget (not_isStdint_of_clean hunder)
  · exact mem_declared_of_alias ha

include hblank

/-- A clean spelling is looked up under its own name. -/
theorem Unshadowed.denotes_resolveArgWit (h : Unshadowed R t) (hc : buildWitCompTypes R = .ok comp)
    (hb : p.witName ∈ builtins) : Denotes comp (resolveArgWit R t) p.witName := by
  unfold resolveArgWit
  cases hget : (basicTypesWit R).get? t with
  | none =>
    rw [Option.getD_none, ← aliasTarget_of_clean hblank hunder]
    exact h.denotes hc hp hb
  | some w =>
    obtain ⟨e, he, hew⟩ := List.mem_map.mp (Dict.mem_of_get?_ofList hget)
    obtain ⟨htoWit, rfl⟩ := Prod.mk.inj hew
    -- the declaration of `e.1` and that of `t` are one
    have hone := h.chain t (mem_declared_of_clean hp hunder) .refl
    have hdecl : comp.get? (toWit t) = some (.ident e.2.witName) := by
      refine hone.get?_compTypes hc fun es hes => ?_
      obtain ⟨arrays, _, rfl⟩ := compEntries_parts hes
      refine List.mem_append_left _ (List.mem_append_left _ (List.mem_map.mpr ⟨e, he, ?_⟩))
      rw [htoWit, toWit_of_clean hblank hunder]
    have hden := h.denotes hc hp hb
    rw [aliasTarget_of_clean hblank hunder] at hden
    have hnb : toWit t ∉ builtins := hone.1
    rw [toWit_of_clean hblank hunder] at hdecl hnb
    cases hden with
    | builtin hmem => exact absurd hmem hnb
    | declared _ hget' hrest =>
      rw [hdecl] at hget'
      obtain rfl := WitType.ident.inj (Option.some.inj hget')
      exact hrest

omit hp in
theorem Unshadowed.witArg_eq (h : Unshadowed R t) (hval : SyscallArg.ByValue t) : witArg t = t := by
  have hstars : Py.rstripChar '*' t = t := Py.rstripChar_of_not_endsWith hval.1
  rw [witArg, h.stripped, toWit_of_clean hblank hunder, transformPtrArg, hval.2, hstars,
    Nat.sub_self]
  rfl

theorem fieldTypeToWit_of_clean (hval : SyscallArg.ByValue t) :
    fieldTypeToWit R t = .ok (.ident t) := by
  by_cases hk : t ∈ R.typeAliases.keys ∨ t ∈ R.arrayTypes.keys ∨ t ∈ R.structDefs.keys
  · rw [fieldTypeToWit_of_named hval.1 hk, toWit_of_clean hblank hunder]
  · rcases TypeRegistry.resolvePrimitive_cases hp with hget | ⟨_, u, ha, _⟩
    · rw [fieldTypeToWit_of_primitive hval.1 hk hget, not_isStdint_of_clean hunder,
        toWit_of_clean hblank hunder]
      rfl
    · exact absurd (Or.inl (Dict.mem_keys_iff.mpr ⟨u, ha⟩)) hk

end Clean

/-- The result is looked up as it is spelled, among hyphenated names. -/
theorem clean_of_resolveArgWit (hc : buildWitCompTypes R = .ok comp) {t b : Str}
    (h : Denotes comp (resolveArgWit R t) b) : ' ' ∉ t ∧ '_' ∉ t := by
  unfold resolveArgWit at h
  cases hget : (basicTypesWit R).get? t with
  | none =>
    rw [hget] at h
    exact h.clean hc
  | some w =>
    obtain ⟨e, _, rfl⟩ := mem_keys_basicTypes.mp (Dict.mem_keys_iff.mpr ⟨w, hget⟩)
    exact blank_not_mem_toWit e.1

theorem OneMeaning.writable {t : Str} {p : Primitive} (h : OneMeaning R t p) : Writable R t p := by
  obtain ⟨comp, hc, _, ⟨u, hu, hden⟩, _⟩ := h
  unfold resultText at hu
  split at hu
  · cases hu
  · next hne =>
    obtain rfl := Option.some.inj hu
    obtain ⟨hblank, hunder⟩ := clean_of_resolveArgWit hc hden
    exact ⟨hne, hblank, hunder, hden.mem_builtins, fun _ => elements_of_buildWitCompTypes hc⟩

/-- A scalar type has one meaning only if its spelling is writable; where no other declaration
shares a name with it, that is all it takes. -/
theorem oneMeaning_iff (R : TypeRegistry) (t : Str) (p : Primitive)
    (hp : R.resolvePrimitive t = .ok p) (hval : SyscallArg.ByValue t) :
    (OneMeaning R t p → Writable R t p) ∧
      (Unshadowed R t → (OneMeaning R t p ↔ Writable R t p)) := by
  refine ⟨OneMeaning.writable, fun h => ⟨OneMeaning.writable, fun hw => ?_⟩⟩
  obtain ⟨comp, hc⟩ := buildWitCompTypes_ok hw.elements
  have hden := h.denotes_resolveArgWit hp hw.noBlank hw.noUnderscore hc hw.builtin
  refine ⟨comp, hc, ?_, ⟨_, if_neg hw.nonempty, hden⟩, t,
    fieldTypeToWit_of_clean hp hw.noBlank hw.noUnderscore hval, ?_⟩
  · rw [argText, h.witArg_eq hw.noBlank hw.noUnderscore hval]
    exact hden
  · have hfield := h.denotes hc hp hw.builtin
    rwa [aliasTarget_of_clean hw.noBlank hw.noUnderscore] at hfield

theorem oneMeaning_iff_long :
    OneMeaning TypeRegistry.shippedBare "long" ⟨8, true⟩ := by
  have hall : ∀ k ∈ declared TypeRegistry.shippedBare, Unshared TypeRegistry.shippedBare k := by
    decide +kernel
  exact ((oneMeaning_iff TypeRegistry.shippedBare "long" ⟨8, true⟩ (by decide +kernel)
    ⟨by decide, by decide⟩).2 ⟨by decide, fun k hk _ => hall k hk⟩).mpr
    ⟨by decide, by decide, by decide, by decide +kernel, by decide +kernel⟩

/-- The shipped `__cl_get_argc` returns an `unsigned int`, which is written with its blank; a
`uint32_t` argument is written as a name that nothing declares. -/
theorem oneMeaning_unsigned_int :
    TypeRegistry.shippedBare.validate = .ok () ∧
      TypeRegistry.shippedBare.resolvePrimitive "unsigned int" = .ok ⟨4, false⟩ ∧
      resultText TypeRegistry.shippedBare "unsigned int" = some "unsigned int" ∧
      argText TypeRegistry.shippedBare "uint32_t" = "uint32-t" ∧
      (∀ comp, buildWitCompTypes TypeRegistry.shippedBare = .ok comp →
        ("unsigned int" : String).toList ∉ builtins ++ comp.keys ∧
        ("uint32-t" : String).toList ∉ builtins ++ comp.keys) ∧
      ¬ OneMeaning TypeRegistry.shippedBare "unsigned int" ⟨4, false⟩ := by
  have hundeclared : ∀ comp, buildWitCompTypes TypeRegistry.shippedBare = .ok comp →
      ("unsigned int" : String).toList ∉ builtins ++ comp.keys ∧
      ("uint32-t" : String).toList ∉ builtins ++ comp.keys := by
    intro comp hc
    rw [List.mem_append, List.mem_append, mem_keys_compTypes hc, mem_keys_compTypes hc]
    decide +kernel
  have hresult : resultText TypeRegistry.shippedBare "unsigned int" = some "unsigned int" := by
    decide +kernel
  refine ⟨by decide +kernel, by decide +kernel, hresult, by decide +kernel, hundeclared, ?_⟩
  rintro ⟨comp, hc, _, ⟨t, ht, hden⟩, _⟩
  obtain rfl := Option.some.inj (hresult.symm.trans ht)
  exact (hundeclared comp hc).1 (List.mem_append.mpr hden.builtin_or_declared)

end Wali.Wit
