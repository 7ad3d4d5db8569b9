import Wali.Abi.Resolve

/-!
# Termination of the resolvers

The three resolvers recurse through the tables without making the name shorter: an alias may stand
for a longer name. They end because an alias or array table that has no cycle is a finite path, and
between two table lookups only array suffixes are cut off.
-/

namespace Wali.TypeRegistry

open Py (Str Dict)
open Relation (TransGen ReflTransGen)

/-- A recursion that ends with a result: at every depth from some depth on it gives the result, and
the result is not that the recursion was cut off. -/
def Ends {α : Type} (call : ℕ → Except Py.Error α) (result : Except Py.Error α) : Prop :=
  result ≠ .error .recursionError ∧ ∃ d, ∀ n ≥ d, call n = result

variable (R : TypeRegistry)

/-- No alias and no array type leads back to itself through alias targets, array elements and
elements of inline arrays. -/
def Acyclic : Prop :=
  ∀ k, k ∈ R.typeAliases.keys ∨ k ∈ R.arrayTypes.keys → ¬ TransGen (fun t u => R.next t = some u) k k

variable {R}

/-- A resolution that goes on makes the name shorter or has been at a table entry. -/
theorem shorter_or_entry {t u : Str} (h : TransGen (fun t u => R.next t = some u) t u) :
    u.length < t.length ∨ ∃ k, (k ∈ R.typeAliases.keys ∨ k ∈ R.arrayTypes.keys) ∧
      ReflTransGen (fun t u => R.next t = some u) t k ∧
      TransGen (fun t u => R.next t = some u) k u := by
  have hstep : ∀ {t u : Str}, R.next t = some u →
      u.length < t.length ∨ t ∈ R.typeAliases.keys ∨ t ∈ R.arrayTypes.keys := by
    intro t u hu
    rcases R.next_cases hu with hs | ⟨a, hs, _⟩ | ⟨count, hs⟩
    · exact Or.inr (Or.inl (Dict.mem_keys_iff.mpr ⟨u, (shape_aliasTo hs).2.2⟩))
    · exact Or.inr (Or.inr (Dict.mem_keys_iff.mpr ⟨a, (shape_arrayOf hs).2.2.2⟩))
    · exact Or.inl (parseInlineArray_elem (shape_inlineArray hs).2.2.2.2.2).2
  induction h using TransGen.head_induction_on with
  | single hu =>
    rcases hstep hu with hlt | hkey
    · exact Or.inl hlt
    · exact Or.inr ⟨_, hkey, .refl, .single hu⟩
  | head hu hrest ih =>
    rcases hstep hu with hlt | hkey
    · rcases ih with hlt' | ⟨k, hkey, hto, hfrom⟩
      · exact Or.inl (hlt'.trans hlt)
      · exact Or.inr ⟨k, hkey, .head hu hto, hfrom⟩
    · exact Or.inr ⟨_, hkey, .refl, .head hu hrest⟩

/-- Without a cycle in the tables no resolution comes back to a name. -/
theorem Acyclic.not_transGen (h : R.Acyclic) (t : Str) :
    ¬ TransGen (fun t u => R.next t = some u) t t := by
  intro hcycle
  rcases shorter_or_entry hcycle with hlt | ⟨k, hkey, hto, hfrom⟩
  · exact lt_irrefl _ hlt
  · exact h k hkey (hfrom.trans_left hto)

theorem Acyclic.stops (h : R.Acyclic) (t : Str) : Chase.Stops R.next t := by
  obtain ⟨S, ht, hclosed, _⟩ := R.exists_closed (fun _ _ => R.next_targets) t
  exact Chase.stops_of_acyclic hclosed (fun s _ => h.not_transGen s) ht

/-- Where the keys are not spelled like pointers, an alias chain is part of a resolution. -/
theorem next_of_nextAlias (hstar : ∀ k ∈ R.typeAliases.keys, Py.endsWith k "*" = false) {t u : Str}
    (h : R.nextAlias t = some u) : R.next t = some u := by
  rw [nextAlias] at h
  cases hp : R.cPrimitives.get? t with
  | some p => rw [hp] at h; cases h
  | none =>
    rw [hp] at h
    rw [next, R.shape_of_alias (hstar t (Dict.mem_keys_iff.mpr ⟨u, h⟩)) hp h]
    rfl

/-- A fold that cannot come out as cut off ends where its chase stops. -/
theorem ends_of_stops {α : Type} {nxt : Str → Option Str} {stop : Str → Except Py.Error α}
    {more : Str → Except Py.Error α → Except Py.Error α} {call : ℕ → Str → Except Py.Error α}
    (hcall : ∀ n t, call n t = Chase.fold nxt stop more (.error .recursionError) n t)
    (hb : Chase.Adequate nxt R.depthBound) (hstop : ∀ t, stop t ≠ .error .recursionError)
    (hmore : ∀ t r, r ≠ .error .recursionError → more t r ≠ .error .recursionError)
    {t : Str} (h : Chase.Stops nxt t) : Ends (call · t) (call (R.depthBound t) t) := by
  obtain ⟨k, hk⟩ := Chase.stops_iff.mp h
  refine ⟨?_, k + 1, fun n hn => ?_⟩
  · rw [hcall]
    exact Chase.fold_ne_out _ _ _ hstop hmore hk (hb t k hk)
  · change call n t = _
    rw [hcall, hcall, Chase.fold_of_stopsIn _ _ _ hk hn, Chase.fold_of_stopsIn _ _ _ hk (hb t k hk)]

theorem ptrSize_ne_recursionError : R.ptrSize ≠ .error .recursionError := by
  rw [ptrSize]
  cases R.cPrimitives.get? "ptr" <;> simp

theorem endSize_ne_recursionError (t : Str) : R.endSize t ≠ .error .recursionError := by
  rw [endSize]
  cases R.shape t with
  | pointer => exact ptrSize_ne_recursionError
  | _ => simp

theorem endAlignment_ne_recursionError (t : Str) : R.endAlignment t ≠ .error .recursionError := by
  rw [endAlignment]
  cases R.shape t with
  | pointer => exact ptrSize_ne_recursionError
  | _ => simp

theorem endPrimitive_ne_recursionError (t : Str) : R.endPrimitive t ≠ .error .recursionError := by
  rw [endPrimitive]
  cases R.cPrimitives.get? t <;> simp

/-- Sizes and alignments are found for the same names, in every registry. -/
theorem resolves_iff_alignment {t : Str} : R.Resolves t ↔ ∃ a, R.resolveAlignment t = .ok a := by
  refine ⟨Resolves.alignment, ?_⟩
  rintro ⟨a, ha⟩
  have hstops : Chase.Stops R.next t := by
    rw [resolveAlignment, resolveAlignmentIn_eq_fold] at ha
    exact Chase.stops_of_fold_eq _ _ _ (fun _ => rfl) ha (by simp)
  induction hstops with
  | @here t hn =>
    rw [resolveAlignment_eq] at ha
    cases hs : R.shape t with
    | pointer =>
      rw [hs] at ha
      exact ⟨a, by rw [resolveSize_eq, hs]; exact ha⟩
    | primitive p => exact resolves_of_primitive hs
    | struct sd => exact resolves_of_struct hs
    | aliasTo target => rw [next, hs] at hn; cases hn
    | arrayOf b => rw [next, hs] at hn; cases hn
    | inlineArray count elem => rw [next, hs] at hn; cases hn
    | unknown => rw [hs] at ha; cases ha
  | @move t u hn _ ih =>
    rw [resolveAlignment_of_next hn] at ha
    exact resolves_of_next hn (ih ha)

/-- A name of a primitive has the size of the primitive, and is aligned to it. -/
theorem resolve_of_resolvePrimitive (hprim : ∀ k ∈ R.cPrimitives.keys, Py.endsWith k "*" = false)
    (halias : ∀ k ∈ R.typeAliases.keys, Py.endsWith k "*" = false) {t : Str} {p : Primitive}
    (h : R.resolvePrimitive t = .ok p) :
    R.resolveSize t = .ok p.size ∧ R.resolveAlignment t = .ok p.size := by
  refine resolvePrimitive_induct h (fun t hp => ?_) (fun t u hp ha _ ih => ?_)
  · have hs := R.shape_of_primitive (hprim t (Dict.mem_keys_iff.mpr ⟨p, hp⟩)) hp
    rw [resolveSize_eq, resolveAlignment_eq, hs]
    exact ⟨rfl, rfl⟩
  · have hs := R.shape_of_alias (halias t (Dict.mem_keys_iff.mpr ⟨u, ha⟩)) hp ha
    rw [resolveSize_eq, resolveAlignment_eq, hs]
    exact ih

/-- **The resolvers end together and agree**: without a cycle in the tables and with keys that are
not spelled like pointers, on every string. -/
theorem resolvers_end (R : TypeRegistry) (hac : R.Acyclic)
    (hprim : ∀ k ∈ R.cPrimitives.keys, Py.endsWith k "*" = false)
    (halias : ∀ k ∈ R.typeAliases.keys, Py.endsWith k "*" = false) (t : Str) :
    Ends (R.resolveSizeIn · t) (R.resolveSize t) ∧
    Ends (R.resolveAlignmentIn · t) (R.resolveAlignment t) ∧
    Ends (R.resolvePrimitiveIn · t) (R.resolvePrimitive t) ∧
    ((∃ n, R.resolveSize t = .ok n) ↔ ∃ a, R.resolveAlignment t = .ok a) ∧
    ∀ p, R.resolvePrimitive t = .ok p →
      R.resolveSize t = .ok p.size ∧ R.resolveAlignment t = .ok p.size := by
  refine ⟨?_, ?_, ?_, resolves_iff_alignment, fun p => resolve_of_resolvePrimitive hprim halias⟩
  · refine ends_of_stops R.resolveSizeIn_eq_fold R.next_adequate endSize_ne_recursionError ?_
      (hac.stops t)
    intro t r hr
    cases r with
    | ok n => simp [Except.map]
    | error e => exact hr
  · exact ends_of_stops R.resolveAlignmentIn_eq_fold R.next_adequate endAlignment_ne_recursionError
      (fun _ _ hr => hr) (hac.stops t)
  · exact ends_of_stops R.resolvePrimitiveIn_eq_fold R.nextAlias_adequate
      endPrimitive_ne_recursionError (fun _ _ hr => hr) ((hac.stops t).mono fun _ _ => next_of_nextAlias halias)

/-- A resolution that succeeds does not come back to where it started. -/
theorem Resolves.not_transGen {t : Str} (h : R.Resolves t) :
    ¬ TransGen (fun t u => R.next t = some u) t t := by
  refine h.induct (fun t _ hend hcycle => ?_) (fun t u _ hu _ ih hcycle => ?_)
  · obtain ⟨u, hu, _⟩ := TransGen.head'_iff.mp hcycle
    rw [hend] at hu
    cases hu
  · -- the cycle through `t` goes on to `u`, so it is a cycle through `u` as well
    obtain ⟨v, hv, hback⟩ := TransGen.head'_iff.mp hcycle
    obtain rfl := Option.some.inj (hu.symm.trans hv)
    exact ih (TransGen.tail' hback hu)

/-- An alias for an array of an alias for an array. -/
def matrixAliases : TypeRegistry :=
  bare shippedPrimitives ⟨[("matrix_t", "row_t[4]"), ("row_t", "cell_t[3]"), ("cell_t", "long long")],
    by decide⟩ .empty

theorem resolvers_end_matrix :
    Ends (matrixAliases.resolveSizeIn · "matrix_t[2]") (.ok 192) ∧
      Ends (matrixAliases.resolveAlignmentIn · "matrix_t[2]") (.ok 8) ∧
      (∃ p, matrixAliases.resolvePrimitive "cell_t" = .ok p ∧
        matrixAliases.resolveSize "cell_t" = .ok p.size) := by
  have hac : matrixAliases.Acyclic := by
    have hres : ∀ k, k ∈ matrixAliases.typeAliases.keys ∨ k ∈ matrixAliases.arrayTypes.keys →
        (matrixAliases.resolveSize k).toOption.isSome = true := by
      rintro k (hk | hk)
      · revert k
        decide +kernel
      · cases hk
    intro k hk
    obtain ⟨n, hn⟩ := Option.isSome_iff_exists.mp (hres k hk)
    exact Resolves.not_transGen ⟨n, by
      cases h : matrixAliases.resolveSize k with
      | ok m => rw [h] at hn; exact congrArg _ (Option.some.inj hn)
      | error e => rw [h] at hn; cases hn⟩
  have hprim : ∀ k ∈ matrixAliases.cPrimitives.keys, Py.endsWith k "*" = false := by decide +kernel
  have halias : ∀ k ∈ matrixAliases.typeAliases.keys, Py.endsWith k "*" = false := by decide +kernel
  obtain ⟨hsize, halign, _⟩ := resolvers_end matrixAliases hac hprim halias "matrix_t[2]"
  have hcell := (resolvers_end matrixAliases hac hprim halias "cell_t").2.2.2.2 ⟨8, true⟩
    (by decide +kernel)
  exact ⟨by rwa [show matrixAliases.resolveSize "matrix_t[2]" = .ok 192 by decide +kernel] at hsize,
    by rwa [show matrixAliases.resolveAlignment "matrix_t[2]" = .ok 8 by decide +kernel] at halign,
    ⟨8, true⟩, by decide +kernel, hcell.1⟩

end Wali.TypeRegistry
