import Mathlib.Data.List.Basic

/-!
# `qsort`

What the C library promises: an array is sorted if the comparison function orders its elements. With
any other comparison function the array may hold anything afterwards.
-/

namespace Clib

variable {α : Type*}

/-- A comparison function orders the elements of an array. -/
structure Orders (cmp : α → α → Int32) (xs : List α) : Prop where
  swap : ∀ x ∈ xs, ∀ y ∈ xs, cmp x y < 0 ↔ 0 < cmp y x
  trans : ∀ x ∈ xs, ∀ y ∈ xs, ∀ z ∈ xs, cmp x y ≤ 0 → cmp y z ≤ 0 → cmp x z ≤ 0

structure Qsort (α : Type*) where
  sort : (α → α → Int32) → List α → List α
  sorts : ∀ cmp xs, Orders cmp xs →
    (sort cmp xs).Perm xs ∧ (sort cmp xs).Pairwise fun x y => cmp x y ≤ 0

theorem Orders.total {cmp : α → α → Int32} {xs : List α} (h : Orders cmp xs) {x y : α} (hx : x ∈ xs)
    (hy : y ∈ xs) : cmp x y ≤ 0 ∨ cmp y x ≤ 0 := by
  by_cases hlt : 0 < cmp y x
  · exact Or.inl (Int32.le_of_lt ((h.swap x hx y hy).mpr hlt))
  · exact Or.inr (Int32.not_lt.mp hlt)

theorem pairwise_mergeSort_of_orders {cmp : α → α → Int32} {xs : List α} (h : Orders cmp xs) :
    (xs.mergeSort fun x y => decide (cmp x y ≤ 0)).Pairwise fun x y => cmp x y ≤ 0 := by
  -- the order is one of the elements of the array, so the array of these is sorted
  let le : {x // x ∈ xs} → {x // x ∈ xs} → Bool := fun x y => decide (cmp x.1 y.1 ≤ 0)
  have hmap : (xs.attach.mergeSort le).map Subtype.val = xs.mergeSort fun x y => decide (cmp x y ≤ 0) := by
    have hmap := List.map_mergeSort (f := Subtype.val) (l := xs.attach) (r := le)
      (s := fun x y => decide (cmp x y ≤ 0)) fun _ _ _ _ => rfl
    rwa [List.attach_map_subtype_val] at hmap
  have hsorted : (xs.attach.mergeSort le).Pairwise fun x y => le x y = true := by
    refine List.pairwise_mergeSort (fun x y z => ?_) (fun x y => ?_) xs.attach
    · simpa [le] using h.trans x.1 x.2 y.1 y.2 z.1 z.2
    · simpa [le] using h.total x.2 y.2
  rw [← hmap, List.pairwise_map]
  exact hsorted.imp fun h => of_decide_eq_true h

/-- Merge sort keeps the promise. -/
def mergeQsort : Qsort α where
  sort := fun cmp xs => xs.mergeSort fun x y => decide (cmp x y ≤ 0)
  sorts := fun _ _ h => ⟨List.mergeSort_perm _ _, pairwise_mergeSort_of_orders h⟩

end Clib
