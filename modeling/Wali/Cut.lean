import Mathlib.Data.List.TakeWhile

/-!
# Cutting and joining lists

A list is cut in front of the first element with a property. An element known to have it separates:
the cut is at it or in front of it, whatever is behind. What holds of some lists and gets across a
separator holds of them joined.
-/

namespace Cut

section Property

variable {α : Type*} {p : α → Bool} {c : α}

theorem takeWhile_append_cons (hc : p c = false) (a b : List α) :
    (a ++ c :: b).takeWhile p = a.takeWhile p := by
  induction a with
  | nil => exact List.takeWhile_cons_of_neg (by rw [hc]; decide)
  | cons d a ih => rw [List.cons_append, List.takeWhile_cons, List.takeWhile_cons, ih]

theorem dropWhile_append_cons (hc : p c = false) (a b : List α) :
    (a ++ c :: b).dropWhile p = a.dropWhile p ++ c :: b := by
  induction a with
  | nil => exact List.dropWhile_cons_of_neg (by rw [hc]; decide)
  | cons d a ih =>
    rw [List.cons_append, List.dropWhile_cons, List.dropWhile_cons, ih]
    split
    · rfl
    · rfl

end Property

section Element

variable {α : Type*} [DecidableEq α] {x : α} {a : List α}

theorem takeWhile_bne (h : x ∉ a) : a.takeWhile (· != x) = a := by
  refine List.takeWhile_eq_self_iff.mpr fun y hy => bne_iff_ne.mpr ?_
  rintro rfl
  exact h hy

theorem takeWhile_bne_append_cons (h : x ∉ a) (b : List α) : (a ++ x :: b).takeWhile (· != x) = a := by
  rw [takeWhile_append_cons (by simp), takeWhile_bne h]

theorem dropWhile_bne_append_cons (h : x ∉ a) (b : List α) :
    (a ++ x :: b).dropWhile (· != x) = x :: b := by
  have hcut := List.takeWhile_append_dropWhile (p := (· != x)) (l := a ++ x :: b)
  rw [takeWhile_bne_append_cons h] at hcut
  exact List.append_cancel_left hcut

end Element

theorem intercalate_induction {α : Type*} {P : List α → Prop} {sep : List α} (hnil : P [])
    (hsep : ∀ a b, P a → P b → P (a ++ sep ++ b)) {parts : List (List α)} (h : ∀ a ∈ parts, P a) :
    P (sep.intercalate parts) := by
  induction parts with
  | nil => exact hnil
  | cons a parts ih =>
    obtain ⟨ha, hparts⟩ := List.forall_mem_cons.mp h
    cases parts with
    | nil => rwa [List.intercalate_singleton]
    | cons b parts =>
      rw [List.intercalate_cons_cons]
      exact hsep _ _ ha (ih hparts)

end Cut
