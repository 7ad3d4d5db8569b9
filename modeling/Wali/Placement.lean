import Mathlib.Algebra.Order.Group.Nat
import Mathlib.Data.List.Basic
import Mathlib.Tactic.Common

/-!
# Items placed on a line

Lists of items with offsets. `Fills` says that the items lie in an interval, in order and without
overlap; `Natural` says that every item sits at a multiple of its own size. Both survive the ways
in which layouts are nested: shifting, laying side by side and repeating at a stride.
-/

namespace Wali.Placement

structure Placed (α : Type*) where
  offset : ℕ
  item : α
deriving DecidableEq

variable {α : Type*}

def Placed.shift (d : ℕ) (x : Placed α) : Placed α := ⟨d + x.offset, x.item⟩

/-- Consecutive copies, `stride` apart. -/
def copies (stride count : ℕ) (xs : List (Placed α)) : List (Placed α) :=
  (List.range count).flatMap fun i => xs.map (Placed.shift (i * stride))

theorem map_shift_zero (xs : List (Placed α)) : xs.map (Placed.shift 0) = xs := by
  have h : (Placed.shift 0 : Placed α → Placed α) = id := by
    funext x
    simp only [Placed.shift, Nat.zero_add, id]
  rw [h, List.map_id]

@[simp]
theorem copies_one (stride : ℕ) (xs : List (Placed α)) : copies stride 1 xs = xs := by
  simp only [copies, List.range_one, List.flatMap_singleton, Nat.zero_mul, map_shift_zero]

theorem copies_succ (stride count : ℕ) (xs : List (Placed α)) :
    copies stride (count + 1) xs =
      copies stride count xs ++ xs.map (Placed.shift (count * stride)) := by
  simp only [copies, List.range_succ, List.flatMap_append, List.flatMap_singleton]

theorem map_item_shift (d : ℕ) (xs : List (Placed α)) :
    (xs.map (Placed.shift d)).map Placed.item = xs.map Placed.item := by
  rw [List.map_map]
  rfl

theorem map_item_copies (stride count : ℕ) (xs : List (Placed α)) :
    (copies stride count xs).map Placed.item =
      (List.replicate count (xs.map Placed.item)).flatten := by
  induction count with
  | zero => rfl
  | succ n ih =>
    rw [copies_succ, List.map_append, ih, map_item_shift, List.replicate_succ', List.flatten_append,
      List.flatten_singleton]

section Sized

variable (size : α → ℕ)

/-- The items lie between `lo` and `hi`, in order and without overlap. -/
def Fills : ℕ → ℕ → List (Placed α) → Prop
  | lo, hi, [] => lo ≤ hi
  | lo, hi, x :: xs => lo ≤ x.offset ∧ Fills (x.offset + size x.item) hi xs

/-- Every item sits at a multiple of its size, and the sizes divide `a`. -/
def Natural (a : ℕ) (xs : List (Placed α)) : Prop :=
  ∀ x ∈ xs, size x.item ∣ x.offset ∧ size x.item ∣ a

variable {size} {lo mid hi a b d : ℕ} {xs ys : List (Placed α)}

theorem Fills.le (h : Fills size lo hi xs) : lo ≤ hi := by
  induction xs generalizing lo with
  | nil => exact h
  | cons x xs ih =>
    have := ih h.2
    have := h.1
    omega

theorem Fills.append (hx : Fills size lo mid xs) (hy : Fills size mid hi ys) :
    Fills size lo hi (xs ++ ys) := by
  induction xs generalizing lo with
  | nil =>
    cases ys with
    | nil => exact Nat.le_trans hx hy
    | cons y ys => exact ⟨Nat.le_trans hx hy.1, hy.2⟩
  | cons x xs ih => exact ⟨hx.1, ih hx.2⟩

theorem Fills.shift (d : ℕ) (h : Fills size lo hi xs) :
    Fills size (d + lo) (d + hi) (xs.map (Placed.shift d)) := by
  induction xs generalizing lo with
  | nil => exact Nat.add_le_add_left h d
  | cons x xs ih =>
    refine ⟨Nat.add_le_add_left h.1 d, ?_⟩
    have hrest := ih h.2
    rwa [← Nat.add_assoc] at hrest

/-- Room may be added on both sides. -/
theorem Fills.widen {lo' hi' : ℕ} (h : Fills size lo hi xs) (hlo : lo' ≤ lo) (hhi : hi ≤ hi') :
    Fills size lo' hi' xs := by
  have hl : Fills size lo' lo ([] : List (Placed α)) := hlo
  have hr : Fills size hi hi' ([] : List (Placed α)) := hhi
  simpa using (hl.append h).append hr

theorem Fills.copies {stride : ℕ} (h : Fills size 0 stride xs) (count : ℕ) :
    Fills size 0 (count * stride) (copies stride count xs) := by
  induction count with
  | zero => exact Nat.zero_le _
  | succ n ih =>
    rw [copies_succ, Nat.succ_mul]
    exact ih.append (h.shift (n * stride))

theorem Fills.mem (h : Fills size lo hi xs) {x : Placed α} (hx : x ∈ xs) :
    lo ≤ x.offset ∧ x.offset + size x.item ≤ hi := by
  induction xs generalizing lo with
  | nil => cases hx
  | cons y ys ih =>
    rcases List.mem_cons.mp hx with rfl | hx
    · exact ⟨h.1, h.2.le⟩
    · have := ih h.2 hx
      have := h.1
      omega

theorem Fills.pairwise (h : Fills size lo hi xs) :
    xs.Pairwise fun x y => x.offset + size x.item ≤ y.offset := by
  induction xs generalizing lo with
  | nil => exact .nil
  | cons x xs ih => exact .cons (fun y hy => (h.2.mem hy).1) (ih h.2)

theorem Natural.append (hx : Natural size a xs) (hy : Natural size a ys) :
    Natural size a (xs ++ ys) := by
  intro z hz
  rcases List.mem_append.mp hz with hz | hz
  · exact hx z hz
  · exact hy z hz

theorem Natural.of_dvd (h : Natural size a xs) (hab : a ∣ b) : Natural size b xs :=
  fun x hx => ⟨(h x hx).1, Nat.dvd_trans (h x hx).2 hab⟩

theorem Natural.shift (h : Natural size a xs) (hd : a ∣ d) :
    Natural size a (xs.map (Placed.shift d)) := by
  intro y hy
  obtain ⟨x, hx, rfl⟩ := List.mem_map.mp hy
  exact ⟨Nat.dvd_add (Nat.dvd_trans (h x hx).2 hd) (h x hx).1, (h x hx).2⟩

/-- Copies stay aligned when the stride is a multiple of the alignment. -/
theorem Natural.copies {stride : ℕ} (h : Natural size a xs) (hs : a ∣ stride) (count : ℕ) :
    Natural size a (copies stride count xs) := by
  intro y hy
  obtain ⟨i, _, hi⟩ := List.mem_flatMap.mp hy
  exact h.shift (Nat.dvd_mul_left_of_dvd hs i) y hi

end Sized

end Wali.Placement
