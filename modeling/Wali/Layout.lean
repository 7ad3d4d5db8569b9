import Mathlib.Data.Int.Bitwise
import Mathlib.Data.Nat.Bitwise
import Mathlib.Order.Bounds.Basic
import Mathlib.Order.MinMax
import Mathlib.Data.List.Forall2

/-!
# Placing slots one after the other

A slot has a size, an alignment and possibly a position it is fixed to. A
placement gives every slot an offset such that slots do not overlap, fixed
slots are where they are fixed to and the others are aligned. The greedy
placement puts each slot at the first position the rounding function offers;
where that function rounds correctly the greedy placement is the least one, and
no placement exists at all when a fixed slot lies before the running end.

## Main definitions

- `maskUp` — rounding by masking the low bits, as on Python integers
- `RoundsTo` — a rounding function yields the least multiple from a position on
- `Fits` — the placements of a list of slots
- `offsets`, `finish`, `Clear` — the greedy placement, its end, its success
-/

namespace Layout

/-- `(x + a - 1) & ~(a - 1)` on unbounded two's complement integers. For natural `x` and `a` the
value is never negative, so that nothing is lost in going back to `ℕ`. -/
def maskUp (x a : ℕ) : ℕ := (Int.land ((x : ℤ) + a - 1) (Int.lnot ((a : ℤ) - 1))).toNat

/-- `up` rounds every position up to the next multiple of `a`. -/
def RoundsTo (up : ℕ → ℕ → ℕ) (a : ℕ) : Prop := ∀ p, IsLeast {m | a ∣ m ∧ p ≤ m} (up p a)

theorem RoundsTo.dvd {up : ℕ → ℕ → ℕ} {a : ℕ} (h : RoundsTo up a) (p : ℕ) : a ∣ up p a := (h p).1.1

theorem RoundsTo.le {up : ℕ → ℕ → ℕ} {a : ℕ} (h : RoundsTo up a) (p : ℕ) : p ≤ up p a := (h p).1.2

theorem RoundsTo.le_of_dvd {up : ℕ → ℕ → ℕ} {a p m : ℕ} (h : RoundsTo up a) (hm : a ∣ m)
    (hp : p ≤ m) : up p a ≤ m := (h p).2 ⟨hm, hp⟩

theorem ldiff_two_pow_sub_one (n k : ℕ) : Nat.ldiff n (2 ^ k - 1) = n / 2 ^ k * 2 ^ k := by
  apply Nat.eq_of_testBit_eq
  intro i
  rw [Nat.testBit_ldiff, Nat.testBit_two_pow_sub_one, ← Nat.shiftRight_eq_div_pow,
    ← Nat.shiftLeft_eq, Nat.testBit_shiftLeft, Nat.testBit_shiftRight]
  by_cases h : i < k
  · have hk : ¬ k ≤ i := by omega
    simp [h, hk]
  · have hk : k ≤ i := by omega
    simp [hk, h]

theorem maskUp_eq_ldiff (x : ℕ) {a : ℕ} (ha : 0 < a) :
    maskUp x a = Nat.ldiff (x + a - 1) (a - 1) := by
  have h1 : (x : ℤ) + a - 1 = ((x + a - 1 : ℕ) : ℤ) := by omega
  have h2 : (a : ℤ) - 1 = ((a - 1 : ℕ) : ℤ) := by omega
  rw [maskUp, h1, h2]
  rfl

/-- The mask rounds correctly for powers of two. -/
theorem maskUp_roundsTo (k : ℕ) : RoundsTo maskUp (2 ^ k) := by
  intro p
  have hpos : 0 < 2 ^ k := Nat.two_pow_pos k
  rw [maskUp_eq_ldiff p hpos, ldiff_two_pow_sub_one]
  have hdiv := Nat.div_add_mod (p + 2 ^ k - 1) (2 ^ k)
  have hmod := Nat.mod_lt (p + 2 ^ k - 1) hpos
  rw [Nat.mul_comm] at hdiv
  refine ⟨⟨Nat.dvd_mul_left _ _, by omega⟩, ?_⟩
  rintro m ⟨⟨c, rfl⟩, hp⟩
  rw [Nat.mul_comm (2 ^ k) c]
  apply Nat.mul_le_mul_right
  have hlt : p + 2 ^ k - 1 < 2 ^ k * (c + 1) := by rw [Nat.mul_add]; omega
  have := Nat.div_lt_of_lt_mul hlt
  omega

structure Slot where
  size : ℕ
  align : ℕ
  fixed : Option ℤ

/-- The offsets a slot may have, its neighbours aside. -/
def Slot.Admits (s : Slot) (o : ℕ) : Prop :=
  match s.fixed with
  | some x => (o : ℤ) = x
  | none => s.align ∣ o

instance (s : Slot) (o : ℕ) : Decidable (s.Admits o) :=
  match h : s.fixed with
  | some x => decidable_of_iff ((o : ℤ) = x) (by rw [Slot.Admits, h])
  | none => decidable_of_iff (s.align ∣ o) (by rw [Slot.Admits, h])

/-- The offsets place the slots from position `p` on, in order and without overlap. -/
def Fits : ℕ → List Slot → List ℕ → Prop
  | _, [], [] => True
  | p, s :: ss, o :: os => p ≤ o ∧ s.Admits o ∧ Fits (o + s.size) ss os
  | _, _, _ => False

instance decidableFits : ∀ (p : ℕ) (ss : List Slot) (os : List ℕ), Decidable (Fits p ss os)
  | _, [], [] => isTrue trivial
  | p, s :: ss, o :: os =>
    have := decidableFits (o + s.size) ss os
    inferInstanceAs (Decidable (p ≤ o ∧ s.Admits o ∧ Fits (o + s.size) ss os))
  | _, [], _ :: _ => isFalse id
  | _, _ :: _, [] => isFalse id

/-- The greatest alignment of the slots, at least one. -/
def maxAlign (ss : List Slot) : ℕ := ss.foldr (fun s a => max s.align a) 1

theorem one_le_maxAlign (ss : List Slot) : 1 ≤ maxAlign ss := by
  induction ss with
  | nil => exact le_rfl
  | cons s ss ih => exact le_max_of_le_right ih

theorem align_le_maxAlign {ss : List Slot} {s : Slot} (h : s ∈ ss) : s.align ≤ maxAlign ss := by
  induction ss with
  | nil => simp at h
  | cons t ss ih =>
    rcases List.mem_cons.mp h with rfl | h
    · exact le_max_left _ _
    · exact le_max_of_le_right (ih h)

/-- Beyond one, the greatest alignment is the alignment of some slot. -/
theorem maxAlign_mem (ss : List Slot) : maxAlign ss = 1 ∨ ∃ s ∈ ss, s.align = maxAlign ss := by
  induction ss with
  | nil => exact Or.inl rfl
  | cons s ss ih =>
    have he : maxAlign (s :: ss) = max s.align (maxAlign ss) := rfl
    rcases le_total s.align (maxAlign ss) with h | h
    · rw [he, max_eq_right h]
      rcases ih with h1 | ⟨t, ht, h2⟩
      · exact Or.inl h1
      · exact Or.inr ⟨t, List.mem_cons_of_mem s ht, h2⟩
    · rw [he, max_eq_left h]
      exact Or.inr ⟨s, List.mem_cons_self, rfl⟩

section Greedy

variable (up : ℕ → ℕ → ℕ)

/-- Where the greedy placement puts a slot when the previous one ends at `p`. -/
def Slot.place (s : Slot) (p : ℕ) : ℕ :=
  match s.fixed with
  | some x => x.toNat
  | none => up p s.align

def offsets : ℕ → List Slot → List ℕ
  | _, [] => []
  | p, s :: ss => s.place up p :: offsets (s.place up p + s.size) ss

/-- The end of the last slot. -/
def finish : ℕ → List Slot → ℕ
  | p, [] => p
  | p, s :: ss => finish (s.place up p + s.size) ss

/-- No slot is fixed to a position before the end of the slot in front of it. -/
def Clear : ℕ → List Slot → Prop
  | _, [] => True
  | p, s :: ss => (∀ x, s.fixed = some x → (p : ℤ) ≤ x) ∧ Clear (s.place up p + s.size) ss

variable {up}

theorem length_offsets (p : ℕ) (ss : List Slot) : (offsets up p ss).length = ss.length := by
  induction ss generalizing p with
  | nil => rfl
  | cons s ss ih => simp only [offsets, List.length_cons, ih]

/-- The greedy placement ends where its last slot ends. -/
theorem finish_eq_last (p : ℕ) (ss : List Slot) :
    finish up p ss = (((offsets up p ss).zip (ss.map Slot.size)).getLast?).elim p
      fun e => e.1 + e.2 := by
  induction ss generalizing p with
  | nil => rfl
  | cons s ss ih =>
    rw [finish, ih, offsets, List.map_cons, List.zip_cons_cons, List.getLast?_cons]
    cases ((offsets up (s.place up p + s.size) ss).zip (ss.map Slot.size)).getLast? <;> rfl

/-- A fixed slot in the list starts after the slots in front of it exactly when nothing clashes. -/
theorem clear_iff (p : ℕ) (ss : List Slot) :
    Clear up p ss ↔ ∀ pre s post x, ss = pre ++ s :: post → s.fixed = some x →
      (finish up p pre : ℤ) ≤ x := by
  induction ss generalizing p with
  | nil => simp [Clear]
  | cons t ss ih =>
    rw [Clear, ih]
    constructor
    · rintro ⟨hhead, htail⟩ pre s post x he hx
      cases pre with
      | nil =>
        obtain ⟨rfl, rfl⟩ := List.cons.inj he
        exact hhead x hx
      | cons u pre =>
        obtain ⟨rfl, rfl⟩ := List.cons.inj he
        exact htail pre s post x rfl hx
    · intro h
      refine ⟨fun x hx => h [] t ss x rfl hx, fun pre s post x he hx => ?_⟩
      exact h (t :: pre) s post x (by rw [he, List.cons_append]) hx

theorem Slot.admits_place {s : Slot} {p : ℕ} (hr : RoundsTo up s.align)
    (hc : ∀ x, s.fixed = some x → (p : ℤ) ≤ x) : p ≤ s.place up p ∧ s.Admits (s.place up p) := by
  unfold Slot.place Slot.Admits
  cases hf : s.fixed with
  | none => exact ⟨hr.le p, hr.dvd p⟩
  | some x =>
    have := hc x hf
    simp only
    omega

/-- The greedy position is below every admissible one. -/
theorem Slot.place_le {s : Slot} {p q o : ℕ} (hr : RoundsTo up s.align) (ho : s.Admits o)
    (hpq : p ≤ q) (hq : q ≤ o) : s.place up p ≤ o := by
  unfold Slot.place
  unfold Slot.Admits at ho
  cases hf : s.fixed with
  | none =>
    rw [hf] at ho
    exact hr.le_of_dvd ho (hpq.trans hq)
  | some x =>
    rw [hf] at ho
    simp only at ho ⊢
    omega

theorem Clear.fits {p : ℕ} {ss : List Slot} (hr : ∀ s ∈ ss, RoundsTo up s.align)
    (h : Clear up p ss) : Fits p ss (offsets up p ss) := by
  induction ss generalizing p with
  | nil => trivial
  | cons s ss ih =>
    obtain ⟨hle, had⟩ := Slot.admits_place (hr s List.mem_cons_self) h.1
    exact ⟨hle, had, ih (fun t ht => hr t (List.mem_cons_of_mem s ht)) h.2⟩

/-- **Exchange**: whatever placement starts no earlier than the greedy one stays above it, slot
by slot. -/
theorem Fits.offsets_le {p q : ℕ} {ss : List Slot} {os : List ℕ}
    (hr : ∀ s ∈ ss, RoundsTo up s.align) (hpq : p ≤ q) (h : Fits q ss os) :
    List.Forall₂ (· ≤ ·) (offsets up p ss) os := by
  induction ss generalizing p q os with
  | nil =>
    cases os with
    | nil => exact .nil
    | cons o os => exact h.elim
  | cons s ss ih =>
    cases os with
    | nil => exact h.elim
    | cons o os =>
      obtain ⟨hle, had, hrest⟩ := h
      have ho := Slot.place_le (hr s List.mem_cons_self) had hpq hle
      exact .cons ho (ih (fun t ht => hr t (List.mem_cons_of_mem s ht)) (by omega) hrest)

theorem Fits.clear {p q : ℕ} {ss : List Slot} {os : List ℕ}
    (hr : ∀ s ∈ ss, RoundsTo up s.align) (hpq : p ≤ q) (h : Fits q ss os) : Clear up p ss := by
  induction ss generalizing p q os with
  | nil => trivial
  | cons s ss ih =>
    cases os with
    | nil => exact h.elim
    | cons o os =>
      obtain ⟨hle, had, hrest⟩ := h
      have ho := Slot.place_le (hr s List.mem_cons_self) had hpq hle
      refine ⟨fun x hx => ?_, ih (fun t ht => hr t (List.mem_cons_of_mem s ht)) (by omega) hrest⟩
      rw [Slot.Admits, hx] at had
      simp only at had
      omega

/-- A placement exists exactly when no fixed slot clashes. -/
theorem exists_fits_iff {p : ℕ} {ss : List Slot} (hr : ∀ s ∈ ss, RoundsTo up s.align) :
    (∃ os, Fits p ss os) ↔ Clear up p ss :=
  ⟨fun ⟨_, h⟩ => h.clear hr le_rfl, fun h => ⟨_, h.fits hr⟩⟩

section Pinned

/-- The slot, fixed to a position. -/
def Slot.pin (s : Slot) (o : ℕ) : Slot := { s with fixed := some o }

theorem Slot.place_pin (s : Slot) (o p : ℕ) : (s.pin o).place up p = o := Int.toNat_natCast o

/-- Fixing every slot to where it is placed anyway changes no offset. -/
theorem offsets_pin (p : ℕ) (ss : List Slot) :
    offsets up p (List.zipWith Slot.pin ss (offsets up p ss)) = offsets up p ss := by
  induction ss generalizing p with
  | nil => rfl
  | cons s ss ih =>
    rw [offsets, List.zipWith_cons_cons, offsets, Slot.place_pin]
    exact congrArg _ (ih _)

theorem finish_pin (p : ℕ) (ss : List Slot) :
    finish up p (List.zipWith Slot.pin ss (offsets up p ss)) = finish up p ss := by
  induction ss generalizing p with
  | nil => rfl
  | cons s ss ih =>
    rw [offsets, List.zipWith_cons_cons, finish, Slot.place_pin, finish]
    exact ih _

theorem map_size_pin (p : ℕ) (ss : List Slot) :
    (List.zipWith Slot.pin ss (offsets up p ss)).map Slot.size = ss.map Slot.size := by
  induction ss generalizing p with
  | nil => rfl
  | cons s ss ih =>
    rw [offsets, List.zipWith_cons_cons, List.map_cons, ih]
    rfl

theorem maxAlign_pin (p : ℕ) (ss : List Slot) :
    maxAlign (List.zipWith Slot.pin ss (offsets up p ss)) = maxAlign ss := by
  induction ss generalizing p with
  | nil => rfl
  | cons s ss ih =>
    rw [offsets, List.zipWith_cons_cons]
    exact congrArg (max s.align) (ih _)

/-- It makes no slots clash either: the greedy placement never goes back. -/
theorem Clear.pin {p : ℕ} {ss : List Slot} (hr : ∀ s ∈ ss, RoundsTo up s.align)
    (h : Clear up p ss) : Clear up p (List.zipWith Slot.pin ss (offsets up p ss)) := by
  induction ss generalizing p with
  | nil => trivial
  | cons s ss ih =>
    have hle := (Slot.admits_place (hr s List.mem_cons_self) h.1).1
    have hrest := ih (fun t ht => hr t (List.mem_cons_of_mem s ht)) h.2
    rw [offsets, List.zipWith_cons_cons]
    constructor
    · intro x hx
      obtain rfl := Option.some.inj hx
      exact_mod_cast hle
    · rw [Slot.place_pin]
      exact hrest

end Pinned

section Gaps

/-- A slot that goes wherever the previous one ends. -/
def Slot.loose (size : ℕ) : Slot := ⟨size, 1, none⟩

/-- The slots without their alignments and positions, and a slot for each gap in front of one of
them and for the gap up to `t`. -/
def fillGaps : ℕ → List Slot → List ℕ → ℕ → List Slot
  | p, s :: ss, o :: os, t => .loose (o - p) :: .loose s.size :: fillGaps (o + s.size) ss os t
  | p, _, _, t => [.loose (t - p)]

theorem Slot.place_loose (hone : RoundsTo up 1) (size p : ℕ) : (Slot.loose size).place up p = p :=
  Nat.le_antisymm (hone.le_of_dvd (Nat.one_dvd p) le_rfl) (hone.le p)

theorem clear_fillGaps (p q t : ℕ) (ss : List Slot) (os : List ℕ) :
    Clear up q (fillGaps p ss os t) := by
  have hloose : ∀ size (q : ℕ) x, (Slot.loose size).fixed = some x → (q : ℤ) ≤ x := by
    intro size q x hx
    cases hx
  fun_induction fillGaps p ss os t generalizing q with
  | case1 p s ss o os t ih => exact ⟨hloose _ _, hloose _ _, ih _⟩
  | case2 => exact ⟨hloose _ _, trivial⟩

theorem maxAlign_fillGaps (p t : ℕ) (ss : List Slot) (os : List ℕ) :
    maxAlign (fillGaps p ss os t) = 1 := by
  fun_induction fillGaps p ss os t with
  | case1 p s ss o os t ih =>
    have he : maxAlign (.loose (o - p) :: .loose s.size :: fillGaps (o + s.size) ss os t) =
        max 1 (max 1 (maxAlign (fillGaps (o + s.size) ss os t))) := rfl
    rw [he, ih]
    rfl
  | case2 => rfl

/-- With the gaps filled every slot is where it was. -/
theorem Fits.getElem?_offsets_fillGaps (hone : RoundsTo up 1) {p : ℕ} {ss : List Slot} {os : List ℕ}
    (h : Fits p ss os) (t : ℕ) {i : ℕ} (hi : i < os.length) :
    (offsets up p (fillGaps p ss os t))[2 * i + 1]? = os[i]? := by
  induction ss generalizing p os i with
  | nil =>
    cases os with
    | nil => cases hi
    | cons o os => exact h.elim
  | cons s ss ih =>
    cases os with
    | nil => exact h.elim
    | cons o os =>
      obtain ⟨hle, _, hrest⟩ := h
      have hp : p + (o - p) = o := by omega
      have he : offsets up p (fillGaps p (s :: ss) (o :: os) t) =
          p :: o :: offsets up (o + s.size) (fillGaps (o + s.size) ss os t) := by
        rw [fillGaps, offsets, offsets, Slot.place_loose hone, Slot.place_loose hone]
        change p :: (p + (o - p)) :: offsets up (p + (o - p) + s.size) _ = _
        rw [hp]
      rw [he]
      cases i with
      | zero => rfl
      | succ i => exact ih hrest (Nat.lt_of_succ_lt_succ hi)

/-- And the last gap reaches to the end. -/
theorem finish_fillGaps (hone : RoundsTo up 1) {p t : ℕ} {ss : List Slot}
    (hr : ∀ s ∈ ss, RoundsTo up s.align) (h : Clear up p ss) (ht : finish up p ss ≤ t) :
    finish up p (fillGaps p ss (offsets up p ss) t) = t := by
  induction ss generalizing p with
  | nil =>
    change finish up p [.loose (t - p)] = t
    rw [finish, Slot.place_loose hone]
    change p + (t - p) = t
    change p ≤ t at ht
    omega
  | cons s ss ih =>
    have hle := (Slot.admits_place (hr s List.mem_cons_self) h.1).1
    have hp : p + (s.place up p - p) = s.place up p := by omega
    rw [offsets, fillGaps, finish, finish, Slot.place_loose hone, Slot.place_loose hone]
    change finish up (p + (s.place up p - p) + s.size) _ = t
    rw [hp]
    exact ih (fun t ht => hr t (List.mem_cons_of_mem s ht)) h.2 ht

end Gaps

end Greedy

end Layout
