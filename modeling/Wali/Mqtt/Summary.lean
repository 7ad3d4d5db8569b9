import Mathlib.Data.List.Basic
import Wali.Clib.Qsort
import Wali.Mqtt.Stats

/-!
# The statistics of the trimmed sample

`summary_stats` sorts the round-trip times with `cmpfunc` first. What it prints is compared with the
exact numbers of the sorted and trimmed sample.
-/

namespace Wali.Mqtt

open Clib

/-- The times are read as `int`, and the difference wraps around. -/
def cmpfunc (a b : UInt32) : Int32 := a.toInt32 - b.toInt32

/-- `summary_stats` from the call of `qsort` on. -/
def sortAndSummarize (q : Qsort UInt32) (rtt : List UInt32) (maxIter idx : UInt32) :
    Except StatsError Summary :=
  summarize (q.sort cmpfunc rtt) maxIter idx

-- ════════════════════════════════════════════════════════════════════════
-- The exact numbers
-- ════════════════════════════════════════════════════════════════════════

def sortedSample (rtt : List UInt32) : List UInt32 := rtt.mergeSort fun x y => decide (x.toNat ≤ y.toNat)

/-- The sample without its `idx` smallest and its `idx` largest values. -/
def trimmed (idx : ℕ) (rtt : List UInt32) : List UInt32 :=
  ((sortedSample rtt).take (rtt.length - idx)).drop idx

def sumOf (g : UInt32 → ℕ) (vs : List UInt32) : ℕ := vs.foldr (fun v s => g v + s) 0

/-- The floor of the average. -/
def average (vs : List UInt32) : ℕ := sumOf UInt32.toNat vs / vs.length

def distance (m n : ℕ) : ℕ := ((m : ℤ) - n).natAbs

def squares (mean : ℕ) (vs : List UInt32) : ℕ :=
  sumOf (fun v => distance v.toNat mean * distance v.toNat mean) vs

/-- A comparison function compares the numbers of a sample. -/
def ComparesNumbers (cmp : UInt32 → UInt32 → Int32) (rtt : List UInt32) : Prop :=
  ∀ x ∈ rtt, ∀ y ∈ rtt, (cmp x y < 0 ↔ x < y) ∧ (cmp x y = 0 ↔ x = y) ∧ (0 < cmp x y ↔ y < x)

/-- The statistics are those of the trimmed sample. -/
structure StatsExact (q : Qsort UInt32) (rtt : List UInt32) (maxIter idx : UInt32) : Prop where
  compares : ComparesNumbers cmpfunc rtt
  runs : ∃ s, sortAndSummarize q rtt maxIter idx = .ok s ∧
    s.points = trimmed idx.toNat rtt ∧
    s.mean.toNat = average (trimmed idx.toNat rtt) ∧
    (squares s.mean.toNat (trimmed idx.toNat rtt) < UInt64.size →
      s.acc.toNat = squares s.mean.toNat (trimmed idx.toNat rtt))

-- ════════════════════════════════════════════════════════════════════════
-- The order
-- ════════════════════════════════════════════════════════════════════════

section Order

variable {rtt : List UInt32} {x y : UInt32}

theorem toInt_toInt32 (x : UInt32) : x.toInt32.toInt = (x.toNat : ℤ).bmod UInt32.size :=
  BitVec.toInt_eq_toNat_bmod x.toBitVec

theorem toInt_cmpfunc (x y : UInt32) :
    (cmpfunc x y).toInt = ((x.toNat : ℤ) - y.toNat).bmod 4294967296 := by
  rw [cmpfunc, Int32.toInt_sub, toInt_toInt32, toInt_toInt32]
  exact Int.bmod_sub_bmod.trans Int.sub_bmod_bmod

theorem toInt_cmpfunc_of_lt (h : distance x.toNat y.toNat < intRange) :
    (cmpfunc x y).toInt = (x.toNat : ℤ) - y.toNat := by
  unfold distance intRange at h
  rw [toInt_cmpfunc, Int.bmod_eq_emod]
  split <;> omega

/-- Numbers that are far apart compare as less in one direction at least. -/
theorem distance_lt_of_pos_iff (hxy : 0 < cmpfunc x y ↔ y < x) (hyx : 0 < cmpfunc y x ↔ x < y) :
    distance x.toNat y.toNat < intRange := by
  rw [Int32.lt_iff_toInt_lt, Int32.toInt_zero, toInt_cmpfunc, Int.bmod_eq_emod,
    UInt32.lt_iff_toNat_lt] at hxy hyx
  have hx := x.toNat_lt
  have hy := y.toNat_lt
  unfold distance intRange
  split at hxy <;> split at hyx <;> omega

theorem comparesNumbers_cmpfunc_iff :
    ComparesNumbers cmpfunc rtt ↔ ∀ x ∈ rtt, ∀ y ∈ rtt, distance x.toNat y.toNat < intRange := by
  constructor
  · intro h x hx y hy
    exact distance_lt_of_pos_iff (h x hx y hy).2.2 (h y hy x hx).2.2
  · intro h x hx y hy
    have hxy := toInt_cmpfunc_of_lt (h x hx y hy)
    rw [Int32.lt_iff_toInt_lt, ← Int32.toInt_inj, Int32.lt_iff_toInt_lt, Int32.toInt_zero, hxy,
      UInt32.lt_iff_toNat_lt, ← UInt32.toNat_inj, UInt32.lt_iff_toNat_lt]
    omega

theorem distance_lt_of_all
    (h : (rtt.all fun x => rtt.all fun y => decide (distance x.toNat y.toNat < intRange)) = true) :
    ∀ x ∈ rtt, ∀ y ∈ rtt, distance x.toNat y.toNat < intRange := by
  simpa only [List.all_eq_true, decide_eq_true_eq] using h

theorem cmpfunc_nonpos_iff (h : distance x.toNat y.toNat < intRange) :
    cmpfunc x y ≤ 0 ↔ x.toNat ≤ y.toNat := by
  rw [Int32.le_iff_toInt_le, toInt_cmpfunc_of_lt h, Int32.toInt_zero]
  omega

theorem orders_cmpfunc (h : ∀ x ∈ rtt, ∀ y ∈ rtt, distance x.toNat y.toNat < intRange) :
    Orders cmpfunc rtt where
  swap := by
    intro x hx y hy
    have hcmp := comparesNumbers_cmpfunc_iff.mpr h
    rw [(hcmp x hx y hy).1, (hcmp y hy x hx).2.2]
  trans := by
    intro x hx y hy z hz hxy hyz
    rw [cmpfunc_nonpos_iff (h _ ‹_› _ ‹_›)] at hxy hyz ⊢
    exact Nat.le_trans hxy hyz

theorem pairwise_sortedSample (rtt : List UInt32) :
    (sortedSample rtt).Pairwise fun x y => x.toNat ≤ y.toNat := by
  have hsorted : (sortedSample rtt).Pairwise fun x y => decide (x.toNat ≤ y.toNat) = true := by
    refine List.pairwise_mergeSort (fun x y z => ?_) (fun x y => ?_) rtt
    · simpa using Nat.le_trans
    · simpa using Nat.le_total x.toNat y.toNat
  exact hsorted.imp fun h => of_decide_eq_true h

/-- There is one sorted list of the sample. -/
theorem eq_sortedSample (ys : List UInt32) (hperm : ys.Perm rtt)
    (hsorted : ys.Pairwise fun x y => x.toNat ≤ y.toNat) : ys = sortedSample rtt := by
  refine List.Perm.eq_of_pairwise ?_ hsorted (pairwise_sortedSample rtt)
    (hperm.trans (List.mergeSort_perm _ _).symm)
  intro x y _ _ hxy hyx
  exact UInt32.toNat_inj.mp (Nat.le_antisymm hxy hyx)

theorem length_sortedSample (rtt : List UInt32) : (sortedSample rtt).length = rtt.length :=
  List.length_mergeSort rtt

theorem sort_cmpfunc (q : Qsort UInt32) (h : ∀ x ∈ rtt, ∀ y ∈ rtt, distance x.toNat y.toNat < intRange) :
    q.sort cmpfunc rtt = sortedSample rtt := by
  obtain ⟨hperm, hsorted⟩ := q.sorts cmpfunc rtt (orders_cmpfunc h)
  refine eq_sortedSample _ hperm (hsorted.imp_of_mem fun hx hy hle => ?_)
  exact (cmpfunc_nonpos_iff (h _ (hperm.mem_iff.mp hx) _ (hperm.mem_iff.mp hy))).mp hle

end Order

-- ════════════════════════════════════════════════════════════════════════
-- The sums
-- ════════════════════════════════════════════════════════════════════════

section Sums

variable {g : UInt32 → ℕ} {vs : List UInt32}

theorem sumOf_le {b : ℕ} (h : ∀ v ∈ vs, g v ≤ b) : sumOf g vs ≤ b * vs.length := by
  induction vs with
  | nil => exact Nat.le_refl 0
  | cons v vs ih =>
    have hv := h v List.mem_cons_self
    have hvs := ih fun v hv => h v (List.mem_cons_of_mem _ hv)
    rw [List.length_cons, Nat.mul_succ]
    change g v + sumOf g vs ≤ _
    omega

/-- A sum of residues is the sum exactly if every summand is small. -/
theorem sumOf_mod_eq_iff {m : ℕ} (hm : 0 < m) :
    sumOf (fun v => g v % m) vs = sumOf g vs ↔ ∀ v ∈ vs, g v < m := by
  have hle : ∀ vs, sumOf (fun v => g v % m) vs ≤ sumOf g vs := by
    intro vs
    induction vs with
    | nil => exact Nat.le_refl 0
    | cons v vs ih => exact Nat.add_le_add (Nat.mod_le _ _) ih
  induction vs with
  | nil => exact ⟨fun _ v hv => absurd hv List.not_mem_nil, fun _ => rfl⟩
  | cons v vs ih =>
    have hvs := hle vs
    have hmod := Nat.mod_le (g v) m
    have hv : g v % m = g v ↔ g v < m := ⟨fun h => h ▸ Nat.mod_lt _ hm, Nat.mod_eq_of_lt⟩
    rw [List.forall_mem_cons]
    refine Iff.trans ?_ (and_congr hv ih)
    change g v % m + sumOf (fun v => g v % m) vs = g v + sumOf g vs ↔ _
    omega

/-- A 64-bit accumulator. -/
theorem toNat_foldl_add (f : UInt32 → UInt64) (vs : List UInt32) (acc : UInt64) :
    (vs.foldl (fun acc v => acc + f v) acc).toNat =
      (acc.toNat + sumOf (fun v => (f v).toNat) vs) % UInt64.size := by
  induction vs generalizing acc with
  | nil => exact (Nat.mod_eq_of_lt acc.toNat_lt).symm
  | cons v vs ih =>
    rw [List.foldl_cons, ih, UInt64.toNat_add]
    change _ = (acc.toNat + ((f v).toNat + _)) % _
    rw [← Nat.add_assoc]
    exact Nat.mod_add_mod _ _ _

theorem foldl_addTime_fst (vs : List UInt32) (s : UInt64 × UInt32) :
    (vs.foldl addTime s).1 = vs.foldl (fun acc v => acc + v.toUInt64) s.1 := by
  induction vs generalizing s with
  | nil => rfl
  | cons v vs ih => exact ih _

theorem toNat_square (v mean : UInt32) :
    ((v - mean) * (v - mean)).toNat =
      distance v.toNat mean.toNat * distance v.toNat mean.toNat % UInt32.size := by
  have hsquare {x y : UInt32} (hle : y.toNat ≤ x.toNat) :
      ((x - y) * (x - y)).toNat = (x.toNat - y.toNat) * (x.toNat - y.toNat) % UInt32.size := by
    rw [UInt32.toNat_mul, UInt32.toNat_sub_of_le _ _ (UInt32.le_iff_toNat_le.mpr hle)]
  rcases Nat.le_total mean.toNat v.toNat with hle | hle
  · have hdist : distance v.toNat mean.toNat = v.toNat - mean.toNat := by
      unfold distance
      omega
    rw [hsquare hle, hdist]
  · have hdist : distance v.toNat mean.toNat = mean.toNat - v.toNat := by
      unfold distance
      omega
    rw [← UInt32.neg_mul_neg, UInt32.neg_sub, hsquare hle, hdist]

end Sums

-- ════════════════════════════════════════════════════════════════════════
-- The loops
-- ════════════════════════════════════════════════════════════════════════

section Window

variable {vs : List UInt32}

theorem sumOf_toNat_le (vs : List UInt32) : sumOf UInt32.toNat vs ≤ 4294967295 * vs.length :=
  sumOf_le fun v _ => Nat.le_of_lt_succ v.toNat_lt

/-- The sum of an `int` number of times fits in 64 bits. -/
theorem toNat_sum (hlen : vs.length ≤ intRange) :
    (vs.foldl addTime (0, 0)).1.toNat = sumOf UInt32.toNat vs := by
  have hsum : sumOf (fun v => v.toUInt64.toNat) vs = sumOf UInt32.toNat vs := by
    simp only [UInt32.toNat_toUInt64]
  have hle := sumOf_toNat_le vs
  rw [foldl_addTime_fst, toNat_foldl_add, hsum]
  unfold intRange at hlen
  change (0 + _) % 18446744073709551616 = _
  omega

theorem toNat_meanOf (hlen : vs.length ≤ intRange) : (meanOf vs).toNat = average vs := by
  have hlt : average vs < 4294967296 :=
    Nat.lt_succ_of_le (Nat.div_le_of_le_mul (Nat.mul_comm _ _ ▸ sumOf_toNat_le vs))
  rw [meanOf, UInt64.toNat_toUInt32, UInt64.toNat_div, UInt32.toNat_toUInt64, toNat_sum hlen,
    toNat_turns hlen]
  exact Nat.mod_eq_of_lt hlt

theorem toNat_foldl_addSquare (hlen : vs.length ≤ intRange) (mean : UInt32) :
    (vs.foldl (addSquare mean) 0).toNat =
      sumOf (fun v => distance v.toNat mean.toNat * distance v.toNat mean.toNat % UInt32.size) vs := by
  have hsum : (vs.foldl (addSquare mean) 0).toNat =
      (0 + sumOf (fun v => ((v - mean) * (v - mean)).toUInt64.toNat) vs) % UInt64.size :=
    toNat_foldl_add _ vs 0
  simp only [UInt32.toNat_toUInt64, toNat_square, Nat.zero_add] at hsum
  have hle : sumOf (fun v => distance v.toNat mean.toNat * distance v.toNat mean.toNat % UInt32.size) vs ≤
      4294967295 * vs.length :=
    sumOf_le fun v _ => Nat.le_of_lt_succ (Nat.mod_lt _ (by decide))
  -- at most 2^31 residues below 2^32
  rw [hsum]
  unfold intRange at hlen
  apply Nat.mod_eq_of_lt
  change _ < 18446744073709551616
  omega

theorem toNat_foldl_addSquare_eq_iff (hlen : vs.length ≤ intRange) :
    (vs.foldl (addSquare (meanOf vs)) 0).toNat = squares (average vs) vs ↔
      ∀ v ∈ vs, distance v.toNat (average vs) < 65536 := by
  rw [toNat_foldl_addSquare hlen, toNat_meanOf hlen, squares, sumOf_mod_eq_iff (by decide)]
  refine forall_congr' fun v => imp_congr_right fun _ => ?_
  exact Nat.mul_self_lt_mul_self_iff (n := 65536)

end Window

/-- **Statistics**: the numbers are those of the trimmed sample exactly if the difference of any two
times is an `int`, an `int` can count up to the end of the window, and, unless the sum of the squares
takes more than 64 bits, no square takes more than 32. -/
theorem statsExact_iff (q : Qsort UInt32) (rtt : List UInt32) (maxIter idx : UInt32)
    (hlen : rtt.length = maxIter.toNat) (hidx : idx.toNat < maxIter.toNat - idx.toNat) :
    StatsExact q rtt maxIter idx ↔
      (∀ x ∈ rtt, ∀ y ∈ rtt, distance x.toNat y.toNat < intRange) ∧
      maxIter.toNat - idx.toNat ≤ intRange ∧
      (squares (average (trimmed idx.toNat rtt)) (trimmed idx.toNat rtt) < UInt64.size →
        ∀ v ∈ trimmed idx.toNat rtt, distance v.toNat (average (trimmed idx.toNat rtt)) < 65536) := by
  have hbound : (maxIter - idx).toNat = maxIter.toNat - idx.toNat :=
    UInt32.toNat_sub_of_le _ _ (UInt32.le_iff_toNat_le.mpr (by omega))
  have hlt : idx < maxIter - idx := by
    rw [UInt32.lt_iff_toNat_lt, hbound]
    exact hidx
  have hfits : (maxIter - idx).toNat ≤ (sortedSample rtt).length := by
    rw [length_sortedSample, hbound, hlen]
    exact Nat.sub_le _ _
  have hwindow : ((sortedSample rtt).take (maxIter - idx).toNat).drop idx.toNat = trimmed idx.toNat rtt := by
    rw [trimmed, hbound, hlen]
  have hshort (hint : (maxIter - idx).toNat ≤ intRange) : (trimmed idx.toNat rtt).length ≤ intRange := by
    rw [← hwindow, List.length_drop, List.length_take]
    omega
  rw [← hbound]
  constructor
  · rintro ⟨hcompares, s, hrun, -, -, hacc⟩
    have hdist := comparesNumbers_cmpfunc_iff.mp hcompares
    rw [sortAndSummarize, sort_cmpfunc q hdist] at hrun
    have hint : (maxIter - idx).toNat ≤ intRange := by
      by_contra hlong
      obtain ⟨e, he⟩ := summarize_of_long (sortedSample rtt) hlt (Nat.not_le.mp hlong)
      rw [he] at hrun
      cases hrun
    rw [summarize_ok hlt hint hfits hwindow] at hrun
    obtain rfl := Except.ok.inj hrun
    simp only [toNat_meanOf (hshort hint)] at hacc
    exact ⟨hdist, hint, fun h => (toNat_foldl_addSquare_eq_iff (hshort hint)).mp (hacc h)⟩
  · rintro ⟨hdist, hint, hsmall⟩
    have hrun := summarize_ok hlt hint hfits hwindow
    rw [← sort_cmpfunc q hdist] at hrun
    refine ⟨comparesNumbers_cmpfunc_iff.mpr hdist, _, hrun, rfl, toNat_meanOf (hshort hint), ?_⟩
    rw [toNat_meanOf (hshort hint)]
    exact fun h => (toNat_foldl_addSquare_eq_iff (hshort hint)).mpr (hsmall h)

/-- Three times of a local broker without the smallest and the largest one. -/
theorem statsExact_three : StatsExact mergeQsort [310, 290, 450] 3 1 := by
  have htrimmed : trimmed (1 : UInt32).toNat [310, 290, 450] = [310] := by
    rw [trimmed, ← eq_sortedSample [290, 310, 450] (by decide) (by decide)]
    rfl
  refine (statsExact_iff mergeQsort [310, 290, 450] 3 1 rfl (by decide)).mpr
    ⟨distance_lt_of_all (by decide), by decide, ?_⟩
  rw [htrimmed]
  exact fun _ => List.forall_mem_singleton.mpr (by decide)

/-- Times of 0 and 131072 microseconds: the squares of their differences from the mean are zero in 32
bits, and so is the standard deviation. Times of 0 and 2147483648 are each less than the other. -/
theorem squares_lost :
    sortAndSummarize mergeQsort [0, 131072] 2 0 =
      .ok { mean := 65536, acc := 0, count := 2, points := [0, 131072] } ∧
    squares 65536 [0, 131072] = 8589934592 ∧
    ¬ StatsExact mergeQsort [0, 131072] 2 0 ∧
    cmpfunc 0 2147483648 < 0 ∧ cmpfunc 2147483648 0 < 0 := by
  have hrun : sortAndSummarize mergeQsort [0, 131072] 2 0 =
      .ok { mean := 65536, acc := 0, count := 2, points := [0, 131072] } := by
    rw [sortAndSummarize, sort_cmpfunc mergeQsort (distance_lt_of_all (by decide)),
      ← eq_sortedSample [0, 131072] (by decide) (by decide),
      summarize_ok (by decide) (by decide) (by decide) rfl]
    rfl
  have htrimmed : trimmed 0 [0, 131072] = [0, 131072] := by
    rw [trimmed, ← eq_sortedSample [0, 131072] (by decide) (by decide)]
    rfl
  refine ⟨hrun, by decide, ?_, by decide, by decide⟩
  rintro ⟨-, s, hs, -, -, hacc⟩
  rw [hrun] at hs
  obtain rfl := Except.ok.inj hs
  change squares 65536 (trimmed 0 _) < _ → 0 = squares 65536 (trimmed 0 _) at hacc
  rw [htrimmed] at hacc
  exact absurd (hacc (by decide)) (by decide)

end Wali.Mqtt
