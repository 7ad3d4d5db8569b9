import Mathlib.Data.List.Basic
import Mathlib.Data.Int.Notation
import Mathlib.Data.Nat.Notation

/-!
# The summary of the MQTT benchmark

`summary_stats` drops a share of the sorted round-trip times at both ends and computes the mean and
the standard deviation of the rest. The options are 32-bit numbers that nothing restricts.
-/

namespace Wali.Mqtt

inductive StatsError where
  | outOfRange (index : ℤ)
  | divisionByZero
  deriving DecidableEq, Repr

structure Stats where
  mean : UInt32
  stdDev : UInt32
  /-- `ct`. -/
  count : UInt32
  points : List UInt32
  deriving DecidableEq, Repr

/-- `DROP_IDX`: the product has 32 bits. -/
def dropIdx (dropRatio x : UInt32) : UInt32 := x * dropRatio / 100

/-- `INT_MAX + 1`. -/
def intRange : ℕ := 2147483648

/-- The value of an `int` with these bits. -/
def signed (i : UInt32) : ℤ := if i.toNat < intRange then i.toNat else i.toNat - (UInt32.size : ℕ)

def unsigned (i : UInt32) : ℤ := i.toNat

/-- `rtt_ts[index]`. -/
def readAt (rtt : List UInt32) (index : ℤ) : Except StatsError UInt32 :=
  if 0 ≤ index then
    match rtt[index.toNat]? with
    | some v => .ok v
    | none => .error (.outOfRange index)
  else .error (.outOfRange index)

theorem toNat_succ {i bound : UInt32} (h : i < bound) : (i + 1).toNat = i.toNat + 1 := by
  have hlt := UInt32.lt_iff_toNat_lt.mp h
  have hbound := bound.toNat_lt
  rw [UInt32.toNat_add]
  change (i.toNat + 1) % _ = _
  omega

/-- A loop `for (i = idx; i < bound; i++)` over the round-trip times. The comparison is of unsigned
numbers for either type of `i`, the index is a number of that type. -/
def trimLoop {σ : Type} (index : UInt32 → ℤ) (rtt : List UInt32) (f : σ → UInt32 → σ) (bound : UInt32)
    (i : UInt32) (s : σ) : Except StatsError σ :=
  if _h : i < bound then
    match readAt rtt (index i) with
    | .ok v => trimLoop index rtt f bound (i + 1) (f s v)
    | .error e => .error e
  else .ok s
termination_by bound.toNat - i.toNat
decreasing_by
  have hlt := UInt32.lt_iff_toNat_lt.mp _h
  have hsucc := toNat_succ _h
  omega

/-- One turn of the first loop. -/
def addTime (s : UInt64 × UInt32) (v : UInt32) : UInt64 × UInt32 := (s.1 + v.toUInt64, s.2 + 1)

/-- One turn of the second loop: the difference and its square have 32 bits. -/
def addSquare (mean : UInt32) (acc : UInt64) (v : UInt32) : UInt64 :=
  acc + ((v - mean) * (v - mean)).toUInt64

structure Summary where
  mean : UInt32
  /-- `acc` after the second loop. -/
  acc : UInt64
  /-- `ct`. -/
  count : UInt32
  points : List UInt32
  deriving DecidableEq, Repr

/-- The loops of `summary_stats`, on the sorted times. -/
def summarize (rtt : List UInt32) (maxIter idx : UInt32) : Except StatsError Summary := do
  let bound := maxIter - idx
  let (acc, ct) ← trimLoop signed rtt addTime bound idx (0, 0)
  if ct = 0 then .error .divisionByZero else do
    let mean := (acc / ct.toUInt64).toUInt32
    let acc ← trimLoop signed rtt (addSquare mean) bound idx 0
    let points ← trimLoop unsigned rtt (fun s v => s ++ [v]) bound idx []
    return { mean, acc, count := ct, points }

/-- The printed numbers. -/
def Summary.stats (sqrt : UInt64 → UInt32) (s : Summary) : Stats where
  mean := s.mean
  stdDev := sqrt (s.acc / s.count.toUInt64)
  count := s.count
  points := s.points

/-- `summary_stats` on the sorted times. The square root is that of the C library. -/
def summaryStats (sqrt : UInt64 → UInt32) (rtt : List UInt32) (maxIter dropRatio : UInt32) :
    Except StatsError Stats :=
  (summarize rtt maxIter (dropIdx dropRatio maxIter)).map (Summary.stats sqrt)

/-- Nothing wraps around, every index is in range, and there is something to divide by. -/
structure WindowOk (maxIter dropRatio : UInt32) : Prop where
  product : maxIter.toNat * dropRatio.toNat < UInt32.size
  difference : (dropIdx dropRatio maxIter).toNat ≤ maxIter.toNat
  runs : ∀ sqrt rtt, rtt.length = maxIter.toNat →
    ∃ stats, summaryStats sqrt rtt maxIter dropRatio = .ok stats ∧ 0 < stats.count

-- ════════════════════════════════════════════════════════════════════════
-- The loops
-- ════════════════════════════════════════════════════════════════════════

section Loop

variable {σ : Type} {index : UInt32 → ℤ} {rtt : List UInt32} {f : σ → UInt32 → σ} {bound : UInt32}

theorem readAt_of_lt {i : ℕ} (h : i < rtt.length) : readAt rtt i = .ok rtt[i] := by
  rw [readAt, if_pos (Int.natCast_nonneg i), Int.toNat_natCast, List.getElem?_eq_getElem h]

theorem trimLoop_of_not_lt {i : UInt32} (h : ¬ i < bound) (s : σ) :
    trimLoop index rtt f bound i s = .ok s := by
  rw [trimLoop, dif_neg h]

/-- With all indices in range a loop is a fold over the window. -/
theorem trimLoop_eq_foldl (hindex : ∀ i < bound, index i = i.toNat) (hlen : bound.toNat ≤ rtt.length)
    (i : UInt32) (s : σ) :
    trimLoop index rtt f bound i s = .ok (((rtt.take bound.toNat).drop i.toNat).foldl f s) := by
  induction hn : bound.toNat - i.toNat generalizing i s with
  | zero =>
    have hnot : ¬ i < bound := by
      rw [UInt32.lt_iff_toNat_lt]
      omega
    rw [trimLoop_of_not_lt hnot, List.drop_eq_nil_of_le (by rw [List.length_take]; omega)]
    rfl
  | succ n ih =>
    have hlt : i < bound := UInt32.lt_iff_toNat_lt.mpr (by omega)
    have hi : i.toNat < rtt.length := by omega
    have hcons : (rtt.take bound.toNat).drop i.toNat =
        rtt[i.toNat] :: (rtt.take bound.toNat).drop (i.toNat + 1) := by
      rw [List.drop_eq_getElem_cons (by rw [List.length_take]; omega), List.getElem_take]
    rw [trimLoop, dif_pos hlt, hindex i hlt, readAt_of_lt hi, hcons, List.foldl_cons, ← toNat_succ hlt]
    exact ih _ _ (by rw [toNat_succ hlt]; omega)

/-- An `int` that gets past its range is a negative index. -/
theorem trimLoop_signed_error (rtt : List UInt32) (f : σ → UInt32 → σ) (hbound : intRange < bound.toNat)
    {i : UInt32} (hi : i < bound) (s : σ) :
    ∃ e, trimLoop signed rtt f bound i s = .error e := by
  induction hn : bound.toNat - i.toNat generalizing i s with
  | zero =>
    have := UInt32.lt_iff_toNat_lt.mp hi
    omega
  | succ n ih =>
    rw [trimLoop, dif_pos hi]
    by_cases hneg : i.toNat < intRange
    · cases readAt rtt (signed i) with
      | error e => exact ⟨e, rfl⟩
      | ok v =>
        have hsucc := toNat_succ hi
        exact ih (UInt32.lt_iff_toNat_lt.mpr (by omega)) _ (by omega)
    · have hindex : ¬ 0 ≤ signed i := by
        have hi := i.toNat_lt_size
        rw [signed, if_neg hneg]
        omega
      rw [readAt, if_neg hindex]
      exact ⟨_, rfl⟩

theorem foldl_push (vs ws : List UInt32) : vs.foldl (fun s v => s ++ [v]) ws = ws ++ vs := by
  rw [List.foldl_append_eq_append, ← List.flatMap_def, List.flatMap_singleton']

/-- The first loop counts its turns. -/
theorem foldl_turns (vs : List UInt32) (s : UInt64 × UInt32) :
    (vs.foldl addTime s).2 = s.2 + UInt32.ofNat vs.length := by
  induction vs generalizing s with
  | nil => simp
  | cons v vs ih =>
    rw [List.foldl_cons, ih, addTime, List.length_cons, UInt32.ofNat_add, UInt32.add_assoc, UInt32.add_comm 1]
    rfl

theorem toNat_turns {vs : List UInt32} (hlen : vs.length ≤ intRange) :
    (vs.foldl addTime (0, 0)).2.toNat = vs.length := by
  rw [foldl_turns, UInt32.zero_add, UInt32.toNat_ofNat']
  unfold intRange at hlen
  omega

theorem turns_pos {vs : List UInt32} (hlen : vs.length ≤ intRange) (hpos : 0 < vs.length) :
    0 < (vs.foldl addTime (0, 0)).2 := by
  rw [UInt32.lt_iff_toNat_lt, toNat_turns hlen]
  exact hpos

end Loop

-- ════════════════════════════════════════════════════════════════════════
-- The function
-- ════════════════════════════════════════════════════════════════════════

/-- `mean` of a window. -/
def meanOf (vs : List UInt32) : UInt32 :=
  ((vs.foldl addTime (0, 0)).1 / (vs.foldl addTime (0, 0)).2.toUInt64).toUInt32

section Run

variable {rtt : List UInt32} {maxIter idx : UInt32}

/-- With all indices in range the loops run over one window. -/
theorem summarize_ok (hlt : idx < maxIter - idx) (hbound : (maxIter - idx).toNat ≤ intRange)
    (hlen : (maxIter - idx).toNat ≤ rtt.length) {vs : List UInt32}
    (hvs : (rtt.take (maxIter - idx).toNat).drop idx.toNat = vs) :
    summarize rtt maxIter idx = .ok
      { mean := meanOf vs
        acc := vs.foldl (addSquare (meanOf vs)) 0
        count := (vs.foldl addTime (0, 0)).2
        points := vs } := by
  have hsigned : ∀ i < maxIter - idx, signed i = i.toNat := fun i hi =>
    if_pos (Nat.lt_of_lt_of_le (UInt32.lt_iff_toNat_lt.mp hi) hbound)
  have hunsigned : ∀ i < maxIter - idx, unsigned i = i.toNat := fun _ _ => rfl
  have hlength : vs.length = (maxIter - idx).toNat - idx.toNat := by
    rw [← hvs, List.length_drop, List.length_take, Nat.min_eq_left hlen]
  have hpos := UInt32.lt_iff_toNat_lt.mp hlt
  have hcount := @turns_pos vs (by omega) (by omega)
  unfold summarize
  simp only [trimLoop_eq_foldl hsigned hlen, trimLoop_eq_foldl hunsigned hlen, hvs, foldl_push]
  change (if (vs.foldl addTime (0, 0)).2 = 0 then _ else _) = _
  rw [if_neg fun h => absurd hcount (by rw [h]; decide)]
  rfl

/-- An empty window: the sum is divided by zero. -/
theorem summarize_of_not_lt (rtt : List UInt32) (h : ¬ idx < maxIter - idx) :
    summarize rtt maxIter idx = .error .divisionByZero := by
  rw [summarize, trimLoop_of_not_lt h]
  rfl

theorem summarize_of_long (rtt : List UInt32) (hlt : idx < maxIter - idx)
    (hbound : intRange < (maxIter - idx).toNat) : ∃ e, summarize rtt maxIter idx = .error e := by
  obtain ⟨e, he⟩ := trimLoop_signed_error rtt addTime hbound hlt (0, 0)
  rw [summarize, he]
  exact ⟨e, rfl⟩

end Run

theorem toNat_dropIdx {maxIter dropRatio : UInt32} (h : maxIter.toNat * dropRatio.toNat < UInt32.size) :
    (dropIdx dropRatio maxIter).toNat = maxIter.toNat * dropRatio.toNat / 100 := by
  rw [dropIdx, UInt32.toNat_div, UInt32.toNat_mul, Nat.mod_eq_of_lt h]
  rfl

/-- **Trimming**: the window is in range and not empty exactly if the product does not wrap around,
less than half of the times is dropped at each end, and an `int` can count up to the end. -/
theorem windowOk_iff (maxIter dropRatio : UInt32) :
    WindowOk maxIter dropRatio ↔
      maxIter.toNat * dropRatio.toNat < UInt32.size ∧
      2 * (maxIter.toNat * dropRatio.toNat / 100) < maxIter.toNat ∧
      maxIter.toNat - maxIter.toNat * dropRatio.toNat / 100 ≤ intRange := by
  have hsub (hle : (dropIdx dropRatio maxIter).toNat ≤ maxIter.toNat) :
      (maxIter - dropIdx dropRatio maxIter).toNat = maxIter.toNat - (dropIdx dropRatio maxIter).toNat :=
    UInt32.toNat_sub_of_le _ _ (UInt32.le_iff_toNat_le.mpr hle)
  constructor
  · rintro ⟨hproduct, hle, hruns⟩
    have hidx := toNat_dropIdx hproduct
    -- whatever goes wrong in the loops, it does for any times
    have hno : ∀ e, summarize (List.replicate maxIter.toNat 0) maxIter (dropIdx dropRatio maxIter) ≠ .error e := by
      intro e he
      obtain ⟨stats, hstats, _⟩ := hruns (fun _ => 0) _ List.length_replicate
      rw [summaryStats, he] at hstats
      cases hstats
    have hlt : dropIdx dropRatio maxIter < maxIter - dropIdx dropRatio maxIter := by
      by_contra hnot
      exact hno _ (summarize_of_not_lt _ hnot)
    have hlt' := UInt32.lt_iff_toNat_lt.mp hlt
    rw [hsub hle, hidx] at hlt'
    refine ⟨hproduct, by omega, ?_⟩
    by_contra hlong
    rw [← hidx, ← hsub hle, Nat.not_le] at hlong
    obtain ⟨e, he⟩ := summarize_of_long (List.replicate maxIter.toNat 0) hlt hlong
    exact hno e he
  · rintro ⟨hproduct, hhalf, hint⟩
    have hidx := toNat_dropIdx hproduct
    have hle : (dropIdx dropRatio maxIter).toNat ≤ maxIter.toNat := by omega
    refine ⟨hproduct, hle, fun sqrt rtt hlen => ?_⟩
    have hlt : dropIdx dropRatio maxIter < maxIter - dropIdx dropRatio maxIter := by
      rw [UInt32.lt_iff_toNat_lt, hsub hle]
      omega
    have hwindow : (maxIter - dropIdx dropRatio maxIter).toNat ≤ rtt.length := by
      rw [hsub hle, hlen]
      exact Nat.sub_le _ _
    rw [summaryStats, summarize_ok hlt (by rwa [hsub hle, hidx]) hwindow rfl]
    refine ⟨_, rfl, turns_pos ?_ ?_⟩
    · rw [List.length_drop, List.length_take]
      omega
    · rw [List.length_drop, List.length_take, hsub hle]
      omega

/-- `--drop-ratio=50` with the default ten iterations: nothing is left, and the sum is divided by
zero. -/
theorem nothing_left :
    summaryStats (fun _ => 0) [1, 2, 3, 4, 5, 6, 7, 8, 9, 10] 10 50 = .error .divisionByZero ∧
    ¬ WindowOk 10 50 := by
  have hrun : ∀ sqrt rtt, summaryStats sqrt rtt 10 50 = .error .divisionByZero :=
    fun sqrt rtt => congrArg (Except.map (Summary.stats sqrt)) (summarize_of_not_lt rtt (by decide))
  refine ⟨hrun _ _, fun h => ?_⟩
  obtain ⟨stats, hstats, _⟩ := h.runs (fun _ => 0) (List.replicate 10 0) rfl
  rw [hrun] at hstats
  cases hstats

end Wali.Mqtt
