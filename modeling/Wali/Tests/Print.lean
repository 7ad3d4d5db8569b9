import Wali.Clib.Decimal

/-!
# Printing integers

`print_long` and `print_long_err` put the digits of a number into a buffer, from the lowest to the
highest, then the sign, and turn the buffer around. A negative number is negated first, and the
smallest one stays negative.
-/

namespace Wali.Tests

open Clib (Bytes setAt reverseLoop minus digit numeral IsDecimal)

theorem toInt_ten : (10 : Int64).toInt = 10 := rfl

/-- A positive number has the quotient and the remainder it should have. -/
theorem toInt_of_pos {n : Int64} (h : 0 < n) :
    (n / 10).toInt = n.toInt / 10 ∧ (48 + n % 10).toInt = 48 + n.toInt % 10 := by
  have hpos : 0 < n.toInt := Int64.lt_iff_toInt_lt.mp h
  have hne : n ≠ Int64.minValue := by
    rintro rfl
    exact absurd hpos (by decide)
  have hmod : (n % 10).toInt = n.toInt % 10 := by
    rw [Int64.toInt_mod, toInt_ten, Int.tmod_eq_emod_of_nonneg (by omega)]
  refine ⟨?_, ?_⟩
  · rw [Int64.toInt_div_of_ne_left _ _ hne, toInt_ten, Int.tdiv_eq_ediv_of_nonneg (by omega)]
  · rw [Int64.toInt_add, hmod]
    change (48 + n.toInt % 10).bmod _ = _
    rw [Int.bmod_eq_of_le (by omega) (by omega)]

/-- The loop over the digits. -/
def digitLoop (n : Int64) (buf : Bytes) (i : ℕ) : Option (Bytes × ℕ) :=
  if _h : 0 < n then
    match setAt buf i (UInt8.ofInt (48 + n % 10).toInt) with
    | some buf => digitLoop (n / 10) buf (i + 1)
    | none => none
  else some (buf, i)
termination_by n.toInt.toNat
decreasing_by
  have hpos : 0 < n.toInt := Int64.lt_iff_toInt_lt.mp _h
  have hdiv := (toInt_of_pos _h).1
  omega

/-- The digits, the lowest first, and their number. -/
def putDigits (buf : Bytes) (n : Int64) : Option (Bytes × ℕ) :=
  if n = 0 then (setAt buf 0 (digit 0)).bind fun buf => digitLoop n buf 1 else digitLoop n buf 0

def putSign (neg : Bool) (buf : Bytes) (i : ℕ) : Option (Bytes × ℕ) :=
  if neg then (setAt buf i minus).map fun buf => (buf, i + 1) else some (buf, i)

/-- The call `wali_syscall_write(fd, buf, i)` at the end: the descriptor and the bytes. There is none
if an index was outside the buffer. -/
def printTo (fd : ℕ) (buf : Bytes) (n : Int64) : Option (ℕ × Bytes) :=
  (putDigits buf (if n < 0 then -n else n)).bind fun r =>
    (putSign (n < 0) r.1 r.2).bind fun r =>
      (reverseLoop r.1 r.2).map fun buf => (fd, buf.take r.2)

/-- `print_long`, with what is in the buffer at first. -/
def printLong : Bytes → Int64 → Option (ℕ × Bytes) := printTo 1

/-- `print_long_err`. -/
def printLongErr : Bytes → Int64 → Option (ℕ × Bytes) := printTo 2

/-- The decimal representation of the number is written, whatever was in the buffer. -/
def PrintsExactly (print : Bytes → Int64 → Option (ℕ × Bytes)) (fd : ℕ) (n : Int64) : Prop :=
  ∀ buf, buf.length = 32 → ∃ bs, print buf n = some (fd, bs) ∧ bs.length ≤ 32 ∧ IsDecimal n.toInt bs

-- ════════════════════════════════════════════════════════════════════════
-- Digits
-- ════════════════════════════════════════════════════════════════════════

theorem ofInt_digit (m : ℕ) : UInt8.ofInt (48 + (m : ℤ) % 10) = digit (m % 10) := by
  have hcast : 48 + (m : ℤ) % 10 = ((48 + m % 10 : ℕ) : ℤ) := by omega
  rw [hcast, digit]
  apply UInt8.toNat.inj
  rw [UInt8.ofInt, UInt8.toNat_ofNat', UInt8.toNat_ofNat']
  omega

/-- What the loop leaves in the buffer, behind what was there before. -/
theorem digitLoop_eq {n : Int64} {m : ℕ} (hm : n.toInt = m) {rest : Bytes}
    (hfit : (Nat.digits 10 m).length ≤ rest.length) (done : Bytes) :
    digitLoop n (done ++ rest) done.length =
      some (done ++ (Nat.digits 10 m).map digit ++ rest.drop (Nat.digits 10 m).length,
        (done ++ (Nat.digits 10 m).map digit).length) := by
  induction m using Nat.strong_induction_on generalizing n rest done with
  | _ m ih =>
    rw [digitLoop]
    by_cases hpos : 0 < n
    · have hlt := Int64.lt_iff_toInt_lt.mp hpos
      obtain ⟨hdiv, hbyte⟩ := toInt_of_pos hpos
      have hm0 : 0 < m := by
        change 0 < n.toInt at hlt
        omega
      have hdigits : Nat.digits 10 m = m % 10 :: Nat.digits 10 (m / 10) := Nat.digits_def' (by decide) hm0
      rw [hdigits] at hfit ⊢
      cases rest with
      | nil => exact absurd hfit (by simp)
      | cons r rest =>
        have hdiv' : (n / 10).toInt = (m / 10 : ℕ) := by omega
        have hnext := ih (m / 10) (by omega) hdiv' (Nat.le_of_succ_le_succ hfit) (done ++ [digit (m % 10)])
        rw [dif_pos hpos, hbyte, hm, ofInt_digit, Clib.setAt_append_cons]
        change digitLoop (n / 10) (done ++ digit (m % 10) :: rest) (done.length + 1) = _
        simpa using hnext
    · have hm0 : m = 0 := by
        rw [Int64.lt_iff_toInt_lt] at hpos
        change ¬ 0 < n.toInt at hpos
        omega
      rw [dif_neg hpos, hm0]
      simp

theorem length_numeral_le {m : ℕ} (h : m < 10000000000000000000) : (numeral m).length ≤ 19 := by
  rw [numeral]
  split
  · decide
  · rw [List.length_reverse, List.length_map, Nat.digits_length_le_iff (by decide)]
    exact h

theorem length_numeral_natAbs_le (n : Int64) : (numeral n.toInt.natAbs).length ≤ 19 := by
  have hle := Int64.le_toInt n
  have hlt := Int64.toInt_lt n
  exact length_numeral_le (by omega)

theorem putDigits_eq {n : Int64} {m : ℕ} (hm : n.toInt = m) {buf : Bytes}
    (hfit : (numeral m).length ≤ buf.length) :
    putDigits buf n = some ((numeral m).reverse ++ buf.drop (numeral m).length, (numeral m).length) := by
  rw [putDigits]
  by_cases hm0 : m = 0
  · have hn : n = 0 := by
      rw [← Int64.toInt_inj, hm, hm0]
      rfl
    have hstop : ∀ buf : Bytes, digitLoop 0 buf 1 = some (buf, 1) := fun buf => by
      rw [digitLoop, dif_neg (by decide)]
    rw [hm0] at hfit ⊢
    cases buf with
    | nil => exact absurd hfit (by decide)
    | cons b buf =>
      rw [if_pos hn, hn]
      change digitLoop 0 (digit 0 :: buf) 1 = _
      rw [hstop]
      rfl
  · have hn : n ≠ 0 := by
      rintro rfl
      exact hm0 (Int.natCast_eq_zero.mp hm.symm)
    have hnumeral : numeral m = ((Nat.digits 10 m).map digit).reverse := if_neg hm0
    rw [hnumeral, List.length_reverse, List.length_map] at hfit
    have hloop := digitLoop_eq hm hfit []
    rw [if_neg hn, hnumeral, List.reverse_reverse, List.length_reverse, List.length_map]
    simpa using hloop

-- ════════════════════════════════════════════════════════════════════════
-- The sign and the reversal
-- ════════════════════════════════════════════════════════════════════════

theorem putSign_eq {neg : Bool} {done rest : Bytes} (hfit : rest ≠ []) :
    ∃ rest', putSign neg (done ++ rest) done.length =
      some ((if neg then done ++ [minus] else done) ++ rest', (if neg then done ++ [minus] else done).length) := by
  obtain ⟨b, rest, rfl⟩ := List.exists_cons_of_ne_nil hfit
  cases neg with
  | false => exact ⟨b :: rest, rfl⟩
  | true =>
    refine ⟨rest, ?_⟩
    rw [putSign, if_pos rfl, Clib.setAt_append_cons]
    simp

/-- What is written in the end, of a buffer that has been filled up to some place. -/
theorem map_reverseLoop (fd : ℕ) (a b : Bytes) :
    (reverseLoop (a ++ b) a.length).map (fun buf => (fd, buf.take a.length)) = some (fd, a.reverse) := by
  rw [Clib.reverseLoop_eq_some (by simp), List.take_left, Option.map_some, List.take_left']
  exact List.length_reverse

theorem toInt_abs {n : Int64} (h : n ≠ Int64.minValue) :
    (if n < 0 then -n else n).toInt = n.toInt.natAbs := by
  have hle := Int64.le_toInt n
  have hlt := Int64.toInt_lt n
  have hmin : n.toInt ≠ Int64.minValue.toInt := fun he => h (Int64.toInt_inj.mp he)
  rw [Int64.toInt_minValue] at hmin
  have hneg : n < 0 ↔ n.toInt < 0 := Int64.lt_iff_toInt_lt
  split
  · next hn =>
    rw [hneg] at hn
    rw [Int64.toInt_neg, Int.bmod_eq_of_le (by omega) (by omega)]
    omega
  · next hn =>
    rw [hneg] at hn
    omega

/-- Every number but the smallest. -/
theorem printTo_eq (fd : ℕ) {n : Int64} (h : n ≠ Int64.minValue) {buf : Bytes} (hbuf : buf.length = 32) :
    printTo fd buf n = some (fd,
      if n.toInt < 0 then minus :: numeral n.toInt.natAbs else numeral n.toInt.natAbs) := by
  have hlen := length_numeral_natAbs_le n
  have hdigits := putDigits_eq (toInt_abs h) (Nat.le_trans hlen (by omega : 19 ≤ buf.length))
  generalize numeral n.toInt.natAbs = ds at hlen hdigits ⊢
  have hrest : buf.drop ds.length ≠ [] := by
    rw [ne_eq, List.drop_eq_nil_iff]
    omega
  obtain ⟨rest, hsign⟩ : ∃ rest, putSign (n < 0) (ds.reverse ++ buf.drop ds.length) ds.reverse.length = _ :=
    putSign_eq hrest
  rw [List.length_reverse] at hsign
  rw [printTo, hdigits, Option.bind_some, hsign, Option.bind_some, map_reverseLoop]
  have hneg : n < 0 ↔ n.toInt < 0 := Int64.lt_iff_toInt_lt
  by_cases hn : n.toInt < 0
  · rw [if_pos (decide_eq_true (hneg.mpr hn)), if_pos hn]
    simp
  · rw [if_neg (by rwa [decide_eq_true_eq, hneg]), if_neg hn, List.reverse_reverse]

/-- Negated, the smallest number is still negative: there is no digit. -/
theorem printTo_minValue (fd : ℕ) {buf : Bytes} (hbuf : buf.length = 32) :
    printTo fd buf Int64.minValue = some (fd, [minus]) := by
  have hneg : (if Int64.minValue < 0 then -Int64.minValue else Int64.minValue) = Int64.minValue := rfl
  have hstop : putDigits buf Int64.minValue = some (buf, 0) := by
    rw [putDigits, if_neg (by decide), digitLoop, dif_neg (by decide)]
  obtain ⟨b, rest, rfl⟩ := List.exists_cons_of_ne_nil (List.ne_nil_of_length_eq_add_one hbuf)
  have hsign : putSign (decide (Int64.minValue < 0)) (b :: rest) 0 = some (minus :: rest, 1) := by
    rw [decide_eq_true (by decide)]
    rfl
  rw [printTo, hneg, hstop, Option.bind_some, hsign, Option.bind_some]
  exact map_reverseLoop fd [minus] rest

theorem length_decimal_le {n : Int64} :
    (if n.toInt < 0 then minus :: numeral n.toInt.natAbs else numeral n.toInt.natAbs).length ≤ 32 := by
  have hlen := length_numeral_natAbs_le n
  split
  · rw [List.length_cons]
    omega
  · omega

theorem printsExactly_printTo_iff (fd : ℕ) (n : Int64) :
    PrintsExactly (printTo fd) fd n ↔ n ≠ Int64.minValue := by
  constructor
  · rintro h rfl
    obtain ⟨bs, hbs, _, hdecimal⟩ := h (List.replicate 32 0) List.length_replicate
    rw [printTo_minValue fd List.length_replicate] at hbs
    cases hbs
    exact absurd hdecimal.value (by decide)
  · exact fun h buf hbuf => ⟨_, printTo_eq fd h hbuf, length_decimal_le, Clib.isDecimal_numeral _⟩

/-- **Printing**: both functions write the decimal representation of every number but the smallest. -/
theorem printsExactly_iff (n : Int64) :
    (PrintsExactly printLong 1 n ∧ PrintsExactly printLongErr 2 n) ↔ n ≠ Int64.minValue := by
  rw [printLong, printLongErr, printsExactly_printTo_iff, printsExactly_printTo_iff, and_self_iff]

/-- Of the smallest number only the sign is written. -/
theorem sign_only :
    printLong (List.replicate 32 0) Int64.minValue = some (1, [minus]) ∧
    printLongErr (List.replicate 32 0) Int64.minValue = some (2, [minus]) ∧
    ¬ PrintsExactly printLong 1 Int64.minValue := by
  refine ⟨printTo_minValue 1 List.length_replicate, printTo_minValue 2 List.length_replicate, fun h => ?_⟩
  exact (printsExactly_printTo_iff 1 Int64.minValue).mp h rfl

end Wali.Tests
