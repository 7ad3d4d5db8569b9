import Wali.Clib
import Mathlib.Data.Nat.Digits.Lemmas

/-!
# Numbers as text

The decimal representation of an integer: digits without leading zeros, and a minus in front of
them if it is negative.
-/

namespace Clib

/-- The byte of a digit. -/
def digit (d : ℕ) : UInt8 := UInt8.ofNat (48 + d)

def minus : UInt8 := 45

def isDigit (b : UInt8) : Bool := decide (48 ≤ b.toNat) && decide (b.toNat ≤ 57)

def digitsValue (ds : Bytes) : ℕ := ds.foldl (fun v d => 10 * v + (d.toNat - 48)) 0

def parseDigits (ds : Bytes) : Option ℕ :=
  if ds ≠ [] ∧ ds.all isDigit = true then some (digitsValue ds) else none

def parseDecimal : Bytes → Option ℤ
  | [] => none
  | b :: bs =>
    if b = minus then (parseDigits bs).map fun (v : ℕ) => -(v : ℤ)
    else (parseDigits (b :: bs)).map fun (v : ℕ) => (v : ℤ)

/-- Digits without leading zeros. -/
structure IsNumeral (ds : Bytes) : Prop where
  ne_nil : ds ≠ []
  digits : ∀ d ∈ ds, isDigit d = true
  no_zero : ds.head? = some (digit 0) → ds = [digit 0]

/-- The text is the decimal representation of the number. -/
structure IsDecimal (n : ℤ) (bs : Bytes) : Prop where
  text : ∃ ds, IsNumeral ds ∧ bs = if n < 0 then minus :: ds else ds
  zero : n = 0 → bs = [digit 0]
  value : parseDecimal bs = some n

def numeral (m : ℕ) : Bytes := if m = 0 then [digit 0] else ((Nat.digits 10 m).map digit).reverse

theorem toNat_digit {d : ℕ} (h : d < 10) : (digit d).toNat = 48 + d := by
  rw [digit, UInt8.toNat_ofNat']
  omega

theorem isDigit_digit {d : ℕ} (h : d < 10) : isDigit (digit d) = true := by
  rw [isDigit, toNat_digit h, Bool.and_eq_true, decide_eq_true_eq, decide_eq_true_eq]
  omega

theorem digitsValue_append_singleton (ds : Bytes) (d : UInt8) :
    digitsValue (ds ++ [d]) = 10 * digitsValue ds + (d.toNat - 48) := by
  rw [digitsValue, List.foldl_append]
  rfl

/-- The digits are written from the lowest to the highest and read the other way round. -/
theorem digitsValue_reverse_map {ds : List ℕ} (h : ∀ d ∈ ds, d < 10) :
    digitsValue (ds.map digit).reverse = Nat.ofDigits 10 ds := by
  induction ds with
  | nil => rfl
  | cons d ds ih =>
    rw [List.forall_mem_cons] at h
    rw [List.map_cons, List.reverse_cons, digitsValue_append_singleton, ih h.2, toNat_digit h.1,
      Nat.ofDigits_cons]
    omega

theorem digitsValue_numeral (m : ℕ) : digitsValue (numeral m) = m := by
  rw [numeral]
  split
  · next h =>
    rw [h]
    rfl
  · rw [digitsValue_reverse_map fun d hd => Nat.digits_lt_base (by decide) hd, Nat.ofDigits_digits]

theorem isNumeral_numeral (m : ℕ) : IsNumeral (numeral m) := by
  rw [numeral]
  split
  · exact ⟨by simp, fun d hd => by rw [List.mem_singleton.mp hd]; rfl, fun _ => rfl⟩
  · next hm =>
    have hne : Nat.digits 10 m ≠ [] := Nat.digits_ne_nil_iff_ne_zero.mpr hm
    refine ⟨by simpa using hne, fun d hd => ?_, fun hzero => ?_⟩
    · obtain ⟨k, hk, rfl⟩ := List.mem_map.mp (List.mem_reverse.mp hd)
      exact isDigit_digit (Nat.digits_lt_base (by decide) hk)
    · -- the first one written is the highest digit, which is not zero
      exfalso
      rw [List.head?_reverse, List.getLast?_map, List.getLast?_eq_getLast_of_ne_nil hne] at hzero
      have hlt := Nat.digits_lt_base (by decide) (List.getLast_mem hne)
      have hnat := congrArg UInt8.toNat (Option.some.inj hzero)
      rw [toNat_digit hlt, toNat_digit (by decide)] at hnat
      exact Nat.getLast_digit_ne_zero 10 hm (by omega)

theorem parseDigits_numeral (m : ℕ) : parseDigits (numeral m) = some m := by
  have h := isNumeral_numeral m
  rw [parseDigits, if_pos ⟨h.ne_nil, List.all_eq_true.mpr h.digits⟩, digitsValue_numeral]

theorem parseDecimal_of_isNumeral {ds : Bytes} (h : IsNumeral ds) :
    parseDecimal ds = (parseDigits ds).map fun (v : ℕ) => (v : ℤ) := by
  obtain ⟨b, bs, rfl⟩ := List.exists_cons_of_ne_nil h.ne_nil
  have hb : b ≠ minus := by
    rintro rfl
    exact absurd (h.digits minus List.mem_cons_self) (by decide)
  rw [parseDecimal, if_neg hb]

theorem isDecimal_numeral (n : ℤ) :
    IsDecimal n (if n < 0 then minus :: numeral n.natAbs else numeral n.natAbs) where
  text := ⟨numeral n.natAbs, isNumeral_numeral _, rfl⟩
  zero := by
    rintro rfl
    rfl
  value := by
    split
    · next h =>
      rw [parseDecimal, if_pos rfl, parseDigits_numeral, Option.map_some]
      exact congrArg some (by omega)
    · next h =>
      rw [parseDecimal_of_isNumeral (isNumeral_numeral _), parseDigits_numeral, Option.map_some]
      exact congrArg some (by omega)

end Clib
