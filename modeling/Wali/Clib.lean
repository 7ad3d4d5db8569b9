import Wali.Cut
import Mathlib.Data.Nat.Notation

/-!
# Bytes, memory and streams of C

The part of the C library that the tests and the benchmark use: `memcpy` between byte arrays,
`strlen`, `fgets`, and integers as bytes in memory. Arrays that are written element by element.
-/

namespace Clib

abbrev Bytes := List UInt8

-- ════════════════════════════════════════════════════════════════════════
-- Integers
-- ════════════════════════════════════════════════════════════════════════

/-- The `k` bytes of an integer, the lowest first. -/
def leBytes : ℕ → ℕ → Bytes
  | 0, _ => []
  | k + 1, v => UInt8.ofNat v :: leBytes k (v / 256)

def ofLeBytes : Bytes → ℕ
  | [] => 0
  | b :: bs => b.toNat + 256 * ofLeBytes bs

@[simp] theorem length_leBytes (k v : ℕ) : (leBytes k v).length = k := by
  induction k generalizing v with
  | zero => rfl
  | succ k ih => rw [leBytes, List.length_cons, ih]

/-- The number of values of `k` bytes. -/
def byteRange : ℕ → ℕ
  | 0 => 1
  | k + 1 => 256 * byteRange k

theorem ofLeBytes_leBytes (k v : ℕ) : ofLeBytes (leBytes k v) = v % byteRange k := by
  induction k generalizing v with
  | zero => exact (Nat.mod_one v).symm
  | succ k ih =>
    rw [leBytes, ofLeBytes, ih, byteRange, Nat.mod_mul]
    rfl

-- ════════════════════════════════════════════════════════════════════════
-- Memory
-- ════════════════════════════════════════════════════════════════════════

/-- The bytes at the offsets from some address. -/
abbrev Memory := ℕ → UInt8

/-- `memcpy` into memory. -/
def store (m : Memory) (a : ℕ) (bs : Bytes) : Memory :=
  fun x => if a ≤ x then (bs[x - a]?).getD (m x) else m x

/-- `n` bytes from memory. -/
def load (m : Memory) (a n : ℕ) : Bytes := (List.range n).map fun i => m (a + i)

@[simp] theorem length_load (m : Memory) (a n : ℕ) : (load m a n).length = n := by
  rw [load, List.length_map, List.length_range]

theorem load_store_self (m : Memory) (a : ℕ) (bs : Bytes) : load (store m a bs) a bs.length = bs := by
  refine List.ext_getElem (length_load _ _ _) fun i hi hb => ?_
  simp only [load, List.getElem_map, List.getElem_range, store, Nat.le_add_right, if_true,
    Nat.add_sub_cancel_left, List.getElem?_eq_getElem hb, Option.getD_some]

/-- What is stored elsewhere does not matter. -/
theorem load_store_of_disjoint (m : Memory) {a n b : ℕ} {bs : Bytes}
    (h : a + n ≤ b ∨ b + bs.length ≤ a) : load (store m b bs) a n = load m a n := by
  refine List.map_congr_left fun i hi => ?_
  rw [List.mem_range] at hi
  unfold store
  split
  · rw [List.getElem?_eq_none (by omega)]
    rfl
  · rfl

/-- The length of the string at an address, if it ends within `limit` bytes. -/
def strlen (m : Memory) (a limit : ℕ) : Option ℕ := (List.range limit).find? fun i => m (a + i) == 0

/-- The string at an address, if it ends within `limit` bytes. -/
def string (m : Memory) (a limit : ℕ) : Option Bytes := (strlen m a limit).map (load m a)

theorem load_succ (m : Memory) (a n : ℕ) : load m a (n + 1) = load m a n ++ [m (a + n)] := by
  rw [load, List.range_succ, List.map_append]
  rfl

section Strings

variable {m : Memory} {a limit : ℕ} {s : Bytes}

theorem strlen_of_load (h : load m a (s.length + 1) = s ++ [0]) (hs : 0 ∉ s) (hlimit : s.length < limit) :
    strlen m a limit = some s.length := by
  have hat (i : ℕ) (hi : i < s.length + 1) : some (m (a + i)) = (s ++ [0])[i]? := by
    rw [← h, load, List.getElem?_map, List.getElem?_range hi]
    rfl
  rw [strlen, List.find?_range_eq_some]
  refine ⟨?_, List.mem_range.mpr hlimit, fun i hi => ?_⟩
  · have hz := hat s.length (Nat.lt_succ_self _)
    rw [List.getElem?_concat_length] at hz
    rw [Option.some.inj hz]
    rfl
  · have hi' := hat i (Nat.lt_succ_of_lt hi)
    rw [List.getElem?_append_left hi] at hi'
    rw [Bool.not_eq_true', beq_eq_false_iff_ne]
    intro hz
    rw [hz] at hi'
    exact hs (List.mem_of_getElem? hi'.symm)

theorem string_of_load (h : load m a (s.length + 1) = s ++ [0]) (hs : 0 ∉ s) (hlimit : s.length < limit) :
    string m a limit = some s := by
  rw [string, strlen_of_load h hs hlimit, Option.map_some]
  rw [load_succ] at h
  rw [(List.append_inj' h rfl).1]

end Strings

-- ════════════════════════════════════════════════════════════════════════
-- Streams
-- ════════════════════════════════════════════════════════════════════════

def newline : UInt8 := 10

/-- At most `n` bytes of a stream, up to the end of the line, and what is left. -/
def takeLine : ℕ → Bytes → Bytes × Bytes
  | 0, stream => ([], stream)
  | _ + 1, [] => ([], [])
  | n + 1, b :: stream =>
    if b = newline then ([b], stream)
    else (b :: (takeLine n stream).1, (takeLine n stream).2)

/-- `fgets` into a buffer of `size` bytes: what is read, without the NUL, and what is left. -/
def fgets (size : ℕ) (stream : Bytes) : Option (Bytes × Bytes) :=
  if stream = [] then none else some (takeLine (size - 1) stream)

theorem takeLine_append_newline {line : Bytes} {n : ℕ} (hline : newline ∉ line) (hn : line.length < n)
    (rest : Bytes) : takeLine n (line ++ newline :: rest) = (line ++ [newline], rest) := by
  induction line generalizing n with
  | nil =>
    obtain ⟨n, rfl⟩ := Nat.exists_eq_succ_of_ne_zero (Nat.ne_zero_of_lt hn)
    exact if_pos rfl
  | cons b line ih =>
    obtain ⟨n, rfl⟩ := Nat.exists_eq_succ_of_ne_zero (Nat.ne_zero_of_lt hn)
    rw [List.mem_cons, not_or] at hline
    rw [List.cons_append, takeLine, if_neg (Ne.symm hline.1), ih hline.2 (Nat.lt_of_succ_lt_succ hn)]
    rfl

/-- A line that does not fit is read up to the end of the buffer. -/
theorem takeLine_of_le_length {line : Bytes} {n : ℕ} (hline : newline ∉ line) (hn : n ≤ line.length)
    (rest : Bytes) : takeLine n (line ++ rest) = (line.take n, line.drop n ++ rest) := by
  induction line generalizing n with
  | nil =>
    obtain rfl := Nat.le_zero.mp hn
    rfl
  | cons b line ih =>
    cases n with
    | zero => rfl
    | succ n =>
      rw [List.mem_cons, not_or] at hline
      rw [List.cons_append, takeLine, if_neg (Ne.symm hline.1), ih hline.2 (Nat.le_of_succ_le_succ hn)]
      rfl

theorem length_takeLine_lt {n : ℕ} (hn : 0 < n) {stream : Bytes} (hne : stream ≠ []) :
    (takeLine n stream).2.length < stream.length := by
  induction stream generalizing n with
  | nil => exact absurd rfl hne
  | cons b stream ih =>
    obtain ⟨n, rfl⟩ := Nat.exists_eq_succ_of_ne_zero (Nat.ne_zero_of_lt hn)
    rw [takeLine]
    split
    · exact Nat.lt_succ_self _
    · cases n with
      | zero => exact Nat.lt_succ_self _
      | succ n =>
        by_cases hs : stream = []
        · rw [hs]
          exact Nat.zero_lt_one
        · exact Nat.lt_succ_of_lt (ih (Nat.succ_pos n) hs)

/-- Every call takes something from the stream. -/
theorem length_of_fgets {size : ℕ} {stream chunk rest : Bytes} (h : fgets size stream = some (chunk, rest))
    (hsize : 1 < size) : rest.length < stream.length := by
  unfold fgets at h
  split at h
  · cases h
  · next hne =>
    have hlt := length_takeLine_lt (Nat.sub_pos_of_lt hsize) hne
    rw [Option.some.inj h] at hlt
    exact hlt

-- ════════════════════════════════════════════════════════════════════════
-- Arrays
-- ════════════════════════════════════════════════════════════════════════

section Arrays

variable {α : Type*}

/-- `buf[i] = x`, if there is such a place. -/
def setAt (buf : List α) (i : ℕ) (x : α) : Option (List α) :=
  if i < buf.length then some (buf.set i x) else none

/-- Two elements are exchanged. -/
def swapAt (buf : List α) (i j : ℕ) : Option (List α) :=
  match buf[i]?, buf[j]? with
  | some x, some y => (setAt buf i y).bind fun buf => setAt buf j x
  | _, _ => none

/-- The loop that reverses the first `n` elements: the first with the last, and so on up to the middle. -/
def reverseLoop (buf : List α) (n : ℕ) : Option (List α) :=
  (List.range (n / 2)).foldlM (fun buf j => swapAt buf j (n - 1 - j)) buf

theorem setAt_append_cons (a : List α) (x y : α) (b : List α) :
    setAt (a ++ x :: b) a.length y = some (a ++ y :: b) := by
  rw [setAt, if_pos (by simp)]
  simp

theorem swapAt_eq_some {buf : List α} {i j : ℕ} (hi : i < buf.length) (hj : j < buf.length) :
    swapAt buf i j = some ((buf.set i buf[j]).set j buf[i]) := by
  rw [swapAt, List.getElem?_eq_getElem hi, List.getElem?_eq_getElem hj]
  change (setAt buf i buf[j]).bind _ = _
  rw [setAt, if_pos hi, Option.bind_some, setAt, if_pos (by rwa [List.length_set])]

/-- After `k` turns the outer `k` elements at each end have changed places. -/
theorem foldlM_swapAt {buf : List α} {n : ℕ} (hn : n ≤ buf.length) {k : ℕ} (hk : k ≤ n / 2) :
    ∃ out, (List.range k).foldlM (fun buf j => swapAt buf j (n - 1 - j)) buf = some out ∧
      out.length = buf.length ∧
      ∀ p, out[p]? = if p < n ∧ (p < k ∨ n ≤ p + k) then buf[n - 1 - p]? else buf[p]? := by
  induction k with
  | zero =>
    refine ⟨buf, rfl, rfl, fun p => ?_⟩
    rw [if_neg (by omega)]
  | succ k ih =>
    obtain ⟨out, hout, hlen, hget⟩ := ih (by omega)
    have hi : k < out.length := by omega
    have hj : n - 1 - k < out.length := by omega
    refine ⟨(out.set k out[n - 1 - k]).set (n - 1 - k) out[k], ?_, ?_, fun p => ?_⟩
    · rw [List.range_succ, List.foldlM_append, hout]
      change (swapAt out k (n - 1 - k)).bind some = _
      rw [swapAt_eq_some hi hj, Option.bind_some]
    · rw [List.length_set, List.length_set, hlen]
    · have hleft : some out[k] = buf[k]? := by
        rw [← List.getElem?_eq_getElem, hget, if_neg (by omega)]
      have hright : some out[n - 1 - k] = buf[n - 1 - k]? := by
        rw [← List.getElem?_eq_getElem, hget, if_neg (by omega)]
      rw [List.getElem?_set, List.getElem?_set, List.length_set, if_pos hi, if_pos hj, hleft, hright, hget p]
      by_cases hlast : n - 1 - k = p
      · subst hlast
        have hback : n - 1 - (n - 1 - k) = k := by omega
        rw [if_pos rfl, if_pos (by omega), hback]
      · rw [if_neg hlast]
        by_cases hfirst : k = p
        · subst hfirst
          rw [if_pos rfl, if_pos (by omega)]
        · have hsame : (p < n ∧ (p < k ∨ n ≤ p + k)) ↔ p < n ∧ (p < k + 1 ∨ n ≤ p + (k + 1)) := by omega
          rw [if_neg hfirst, if_congr hsame rfl rfl]

theorem reverseLoop_eq_some {buf : List α} {n : ℕ} (hn : n ≤ buf.length) :
    reverseLoop buf n = some ((buf.take n).reverse ++ buf.drop n) := by
  obtain ⟨out, hout, hlen, hget⟩ := foldlM_swapAt hn (Nat.le_refl (n / 2))
  rw [reverseLoop, hout]
  refine congrArg some (List.ext_getElem? fun p => ?_)
  rw [hget]
  by_cases hp : p < n
  · have htake : ((buf.take n).reverse)[p]? = buf[n - 1 - p]? := by
      rw [List.getElem?_reverse (by rw [List.length_take]; omega), List.length_take, Nat.min_eq_left hn,
        List.getElem?_take_of_lt (by omega)]
    rw [List.getElem?_append_left (by rw [List.length_reverse, List.length_take]; omega), htake]
    split
    · rfl
    · -- the middle stays where it is
      have hmiddle : n - 1 - p = p := by omega
      rw [hmiddle]
  · rw [if_neg (by omega), List.getElem?_append_right (by rw [List.length_reverse, List.length_take]; omega),
      List.length_reverse, List.length_take, Nat.min_eq_left hn, List.getElem?_drop,
      Nat.add_sub_cancel' (by omega)]

end Arrays

end Clib
