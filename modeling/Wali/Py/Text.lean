import Wali.Py.Str
import Wali.Cut

/-!
# Replacing, joining and searching

Facts about the string methods that assemble texts. A character that does not occur in the text
that is searched for separates: what is in front of it and what is behind it are independent.
-/

namespace Py

-- ════════════════════════════════════════════════════════════════════════
-- Numbers
-- ════════════════════════════════════════════════════════════════════════

theorem digitValue?_of_isDigit {c : Char} (h : c.isDigit = true) :
    digitValue? c = some (c.toNat - 48) := by
  obtain ⟨hlow, hhigh⟩ := Char.isDigit_iff_toNat.mp h
  have hzero : 0x30 ≤ c.toNat ∧ c.toNat < 0x30 + 10 := ⟨hlow, Nat.lt_succ_of_le hhigh⟩
  have hfind : (digitZeros.find? fun z => z ≤ c.toNat ∧ c.toNat < z + 10) = some 0x30 :=
    List.find?_cons_of_pos (decide_eq_true hzero)
  rw [digitValue?, hfind]
  rfl

theorem isDigit_of_mem_natStr {n : ℕ} {c : Char} (h : c ∈ natStr n) : c.isDigit = true :=
  Nat.isDigit_of_mem_toDigits (by decide) (by decide) h

theorem not_mem_natStr {c : Char} (h : c.isDigit = false) (n : ℕ) : c ∉ natStr n := by
  intro hc
  rw [isDigit_of_mem_natStr hc] at h
  cases h

theorem isDigit_natStr {n : ℕ} {c : Char} (h : c ∈ natStr n) : isDigit c = true := by
  rw [isDigit, digitValue?_of_isDigit (isDigit_of_mem_natStr h)]
  rfl

theorem isDigit_of_isSpace {c : Char} (h : isSpace c = true) : isDigit c = false := by
  have hcodes : ∀ n ∈ spaceCodes, (digitZeros.find? fun z => z ≤ n ∧ n < z + 10) = none := by
    decide +kernel
  rw [isDigit, digitValue?, hcodes _ (List.contains_iff_mem.mp h)]
  rfl

theorem natStr_ne_nil (n : ℕ) : natStr n ≠ [] := Nat.toDigits_ne_nil

theorem foldl_digits {ds : Str} (h : ∀ c ∈ ds, c.isDigit = true) (i : ℕ) :
    ds.foldl (fun n c => 10 * n + (digitValue? c).getD 0) i = Nat.ofDigitChars 10 ds i := by
  induction ds generalizing i with
  | nil => rfl
  | cons c ds ih =>
    rw [List.foldl_cons, digitValue?_of_isDigit (h c List.mem_cons_self),
      ih fun d hd => h d (List.mem_cons_of_mem c hd)]
    rfl

/-- A number is read back. -/
theorem intOfDigits_natStr (n : ℕ) : intOfDigits (natStr n) = n :=
  (foldl_digits (fun _ => isDigit_of_mem_natStr) 0).trans
    (Nat.ofDigitChars_toDigits (by decide) (by decide))

-- ════════════════════════════════════════════════════════════════════════
-- Searching
-- ════════════════════════════════════════════════════════════════════════

theorem contains_iff {s sub : Str} : contains s sub = true ↔ sub <:+: s := by
  simp only [contains, List.any_eq_true, List.mem_tails, List.isPrefixOf_iff_prefix]
  constructor
  · rintro ⟨t, hsuf, hpre⟩
    exact hpre.isInfix.trans hsuf.isInfix
  · rintro ⟨u, v, rfl⟩
    exact ⟨sub ++ v, ⟨u, by rw [List.append_assoc]⟩, List.prefix_append sub v⟩

theorem infix_strip (s : Str) : strip s <:+: s :=
  (List.rdropWhile_prefix isSpace _).isInfix.trans (List.dropWhile_suffix isSpace).isInfix

section Separated

variable {old new a b : Str} {c : Char}

theorem prefix_append_cons_iff (hc : c ∉ old) : old <+: a ++ c :: b ↔ old <+: a := by
  constructor
  · rintro ⟨t, ht⟩
    rcases List.append_eq_append_iff.mp ht with ⟨u, rfl, _⟩ | ⟨u, rfl, hu⟩
    · exact List.prefix_append old u
    · cases u with
      | nil => rw [List.append_nil]
      | cons d u =>
        obtain ⟨rfl, _⟩ := List.cons.inj hu
        exact absurd (by simp) hc
  · exact fun h => h.trans (List.prefix_append a (c :: b))

theorem infix_append_cons_iff (hc : c ∉ old) : old <:+: a ++ c :: b ↔ old <:+: a ∨ old <:+: b := by
  constructor
  · rintro ⟨u, v, h⟩
    rcases List.append_eq_append_iff.mp h with ⟨w, rfl, _⟩ | ⟨w, hw, hv⟩
    · exact Or.inl ⟨u, w, rfl⟩
    · cases w with
      | nil => exact Or.inl ⟨u, [], by rw [List.append_nil, hw, List.append_nil]⟩
      | cons d w =>
        obtain ⟨rfl, rfl⟩ := List.cons.inj hv
        rcases List.append_eq_append_iff.mp hw with ⟨z, _, rfl⟩ | ⟨z, _, hz⟩
        · exact absurd (by simp) hc
        · cases z with
          | nil =>
            rw [List.nil_append] at hz
            exact absurd (hz ▸ List.mem_cons_self) hc
          | cons e z =>
            obtain ⟨_, rfl⟩ := List.cons.inj hz
            exact Or.inr ⟨z, v, rfl⟩
  · rintro (h | h)
    · exact h.trans (List.prefix_append a (c :: b)).isInfix
    · exact h.trans ⟨a ++ [c], [], by simp⟩

/-- A text in front that lacks the first character takes no part. -/
theorem infix_append_iff_of_head {d : Char} {x u : Str} (hd : d ∉ u) (s : Str) :
    d :: x <:+: u ++ s ↔ d :: x <:+: s := by
  induction u with
  | nil => rfl
  | cons c u ih =>
    rw [List.mem_cons, not_or] at hd
    rw [List.cons_append, List.infix_cons_iff, ih hd.2, or_iff_right]
    exact fun h => hd.1 (List.cons_prefix_cons.mp h).1

/-- Characters that are not in the text that is searched for may be exchanged. -/
theorem infix_replaceChar_iff {d e : Char} {x : Str} (hd : d ∉ x) (he : e ∉ x) (s : Str) :
    x <:+: replaceChar d e s ↔ x <:+: s := by
  have hpre : ∀ {y : Str}, d ∉ y → e ∉ y → ∀ s, y <+: replaceChar d e s ↔ y <+: s := by
    intro y
    induction y with
    | nil => exact fun _ _ s => iff_of_true List.nil_prefix List.nil_prefix
    | cons a y ih =>
      intro hdy hey s
      rw [List.mem_cons, not_or] at hdy hey
      cases s with
      | nil => rfl
      | cons c s =>
        change a :: y <+: (if c = d then e else c) :: replaceChar d e s ↔ _
        rw [List.cons_prefix_cons, List.cons_prefix_cons, ih hdy.2 hey.2]
        refine and_congr_left' ?_
        split
        · next hc => exact iff_of_false (Ne.symm hey.1) fun h => hdy.1 (hc.symm.trans h.symm)
        · rfl
  induction s with
  | nil => rfl
  | cons c s ih =>
    have hcons := hpre hd he (c :: s)
    rw [replaceChar, List.map_cons] at hcons ⊢
    rw [List.infix_cons_iff, List.infix_cons_iff, hcons]
    exact or_congr_right ih

theorem replaceFrom_append (u s : Str) : replaceFrom old new u.length (u ++ s) = replace s old new := by
  induction u with
  | nil => rfl
  | cons c u ih => exact ih

theorem replace_cons_of_no_match (h : ¬ old <+: c :: a) :
    replace (c :: a) old new = c :: replace a old new := by
  rw [replace, replaceFrom, if_neg (mt List.isPrefixOf_iff_prefix.mp h), replace]

theorem replace_append_self (hne : old ≠ []) (s : Str) :
    replace (old ++ s) old new = new ++ replace s old new := by
  obtain ⟨d, t, rfl⟩ := List.exists_cons_of_ne_nil hne
  have hpre := List.isPrefixOf_iff_prefix.mpr (List.prefix_append (d :: t) s)
  rw [List.cons_append] at hpre
  rw [replace, List.cons_append, replaceFrom, if_pos hpre]
  exact congrArg (new ++ ·) (replaceFrom_append t s)

/-- A text that lacks a character of the old text stays. -/
theorem replace_of_not_mem (hc : c ∈ old) (ha : c ∉ a) : replace a old new = a := by
  induction a with
  | nil => rfl
  | cons d a ih =>
    rw [List.mem_cons, not_or] at ha
    rw [replace_cons_of_no_match, ih ha.2]
    intro hpre
    rcases List.mem_cons.mp (hpre.subset hc) with h | h
    · exact ha.1 h
    · exact ha.2 h

theorem replace_append_cons (hne : old ≠ []) (hc : c ∉ old) :
    replace (a ++ c :: b) old new = replace a old new ++ c :: replace b old new := by
  induction hn : a.length using Nat.strong_induction_on generalizing a with
  | h n ih =>
  subst hn
  by_cases hpre : old <+: a
  · obtain ⟨u, rfl⟩ := hpre
    have hlt : u.length < (old ++ u).length := by
      rw [List.length_append]
      exact Nat.lt_add_of_pos_left (List.length_pos_of_ne_nil hne)
    rw [List.append_assoc, replace_append_self hne, replace_append_self hne, ih _ hlt rfl,
      List.append_assoc]
  · cases a with
    | nil =>
      refine replace_cons_of_no_match fun h => hpre ?_
      exact (prefix_append_cons_iff (a := []) hc).mp h
    | cons d a =>
      have hpre' : ¬ old <+: d :: (a ++ c :: b) := fun h =>
        hpre ((prefix_append_cons_iff (a := d :: a) hc).mp h)
      rw [List.cons_append, replace_cons_of_no_match hpre', replace_cons_of_no_match hpre,
        ih a.length (by simp) rfl, List.cons_append]

end Separated

-- ════════════════════════════════════════════════════════════════════════
-- Joining
-- ════════════════════════════════════════════════════════════════════════

theorem join_cons_cons (sep x y : Str) (ys : List Str) :
    join sep (x :: y :: ys) = x ++ sep ++ join sep (y :: ys) := List.intercalate_cons_cons

theorem join_cons (sep x : Str) (ys : List Str) :
    join sep (x :: ys) = x ++ ys.flatMap fun y => sep ++ y := by
  induction ys generalizing x with
  | nil => simp [join]
  | cons y ys ih => rw [join_cons_cons, ih, List.flatMap_cons, List.append_assoc, List.append_assoc]

theorem mem_join {sep : Str} {xs : List Str} {c : Char} (h : c ∈ join sep xs) :
    c ∈ sep ∨ ∃ x ∈ xs, c ∈ x := by
  cases xs with
  | nil => cases h
  | cons x xs =>
    rw [join_cons, List.mem_append, List.mem_flatMap] at h
    rcases h with h | ⟨y, hy, h⟩
    · exact Or.inr ⟨x, List.mem_cons_self, h⟩
    · rcases List.mem_append.mp h with h | h
      · exact Or.inl h
      · exact Or.inr ⟨y, List.mem_cons_of_mem x hy, h⟩

theorem join_append (sep : Str) {xs ys : List Str} (hx : xs ≠ []) (hy : ys ≠ []) :
    join sep (xs ++ ys) = join sep xs ++ (sep ++ join sep ys) := by
  obtain ⟨x, xs, rfl⟩ := List.exists_cons_of_ne_nil hx
  obtain ⟨y, ys, rfl⟩ := List.exists_cons_of_ne_nil hy
  rw [List.cons_append, join_cons, join_cons, join_cons, List.flatMap_append, List.flatMap_cons]
  simp only [List.append_assoc]

/-- A part in the middle. -/
theorem join_append_cons (sep : Str) (xs : List Str) (y : Str) (ys : List Str) :
    join sep (xs ++ y :: ys) = xs.flatMap (fun x => x ++ sep) ++ y ++ ys.flatMap fun y => sep ++ y := by
  induction xs with
  | nil => exact join_cons sep y ys
  | cons x xs ih =>
    obtain ⟨z, zs, hz⟩ := List.exists_cons_of_ne_nil (List.append_ne_nil_of_right_ne_nil xs
      (List.cons_ne_nil y ys))
    rw [List.cons_append, hz, join_cons_cons, ← hz, ih, List.flatMap_cons]
    simp only [List.append_assoc]

-- ════════════════════════════════════════════════════════════════════════
-- Splitting
-- ════════════════════════════════════════════════════════════════════════

theorem splitOn_append_cons (c : Char) (a b : Str) :
    (a ++ c :: b).splitOn c = a.splitOn c ++ b.splitOn c :=
  List.splitOnP_append_cons a b (beq_self_eq_true c)

theorem splitOn_of_not_mem {c : Char} {s : Str} (h : c ∉ s) : s.splitOn c = [s] := by
  refine List.splitOnP_eq_singleton fun d hd => beq_eq_false_iff_ne.mpr ?_
  rintro rfl
  exact h hd

/-- A part of a list has elements of the list, but no separators. -/
theorem mem_splitOnP {α : Type} {p : α → Bool} {s x : List α} (h : x ∈ s.splitOnP p) :
    ∀ d ∈ x, p d = false ∧ d ∈ s := by
  induction s generalizing x with
  | nil =>
    rw [List.mem_singleton.mp h]
    exact fun _ hd => nomatch hd
  | cons e s ih =>
    rw [List.splitOnP_cons_eq_if_modifyHead] at h
    have hlift : ∀ {y : List α}, y ∈ s.splitOnP p → ∀ d ∈ y, p d = false ∧ d ∈ e :: s :=
      fun hy d hd => ⟨(ih hy d hd).1, List.mem_cons_of_mem e (ih hy d hd).2⟩
    split at h
    · rcases List.mem_cons.mp h with rfl | h
      · exact fun _ hd => nomatch hd
      · exact hlift h
    · next he =>
      obtain ⟨l, ls, hl⟩ := List.exists_cons_of_ne_nil (List.splitOnP_ne_nil p s)
      rw [hl, List.modifyHead_cons, List.mem_cons] at h
      rcases h with rfl | h
      · refine List.forall_mem_cons.mpr ⟨⟨Bool.eq_false_iff.mpr he, List.mem_cons_self⟩, ?_⟩
        exact hlift (by rw [hl]; exact List.mem_cons_self)
      · exact hlift (by rw [hl]; exact List.mem_cons_of_mem l h)

theorem mem_splitOn {c : Char} {s x : Str} (h : x ∈ s.splitOn c) : c ∉ x ∧ ∀ d ∈ x, d ∈ s :=
  ⟨fun hc => absurd (mem_splitOnP h c hc).1 (by simp), fun d hd => (mem_splitOnP h d hd).2⟩

theorem splitOn_join {c : Char} {xs : List Str} (h : xs ≠ []) :
    (join [c] xs).splitOn c = xs.flatMap (·.splitOn c) := by
  induction xs with
  | nil => exact absurd rfl h
  | cons x xs ih =>
    cases xs with
    | nil => simp [join]
    | cons y ys =>
      rw [join_cons_cons, List.append_assoc, List.singleton_append, splitOn_append_cons,
        ih (List.cons_ne_nil y ys)]
      exact List.flatMap_cons.symm

/-- Every line break gets a text behind it. -/
def afterBreaks (t s : Str) : Str := s.flatMap fun c => if c = '\n' then '\n' :: t else [c]

theorem afterBreaks_append (t a b : Str) : afterBreaks t (a ++ b) = afterBreaks t a ++ afterBreaks t b :=
  List.flatMap_append ..

theorem afterBreaks_cons {t s : Str} {c : Char} (h : c ≠ '\n') :
    afterBreaks t (c :: s) = c :: afterBreaks t s := by
  rw [afterBreaks, List.flatMap_cons, if_neg h]
  rfl

theorem afterBreaks_newline (s : Str) :
    afterBreaks ['\t'] ('\n' :: s) = '\n' :: '\t' :: afterBreaks ['\t'] s := rfl

theorem afterBreaks_of_not_mem {t s : Str} (h : '\n' ∉ s) : afterBreaks t s = s := by
  induction s with
  | nil => rfl
  | cons c s ih =>
    rw [List.mem_cons, not_or] at h
    rw [afterBreaks_cons (Ne.symm h.1), ih h.2]

theorem mem_afterBreaks {t s : Str} {c : Char} (h : c ∈ afterBreaks t s) : c ∈ t ∨ c ∈ s := by
  obtain ⟨d, hd, hc⟩ := List.mem_flatMap.mp h
  split at hc
  · rename_i hd'
    rcases List.mem_cons.mp hc with rfl | hc
    · exact Or.inr (hd' ▸ hd)
    · exact Or.inl hc
  · exact Or.inr (List.mem_singleton.mp hc ▸ hd)

theorem exists_afterBreaks_cons (t : Str) (c : Char) (s : Str) : ∃ s', afterBreaks t (c :: s) = c :: s' := by
  by_cases hc : c = '\n'
  · subst hc
    exact ⟨_, rfl⟩
  · exact ⟨_, afterBreaks_cons hc⟩

theorem dropWhile_afterBreaks (s : Str) :
    (afterBreaks ['\t'] s).dropWhile isSpace = afterBreaks ['\t'] (s.dropWhile isSpace) := by
  induction s with
  | nil => rfl
  | cons c s ih =>
    by_cases hc : c = '\n'
    · subst hc
      exact ih
    · rw [afterBreaks_cons hc, List.dropWhile_cons, List.dropWhile_cons]
      split
      · exact ih
      · exact (afterBreaks_cons hc).symm

/-- So may be what stands behind line breaks. -/
theorem infix_afterBreaks_iff {x : Str} (hn : '\n' ∉ x) (ht : '\t' ∉ x) (hx : x ≠ []) (s : Str) :
    x <:+: afterBreaks ['\t'] s ↔ x <:+: s := by
  have hpre : ∀ {y : Str}, '\n' ∉ y → ∀ s, y <+: afterBreaks ['\t'] s ↔ y <+: s := by
    intro y
    induction y with
    | nil => exact fun _ s => iff_of_true List.nil_prefix List.nil_prefix
    | cons a y ih =>
      intro hy s
      rw [List.mem_cons, not_or] at hy
      cases s with
      | nil => rfl
      | cons c s =>
        by_cases hc : c = '\n'
        · subst hc
          exact iff_of_false (fun h => hy.1 (List.cons_prefix_cons.mp h).1.symm)
            fun h => hy.1 (List.cons_prefix_cons.mp h).1.symm
        · rw [afterBreaks_cons hc, List.cons_prefix_cons, List.cons_prefix_cons, ih hy.2]
  induction s with
  | nil => rfl
  | cons c s ih =>
    by_cases hc : c = '\n'
    · subst hc
      have hskip : ∀ {d : Char} {u : Str}, d ∉ x → (x <:+: d :: u ↔ x <:+: u) := fun hd =>
        (infix_append_cons_iff (a := []) hd).trans (or_iff_right fun h => hx (List.infix_nil.mp h))
      rw [afterBreaks_newline, hskip hn, hskip ht, hskip hn]
      exact ih
    · have hcons := hpre hn (c :: s)
      rw [afterBreaks_cons hc] at hcons ⊢
      rw [List.infix_cons_iff, List.infix_cons_iff, hcons]
      exact or_congr_right ih

/-- Splitting at line breaks and joining by a longer text. -/
theorem join_splitOn (t s : Str) : join ('\n' :: t) (s.splitOn '\n') = afterBreaks t s := by
  induction s with
  | nil => simp [join, afterBreaks]
  | cons c s ih =>
    obtain ⟨l, ls, hl⟩ := List.exists_cons_of_ne_nil (List.splitOnP_ne_nil (· == '\n') s)
    rw [List.splitOn, hl] at ih
    rw [List.splitOn, List.splitOnP_cons_eq_if_modifyHead, hl, afterBreaks, List.flatMap_cons]
    by_cases hc : c = '\n'
    · rw [if_pos (beq_iff_eq.mpr hc), if_pos hc, join_cons_cons, ih]
      rfl
    · rw [if_neg (mt beq_iff_eq.mp hc), if_neg hc, List.modifyHead_cons, join_cons]
      rw [join_cons] at ih
      exact congrArg (c :: ·) ih

end Py
