import Wali.Py.Text

/-!
# Regular expressions

The part of `re` that a pattern of literals and greedy character classes needs, as matchers with a
continuation: what follows a repetition is tried after its longest prefix first, then after ever
shorter ones. `sub` is `re.sub`, from left to right, for patterns that do not match the empty text.
-/

namespace Py.Regex

variable {β : Type*}

/-- A literal. -/
def lit (t : Str) (k : Str → Option β) (s : Str) : Option β :=
  if t.isPrefixOf s then k (s.drop t.length) else none

/-- A character class under `*`. The continuation gets what was matched, and the rest. -/
def star (p : Char → Bool) (k : Str → Str → Option β) : Str → Str → Option β
  | acc, [] => k acc []
  | acc, c :: s =>
    if p c then (star p k (acc ++ [c]) s).or (k acc (c :: s)) else k acc (c :: s)

/-- A character class under `+`. -/
def plus (p : Char → Bool) (k : Str → Str → Option β) : Str → Option β
  | [] => none
  | c :: s => if p c then star p k [c] s else none

/-- `re.sub`: at a match its replacement is written and the search goes on behind it. The number
says how many characters of the last match are still to be skipped. -/
def subFrom (m : Str → Option (Str × Str)) : ℕ → Str → Str
  | _, [] => []
  | n + 1, _ :: s => subFrom m n s
  | 0, c :: s =>
    match m (c :: s) with
    | some (repl, rest) => repl ++ subFrom m (s.length - rest.length) s
    | none => c :: subFrom m 0 s

def sub (m : Str → Option (Str × Str)) (s : Str) : Str := subFrom m 0 s

section Repetition

variable {p : Char → Bool} {k : Str → Str → Option β}

theorem lit_append (t : Str) (k : Str → Option β) (s : Str) : lit t k (t ++ s) = k s := by
  rw [lit, if_pos (List.isPrefixOf_iff_prefix.mpr (List.prefix_append t s)), List.drop_left]

theorem lit_eq_some_iff {t : Str} {k : Str → Option β} {s : Str} {b : β} :
    lit t k s = some b ↔ ∃ r, s = t ++ r ∧ k r = some b := by
  constructor
  · intro h
    obtain ⟨hpre, h⟩ := Option.ite_none_right_eq_some.mp h
    obtain ⟨r, rfl⟩ := List.isPrefixOf_iff_prefix.mp hpre
    exact ⟨r, rfl, by rwa [List.drop_left] at h⟩
  · rintro ⟨r, rfl, h⟩
    rwa [lit_append]

theorem lit_cons_ne {c d : Char} (h : c ≠ d) (t : Str) (k : Str → Option β) (s : Str) :
    lit (c :: t) k (d :: s) = none := by
  rw [lit, if_neg]
  intro hpre
  obtain ⟨_, he⟩ := List.isPrefixOf_iff_prefix.mp hpre
  exact h (List.cons.inj he).1

/-- If what follows cannot start with a character of the class, only the longest match counts. -/
theorem star_eq_of_stop (hk : ∀ a c s, p c = true → k a (c :: s) = none) (acc s : Str) :
    star p k acc s = k (acc ++ s.takeWhile p) (s.dropWhile p) := by
  induction s generalizing acc with
  | nil => rw [star, List.takeWhile_nil, List.dropWhile_nil, List.append_nil]
  | cons c s ih =>
    rw [star]
    by_cases hc : p c = true
    · rw [if_pos hc, hk acc c s hc, Option.or_none, ih, List.takeWhile_cons_of_pos hc,
        List.dropWhile_cons_of_pos hc, List.append_assoc, List.singleton_append]
    · rw [if_neg hc, List.takeWhile_cons_of_neg hc, List.dropWhile_cons_of_neg hc, List.append_nil]

theorem plus_eq_of_stop (hk : ∀ a c s, p c = true → k a (c :: s) = none) (s : Str) :
    plus p k s = if s.takeWhile p = [] then none else k (s.takeWhile p) (s.dropWhile p) := by
  cases s with
  | nil => rfl
  | cons c s =>
    rw [plus]
    by_cases hc : p c = true
    · rw [if_pos hc, star_eq_of_stop hk, List.takeWhile_cons_of_pos hc, List.dropWhile_cons_of_pos hc]
      rfl
    · rw [if_neg hc, List.takeWhile_cons_of_neg hc, if_pos rfl]

theorem star_cons (c : Char) (s acc : Str) : star p k acc (c :: s) =
    if p c then (star p k (acc ++ [c]) s).or (k acc (c :: s)) else k acc (c :: s) := rfl

/-- A beginning in the class, and what follows it. -/
def Splits (p : Char → Bool) (s a r : Str) : Prop := s = a ++ r ∧ ∀ c ∈ a, p c = true

theorem splits_nil {a r : Str} : Splits p [] a r ↔ a = [] ∧ r = [] := by
  rw [Splits, eq_comm, List.append_eq_nil_iff]
  refine and_iff_left_of_imp ?_
  rintro ⟨rfl, _⟩ c hc
  cases hc

theorem splits_cons {c : Char} {s a r : Str} : Splits p (c :: s) a r ↔
    a = [] ∧ r = c :: s ∨ p c = true ∧ ∃ a', a = c :: a' ∧ Splits p s a' r := by
  constructor
  · rintro ⟨he, ha⟩
    cases a with
    | nil => exact Or.inl ⟨rfl, he.symm⟩
    | cons d a =>
      obtain ⟨rfl, htail⟩ := List.cons.inj he
      rw [List.forall_mem_cons] at ha
      exact Or.inr ⟨ha.1, a, rfl, htail, ha.2⟩
  · rintro (⟨rfl, rfl⟩ | ⟨hc, a, rfl, rfl, ha⟩)
    · exact ⟨rfl, fun _ hd => nomatch hd⟩
    · exact ⟨rfl, List.forall_mem_cons.mpr ⟨hc, ha⟩⟩

/-- A repetition fails if what follows fails after every beginning in the class. -/
theorem star_eq_none_iff {acc s : Str} : star p k acc s = none ↔
    ∀ a r, Splits p s a r → k (acc ++ a) r = none := by
  induction s generalizing acc with
  | nil => simp [star, splits_nil]
  | cons c s ih =>
    have hshort : k (acc ++ []) (c :: s) = k acc (c :: s) := by rw [List.append_nil]
    rw [star_cons]
    by_cases hc : p c = true
    · rw [if_pos hc, Option.or_eq_none_iff, ih]
      constructor
      · rintro ⟨hlong, hnone⟩ a r hs
        rcases splits_cons.mp hs with ⟨rfl, rfl⟩ | ⟨_, a, rfl, htail⟩
        · exact hshort.trans hnone
        · simpa using hlong a r htail
      · intro h
        refine ⟨fun a r hs => ?_, hshort ▸ h [] (c :: s) (splits_cons.mpr (Or.inl ⟨rfl, rfl⟩))⟩
        simpa using h (c :: a) r (splits_cons.mpr (Or.inr ⟨hc, a, rfl, hs⟩))
    · rw [if_neg hc]
      constructor
      · intro hnone a r hs
        rcases splits_cons.mp hs with ⟨rfl, rfl⟩ | ⟨hc', _⟩
        · exact hshort.trans hnone
        · exact absurd hc' hc
      · exact fun h => hshort ▸ h [] (c :: s) (splits_cons.mpr (Or.inl ⟨rfl, rfl⟩))

/-- What follows a repetition was found after the longest beginning that allows it. -/
theorem exists_of_star_eq_some {acc s : Str} {b : β} (h : star p k acc s = some b) :
    ∃ a r, Splits p s a r ∧ k (acc ++ a) r = some b ∧
      ∀ a' r', Splits p s a' r' → a.length < a'.length → k (acc ++ a') r' = none := by
  induction s generalizing acc with
  | nil =>
    refine ⟨[], [], splits_nil.mpr ⟨rfl, rfl⟩, by rwa [List.append_nil], fun a' r' hs hlt => ?_⟩
    obtain ⟨rfl, _⟩ := splits_nil.mp hs
    exact absurd hlt (Nat.lt_irrefl _)
  | cons c s ih =>
    -- nothing is taken if every longer beginning fails
    have hshort (h : k acc (c :: s) = some b)
        (hnone : p c = true → ∀ a r, Splits p s a r → k (acc ++ c :: a) r = none) :
        ∃ a r, Splits p (c :: s) a r ∧ k (acc ++ a) r = some b ∧
          ∀ a' r', Splits p (c :: s) a' r' → a.length < a'.length → k (acc ++ a') r' = none := by
      refine ⟨[], c :: s, splits_cons.mpr (Or.inl ⟨rfl, rfl⟩), by rwa [List.append_nil], ?_⟩
      intro a' r' hs hlt
      rcases splits_cons.mp hs with ⟨rfl, _⟩ | ⟨hc, a, rfl, htail⟩
      · exact absurd hlt (Nat.lt_irrefl _)
      · exact hnone hc a r' htail
    rw [star_cons] at h
    by_cases hc : p c = true
    · rw [if_pos hc, Option.or_eq_some_iff] at h
      rcases h with h | ⟨hnone, h⟩
      · obtain ⟨a, r, hs, hk, hmax⟩ := ih h
        refine ⟨c :: a, r, splits_cons.mpr (Or.inr ⟨hc, a, rfl, hs⟩), by simpa using hk, ?_⟩
        intro a' r' hs' hlt
        rcases splits_cons.mp hs' with ⟨rfl, _⟩ | ⟨_, a', rfl, htail⟩
        · exact absurd hlt (Nat.not_lt_zero _)
        · simpa using hmax a' r' htail (Nat.lt_of_succ_lt_succ hlt)
      · exact hshort h fun _ a r hs => by simpa using star_eq_none_iff.mp hnone a r hs
    · rw [if_neg hc] at h
      exact hshort h fun hc' => absurd hc' hc

end Repetition

section Sub

variable {m : Str → Option (Str × Str)}

theorem subFrom_append (u s : Str) : subFrom m u.length (u ++ s) = subFrom m 0 s := by
  induction u with
  | nil => rfl
  | cons c u ih => exact ih

/-- Where the pattern does not match, the text stays. -/
theorem sub_cons_of_none {c : Char} {s : Str} (h : m (c :: s) = none) :
    sub m (c :: s) = c :: sub m s := by
  rw [sub, subFrom, h, sub]

/-- A match is replaced. -/
theorem sub_append_of_some {u s repl : Str} (hu : u ≠ []) (h : m (u ++ s) = some (repl, s)) :
    sub m (u ++ s) = repl ++ sub m s := by
  obtain ⟨c, u, rfl⟩ := List.exists_cons_of_ne_nil hu
  rw [List.cons_append] at h ⊢
  have hlen : (u ++ s).length - s.length = u.length := by simp
  simp only [sub, subFrom, h]
  rw [hlen, subFrom_append]

/-- A text that stays, in front of any other: no match starts in it. -/
theorem sub_append_of_none {u s : Str} (h : ∀ v w, u = v ++ w → w ≠ [] → m (w ++ s) = none) :
    sub m (u ++ s) = u ++ sub m s := by
  induction u with
  | nil => rfl
  | cons c u ih =>
    have hnone := h [] (c :: u) rfl (List.cons_ne_nil c u)
    rw [List.cons_append] at hnone
    rw [List.cons_append, List.cons_append, sub_cons_of_none hnone,
      ih fun v w he hw => h (c :: v) w (by rw [he, List.cons_append]) hw]

/-- Two texts are searched one after the other if no match goes from one into the other. -/
theorem sub_append {u t : Str} (hm : ∀ s repl rest, m s = some (repl, rest) → ∃ v, v ≠ [] ∧ s = v ++ rest)
    (h : ∀ v w, u = v ++ w → w ≠ [] → m (w ++ t) = (m w).map fun e => (e.1, e.2 ++ t)) :
    sub m (u ++ t) = sub m u ++ sub m t := by
  induction hn : u.length using Nat.strong_induction_on generalizing u with
  | h n ih =>
  subst hn
  cases u with
  | nil => rfl
  | cons c u =>
    have hfirst := h [] (c :: u) rfl (List.cons_ne_nil c u)
    cases he : m (c :: u) with
    | none =>
      rw [he, Option.map_none, List.cons_append] at hfirst
      rw [List.cons_append, sub_cons_of_none hfirst, sub_cons_of_none he, List.cons_append,
        ih u.length (by simp) (fun v w hvw => h (c :: v) w (by rw [hvw, List.cons_append])) rfl]
    | some e =>
      obtain ⟨v, hv, hvu⟩ := hm _ _ _ he
      rw [he, Option.map_some, hvu, List.append_assoc] at hfirst
      rw [hvu] at he
      have hlt : e.2.length < (c :: u).length := by
        rw [hvu, List.length_append]
        exact Nat.lt_add_of_pos_left (List.length_pos_of_ne_nil hv)
      rw [hvu, List.append_assoc, sub_append_of_some hv hfirst, sub_append_of_some hv he,
        List.append_assoc,
        ih _ hlt (fun v' w hw => h (v ++ v') w (by rw [hvu, hw, List.append_assoc])) rfl]

/-- A replacement in which a text does not occur, neither inside nor across its ends. -/
structure Sealed (x repl : Str) : Prop where
  first : ∃ c u, repl = c :: u ∧ c ∉ x
  behind : ∀ t, x <:+: repl ++ t → x <:+: t

/-- A beginning of the result that no replacement starts with is a beginning of the text. -/
theorem prefix_of_prefix_sub {y s : Str}
    (hrepl : ∀ t repl rest, t <:+ s → m t = some (repl, rest) → ∃ c u, repl = c :: u ∧ c ∉ y)
    (h : y <+: sub m s) : y <+: s := by
  induction y generalizing s with
  | nil => exact List.nil_prefix
  | cons a y ih =>
    cases s with
    | nil => exact h
    | cons d s =>
      cases he : m (d :: s) with
      | none =>
        rw [sub_cons_of_none he, List.cons_prefix_cons] at h
        refine List.cons_prefix_cons.mpr ⟨h.1, ih (fun t repl rest ht hm => ?_) h.2⟩
        obtain ⟨c, u, hc, hmem⟩ := hrepl t repl rest (ht.trans (List.suffix_cons d s)) hm
        exact ⟨c, u, hc, fun hy => hmem (List.mem_cons_of_mem a hy)⟩
      | some e =>
        obtain ⟨c, u, hc, hmem⟩ := hrepl _ _ _ List.suffix_rfl he
        have hsub : sub m (d :: s) = c :: (u ++ subFrom m (s.length - e.2.length) s) := by
          rw [sub, subFrom, he, ← List.cons_append, ← hc]
        rw [hsub, List.cons_prefix_cons] at h
        exact absurd (h.1 ▸ List.mem_cons_self) hmem

/-- If every occurrence of a text starts a match, and the replacements are sealed, none is left. -/
theorem not_infix_sub {x s : Str}
    (hm : ∀ s repl rest, m s = some (repl, rest) → ∃ v, v ≠ [] ∧ s = v ++ rest)
    (hstart : ∀ t, t <:+ s → x <+: t → m t ≠ none) (hx : x ≠ [])
    (hrepl : ∀ t repl rest, t <:+ s → m t = some (repl, rest) → Sealed x repl) :
    ¬ x <:+: sub m s := by
  induction hn : s.length using Nat.strong_induction_on generalizing s with
  | h n ih =>
  subst hn
  have htail : ∀ t, t <:+ s → t.length < s.length → ¬ x <:+: sub m t := fun t ht hlt =>
    ih t.length hlt (fun t' ht' => hstart t' (ht'.trans ht))
      (fun t' repl rest ht' => hrepl t' repl rest (ht'.trans ht)) rfl
  cases s with
  | nil => exact fun h => hx (List.infix_nil.mp h)
  | cons c s =>
    cases he : m (c :: s) with
    | none =>
      rw [sub_cons_of_none he]
      intro h
      rcases List.infix_cons_iff.mp h with hpre | hin
      · -- what is at the start of the result is at the start of the text, and would be matched
        rw [← sub_cons_of_none he] at hpre
        exact hstart _ List.suffix_rfl
          (prefix_of_prefix_sub (fun t repl rest ht hmt => (hrepl t repl rest ht hmt).first) hpre) he
      · exact htail s (List.suffix_cons c s) (Nat.lt_succ_self _) hin
    | some e =>
      obtain ⟨v, hv, hvs⟩ := hm _ _ _ he
      have hsealed := hrepl _ _ _ List.suffix_rfl he
      rw [hvs] at he htail ⊢
      rw [sub_append_of_some hv he]
      intro h
      refine htail e.2 (List.suffix_append v e.2) ?_ (hsealed.behind _ h)
      rw [List.length_append]
      exact Nat.lt_add_of_pos_left (List.length_pos_of_ne_nil hv)

end Sub

section Replace

variable {old new x s : Str}

/-- `str.replace` is the substitution of a literal. -/
theorem replace_eq_sub (hne : old ≠ []) :
    replace s old new = sub (lit old fun rest => some (new, rest)) s := by
  induction hn : s.length using Nat.strong_induction_on generalizing s with
  | h n ih =>
  subst hn
  by_cases hpre : old <+: s
  · obtain ⟨u, rfl⟩ := hpre
    have hlt : u.length < (old ++ u).length := by
      rw [List.length_append]
      exact Nat.lt_add_of_pos_left (List.length_pos_of_ne_nil hne)
    rw [replace_append_self hne, sub_append_of_some hne (lit_append old _ u), ih _ hlt rfl]
  · have hnone : lit old (fun rest => some (new, rest)) s = none :=
      if_neg (mt List.isPrefixOf_iff_prefix.mp hpre)
    cases s with
    | nil => rfl
    | cons c s =>
      rw [replace_cons_of_no_match hpre, sub_cons_of_none hnone, ih s.length (Nat.lt_succ_self _) rfl]

/-- Replacing by a sealed text brings nothing in. -/
theorem not_infix_replace (hne : old ≠ []) (hx : x ≠ []) (hnew : Sealed x new) (h : ¬ x <:+: s) :
    ¬ x <:+: replace s old new := by
  rw [replace_eq_sub hne]
  refine not_infix_sub (fun t repl rest ht => ?_) (fun t ht hpre => ?_) hx fun t repl rest _ ht => ?_
  · obtain ⟨r, rfl, he⟩ := lit_eq_some_iff.mp ht
    obtain ⟨rfl, rfl⟩ := Prod.mk.inj (Option.some.inj he)
    exact ⟨old, hne, rfl⟩
  · exact absurd (hpre.isInfix.trans ht.isInfix) h
  · obtain ⟨r, _, he⟩ := lit_eq_some_iff.mp ht
    obtain ⟨rfl, _⟩ := Prod.mk.inj (Option.some.inj he)
    exact hnew

end Replace

end Py.Regex
