import Wali.Py.Text

/-!
# Words

A text is cut from the right into its longest end of characters with a property and what is in
front of it. `str.rstrip`, `str.rsplit` and `str.split` are described by such cuts.
-/

namespace Py

/-- The text does not end in a character with the property. -/
def Trimmed (p : Char → Bool) (s : Str) : Prop := ∀ c ∈ s.getLast?, p c = false

section Cut

variable {p : Char → Bool} {a tail : Str}

theorem trimmed_nil : Trimmed p [] := by
  intro c hc
  cases hc

theorem trimmed_concat {c : Char} : Trimmed p (a ++ [c]) ↔ p c = false := by
  simp only [Trimmed, List.getLast?_concat, Option.mem_some_iff, forall_eq']

theorem Trimmed.append {b : Str} (hb : Trimmed p b) (hne : b ≠ []) : Trimmed p (a ++ b) := by
  intro c hc
  rw [List.getLast?_append_of_ne_nil _ hne] at hc
  exact hb c hc

theorem trimmed_of_forall (h : ∀ c ∈ a, p c = false) : Trimmed p a :=
  fun c hc => h c (List.mem_of_getLast? hc)

theorem Trimmed.of_append (h : Trimmed p (tail ++ a)) : Trimmed p a := by
  by_cases hnil : a = []
  · rw [hnil]
    exact trimmed_nil
  · intro c hc
    rw [← List.getLast?_append_of_ne_nil tail hnil] at hc
    exact h c hc

theorem Trimmed.rdropWhile_append (ha : Trimmed p a) (ht : ∀ c ∈ tail, p c = true) :
    (a ++ tail).rdropWhile p = a := by
  induction tail using List.reverseRecOn with
  | nil =>
    rw [List.append_nil, List.rdropWhile_eq_self_iff]
    intro hne
    rw [ha _ (List.getLast?_eq_some_getLast hne)]
    exact Bool.false_ne_true
  | append_singleton tail c ih =>
    rw [← List.append_assoc, List.rdropWhile_concat_pos _ _ _ (ht c (by simp))]
    exact ih fun d hd => ht d (List.mem_append_left _ hd)

theorem Trimmed.rtakeWhile_append (ha : Trimmed p a) (ht : ∀ c ∈ tail, p c = true) :
    (a ++ tail).rtakeWhile p = tail := by
  have h := List.rdropWhile_append_rtakeWhile (p := p) (l := a ++ tail)
  rw [ha.rdropWhile_append ht] at h
  exact List.append_cancel_left h

/-- The last character either has the property or not. -/
theorem Trimmed.eq_nil (ha : Trimmed p a) (hn : Trimmed (fun c => !p c) a) : a = [] := by
  rcases List.eq_nil_or_concat' a with rfl | ⟨u, c, rfl⟩
  · rfl
  · have hc := trimmed_concat.mp hn
    rw [trimmed_concat.mp ha] at hc
    cases hc

/-- Every text has such a cut. -/
theorem exists_cut (p : Char → Bool) (s : Str) :
    ∃ a tail, s = a ++ tail ∧ Trimmed p a ∧ ∀ c ∈ tail, p c = true := by
  induction s using List.reverseRecOn with
  | nil => exact ⟨[], [], rfl, trimmed_nil, by simp⟩
  | append_singleton s c ih =>
    cases hc : p c with
    | false => exact ⟨s ++ [c], [], by simp, trimmed_concat.mpr hc, by simp⟩
    | true =>
      obtain ⟨a, tail, rfl, ha, ht⟩ := ih
      refine ⟨a, tail ++ [c], List.append_assoc .., ha, fun d hd => ?_⟩
      rcases List.mem_append.mp hd with hd | hd
      · exact ht d hd
      · rw [List.mem_singleton.mp hd, hc]

end Cut

theorem endsWith_append_replicate (s : Str) (c : Char) {k : ℕ} (hk : 0 < k) :
    endsWith (s ++ List.replicate k c) [c] = true := by
  obtain ⟨n, rfl⟩ := Nat.exists_eq_succ_of_ne_zero hk.ne'
  rw [List.replicate_succ', ← List.append_assoc]
  exact endsWith_iff.mpr (List.suffix_append _ _)

def Blank (s : Str) : Prop := ∀ c ∈ s, isSpace c = true

section Strip

variable {a tail : Str}

theorem Trimmed.dropWhile_ne_nil (ha : Trimmed isSpace a) (hne : a ≠ []) : a.dropWhile isSpace ≠ [] := by
  intro hnil
  obtain ⟨u, c, rfl⟩ := (List.eq_nil_or_concat' a).resolve_left hne
  have hc := List.dropWhile_eq_nil_iff.mp hnil c (by simp)
  rw [trimmed_concat.mp ha] at hc
  cases hc

theorem Trimmed.dropWhile_append (ha : Trimmed isSpace a) (hne : a ≠ []) (b : Str) :
    (a ++ b).dropWhile isSpace = a.dropWhile isSpace ++ b := by
  rw [List.dropWhile_append, if_neg]
  rw [List.isEmpty_iff]
  exact ha.dropWhile_ne_nil hne

theorem Trimmed.dropWhile (ha : Trimmed isSpace a) : Trimmed isSpace (a.dropWhile isSpace) := by
  rw [← List.takeWhile_append_dropWhile (p := isSpace) (l := a)] at ha
  exact ha.of_append

theorem Trimmed.strip_append (ha : Trimmed isSpace a) (hne : a ≠ []) (ht : Blank tail) :
    strip (a ++ tail) = a.dropWhile isSpace := by
  rw [strip, ha.dropWhile_append hne, ha.dropWhile.rdropWhile_append ht]

theorem Trimmed.strip (ha : Trimmed isSpace a) (hne : a ≠ []) : Py.strip a = a.dropWhile isSpace := by
  have hblank : Blank [] := by simp [Blank]
  have h := ha.strip_append hne hblank
  rw [List.append_nil] at h
  exact h

end Strip

/-- White space is in none of it, and there is some of it. -/
def IsWord (w : Str) : Prop := w ≠ [] ∧ ∀ c ∈ w, isSpace c = false

theorem IsWord.trimmed {w : Str} (h : IsWord w) : Trimmed isSpace w := trimmed_of_forall h.2

/-- The text is `t`, white space, the word `w` and perhaps more white space. -/
structure LastWord (s t w : Str) : Prop where
  parts : ∃ gap tail, s = t ++ gap ++ w ++ tail ∧ gap ≠ [] ∧ Blank gap ∧ Blank tail
  ne_nil : t ≠ []
  trimmed : Trimmed isSpace t
  word : IsWord w

/-- What is in front of the last word, and the word, after the blanks at the end are cut off. -/
theorem exists_word {body : Str} (hne : body ≠ []) (hb : Trimmed isSpace body) :
    ∃ rest w, body = rest ++ w ∧ Trimmed (fun c => !isSpace c) rest ∧ IsWord w := by
  obtain ⟨rest, w, rfl, hr, hw⟩ := exists_cut (fun c => !isSpace c) body
  refine ⟨rest, w, rfl, hr, ?_, fun c hc => by simpa using hw c hc⟩
  rintro rfl
  rw [List.append_nil] at hne hb
  exact hne (hb.eq_nil hr)

/-- The three results of `rsplit(maxsplit=1)`. -/
theorem rsplitOnce_cases (s : Str) :
    (rsplitOnce s = [] ∧ Blank s) ∨
    (∃ lead w tail, rsplitOnce s = [w] ∧ s = lead ++ w ++ tail ∧ Blank lead ∧ IsWord w ∧ Blank tail) ∨
    ∃ t w, rsplitOnce s = [t, w] ∧ LastWord s t w := by
  obtain ⟨body, tail, rfl, hbody, htail⟩ := exists_cut isSpace s
  by_cases hne : body = []
  · subst hne
    refine Or.inl ⟨?_, htail⟩
    simp only [rsplitOnce, hbody.rdropWhile_append htail, if_true]
  obtain ⟨rest, w, rfl, hrest, hw⟩ := exists_word hne hbody
  have hword : ∀ c ∈ w, (!isSpace c) = true := fun c hc => by simp [hw.2 c hc]
  obtain ⟨t, gap, rfl, ht, hgap⟩ := exists_cut isSpace rest
  have heq : rsplitOnce (t ++ gap ++ w ++ tail) = if t = [] then [w] else [t, w] := by
    simp only [rsplitOnce, hbody.rdropWhile_append htail, hrest.rdropWhile_append hword,
      hrest.rtakeWhile_append hword, ht.rdropWhile_append hgap, if_neg hne]
  by_cases hnil : t = []
  · subst hnil
    exact Or.inr (Or.inl ⟨gap, w, tail, heq, rfl, hgap, hw, htail⟩)
  · refine Or.inr (Or.inr ⟨t, w, heq.trans (if_neg hnil), ⟨gap, tail, rfl, ?_, hgap, htail⟩, hnil, ht, hw⟩)
    -- The text in front of the word ends in white space, `t` does not.
    rintro rfl
    rw [List.append_nil] at hrest
    exact hnil (ht.eq_nil hrest)

theorem LastWord.rsplitOnce {s t w : Str} (h : LastWord s t w) : Py.rsplitOnce s = [t, w] := by
  obtain ⟨⟨gap, tail, rfl, hne, hgap, htail⟩, hnil, ht, hw⟩ := h
  have hword : ∀ c ∈ w, (!isSpace c) = true := fun c hc => by simp [hw.2 c hc]
  have hrest : Trimmed (fun c => !isSpace c) (t ++ gap) := by
    refine Trimmed.append (trimmed_of_forall fun c hc => ?_) hne
    simp [hgap c hc]
  have hbody : Trimmed isSpace (t ++ gap ++ w) := hw.trimmed.append hw.1
  have hbne : t ++ gap ++ w ≠ [] := by simp [hnil]
  simp only [Py.rsplitOnce, hbody.rdropWhile_append htail, hrest.rdropWhile_append hword,
    hrest.rtakeWhile_append hword, ht.rdropWhile_append hgap, if_neg hbne, if_neg hnil]

theorem rsplitOnce_eq_pair_iff {s t w : Str} : rsplitOnce s = [t, w] ↔ LastWord s t w := by
  refine ⟨fun h => ?_, LastWord.rsplitOnce⟩
  rcases rsplitOnce_cases s with ⟨h', _⟩ | ⟨_, _, _, h', _⟩ | ⟨t', w', h', hl⟩
  · cases h.symm.trans h'
  · cases h.symm.trans h'
  · cases h.symm.trans h'
    exact hl

theorem LastWord.unique {s t w t' w' : Str} (h : LastWord s t w) (h' : LastWord s t' w') : t = t' ∧ w = w' := by
  have heq := h.rsplitOnce.symm.trans h'.rsplitOnce
  simpa using heq

/-- A word at the end of the text is an end of the last word. -/
theorem LastWord.append_word {s t w u v tail : Str} (h : LastWord s t w) (hs : s = u ++ v ++ tail)
    (hv : IsWord v) (ht : Blank tail) : ∃ gap r, u = t ++ gap ++ r ∧ w = r ++ v ∧ gap ≠ [] ∧ Blank gap := by
  obtain ⟨gap, tail', hs', hne, hgap, htail⟩ := h.parts
  have hbody : u ++ v = t ++ gap ++ w := by
    have hl := (hv.trimmed.append hv.1 (a := u)).rdropWhile_append ht
    have hr := (h.word.trimmed.append h.word.1 (a := t ++ gap)).rdropWhile_append htail
    rw [← hl, ← hr, ← hs, ← hs']
  rcases List.append_eq_append_iff.mp hbody with ⟨r, hr, hw⟩ | ⟨r, hr, hw⟩
  · -- `v` would reach into the white space.
    obtain ⟨g, c, rfl⟩ := (List.eq_nil_or_concat' gap).resolve_left hne
    rcases List.eq_nil_or_concat' r with rfl | ⟨r, d, rfl⟩
    · exact ⟨g ++ [c], [], by simpa using hr.symm, by simpa using hw.symm, hne, hgap⟩
    · have hcd : c = d := by
        have hlast := congrArg List.getLast? hr
        simpa using hlast
      have hspace := hgap c (by simp)
      rw [hv.2 c (by rw [hw, hcd]; simp)] at hspace
      cases hspace
  · exact ⟨gap, r, hr, hw, hne, hgap⟩

/-- `s.split()`. -/
def words (s : Str) : List Str := (s.splitOnP isSpace).filter (· ≠ [])

theorem words_append_cons {c : Char} (hc : isSpace c = true) (a b : Str) :
    words (a ++ c :: b) = words a ++ words b := by
  rw [words, List.splitOnP_append_cons _ _ hc, List.filter_append]
  rfl

theorem words_blank_append {lead : Str} (h : Blank lead) (b : Str) : words (lead ++ b) = words b := by
  induction lead with
  | nil => rfl
  | cons c lead ih =>
    refine (words_append_cons (h c List.mem_cons_self) [] (lead ++ b)).trans ?_
    rw [ih fun d hd => h d (List.mem_cons_of_mem _ hd)]
    rfl

theorem words_blank {s : Str} (h : Blank s) : words s = [] := by
  rw [← List.append_nil s, words_blank_append h]
  rfl

theorem IsWord.words {w : Str} (h : IsWord w) : Py.words w = [w] := by
  rw [Py.words, List.splitOnP_eq_singleton h.2]
  simp [h.1]

/-- White space between two texts separates their words. -/
theorem words_append_blank {gap : Str} (hgap : Blank gap) (hne : gap ≠ []) (a b : Str) :
    words (a ++ (gap ++ b)) = words a ++ words b := by
  cases gap with
  | nil => exact absurd rfl hne
  | cons c gap =>
    rw [List.cons_append, words_append_cons (hgap c List.mem_cons_self),
      words_blank_append fun d hd => hgap d (List.mem_cons_of_mem _ hd)]

theorem words_append_of_blank {tail : Str} (ht : Blank tail) (a : Str) : words (a ++ tail) = words a := by
  by_cases hnil : tail = []
  · rw [hnil, List.append_nil]
  · have h := words_append_blank ht hnil a []
    rw [List.append_nil] at h
    exact h.trans (List.append_nil _)

theorem words_append_word {rest w : Str} (hr : Trimmed (fun c => !isSpace c) rest) (hw : IsWord w) :
    words (rest ++ w) = words rest ++ [w] := by
  rcases List.eq_nil_or_concat' rest with rfl | ⟨u, c, rfl⟩
  · exact hw.words
  · have hc : isSpace c = true := by simpa using trimmed_concat.mp hr
    have hcat : words (u ++ [c] ++ w) = words u ++ [w] := by
      rw [List.append_assoc, ← hw.words]
      exact words_append_cons hc u w
    rw [hcat, words_append_of_blank fun d hd => by rw [List.mem_singleton.mp hd, hc]]

theorem words_ne_nil {t : Str} (hne : t ≠ []) (ht : Trimmed isSpace t) : words t ≠ [] := by
  obtain ⟨rest, w, rfl, hr, hw⟩ := exists_word hne ht
  rw [words_append_word hr hw]
  exact List.append_ne_nil_of_right_ne_nil _ (List.cons_ne_nil w [])

theorem LastWord.words {s t w : Str} (h : LastWord s t w) : Py.words s = Py.words t ++ [w] := by
  obtain ⟨gap, tail, rfl, hne, hgap, htail⟩ := h.parts
  rw [words_append_of_blank htail, List.append_assoc, words_append_blank hgap hne, h.word.words]

theorem LastWord.two_le_words {s t w : Str} (h : LastWord s t w) : 2 ≤ (Py.words s).length := by
  have hpos := List.length_pos_of_ne_nil (words_ne_nil h.ne_nil h.trimmed)
  rw [h.words, List.length_append, List.length_singleton]
  omega

end Py
