import Wali.Wit.Text
import Wali.Wit.ArrayPattern

/-!
# An array in the WIT file

What the pattern finds in the array of a record field. The element is looked for in the name of the
element type, but white space in that name ends it too early, and a bracket at the start of the next
line makes it too long.
-/

namespace Wali.Wit

open Py (Str)

/-- The next field has a name that starts like the end of an array. -/
def nextCloses : List (Str × WitType) → Bool
  | [] => false
  | f :: _ => (f.1.dropWhile Py.isSpace).head? == some ']'

section Field

variable {name Y : Str} {fs : List (Str × WitType)} {n : ℕ}

/-- What follows the type of a field. -/
def following (fs : List (Str × WitType)) (Y : Str) : Str :=
  commaFor fs ++ '\n' :: '\t' :: (Py.afterBreaks ['\t'] (nextStart fs) ++ Y)

/-- The line break after a field and the start of the next line close a bracket. -/
theorem closes_nextStart : (∃ rest, Closes ('\n' :: '\t' :: (Py.afterBreaks ['\t'] (nextStart fs) ++ Y)) rest) ↔
    nextCloses fs = true := by
  have hspace : ∀ s, ('\n' :: '\t' :: s).dropWhile Py.isSpace = s.dropWhile Py.isSpace := fun _ => rfl
  simp only [Closes, hspace]
  cases fs with
  | nil =>
    refine iff_of_false ?_ (by decide)
    rintro ⟨rest, h⟩
    exact absurd (List.cons.inj h).1 (by decide)
  | cons f fs =>
    have hstart : Py.afterBreaks ['\t'] (nextStart (f :: fs)) ++ Y =
        ' ' :: ' ' :: (Py.afterBreaks ['\t'] f.1 ++ ':' :: Y) := by
      rw [nextStart, Py.afterBreaks_append, Py.afterBreaks_append, List.append_assoc,
        List.append_assoc]
      rfl
    have hdrop : (' ' :: ' ' :: (Py.afterBreaks ['\t'] f.1 ++ ':' :: Y)).dropWhile Py.isSpace =
        Py.afterBreaks ['\t'] (f.1.dropWhile Py.isSpace) ++ ':' :: Y := by
      rw [List.dropWhile_cons_of_pos (by decide), List.dropWhile_cons_of_pos (by decide),
        Cut.dropWhile_append_cons (by decide), Py.dropWhile_afterBreaks]
    rw [hstart, hdrop, nextCloses, beq_iff_eq]
    cases hd : f.1.dropWhile Py.isSpace with
    | nil =>
      refine iff_of_false ?_ (by simp)
      rintro ⟨rest, h⟩
      exact absurd (List.cons.inj h).1 (by decide)
    | cons c s =>
      have hc : c ≠ '\n' := by
        rintro rfl
        have := List.head_dropWhile_not Py.isSpace (l := f.1) (by rw [hd]; exact List.cons_ne_nil _ _)
        simp only [hd, List.head_cons] at this
        exact absurd this (by decide)
      have hcons : Py.afterBreaks ['\t'] (c :: s) ++ ':' :: Y =
          c :: (Py.afterBreaks ['\t'] s ++ ':' :: Y) := by
        rw [Py.afterBreaks_cons hc, List.cons_append]
      rw [hcons, List.head?_cons, Option.some_inj]
      constructor
      · rintro ⟨rest, h⟩
        exact (List.cons.inj h).1
      · rintro rfl
        exact ⟨_, rfl⟩

/-- Behind a clean name, a longer element needs the next line. -/
theorem nextCloses_of_candidate {type rest : Str}
    (hcand : Candidate (name ++ ']' :: following fs Y) type rest) (hlong : name.length < type.length) :
    nextCloses fs = true := by
  obtain ⟨r, he, hr⟩ := hcand.closes
  rcases List.append_eq_append_iff.mp he with ⟨a, rfl, ha⟩ | ⟨a, rfl, _⟩
  · cases a with
    | nil => exact absurd hlong (by simp)
    | cons c a =>
      obtain ⟨rfl, hfollow⟩ := List.cons.inj ha
      rcases List.append_eq_append_iff.mp hfollow with ⟨b, rfl, hb⟩ | ⟨b, hb, rfl⟩
      · cases b with
        | nil =>
          rw [List.nil_append] at hb
          exact closes_nextStart.mp ⟨rest, hb ▸ hr⟩
        | cons d b =>
          obtain ⟨rfl, _⟩ := List.cons.inj hb
          exact absurd (hcand.clean '\n' (by simp)) (by decide)
      · cases b with
        | nil => exact closes_nextStart.mp ⟨rest, hr⟩
        | cons d b =>
          -- in front of the comma no bracket is closed
          have hd : d = ',' := by
            cases fs with
            | nil => exact absurd hb (by simp [commaFor])
            | cons f fs =>
              have hmem : d ∈ commaFor (f :: fs) := by
                rw [hb]
                simp
              exact List.mem_singleton.mp hmem
          subst hd
          exact absurd (List.cons.inj hr).1 (by decide)
  · exact absurd hlong (by simp)

theorem isText_commaFor (fs : List (Str × WitType)) : ∀ c ∈ commaFor fs, isText c = true := by
  cases fs with
  | nil => exact fun _ h => nomatch h
  | cons f fs => exact Py.forall_mem_of_all (show ([','].all fun c => decide (isText c = true)) = true by decide)

theorem candidate_of_nextCloses (h : ∀ c ∈ name, isText c = true) (hnext : nextCloses fs = true) :
    ∃ rest, Candidate (name ++ ']' :: following fs Y) (name ++ ']' :: commaFor fs) rest := by
  obtain ⟨rest, hclose⟩ := (closes_nextStart (Y := Y)).mpr hnext
  refine ⟨rest, by simp, ?_, _, ?_, hclose⟩
  · intro c hc
    rcases List.mem_append.mp hc with hc | hc
    · exact h c hc
    · rcases List.mem_cons.mp hc with rfl | hc
      · decide
      · exact isText_commaFor fs c hc
  · rw [following, List.append_assoc, List.cons_append]

theorem closes_bracket (s : Str) : Closes (']' :: s) s := List.dropWhile_cons_of_neg (by decide)

theorem candidate_self (hname : name ≠ []) (h : ∀ c ∈ name, isText c = true) (s : Str) :
    Candidate (name ++ ']' :: s) name s :=
  ⟨hname, h, ']' :: s, rfl, closes_bracket s⟩

/-- A clean name is the element, unless the next line takes part. -/
theorem element_name (hname : name ≠ []) (h : ∀ c ∈ name, isText c = true)
    (hnext : nextCloses fs = false) :
    element (name ++ ']' :: following fs Y) = some (name, following fs Y) := by
  refine element_eq_some (candidate_self hname h _) fun type' rest' hcand => ?_
  by_contra hlong
  rw [nextCloses_of_candidate hcand (Nat.lt_of_not_le hlong)] at hnext
  cases hnext

/-- If it does, the element goes on behind the name. -/
theorem element_of_nextCloses {e : Str × Str} (h : ∀ c ∈ name, isText c = true)
    (hnext : nextCloses fs = true) (he : element (name ++ ']' :: following fs Y) = some e) :
    ∃ z, e.1 = name ++ ']' :: z := by
  obtain ⟨hcand, hmax⟩ := candidate_of_element he
  obtain ⟨rest, hlong⟩ := candidate_of_nextCloses (Y := Y) h hnext
  obtain ⟨r, hr, _⟩ := hcand.closes
  have hlen : name.length < e.1.length := by
    have := hmax _ _ hlong
    rw [List.length_append, List.length_cons] at this
    omega
  rcases List.append_eq_append_iff.mp hr with ⟨a, ha, ha'⟩ | ⟨a, ha, _⟩
  · cases a with
    | nil =>
      rw [ha, List.append_nil] at hlen
      exact absurd hlen (Nat.lt_irrefl _)
    | cons d a =>
      obtain ⟨rfl, _⟩ := List.cons.inj ha'
      exact ⟨a, ha⟩
  · rw [ha, List.length_append] at hlen
    omega

/-- The text of an array in the file. -/
theorem afterBreaks_array (count : ℕ) (elem : WitType) (s : Str) :
    Py.afterBreaks ['\t'] (WitType.array count elem).text ++ s =
      "Array[" ++ (Py.natStr count ++ ',' :: ' ' :: (Py.afterBreaks ['\t'] elem.text ++ ']' :: s)) := by
  have hcount : '\n' ∉ Py.natStr count := Py.not_mem_natStr (by decide) count
  have hopen : '\n' ∉ ("Array[" : Str) := by decide
  have hcomma : '\n' ∉ (", " : Str) := by decide
  have hend : '\n' ∉ ("]" : Str) := by decide
  rw [WitType.text_array, Py.afterBreaks_append, Py.afterBreaks_append, Py.afterBreaks_append,
    Py.afterBreaks_append, Py.afterBreaks_of_not_mem hcount, Py.afterBreaks_of_not_mem hopen,
    Py.afterBreaks_of_not_mem hcomma, Py.afterBreaks_of_not_mem hend]
  simp only [List.append_assoc]
  rfl

/-- An array of a name in the file, with what follows. -/
def arrayText (n : ℕ) (name : Str) (fs : List (Str × WitType)) (Y : Str) : Str :=
  "Array[" ++ (Py.natStr n ++ ',' :: ' ' :: (Py.afterBreaks ['\t'] name ++ ']' :: following fs Y))

theorem arrayMatch_arrayText : arrayMatch (arrayText n name fs Y) =
    (element ((Py.afterBreaks ['\t'] name ++ ']' :: following fs Y).dropWhile Py.isSpace)).map
      fun e => (tupleText n e.1, e.2) := arrayMatch_array n _

theorem dropWhile_of_isText {c : Char} (h : isText c = true) (s : Str) :
    (c :: s).dropWhile Py.isSpace = c :: s :=
  List.dropWhile_cons_of_neg (by rw [isText_iff.mp h]; decide)

theorem afterBreaks_of_isText (h : ∀ c ∈ name, isText c = true) :
    Py.afterBreaks ['\t'] name = name :=
  Py.afterBreaks_of_not_mem fun hn => absurd (h '\n' hn) (by decide)

theorem dropWhile_name (hname : name ≠ []) (h : ∀ c ∈ name, isText c = true) (s : Str) :
    (name ++ s).dropWhile Py.isSpace = name ++ s := by
  obtain ⟨c, name, rfl⟩ := List.exists_cons_of_ne_nil hname
  exact dropWhile_of_isText (h c List.mem_cons_self) _

/-- An array of a clean name is expanded in its place. -/
theorem expandArrays_arrayText (hname : name ≠ []) (h : ∀ c ∈ name, isText c = true)
    (hnext : nextCloses fs = false) :
    expandArrays (arrayText n name fs Y) = tupleText n name ++ expandArrays (following fs Y) := by
  refine expandArrays_of_some ?_
  rw [arrayMatch_arrayText, afterBreaks_of_isText h, dropWhile_name hname h, element_name hname h hnext]
  rfl

theorem exists_space (h : ¬ ∀ c ∈ name, isText c = true) :
    ∃ p s q, name = p ++ s :: q ∧ (∀ c ∈ p, isText c = true) ∧ isText s = false := by
  cases hd : name.dropWhile isText with
  | nil => exact absurd (List.dropWhile_eq_nil_iff.mp hd) h
  | cons s q =>
    refine ⟨name.takeWhile isText, s, q, ?_, fun c hc => List.mem_takeWhile_imp hc, ?_⟩
    · rw [← hd, List.takeWhile_append_dropWhile]
    · have := List.head_dropWhile_not isText (l := name) (by rw [hd]; exact List.cons_ne_nil _ _)
      simpa only [hd, List.head_cons] using this

/-- An element does not go on behind white space: it is all that is in front, or ends at a bracket. -/
theorem Candidate.of_space {p type rest Z : Str} {s : Char} (hcand : Candidate (p ++ s :: Z) type rest)
    (hp : ∀ d ∈ p, isText d = true) (hs : isText s = false) : type = p ∨ ∃ a, p = type ++ ']' :: a := by
  obtain ⟨r, he, hr⟩ := hcand.closes
  rcases List.append_eq_append_iff.mp he with ⟨a, rfl, ha⟩ | ⟨a, rfl, rfl⟩
  · cases a with
    | nil => exact Or.inl (List.append_nil p)
    | cons d a =>
      obtain ⟨rfl, _⟩ := List.cons.inj ha
      rw [hcand.clean s (by simp)] at hs
      cases hs
  · cases a with
    | nil => exact Or.inl (List.append_nil type).symm
    | cons d a =>
      rw [Closes, List.cons_append, dropWhile_of_isText (hp d (by simp))] at hr
      obtain ⟨rfl, _⟩ := List.cons.inj hr
      exact Or.inr ⟨a, rfl⟩

/-- Whether the pattern finds an element in an array of this name: the first word of the name ends
it, is followed by a closing bracket or has one inside. If the name is blank, the bracket behind it
is an element, provided that the next field starts with another. -/
def readable (name : Str) (next : Bool) : Bool :=
  let start := name.dropWhile Py.isSpace
  let word := start.takeWhile isText
  let after := (start.dropWhile isText).dropWhile Py.isSpace
  if word.isEmpty then next else after.isEmpty || after.head? == some ']' || word.tail.contains ']'

theorem exists_element_iff {s : Str} : (∃ e, element s = some e) ↔ ∃ type rest, Candidate s type rest := by
  constructor
  · rintro ⟨e, he⟩
    exact ⟨e.1, e.2, (candidate_of_element he).1⟩
  · rintro ⟨type, rest, h⟩
    exact Option.ne_none_iff_exists'.mp h.element_ne_none

theorem exists_closes_iff {q s : Str} : (∃ rest, Closes (Py.afterBreaks ['\t'] q ++ ']' :: s) rest) ↔
    q.dropWhile Py.isSpace = [] ∨ (q.dropWhile Py.isSpace).head? = some ']' := by
  simp only [Closes, Cut.dropWhile_append_cons (show Py.isSpace ']' = false by decide),
    Py.dropWhile_afterBreaks]
  cases q.dropWhile Py.isSpace with
  | nil => exact iff_of_true ⟨s, rfl⟩ (Or.inl rfl)
  | cons c q =>
    obtain ⟨q', hq⟩ := Py.exists_afterBreaks_cons ['\t'] c q
    rw [hq, List.cons_append, List.head?_cons, Option.some_inj]
    constructor
    · rintro ⟨rest, h⟩
      exact Or.inr (List.cons.inj h).1
    · rintro (h | rfl)
      · cases h
      · exact ⟨_, rfl⟩

/-- An element that ends inside the first word of a name. -/
theorem candidate_in_word {word Z : Str} (hword : ∀ c ∈ word, isText c = true) (h : ']' ∈ word.tail) :
    ∃ type rest, Candidate (word ++ Z) type rest := by
  cases word with
  | nil => cases h
  | cons c word =>
    obtain ⟨a, b, rfl⟩ := List.append_of_mem h
    refine ⟨c :: a, b ++ Z, List.cons_ne_nil _ _, fun d hd => hword d ?_, ']' :: (b ++ Z), ?_, closes_bracket _⟩
    · rw [← List.cons_append]
      exact List.mem_append_left _ hd
    · simp

theorem exists_candidate_iff {word q Z : Str} {s : Char} (hne : word ≠ [])
    (hword : ∀ c ∈ word, isText c = true) (hs : isText s = false) :
    (∃ type rest, Candidate (word ++ (Py.afterBreaks ['\t'] (s :: q) ++ ']' :: Z)) type rest) ↔
      ((s :: q).dropWhile Py.isSpace = [] ∨ ((s :: q).dropWhile Py.isSpace).head? = some ']') ∨
        ']' ∈ word.tail := by
  rw [← exists_closes_iff (s := Z)]
  constructor
  · rintro ⟨type, rest, hcand⟩
    obtain ⟨q', hq'⟩ := Py.exists_afterBreaks_cons ['\t'] s q
    have hcand' := hcand
    rw [hq', List.cons_append] at hcand'
    rcases hcand'.of_space hword hs with rfl | ⟨a, rfl⟩
    · obtain ⟨r, he, hr⟩ := hcand.closes
      rw [List.append_cancel_left he]
      exact Or.inl ⟨rest, hr⟩
    · refine Or.inr ?_
      obtain ⟨c, type, rfl⟩ := List.exists_cons_of_ne_nil hcand.ne_nil
      rw [List.cons_append, List.tail_cons]
      simp
  · rintro (⟨rest, hclose⟩ | hmem)
    · exact ⟨word, rest, hne, hword, _, rfl, hclose⟩
    · exact candidate_in_word hword hmem

/-- The pattern matches at an array of a name exactly if it is readable. -/
theorem exists_element_iff_readable : (∃ e, element ((Py.afterBreaks ['\t'] name ++
    ']' :: following fs Y).dropWhile Py.isSpace) = some e) ↔ readable name (nextCloses fs) = true := by
  rw [exists_element_iff, Cut.dropWhile_append_cons (by decide), Py.dropWhile_afterBreaks, readable]
  have hstart : ∀ c ∈ (name.dropWhile Py.isSpace).head?, isText c = true := by
    intro c hc
    have hnot := List.head?_dropWhile_not Py.isSpace name
    rw [Option.mem_def.mp hc] at hnot
    exact isText_iff.mpr hnot
  generalize name.dropWhile Py.isSpace = start at hstart
  have hsplit := List.takeWhile_append_dropWhile (p := isText) (l := start)
  have hword : ∀ c ∈ start.takeWhile isText, isText c = true := fun c hc => List.mem_takeWhile_imp hc
  have hrest := List.head?_dropWhile_not isText start
  generalize start.takeWhile isText = word at hsplit hword
  generalize start.dropWhile isText = q at hsplit hrest
  subst hsplit
  rw [Py.afterBreaks_append, afterBreaks_of_isText hword, List.append_assoc]
  cases word with
  | nil =>
    -- then nothing is left of the name
    have hq : q = [] := by
      cases q with
      | nil => rfl
      | cons s q => exact absurd (hstart s rfl) (by rw [hrest]; decide)
    subst hq
    constructor
    · rintro ⟨type, rest, hcand⟩
      have hcand : Candidate ([] ++ ']' :: following fs Y) type rest := hcand
      exact nextCloses_of_candidate hcand (List.length_pos_of_ne_nil hcand.ne_nil)
    · intro hnext
      have hclean : ∀ c ∈ ([] : Str), isText c = true := fun c hc => nomatch hc
      obtain ⟨rest, hcand⟩ := candidate_of_nextCloses (Y := Y) hclean hnext
      exact ⟨_, rest, hcand⟩
  | cons c word =>
    cases q with
    | nil => exact iff_of_true ⟨_, _, candidate_self (List.cons_ne_nil c word) hword _⟩ rfl
    | cons s q =>
      rw [exists_candidate_iff (List.cons_ne_nil c word) hword hrest]
      simp [or_assoc]

end Field

end Wali.Wit
