import Wali.Py.Text
import Wali.Py.Regex

/-!
# The array pattern

WIT has no arrays of fixed length. The generator writes `Array[n, t]` and, when the file is
complete, replaces by a regular expression what looks like it, from left to right, by a tuple with
`n` elements. The expression knows nothing of brackets: an element is the longest run of characters
other than white space that is followed by a closing bracket.
-/

namespace Wali.Wit

open Py (Str)
open Py.Regex (lit star plus sub)

/-- A character outside `\s`. -/
def isText (c : Char) : Bool := !Py.isSpace c

/-- `(\S+)\s*\]`, with what follows it. -/
def element (s : Str) : Option (Str × Str) :=
  plus isText (fun type => star Py.isSpace (fun _ => lit "]" fun rest => some (type, rest)) []) s

/-- `Array\[\s*(\d+),\s*(\S+)\s*\]`: the two groups, and what follows. -/
def arrayPattern (s : Str) : Option (Str × Str × Str) :=
  lit "Array[" (star Py.isSpace (fun _ => plus Py.isDigit fun digits => lit "," <|
    star Py.isSpace (fun _ s => (element s).map (digits, ·)) []) []) s

def tupleText (count : ℕ) (type : Str) : Str :=
  "tuple<" ++ Py.join "," (List.replicate count type) ++ ">"

/-- `matchrep`, on a match. -/
def arrayMatch (s : Str) : Option (Str × Str) :=
  (arrayPattern s).map fun e => (tupleText (Py.intOfDigits e.1) e.2.1, e.2.2)

/-- The last step of `_generate_wit_file`. -/
def expandArrays (s : Str) : Str := sub arrayMatch s

-- ════════════════════════════════════════════════════════════════════════
-- The pattern
-- ════════════════════════════════════════════════════════════════════════

section Pattern

/-- White space and a closing bracket. -/
def Closes (r rest : Str) : Prop := r.dropWhile Py.isSpace = ']' :: rest

/-- A way to match an element. -/
structure Candidate (s type rest : Str) : Prop where
  ne_nil : type ≠ []
  clean : ∀ c ∈ type, isText c = true
  closes : ∃ r, s = type ++ r ∧ Closes r rest

theorem isText_iff {c : Char} : isText c = true ↔ Py.isSpace c = false := by
  rw [isText, Bool.not_eq_true']

theorem closing_eq_some_iff {type s : Str} {e : Str × Str} :
    star Py.isSpace (fun _ => lit "]" fun rest => some (type, rest)) [] s = some e ↔
      ∃ rest, Closes s rest ∧ e = (type, rest) := by
  have hstop : ∀ (a : Str) c s, Py.isSpace c = true →
      lit "]" (fun rest => some (type, rest)) (c :: s) = none := by
    intro a c s hc
    refine Py.Regex.lit_cons_ne ?_ [] _ s
    rintro rfl
    exact absurd hc (by decide)
  rw [Py.Regex.star_eq_of_stop hstop, Py.Regex.lit_eq_some_iff]
  exact exists_congr fun rest => and_congr_right' (by rw [Option.some_inj, eq_comm])

variable {s type rest : Str}

theorem Candidate.element_ne_none (h : Candidate s type rest) : element s ≠ none := by
  obtain ⟨c, type, rfl⟩ := List.exists_cons_of_ne_nil h.ne_nil
  obtain ⟨r, rfl, hr⟩ := h.closes
  intro hnone
  rw [element, List.cons_append, plus, if_pos (h.clean c List.mem_cons_self),
    Py.Regex.star_eq_none_iff] at hnone
  have := hnone type r ⟨rfl, fun d hd => h.clean d (List.mem_cons_of_mem c hd)⟩
  rw [closing_eq_some_iff.mpr ⟨rest, hr, rfl⟩] at this
  cases this

/-- The element is the longest candidate. -/
theorem candidate_of_element (h : element s = some (type, rest)) :
    Candidate s type rest ∧ ∀ type' rest', Candidate s type' rest' → type'.length ≤ type.length := by
  cases s with
  | nil => cases h
  | cons c s =>
    rw [element, plus] at h
    obtain ⟨hc, h⟩ := Option.ite_none_right_eq_some.mp h
    obtain ⟨a, r, ⟨rfl, ha⟩, hk, hmax⟩ := Py.Regex.exists_of_star_eq_some h
    obtain ⟨rest', hr, he⟩ := closing_eq_some_iff.mp hk
    obtain ⟨rfl, rfl⟩ := Prod.mk.inj he
    refine ⟨⟨List.cons_ne_nil c a, List.forall_mem_cons.mpr ⟨hc, ha⟩, r, rfl, hr⟩, ?_⟩
    intro type' rest' hcand
    obtain ⟨d, type', rfl⟩ := List.exists_cons_of_ne_nil hcand.ne_nil
    obtain ⟨r', he', hr'⟩ := hcand.closes
    obtain ⟨rfl, htail⟩ := List.cons.inj he'
    -- a longer one would have been taken
    by_contra hlong
    have hnone := hmax type' r' ⟨htail, fun x hx => hcand.clean x (List.mem_cons_of_mem c hx)⟩
      (by simpa using hlong)
    rw [closing_eq_some_iff.mpr ⟨rest', hr', rfl⟩] at hnone
    cases hnone

theorem element_eq_some (h : Candidate s type rest)
    (hmax : ∀ type' rest', Candidate s type' rest' → type'.length ≤ type.length) :
    element s = some (type, rest) := by
  obtain ⟨e, he⟩ := Option.ne_none_iff_exists'.mp h.element_ne_none
  obtain ⟨hcand, hlong⟩ := candidate_of_element he
  obtain ⟨r, hs, hr⟩ := h.closes
  obtain ⟨r', hs', hr'⟩ := hcand.closes
  have hlen : type.length = e.1.length := Nat.le_antisymm (hlong _ _ h) (hmax _ _ hcand)
  obtain ⟨htype, rfl⟩ := List.append_inj (hs.symm.trans hs') hlen
  have hrest := (List.cons.inj (hr.symm.trans hr')).2
  rw [he, htype, hrest]

theorem element_eq_none_iff : element s = none ↔ ∀ type rest, ¬ Candidate s type rest := by
  constructor
  · exact fun h type rest hcand => hcand.element_ne_none h
  · intro h
    cases he : element s with
    | none => rfl
    | some e => exact absurd (candidate_of_element he).1 (h _ _)

/-- After the opening every repetition but the last takes all it can. -/
theorem arrayPattern_append (s : Str) : arrayPattern ("Array[" ++ s) =
    if (s.dropWhile Py.isSpace).takeWhile Py.isDigit = [] then none else
      lit "," (fun x => (element (x.dropWhile Py.isSpace)).map
        ((s.dropWhile Py.isSpace).takeWhile Py.isDigit, ·))
        ((s.dropWhile Py.isSpace).dropWhile Py.isDigit) := by
  have hspace : ∀ (a : Str) c s, Py.isSpace c = true → element (c :: s) = none := by
    intro a c s hc
    rw [element, plus, if_neg]
    rw [isText, hc]
    decide
  have hcomma : ∀ {β : Type} (k : Str → Option β) c s, Py.isDigit c = true →
      lit "," k (c :: s) = none := by
    intro β k c s hc
    refine Py.Regex.lit_cons_ne ?_ [] k s
    rintro rfl
    exact absurd hc (by decide)
  have hdigit : ∀ {β : Type} (k : Str → Str → Option β) c s, Py.isSpace c = true →
      plus Py.isDigit k (c :: s) = none := by
    intro β k c s hc
    rw [plus, if_neg]
    rw [Py.isDigit_of_isSpace hc]
    decide
  rw [arrayPattern, Py.Regex.lit_append, Py.Regex.star_eq_of_stop fun _ => hdigit _,
    Py.Regex.plus_eq_of_stop fun _ => hcomma _]
  refine if_congr Iff.rfl rfl (congrArg (lit _ · _) (funext fun x => ?_))
  exact Py.Regex.star_eq_of_stop (fun a c s hc => by rw [hspace a c s hc, Option.map_none]) [] x

theorem arrayMatch_of_no_opening {s : Str} (h : ¬ ("Array[" : Str) <+: s) : arrayMatch s = none := by
  rw [arrayMatch, arrayPattern, lit, if_neg (mt List.isPrefixOf_iff_prefix.mp h)]
  rfl

theorem arrayMatch_cons {c : Char} (h : c ≠ 'A') (s : Str) : arrayMatch (c :: s) = none := by
  refine arrayMatch_of_no_opening ?_
  rintro ⟨t, ht⟩
  exact h (List.cons.inj ht).1.symm

/-- What is left after a match is an end of the text. -/
theorem exists_of_arrayMatch {s : Str} {repl rest : Str} (h : arrayMatch s = some (repl, rest)) :
    ∃ v, v ≠ [] ∧ s = v ++ rest := by
  obtain ⟨⟨digits, type, rest⟩, hp, he⟩ := Option.map_eq_some_iff.mp h
  obtain ⟨rfl, rfl⟩ := Prod.mk.inj he
  obtain ⟨r, rfl, _⟩ := Py.Regex.lit_eq_some_iff.mp hp
  rw [arrayPattern_append] at hp
  obtain ⟨_, hp⟩ := Option.ite_none_left_eq_some.mp hp
  obtain ⟨x, hx, hp⟩ := Py.Regex.lit_eq_some_iff.mp hp
  obtain ⟨e, helem, he⟩ := Option.map_eq_some_iff.mp hp
  obtain ⟨-, rfl⟩ := Prod.mk.inj he
  obtain ⟨r', hr', hclose⟩ := (candidate_of_element helem).1.closes
  have hsuffix : rest <:+ r := calc
    rest <:+ ']' :: rest := List.suffix_cons _ _
    _ <:+ r' := hclose ▸ List.dropWhile_suffix _
    _ <:+ x.dropWhile Py.isSpace := ⟨type, hr'.symm⟩
    _ <:+ x := List.dropWhile_suffix _
    _ <:+ (r.dropWhile Py.isSpace).dropWhile Py.isDigit := ⟨",", hx.symm⟩
    _ <:+ r.dropWhile Py.isSpace := List.dropWhile_suffix _
    _ <:+ r := List.dropWhile_suffix _
  obtain ⟨u, rfl⟩ := hsuffix
  exact ⟨"Array[" ++ u, by simp, (List.append_assoc ..).symm⟩

end Pattern

-- ════════════════════════════════════════════════════════════════════════
-- Parts of the file
-- ════════════════════════════════════════════════════════════════════════

section Parts

variable {s type rest v t : Str}

theorem Closes.append (h : Closes s rest) (t : Str) : Closes (s ++ t) (rest ++ t) := by
  rw [Closes, List.dropWhile_append, h]
  rfl

theorem Candidate.append (h : Candidate s type rest) (t : Str) :
    Candidate (s ++ t) type (rest ++ t) := by
  obtain ⟨r, rfl, hr⟩ := h.closes
  exact ⟨h.ne_nil, h.clean, r ++ t, List.append_assoc .., hr.append t⟩

/-- A text whose start does not close a bracket. -/
def Inert (t : Str) : Prop := ∀ rest, ¬ Closes t rest

/-- Behind a colon and a blank, no candidate ends in the following text. -/
theorem Candidate.of_append (ht : Inert t) (h : Candidate (v ++ ':' :: ' ' :: t) type rest) :
    ∃ rest', rest = rest' ++ t ∧ Candidate (v ++ [':', ' ']) type rest' := by
  obtain ⟨r, he, hr⟩ := h.closes
  rcases List.append_eq_append_iff.mp he with ⟨a, rfl, ha⟩ | ⟨a, rfl, rfl⟩
  · -- the element would have the colon in it, and end there
    cases a with
    | nil =>
      rw [List.nil_append] at ha
      rw [← ha, Closes, List.dropWhile_cons_of_neg (by decide)] at hr
      exact absurd (List.cons.inj hr).1 (by decide)
    | cons c a =>
      obtain ⟨rfl, ha'⟩ := List.cons.inj ha
      cases a with
      | nil =>
        have hr' : r = ' ' :: t := ha'.symm
        rw [hr', Closes, List.dropWhile_cons_of_pos (by decide)] at hr
        exact absurd hr (ht rest)
      | cons d a =>
        obtain ⟨rfl, _⟩ := List.cons.inj ha'
        exact absurd (h.clean ' ' (by simp)) (by decide)
  · rw [Closes, Cut.dropWhile_append_cons (by decide)] at hr
    cases hd : a.dropWhile Py.isSpace with
    | nil =>
      rw [hd] at hr
      exact absurd (List.cons.inj hr).1 (by decide)
    | cons c b =>
      rw [hd] at hr
      obtain ⟨rfl, rfl⟩ := List.cons.inj hr
      refine ⟨b ++ [':', ' '], by simp, h.ne_nil, h.clean, a ++ [':', ' '], List.append_assoc .., ?_⟩
      rw [Closes, Cut.dropWhile_append_cons (by decide), hd, List.cons_append]

theorem element_colon (ht : Inert t) (v : Str) :
    element (v ++ ':' :: ' ' :: t) = (element (v ++ [':', ' '])).map fun e => (e.1, e.2 ++ t) := by
  cases he : element (v ++ [':', ' ']) with
  | none =>
    rw [Option.map_none, element_eq_none_iff]
    intro type rest hcand
    obtain ⟨rest', _, hcand'⟩ := hcand.of_append ht
    exact hcand'.element_ne_none he
  | some e =>
    obtain ⟨hcand, hmax⟩ := candidate_of_element he
    have happ := hcand.append t
    rw [List.append_assoc] at happ
    refine element_eq_some happ fun type' rest' hcand' => ?_
    obtain ⟨rest'', _, hcand''⟩ := hcand'.of_append ht
    exact hmax type' rest'' hcand''

/-- A match that starts in front of a colon and a blank ends there. -/
theorem arrayMatch_colon (ht : Inert t) (v : Str) : arrayMatch (v ++ ':' :: ' ' :: t) =
    (arrayMatch (v ++ [':', ' '])).map fun e => (e.1, e.2 ++ t) := by
  by_cases hpre : ("Array[" : Str) <+: v
  · obtain ⟨u, rfl⟩ := hpre
    have hopen : ∀ z, arrayPattern ("Array[" ++ (u ++ ':' :: z)) =
        if (u.dropWhile Py.isSpace).takeWhile Py.isDigit = [] then none else
          lit "," (fun x => (element (x.dropWhile Py.isSpace)).map
            ((u.dropWhile Py.isSpace).takeWhile Py.isDigit, ·))
            ((u.dropWhile Py.isSpace).dropWhile Py.isDigit ++ ':' :: z) := by
      intro z
      rw [arrayPattern_append, Cut.dropWhile_append_cons (by decide), Cut.takeWhile_append_cons (by decide),
        Cut.dropWhile_append_cons (by decide)]
    rw [arrayMatch, arrayMatch, List.append_assoc, List.append_assoc, hopen, hopen]
    by_cases hdigits : (u.dropWhile Py.isSpace).takeWhile Py.isDigit = []
    · rw [if_pos hdigits, if_pos hdigits]
      rfl
    rw [if_neg hdigits, if_neg hdigits]
    cases (u.dropWhile Py.isSpace).dropWhile Py.isDigit with
    | nil => rfl
    | cons c x =>
      by_cases hc : c = ','
      · subst hc
        have hcomma : ∀ {β : Type} (k : Str → Option β) s, lit "," k (',' :: s) = k s := fun k s =>
          Py.Regex.lit_append "," k s
        rw [List.cons_append, List.cons_append, hcomma, hcomma, Cut.dropWhile_append_cons (by decide),
          Cut.dropWhile_append_cons (by decide), element_colon ht]
        simp only [Option.map_map]
        rfl
      · rw [List.cons_append, List.cons_append]
        change Option.map _ (lit [','] _ _) = Option.map _ (Option.map _ (lit [','] _ _))
        rw [Py.Regex.lit_cons_ne (Ne.symm hc), Py.Regex.lit_cons_ne (Ne.symm hc)]
        rfl
  · have hpre' : ∀ z, ¬ ("Array[" : Str) <+: v ++ ':' :: z := fun z h =>
      hpre ((Py.prefix_append_cons_iff (by decide)).mp h)
    rw [arrayMatch_of_no_opening (hpre' _), arrayMatch_of_no_opening (hpre' _)]
    rfl

/-- The text in front of a type is expanded on its own. -/
theorem expandArrays_colon (ht : Inert t) (u : Str) : expandArrays (u ++ [':', ' '] ++ t) =
    expandArrays (u ++ [':', ' ']) ++ expandArrays t := by
  refine Py.Regex.sub_append (fun _ _ _ => exists_of_arrayMatch) fun v w he hw => ?_
  rcases List.append_eq_append_iff.mp he with ⟨a, rfl, ha⟩ | ⟨a, rfl, rfl⟩
  · cases a with
    | nil =>
      rw [List.nil_append] at ha
      subst ha
      exact arrayMatch_colon ht []
    | cons c a =>
      obtain ⟨rfl, ha'⟩ := List.cons.inj ha
      cases a with
      | nil =>
        have hw' : w = [' '] := ha'.symm
        rw [hw', List.singleton_append, arrayMatch_cons (by decide), arrayMatch_cons (by decide)]
        rfl
      | cons d a =>
        obtain ⟨_, ha''⟩ := List.cons.inj ha'
        exact absurd (List.append_eq_nil_iff.mp ha''.symm).2 hw
  · rw [List.append_assoc]
    exact arrayMatch_colon ht a

theorem expandArrays_of_some {repl : Str} (h : arrayMatch s = some (repl, rest)) :
    expandArrays s = repl ++ expandArrays rest := by
  obtain ⟨u, hu, rfl⟩ := exists_of_arrayMatch h
  exact Py.Regex.sub_append_of_some hu h

/-- What is not expanded stays in the file. -/
theorem expandArrays_of_none (h : arrayMatch ("Array[" ++ s) = none) :
    expandArrays ("Array[" ++ s) = "Array[" ++ expandArrays s := by
  have hletters : ∀ c ∈ ['r', 'r', 'a', 'y', '['], c ≠ 'A' := by simp
  have hcons : ("Array[" : Str) = 'A' :: ['r', 'r', 'a', 'y', '['] := by decide
  refine Py.Regex.sub_append_of_none fun v w he hw => ?_
  cases v with
  | nil => exact (List.nil_append w ▸ he) ▸ h
  | cons c v =>
    obtain ⟨d, w, rfl⟩ := List.exists_cons_of_ne_nil hw
    obtain ⟨_, htail⟩ := List.cons.inj (hcons.symm.trans he)
    have hmem : d ∈ ['r', 'r', 'a', 'y', '['] := by
      rw [htail]
      simp
    exact arrayMatch_cons (hletters d hmem) _

/-- An array starts a match if an element is found. -/
theorem arrayMatch_array (n : ℕ) (x : Str) : arrayMatch ("Array[" ++ (Py.natStr n ++ ',' :: ' ' :: x)) =
    (element (x.dropWhile Py.isSpace)).map fun e => (tupleText n e.1, e.2) := by
  have hdigits : (Py.natStr n).takeWhile Py.isDigit = Py.natStr n :=
    List.takeWhile_eq_self_iff.mpr fun c hc => Py.isDigit_natStr hc
  have hnone : (Py.natStr n).dropWhile Py.isDigit = [] :=
    List.dropWhile_eq_nil_iff.mpr fun c hc => Py.isDigit_natStr hc
  have hspace : (Py.natStr n).dropWhile Py.isSpace = Py.natStr n := by
    obtain ⟨d, ds, hd⟩ := List.exists_cons_of_ne_nil (Py.natStr_ne_nil n)
    have hdigit : Py.isDigit d = true := Py.isDigit_natStr (n := n) (hd ▸ List.mem_cons_self)
    rw [hd, List.dropWhile_cons_of_neg fun hs => ?_]
    rw [Py.isDigit_of_isSpace hs] at hdigit
    cases hdigit
  have hcomma : ∀ {β : Type} (k : Str → Option β) s, lit "," k (',' :: s) = k s := fun k s =>
    Py.Regex.lit_append "," k s
  rw [arrayMatch, arrayPattern_append, Cut.dropWhile_append_cons (by decide), hspace,
    Cut.takeWhile_append_cons (by decide), hdigits, if_neg (Py.natStr_ne_nil n),
    Cut.dropWhile_append_cons (by decide), hnone, List.nil_append, hcomma,
    List.dropWhile_cons_of_pos (by decide), Option.map_map]
  refine congrArg (Option.map · _) (funext fun e => ?_)
  rw [Function.comp, Py.intOfDigits_natStr]

end Parts

end Wali.Wit
