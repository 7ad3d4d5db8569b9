import Wali.Wit.ArrayText

/-!
# Openings

An opening is the text `Array[`. None is left after the substitution if every one that is written
starts a match. When the names of the tables have no opening in them, the only ones in the file are
those of the arrays in `types` and in the records; `not_hasArray_text` reads off the tables what has
to hold of the latter.
-/

namespace Wali.Wit

open Py (Str Dict)

-- ════════════════════════════════════════════════════════════════════════
-- Texts without an opening
-- ════════════════════════════════════════════════════════════════════════

section Texts

/-- An array is left in a text. -/
def HasArray (s : Str) : Prop := ("Array[" : Str) <:+: s

theorem hasArray_iff {s : Str} : HasArray s ↔ Py.contains s "Array[" = true := Py.contains_iff.symm

theorem not_hasArray_nil : ¬ HasArray [] := fun h => absurd (List.infix_nil.mp h) (by decide)

theorem hasArray_cons {c : Char} (hc : c ∉ ("Array[" : Str)) (s : Str) : HasArray (c :: s) ↔ HasArray s :=
  (Py.infix_append_cons_iff (a := []) hc).trans (or_iff_right not_hasArray_nil)

theorem hasArray_append_cons {c : Char} (hc : c ∉ ("Array[" : Str)) (a b : Str) :
    HasArray (a ++ c :: b) ↔ HasArray a ∨ HasArray b := Py.infix_append_cons_iff hc

variable {name : Str} {n : ℕ}

theorem tupleText_succ (n : ℕ) : tupleText (n + 1) name =
    "tuple<" ++ (name ++ ((List.replicate n name).flatMap (fun y => ("," : Str) ++ y) ++ ">")) := by
  have htext : ∀ k, tupleText k name = "tuple<" ++ Py.join "," (List.replicate k name) ++ ">" :=
    fun _ => rfl
  rw [htext, List.replicate_succ, Py.join_cons, List.append_assoc, List.append_assoc]

theorem hasArray_copies (k : ℕ) :
    HasArray (name ++ (List.replicate k name).flatMap fun y => ("," : Str) ++ y) ↔ HasArray name := by
  induction k with
  | zero => rw [List.replicate_zero, List.flatMap_nil, List.append_nil]
  | succ k ih =>
    rw [List.replicate_succ, List.flatMap_cons]
    change HasArray (name ++ ',' :: (name ++ _)) ↔ _
    rw [hasArray_append_cons (by decide), ih, or_self]

/-- A tuple keeps apart what is in front of it, its elements and what is behind. -/
theorem hasArray_tupleText (hn : 1 ≤ n) (a name b : Str) :
    HasArray (a ++ (tupleText n name ++ b)) ↔ HasArray a ∨ HasArray name ∨ HasArray b := by
  obtain ⟨n, rfl⟩ := Nat.exists_eq_add_of_le' hn
  let copies := name ++ (List.replicate n name).flatMap fun y => ("," : Str) ++ y
  have htext : tupleText (n + 1) name ++ b =
      't' :: 'u' :: 'p' :: 'l' :: 'e' :: '<' :: (copies ++ '>' :: b) := by
    rw [tupleText_succ, List.append_assoc, List.append_assoc, List.append_assoc]
    change _ = _ :: _ :: _ :: _ :: _ :: _ :: ((name ++ _) ++ '>' :: b)
    rw [List.append_assoc]
    rfl
  rw [htext, hasArray_append_cons (by decide), hasArray_cons (by decide), hasArray_cons (by decide),
    hasArray_cons (by decide), hasArray_cons (by decide), hasArray_cons (by decide),
    hasArray_append_cons (by decide), hasArray_copies]

theorem HasArray.mono {s t : Str} (h : HasArray s) (ht : s <:+: t) : HasArray t := h.trans ht

theorem hasArray_of_not_mem {u : Str} (h : 'A' ∉ u) (s : Str) : HasArray (u ++ s) ↔ HasArray s :=
  Py.infix_append_iff_of_head h s

theorem not_hasArray_of_not_mem {u : Str} (h : 'A' ∉ u) : ¬ HasArray u := fun hu => h (hu.subset (by decide))

/-- A text that keeps what is in front of it apart from what is behind. -/
def apart (u : Str) : Bool := !u.contains 'A' && u.head?.any fun c => !("Array[" : Str).contains c

theorem hasArray_apart {u : Str} (h : apart u = true) (a s : Str) :
    HasArray (a ++ (u ++ s)) ↔ HasArray a ∨ HasArray s := by
  obtain ⟨hletter, hhead⟩ := Bool.and_eq_true_iff.mp h
  cases u with
  | nil => cases hhead
  | cons c u =>
    have hc : c ∉ ("Array[" : Str) := by simpa using hhead
    have hu : 'A' ∉ u := by
      intro hmem
      simp [hmem] at hletter
    rw [List.cons_append, hasArray_append_cons hc, hasArray_of_not_mem hu]

theorem hasArray_apart_end {u : Str} (h : apart u = true) (a : Str) : HasArray (a ++ u) ↔ HasArray a := by
  have := hasArray_apart h a []
  rwa [List.append_nil, or_iff_left not_hasArray_nil] at this

theorem not_hasArray_join {sep : Str} (hsep : apart sep = true) {parts : List Str}
    (h : ∀ p ∈ parts, ¬ HasArray p) : ¬ HasArray (Py.join sep parts) := by
  refine Cut.intercalate_induction not_hasArray_nil (fun u v hu hv => ?_) h
  rw [List.append_assoc, hasArray_apart hsep, not_or]
  exact ⟨hu, hv⟩

theorem not_hasArray_replaceChar {s : Str} (h : ¬ HasArray s) : ¬ HasArray (Py.replaceChar '_' '-' s) :=
  mt (Py.infix_replaceChar_iff (by decide) (by decide) s).mp h

theorem not_hasArray_toWit {s : Str} (h : ¬ HasArray s) : ¬ HasArray (toWit s) :=
  not_hasArray_replaceChar (mt (Py.infix_replaceChar_iff (by decide) (by decide) s).mp h)

theorem not_hasArray_afterBreaks {s : Str} (h : ¬ HasArray s) : ¬ HasArray (Py.afterBreaks ['\t'] s) :=
  mt (Py.infix_afterBreaks_iff (by decide) (by decide) (by decide) s).mp h

theorem not_hasArray_of_part {s t : Str} (h : ¬ HasArray t) (hs : s <:+: t) : ¬ HasArray s :=
  fun ha => h (ha.mono hs)

end Texts

-- ════════════════════════════════════════════════════════════════════════
-- Openings that are read
-- ════════════════════════════════════════════════════════════════════════

section Reading

variable {b s t u y : Str} {c : Char}

/-- Behind an opening, the pattern matches, and there is no other opening in the element. -/
def Read (b : Str) : Prop :=
  ∃ n type rest, arrayMatch ("Array[" ++ b) = some (tupleText n type, rest) ∧ ¬ HasArray type

/-- Every opening in a text is read. -/
def AllRead (s : Str) : Prop := ∀ b : Str, ("Array[" : Str) ++ b <:+ s → Read b

/-- A tuple of a name without an opening. -/
theorem sealed_tupleText (n : ℕ) {type : Str} (h : ¬ HasArray type) :
    Py.Regex.Sealed "Array[" (tupleText n type) := by
  refine ⟨⟨'t', _, rfl, by decide⟩, fun t ht => ?_⟩
  cases n with
  | zero =>
    have htext : tupleText 0 type ++ t = ("tuple<>" : Str) ++ t := rfl
    rw [htext] at ht
    exact (hasArray_of_not_mem (by decide) t).mp ht
  | succ n =>
    rcases (hasArray_tupleText (Nat.le_add_left 1 n) [] type t).mp ht with hnil | hname | ht
    · exact absurd hnil not_hasArray_nil
    · exact absurd hname h
    · exact ht

/-- If every opening is read, none is left. -/
theorem AllRead.not_hasArray (h : AllRead s) : ¬ HasArray (expandArrays s) := by
  refine Py.Regex.not_infix_sub (fun _ _ _ => exists_of_arrayMatch) ?_ (by decide) ?_
  · rintro t ht ⟨b, rfl⟩
    obtain ⟨n, type, rest, hmatch, _⟩ := h b ht
    rw [hmatch]
    exact Option.some_ne_none _
  · intro t repl rest ht hmatch
    have hopen : ("Array[" : Str) <+: t := by
      by_contra hno
      rw [arrayMatch_of_no_opening hno] at hmatch
      cases hmatch
    obtain ⟨b, rfl⟩ := hopen
    obtain ⟨n, type, rest', hmatch', htype⟩ := h b ht
    obtain ⟨rfl, _⟩ := Prod.mk.inj (Option.some.inj (hmatch.symm.trans hmatch'))
    exact sealed_tupleText n htype

theorem allRead_of_not_hasArray (h : ¬ HasArray s) : AllRead s := fun b hb =>
  absurd ((List.prefix_append _ b).isInfix.trans hb.isInfix) h

/-- A text without an opening, up to a character that is in none. -/
theorem AllRead.append_cons (h : AllRead t) (hu : ¬ HasArray u) (hc : c ∉ ("Array[" : Str)) :
    AllRead (u ++ c :: t) := by
  rintro b ⟨p, hp⟩
  rcases List.append_eq_append_iff.mp hp with ⟨v, rfl, hv⟩ | ⟨v, rfl, hv⟩
  · -- the opening would be in the first text
    have hpre : ("Array[" : Str) <+: v ++ c :: t := ⟨b, hv⟩
    exact absurd (((Py.prefix_append_cons_iff hc).mp hpre).isInfix.trans (List.suffix_append p v).isInfix) hu
  · cases v with
    | nil =>
      rw [List.nil_append] at hv
      exact absurd (List.cons.inj hv).1 (ne_of_mem_of_not_mem (by decide) hc).symm
    | cons d v =>
      obtain ⟨_, rfl⟩ := List.cons.inj hv
      exact h b (List.suffix_append v _)

/-- An opening that is read, up to such a character. -/
theorem AllRead.opening (h : AllRead t) (hread : Read (y ++ c :: t)) (hy : ¬ HasArray y)
    (hc : c ∉ ("Array[" : Str)) : AllRead ("Array[" ++ (y ++ c :: t)) := by
  have htail : AllRead (("rray[" : Str) ++ y ++ c :: t) :=
    h.append_cons (mt (hasArray_of_not_mem (by decide) y).mp hy) hc
  rw [List.append_assoc] at htail
  have hcons : ("Array[" : Str) ++ (y ++ c :: t) = 'A' :: (("rray[" : Str) ++ (y ++ c :: t)) := rfl
  intro b hb
  rw [hcons] at hb
  rcases List.suffix_cons_iff.mp hb with he | hb
  · rw [← hcons] at he
    rwa [List.append_cancel_left he]
  · exact htail b hb

variable {x Z name Y : Str} {n : ℕ} {fs : List (Str × WitType)}

/-- An array is read if there is an element, since that ends before the next white space. -/
theorem read_of_element {s : Char} {e : Str × Str} (he : element ((x ++ s :: Z).dropWhile Py.isSpace) = some e)
    (hs : isText s = false) (hx : ∃ c ∈ x, isText c = true) (hfree : ¬ HasArray x) :
    Read (Py.natStr n ++ ',' :: ' ' :: (x ++ s :: Z)) := by
  refine ⟨n, e.1, e.2, by rw [arrayMatch_array, he]; rfl, not_hasArray_of_part hfree ?_⟩
  have hdrop : (x ++ s :: Z).dropWhile Py.isSpace = x.dropWhile Py.isSpace ++ s :: Z := by
    rw [List.dropWhile_append, if_neg]
    obtain ⟨c, hc, htext⟩ := hx
    intro hnil
    have hall := List.dropWhile_eq_nil_iff.mp (List.isEmpty_iff.mp hnil) c hc
    rw [isText_iff.mp htext] at hall
    cases hall
  obtain ⟨hcand, _⟩ := candidate_of_element he
  rw [hdrop] at hcand
  obtain ⟨r, hr, _⟩ := hcand.closes
  refine List.IsInfix.trans ?_ (List.dropWhile_suffix Py.isSpace).isInfix
  rcases List.append_eq_append_iff.mp hr with ⟨a, ha, ha'⟩ | ⟨a, ha, _⟩
  · cases a with
    | nil =>
      rw [ha, List.append_nil]
    | cons d a =>
      obtain ⟨rfl, _⟩ := List.cons.inj ha'
      rw [hcand.clean s (by rw [ha]; simp)] at hs
      cases hs
  · rw [ha]
    exact (List.prefix_append _ a).isInfix

/-- The array of a record field. -/
theorem read_field (hread : readable name (nextCloses fs) = true) (hname : ¬ HasArray name) :
    Read (Py.natStr n ++ ',' :: ' ' :: (Py.afterBreaks ['\t'] name ++ ']' :: following fs Y)) := by
  obtain ⟨e, he⟩ := (exists_element_iff_readable (Y := Y)).mpr hread
  have hcomma : ¬ HasArray (commaFor fs) := by
    cases fs with
    | nil => exact not_hasArray_nil
    | cons f fs => exact not_hasArray_of_not_mem (show 'A' ∉ [','] by decide)
  have hsplit : Py.afterBreaks ['\t'] name ++ ']' :: following fs Y =
      (Py.afterBreaks ['\t'] name ++ ']' :: commaFor fs) ++
        '\n' :: '\t' :: (Py.afterBreaks ['\t'] (nextStart fs) ++ Y) := by
    rw [following, List.append_assoc, List.cons_append]
  rw [hsplit] at he ⊢
  refine read_of_element he (by decide) ⟨']', by simp, by decide⟩ ?_
  rw [hasArray_append_cons (by decide), not_or]
  exact ⟨not_hasArray_afterBreaks hname, hcomma⟩

end Reading

-- ════════════════════════════════════════════════════════════════════════
-- Records
-- ════════════════════════════════════════════════════════════════════════

section Records

/-- The text from the first field of a record to its end. -/
def fieldsText : List (Str × WitType) → Str
  | [] => ['}']
  | f :: fs => [' ', ' '] ++ f.1 ++ [':', ' '] ++ f.2.text ++ commaFor fs ++ '\n' :: fieldsText fs

theorem flatMap_lineOf (fs : List (Str × WitType)) (k : ℕ) :
    (fs.mapIdx (fun i => lineOf (k + fs.length) (i + k)) ++ [['}']]).flatMap (fun l => ("\n" : Str) ++ l) =
      '\n' :: fieldsText fs := by
  induction fs generalizing k with
  | nil => rfl
  | cons f fs ih =>
    have hlen : k + (f :: fs).length = k + 1 + fs.length := by
      rw [List.length_cons]
      omega
    have hshift : (fun i => lineOf (k + 1 + fs.length) (i + 1 + k)) =
        fun i => lineOf (k + 1 + fs.length) (i + (k + 1)) := by
      funext i
      exact congrArg (lineOf _) (by omega)
    have hcomma : (if 0 + k + 1 < k + 1 + fs.length then [','] else []) = commaFor fs := by
      cases fs with
      | nil => rw [if_neg (by rw [List.length_nil]; omega)]; rfl
      | cons g gs => rw [if_pos (by rw [List.length_cons]; omega)]; rfl
    rw [hlen, List.mapIdx_cons, hshift, List.cons_append, List.flatMap_cons, ih (k + 1), lineOf, hcomma]
    rfl

/-- The text of a record. -/
theorem join_lines (r : WitRecord) : Py.join "\n" r.lines =
    ("record " ++ r.name ++ " \x7b") ++ '\n' :: (fieldsText r.fields ++ ['\n']) := by
  have hfields := flatMap_lineOf r.fields 0
  rw [Nat.zero_add] at hfields
  have hlines : r.lines = ("record " ++ r.name ++ " \x7b") ::
      ((r.fields.mapIdx (fun i => lineOf r.fields.length (i + 0)) ++ [['}']]) ++ [[]]) := by
    rw [lines_eq, List.append_assoc (r.fields.mapIdx _), List.cons_append]
    rfl
  rw [hlines, Py.join_cons, List.flatMap_append, hfields]
  rfl

/-- The array of a field, if it is one, is of a name that the pattern reads. -/
def WitType.Readable (next : Bool) : WitType → Prop
  | .ident _ => True
  | .array _ (.ident name) => readable name next = true
  | .array _ (.array _ _) => False

variable {fs : List (Str × WitType)} {rs : List WitRecord} {Y Z : Str}

theorem not_hasArray_append_commaFor {a : Str} (h : ¬ HasArray a) (fs : List (Str × WitType)) :
    ¬ HasArray (a ++ commaFor fs) := by
  cases fs with
  | nil => rwa [commaFor, List.append_nil]
  | cons f fs =>
    rw [commaFor, hasArray_append_cons (by decide), not_or]
    exact ⟨h, not_hasArray_nil⟩

theorem not_hasArray_count {n : ℕ} {u : Str} (h : ¬ HasArray u) :
    ¬ HasArray (Py.natStr n ++ ',' :: ' ' :: u) := by
  rwa [hasArray_of_not_mem (Py.not_mem_natStr (by decide) n), hasArray_cons (by decide), hasArray_cons (by decide)]

/-- The type of a field, with what follows it. -/
theorem allRead_type {t : WitType} (hname : ¬ HasArray t.name) (ht : t.Readable (nextCloses fs))
    (h : AllRead ('\t' :: (Py.afterBreaks ['\t'] (nextStart fs) ++ Y))) :
    AllRead (Py.afterBreaks ['\t'] t.text ++ following fs Y) := by
  cases t with
  | ident name =>
    rw [following, ← List.append_assoc]
    exact h.append_cons (not_hasArray_append_commaFor (not_hasArray_afterBreaks hname) fs) (by decide)
  | array n elem =>
    cases elem with
    | array k elem => exact absurd ht id
    | ident name =>
      have hsplit : Py.natStr n ++ ',' :: ' ' :: (Py.afterBreaks ['\t'] name ++ ']' :: following fs Y) =
          (Py.natStr n ++ ',' :: ' ' :: (Py.afterBreaks ['\t'] name ++ [']'] ++ commaFor fs)) ++
            '\n' :: '\t' :: (Py.afterBreaks ['\t'] (nextStart fs) ++ Y) := by
        simp only [following, List.append_assoc, List.cons_append, List.nil_append]
      have hname : ¬ HasArray name := hname
      have hread := read_field (n := n) (Y := Y) ht hname
      have hbracket : ¬ HasArray (Py.afterBreaks ['\t'] name ++ [']']) := by
        rw [hasArray_append_cons (by decide), not_or]
        exact ⟨not_hasArray_afterBreaks hname, not_hasArray_nil⟩
      have htext : (WitType.ident name).text = name := rfl
      rw [hsplit] at hread
      rw [afterBreaks_array, htext, hsplit]
      exact h.opening hread (not_hasArray_count (not_hasArray_append_commaFor hbracket fs)) (by decide)

theorem exists_fieldsText (fs : List (Str × WitType)) : ∃ more, fieldsText fs = nextStart fs ++ more := by
  cases fs with
  | nil => exact ⟨[], rfl⟩
  | cons f fs =>
    refine ⟨' ' :: (f.2.text ++ commaFor fs ++ '\n' :: fieldsText fs), ?_⟩
    simp only [fieldsText, nextStart, List.append_assoc, List.cons_append, List.nil_append]

/-- The fields of a record, one after the other. -/
theorem allRead_fieldsText (hnames : ∀ f ∈ fs, ¬ HasArray f.1 ∧ ¬ HasArray f.2.name)
    (hread : ∀ a f b, fs = a ++ f :: b → f.2.Readable (nextCloses b)) (h : AllRead Z) :
    AllRead (Py.afterBreaks ['\t'] (fieldsText fs) ++ '\n' :: Z) := by
  induction fs with
  | nil => exact h.append_cons (u := ['}']) (not_hasArray_of_not_mem (by decide)) (by decide)
  | cons f fs ih =>
    obtain ⟨⟨hid, hname⟩, hrest⟩ := List.forall_mem_cons.mp hnames
    have htail := ih hrest fun a g b hg => hread (f :: a) g b (by rw [hg, List.cons_append])
    obtain ⟨more, hmore⟩ := exists_fieldsText fs
    have hcolon : Py.afterBreaks ['\t'] [':', ' '] = [':', ' '] := rfl
    -- the field is written up to the start of the next line
    have htext : Py.afterBreaks ['\t'] (fieldsText (f :: fs)) ++ '\n' :: Z =
        Py.afterBreaks ['\t'] ([' ', ' '] ++ f.1) ++ ':' :: ([] ++ ' ' ::
          (Py.afterBreaks ['\t'] f.2.text ++ following fs (Py.afterBreaks ['\t'] more ++ '\n' :: Z))) := by
      rw [fieldsText, Py.afterBreaks_append, Py.afterBreaks_append, Py.afterBreaks_append,
        Py.afterBreaks_append, Py.afterBreaks_newline, afterBreaks_commaFor, hcolon, hmore,
        Py.afterBreaks_append (b := more), following]
      simp only [List.append_assoc, List.cons_append, List.nil_append]
    rw [hmore, Py.afterBreaks_append, List.append_assoc] at htail
    have htype := allRead_type hname (hread [] f fs rfl) (htail.append_cons (c := '\t') not_hasArray_nil (by decide))
    rw [htext]
    refine (htype.append_cons not_hasArray_nil (by decide)).append_cons (not_hasArray_afterBreaks ?_) (by decide)
    rwa [hasArray_of_not_mem (by decide)]

/-- One record. -/
theorem allRead_record {r : WitRecord} (hname : ¬ HasArray r.name)
    (hnames : ∀ f ∈ r.fields, ¬ HasArray f.1 ∧ ¬ HasArray f.2.name)
    (hread : ∀ a f b, r.fields = a ++ f :: b → f.2.Readable (nextCloses b)) (h : AllRead Z) :
    AllRead (Py.afterBreaks ['\t'] (Py.join "\n" r.lines) ++ '\n' :: Z) := by
  have hhead : ¬ HasArray ("record " ++ r.name ++ " \x7b") := by
    rwa [hasArray_apart_end (by decide), hasArray_of_not_mem (by decide)]
  have htab : AllRead ('\t' :: '\n' :: Z) :=
    (h.append_cons (c := '\n') not_hasArray_nil (by decide)).append_cons (c := '\t') not_hasArray_nil (by decide)
  have hfields := allRead_fieldsText hnames hread htab
  rw [join_lines]
  generalize ("record " ++ r.name ++ " \x7b" : Str) = header at hhead
  rw [Py.afterBreaks_append, Py.afterBreaks_newline, Py.afterBreaks_append, List.append_assoc,
    List.cons_append, List.cons_append, List.append_assoc]
  have hline := hfields.append_cons (c := '\t') not_hasArray_nil (by decide)
  exact hline.append_cons (c := '\n') (not_hasArray_afterBreaks hhead) (by decide)

/-- All records. -/
theorem allRead_recordContent
    (hnames : ∀ r ∈ rs, ¬ HasArray r.name ∧ ∀ f ∈ r.fields, ¬ HasArray f.1 ∧ ¬ HasArray f.2.name)
    (hread : ∀ r ∈ rs, ∀ a f b, r.fields = a ++ f :: b → f.2.Readable (nextCloses b)) (h : AllRead Z) :
    AllRead (Py.afterBreaks ['\t'] (recordContent rs) ++ '\n' :: Z) := by
  induction rs with
  | nil => exact h.append_cons (c := '\n') not_hasArray_nil (by decide)
  | cons r rs ih =>
    obtain ⟨⟨hname, hfields⟩, hrest⟩ := List.forall_mem_cons.mp hnames
    obtain ⟨hr, hrs⟩ := List.forall_mem_cons.mp hread
    cases rs with
    | nil =>
      rw [recordContent, List.flatMap_singleton]
      exact allRead_record hname hfields hr h
    | cons r' rs =>
      have hne : r.lines ≠ [] := List.cons_ne_nil _ _
      have hne' : (r' :: rs).flatMap WitRecord.lines ≠ [] := by
        rw [List.flatMap_cons]
        exact List.append_ne_nil_of_left_ne_nil (List.cons_ne_nil _ _) _
      have hjoin : recordContent (r :: r' :: rs) =
          Py.join "\n" r.lines ++ (("\n" : Str) ++ recordContent (r' :: rs)) := by
        rw [recordContent, List.flatMap_cons, Py.join_append _ hne hne']
        rfl
      have htail := ih hrest hrs
      rw [hjoin, Py.afterBreaks_append, Py.afterBreaks_append, List.append_assoc, List.append_assoc]
      exact allRead_record hname hfields hr (htail.append_cons (c := '\t') not_hasArray_nil (by decide))

end Records

-- ════════════════════════════════════════════════════════════════════════
-- The first interface
-- ════════════════════════════════════════════════════════════════════════

section Types

variable {Z : Str}

/-- A declared type is a name, or an array of a clean name. -/
def WitType.Declared : WitType → Prop
  | .ident _ => True
  | .array _ (.ident name) => name ≠ [] ∧ ∀ c ∈ name, isText c = true
  | .array _ (.array _ _) => False

theorem not_hasArray_typeLine {name value : Str} (hn : ¬ HasArray name) (hv : ¬ HasArray value) :
    ¬ HasArray (typeLine name value) := by
  have hline : typeLine name value = "\ttype " ++ (name ++ (" = " ++ (value ++ ";"))) := by
    unfold typeLine
    simp only [List.append_assoc]
  rw [hline, hasArray_of_not_mem (by decide), hasArray_apart (by decide), hasArray_apart_end (by decide), not_or]
  exact ⟨hn, hv⟩

theorem allRead_typeLine {name : Str} {t : WitType} (hn : ¬ HasArray name) (ht : ¬ HasArray t.name)
    (hdecl : t.Declared) (h : AllRead Z) : AllRead (typeLine name t.text ++ '\n' :: Z) := by
  cases t with
  | ident value => exact h.append_cons (not_hasArray_typeLine hn ht) (by decide)
  | array n elem =>
    cases elem with
    | array k elem => exact absurd hdecl id
    | ident value =>
      obtain ⟨hne, hclean⟩ := hdecl
      have hvalue : ¬ HasArray value := ht
      have hline : typeLine name (WitType.array n (.ident value)).text ++ '\n' :: Z =
          (("\ttype " : Str) ++ (name ++ (" =" : Str))) ++ ' ' :: ("Array[" ++
            ((Py.natStr n ++ ',' :: ' ' :: (value ++ ']' :: [';'])) ++ '\n' :: Z)) := by
        rw [WitType.text_array]
        unfold typeLine
        simp only [List.append_assoc, List.cons_append]
        rfl
      have hend : ¬ HasArray (value ++ ']' :: [';']) := by
        rw [hasArray_append_cons (by decide), not_or]
        exact ⟨hvalue, not_hasArray_of_not_mem (by decide)⟩
      have hread : Read ((Py.natStr n ++ ',' :: ' ' :: (value ++ ']' :: [';'])) ++ '\n' :: Z) := by
        have hcand := candidate_self hne hclean (';' :: '\n' :: Z)
        obtain ⟨e, he⟩ := Option.ne_none_iff_exists'.mp hcand.element_ne_none
        rw [← dropWhile_name hne hclean] at he
        rw [List.append_assoc, List.cons_append, List.cons_append]
        refine read_of_element (s := '\n') (e := e) ?_ (by decide) ⟨']', by simp, by decide⟩ hend
        rwa [List.append_assoc]
      rw [hline]
      refine (h.opening hread (not_hasArray_count hend) (by decide)).append_cons ?_ (by decide)
      rwa [hasArray_of_not_mem (by decide), hasArray_apart_end (by decide)]

/-- The declarations, up to the end of the interface. -/
theorem allRead_typesLines {w : WitFile}
    (h : ∀ e ∈ w.types.entries, ¬ HasArray e.1 ∧ ¬ HasArray e.2.name ∧ e.2.Declared) (hZ : AllRead Z) :
    AllRead (Py.join "\n" w.typesLines ++ '\n' :: Z) := by
  let header : Str := "interface " ++ "types" ++ " \x7b"
  let lines := w.types.entries.map fun e => typeLine e.1 e.2.text
  have hjoin : Py.join "\n" w.typesLines =
      header ++ ("\n" : Str) ++ lines.flatMap (fun l => l ++ ("\n" : Str)) ++ "\x7d" := by
    change Py.join "\n" ((header :: lines) ++ [("\x7d" : Str)]) = _
    rw [Py.join_append_cons, List.flatMap_nil, List.append_nil, List.flatMap_cons]
  have hend : AllRead (("\x7d" : Str) ++ '\n' :: Z) :=
    hZ.append_cons (not_hasArray_of_not_mem (by decide)) (by decide)
  have hlines : AllRead (lines.flatMap (fun l => l ++ ("\n" : Str)) ++ (("\x7d" : Str) ++ '\n' :: Z)) := by
    unfold lines
    generalize w.types.entries = es at h
    induction es with
    | nil => exact hend
    | cons e es ih =>
      obtain ⟨⟨hname, htype, hdecl⟩, hes⟩ := List.forall_mem_cons.mp h
      rw [List.map_cons, List.flatMap_cons, List.append_assoc, List.append_assoc]
      exact allRead_typeLine hname htype hdecl (ih hes)
  have hheader : ¬ HasArray header := not_hasArray_of_not_mem (by decide)
  rw [hjoin, List.append_assoc, List.append_assoc, List.append_assoc]
  exact hlines.append_cons hheader (by decide)

end Types

-- ════════════════════════════════════════════════════════════════════════
-- The other lines
-- ════════════════════════════════════════════════════════════════════════

section Lines

theorem not_hasArray_useLine {source : Str} {names : List Str} (hs : ¬ HasArray source)
    (hn : ∀ x ∈ names, ¬ HasArray x) : ¬ HasArray (useLine source names) := by
  have hline : useLine source names =
      "\tuse " ++ (source ++ (".\x7b" ++ (Py.join ", " names ++ "\x7d;"))) := by
    unfold useLine
    simp only [List.append_assoc]
  rw [hline, hasArray_of_not_mem (by decide), hasArray_apart (by decide), hasArray_apart_end (by decide), not_or]
  exact ⟨hs, not_hasArray_join (by decide) hn⟩

/-- The parts of a function have no opening. -/
structure WitFunc.Free (f : WitFunc) : Prop where
  comment : ¬ HasArray f.comment
  name : ¬ HasArray f.name
  params : ∀ e ∈ f.params, ¬ HasArray e.1 ∧ ¬ HasArray e.2
  result : ∀ t ∈ f.result, ¬ HasArray t

theorem WitFunc.Free.text {f : WitFunc} (h : f.Free) : ¬ HasArray f.text := by
  have hparams : ¬ HasArray (Py.join ", " (f.params.map fun e => e.1 ++ ": " ++ e.2)) := by
    refine not_hasArray_join (by decide) (List.forall_mem_map.mpr fun e he => ?_)
    obtain ⟨hid, htype⟩ := h.params e he
    rw [List.append_assoc, hasArray_apart (by decide), not_or]
    exact ⟨hid, htype⟩
  obtain ⟨result, hresult, htext⟩ : ∃ result : Str, ¬ HasArray result ∧
      f.text = "\t// " ++ (f.comment ++ ("\n\t" ++ (f.name ++ (": func(" ++
        (Py.join ", " (f.params.map fun e => e.1 ++ ": " ++ e.2) ++ (")" ++ (result ++ ";"))))))) := by
    unfold WitFunc.text
    simp only [List.append_assoc]
    cases hres : f.result with
    | none => exact ⟨[], not_hasArray_nil, rfl⟩
    | some t =>
      exact ⟨" -> " ++ t, mt (hasArray_of_not_mem (by decide) t).mp (h.result t hres), rfl⟩
  rw [htext, hasArray_of_not_mem (by decide), hasArray_apart (by decide), hasArray_apart (by decide),
    hasArray_apart (by decide), hasArray_apart_end (by decide)]
  rintro (hc | hn | hp | hr)
  · exact h.comment hc
  · exact h.name hn
  · exact hparams hp
  · exact hresult hr

/-- The names in a file have no opening, and arrays are declared for clean names only. -/
structure WitFile.Free (w : WitFile) : Prop where
  types : ∀ e ∈ w.types.entries, ¬ HasArray e.1 ∧ ¬ HasArray e.2.name ∧ e.2.Declared
  ptrTypes : ∀ x ∈ w.ptrTypes, ¬ HasArray x
  records : ∀ r ∈ w.records, ¬ HasArray r.name ∧ ∀ f ∈ r.fields, ¬ HasArray f.1 ∧ ¬ HasArray f.2.name
  syscallFuncs : ∀ f ∈ w.syscallFuncs, f.Free
  auxUses : ∀ x ∈ w.auxUses, ¬ HasArray x
  auxFuncs : ∀ f ∈ w.auxFuncs, f.Free

variable {w : WitFile}

theorem WitFile.Free.keys (h : w.Free) : ∀ x ∈ w.types.keys, ¬ HasArray x :=
  List.forall_mem_map.mpr fun e he => (h.types e he).1

/-- The lines of an interface. -/
theorem not_hasArray_interfaceLines {name : Str} {body : List Str} (hname : ¬ HasArray name)
    (hbody : ∀ l ∈ body, ¬ HasArray l) : ∀ l ∈ interfaceLines name body, ¬ HasArray l := by
  have hheader : ¬ HasArray ("interface " ++ name ++ " \x7b") := by
    rwa [hasArray_apart_end (by decide), hasArray_of_not_mem (by decide)]
  have hend : ¬ HasArray ("\x7d" : Str) := not_hasArray_of_not_mem (by decide)
  exact List.forall_mem_append.mpr ⟨List.forall_mem_cons.mpr ⟨hheader, hbody⟩,
    List.forall_mem_singleton.mpr hend⟩

theorem exists_join_interfaceLines (name : Str) (body : List Str) :
    ∃ s, Py.join "\n" (interfaceLines name body) = s ++ ['}'] := by
  refine ⟨(("interface " ++ name ++ " \x7b") :: body).flatMap fun l => l ++ ("\n" : Str), ?_⟩
  rw [interfaceLines, Py.join_append_cons, List.flatMap_nil, List.append_nil]
  rfl

theorem WitFile.Free.auxLines (h : w.Free) : ∀ l ∈ w.auxLines, ¬ HasArray l := by
  let uses : List Str :=
    [useLine "types" w.types.keys, useLine "syscalls" w.auxUses, "", "\t/// Aux methods"]
  have hlit : ¬ HasArray ("\t/// Aux methods" : Str) := by
    rw [hasArray_iff]
    decide
  have huses : ∀ l ∈ uses, ¬ HasArray l := by
    refine List.forall_mem_cons.mpr ⟨not_hasArray_useLine (not_hasArray_of_not_mem (by decide)) h.keys, ?_⟩
    refine List.forall_mem_cons.mpr ⟨not_hasArray_useLine (not_hasArray_of_not_mem (by decide)) h.auxUses, ?_⟩
    exact List.forall_mem_cons.mpr ⟨not_hasArray_nil, List.forall_mem_singleton.mpr hlit⟩
  refine not_hasArray_interfaceLines (not_hasArray_of_not_mem (by decide)) ?_
  exact List.forall_mem_append.mpr ⟨huses, List.forall_mem_map.mpr fun f hf => (h.auxFuncs f hf).text⟩

/-- The last interface can be put into a text. -/
theorem WitFile.Free.sealed (h : w.Free) : Py.Regex.Sealed "Array[" (Py.join "\n" w.auxLines) := by
  have hfree : ¬ HasArray (Py.join "\n" w.auxLines) := not_hasArray_join (by decide) h.auxLines
  refine ⟨⟨'i', _, rfl, by decide⟩, fun t ht => ?_⟩
  obtain ⟨body, hbody⟩ : ∃ body, Py.join "\n" w.auxLines = body ++ ['}'] := exists_join_interfaceLines _ _
  rw [hbody] at hfree ht
  rw [List.append_assoc] at ht
  rcases (hasArray_append_cons (by decide) body t).mp ht with hb | ht
  · exact absurd (hb.mono (List.prefix_append body _).isInfix) hfree
  · exact ht

theorem WitFile.Free.aboveRecords (h : w.Free) : ∀ l ∈ w.aboveRecords, ¬ HasArray l := by
  have hptr : ∀ l ∈ w.ptrTypes.map (typeLine · "ptr"), ¬ HasArray l :=
    List.forall_mem_map.mpr fun x hx =>
      not_hasArray_typeLine (h.ptrTypes x hx) (not_hasArray_of_not_mem (by decide))
  refine List.forall_mem_cons.mpr ⟨not_hasArray_of_not_mem (by decide), ?_⟩
  refine List.forall_mem_append.mpr ⟨List.forall_mem_append.mpr ⟨?_, hptr⟩, ?_⟩
  · exact List.forall_mem_cons.mpr ⟨not_hasArray_useLine (not_hasArray_of_not_mem (by decide)) h.keys,
      List.forall_mem_singleton.mpr (not_hasArray_of_not_mem (by decide))⟩
  · exact List.forall_mem_cons.mpr ⟨not_hasArray_nil,
      List.forall_mem_singleton.mpr (not_hasArray_of_not_mem (by decide))⟩

theorem WitFile.Free.belowRecords (h : w.Free) : ∀ l ∈ w.belowRecords, ¬ HasArray l := by
  refine List.forall_mem_append.mpr ⟨?_, List.forall_mem_append.mpr ⟨?_, ?_⟩⟩
  · exact List.forall_mem_cons.mpr ⟨not_hasArray_nil,
      List.forall_mem_singleton.mpr (not_hasArray_of_not_mem (by decide))⟩
  · exact List.forall_mem_map.mpr fun f hf => (h.syscallFuncs f hf).text
  · exact List.forall_mem_singleton.mpr (not_hasArray_of_not_mem (by decide))

/-- The second interface, with the records between other lines. -/
theorem join_syscallsLines (w : WitFile) : Py.join "\n" w.syscallsLines =
    Py.join "\n" w.aboveRecords ++ '\n' :: '\t' ::
      (Py.afterBreaks ['\t'] (recordContent w.records) ++ '\n' :: Py.join "\n" w.belowRecords) := by
  have habove : w.aboveRecords ≠ [] := List.cons_ne_nil _ _
  have hbelow : w.belowRecords ≠ [] := List.cons_ne_nil _ _
  have hlines := syscallsLines_eq w w.records
  change w.syscallsLines = _ at hlines
  rw [hlines, Py.join_append _ habove (List.cons_ne_nil _ _), ← List.singleton_append,
    Py.join_append _ (List.cons_ne_nil _ _) hbelow, Py.join_cons, List.flatMap_nil, List.append_nil]
  change _ ++ (_ ++ (("\t" : Str) ++ Py.join ('\n' :: ['\t']) _ ++ _)) = _
  rw [Py.join_splitOn, List.append_assoc]
  rfl

/-- If the records are readable, every opening in the file is read. -/
theorem WitFile.Free.allRead (h : w.Free) (htypes : '_' ∉ Py.join "\n" w.typesLines)
    (hcontent : '_' ∉ recordContent w.records)
    (hread : ∀ r ∈ w.records, ∀ a f b, r.fields = a ++ f :: b → f.2.Readable (nextCloses b)) :
    AllRead w.text := by
  have hne : auxStub ≠ [] := by decide
  have hfilled : ∀ {ls : List Str}, (∀ l ∈ ls, ¬ HasArray l) →
      ¬ HasArray (Py.replace (Py.join "\n" ls) auxStub (Py.join "\n" w.auxLines)) := fun hls =>
    Py.Regex.not_infix_replace hne (by decide) h.sealed (not_hasArray_join (by decide) hls)
  have hstay : '_' ∉ Py.afterBreaks ['\t'] (recordContent w.records) := by
    intro hmem
    rcases Py.mem_afterBreaks hmem with hmem | hmem
    · exact absurd hmem (by decide)
    · exact hcontent hmem
  have hreplace : Py.replace (Py.join "\n" w.syscallsLines) auxStub (Py.join "\n" w.auxLines) =
      Py.replace (Py.join "\n" w.aboveRecords) auxStub (Py.join "\n" w.auxLines) ++ '\n' :: ([] ++ '\t' ::
        (Py.afterBreaks ['\t'] (recordContent w.records) ++ '\n' ::
          Py.replace (Py.join "\n" w.belowRecords) auxStub (Py.join "\n" w.auxLines))) := by
    have htab : ∀ b, Py.replace ('\t' :: b) auxStub (Py.join "\n" w.auxLines) =
        '\t' :: Py.replace b auxStub (Py.join "\n" w.auxLines) := fun b =>
      Py.replace_append_cons (a := []) hne (by decide)
    rw [join_syscallsLines, Py.replace_append_cons hne (by decide), htab,
      Py.replace_append_cons hne (by decide), Py.replace_of_not_mem (by decide) hstay]
    rfl
  have haux : ¬ HasArray (aboveAux ++ '\n' :: (Py.join "\n" w.auxLines ++ ['\n'])) := by
    rw [hasArray_append_cons (by decide), hasArray_append_cons (by decide), hasArray_iff]
    rintro (hlit | hlines | hnil)
    · exact absurd hlit (by decide)
    · exact not_hasArray_join (by decide) h.auxLines hlines
    · exact not_hasArray_nil hnil
  -- from the end of the file to its beginning
  have hrecords := allRead_recordContent h.records hread
    ((allRead_of_not_hasArray haux).append_cons (c := '\n') (hfilled h.belowRecords) (by decide))
  have htab := hrecords.append_cons (c := '\t') not_hasArray_nil (by decide)
  have hsys := htab.append_cons (c := '\n') (hfilled h.aboveRecords) (by decide)
  have habove : ¬ HasArray aboveSyscalls := not_hasArray_of_not_mem (by decide)
  have hprologue : ¬ HasArray prologue := fun hp => bracket_not_mem_prologue (hp.subset (by decide))
  have hall := (allRead_typesLines h.types (hsys.append_cons (c := '\n') habove (by decide))).append_cons
    (c := '\n') hprologue (by decide)
  rw [WitFile.text_eq htypes, hreplace]
  simpa only [List.append_assoc, List.cons_append, List.nil_append] using hall

end Lines

-- ════════════════════════════════════════════════════════════════════════
-- The tables
-- ════════════════════════════════════════════════════════════════════════

section Tables

variable (R : TypeRegistry) (scs : List Syscall) (auxs : List AuxSyscall)

/-- What goes into the file from a field: its name, and the name its type is made of. -/
def fieldTexts (f : StructField) : List Str :=
  match fieldTypeToWit R f.typeName with
  | .ok t => [f.name, t.name]
  | .error _ => [f.name]

/-- What goes into the file from the tables. -/
def tableTexts : List Str :=
  declared R ++ R.typeAliases.values ++
    R.structDefs.values.flatMap (fun sd => sd.name :: sd.fields.flatMap (fieldTexts R)) ++
    scs.flatMap (fun sc => sc.name :: (sc.args ++ sc.argsId)) ++
    auxs.flatMap fun sc => sc.name :: (sc.args ++ sc.argsId ++ sc.result.toList)

variable {R scs auxs} {w : WitFile}

theorem not_hasArray_witName (p : Primitive) : ¬ HasArray p.witName :=
  not_hasArray_of_not_mem (not_mem_witName (by decide) (by decide) p)

theorem declared_witName (n : ℕ) (p : Primitive) : (WitType.array n (.ident p.witName)).Declared := by
  have hletters : ∀ c ∈ ['s', 'u'], isText c = true := Py.forall_mem_of_all (by decide)
  refine ⟨List.cons_ne_nil _ _, fun c hc => ?_⟩
  rcases mem_witName hc with hc | hc
  · exact hletters c hc
  · rw [isText_iff, Bool.eq_false_iff]
    intro hs
    have := Py.isDigit_natStr hc
    rw [Py.isDigit_of_isSpace hs] at this
    cases this

theorem not_hasArray_aliasTarget {target : Str} (h : ¬ HasArray target) :
    ¬ HasArray (aliasTarget R target) := by
  unfold aliasTarget
  split
  · split
    · exact not_hasArray_witName _
    · exact not_hasArray_toWit h
  · exact not_hasArray_toWit h

theorem free_types {types : Dict Str WitType} (hc : buildWitCompTypes R = .ok types)
    (hdecl : ∀ x ∈ declared R, ¬ HasArray x) (htargets : ∀ x ∈ R.typeAliases.values, ¬ HasArray x) :
    ∀ e ∈ types.entries, ¬ HasArray e.1 ∧ ¬ HasArray e.2.name ∧ e.2.Declared := by
  intro e he
  refine ⟨?_, ?_⟩
  · obtain ⟨x, hx, hkey⟩ := (mem_keys_compTypes hc).mp (List.mem_map_of_mem he)
    rw [← hkey]
    exact not_hasArray_toWit (hdecl x hx)
  · obtain ⟨es, hes, rfl⟩ := Py.map_eq_ok_iff.mp hc
    have hmem : e ∈ es := Dict.mem_of_get?_ofList (Dict.get?_eq_some_iff.mpr he)
    rcases compEntries_cases hes hmem with ⟨k, p, _, rfl⟩ | ⟨k, u, hu, rfl⟩ | ⟨k, n, elem, p, _, rfl⟩
    · exact ⟨not_hasArray_witName p, trivial⟩
    · exact ⟨not_hasArray_aliasTarget (htargets u (Dict.mem_values.mpr ⟨k, hu⟩)), trivial⟩
    · exact ⟨not_hasArray_witName p, declared_witName n p⟩

theorem not_hasArray_witArg {arg : SyscallArg} (h : ¬ HasArray arg) : ¬ HasArray (witArg arg) := by
  have hstrip : ¬ HasArray (toWit (Py.strip arg)) :=
    not_hasArray_toWit (not_hasArray_of_part h (Py.infix_strip arg))
  unfold witArg transformPtrArg
  split
  · exact not_hasArray_of_not_mem (by decide)
  · rw [hasArray_of_not_mem (not_mem_ptrs (by decide) _)]
    exact not_hasArray_of_part hstrip (List.rdropWhile_prefix _ _).isInfix

theorem not_hasArray_argPtrTypes {args : List SyscallArg} (h : ∀ a ∈ args, ¬ HasArray a) :
    ∀ x ∈ argPtrTypes args, ¬ HasArray x := by
  intro x hmem
  obtain ⟨a, ha, rfl⟩ := List.mem_map.mp (List.mem_filter.mp hmem).1
  exact not_hasArray_witArg (h a ha)

theorem not_hasArray_resolveArgWit {t : Str} (h : ¬ HasArray t) : ¬ HasArray (resolveArgWit R t) := by
  unfold resolveArgWit
  cases hget : (basicTypesWit R).get? t with
  | none => exact h
  | some v =>
    obtain ⟨e, _, he⟩ := List.mem_map.mp (Dict.mem_of_get?_ofList hget)
    rw [Option.getD_some, ← (Prod.mk.inj he).2]
    exact not_hasArray_witName e.2

theorem not_hasArray_paramName {id : Str} (h : ¬ HasArray id) : ¬ HasArray (paramName id) := by
  unfold paramName
  cases hget : witKeywordsReservedMap.get? id with
  | none => exact not_hasArray_replaceChar h
  | some v =>
    have hletters : ∀ x ∈ witKeywordsReservedMap.values, 'A' ∉ x := by decide
    exact not_hasArray_of_not_mem (hletters v (List.mem_map_of_mem (Dict.get?_eq_some_iff.mp hget)))

theorem not_hasArray_witParams {argsId : List Str} {args : List SyscallArg}
    (h : ∀ x ∈ args ++ argsId, ¬ HasArray x) :
    ∀ e ∈ witParams R argsId args, ¬ HasArray e.1 ∧ ¬ HasArray e.2 := by
  refine List.forall_mem_map.mpr fun e he => ?_
  obtain ⟨hid, harg⟩ := List.of_mem_zip he
  exact ⟨not_hasArray_paramName (h _ (List.mem_append_right _ hid)),
    not_hasArray_resolveArgWit (not_hasArray_witArg (h _ (List.mem_append_left _ harg)))⟩

theorem not_hasArray_mem {x : Str} (hfree : ∀ x ∈ tableTexts R scs auxs, Py.contains x "Array[" = false)
    (hx : x ∈ tableTexts R scs auxs) : ¬ HasArray x := by
  rw [hasArray_iff, hfree x hx]
  decide

/-- The texts of a field that is written. -/
theorem mem_tableTexts_field {sd : StructDef} {f : StructField} {t : WitType} (hsd : sd ∈ R.structDefs.values)
    (hf : f ∈ sd.fields) (ht : fieldTypeToWit R f.typeName = .ok t) :
    f.name ∈ tableTexts R scs auxs ∧ t.name ∈ tableTexts R scs auxs := by
  have htexts : fieldTexts R f = [f.name, t.name] := by
    rw [fieldTexts, ht]
  have hmem : ∀ x ∈ fieldTexts R f, x ∈ tableTexts R scs auxs := by
    intro x hx
    have hfields : x ∈ sd.fields.flatMap (fieldTexts R) := List.mem_flatMap.mpr ⟨f, hf, hx⟩
    simp only [tableTexts, List.mem_append, List.mem_flatMap, List.mem_cons]
    exact Or.inl (Or.inl (Or.inr ⟨sd, hsd, Or.inr (List.mem_flatMap.mp hfields)⟩))
  rw [htexts] at hmem
  exact ⟨hmem _ (by simp), hmem _ (by simp)⟩

theorem mem_tableTexts_syscall {sc : Syscall} (hsc : sc ∈ scs) {x : Str}
    (hx : x = sc.name ∨ x ∈ sc.args ++ sc.argsId) : x ∈ tableTexts R scs auxs := by
  have hmem : x ∈ sc.name :: (sc.args ++ sc.argsId) := List.mem_cons.mpr hx
  exact List.mem_append_left _ (List.mem_append_right _ (List.mem_flatMap.mpr ⟨sc, hsc, hmem⟩))

theorem mem_tableTexts_aux {sc : AuxSyscall} (hsc : sc ∈ auxs) {x : Str}
    (hx : x = sc.name ∨ x ∈ sc.args ++ sc.argsId ++ sc.result.toList) : x ∈ tableTexts R scs auxs := by
  have hmem : x ∈ sc.name :: (sc.args ++ sc.argsId ++ sc.result.toList) := List.mem_cons.mpr hx
  exact List.mem_append_right _ (List.mem_flatMap.mpr ⟨sc, hsc, hmem⟩)

theorem not_hasArray_call {name : Str} {args : List SyscallArg} (hname : ¬ HasArray name)
    (h : ∀ x ∈ args, ¬ HasArray x) : ¬ HasArray (name ++ ("(" ++ (Py.join ", " args ++ ")"))) := by
  rw [hasArray_apart (by decide), hasArray_apart_end (by decide), not_or]
  exact ⟨hname, not_hasArray_join (by decide) h⟩

theorem free_syscallFunc {sc : Syscall} (hname : ¬ HasArray sc.name)
    (h : ∀ x ∈ sc.args ++ sc.argsId, ¬ HasArray x) : (syscallFunc R sc).Free where
  comment := by
    have hdigits : ∀ n, 'A' ∉ Py.natStr n := Py.not_mem_natStr (by decide)
    have hnumber : 'A' ∉ Py.intStr sc.nr := by
      cases sc.nr with
      | ofNat n => exact hdigits n
      | negSucc n => exact List.not_mem_cons_of_ne_of_not_mem (by decide) (hdigits (n + 1))
    have hcall := not_hasArray_call hname fun x hx => h x (List.mem_append_left _ hx)
    unfold syscallFunc
    simp only [List.append_assoc]
    rwa [hasArray_of_not_mem (by decide), hasArray_of_not_mem hnumber, hasArray_of_not_mem (by decide)]
  name := mt (hasArray_of_not_mem (by decide) _).mp (not_hasArray_replaceChar hname)
  params := not_hasArray_witParams h
  result := fun t ht => Option.some.inj ht ▸ not_hasArray_of_not_mem (by decide)

theorem free_auxFunc {sc : AuxSyscall} (hname : ¬ HasArray sc.name)
    (h : ∀ x ∈ sc.args ++ sc.argsId, ¬ HasArray x) (hresult : ∀ x ∈ sc.result, ¬ HasArray x) :
    (auxFunc R sc).Free where
  comment := by
    have hcall := not_hasArray_call hname fun x hx => h x (List.mem_append_left _ hx)
    unfold auxFunc
    simpa only [List.append_assoc] using hcall
  name := not_hasArray_replaceChar (not_hasArray_of_part hname (List.dropWhile_suffix _).isInfix)
  params := not_hasArray_witParams h
  result := by
    intro t ht
    obtain ⟨x, hx, hres⟩ := Option.bind_eq_some_iff.mp ht
    unfold resultText at hres
    split at hres
    · cases hres
    · exact Option.some.inj hres ▸ not_hasArray_resolveArgWit (hresult x hx)

/-- A record is written for a struct. -/
theorem exists_of_mem_records {recs : List WitRecord} (hr : records R = .ok recs) {r : WitRecord}
    (h : r ∈ recs) : ∃ sd ∈ R.structDefs.values, r.name = toWit sd.name ∧ recordFields R sd.fields = .ok r.fields := by
  obtain ⟨sd, hsd, hrec⟩ := Py.exists_of_mem_mapM_ok hr h
  obtain ⟨fields, hfields, rfl⟩ := Py.map_eq_ok_iff.mp hrec
  exact ⟨sd, hsd, rfl, hfields⟩

/-- And a line of it for a field. -/
theorem exists_of_recordFields {fields : List StructField} {gs : List (Str × WitType)}
    (h : recordFields R fields = .ok gs) {i : ℕ} {g : Str × WitType} (hg : gs[i]? = some g) :
    ∃ f, fields[i]? = some f ∧ g.1 = toWit f.name ∧ fieldTypeToWit R f.typeName = .ok g.2 := by
  obtain ⟨f, hf, hok⟩ := Py.mapM_ok_getElem?_inv h hg
  obtain ⟨t, ht, rfl⟩ := Py.map_eq_ok_iff.mp hok
  exact ⟨f, hf, rfl, ht⟩

section Free

variable (hfree : ∀ x ∈ tableTexts R scs auxs, Py.contains x "Array[" = false)

include hfree

theorem free_syscall {sc : Syscall} (hsc : sc ∈ scs) :
    ¬ HasArray sc.name ∧ ∀ x ∈ sc.args ++ sc.argsId, ¬ HasArray x :=
  ⟨not_hasArray_mem hfree (mem_tableTexts_syscall hsc (Or.inl rfl)),
    fun _ hx => not_hasArray_mem hfree (mem_tableTexts_syscall hsc (Or.inr hx))⟩

theorem free_aux {sc : AuxSyscall} (hsc : sc ∈ auxs) :
    ¬ HasArray sc.name ∧ ∀ x ∈ sc.args ++ sc.argsId ++ sc.result.toList, ¬ HasArray x :=
  ⟨not_hasArray_mem hfree (mem_tableTexts_aux hsc (Or.inl rfl)),
    fun _ hx => not_hasArray_mem hfree (mem_tableTexts_aux hsc (Or.inr hx))⟩

theorem free_uniqPtrTypes : ∀ x ∈ uniqPtrTypes R scs, ¬ HasArray x := by
  intro x hmem
  rcases List.mem_append.mp (List.mem_dedup.mp hmem) with hmem | hmem
  · obtain ⟨f, hf, rfl⟩ := List.mem_map.mp hmem
    obtain ⟨hf, hstar⟩ := List.mem_filter.mp hf
    obtain ⟨sd, hsd, hf⟩ := List.mem_flatMap.mp hf
    have hptr : f.name ∈ tableTexts R scs auxs ∧ ptrName f.typeName ∈ tableTexts R scs auxs :=
      mem_tableTexts_field hsd hf (fieldTypeToWit_of_ptr hstar)
    exact not_hasArray_mem hfree hptr.2
  · obtain ⟨sc, hsc, hmem⟩ := List.mem_flatMap.mp hmem
    refine not_hasArray_argPtrTypes (fun a ha => ?_) x hmem
    exact (free_syscall hfree hsc).2 a (List.mem_append_left _ ha)

theorem free_auxPtrTypes : ∀ x ∈ auxPtrTypes auxs, ¬ HasArray x := by
  intro x hmem
  obtain ⟨sc, hsc, hmem⟩ := List.mem_flatMap.mp (List.mem_dedup.mp hmem)
  refine not_hasArray_argPtrTypes (fun a ha => ?_) x hmem
  exact (free_aux hfree hsc).2 a (List.mem_append_left _ (List.mem_append_left _ ha))

theorem free_records {recs : List WitRecord} (hr : records R = .ok recs) :
    ∀ r ∈ recs, ¬ HasArray r.name ∧ ∀ f ∈ r.fields, ¬ HasArray f.1 ∧ ¬ HasArray f.2.name := by
  intro r hrec
  obtain ⟨sd, hsd, hname, hfields⟩ := exists_of_mem_records hr hrec
  refine ⟨?_, fun g hg => ?_⟩
  · rw [hname]
    refine not_hasArray_toWit (not_hasArray_mem hfree ?_)
    simp only [tableTexts, List.mem_append, List.mem_flatMap, List.mem_cons]
    exact Or.inl (Or.inl (Or.inr ⟨sd, hsd, Or.inl rfl⟩))
  · obtain ⟨i, hi⟩ := List.getElem?_of_mem hg
    obtain ⟨f, hf, hid, ht⟩ := exists_of_recordFields hfields hi
    have hmem : f.name ∈ tableTexts R scs auxs ∧ g.2.name ∈ tableTexts R scs auxs :=
      mem_tableTexts_field hsd (List.mem_of_getElem? hf) ht
    rw [hid]
    exact ⟨not_hasArray_toWit (not_hasArray_mem hfree hmem.1), not_hasArray_mem hfree hmem.2⟩

/-- If the tables have no opening, the names in the file have none. -/
theorem free_of_generate (h : generate R scs auxs = .ok w) : w.Free := by
  obtain ⟨types, recs, hc, hr, rfl⟩ := generate_eq_ok_iff.mp h
  have hdecl : ∀ x ∈ declared R, ¬ HasArray x := fun x hd => not_hasArray_mem hfree (by
    simp only [tableTexts, List.mem_append]
    exact Or.inl (Or.inl (Or.inl (Or.inl hd))))
  have htargets : ∀ x ∈ R.typeAliases.values, ¬ HasArray x := fun x ht => not_hasArray_mem hfree (by
    simp only [tableTexts, List.mem_append]
    exact Or.inl (Or.inl (Or.inl (Or.inr ht))))
  refine ⟨free_types hc hdecl htargets, ?_, free_records hfree hr, ?_, ?_, ?_⟩
  · exact fun x hmem => free_uniqPtrTypes hfree x ((List.mem_insertionSort _).mp hmem)
  · refine List.forall_mem_map.mpr fun sc hsc => ?_
    obtain ⟨hname, hargs⟩ := free_syscall hfree (List.mem_filter.mp hsc).1
    exact free_syscallFunc hname hargs
  · exact fun x hmem => free_auxPtrTypes hfree x (List.mem_filter.mp hmem).1
  · refine List.forall_mem_map.mpr fun sc hsc => ?_
    obtain ⟨hname, hall⟩ := free_aux hfree hsc
    obtain ⟨hargs, hresult⟩ := List.forall_mem_append.mp hall
    exact free_auxFunc hname hargs fun x hx => hresult x (Option.mem_toList.mpr hx)

end Free

theorem underscore_not_mem_recordContent {recs : List WitRecord} (hr : records R = .ok recs) :
    '_' ∉ recordContent recs := by
  have hline : ∀ r ∈ recs, ∀ l ∈ r.lines, '_' ∉ l := by
    intro r hrec l hl
    obtain ⟨sd, _, hname, hfields⟩ := exists_of_mem_records hr hrec
    rw [lines_eq, hname] at hl
    rcases List.mem_append.mp hl with hl | hl
    · rcases List.mem_cons.mp hl with rfl | hl
      · simp only [List.mem_append, not_or]
        exact ⟨⟨by decide, (blank_not_mem_toWit _).2⟩, by decide⟩
      · obtain ⟨i, hi, rfl⟩ := List.mem_mapIdx.mp hl
        obtain ⟨f, _, hid, ht⟩ := exists_of_recordFields hfields (List.getElem?_eq_getElem hi)
        have htype := WitType.underscore_not_mem_text (underscore_not_mem_fieldTypeToWitIn ht)
        simp only [lineOf, hid, List.mem_append, not_or]
        refine ⟨⟨⟨⟨by decide, (blank_not_mem_toWit _).2⟩, by decide⟩, htype⟩, ?_⟩
        split
        · decide
        · decide
    · have hends : ∀ l ∈ [['}'], []], '_' ∉ l := by decide
      exact hends l hl
  intro hmem
  rcases Py.mem_join hmem with hc | ⟨l, hl, hc⟩
  · exact absurd hc (by decide)
  · obtain ⟨r, hrec, hl⟩ := List.mem_flatMap.mp hl
    exact hline r hrec l hl hc

/-- The field has a name that starts like the end of an array. -/
def closesNext (g : Option StructField) : Bool :=
  g.any fun g => ((toWit g.name).dropWhile Py.isSpace).head? == some ']'

variable (R) in
/-- Every array among the fields has one count, and an element name that the pattern reads. -/
def ArraysReadable (fields : List StructField) : Prop :=
  ∀ i f n elem, fields[i]? = some f → fieldTypeToWit R f.typeName = .ok (.array n elem) →
    ∃ name, elem = .ident name ∧ readable name (closesNext fields[i + 1]?) = true

theorem nextCloses_eq {fields : List StructField} {i : ℕ} {fs : List (Str × WitType)}
    (h : fs.map Prod.fst = (fields.drop (i + 1)).map fun g => toWit g.name) :
    nextCloses fs = closesNext fields[i + 1]? := by
  have hhead : (fs.map Prod.fst).head? = fields[i + 1]?.map fun g => toWit g.name := by
    rw [h, List.head?_map, List.head?_drop]
  cases fs with
  | nil =>
    rw [List.map_nil, List.head?_nil, eq_comm, Option.map_eq_none_iff] at hhead
    rw [hhead]
    rfl
  | cons e fs =>
    obtain ⟨g, hg, he⟩ := Option.map_eq_some_iff.mp hhead.symm
    rw [nextCloses, ← he, hg]
    rfl

/-- What is required of the tables, in the records. -/
theorem ArraysReadable.record {fields : List StructField} (h : ArraysReadable R fields)
    {gs : List (Str × WitType)} (hgs : recordFields R fields = .ok gs) :
    ∀ a g b, gs = a ++ g :: b → g.2.Readable (nextCloses b) := by
  rintro a ⟨id, t⟩ b rfl
  obtain ⟨f, hf, _, ht⟩ := exists_of_recordFields hgs (i := a.length) (g := (id, t)) (by simp)
  have hnames : (a ++ (id, t) :: b).map Prod.fst = fields.map fun g => toWit g.name := by
    refine Py.mapM_ok_map (fun g y hy => ?_) hgs
    obtain ⟨_, _, rfl⟩ := Py.map_eq_ok_iff.mp hy
    rfl
  have hdrop := congrArg (List.drop (a.length + 1)) hnames
  rw [← List.map_drop, ← List.map_drop] at hdrop
  have hnext : nextCloses b = closesNext fields[a.length + 1]? := nextCloses_eq (by simpa using hdrop)
  cases t with
  | ident name => exact trivial
  | array n elem =>
    obtain ⟨name, rfl, hread⟩ := h _ _ _ _ hf ht
    rw [hnext]
    exact hread

/-- If the array fields are readable, no array is left in the file. -/
theorem not_hasArray_text (h : generate R scs auxs = .ok w)
    (hfree : ∀ x ∈ tableTexts R scs auxs, Py.contains x "Array[" = false)
    (hread : ∀ sd ∈ R.structDefs.values, ArraysReadable R sd.fields) :
    ¬ HasArray (expandArrays w.text) := by
  have hw := free_of_generate hfree h
  obtain ⟨types, recs, hc, hr, rfl⟩ := generate_eq_ok_iff.mp h
  refine (hw.allRead (underscore_not_mem_typesLines hc) (underscore_not_mem_recordContent hr) ?_).not_hasArray
  intro r hrec
  obtain ⟨sd, hsd, _, hfields⟩ := exists_of_mem_records hr hrec
  exact (hread sd hsd).record hfields

end Tables

end Wali.Wit
