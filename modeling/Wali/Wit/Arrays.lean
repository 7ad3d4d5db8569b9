import Wali.Wit.Openings

/-!
# Arrays in the WIT file

What becomes of a struct field whose type is an array. With one count it becomes a tuple, unless
names contain characters that the pattern reads as its own. With several counts an array is left.
-/

namespace Wali.Wit

open Py (Str Dict)

-- ════════════════════════════════════════════════════════════════════════
-- What the file should say
-- ════════════════════════════════════════════════════════════════════════

/-- A type made of tuples over one name. -/
inductive Nest where
  | leaf
  | tuple (first : Nest) (rest : List Nest)

mutual

def Nest.text (name : Str) : Nest → Str
  | .leaf => name
  | .tuple first rest => "tuple<" ++ first.text name ++ restText name rest

def restText (name : Str) : List Nest → Str
  | [] => ">"
  | t :: ts => "," ++ t.text name ++ restText name ts

end

mutual

def Nest.leaves : Nest → ℕ
  | .leaf => 1
  | .tuple first rest => first.leaves + restLeaves rest

def restLeaves : List Nest → ℕ
  | [] => 0
  | t :: ts => t.leaves + restLeaves ts

end

/-- A type that is read as `T[n₁]…[nₖ]`, with the counts from the last to the first. -/
inductive ArrayOf (R : TypeRegistry) (T : Str) : Str → List ℕ → Prop
  | elem : ArrayOf R T T []
  | suffix {t elem : Str} {count : ℕ} {counts : List ℕ} (h : R.shape t = .inlineArray count elem)
      (rest : ArrayOf R T elem counts) : ArrayOf R T t (count :: counts)

/-- The product of the counts. -/
def size (counts : List ℕ) : ℕ := counts.foldr (· * ·) 1

namespace WitFile

variable (w : WitFile) (j i : ℕ)

/-- In the finished text the field has nested tuples with so many leaves as its type, the text
around it is what it is without the field, and no array is left. -/
def ArrayExact (name : Str) (count : ℕ) : Prop :=
  ∃ pre post first rest, w.FieldContext j i pre post ∧ (Nest.tuple first rest).leaves = count ∧
    expandArrays w.text =
      expandArrays pre ++ (Nest.tuple first rest).text name ++ expandArrays post ∧
    Py.contains (expandArrays w.text) "Array[" = false

end WitFile

-- ════════════════════════════════════════════════════════════════════════
-- Tuples
-- ════════════════════════════════════════════════════════════════════════

section Tuples

/-- The openings of nested tuples. -/
def openings (m : ℕ) : Str := (List.replicate m ("tuple<" : String).toList).flatten

theorem openings_succ (m : ℕ) : openings (m + 1) = "tuple<" ++ openings m := rfl

theorem openings_append (m : ℕ) : openings m ++ "tuple<" = openings (m + 1) := by
  rw [openings, openings, List.replicate_succ', List.flatten_append, List.flatten_singleton]

theorem not_mem_openings {c : Char} (h : c ∉ ("tuple<" : Str)) (m : ℕ) : c ∉ openings m := by
  intro hmem
  obtain ⟨l, hl, hc⟩ := List.mem_flatten.mp hmem
  rw [List.eq_of_mem_replicate hl] at hc
  exact h hc

variable {name : Str}

theorem restText_eq (name : Str) (ts : List Nest) : ∃ c B, restText name ts = c :: B ∧ (c = ',' ∨ c = '>') := by
  cases ts with
  | nil => exact ⟨'>', [], rfl, Or.inr rfl⟩
  | cons t ts => exact ⟨',', t.text name ++ restText name ts, rfl, Or.inl rfl⟩

theorem Nest.text_tuple (first : Nest) (rest : List Nest) : (Nest.tuple first rest).text name =
    "tuple<" ++ (first.text name ++ restText name rest) :=
  List.append_assoc ("tuple<" : Str) (first.text name) (restText name rest)

/-- Nested tuples start with openings and the name. -/
theorem Nest.text_eq (name : Str) : ∀ t : Nest, ∃ m B, t.text name = openings m ++ (name ++ B) ∧
    ∀ c ∈ B.head?, c = ',' ∨ c = '>'
  | .leaf => ⟨0, [], (List.append_nil name).symm, fun _ hc => nomatch hc⟩
  | .tuple first rest => by
    obtain ⟨m, B, hfirst, hB⟩ := Nest.text_eq name first
    obtain ⟨c, B', hrest, hc⟩ := restText_eq name rest
    refine ⟨m + 1, B ++ c :: B', ?_, ?_⟩
    · rw [Nest.text_tuple, hfirst, hrest, openings_succ]
      simp only [List.append_assoc]
    · cases B with
      | nil => exact fun d hd => Option.some.inj hd ▸ hc
      | cons d B => exact hB

/-- Behind the name in a tuple there is a comma or the end. -/
theorem Nest.tuple_text_eq (name : Str) (first : Nest) (rest : List Nest) : ∃ m y B,
    (Nest.tuple first rest).text name = ("tuple<" : Str) ++ (openings m ++ (name ++ y :: B)) ∧
      (y = ',' ∨ y = '>') := by
  obtain ⟨m, B, hfirst, hB⟩ := Nest.text_eq name first
  obtain ⟨c, B', hrest, hc⟩ := restText_eq name rest
  cases B with
  | nil =>
    refine ⟨m, c, B', ?_, hc⟩
    rw [Nest.text_tuple, hfirst, hrest, List.append_nil, List.append_assoc]
  | cons y B =>
    refine ⟨m, y, B ++ c :: B', ?_, hB y rfl⟩
    rw [Nest.text_tuple, hfirst, hrest]
    simp only [List.append_assoc, List.cons_append]

/-- A text followed by one character is not the text behind openings, followed by another. -/
theorem openings_mismatch {c y : Char} (hc : c ∉ ("tuple<" : Str)) (hy : c ≠ y) {A B : Str} (m : ℕ)
    (p : Str) : p ++ c :: A ≠ openings m ++ (p ++ y :: B) := by
  induction hn : p.length using Nat.strong_induction_on generalizing p m with
  | h n ih =>
  subst hn
  cases m with
  | zero =>
    intro (he : p ++ c :: A = p ++ y :: B)
    exact hy (List.cons.inj (List.append_cancel_left he)).1
  | succ m =>
    intro he
    rw [openings_succ, List.append_assoc] at he
    have hp : ∃ a, p = "tuple<" ++ a := by
      rcases List.append_eq_append_iff.mp he with ⟨a, ha, ha'⟩ | ⟨a, rfl, _⟩
      · cases a with
        | nil => exact ⟨[], by rw [List.append_nil, ha, List.append_nil]⟩
        | cons d a =>
          obtain ⟨rfl, _⟩ := List.cons.inj ha'
          exact absurd (by rw [ha]; simp) hc
      · exact ⟨a, rfl⟩
    obtain ⟨a, rfl⟩ := hp
    have hlt : a.length < (("tuple<" : Str) ++ a).length := by
      rw [List.length_append]
      exact Nat.lt_add_of_pos_left (by decide)
    refine ih a.length hlt (m + 1) a rfl ?_
    rw [List.append_assoc, List.append_assoc] at he
    rw [← openings_append, List.append_assoc]
    exact List.append_cancel_left he

theorem comma_or_end_not_mem {c : Char} (h : c = ',' ∨ c = '>') : c ∉ ("tuple<" : Str) := by
  rcases h with rfl | rfl
  · decide
  · decide

theorem tupleText_eq {n : ℕ} (hn : 1 ≤ n) (name : Str) : ∃ c A,
    tupleText n name = ("tuple<" : Str) ++ (name ++ c :: A) ∧ (c = ',' ∨ c = '>') := by
  obtain ⟨n, rfl⟩ := Nat.exists_eq_add_of_le' hn
  rw [tupleText_succ]
  cases n with
  | zero => exact ⟨'>', [], rfl, Or.inr rfl⟩
  | succ n => exact ⟨',', _, rfl, Or.inl rfl⟩

/-- The tuple of an array with one count is nested once. -/
theorem exists_nest (name : Str) (n : ℕ) : ∃ first rest, (Nest.tuple first rest).leaves = n + 1 ∧
    tupleText (n + 1) name = (Nest.tuple first rest).text name := by
  refine ⟨.leaf, List.replicate n .leaf, ?_, ?_⟩
  · have hleaves : restLeaves (List.replicate n .leaf) = n := by
      induction n with
      | zero => rfl
      | succ n ih => exact (congrArg (1 + ·) ih).trans (Nat.add_comm 1 n)
    exact (congrArg (1 + ·) hleaves).trans (Nat.add_comm 1 n)
  · have hrest : restText name (List.replicate n .leaf) =
        (List.replicate n name).flatMap (fun y => ("," : Str) ++ y) ++ ">" := by
      induction n with
      | zero => rfl
      | succ n ih =>
        change "," ++ name ++ restText name (List.replicate n .leaf) = _
        rw [ih, List.replicate_succ, List.flatMap_cons, List.append_assoc, List.append_assoc,
          List.append_assoc]
    rw [tupleText_succ, Nest.text_tuple, hrest]
    rfl

end Tuples

-- ════════════════════════════════════════════════════════════════════════
-- One array
-- ════════════════════════════════════════════════════════════════════════

section Field

variable {name Y : Str} {fs : List (Str × WitType)} {n : ℕ}

section Mismatch

variable {type rest A B Z : Str} {c s : Char} {m : ℕ}

/-- Nested tuples over a name that starts with white space have another text. -/
theorem tuple_ne_of_space (htype : ∀ d ∈ type, isText d = true) (hc : c = ',' ∨ c = '>')
    (hs : isText s = false) : type ++ c :: A ≠ openings m ++ s :: B := by
  have hcs : c ≠ s := by
    rintro rfl
    rcases hc with rfl | rfl
    · exact absurd hs (by decide)
    · exact absurd hs (by decide)
  intro he
  rcases List.append_eq_append_iff.mp he with ⟨a, ha, ha'⟩ | ⟨a, rfl, ha'⟩
  · cases a with
    | nil => exact hcs (List.cons.inj ha').1
    | cons d a =>
      obtain ⟨rfl, _⟩ := List.cons.inj ha'
      exact not_mem_openings (comma_or_end_not_mem hc) m (by rw [ha]; simp)
  · cases a with
    | nil => exact hcs (List.cons.inj ha').1.symm
    | cons d a =>
      obtain ⟨rfl, _⟩ := List.cons.inj ha'
      rw [htype s (by simp)] at hs
      cases hs

/-- So have those over a name with white space further on: the element ends before it. -/
theorem tuple_ne_of_candidate {p q : Str} (hp : ∀ d ∈ p, isText d = true) (hs : isText s = false)
    (hcand : Candidate (p ++ s :: Z) type rest) (hc : c = ',' ∨ c = '>') :
    type ++ c :: A ≠ openings m ++ (p ++ s :: q) := by
  have hmem := comma_or_end_not_mem hc
  have hcs : ∀ d, isText d = false ∨ d = ']' → c ≠ d := by
    rintro d hd rfl
    rcases hc with rfl | rfl
    · exact absurd hd (by decide)
    · exact absurd hd (by decide)
  rcases hcand.of_space hp hs with rfl | ⟨a, rfl⟩
  · exact openings_mismatch hmem (hcs s (Or.inl hs)) m type
  · rw [List.append_assoc]
    exact openings_mismatch hmem (hcs ']' (Or.inr rfl)) m type

end Mismatch

/-- If the expanded text has nested tuples over the name, the name is clean. -/
theorem isText_of_element {type rest A B : Str} {c : Char} {m : ℕ}
    (he : element ((Py.afterBreaks ['\t'] name ++ ']' :: following fs Y).dropWhile Py.isSpace) =
      some (type, rest)) (hc : c = ',' ∨ c = '>')
    (heq : type ++ c :: A = openings m ++ (name ++ B)) : ∀ d ∈ name, isText d = true := by
  by_contra hnot
  obtain ⟨p, s, q, rfl, hp, hs⟩ := exists_space hnot
  obtain ⟨hcand, _⟩ := candidate_of_element he
  cases p with
  | nil => exact tuple_ne_of_space hcand.clean hc hs heq
  | cons d p =>
    obtain ⟨q', hq⟩ := Py.exists_afterBreaks_cons ['\t'] s q
    have hd := hp d List.mem_cons_self
    rw [Py.afterBreaks_append, afterBreaks_of_isText hp, hq, List.append_assoc, List.cons_append,
      dropWhile_of_isText hd] at hcand
    rw [List.append_assoc] at heq
    exact tuple_ne_of_candidate (p := d :: p) hp hs hcand hc heq

/-- An array becomes nested tuples over its element type exactly if that is a clean name and the
next line takes no part. -/
theorem expandArrays_arrayText_iff (hn : 1 ≤ n) (hname : name ≠ []) :
    (∃ first rest, (Nest.tuple first rest).leaves = n ∧ expandArrays (arrayText n name fs Y) =
      (Nest.tuple first rest).text name ++ expandArrays (following fs Y)) ↔
    (∀ c ∈ name, isText c = true) ∧ nextCloses fs = false := by
  constructor
  · rintro ⟨first, rest, _, hexp⟩
    obtain ⟨m, y, B, htext, hy⟩ := Nest.tuple_text_eq name first rest
    rw [htext] at hexp
    cases he : element ((Py.afterBreaks ['\t'] name ++ ']' :: following fs Y).dropWhile Py.isSpace) with
    | none =>
      have hnone : arrayMatch (arrayText n name fs Y) = none := by
        rw [arrayMatch_arrayText, he]
        rfl
      have hstays := (expandArrays_of_none hnone).symm.trans hexp
      exact absurd (List.cons.inj hstays).1 (by decide)
    | some e =>
      have hsome : arrayMatch (arrayText n name fs Y) = some (tupleText n e.1, e.2) := by
        rw [arrayMatch_arrayText, he]
        rfl
      obtain ⟨c, A, htuple, hc⟩ := tupleText_eq hn e.1
      rw [expandArrays_of_some hsome, htuple] at hexp
      simp only [List.append_assoc, List.cons_append] at hexp
      have heq := List.append_cancel_left hexp
      have hclean := isText_of_element he hc heq
      refine ⟨hclean, Bool.eq_false_iff.mpr fun hnext => ?_⟩
      rw [afterBreaks_of_isText hclean, dropWhile_name hname hclean] at he
      obtain ⟨z, hz⟩ := element_of_nextCloses hclean hnext he
      rw [hz, List.append_assoc, List.cons_append] at heq
      have hend : ']' ≠ y := by
        rintro rfl
        exact absurd hy (by decide)
      exact openings_mismatch (by decide) hend m name heq
  · rintro ⟨hclean, hnext⟩
    obtain ⟨n, rfl⟩ := Nat.exists_eq_add_of_le' hn
    obtain ⟨first, rest, hleaves, htext⟩ := exists_nest name n
    exact ⟨first, rest, hleaves, by rw [expandArrays_arrayText hname hclean hnext, htext]⟩

end Field

-- ════════════════════════════════════════════════════════════════════════
-- What is left
-- ════════════════════════════════════════════════════════════════════════

section Left

/-- An array of arrays is never expanded. -/
theorem hasArray_nested (hn : 1 ≤ n) (k : ℕ) (Z : Str) : HasArray (expandArrays
    ("Array[" ++ (Py.natStr n ++ ',' :: ' ' :: ("Array[" ++ (Py.natStr k ++ ',' :: ' ' :: Z))))) := by
  let p : Str := "Array[" ++ (Py.natStr k ++ [','])
  have hopen : HasArray p := ⟨[], Py.natStr k ++ [','], rfl⟩
  have hp : ∀ d ∈ p, isText d = true ∧ d ≠ ']' := by
    intro d hd
    rcases List.mem_append.mp hd with hd | hd
    · exact Py.forall_mem_of_all (p := fun d => isText d = true ∧ d ≠ ']') (by decide) d hd
    · rcases List.mem_append.mp hd with hd | hd
      · have hdigit := Py.isDigit_natStr hd
        refine ⟨isText_iff.mpr (Bool.eq_false_iff.mpr fun hs => ?_), ?_⟩
        · rw [Py.isDigit_of_isSpace hs] at hdigit
          cases hdigit
        · rintro rfl
          exact absurd hdigit (by decide)
      · exact Py.forall_mem_of_all (p := fun d => isText d = true ∧ d ≠ ']') (by decide) d hd
  have hx : (("Array[" : Str) ++ (Py.natStr k ++ ',' :: ' ' :: Z)).dropWhile Py.isSpace = p ++ ' ' :: Z := by
    rw [dropWhile_name (by decide) (Py.forall_mem_of_all (by decide))]
    simp only [p, List.append_assoc, List.singleton_append]
  have hmatch := arrayMatch_array n (("Array[" : Str) ++ (Py.natStr k ++ ',' :: ' ' :: Z))
  rw [hx] at hmatch
  cases he : element (p ++ ' ' :: Z) with
  | none =>
    rw [he] at hmatch
    rw [expandArrays_of_none hmatch]
    exact (List.prefix_append _ _).isInfix
  | some e =>
    rw [he] at hmatch
    rw [expandArrays_of_some hmatch]
    -- then the element is the inner array up to its comma
    have htype : e.1 = p := by
      obtain ⟨hcand, _⟩ := candidate_of_element he
      rcases hcand.of_space (fun d hd => (hp d hd).1) (by decide) with h | ⟨a, ha⟩
      · exact h
      · exact absurd rfl (hp ']' (by rw [ha]; simp)).2
    have hall := (hasArray_tupleText hn [] p (expandArrays e.2)).mpr (Or.inr (Or.inl hopen))
    rw [htype]
    exact hall

end Left

-- ════════════════════════════════════════════════════════════════════════
-- Array fields
-- ════════════════════════════════════════════════════════════════════════

section ArrayFields

variable {R : TypeRegistry} {T t name : Str} {counts : List ℕ}

theorem ArrayOf.fieldTypeToWit (h : ArrayOf R T t counts)
    (hT : Wit.fieldTypeToWit R T = .ok (.ident name)) :
    Wit.fieldTypeToWit R t = .ok (counts.foldr .array (.ident name)) := by
  induction h with
  | elem => exact hT
  | @suffix t elem count counts hs _ ih =>
    obtain ⟨hstar, hprim, halias, harray, hstruct, hparse⟩ := TypeRegistry.shape_inlineArray hs
    have hnamed : ¬ (t ∈ R.typeAliases.keys ∨ t ∈ R.arrayTypes.keys ∨ t ∈ R.structDefs.keys) := by
      rintro (hk | hk | hk)
      · exact Dict.get?_eq_none_iff.mp halias hk
      · exact Dict.get?_eq_none_iff.mp harray hk
      · exact Dict.get?_eq_none_iff.mp hstruct hk
    rw [fieldTypeToWit_of_inlineArray hstar hnamed hprim hparse, ih]
    rfl

theorem ArrayOf.ne_nil (h : ArrayOf R T t counts) (hc : counts ≠ []) : T ≠ [] := by
  induction h with
  | elem => exact absurd rfl hc
  | suffix hs rest ih =>
    cases rest with
    | elem =>
      obtain ⟨_, _, _, _, _, _, hne, _⟩ := TypeRegistry.parseInlineArray_eq_some_iff.mp
        (TypeRegistry.shape_inlineArray hs).2.2.2.2.2
      exact hne
    | suffix => exact ih (List.cons_ne_nil _ _)

theorem toWit_ne_nil (h : T ≠ []) : toWit T ≠ [] := by
  rw [toWit, Py.replaceChar, Py.replaceChar]
  simpa using h

/-- A type has a name. -/
theorem name_ne_nil (h : fieldTypeToWit R T = .ok (.ident name)) (hT : T ≠ []) : name ≠ [] := by
  have hname := toWit_ne_nil hT
  rw [fieldTypeToWit, fieldTypeToWitIn] at h
  split at h
  · next hstar =>
    obtain rfl := WitType.ident.inj (Except.ok.inj h)
    have hstart := startsWith_ptrName hstar
    intro hnil
    rw [hnil] at hstart
    exact absurd hstart (by decide)
  split at h
  · exact WitType.ident.inj (Except.ok.inj h) ▸ hname
  split at h
  · exact WitType.ident.inj (Except.ok.inj h) ▸ hname
  split at h
  · exact WitType.ident.inj (Except.ok.inj h) ▸ hname
  split at h
  · obtain rfl := WitType.ident.inj (Except.ok.inj h)
    split
    · exact List.cons_ne_nil _ _
    · exact hname
  · split at h
    · obtain ⟨elem, _, helem⟩ := Py.map_eq_ok_iff.mp h
      cases helem
    · cases h

theorem inert_of_head {c : Char} (hc : isText c = true) (hne : c ≠ ']') (s : Str) : Inert (c :: s) := by
  intro rest h
  rw [Closes, dropWhile_of_isText hc] at h
  exact hne (List.cons.inj h).1

variable {scs : List Syscall} {auxs : List AuxSyscall} {w : WitFile} {j i : ℕ} {sd : StructDef}
  {f : StructField}

/-- The file around a field: the text in front of its type ends in a colon and a blank. -/
theorem exists_context (h : generate R scs auxs = .ok w) (hsd : R.structDefs.values[j]? = some sd)
    (hf : sd.fields[i]? = some f) :
    ∃ X Y fs t, w.FieldContext j i (X ++ [':', ' ']) (following fs Y) ∧
      fs.map Prod.fst = (sd.fields.drop (i + 1)).map (fun g => toWit g.name) ∧
      fieldTypeToWit R f.typeName = .ok t ∧
      w.text = X ++ [':', ' '] ++ (Py.afterBreaks ['\t'] t.text ++ following fs Y) := by
  obtain ⟨hc, rs, rs', fs, fs', t, rfl, rfl, hrec, ht, hnames⟩ := exists_field h hsd hf
  have hfs : ∀ g ∈ fs', '_' ∉ g.1 := by
    intro g hg
    have hmem : g.1 ∈ (sd.fields.drop (fs.length + 1)).map fun g => toWit g.name :=
      hnames ▸ List.mem_map_of_mem hg
    obtain ⟨f', _, hf'⟩ := List.mem_map.mp hmem
    exact hf' ▸ (blank_not_mem_toWit _).2
  obtain ⟨X, Y, htext⟩ := text_withType hc hrec hfs
  refine ⟨X, Y, fs', t, ?_, hnames, ht, ?_⟩
  · intro name hname
    have hbreak : '\n' ∉ name := fun hn => (hname '\n' hn).1 rfl
    have hlow : '_' ∉ (WitType.ident name).text := fun hn => (hname '_' hn).2 rfl
    rw [htext _ hlow]
    change _ ++ Py.afterBreaks ['\t'] name ++ _ = _
    rw [Py.afterBreaks_of_not_mem hbreak, following]
  · have hlow := WitType.underscore_not_mem_text (underscore_not_mem_fieldTypeToWitIn ht)
    have hown := htext t hlow
    rw [WitFile.withType_self hrec] at hown
    rw [hown, List.append_assoc, following]

/-- The expansion of the file at an array field. -/
theorem expandArrays_field (h : generate R scs auxs = .ok w) (hsd : R.structDefs.values[j]? = some sd)
    (hf : sd.fields[i]? = some f) {n : ℕ} {elem : WitType}
    (ht : fieldTypeToWit R f.typeName = .ok (.array n elem)) :
    ∃ X Y fs, w.FieldContext j i (X ++ [':', ' ']) (following fs Y) ∧
      nextCloses fs = closesNext sd.fields[i + 1]? ∧
      expandArrays w.text = expandArrays (X ++ [':', ' ']) ++ expandArrays ("Array[" ++ (Py.natStr n ++
        ',' :: ' ' :: (Py.afterBreaks ['\t'] elem.text ++ ']' :: following fs Y))) := by
  obtain ⟨X, Y, fs, t, hctx, hnames, ht', htext⟩ := exists_context h hsd hf
  obtain rfl := Except.ok.inj (ht'.symm.trans ht)
  refine ⟨X, Y, fs, hctx, nextCloses_eq hnames, ?_⟩
  rw [htext, afterBreaks_array]
  exact expandArrays_colon (inert_of_head (by decide) (by decide) _) X

/-- An array field that is not readable is left in the file. -/
theorem arraysReadable_of_not_hasArray (h : generate R scs auxs = .ok w)
    (hcounts : ∀ sd ∈ R.structDefs.values, ∀ f ∈ sd.fields, ∀ n elem,
      fieldTypeToWit R f.typeName = .ok (.array n elem) → 1 ≤ n)
    (hleft : ¬ HasArray (expandArrays w.text)) :
    ∀ sd ∈ R.structDefs.values, ArraysReadable R sd.fields := by
  intro sd hsd i f n elem hf ht
  obtain ⟨j, hj⟩ := List.getElem?_of_mem hsd
  obtain ⟨X, Y, fs, _, hnext, hexp⟩ := expandArrays_field h hj hf ht
  rw [hexp] at hleft
  have hfield := not_hasArray_of_part hleft (List.suffix_append _ _).isInfix
  cases elem with
  | array k elem =>
    rw [afterBreaks_array] at hfield
    exact absurd (hasArray_nested (hcounts sd hsd f (List.mem_of_getElem? hf) n _ ht) k _) hfield
  | ident name =>
    refine ⟨name, rfl, ?_⟩
    rw [← hnext, ← exists_element_iff_readable (Y := Y), ← Option.ne_none_iff_exists']
    intro hnone
    let b : Str := Py.natStr n ++ ',' :: ' ' :: (Py.afterBreaks ['\t'] name ++ ']' :: following fs Y)
    have hmatch : arrayMatch ("Array[" ++ b) = none := by
      rw [arrayMatch_array, hnone]
      rfl
    have hfield : ¬ HasArray (expandArrays ("Array[" ++ b)) := hfield
    rw [expandArrays_of_none hmatch] at hfield
    exact hfield (List.prefix_append _ _).isInfix

end ArrayFields

/-- One struct with one field, over `int` alone. -/
def intField (type : Str) : TypeRegistry := oneField (Dict.empty.set "int" ⟨4, true⟩) .empty type

/-- Two array fields, next to an array that is declared by name. -/
def rowFields : List StructField := [⟨"row", "int[3]", none⟩, ⟨"pair", "int[2]", none⟩]

def rowRegistry : TypeRegistry :=
  (StructDecl.postInit ⟨"struct rows", rowFields, none, false⟩
    (TypeRegistry.bare (Dict.empty.set "int" ⟨4, true⟩) .empty (Dict.empty.set "quad" ⟨"int", 4⟩))).2

end Wali.Wit
