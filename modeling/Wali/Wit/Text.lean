import Wali.Wit.Generate
import Wali.Py.Text

/-!
# The text of the WIT file

`_generate_wit_file` puts the three interfaces into a template. For what happens to one record
field in the finished text, this module finds the text in front of its type and the text behind:
they are the same whatever type is written there.
-/

namespace Wali.Wit

open Py (Str Dict)

def typesStub : Str := "[[TYPES_STUB]]"

def syscallsStub : Str := "[[SYSCALLS_STUB]]"

def auxStub : Str := "[[AUX_SYSCALLS_STUB]]"

/-- The template up to the first stub. -/
def prologueLines : List Str :=
  ["package wali:linux64@1.0.0;",
    "",
    "/// WALI is a set of functions for perform low-level virtualization of the",
    "/// Linux applications by performing syscall translation. The WALI API is designed to be ",
    "/// as close as possible to the stable Linux syscall interface, requiring minimal work in engine",
    "/// implementations.",
    "/// This interface is designed for 64-bit Linux machines running WASM",
    "world linux \x7b",
    "    import syscalls;",
    "    import aux;",
    "\x7d",
    "",
    "/// Representation of Linux syscall interface types"]

def prologue : Str := Py.join "\n" prologueLines

def aboveSyscalls : Str := "\n/// Raw user-space Linux syscall wrappers"

def aboveAux : Str := "\n/// Auxilary syscalls for WALI"

/-- `wali.wit.template`. -/
def template : Str :=
  prologue ++ '\n' :: (typesStub ++ '\n' :: (aboveSyscalls ++ '\n' :: (syscallsStub ++
    '\n' :: (aboveAux ++ '\n' :: (auxStub ++ ['\n'])))))

/-- The file before arrays are expanded. -/
def WitFile.text (w : WitFile) : Str :=
  let filled := Py.replace template typesStub (Py.join "\n" w.typesLines)
  let filled := Py.replace filled syscallsStub (Py.join "\n" w.syscallsLines)
  Py.replace filled auxStub (Py.join "\n" w.auxLines)

/-- The file with another type in a field of a record. -/
def WitFile.withType (w : WitFile) (j i : ℕ) (t : WitType) : WitFile :=
  { w with records := w.records.modify j fun r =>
      { r with fields := r.fields.modify i fun f => (f.1, t) } }

/-- The text in front of the type of a field, and the text behind. -/
def WitFile.FieldContext (w : WitFile) (j i : ℕ) (pre post : Str) : Prop :=
  ∀ name : Str, (∀ c ∈ name, c ≠ '\n' ∧ c ≠ '_') →
    (w.withType j i (.ident name)).text = pre ++ name ++ post

-- ════════════════════════════════════════════════════════════════════════
-- The template
-- ════════════════════════════════════════════════════════════════════════

theorem newline_not_mem_stubs : '\n' ∉ typesStub ∧ '\n' ∉ syscallsStub ∧ '\n' ∉ auxStub := by decide

theorem bracket_not_mem_prologue : '[' ∉ prologue := by decide +kernel

theorem bracket_not_mem_above : '[' ∉ aboveSyscalls ∧ '[' ∉ aboveAux := by decide

theorem replace_self {old new : Str} (h : old ≠ []) : Py.replace old old new = new := by
  have : Py.replace (old ++ []) old new = new ++ Py.replace [] old new := Py.replace_append_self h []
  rwa [List.append_nil, show Py.replace [] old new = [] from rfl, List.append_nil] at this

/-- The filled template, if no stub goes by accident into the first interface. -/
theorem WitFile.text_eq {w : WitFile} (h : '_' ∉ Py.join "\n" w.typesLines) :
    w.text = prologue ++ '\n' :: (Py.join "\n" w.typesLines ++ '\n' :: (aboveSyscalls ++
      '\n' :: (Py.replace (Py.join "\n" w.syscallsLines) auxStub (Py.join "\n" w.auxLines) ++
        '\n' :: (aboveAux ++ '\n' :: (Py.join "\n" w.auxLines ++ ['\n']))))) := by
  obtain ⟨hn, hn', hn''⟩ := newline_not_mem_stubs
  obtain ⟨hs, ha⟩ := bracket_not_mem_above
  have hp := bracket_not_mem_prologue
  have hnil : ∀ old new : Str, Py.replace [] old new = [] := fun _ _ => rfl
  -- a part of the template stays: it has no bracket, or no letter of the stub
  have hstay : ∀ {a : Str} {new : Str}, '[' ∉ a → Py.replace a typesStub new = a ∧
      Py.replace a syscallsStub new = a ∧ Py.replace a auxStub new = a := fun h =>
    ⟨Py.replace_of_not_mem (by decide) h, Py.replace_of_not_mem (by decide) h,
      Py.replace_of_not_mem (by decide) h⟩
  have hsys : ∀ new, Py.replace syscallsStub typesStub new = syscallsStub := fun new =>
    Py.replace_of_not_mem (c := 'P') (by decide) (by decide)
  have haux : ∀ new, Py.replace auxStub typesStub new = auxStub := fun new =>
    Py.replace_of_not_mem (c := 'P') (by decide) (by decide)
  have haux' : ∀ new, Py.replace auxStub syscallsStub new = auxStub := fun new => rfl
  have htypes : ∀ old new, '_' ∈ old →
      Py.replace (Py.join "\n" w.typesLines) old new = Py.join "\n" w.typesLines :=
    fun old new ho => Py.replace_of_not_mem ho h
  simp only [WitFile.text, template, Py.replace_append_cons (by decide : typesStub ≠ []) hn,
    Py.replace_append_cons (by decide : syscallsStub ≠ []) hn',
    Py.replace_append_cons (by decide : auxStub ≠ []) hn'', hnil, hstay hp, hstay hs, hstay ha,
    replace_self (by decide : typesStub ≠ []), replace_self (by decide : syscallsStub ≠ []),
    replace_self (by decide : auxStub ≠ []), hsys, haux, haux',
    htypes syscallsStub _ (by decide), htypes auxStub _ (by decide)]

-- ════════════════════════════════════════════════════════════════════════
-- Names have no underscores
-- ════════════════════════════════════════════════════════════════════════

theorem mem_witName {p : Primitive} {c : Char} (h : c ∈ p.witName) :
    c ∈ ['s', 'u'] ∨ c ∈ Py.natStr (p.size * 8) := by
  rcases List.mem_cons.mp h with rfl | h
  · left
    split
    · decide
    · decide
  · exact Or.inr h

theorem not_mem_witName {c : Char} (hc : c ∉ ['s', 'u']) (hd : c.isDigit = false) (p : Primitive) :
    c ∉ p.witName := by
  intro h
  rcases mem_witName h with h | h
  · exact hc h
  · exact Py.not_mem_natStr hd _ h

theorem underscore_not_mem_witName (p : Primitive) : '_' ∉ p.witName :=
  not_mem_witName (by decide) (by decide) p

theorem underscore_not_mem_ptrName (t : Str) : '_' ∉ ptrName t := by
  rw [ptrName, List.mem_append, not_or]
  exact ⟨not_mem_ptrs (by decide) _, (blank_not_mem_toWit _).2⟩

theorem WitType.text_array (count : ℕ) (elem : WitType) : (WitType.array count elem).text =
    "Array[" ++ Py.natStr count ++ ", " ++ elem.text ++ "]" := rfl

theorem WitType.underscore_not_mem_text {t : WitType} (h : '_' ∉ t.name) : '_' ∉ t.text := by
  induction t with
  | ident name => exact h
  | array count elem ih =>
    have hcount : '_' ∉ Py.natStr count := Py.not_mem_natStr (by decide) count
    have helem := ih h
    simp only [WitType.text_array, List.mem_append, not_or]
    exact ⟨⟨⟨⟨by decide, hcount⟩, by decide⟩, helem⟩, by decide⟩

variable {R : TypeRegistry}

theorem underscore_not_mem_fieldTypeToWitIn {n : ℕ} {typeName : Str} {t : WitType}
    (h : fieldTypeToWitIn R n typeName = .ok t) : '_' ∉ t.name := by
  induction n generalizing typeName t with
  | zero => cases h
  | succ n ih =>
    rw [fieldTypeToWitIn] at h
    have hnamed : '_' ∉ toWit typeName := (blank_not_mem_toWit typeName).2
    split at h
    · obtain rfl := Except.ok.inj h
      exact underscore_not_mem_ptrName typeName
    split at h
    · exact Except.ok.inj h ▸ hnamed
    split at h
    · exact Except.ok.inj h ▸ hnamed
    split at h
    · exact Except.ok.inj h ▸ hnamed
    split at h
    · obtain rfl := Except.ok.inj h
      change '_' ∉ (if isStdint typeName = true then _ else _)
      split
      · exact underscore_not_mem_witName _
      · exact hnamed
    · split at h
      · obtain ⟨elem, helem, rfl⟩ := Py.map_eq_ok_iff.mp h
        have hname := ih helem
        exact hname
      · cases h

theorem underscore_not_mem_aliasTarget (target : Str) : '_' ∉ aliasTarget R target := by
  unfold aliasTarget
  split
  · split
    · exact underscore_not_mem_witName _
    · exact (blank_not_mem_toWit target).2
  · exact (blank_not_mem_toWit target).2

theorem underscore_not_mem_types {types : Dict Str WitType} (h : buildWitCompTypes R = .ok types)
    {name : Str} {t : WitType} (he : (name, t) ∈ types.entries) : '_' ∉ name ∧ '_' ∉ t.name := by
  obtain ⟨es, hes, rfl⟩ := Py.map_eq_ok_iff.mp h
  have hmem := Dict.mem_of_get?_ofList (Dict.get?_eq_some_iff.mpr he)
  rcases compEntries_cases hes hmem with ⟨k, p, _, hk⟩ | ⟨k, u, _, hk⟩ | ⟨k, n, elem, p, _, hk⟩
  all_goals
    obtain ⟨rfl, rfl⟩ := Prod.mk.inj hk
    refine ⟨(blank_not_mem_toWit _).2, ?_⟩
  · exact underscore_not_mem_witName p
  · exact underscore_not_mem_aliasTarget u
  · exact underscore_not_mem_witName p

theorem underscore_not_mem_typeLine {name value : Str} (hn : '_' ∉ name) (hv : '_' ∉ value) :
    '_' ∉ typeLine name value := by
  have hline : typeLine name value = "\ttype " ++ name ++ " = " ++ value ++ ";" := rfl
  simp only [hline, List.mem_append, not_or]
  exact ⟨⟨⟨⟨by decide, hn⟩, by decide⟩, hv⟩, by decide⟩

/-- The first interface has none. -/
theorem underscore_not_mem_typesLines {w : WitFile} (h : buildWitCompTypes R = .ok w.types) :
    '_' ∉ Py.join "\n" w.typesLines := by
  have hlines : ∀ line ∈ w.typesLines, '_' ∉ line := by
    intro line hline
    rcases List.mem_append.mp hline with hline | hline
    · rcases List.mem_cons.mp hline with he | hline
      · rw [he]
        decide
      · obtain ⟨⟨name, t⟩, he, rfl⟩ := List.mem_map.mp hline
        obtain ⟨hname, ht⟩ := underscore_not_mem_types h he
        exact underscore_not_mem_typeLine hname (WitType.underscore_not_mem_text ht)
    · rw [List.mem_singleton.mp hline]
      decide
  intro hmem
  rcases Py.mem_join hmem with hc | ⟨line, hline, hc⟩
  · exact absurd hc (by decide)
  · exact hlines line hline hc

-- ════════════════════════════════════════════════════════════════════════
-- One field
-- ════════════════════════════════════════════════════════════════════════

theorem modify_append_cons {α : Type} (f : α → α) (l : List α) (x : α) (l' : List α) :
    (l ++ x :: l').modify l.length f = l ++ f x :: l' := by
  induction l with
  | nil => rfl
  | cons y l ih => simp [ih]

/-- The comma after a field that is followed by others. -/
def commaFor : List (Str × WitType) → Str
  | [] => []
  | _ :: _ => [',']

/-- What the line after a field starts with. -/
def nextStart : List (Str × WitType) → Str
  | [] => ['}']
  | f :: _ => [' ', ' '] ++ f.1 ++ [':']

theorem afterBreaks_commaFor (fs : List (Str × WitType)) :
    Py.afterBreaks ['\t'] (commaFor fs) = commaFor fs := by
  cases fs with
  | nil => rfl
  | cons f fs => rfl

/-- The line of a field depends on the other fields by their number only. -/
def lineOf (len i : ℕ) (f : Str × WitType) : Str :=
  [' ', ' '] ++ f.1 ++ [':', ' '] ++ f.2.text ++ if i + 1 < len then [','] else []

theorem lines_eq (r : WitRecord) : r.lines =
    ("record " ++ r.name ++ " \x7b") :: r.fields.mapIdx (lineOf r.fields.length) ++
      [['}'], []] := rfl

/-- The lines of a record, whatever type one of its fields has. -/
theorem lines_append_cons (name : Str) (fs : List (Str × WitType)) (id : Str)
    (fs' : List (Str × WitType)) : ∃ before next after, ∀ t,
      WitRecord.lines ⟨name, fs ++ (id, t) :: fs'⟩ =
        before ++ ([' ', ' '] ++ id ++ [':', ' '] ++ t.text ++ commaFor fs') ::
          (nextStart fs' ++ next) :: after := by
  have hlen : ∀ t, (fs ++ (id, t) :: fs').length = fs.length + (fs'.length + 1) := by simp
  cases fs' with
  | nil =>
    refine ⟨("record " ++ name ++ " \x7b") :: fs.mapIdx (lineOf (fs.length + 1)), [], [[]], ?_⟩
    intro t
    simp only [lines_eq, hlen, List.mapIdx_append, List.mapIdx_cons, List.mapIdx_nil]
    simp [lineOf, commaFor, nextStart]
  | cons g gs =>
    refine ⟨("record " ++ name ++ " \x7b") :: fs.mapIdx (lineOf (fs.length + (gs.length + 2))),
      [' '] ++ g.2.text ++ (if 0 < gs.length then [','] else []),
      gs.mapIdx (fun i => lineOf (fs.length + (gs.length + 2)) (i + 1 + 1 + fs.length)) ++
        [['}'], []], ?_⟩
    intro t
    have hlast : 1 + fs.length + 1 < fs.length + (gs.length + 1 + 1) ↔ 0 < gs.length := by omega
    simp only [lines_eq, hlen, List.mapIdx_append, List.mapIdx_cons]
    simp [lineOf, commaFor, nextStart, hlast]

/-- The records, whatever type a field has. -/
theorem recordContent_append_cons (rs rs' : List WitRecord) (name id : Str)
    (fs fs' : List (Str × WitType)) : ∃ A B, ∀ t,
      recordContent (rs ++ ⟨name, fs ++ (id, t) :: fs'⟩ :: rs') =
        A ++ ([':', ' '] ++ (t.text ++ (commaFor fs' ++ '\n' :: (nextStart fs' ++ B)))) := by
  obtain ⟨before, next, after, hlines⟩ := lines_append_cons name fs id fs'
  refine ⟨(rs.flatMap WitRecord.lines ++ before).flatMap (fun l => l ++ ("\n" : Str)) ++ ([' ', ' '] ++ id),
    next ++ (after ++ rs'.flatMap WitRecord.lines).flatMap (fun l => ("\n" : Str) ++ l), fun t => ?_⟩
  have hall : (rs ++ ⟨name, fs ++ (id, t) :: fs'⟩ :: rs').flatMap WitRecord.lines =
      (rs.flatMap WitRecord.lines ++ before) ++
        ([' ', ' '] ++ id ++ [':', ' '] ++ t.text ++ commaFor fs') ::
          ((nextStart fs' ++ next) :: (after ++ rs'.flatMap WitRecord.lines)) := by
    rw [List.flatMap_append, List.flatMap_cons, hlines]
    simp only [List.append_assoc, List.cons_append]
  rw [recordContent, hall, Py.join_append_cons, List.flatMap_cons]
  simp only [List.append_assoc]
  rfl

/-- The lines of the second interface in front of the records. -/
def WitFile.aboveRecords (w : WitFile) : List Str :=
  let uses : List Str := [useLine "types" w.types.keys, "\t/// Readable pointer types"]
  let header : List Str := ["", "\t/// Record types"]
  ("interface " ++ "syscalls" ++ " \x7b") :: (uses ++ w.ptrTypes.map (typeLine · "ptr") ++ header)

/-- The lines behind them. -/
def WitFile.belowRecords (w : WitFile) : List Str :=
  let header : List Str := ["", "\t/// Syscall methods"]
  header ++ (w.syscallFuncs.map WitFunc.text ++ [("\x7d" : Str)])

/-- Only one line of the second interface depends on the records. -/
theorem syscallsLines_eq (w : WitFile) (recs : List WitRecord) :
    ({ w with records := recs } : WitFile).syscallsLines = w.aboveRecords ++
      ("\t" ++ Py.join "\n\t" ((recordContent recs).splitOn '\n')) :: w.belowRecords := by
  let uses : List Str := [useLine "types" w.types.keys, "\t/// Readable pointer types"]
  let recordsAbove : List Str := ["", "\t/// Record types"]
  let recordsBelow : List Str := ["", "\t/// Syscall methods"]
  change _ :: (uses ++ w.ptrTypes.map (typeLine · "ptr") ++ (recordsAbove ++ _ :: recordsBelow) ++
    w.syscallFuncs.map WitFunc.text) ++ [("\x7d" : Str)] =
    (_ :: (uses ++ w.ptrTypes.map (typeLine · "ptr") ++ recordsAbove)) ++
      _ :: (recordsBelow ++ (w.syscallFuncs.map WitFunc.text ++ [("\x7d" : Str)]))
  simp only [List.append_assoc, List.cons_append]

/-- The text of the second interface, whatever type a field has. -/
theorem syscallsText_withType {w : WitFile} {rs rs' : List WitRecord} {name id : Str}
    {fs fs' : List (Str × WitType)} {t₀ : WitType}
    (h : w.records = rs ++ ⟨name, fs ++ (id, t₀) :: fs'⟩ :: rs') : ∃ X Y, ∀ t,
      Py.join "\n" (w.withType rs.length fs.length t).syscallsLines =
        X ++ ([':', ' '] ++ (Py.afterBreaks ['\t'] t.text ++ (commaFor fs' ++
          '\n' :: '\t' :: (Py.afterBreaks ['\t'] (nextStart fs') ++ Y)))) := by
  obtain ⟨A, B, hcontent⟩ := recordContent_append_cons rs rs' name id fs fs'
  refine ⟨w.aboveRecords.flatMap (fun l => l ++ ("\n" : Str)) ++ (("\t" : Str) ++ Py.afterBreaks ['\t'] A),
    Py.afterBreaks ['\t'] B ++ w.belowRecords.flatMap (fun l => ("\n" : Str) ++ l), fun t => ?_⟩
  have hrecords : w.withType rs.length fs.length t =
      { w with records := rs ++ ⟨name, fs ++ (id, t) :: fs'⟩ :: rs' } := by
    rw [WitFile.withType, h, modify_append_cons, modify_append_cons]
  have hcolon : Py.afterBreaks ['\t'] [':', ' '] = [':', ' '] := rfl
  rw [hrecords, syscallsLines_eq, Py.join_append_cons, hcontent]
  change _ ++ (("\t" : Str) ++ Py.join ('\n' :: ['\t']) _) ++ _ = _
  rw [Py.join_splitOn, Py.afterBreaks_append, Py.afterBreaks_append, Py.afterBreaks_append,
    Py.afterBreaks_append, Py.afterBreaks_newline, Py.afterBreaks_append, hcolon, afterBreaks_commaFor]
  simp only [List.append_assoc, List.cons_append]

/-- The start of the next line ends in a separator. -/
theorem nextStart_eq (fs : List (Str × WitType)) (h : ∀ f ∈ fs, '_' ∉ f.1) :
    ∃ a c, Py.afterBreaks ['\t'] (nextStart fs) = a ++ [c] ∧ '_' ∉ a ∧ c ∉ auxStub := by
  cases fs with
  | nil => exact ⟨[], '}', rfl, List.not_mem_nil, by decide⟩
  | cons f fs =>
    refine ⟨Py.afterBreaks ['\t'] ([' ', ' '] ++ f.1), ':', Py.afterBreaks_append .., ?_, by decide⟩
    intro hmem
    rcases Py.mem_afterBreaks hmem with hmem | hmem
    · exact absurd hmem (by decide)
    · rcases List.mem_append.mp hmem with hmem | hmem
      · exact absurd hmem (by decide)
      · exact h f List.mem_cons_self hmem

theorem underscore_not_mem_commaFor (fs : List (Str × WitType)) : '_' ∉ commaFor fs := by
  cases fs with
  | nil => exact List.not_mem_nil
  | cons f fs => exact (by decide : '_' ∉ [','])

/-- The text of the file, whatever type a field has: what is written for the type is between a
colon and the start of the next line. -/
theorem text_withType {w : WitFile} {rs rs' : List WitRecord} {name id : Str}
    {fs fs' : List (Str × WitType)} {t₀ : WitType} (hc : buildWitCompTypes R = .ok w.types)
    (h : w.records = rs ++ ⟨name, fs ++ (id, t₀) :: fs'⟩ :: rs') (hfs : ∀ f ∈ fs', '_' ∉ f.1) :
    ∃ X Y, ∀ t : WitType, '_' ∉ t.text → (w.withType rs.length fs.length t).text =
      X ++ [':', ' '] ++ Py.afterBreaks ['\t'] t.text ++ (commaFor fs' ++
        '\n' :: '\t' :: (Py.afterBreaks ['\t'] (nextStart fs') ++ Y)) := by
  obtain ⟨X, Y, hsys⟩ := syscallsText_withType h
  obtain ⟨next, sep, hnext, hnext', hsep⟩ := nextStart_eq fs' hfs
  have hne : auxStub ≠ [] := by decide
  have hstay : ∀ {a new : Str}, '_' ∉ a → Py.replace a auxStub new = a := fun ha =>
    Py.replace_of_not_mem (by decide) ha
  let aux := Py.join "\n" w.auxLines
  let types := Py.join "\n" w.typesLines
  refine ⟨prologue ++ '\n' :: (types ++ '\n' :: (aboveSyscalls ++ '\n' :: Py.replace X auxStub aux)),
    Py.replace Y auxStub aux ++ '\n' :: (aboveAux ++ '\n' :: (aux ++ ['\n'])), fun t ht => ?_⟩
  have htext : '_' ∉ Py.afterBreaks ['\t'] t.text ++ commaFor fs' := by
    rw [List.mem_append, not_or]
    refine ⟨fun hmem => ?_, underscore_not_mem_commaFor fs'⟩
    rcases Py.mem_afterBreaks hmem with hmem | hmem
    · exact absurd hmem (by decide)
    · exact ht hmem
  -- the separators are not in the stub, and between them nothing looks like it
  have hreplace : Py.replace (Py.join "\n" (w.withType rs.length fs.length t).syscallsLines) auxStub aux =
      Py.replace X auxStub aux ++ ':' :: ' ' :: ((Py.afterBreaks ['\t'] t.text ++ commaFor fs') ++
        '\n' :: '\t' :: (next ++ sep :: Py.replace Y auxStub aux)) := by
    have hcons : ∀ {c : Char}, c ∉ auxStub → ∀ b, Py.replace (c :: b) auxStub aux =
        c :: Py.replace b auxStub aux := fun hc b => Py.replace_append_cons (a := []) hne hc
    rw [hsys, hnext, List.cons_append, List.singleton_append,
      ← List.append_assoc (Py.afterBreaks ['\t'] t.text), List.append_assoc next [sep],
      List.singleton_append, Py.replace_append_cons hne (by decide), hcons (by decide),
      Py.replace_append_cons hne (by decide), hcons (by decide), Py.replace_append_cons hne hsep,
      hstay htext, hstay hnext']
  have htypes : '_' ∉ Py.join "\n" (w.withType rs.length fs.length t).typesLines :=
    underscore_not_mem_typesLines hc
  rw [WitFile.text_eq htypes]
  change prologue ++ '\n' :: (types ++ '\n' :: (aboveSyscalls ++ '\n' :: (Py.replace _ auxStub aux ++
    '\n' :: (aboveAux ++ '\n' :: (aux ++ ['\n']))))) = _
  rw [hreplace, hnext]
  simp only [List.append_assoc, List.cons_append, List.nil_append]

theorem WitFile.withType_self {w : WitFile} {rs rs' : List WitRecord} {name id : Str}
    {fs fs' : List (Str × WitType)} {t : WitType}
    (h : w.records = rs ++ ⟨name, fs ++ (id, t) :: fs'⟩ :: rs') : w.withType rs.length fs.length t = w := by
  rw [WitFile.withType, h, modify_append_cons, modify_append_cons, ← h]

/-- A field has one text in front of it, and one behind. -/
theorem WitFile.FieldContext.unique {w : WitFile} {j i : ℕ} {pre pre' post post' : Str}
    (h : w.FieldContext j i pre post) (h' : w.FieldContext j i pre' post') :
    pre = pre' ∧ post = post' := by
  have hletter : ∀ c, c ≠ '\n' ∧ c ≠ '_' → pre ++ c :: post = pre' ++ c :: post' := by
    intro c hc
    have hname : ∀ d ∈ [c], d ≠ '\n' ∧ d ≠ '_' := by
      rintro d hd
      rwa [List.mem_singleton.mp hd]
    simpa using (h [c] hname).symm.trans (h' [c] hname)
  -- if one were longer, its next letter would be both
  have ha := hletter 'a' (by decide)
  have hb := hletter 'b' (by decide)
  rcases List.append_eq_append_iff.mp ha with ⟨z, rfl, hz⟩ | ⟨z, rfl, hz⟩
  · rw [List.append_assoc] at hb
    have hb := List.append_cancel_left hb
    cases z with
    | nil => exact ⟨(List.append_nil pre).symm, (List.cons.inj hz).2⟩
    | cons d z => exact absurd ((List.cons.inj hz).1.trans (List.cons.inj hb).1.symm) (by decide)
  · rw [List.append_assoc] at hb
    have hb := List.append_cancel_left hb
    cases z with
    | nil => exact ⟨List.append_nil pre', (List.cons.inj hz).2.symm⟩
    | cons d z => exact absurd ((List.cons.inj hz).1.trans (List.cons.inj hb).1) (by decide)

theorem exists_append_cons {α : Type} {l : List α} {i : ℕ} {x : α} (h : l[i]? = some x) :
    ∃ a b, l = a ++ x :: b ∧ a.length = i := by
  obtain ⟨hi, rfl⟩ := List.getElem?_eq_some_iff.mp h
  refine ⟨l.take i, l.drop (i + 1), ?_, List.length_take_of_le hi.le⟩
  rw [← List.drop_eq_getElem_cons hi, List.take_append_drop]

/-- Where a field of a struct is in the file. -/
theorem exists_field {scs : List Syscall} {auxs : List AuxSyscall} {w : WitFile} {j i : ℕ}
    {sd : StructDef} {f : StructField} (h : generate R scs auxs = .ok w)
    (hsd : R.structDefs.values[j]? = some sd) (hf : sd.fields[i]? = some f) :
    buildWitCompTypes R = .ok w.types ∧ ∃ rs rs' fs fs' t, rs.length = j ∧ fs.length = i ∧
      w.records = rs ++ ⟨toWit sd.name, fs ++ (toWit f.name, t) :: fs'⟩ :: rs' ∧
      fieldTypeToWit R f.typeName = .ok t ∧
      fs'.map Prod.fst = (sd.fields.drop (i + 1)).map fun g => toWit g.name := by
  obtain ⟨types, recs, hc, hr, rfl⟩ := generate_eq_ok_iff.mp h
  refine ⟨hc, ?_⟩
  obtain ⟨r, hrec, hr'⟩ := Py.mapM_ok_getElem? hr hsd
  obtain ⟨fields, hfields, rfl⟩ := Py.map_eq_ok_iff.mp hr'
  obtain ⟨e, he, hfield⟩ := Py.mapM_ok_getElem? hfields hf
  obtain ⟨t, ht, rfl⟩ := Py.map_eq_ok_iff.mp hfield
  obtain ⟨rs, rs', hrs, hj⟩ := exists_append_cons hrec
  obtain ⟨fs, fs', hfs, rfl⟩ := exists_append_cons he
  refine ⟨rs, rs', fs, fs', t, hj, rfl, by rw [hrs, hfs], ht, ?_⟩
  have hnames : fields.map Prod.fst = sd.fields.map fun g => toWit g.name := by
    refine Py.mapM_ok_map (fun g y hy => ?_) hfields
    obtain ⟨_, _, rfl⟩ := Py.map_eq_ok_iff.mp hy
    rfl
  have hdrop := congrArg (List.drop (fs.length + 1)) hnames
  rw [hfs, ← List.map_drop] at hdrop
  simpa using hdrop

end Wali.Wit
