import Wali.Py.Error

/-!
# `str.format`

A template is read from left to right. Two equal braces stand for one; any other opening brace
starts a replacement field. The name of a field is looked up among the keyword arguments. What
comes after the name (attributes, items, a conversion, a format spec) is left to the arguments.

A template that is put together from texts does what it is meant to do when no brace is in the
texts, and only then: `format_source` and `isBrace_of_format`.
-/

namespace Py

inductive FormatError where
  /-- A brace that is neither doubled nor part of a field. -/
  | single (brace : Char)
  | braceInName
  /-- The template ends in a field. -/
  | unclosed
  /-- A conversion is followed by neither a format spec nor the end of the field. -/
  | afterConversion
  /-- There is no such argument: a `KeyError`, or an `IndexError` if the name is a number or empty. -/
  | missing (key : Str)
  /-- What an argument raises. -/
  | raised (message : Str)
  deriving DecidableEq, Repr

namespace Format

structure Args where
  kwargs : List (Str × Str)
  /-- What a field with more than a name in it is replaced by. -/
  extended : (key rest : Str) → Except FormatError Str

/-- Where in a field. -/
inductive Scan where
  | name
  /-- In brackets, where braces have no meaning. -/
  | item
  | conversion
  | converted
  | spec (depth : ℕ)

/-- One more character of a field, or its end. -/
def Scan.next : Scan → Char → Except FormatError (Option Scan)
  | .name, c =>
    if c = '{' then .error .braceInName
    else if c = '}' then .ok none
    else if c = '[' then .ok (some .item)
    else if c = '!' then .ok (some .conversion)
    else if c = ':' then .ok (some (.spec 0))
    else .ok (some .name)
  | .item, c => .ok (some (if c = ']' then .name else .item))
  | .conversion, _ => .ok (some .converted)
  | .converted, c =>
    if c = '}' then .ok none
    else if c = ':' then .ok (some (.spec 0))
    else .error .afterConversion
  | .spec depth, c =>
    if c = '{' then .ok (some (.spec (depth + 1)))
    else if c = '}' then .ok (if depth = 0 then none else some (.spec (depth - 1)))
    else .ok (some (.spec depth))

def endsName (c : Char) : Bool := c == '.' || c == '[' || c == '!' || c == ':'

/-- The name at the start of a field. -/
def fieldName (read : Str) : Str := read.takeWhile fun c => !endsName c

/-- What a field is replaced by. -/
def Args.field (args : Args) (read : Str) : Except FormatError Str :=
  match args.kwargs.lookup (fieldName read) with
  | none => .error (.missing (fieldName read))
  | some value =>
    if read = fieldName read then .ok value
    else args.extended (fieldName read) (read.drop (fieldName read).length)

inductive State where
  | text
  /-- After an opening brace. -/
  | opened
  /-- After a closing brace. -/
  | closed
  | field (read : Str) (scan : Scan)

def fieldStep (args : Args) (read : Str) (scan : Scan) (c : Char) : Except FormatError (Str × State) :=
  scan.next c >>= fun
    | none => (args.field read).map (·, .text)
    | some scan => .ok ([], .field (read ++ [c]) scan)

/-- What one character of the template adds to the result. -/
def step (args : Args) : State → Char → Except FormatError (Str × State)
  | .text, c =>
    if c = '{' then .ok ([], .opened)
    else if c = '}' then .ok ([], .closed)
    else .ok ([c], .text)
  | .opened, c => if c = '{' then .ok ([c], .text) else fieldStep args [] .name c
  | .closed, c => if c = '}' then .ok ([c], .text) else .error (.single '}')
  | .field read scan, c => fieldStep args read scan c

def State.atEnd : State → Except FormatError Str
  | .text => .ok []
  | .opened => .error (.single '{')
  | .closed => .error (.single '}')
  | .field _ _ => .error .unclosed

def formatFrom (args : Args) : State → Str → Except FormatError Str
  | st, [] => st.atEnd
  | st, c :: s => step args st c >>= fun r => (formatFrom args r.2 s).map (r.1 ++ ·)

end Format

/-- `s.format(**kwargs)`. -/
def format (args : Format.Args) (s : Str) : Except FormatError Str := Format.formatFrom args .text s

namespace Format

def isBrace (c : Char) : Bool := c == '{' || c == '}'

/-- A part of a template as it is meant: a character, or an argument with a character in front of it. -/
inductive Mark where
  | chr (c : Char)
  | slot (before : Char) (key value : Str)

def Mark.source : Mark → Str
  | .chr c => [c]
  | .slot c key _ => c :: '{' :: key ++ ['}']

def Mark.result : Mark → Str
  | .chr c => [c]
  | .slot c _ value => c :: value

/-- The template. -/
def source (ms : List Mark) : Str := ms.flatMap Mark.source

/-- What it is meant to become. -/
def result (ms : List Mark) : Str := ms.flatMap Mark.result

def chars (s : Str) : List Mark := s.map .chr

/-- A name with nothing in it that `format` would stop at. -/
structure IsKey (key : Str) : Prop where
  ne_nil : key ≠ []
  plain : ∀ c ∈ key, (isBrace c || endsName c || c == ']') = false

/-- The arguments are there. -/
def Mark.Provided (args : Args) : Mark → Prop
  | .chr _ => True
  | .slot c key value => isBrace c = false ∧ IsKey key ∧ args.kwargs.lookup key = some value

/-- No field is replaced by a text that has a field of that name in it. -/
def Args.Inert (args : Args) : Prop :=
  ∀ read out, args.field read = .ok out → ¬ ('{' :: fieldName read) <:+: out

variable {args : Args}

-- ════════════════════════════════════════════════════════════════════════
-- Steps
-- ════════════════════════════════════════════════════════════════════════

theorem isBrace_eq_false {c : Char} : isBrace c = false ↔ c ≠ '{' ∧ c ≠ '}' := by
  rw [isBrace, Bool.or_eq_false_iff, beq_eq_false_iff_ne, beq_eq_false_iff_ne]

theorem formatFrom_cons_eq_ok {st : State} {c : Char} {s out : Str} :
    formatFrom args st (c :: s) = .ok out ↔
      ∃ now st' later, step args st c = .ok (now, st') ∧ formatFrom args st' s = .ok later ∧
        now ++ later = out := by
  rw [formatFrom, bind_eq_ok_iff]
  constructor
  · rintro ⟨⟨now, st'⟩, hstep, hlater⟩
    obtain ⟨later, hlater, hout⟩ := map_eq_ok_iff.mp hlater
    exact ⟨now, st', later, hstep, hlater, hout⟩
  · rintro ⟨now, st', later, hstep, hlater, hout⟩
    exact ⟨(now, st'), hstep, map_eq_ok_iff.mpr ⟨later, hlater, hout⟩⟩

theorem formatFrom_of_step {st st' : State} {c : Char} (h : step args st c = .ok ([], st')) (s : Str) :
    formatFrom args st (c :: s) = formatFrom args st' s := by
  have hmap : ∀ r : Except FormatError Str, r.map (([] : Str) ++ ·) = r := by
    intro r
    cases r with
    | error e => rfl
    | ok out => rfl
  rw [formatFrom, h]
  exact hmap _

theorem step_text {c : Char} (hc : isBrace c = false) : step args .text c = .ok ([c], .text) := by
  obtain ⟨hopen, hclose⟩ := isBrace_eq_false.mp hc
  rw [step, if_neg hopen, if_neg hclose]

theorem fieldStep_of_next {scan scan' : Scan} {c : Char} (h : scan.next c = .ok (some scan')) (read : Str) :
    fieldStep args read scan c = .ok ([], .field (read ++ [c]) scan') := by
  rw [fieldStep, h]
  rfl

-- ════════════════════════════════════════════════════════════════════════
-- Names
-- ════════════════════════════════════════════════════════════════════════

/-- The characters of a name, one by one. -/
structure NameChar (c : Char) : Prop where
  ne_open : c ≠ '{'
  ne_close : c ≠ '}'
  endsName : endsName c = false
  ne_bracket : c ≠ ']'

theorem IsKey.nameChar {key : Str} (hkey : IsKey key) {c : Char} (hc : c ∈ key) : NameChar c := by
  have hplain := hkey.plain c hc
  rw [Bool.or_eq_false_iff, Bool.or_eq_false_iff, beq_eq_false_iff_ne] at hplain
  obtain ⟨⟨hbrace, hends⟩, hbracket⟩ := hplain
  exact ⟨(isBrace_eq_false.mp hbrace).1, (isBrace_eq_false.mp hbrace).2, hends, hbracket⟩

theorem NameChar.ne_of_endsName {c d : Char} (hc : NameChar c) (hd : Format.endsName d = true) : c ≠ d := by
  rintro rfl
  rw [hc.endsName] at hd
  cases hd

/-- In a name, in an item and in a format spec, a name is read over. -/
theorem NameChar.next {c : Char} (hc : NameChar c) {scan : Scan} (hconv : scan ≠ .conversion)
    (hconverted : scan ≠ .converted) : scan.next c = .ok (some scan) := by
  cases scan with
  | name =>
    rw [Scan.next, if_neg hc.ne_open, if_neg hc.ne_close, if_neg (hc.ne_of_endsName rfl),
      if_neg (hc.ne_of_endsName rfl), if_neg (hc.ne_of_endsName rfl)]
  | item => rw [Scan.next, if_neg hc.ne_bracket]
  | conversion => exact absurd rfl hconv
  | converted => exact absurd rfl hconverted
  | spec depth => rw [Scan.next, if_neg hc.ne_open, if_neg hc.ne_close]

theorem formatFrom_name {key : Str} (hkey : ∀ c ∈ key, NameChar c) {scan : Scan}
    (hconv : scan ≠ .conversion) (hconverted : scan ≠ .converted) (read s : Str) :
    formatFrom args (.field read scan) (key ++ s) = formatFrom args (.field (read ++ key) scan) s := by
  induction key generalizing read with
  | nil => rw [List.nil_append, List.append_nil]
  | cons c key ih =>
    rw [List.forall_mem_cons] at hkey
    have hstep : step args (.field read scan) c = .ok ([], .field (read ++ [c]) scan) :=
      fieldStep_of_next (hkey.1.next hconv hconverted) read
    rw [List.cons_append, formatFrom_of_step hstep, ih hkey.2, List.append_assoc, List.singleton_append]

theorem fieldName_of_isKey {key : Str} (hkey : IsKey key) : fieldName key = key := by
  refine List.takeWhile_eq_self_iff.mpr fun c hc => ?_
  rw [(hkey.nameChar hc).endsName]
  rfl

/-- A field that is only a name. -/
theorem formatFrom_slot {key value : Str} (hkey : IsKey key) (hvalue : args.kwargs.lookup key = some value)
    (s : Str) :
    formatFrom args .text ('{' :: key ++ '}' :: s) = (formatFrom args .text s).map (value ++ ·) := by
  obtain ⟨c, cs, rfl⟩ := List.exists_cons_of_ne_nil hkey.ne_nil
  have hname : ∀ d ∈ c :: cs, NameChar d := fun d hd => hkey.nameChar hd
  rw [List.forall_mem_cons] at hname
  have hopen : step args .text '{' = .ok ([], .opened) := rfl
  have hfirst : step args .opened c = .ok ([], .field [c] .name) := by
    rw [step, if_neg hname.1.ne_open]
    exact fieldStep_of_next (hname.1.next (by simp) (by simp)) []
  have hfield : args.field (c :: cs) = .ok value := by
    rw [Args.field, fieldName_of_isKey hkey, hvalue]
    exact if_pos rfl
  have hlast : step args (.field (c :: cs) .name) '}' = .ok (value, .text) := by
    change (args.field (c :: cs)).map (·, State.text) = _
    rw [hfield]
    rfl
  rw [List.cons_append, List.cons_append, formatFrom_of_step hopen, formatFrom_of_step hfirst,
    formatFrom_name hname.2 (by simp) (by simp), List.singleton_append, formatFrom, hlast]
  rfl

-- ════════════════════════════════════════════════════════════════════════
-- Templates without stray braces
-- ════════════════════════════════════════════════════════════════════════

theorem formatFrom_char {c : Char} (hc : isBrace c = false) (s : Str) :
    formatFrom args .text (c :: s) = (formatFrom args .text s).map (c :: ·) := by
  rw [formatFrom, step_text hc]
  rfl

theorem source_append (ms ms' : List Mark) : source (ms ++ ms') = source ms ++ source ms' :=
  List.flatMap_append

theorem result_append (ms ms' : List Mark) : result (ms ++ ms') = result ms ++ result ms' :=
  List.flatMap_append

theorem source_chars (s : Str) : source (chars s) = s := by
  rw [source, chars, List.flatMap_map]
  exact List.flatMap_singleton' s

theorem result_chars (s : Str) : result (chars s) = s := by
  rw [result, chars, List.flatMap_map]
  exact List.flatMap_singleton' s

theorem chr_mem_chars {s : Str} {c : Char} : .chr c ∈ chars s ↔ c ∈ s :=
  List.mem_map_of_injective fun _ _ => Mark.chr.inj

theorem source_slot (c : Char) (key value : Str) (ms : List Mark) :
    source (.slot c key value :: ms) = c :: ('{' :: key ++ '}' :: source ms) := by
  simp [source, Mark.source]

theorem result_slot (c : Char) (key value : Str) (ms : List Mark) :
    result (.slot c key value :: ms) = c :: (value ++ result ms) := rfl

/-- Without braces of its own, a template becomes what it is meant to become. -/
theorem format_source {ms : List Mark} (hms : ∀ m ∈ ms, m.Provided args)
    (hplain : ∀ c, .chr c ∈ ms → isBrace c = false) : format args (source ms) = .ok (result ms) := by
  induction ms with
  | nil => rfl
  | cons m ms ih =>
    rw [List.forall_mem_cons] at hms
    have hrest := ih hms.2 fun c hc => hplain c (List.mem_cons_of_mem m hc)
    rw [format] at hrest ⊢
    cases m with
    | chr c =>
      have hc := hplain c List.mem_cons_self
      change formatFrom args .text (c :: source ms) = _
      rw [formatFrom_char hc, hrest]
      rfl
    | slot c key value =>
      obtain ⟨hc, hkey, hvalue⟩ := hms.1
      rw [source_slot, formatFrom_char hc, formatFrom_slot hkey hvalue, hrest]
      rfl

-- ════════════════════════════════════════════════════════════════════════
-- Stray braces
-- ════════════════════════════════════════════════════════════════════════

/-- Two fields have the same name. The second one is the first with other texts in it. -/
def SameName (read shown : Str) : Prop :=
  read = shown ∨ ∃ k, k <+: read ∧ k <+: shown ∧ ∃ d ∈ k, endsName d = true

/-- What is missing in the result at some point of the template: the text `owed` ends in what has
been read of a field. -/
def Owes : State → Str → Prop
  | .text, owed => owed ≠ []
  | .opened, owed => ∃ x, owed = x ++ ['{']
  | .closed, owed => owed ≠ []
  | .field read scan, owed => ∃ x shown, owed = x ++ '{' :: shown ∧ SameName read shown ∧
      (scan ≠ .name → ∃ d ∈ read, endsName d = true)

theorem Owes.ne_nil {st : State} {owed : Str} (h : Owes st owed) : owed ≠ [] := by
  cases st with
  | text => exact h
  | opened =>
    obtain ⟨x, rfl⟩ := h
    simp
  | closed => exact h
  | field read scan =>
    obtain ⟨x, shown, rfl, _⟩ := h
    simp

theorem SameName.append {read shown : Str} (h : SameName read shown) (s : Str) :
    SameName (read ++ s) (shown ++ s) := by
  rcases h with rfl | ⟨k, hread, hshown, hk⟩
  · exact Or.inl rfl
  · exact Or.inr ⟨k, hread.trans (List.prefix_append read s), hshown.trans (List.prefix_append shown s), hk⟩

/-- After the name, different texts may follow. -/
theorem SameName.append_append {read shown : Str} (h : SameName read shown)
    (hends : ∃ d ∈ read, endsName d = true) (s t : Str) : SameName (read ++ s) (shown ++ t) := by
  rcases h with rfl | ⟨k, hread, hshown, hk⟩
  · exact Or.inr ⟨read, List.prefix_append read s, List.prefix_append read t, hends⟩
  · exact Or.inr ⟨k, hread.trans (List.prefix_append read s), hshown.trans (List.prefix_append shown t), hk⟩

theorem SameName.fieldName_prefix {read shown : Str} (h : SameName read shown) :
    fieldName read <+: shown := by
  rcases h with rfl | ⟨k, ⟨s, rfl⟩, hshown, d, hd, hends⟩
  · exact List.takeWhile_prefix _
  · have hname : fieldName (k ++ s) = k.takeWhile fun c => !endsName c := by
      rw [fieldName, List.takeWhile_append, if_neg]
      intro hlen
      have hall := List.takeWhile_eq_self_iff.mp ((List.takeWhile_prefix _).eq_of_length hlen)
      exact absurd (hall d hd) (by rw [hends]; simp)
    rw [hname]
    exact (List.takeWhile_prefix _).trans hshown

/-- A text that does not fit into the output leaves something owed. -/
theorem owed_of_not_prefix {a t now later : Str} (h : a ++ t <+: now ++ later) (hna : ¬ a <+: now) :
    ∃ owed, owed ≠ [] ∧ owed ++ t <+: later := by
  have ha : a <+: now ++ later := (List.prefix_append a t).trans h
  rcases List.prefix_or_prefix_of_prefix ha (List.prefix_append now later) with hp | ⟨owed, rfl⟩
  · exact absurd hp hna
  · refine ⟨owed, ?_, ?_⟩
    · rintro rfl
      exact hna (by rw [List.append_nil])
    · rw [List.append_assoc] at h
      exact (List.prefix_append_right_inj now).mp h

theorem not_prefix_singleton {owed : Str} (h : owed ≠ []) (c d : Char) : ¬ owed ++ [c] <+: [d] := by
  intro hp
  have hlen := hp.length_le
  have hpos := List.length_pos_of_ne_nil h
  rw [List.length_append, List.length_singleton, List.length_singleton] at hlen
  omega

/-- What ends the name of a field. -/
theorem Scan.endsName_of_next {scan : Scan} {c : Char} (h : Scan.name.next c = .ok (some scan))
    (hscan : scan ≠ .name) : endsName c = true := by
  by_contra hc
  have hne : ∀ d, endsName d = true → c ≠ d := fun d hd he => hc (he ▸ hd)
  rw [Scan.next, if_neg (hne '[' rfl), if_neg (hne '!' rfl), if_neg (hne ':' rfl)] at h
  split_ifs at h
  · cases h
  · exact hscan (Option.some.inj (Except.ok.inj h)).symm

/-- One more character of a field: at its end, the field itself is owed. -/
theorem owes_fieldStep (hinert : args.Inert) {read shown x t now later : Str} {scan : Scan} {c : Char}
    {st : State} (hsame : SameName read shown) (hends : scan ≠ .name → ∃ d ∈ read, endsName d = true)
    (hstep : fieldStep args read scan c = .ok (now, st))
    (h : (x ++ '{' :: shown) ++ c :: t <+: now ++ later) :
    ∃ owed, Owes st owed ∧ owed ++ t <+: later := by
  have hcons : (x ++ '{' :: shown) ++ c :: t = (x ++ '{' :: (shown ++ [c])) ++ t := by simp
  rw [hcons] at h
  obtain ⟨next, hnext, hst⟩ := bind_eq_ok_iff.mp hstep
  cases next with
  | none =>
    obtain ⟨out, hout, he⟩ := map_eq_ok_iff.mp hst
    cases he
    refine owed_of_not_prefix h fun hp => hinert read now hout ?_
    -- the output would have the field itself in it
    have hname : '{' :: fieldName read <+: '{' :: (shown ++ [c]) :=
      List.cons_prefix_cons.mpr ⟨rfl, hsame.fieldName_prefix.trans (List.prefix_append shown [c])⟩
    exact hname.isInfix.trans ((List.suffix_append x _).isInfix.trans hp.isInfix)
  | some scan' =>
    cases hst
    refine ⟨x ++ '{' :: (shown ++ [c]), ⟨x, shown ++ [c], rfl, hsame.append [c], fun hscan => ?_⟩, h⟩
    by_cases hs : scan = .name
    · rw [hs] at hnext
      exact ⟨c, by simp, Scan.endsName_of_next hnext hscan⟩
    · obtain ⟨d, hd, hde⟩ := hends hs
      exact ⟨d, List.mem_append_left [c] hd, hde⟩

/-- No character of the template pays back what is owed. -/
theorem Owes.step (hinert : args.Inert) {st st' : State} {c : Char} {owed t now later : Str}
    (ho : Owes st owed) (hstep : step args st c = .ok (now, st')) (h : owed ++ c :: t <+: now ++ later) :
    ∃ owed', Owes st' owed' ∧ owed' ++ t <+: later := by
  have hcons : owed ++ c :: t = (owed ++ [c]) ++ t := by simp
  cases st with
  | text =>
    rw [hcons] at h
    rw [Format.step] at hstep
    split_ifs at hstep with hopen hclose
    · cases hstep
      exact ⟨owed ++ [c], ⟨owed, by rw [hopen]⟩, h⟩
    · cases hstep
      exact ⟨owed ++ [c], by simp [Owes], h⟩
    · cases hstep
      exact owed_of_not_prefix h (not_prefix_singleton ho c c)
  | opened =>
    rw [Format.step] at hstep
    split_ifs at hstep with hopen
    · cases hstep
      rw [hcons] at h
      exact owed_of_not_prefix h (not_prefix_singleton ho.ne_nil c c)
    · obtain ⟨x, rfl⟩ := ho
      exact owes_fieldStep hinert (Or.inl rfl) (fun hn => absurd rfl hn) hstep h
  | closed =>
    rw [Format.step] at hstep
    split_ifs at hstep with hclose
    · cases hstep
      rw [hcons] at h
      exact owed_of_not_prefix h (not_prefix_singleton ho c c)
  | field read scan =>
    obtain ⟨x, shown, rfl, hsame, hends⟩ := ho
    exact owes_fieldStep hinert hsame hends hstep h

/-- A character that is not a brace is text or part of a field. -/
theorem step_of_not_brace {st st' : State} {c : Char} {now : Str} (hc : isBrace c = false)
    (h : step args st c = .ok (now, st')) : st' = .text ∨ ∃ read scan, st' = .field read scan := by
  have hfield : ∀ {read : Str} {scan : Scan}, fieldStep args read scan c = .ok (now, st') →
      st' = .text ∨ ∃ read scan, st' = .field read scan := by
    intro read scan hstep
    obtain ⟨next, _, hst⟩ := bind_eq_ok_iff.mp hstep
    cases next with
    | none =>
      obtain ⟨out, _, he⟩ := map_eq_ok_iff.mp hst
      cases he
      exact Or.inl rfl
    | some scan' =>
      cases hst
      exact Or.inr ⟨_, _, rfl⟩
  cases st with
  | text =>
    rw [step_text hc] at h
    cases h
    exact Or.inl rfl
  | opened =>
    rw [step, if_neg (isBrace_eq_false.mp hc).1] at h
    exact hfield h
  | closed =>
    rw [step, if_neg (isBrace_eq_false.mp hc).2] at h
    cases h
  | field read scan => exact hfield h

/-- A field inside a field: it is read over in an item and in a format spec, and nowhere else. -/
theorem formatFrom_nested {key : Str} (hkey : IsKey key) {read : Str} {scan : Scan} {s out : Str}
    (h : formatFrom args (.field read scan) ('{' :: key ++ '}' :: s) = .ok out) :
    scan ≠ .name ∧ formatFrom args (.field (read ++ ('{' :: key ++ ['}'])) scan) s = .ok out := by
  have hname : ∀ c ∈ key, NameChar c := fun c hc => hkey.nameChar hc
  have hread : read ++ ('{' :: key ++ ['}']) = read ++ ['{'] ++ key ++ ['}'] := by simp
  -- the brace, the name and the other brace, when the first one leads to `inner` and the other one back
  have hover : ∀ inner : Scan, inner ≠ .conversion → inner ≠ .converted →
      scan.next '{' = .ok (some inner) → inner.next '}' = .ok (some scan) →
      formatFrom args (.field (read ++ ('{' :: key ++ ['}'])) scan) s = .ok out := by
    intro inner hconv hconverted hopen hclose
    have hfirst : step args (.field read scan) '{' = .ok ([], .field (read ++ ['{']) inner) :=
      fieldStep_of_next hopen read
    have hlast : step args (.field (read ++ ['{'] ++ key) inner) '}' =
        .ok ([], .field (read ++ ['{'] ++ key ++ ['}']) scan) := fieldStep_of_next hclose _
    rw [List.cons_append, formatFrom_of_step hfirst, formatFrom_name hname hconv hconverted,
      formatFrom_of_step hlast] at h
    rwa [hread]
  obtain ⟨now, st, later, hstep, hlater, _⟩ := formatFrom_cons_eq_ok.mp h
  cases scan with
  | name => cases hstep
  | item => exact ⟨by simp, hover .item (by simp) (by simp) rfl rfl⟩
  | conversion =>
    -- the brace is the conversion, and the name is not what may follow
    cases hstep
    obtain ⟨c, cs, rfl⟩ := List.exists_cons_of_ne_nil hkey.ne_nil
    have hc := hname c List.mem_cons_self
    obtain ⟨now, st, later, hstep, _, _⟩ := formatFrom_cons_eq_ok.mp hlater
    rw [step, fieldStep, Scan.next, if_neg hc.ne_close, if_neg (hc.ne_of_endsName rfl)] at hstep
    cases hstep
  | converted => cases hstep
  | spec depth => exact ⟨by simp, hover (.spec (depth + 1)) (by simp) (by simp) rfl rfl⟩

/-- Nor does an argument. -/
theorem Owes.slot {st : State} (hst : st = .text ∨ ∃ read scan, st = .field read scan)
    {key value s t out owed : Str} (ho : Owes st owed) (hkey : IsKey key)
    (hvalue : args.kwargs.lookup key = some value)
    (hformat : formatFrom args st ('{' :: key ++ '}' :: s) = .ok out)
    (h : owed ++ (value ++ t) <+: out) :
    ∃ st' owed' later, Owes st' owed' ∧ formatFrom args st' s = .ok later ∧ owed' ++ t <+: later := by
  rw [← List.append_assoc] at h
  rcases hst with rfl | ⟨read, scan, rfl⟩
  · rw [formatFrom_slot hkey hvalue] at hformat
    obtain ⟨later, hlater, rfl⟩ := map_eq_ok_iff.mp hformat
    have hlong : ¬ owed ++ value <+: value := by
      intro hp
      have hlen := hp.length_le
      have hpos := List.length_pos_of_ne_nil ho
      rw [List.length_append] at hlen
      omega
    obtain ⟨owed', hne, hp⟩ := owed_of_not_prefix h hlong
    exact ⟨.text, owed', later, hne, hlater, hp⟩
  · obtain ⟨hscan, hlater⟩ := formatFrom_nested hkey hformat
    obtain ⟨x, shown, rfl, hsame, hends⟩ := ho
    obtain ⟨d, hd, hde⟩ := hends hscan
    refine ⟨.field _ scan, x ++ '{' :: shown ++ value, out, ?_, hlater, h⟩
    refine ⟨x, shown ++ value, by simp, hsame.append_append ⟨d, hd, hde⟩ _ value, fun _ => ?_⟩
    exact ⟨d, List.mem_append_left _ hd, hde⟩

/-- What is owed at some point is missing in the end. -/
theorem Owes.not_prefix (hinert : args.Inert) {ms : List Mark} (hms : ∀ m ∈ ms, m.Provided args)
    {st : State} {owed out : Str} (ho : Owes st owed) (hformat : formatFrom args st (source ms) = .ok out) :
    ¬ owed ++ result ms <+: out := by
  induction ms generalizing st owed out with
  | nil =>
    intro h
    cases st with
    | text =>
      cases hformat
      exact ho (List.append_eq_nil_iff.mp (List.prefix_nil.mp h)).1
    | opened => cases hformat
    | closed => cases hformat
    | field read scan => cases hformat
  | cons m ms ih =>
    intro h
    rw [List.forall_mem_cons] at hms
    cases m with
    | chr c =>
      obtain ⟨now, st', later, hstep, hlater, rfl⟩ := formatFrom_cons_eq_ok.mp hformat
      obtain ⟨owed', ho', h'⟩ := ho.step hinert hstep h
      exact ih hms.2 ho' hlater h'
    | slot c key value =>
      obtain ⟨hc, hkey, hvalue⟩ := hms.1
      rw [source_slot] at hformat
      obtain ⟨now, st', later, hstep, hlater, rfl⟩ := formatFrom_cons_eq_ok.mp hformat
      obtain ⟨owed', ho', h'⟩ := ho.step hinert hstep h
      obtain ⟨st'', owed'', later', ho'', hlater', h''⟩ :=
        ho'.slot (step_of_not_brace hc hstep) hkey hvalue hlater h'
      exact ih hms.2 ho'' hlater' h''

/-- A template that becomes what it is meant to become has no braces of its own. -/
theorem isBrace_of_format (hinert : args.Inert) {ms : List Mark} (hms : ∀ m ∈ ms, m.Provided args)
    {out : Str} (hformat : format args (source ms) = .ok out) (h : result ms <+: out) :
    ∀ c, .chr c ∈ ms → isBrace c = false := by
  induction ms generalizing out with
  | nil => exact fun _ hc => nomatch hc
  | cons m ms ih =>
    rw [List.forall_mem_cons] at hms
    rw [format] at hformat
    cases m with
    | chr d =>
      have hd : isBrace d = false := by
        by_contra hd
        rw [Bool.not_eq_false, isBrace, Bool.or_eq_true, beq_iff_eq, beq_iff_eq] at hd
        obtain ⟨now, st, later, hstep, hlater, rfl⟩ := formatFrom_cons_eq_ok.mp hformat
        rcases hd with rfl | rfl
        · have ho : Owes .opened ['{'] := ⟨[], rfl⟩
          cases hstep
          exact ho.not_prefix hinert hms.2 hlater h
        · have ho : Owes .closed ['}'] := List.cons_ne_nil _ _
          cases hstep
          exact ho.not_prefix hinert hms.2 hlater h
      obtain ⟨later, hlater, rfl⟩ := map_eq_ok_iff.mp ((formatFrom_char hd _).symm.trans hformat)
      intro c hc
      rcases List.mem_cons.mp hc with hc | hc
      · cases hc
        exact hd
      · exact ih hms.2 hlater (List.cons_prefix_cons.mp h).2 c hc
    | slot d key value =>
      obtain ⟨hd, hkey, hvalue⟩ := hms.1
      rw [source_slot, formatFrom_char hd, formatFrom_slot hkey hvalue] at hformat
      obtain ⟨rest, hrest, rfl⟩ := map_eq_ok_iff.mp hformat
      obtain ⟨later, hlater, rfl⟩ := map_eq_ok_iff.mp hrest
      have hp := (List.prefix_append_right_inj value).mp (List.cons_prefix_cons.mp h).2
      intro c hc
      rcases List.mem_cons.mp hc with hc | hc
      · cases hc
      · exact ih hms.2 hlater hp c hc

example : format ⟨[("x", "1")], fun _ rest => .error (.raised rest)⟩ "{x}\x7b\x7b" =
    .ok ("1\x7b" : Str) := by decide

end Format

end Py
