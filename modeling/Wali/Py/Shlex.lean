import Mathlib.Data.List.Induction
import Mathlib.Tactic.Tauto
import Wali.Py.Text

/-!
# `shlex.split`

The lexer of the Python module in POSIX mode, where words are split at whitespace only, as a machine
that reads one character after the other. What it accepts is the language of the shell's words: plain
and escaped characters, and text in single or in double quotes, next to each other.
-/

namespace Py.Shlex

/-- `whitespace`. -/
def isBlank (c : Char) : Bool := c == ' ' || c == '\t' || c == '\r' || c == '\n'

/-- `quotes`. -/
def isQuote (c : Char) : Bool := c == '\'' || c == '"'

/-- What a `ValueError` says. -/
inductive Error where
  | noClosingQuotation
  | noEscapedCharacter
  deriving DecidableEq, Repr

def Error.text : Error → Str
  | .noClosingQuotation => "No closing quotation"
  | .noEscapedCharacter => "No escaped character"

/-- `state`. -/
inductive Mode where
  | blank
  | word
  | quote (q : Char)
  /-- Behind a backslash, in a quotation or not. -/
  | escape (q : Option Char)
  deriving DecidableEq, Repr

structure Lexer where
  mode : Mode
  token : Str
  quoted : Bool
  /-- The tokens that have been returned. -/
  done : List Str
  deriving DecidableEq, Repr

namespace Lexer

/-- Before the next token. -/
def start (done : List Str) : Lexer := ⟨.blank, [], false, done⟩

variable (l : Lexer)

/-- The end of a token, if there is one. -/
def emit : Lexer := .start (if l.token ≠ [] ∨ l.quoted = true then l.done ++ [l.token] else l.done)

/-- One turn of the loop of `read_token`. -/
def step (c : Char) : Lexer :=
  match l.mode with
  | .blank =>
    if isBlank c then l.emit
    else if c = '\\' then { l with mode := .escape none }
    else if isQuote c then { l with mode := .quote c }
    else { l with mode := .word, token := [c] }
  | .quote q =>
    if c = q then { l with mode := .word, quoted := true }
    else if c = '\\' ∧ q = '"' then { l with mode := .escape (some q), quoted := true }
    else { l with token := l.token ++ [c], quoted := true }
  | .escape (some q) =>
    -- only the quote itself and the backslash are escaped within quotes
    if c ≠ '\\' ∧ c ≠ q then { l with mode := .quote q, token := l.token ++ ['\\', c] }
    else { l with mode := .quote q, token := l.token ++ [c] }
  | .escape none => { l with mode := .word, token := l.token ++ [c] }
  | .word =>
    if isBlank c then l.emit
    else if isQuote c then { l with mode := .quote c }
    else if c = '\\' then { l with mode := .escape none }
    else { l with token := l.token ++ [c] }

/-- At the end of the text. -/
def finish : Except Error (List Str) :=
  match l.mode with
  | .blank | .word => .ok l.emit.done
  | .quote _ => .error .noClosingQuotation
  | .escape _ => .error .noEscapedCharacter

end Lexer

def split (s : Str) : Except Error (List Str) := (s.foldl Lexer.step (.start [])).finish

/-- Neither blank nor a quote nor the backslash. -/
def isPlain (c : Char) : Bool := !isBlank c && !isQuote c && c != '\\'

section Step

variable {w : Str} {quoted : Bool} {ws : List Str} {c : Char}

theorem step_word_blank (hc : isBlank c = true) (hemit : w ≠ [] ∨ quoted = true) :
    Lexer.step ⟨.word, w, quoted, ws⟩ c = .start (ws ++ [w]) := by
  simp only [Lexer.step, hc, if_true, Lexer.emit, if_pos hemit]

theorem step_word_plain (hc : isPlain c = true) :
    Lexer.step ⟨.word, w, quoted, ws⟩ c = ⟨.word, w ++ [c], quoted, ws⟩ := by
  simp only [isPlain, Bool.and_eq_true, Bool.not_eq_true', bne_iff_ne] at hc
  simp [Lexer.step, hc]

theorem step_word_quote {q : Char} (hq : isQuote q = true) :
    Lexer.step ⟨.word, w, quoted, ws⟩ q = ⟨.quote q, w, quoted, ws⟩ := by
  have hb : isBlank q = false := by
    simp only [isQuote, Bool.or_eq_true, beq_iff_eq] at hq
    rcases hq with rfl | rfl <;> rfl
  simp [Lexer.step, hb, hq]

theorem step_word_escape : Lexer.step ⟨.word, w, quoted, ws⟩ '\\' = ⟨.escape none, w, quoted, ws⟩ := rfl

theorem step_start_blank (hc : isBlank c = true) : (Lexer.start ws).step c = .start ws := by
  simp [Lexer.step, Lexer.start, hc, Lexer.emit]

/-- What begins a word would also go on with one. -/
theorem step_start_of_not_blank (hc : isBlank c = false) :
    (Lexer.start ws).step c = Lexer.step ⟨.word, [], false, ws⟩ c := by
  by_cases he : c = '\\'
  · rw [he]
    rfl
  · simp [Lexer.step, Lexer.start, hc, he]

theorem step_escape : Lexer.step ⟨.escape none, w, quoted, ws⟩ c = ⟨.word, w ++ [c], quoted, ws⟩ := rfl

theorem step_quote_close {q : Char} : Lexer.step ⟨.quote q, w, quoted, ws⟩ q = ⟨.word, w, true, ws⟩ := by
  simp [Lexer.step]

theorem step_single (hc : c ≠ '\'') :
    Lexer.step ⟨.quote '\'', w, quoted, ws⟩ c = ⟨.quote '\'', w ++ [c], true, ws⟩ := by
  simp [Lexer.step, hc]

theorem step_double (hc : c ≠ '"' ∧ c ≠ '\\') :
    Lexer.step ⟨.quote '"', w, quoted, ws⟩ c = ⟨.quote '"', w ++ [c], true, ws⟩ := by
  simp [Lexer.step, hc]

theorem step_double_escape :
    Lexer.step ⟨.quote '"', w, quoted, ws⟩ '\\' = ⟨.escape (some '"'), w, true, ws⟩ := rfl

theorem step_escaped (hc : c = '"' ∨ c = '\\') :
    Lexer.step ⟨.escape (some '"'), w, quoted, ws⟩ c = ⟨.quote '"', w ++ [c], quoted, ws⟩ := by
  rcases hc with rfl | rfl <;> rfl

theorem step_kept (hc : c ≠ '"' ∧ c ≠ '\\') :
    Lexer.step ⟨.escape (some '"'), w, quoted, ws⟩ c = ⟨.quote '"', w ++ ['\\', c], quoted, ws⟩ := by
  simp [Lexer.step, hc]

end Step

-- ════════════════════════════════════════════════════════════════════════
-- The language
-- ════════════════════════════════════════════════════════════════════════

/-- How a text is written in double quotes. -/
inductive Quotes : Str → Str → Prop where
  | nil : Quotes [] []
  | plain {t v : Str} (c : Char) (hc : c ≠ '"' ∧ c ≠ '\\') (h : Quotes t v) : Quotes (t ++ [c]) (v ++ [c])
  | escaped {t v : Str} (c : Char) (hc : c = '"' ∨ c = '\\') (h : Quotes t v) :
      Quotes (t ++ ['\\', c]) (v ++ [c])
  | kept {t v : Str} (c : Char) (hc : c ≠ '"' ∧ c ≠ '\\') (h : Quotes t v) :
      Quotes (t ++ ['\\', c]) (v ++ ['\\', c])

/-- How a word is spelled. -/
inductive Spells : Str → Str → Prop where
  | nil : Spells [] []
  | plain {t w : Str} (c : Char) (hc : isPlain c = true) (h : Spells t w) : Spells (t ++ [c]) (w ++ [c])
  | escaped {t w : Str} (c : Char) (h : Spells t w) : Spells (t ++ ['\\', c]) (w ++ [c])
  | single {t w q : Str} (hq : '\'' ∉ q) (h : Spells t w) :
      Spells (t ++ '\'' :: q ++ ['\'']) (w ++ q)
  | double {t w q v : Str} (hq : Quotes q v) (h : Spells t w) :
      Spells (t ++ '"' :: q ++ ['"']) (w ++ v)

/-- The words of a text behind which another word may begin. -/
inductive Gap : Str → List Str → Prop where
  | nil : Gap [] []
  | blank {s : Str} {ws : List Str} (c : Char) (hc : isBlank c = true) (h : Gap s ws) : Gap (s ++ [c]) ws
  | word {s t w : Str} {ws : List Str} (c : Char) (hc : isBlank c = true) (h : Gap s ws) (ht : t ≠ [])
      (hw : Spells t w) : Gap (s ++ t ++ [c]) (ws ++ [w])

/-- The words of a text, with blanks between them. -/
inductive Splits : Str → List Str → Prop where
  | gap {s : Str} {ws : List Str} (h : Gap s ws) : Splits s ws
  | word {s t w : Str} {ws : List Str} (h : Gap s ws) (ht : t ≠ []) (hw : Spells t w) :
      Splits (s ++ t) (ws ++ [w])

-- ════════════════════════════════════════════════════════════════════════
-- What the machine has read
-- ════════════════════════════════════════════════════════════════════════

/-- In the middle of a text: what has been read, and what the machine has made of it. -/
inductive Lexed : Str → Lexer → Prop where
  | blank {s : Str} {ws : List Str} (hs : Gap s ws) : Lexed s (.start ws)
  | word {s t w : Str} {ws : List Str} {quoted : Bool} (hs : Gap s ws)
      (hw : Spells t w) (ht : t ≠ []) (hemit : w ≠ [] ∨ quoted = true) :
      Lexed (s ++ t) ⟨.word, w, quoted, ws⟩
  | escape {s t w : Str} {ws : List Str} {quoted : Bool} (hs : Gap s ws)
      (hw : Spells t w) : Lexed (s ++ t ++ ['\\']) ⟨.escape none, w, quoted, ws⟩
  | single {s t w q : Str} {ws : List Str} {quoted : Bool} (hs : Gap s ws)
      (hw : Spells t w) (hq : '\'' ∉ q) :
      Lexed (s ++ t ++ '\'' :: q) ⟨.quote '\'', w ++ q, quoted, ws⟩
  | double {s t w q v : Str} {ws : List Str} {quoted : Bool} (hs : Gap s ws)
      (hw : Spells t w) (hq : Quotes q v) :
      Lexed (s ++ t ++ '"' :: q) ⟨.quote '"', w ++ v, quoted, ws⟩
  | doubleEscape {s t w q v : Str} {ws : List Str} {quoted : Bool} (hs : Gap s ws)
      (hw : Spells t w) (hq : Quotes q v) :
      Lexed (s ++ t ++ '"' :: q ++ ['\\']) ⟨.escape (some '"'), w ++ v, quoted, ws⟩

/-- The four kinds of characters. -/
theorem char_cases (c : Char) : isBlank c = true ∨ isQuote c = true ∨ c = '\\' ∨ isPlain c = true := by
  simp only [isPlain]
  grind

/-- A word that has begun goes on. -/
theorem Lexed.step_word {s t w : Str} {ws : List Str} {quoted : Bool} {c : Char} (hs : Gap s ws) (hw : Spells t w) (hb : isBlank c = false) :
    Lexed (s ++ t ++ [c]) (Lexer.step ⟨.word, w, quoted, ws⟩ c) := by
  rcases char_cases c with hc | hc | rfl | hc
  · exact absurd hc (by rw [hb]; decide)
  · rw [step_word_quote hc]
    have hquote : c = '\'' ∨ c = '"' := by simpa [isQuote] using hc
    rcases hquote with rfl | rfl
    · have h : Lexed (s ++ t ++ ['\'']) ⟨.quote '\'', w ++ [], quoted, ws⟩ := .single hs hw nofun
      rwa [List.append_nil] at h
    · have h : Lexed (s ++ t ++ ['"']) ⟨.quote '"', w ++ [], quoted, ws⟩ := .double hs hw .nil
      rwa [List.append_nil] at h
  · rw [step_word_escape]
    exact .escape hs hw
  · rw [step_word_plain hc, List.append_assoc]
    exact .word hs (.plain c hc hw) (by simp) (Or.inl (by simp))

theorem Lexed.step {s : Str} {l : Lexer} (h : Lexed s l) (c : Char) : Lexed (s ++ [c]) (l.step c) := by
  cases h with
  | @blank s ws hs =>
    cases hb : isBlank c with
    | true =>
      rw [step_start_blank hb]
      exact .blank (.blank c hb hs)
    | false =>
      rw [step_start_of_not_blank hb]
      have h : Lexed (s ++ [] ++ [c]) (Lexer.step ⟨.word, [], false, ws⟩ c) := .step_word hs .nil hb
      rwa [List.append_nil] at h
  | @word s t w ws quoted hs hw ht hemit =>
    cases hb : isBlank c with
    | true =>
      rw [step_word_blank hb hemit]
      exact .blank (.word c hb hs ht hw)
    | false => exact .step_word hs hw hb
  | escape hs hw =>
    rw [step_escape, List.append_assoc, List.append_assoc]
    exact .word hs (.escaped c hw) (by simp) (Or.inl (by simp))
  | @single s t w q ws quoted hs hw hq =>
    by_cases hc : c = '\''
    · subst hc
      rw [step_quote_close, List.append_assoc, List.append_assoc, ← List.append_assoc t]
      exact .word hs (.single hq hw) (by simp) (Or.inr rfl)
    · rw [step_single hc, List.append_assoc w, List.append_assoc _ _ [c]]
      exact .single hs hw (by simp [hq, Ne.symm hc])
  | @double s t w q v ws quoted hs hw hq =>
    by_cases hc : c = '"'
    · subst hc
      rw [step_quote_close, List.append_assoc, List.append_assoc, ← List.append_assoc t]
      exact .word hs (.double hq hw) (by simp) (Or.inr rfl)
    · by_cases he : c = '\\'
      · rw [he, step_double_escape]
        exact .doubleEscape hs hw hq
      · rw [step_double ⟨hc, he⟩, List.append_assoc w, List.append_assoc _ _ [c]]
        exact .double hs hw (.plain c ⟨hc, he⟩ hq)
  | @doubleEscape s t w q v ws quoted hs hw hq =>
    rw [List.append_assoc _ ['\\'], List.append_assoc _ ('"' :: q)]
    by_cases hc : c = '"' ∨ c = '\\'
    · rw [step_escaped hc, List.append_assoc w]
      exact .double hs hw (.escaped c hc hq)
    · rw [step_kept (not_or.mp hc), List.append_assoc w]
      exact .double hs hw (.kept c (not_or.mp hc) hq)

theorem lexed_foldl (s : Str) : Lexed s (s.foldl Lexer.step (.start [])) := by
  induction s using List.reverseRecOn with
  | nil => exact .blank .nil
  | append_singleton s c ih =>
    rw [List.foldl_append]
    exact ih.step c

-- ════════════════════════════════════════════════════════════════════════
-- What the machine makes of a spelling
-- ════════════════════════════════════════════════════════════════════════

/-- The machine reads over a text in double quotes. -/
theorem Quotes.foldl {q v : Str} (h : Quotes q v) (w : Str) (quoted : Bool) (ws : List Str) :
    ∃ quoted', q.foldl Lexer.step ⟨.quote '"', w, quoted, ws⟩ = ⟨.quote '"', w ++ v, quoted', ws⟩ := by
  induction h with
  | nil => exact ⟨quoted, by simp⟩
  | plain c hc _ ih =>
    obtain ⟨quoted', ih⟩ := ih
    exact ⟨true, by simp [ih, step_double hc]⟩
  | escaped c hc _ ih =>
    obtain ⟨quoted', ih⟩ := ih
    exact ⟨true, by simp [ih, step_double_escape, step_escaped hc]⟩
  | kept c hc _ ih =>
    obtain ⟨quoted', ih⟩ := ih
    exact ⟨true, by simp [ih, step_double_escape, step_kept hc]⟩

theorem foldl_single {q : Str} (hq : '\'' ∉ q) (w : Str) (quoted : Bool) (ws : List Str) :
    ∃ quoted', q.foldl Lexer.step ⟨.quote '\'', w, quoted, ws⟩ = ⟨.quote '\'', w ++ q, quoted', ws⟩ := by
  induction q generalizing w quoted with
  | nil => exact ⟨quoted, by simp⟩
  | cons c q ih =>
    obtain ⟨hc, hq⟩ := not_or.mp (List.mem_cons.not.mp hq)
    obtain ⟨quoted', ih⟩ := ih hq (w ++ [c]) true
    exact ⟨quoted', by rw [List.foldl_cons, step_single (Ne.symm hc), ih, List.append_assoc]; rfl⟩

/-- The machine has read a word, or nothing yet: it goes on as it does in a word. -/
structure InWord (t w : Str) (quoted : Bool) (ws : List Str) (l : Lexer) : Prop where
  next : ∀ c, isBlank c = false → l.step c = Lexer.step ⟨.word, w, quoted, ws⟩ c
  word : t ≠ [] → l = ⟨.word, w, quoted, ws⟩ ∧ (w ≠ [] ∨ quoted = true)

theorem inWord_of_eq {t w : Str} {quoted : Bool} {ws : List Str} {l : Lexer} (h : l = ⟨.word, w, quoted, ws⟩)
    (hemit : w ≠ [] ∨ quoted = true) : InWord t w quoted ws l :=
  ⟨fun _ _ => by rw [h], fun _ => ⟨h, hemit⟩⟩

theorem Spells.inWord {t w : Str} (h : Spells t w) (ws : List Str) :
    ∃ quoted, InWord t w quoted ws (t.foldl Lexer.step (.start ws)) := by
  induction h with
  | nil => exact ⟨false, fun c hc => step_start_of_not_blank hc, fun h => absurd rfl h⟩
  | plain c hc _ ih =>
    obtain ⟨quoted, ih⟩ := ih
    refine ⟨quoted, inWord_of_eq ?_ (Or.inl (by simp))⟩
    have hb : isBlank c = false := by
      simp only [isPlain, Bool.and_eq_true, Bool.not_eq_true'] at hc
      exact hc.1.1
    rw [List.foldl_append, List.foldl_cons, List.foldl_nil, ih.next c hb, step_word_plain hc]
  | escaped c _ ih =>
    obtain ⟨quoted, ih⟩ := ih
    refine ⟨quoted, inWord_of_eq ?_ (Or.inl (by simp))⟩
    rw [List.foldl_append, List.foldl_cons, ih.next '\\' rfl, step_word_escape]
    exact step_escape
  | @single t w q hq _ ih =>
    obtain ⟨quoted, ih⟩ := ih
    obtain ⟨quoted', hread⟩ := foldl_single hq w quoted ws
    refine ⟨true, inWord_of_eq ?_ (Or.inr rfl)⟩
    have hopen : (t ++ '\'' :: q).foldl Lexer.step (.start ws) = ⟨.quote '\'', w ++ q, quoted', ws⟩ := by
      rw [List.foldl_append, List.foldl_cons, ih.next '\'' rfl, step_word_quote rfl, hread]
    rw [List.foldl_append, hopen, List.foldl_cons, List.foldl_nil, step_quote_close]
  | @double t w q v hq _ ih =>
    obtain ⟨quoted, ih⟩ := ih
    obtain ⟨quoted', hread⟩ := hq.foldl w quoted ws
    refine ⟨true, inWord_of_eq ?_ (Or.inr rfl)⟩
    have hopen : (t ++ '"' :: q).foldl Lexer.step (.start ws) = ⟨.quote '"', w ++ v, quoted', ws⟩ := by
      rw [List.foldl_append, List.foldl_cons, ih.next '"' rfl, step_word_quote rfl, hread]
    rw [List.foldl_append, hopen, List.foldl_cons, List.foldl_nil, step_quote_close]

theorem Gap.foldl {s : Str} {ws : List Str} (h : Gap s ws) :
    s.foldl Lexer.step (.start []) = .start ws := by
  induction h with
  | nil => rfl
  | blank c hc _ ih => rw [List.foldl_append, ih, List.foldl_cons, List.foldl_nil, step_start_blank hc]
  | @word s t w ws c hc _ ht hw ih =>
    obtain ⟨quoted, hin⟩ := hw.inWord ws
    obtain ⟨heq, hemit⟩ := hin.word ht
    rw [List.foldl_append, List.foldl_append, ih, heq, List.foldl_cons, List.foldl_nil,
      step_word_blank hc hemit]

theorem finish_word {w : Str} {quoted : Bool} {ws : List Str} (hemit : w ≠ [] ∨ quoted = true) :
    Lexer.finish ⟨.word, w, quoted, ws⟩ = .ok (ws ++ [w]) := by
  simp only [Lexer.finish, Lexer.emit, if_pos hemit]
  rfl

/-- **`shlex.split`**: its words are those of the shell's language, and it raises on any other text. -/
theorem split_eq_ok_iff {s : Str} {ws : List Str} : split s = .ok ws ↔ Splits s ws := by
  constructor
  · intro h
    have hlexed := lexed_foldl s
    rw [split] at h
    revert h
    generalize s.foldl Lexer.step (.start []) = l at hlexed
    cases hlexed with
    | blank hs => exact fun h => Except.ok.inj h ▸ .gap hs
    | word hs hw ht hemit =>
      intro h
      rw [finish_word hemit] at h
      exact Except.ok.inj h ▸ .word hs ht hw
    | escape | single | double | doubleEscape => exact fun h => by cases h
  · intro h
    cases h with
    | gap h => rw [split, h.foldl]; rfl
    | @word s t w ws h ht hw =>
      obtain ⟨quoted, hin⟩ := hw.inWord ws
      obtain ⟨heq, hemit⟩ := hin.word ht
      rw [split, List.foldl_append, h.foldl, heq, finish_word hemit]

section Mem

variable {s t w q v : Str} {ws : List Str} {c : Char}

theorem Quotes.mem (h : Quotes q v) (hc : c ∈ v) : c ∈ q := by
  induction h with
  | nil => exact hc
  | plain d _ _ ih | escaped d _ _ ih | kept d _ _ ih =>
    simp only [List.mem_append, List.mem_cons, List.not_mem_nil, or_false] at hc ⊢
    tauto

theorem Spells.mem (h : Spells t w) (hc : c ∈ w) : c ∈ t := by
  induction h with
  | nil => exact hc
  | plain d _ _ ih | escaped d _ ih | single _ _ ih =>
    simp only [List.mem_append, List.mem_cons, List.not_mem_nil, or_false] at hc ⊢
    tauto
  | double hq _ ih =>
    simp only [List.mem_append, List.mem_cons, List.not_mem_nil, or_false] at hc ⊢
    rcases hc with hc | hc
    · exact Or.inl (Or.inl (ih hc))
    · exact Or.inl (Or.inr (Or.inr (hq.mem hc)))

theorem Gap.mem (h : Gap s ws) (hw : w ∈ ws) (hc : c ∈ w) : c ∈ s := by
  induction h with
  | nil => cases hw
  | blank d _ _ ih => exact List.mem_append_left _ (ih hw)
  | word d _ _ _ hspell ih =>
    simp only [List.mem_append, List.mem_singleton] at hw ⊢
    rcases hw with hw | rfl
    · exact Or.inl (Or.inl (ih hw))
    · exact Or.inl (Or.inr (hspell.mem hc))

/-- The words of a text are made of its characters. -/
theorem Splits.mem (h : Splits s ws) (hw : w ∈ ws) (hc : c ∈ w) : c ∈ s := by
  cases h with
  | gap h => exact h.mem hw hc
  | word h _ hspell =>
    rw [List.mem_append, List.mem_singleton] at hw
    rcases hw with hw | rfl
    · exact List.mem_append_left _ (h.mem hw hc)
    · exact List.mem_append_right _ (hspell.mem hc)

end Mem

-- ════════════════════════════════════════════════════════════════════════
-- Quoting
-- ════════════════════════════════════════════════════════════════════════

/-- In single quotes, where a single quote is written between double quotes. -/
def quote (w : Str) : Str :=
  '\'' :: (w.flatMap fun c => if c = '\'' then ['\'', '"', '\'', '"', '\''] else [c]) ++ ['\'']

theorem Spells.append {t w t' w' : Str} (h : Spells t w) (h' : Spells t' w') : Spells (t ++ t') (w ++ w') := by
  induction h' with
  | nil => simpa using h
  | plain c hc _ ih => simpa using ih.plain c hc
  | escaped c _ ih => simpa using ih.escaped c
  | single hq _ ih => simpa using ih.single hq
  | double hq _ ih => simpa using ih.double hq

theorem spells_single {q : Str} (hq : '\'' ∉ q) : Spells ('\'' :: q ++ ['\'']) q := by
  simpa using Spells.nil.single hq

/-- With the part that has been read in front of the part that is still to be quoted. -/
theorem spells_quote_append {q : Str} (hq : '\'' ∉ q) (w : Str) :
    Spells ('\'' :: q ++ (w.flatMap fun c => if c = '\'' then ['\'', '"', '\'', '"', '\''] else [c]) ++ ['\'']) (q ++ w) := by
  induction w generalizing q with
  | nil => simpa using spells_single hq
  | cons c w ih =>
    rw [List.flatMap_cons]
    by_cases hc : c = '\''
    · rw [if_pos hc, hc]
      have hquote : Spells ['"', '\'', '"'] ['\''] := by
        have hin : Quotes ['\''] ['\''] := Quotes.nil.plain '\'' (by decide)
        exact Spells.nil.double hin
      have h := ((spells_single hq).append hquote).append (ih (q := []) nofun)
      simpa using h
    · rw [if_neg hc]
      have h := ih (q := q ++ [c]) (by simp [hq, Ne.symm hc])
      simpa using h

theorem spells_quote (w : Str) : Spells (quote w) w := by
  simpa [quote] using spells_quote_append (q := []) nofun w

theorem quote_ne_nil (w : Str) : quote w ≠ [] := nofun

theorem mem_quote {w : Str} {c : Char} (h : c ∈ quote w) : c = '\'' ∨ c = '"' ∨ c ∈ w := by
  simp only [quote, List.cons_append, List.mem_cons, List.mem_append, List.mem_flatMap,
    List.not_mem_nil, or_false] at h
  rcases h with h | ⟨d, hd, h⟩ | h
  · exact Or.inl h
  · split at h
    · simp only [List.mem_cons, List.not_mem_nil, or_false] at h
      tauto
    · exact Or.inr (Or.inr (List.mem_singleton.mp h ▸ hd))
  · exact Or.inl h

theorem gap_quoted (ws : List Str) : Gap (ws.flatMap fun w => quote w ++ " ") ws := by
  induction ws using List.reverseRecOn with
  | nil => exact .nil
  | append_singleton ws w ih =>
    have h := Gap.word ' ' rfl ih (quote_ne_nil w) (spells_quote w)
    simpa using h

/-- **Quoted words are read back.** -/
theorem split_join_quote (ws : List Str) : split (join " " (ws.map quote)) = .ok ws := by
  rw [split_eq_ok_iff]
  induction ws using List.reverseRecOn with
  | nil => exact .gap .nil
  | append_singleton ws w =>
    rw [List.map_append, List.map_singleton, join_append_cons, List.flatMap_map, List.flatMap_nil,
      List.append_nil]
    exact .word (gap_quoted ws) (quote_ne_nil w) (spells_quote w)

end Py.Shlex
