import Wali.Py.Error
import Wali.Py.Shlex
import Wali.Py.Words
import Wali.Tests.Startup

/-!
# The runs of a test

The comments `// CMD:` in a test's source say with which arguments and environment it is run.
`parse_runs` splits such a line into words, and the value of a word like `args=..` once more.
-/

namespace Wali.Tests

open Py (Str Dict Shlex.split Shlex.quote Shlex.Splits)

/-- A file is read in text mode, where every line ending is a newline. -/
def universalNewlines : Str → Str
  | [] => []
  | '\r' :: '\n' :: s => '\n' :: universalNewlines s
  | '\r' :: s => '\n' :: universalNewlines s
  | c :: s => c :: universalNewlines s

/-- The lines of a file. Their ends do not matter, since they are stripped. -/
def sourceLines (text : Str) : List Str := (universalNewlines text).splitOn '\n'

/-- `p.split("=", 1)[1]`. -/
def valueOf (p : Str) : Str := (p.dropWhile (· != '=')).drop 1

/-- `parse_env_str`. What it raises is not passed on. -/
def parseEnvText (envStr : Str) (env : Dict Str Str) : Dict Str Str :=
  match Shlex.split envStr with
  | .ok parts => parseEnvStr parts env
  | .error _ => env

/-- The loop body for the words of a command. -/
def parsePart (cmd : RunConfig) (p : Str) : Except Py.Shlex.Error RunConfig :=
  if Py.startsWith p "setup=" then
    (Shlex.split (valueOf p)).map fun ws => { cmd with setup := cmd.setup ++ ws }
  else if Py.startsWith p "cleanup=" then
    (Shlex.split (valueOf p)).map fun ws => { cmd with cleanup := cmd.cleanup ++ ws }
  else if Py.startsWith p "args=" then
    (Shlex.split (valueOf p)).map fun ws => { cmd with args := cmd.args ++ ws }
  else if Py.startsWith p "env=" then
    .ok { cmd with env := parseEnvText (valueOf p) cmd.env }
  else .ok { cmd with setup := cmd.setup ++ [p], args := cmd.args ++ [p] }

def isCommand (line : Str) : Bool := Py.startsWith (Py.strip line) "// CMD:"

/-- What is behind `// CMD:`. -/
def commandText (line : Str) : Str := Py.strip ((Py.strip line).drop ("// CMD:" : Str).length)

/-- The loop body for the lines of a source file. -/
def parseLine (line : Str) : Except Py.Shlex.Error (Option RunConfig) :=
  if isCommand line then do
    let parts ← Shlex.split (commandText line)
    let cmd ← parts.foldlM parsePart {}
    return some cmd
  else .ok none

/-- `parse_runs`, where the file may not exist. -/
def parseRuns (source : Option Str) : Except Py.Shlex.Error (List RunConfig) :=
  match source with
  | none => .ok [{}]
  | some text => do
    let explicitRuns := (← (sourceLines text).mapM parseLine).filterMap id
    return if explicitRuns.isEmpty then [{}] else explicitRuns

-- ════════════════════════════════════════════════════════════════════════
-- Writing commands
-- ════════════════════════════════════════════════════════════════════════

/-- Words, each quoted. -/
def quoteAll (ws : List Str) : Str := Py.join " " (ws.map Shlex.quote)

def envWords (env : Dict Str Str) : List Str := env.entries.map fun e => e.1 ++ "=" ++ e.2

/-- A comment that says what a configuration is. -/
def commandLine (config : RunConfig) : Str :=
  "// CMD: " ++ quoteAll
    ["setup=" ++ quoteAll config.setup, "cleanup=" ++ quoteAll config.cleanup,
      "args=" ++ quoteAll config.args, "env=" ++ quoteAll (envWords config.env)]

/-- A line of a source file: a command, or anything else. -/
def renderLine : RunConfig ⊕ Str → Str
  | .inl config => commandLine config
  | .inr line => line

def NoBreaks (s : Str) : Prop := '\n' ∉ s ∧ '\r' ∉ s

/-- A configuration that can be written in one line. -/
structure RunConfig.Writable (config : RunConfig) : Prop where
  words : ∀ w ∈ config.setup ++ config.cleanup ++ config.args, NoBreaks w
  env : ∀ e ∈ config.env.entries, NoBreaks e.1 ∧ NoBreaks e.2
  keys : ∀ e ∈ config.env.entries, '=' ∉ e.1

section Lines

theorem universalNewlines_of_not_mem {s : Str} (h : '\r' ∉ s) : universalNewlines s = s := by
  induction s with
  | nil => rfl
  | cons c s ih =>
    obtain ⟨hc, hs⟩ := not_or.mp (List.mem_cons.not.mp h)
    rw [universalNewlines.eq_4 c s (fun _ hc' => absurd hc'.symm hc) (fun hc' => absurd hc'.symm hc), ih hs]

theorem sourceLines_join {ls : List Str} (hne : ls ≠ []) (h : ∀ l ∈ ls, NoBreaks l) :
    sourceLines (Py.join "\n" ls) = ls := by
  have hnot : '\r' ∉ Py.join "\n" ls := by
    intro hmem
    rcases Py.mem_join hmem with hmem | ⟨l, hl, hmem⟩
    · revert hmem
      decide
    · exact (h l hl).2 hmem
  rw [sourceLines, universalNewlines_of_not_mem hnot]
  refine (Py.splitOn_join hne).trans ?_
  rw [List.flatMap_congr fun l hl => Py.splitOn_of_not_mem (h l hl).1]
  exact List.flatMap_singleton' ls

end Lines

section Words

/-- Neither blank in front nor behind. -/
theorem strip_of_trimmed {a : Char} {s : Str} (ha : Py.isSpace a = false)
    (hs : Py.Trimmed Py.isSpace (a :: s)) : Py.strip (a :: s) = a :: s := by
  rw [hs.strip (List.cons_ne_nil a s), List.dropWhile_cons_of_neg (by simp [ha])]

/-- Quoted words end with a quote. -/
theorem trimmed_quoteAll (ws : List Str) : Py.Trimmed Py.isSpace (quoteAll ws) := by
  cases ws using List.reverseRecOn with
  | nil => exact Py.trimmed_nil
  | append_singleton ws w =>
    have hw : Py.Trimmed Py.isSpace (Shlex.quote w) := Py.trimmed_concat.mpr rfl
    rw [quoteAll, List.map_append, List.map_singleton, Py.join_append_cons, List.flatMap_nil, List.append_nil]
    exact hw.append (Py.Shlex.quote_ne_nil w)

theorem quoteAll_cons (w : Str) (ws : List Str) : ∃ body, quoteAll (w :: ws) = '\'' :: body := by
  rw [quoteAll, List.map_cons, Py.join_cons]
  exact ⟨_, rfl⟩

theorem split_quoteAll (ws : List Str) : Shlex.split (quoteAll ws) = .ok ws :=
  Py.Shlex.split_join_quote ws

theorem commandText_eq {line text : Str} (hline : line = "// CMD: " ++ text) {c : Char} {body : Str}
    (htext : text = c :: body) (hc : Py.isSpace c = false) (htrim : Py.Trimmed Py.isSpace text) :
    isCommand line = true ∧ commandText line = text := by
  have hne : text ≠ [] := by
    rw [htext]
    exact List.cons_ne_nil c body
  have hstrip : Py.strip line = line := by
    rw [hline]
    exact strip_of_trimmed rfl (htrim.append (a := "// CMD: ") hne)
  refine ⟨?_, ?_⟩
  · rw [isCommand, hstrip, hline]
    rfl
  · rw [commandText, hstrip, hline]
    change Py.strip text = text
    rw [htext] at htrim ⊢
    exact strip_of_trimmed hc htrim

theorem parseEnvPart_entry {e : Str × Str} (he : '=' ∉ e.1) (d : Dict Str Str) :
    parseEnvPart d (e.1 ++ "=" ++ e.2) = d.set e.1 e.2 := by
  have happ : e.1 ++ "=" ++ e.2 = e.1 ++ '=' :: e.2 := List.append_assoc e.1 ['='] e.2
  have hname : ∀ c ∈ e.1, (c != '=') = true := fun c hc => bne_iff_ne.mpr fun h => he (h ▸ hc)
  rw [happ, parseEnvPart, if_pos (by simp), List.takeWhile_append_of_pos hname,
    List.dropWhile_append_of_pos hname]
  simp

theorem parseEnvStr_envWords {env : Dict Str Str} (h : ∀ e ∈ env.entries, '=' ∉ e.1) :
    parseEnvStr (envWords env) .empty = env := by
  have hfold : ∀ (es : List (Str × Str)) (d : Dict Str Str), (∀ e ∈ es, '=' ∉ e.1) →
      parseEnvStr (es.map fun e => e.1 ++ "=" ++ e.2) d = d.update es := by
    intro es
    induction es with
    | nil => exact fun d _ => rfl
    | cons e es ih =>
      intro d hes
      obtain ⟨he, hes⟩ := List.forall_mem_cons.mp hes
      have hstep := parseEnvPart_entry he d
      rw [List.map_cons, parseEnvStr, List.foldl_cons, hstep]
      exact ih (d.set e.1 e.2) hes
  rw [envWords, hfold _ _ h]
  exact Dict.eq_iff_entries_eq.mpr (Dict.ofList_entries_of_nodup env.nodup)

theorem parseParts_commandLine {config : RunConfig} (h : ∀ e ∈ config.env.entries, '=' ∉ e.1) :
    ["setup=" ++ quoteAll config.setup, "cleanup=" ++ quoteAll config.cleanup,
      "args=" ++ quoteAll config.args, "env=" ++ quoteAll (envWords config.env)].foldlM parsePart {} =
    .ok config := by
  have hsetup : parsePart {} ("setup=" ++ quoteAll config.setup) = .ok { setup := config.setup } := by
    change (Shlex.split (quoteAll config.setup)).map _ = _
    rw [split_quoteAll]
    rfl
  have hcleanup : ∀ cmd : RunConfig, cmd.cleanup = [] →
      parsePart cmd ("cleanup=" ++ quoteAll config.cleanup) = .ok { cmd with cleanup := config.cleanup } := by
    intro cmd hcmd
    change (Shlex.split (quoteAll config.cleanup)).map _ = _
    rw [split_quoteAll, hcmd]
    rfl
  have hargs : ∀ cmd : RunConfig, cmd.args = [] →
      parsePart cmd ("args=" ++ quoteAll config.args) = .ok { cmd with args := config.args } := by
    intro cmd hcmd
    change (Shlex.split (quoteAll config.args)).map _ = _
    rw [split_quoteAll, hcmd]
    rfl
  have henv : ∀ cmd : RunConfig, cmd.env = .empty →
      parsePart cmd ("env=" ++ quoteAll (envWords config.env)) = .ok { cmd with env := config.env } := by
    intro cmd hcmd
    change Except.ok { cmd with env := parseEnvText (quoteAll (envWords config.env)) cmd.env } = _
    rw [parseEnvText, split_quoteAll, hcmd]
    dsimp only
    rw [parseEnvStr_envWords h]
  simp only [List.foldlM_cons, List.foldlM_nil, hsetup, hcleanup, hargs, henv, bind, Except.bind]
  rfl

theorem parseLine_commandLine {config : RunConfig} (h : ∀ e ∈ config.env.entries, '=' ∉ e.1) :
    parseLine (commandLine config) = .ok (some config) := by
  obtain ⟨body, hbody⟩ := quoteAll_cons ("setup=" ++ quoteAll config.setup) _
  have hline : commandLine config = "// CMD: " ++ quoteAll _ := rfl
  obtain ⟨hcommand, htext⟩ := commandText_eq hline hbody rfl (trimmed_quoteAll _)
  rw [parseLine, if_pos hcommand, htext, split_quoteAll]
  change (List.foldlM parsePart _ _ >>= fun cmd => Except.ok (some cmd)) = _
  rw [parseParts_commandLine h]
  rfl

theorem NoBreaks.append {a b : Str} (ha : NoBreaks a) (hb : NoBreaks b) : NoBreaks (a ++ b) := by
  simp [NoBreaks, ha.1, ha.2, hb.1, hb.2]

theorem NoBreaks.quoteAll {ws : List Str} (h : ∀ w ∈ ws, NoBreaks w) : NoBreaks (quoteAll ws) := by
  have hnot : ∀ c, (∀ w ∈ ws, c ∉ w) → c ≠ ' ' → c ≠ '\'' → c ≠ '"' → c ∉ Tests.quoteAll ws := by
    intro c hws hblank hsingle hdouble hmem
    rcases Py.mem_join hmem with hmem | ⟨q, hq, hmem⟩
    · exact hblank (List.mem_singleton.mp hmem)
    · obtain ⟨w, hw, rfl⟩ := List.mem_map.mp hq
      rcases Py.Shlex.mem_quote hmem with hc | hc | hc
      · exact hsingle hc
      · exact hdouble hc
      · exact hws w hw hc
  exact ⟨hnot _ (fun w hw => (h w hw).1) (by decide) (by decide) (by decide),
    hnot _ (fun w hw => (h w hw).2) (by decide) (by decide) (by decide)⟩

theorem RunConfig.Writable.noBreaks {config : RunConfig} (h : config.Writable) :
    NoBreaks (commandLine config) := by
  have hwords := h.words
  simp only [List.forall_mem_append] at hwords
  obtain ⟨⟨hsetup, hcleanup⟩, hargs⟩ := hwords
  have henv : ∀ w ∈ envWords config.env, NoBreaks w := by
    intro w hw
    obtain ⟨e, he, rfl⟩ := List.mem_map.mp hw
    exact ((h.env e he).1.append ⟨by decide, by decide⟩).append (h.env e he).2
  refine NoBreaks.append ⟨by decide, by decide⟩ (.quoteAll ?_)
  simp only [List.forall_mem_cons, List.not_mem_nil, false_imp_iff, implies_true, and_true]
  exact ⟨.append ⟨by decide, by decide⟩ (.quoteAll hsetup), .append ⟨by decide, by decide⟩ (.quoteAll hcleanup),
    .append ⟨by decide, by decide⟩ (.quoteAll hargs), .append ⟨by decide, by decide⟩ (.quoteAll henv)⟩

end Words

-- ════════════════════════════════════════════════════════════════════════
-- Reading commands
-- ════════════════════════════════════════════════════════════════════════

/-- A line that `parse_runs` reads as what it was written from. -/
structure LineOk (l : RunConfig ⊕ Str) : Prop where
  command : ∀ config, l = .inl config → config.Writable
  other : ∀ line, l = .inr line → NoBreaks line ∧ isCommand line = false

theorem LineOk.noBreaks {l : RunConfig ⊕ Str} (h : LineOk l) : NoBreaks (renderLine l) := by
  cases l with
  | inl config => exact (h.command config rfl).noBreaks
  | inr line => exact (h.other line rfl).1

theorem LineOk.parseLine {l : RunConfig ⊕ Str} (h : LineOk l) :
    parseLine (renderLine l) = .ok l.getLeft? := by
  cases l with
  | inl config => exact parseLine_commandLine (h.command config rfl).keys
  | inr line =>
    rw [renderLine, Tests.parseLine, if_neg (by rw [(h.other line rfl).2]; decide)]
    rfl

def smallSource : List (RunConfig ⊕ Str) :=
  [.inr "#include <stdio.h>",
    .inl { args := ["it's", "\"two words\""], env := .ofList [("HOME", "/tmp/a b"), ("EMPTY", "")] },
    .inr "int main() \x7b return 0; \x7d"]

/-- The words whose values are split. The value of `env=` is too, but nothing is raised for it. -/
def splitsValue (p : Str) : Bool :=
  Py.startsWith p "setup=" || Py.startsWith p "cleanup=" || Py.startsWith p "args="

theorem exists_parsePart_iff (cmd : RunConfig) {p : Str} : (∃ cmd', parsePart cmd p = .ok cmd') ↔
    (splitsValue p = true → ∃ ws, Shlex.Splits (valueOf p) ws) := by
  have hmap : ∀ f : List Str → RunConfig, (∃ cmd', (Shlex.split (valueOf p)).map f = .ok cmd') ↔
      ∃ ws, Shlex.Splits (valueOf p) ws := by
    intro f
    simp only [Py.map_eq_ok_iff, Py.Shlex.split_eq_ok_iff]
    grind
  rw [parsePart, splitsValue]
  split_ifs with hsetup hcleanup hargs henv
  · simp only [hsetup, hmap, Bool.true_or, true_imp_iff]
  · simp only [hcleanup, hmap, Bool.or_true, Bool.true_or, true_imp_iff]
  · simp only [hargs, hmap, Bool.or_true, true_imp_iff]
  · refine iff_of_true ⟨_, rfl⟩ ?_
    simp only [hsetup, hcleanup, hargs, Bool.or_false, Bool.false_eq_true, false_imp_iff]
  · refine iff_of_true ⟨_, rfl⟩ ?_
    simp only [hsetup, hcleanup, hargs, Bool.or_false, Bool.false_eq_true, false_imp_iff]

theorem exists_parseParts_iff {parts : List Str} (cmd : RunConfig) :
    (∃ cmd', parts.foldlM parsePart cmd = .ok cmd') ↔
      ∀ p ∈ parts, splitsValue p = true → ∃ ws, Shlex.Splits (valueOf p) ws := by
  induction parts generalizing cmd with
  | nil => exact iff_of_true ⟨cmd, rfl⟩ nofun
  | cons p parts ih =>
    rw [List.forall_mem_cons, ← exists_parsePart_iff cmd]
    simp only [List.foldlM_cons, Py.bind_eq_ok_iff]
    constructor
    · rintro ⟨cmd', u, hu, h⟩
      exact ⟨⟨u, hu⟩, (ih u).mp ⟨cmd', h⟩⟩
    · rintro ⟨⟨u, hu⟩, h⟩
      obtain ⟨cmd', h⟩ := (ih u).mpr h
      exact ⟨cmd', u, hu, h⟩

/-- A command whose words, and whose values, are spelled as words of the shell are. -/
def WellSpelled (line : Str) : Prop :=
  ∃ parts, Shlex.Splits (commandText line) parts ∧
    ∀ p ∈ parts, splitsValue p = true → ∃ ws, Shlex.Splits (valueOf p) ws

theorem exists_parseLine_iff {line : Str} : (∃ run, parseLine line = .ok run) ↔
    (isCommand line = true → WellSpelled line) := by
  rw [parseLine]
  split
  · next hcommand =>
    simp only [Py.bind_eq_ok_iff, Py.Shlex.split_eq_ok_iff, hcommand, true_imp_iff, WellSpelled,
      ← exists_parseParts_iff {}]
    constructor
    · rintro ⟨run, parts, hparts, cmd, hcmd, -⟩
      exact ⟨parts, hparts, cmd, hcmd⟩
    · rintro ⟨parts, hparts, cmd, hcmd⟩
      exact ⟨some cmd, parts, hparts, cmd, hcmd, rfl⟩
  · next hcommand => exact iff_of_true ⟨none, rfl⟩ fun h => absurd h hcommand

/-- **Commands that are read**: `parse_runs` returns exactly if all commands of the file are well
spelled. -/
theorem parseRuns_ok_iff (text : Str) : (∃ runs, parseRuns (some text) = .ok runs) ↔
    ∀ line ∈ sourceLines text, isCommand line = true → WellSpelled line := by
  have hmap : (∃ runs, parseRuns (some text) = .ok runs) ↔
      ∃ runs, (sourceLines text).mapM parseLine = .ok runs := by
    simp only [parseRuns, Py.bind_eq_ok_iff]
    constructor
    · rintro ⟨_, runs, h, -⟩
      exact ⟨runs, h⟩
    · rintro ⟨runs, h⟩
      exact ⟨_, runs, h, rfl⟩
  rw [hmap]
  constructor
  · rintro ⟨runs, h⟩ line hline
    obtain ⟨i, hi⟩ := List.mem_iff_getElem?.mp hline
    obtain ⟨run, -, hrun⟩ := Py.mapM_ok_getElem? h hi
    exact exists_parseLine_iff.mp ⟨run, hrun⟩
  · intro h
    exact Py.mapM_exists_ok fun line hline => exists_parseLine_iff.mpr (h line hline)

end Wali.Tests
