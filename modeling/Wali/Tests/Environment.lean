import Wali.Tests.Runs
import Wali.Tests.Verdict

/-!
# The environment of a test

From the comment in the source of a test to the process under Wasm: `parse_runs` takes the variables
out of a `// CMD:` line, `run_test_case_execution` writes them into a file before it starts the engine,
and `test_init_env` reads the file inside.
-/

namespace Wali.Tests

open Py (Str Dict Shlex.split Shlex.Splits)
open Clib (newline)

-- ════════════════════════════════════════════════════════════════════════
-- From the source to the configuration
-- ════════════════════════════════════════════════════════════════════════

/-- An entry that can be written as one line and taken apart again. -/
structure CleanEntry (e : Str × Str) : Prop where
  key : '=' ∉ e.1
  newline : '\n' ∉ e.1 ++ "=" ++ e.2
  nul : '\x00' ∉ e.1 ++ "=" ++ e.2

/-- Neither the end of a line nor NUL. -/
def CleanText (s : Str) : Prop := '\n' ∉ s ∧ '\x00' ∉ s

theorem CleanText.of_subset {s t : Str} (h : CleanText s) (hsub : ∀ c ∈ t, c ∈ s) : CleanText t :=
  ⟨fun hc => h.1 (hsub _ hc), fun hc => h.2 (hsub _ hc)⟩

theorem CleanText.of_splits {s w : Str} {ws : List Str} (h : CleanText s) (hs : Shlex.split s = .ok ws)
    (hw : w ∈ ws) : CleanText w :=
  h.of_subset fun _ hc => (Py.Shlex.split_eq_ok_iff.mp hs).mem hw hc

theorem CleanText.valueOf {p : Str} (h : CleanText p) : CleanText (valueOf p) :=
  h.of_subset fun _ hc => (List.dropWhile_sublist _).subset (List.mem_of_mem_drop hc)

/-- The variables of a command are clean. -/
theorem cleanEntry_parsePart {cmd cmd' : RunConfig} {p : Str} (hp : CleanText p)
    (hcmd : ∀ e ∈ cmd.env.entries, CleanEntry e) (h : parsePart cmd p = .ok cmd') :
    ∀ e ∈ cmd'.env.entries, CleanEntry e := by
  rw [parsePart] at h
  split_ifs at h with hsetup hcleanup hargs henv
  · obtain ⟨ws, -, rfl⟩ := Py.map_eq_ok_iff.mp h
    exact hcmd
  · obtain ⟨ws, -, rfl⟩ := Py.map_eq_ok_iff.mp h
    exact hcmd
  · obtain ⟨ws, -, rfl⟩ := Py.map_eq_ok_iff.mp h
    exact hcmd
  · obtain rfl := Except.ok.inj h
    intro e he
    dsimp only at he
    rw [parseEnvText] at he
    split at he
    · next parts hparts =>
      rcases mem_parseEnvStr he with he | ⟨hkey, hmem⟩
      · exact hcmd e he
      · obtain ⟨hbreak, hnul⟩ := hp.valueOf.of_splits hparts hmem
        exact ⟨hkey, hbreak, hnul⟩
    · exact hcmd e he
  · obtain rfl := Except.ok.inj h
    exact hcmd

theorem cleanEntry_parseParts {parts : List Str} {cmd cmd' : RunConfig} (hparts : ∀ p ∈ parts, CleanText p)
    (hcmd : ∀ e ∈ cmd.env.entries, CleanEntry e) (h : parts.foldlM parsePart cmd = .ok cmd') :
    ∀ e ∈ cmd'.env.entries, CleanEntry e := by
  induction parts generalizing cmd with
  | nil => exact Except.ok.inj h ▸ hcmd
  | cons p parts ih =>
    obtain ⟨hp, hparts⟩ := List.forall_mem_cons.mp hparts
    obtain ⟨u, hu, h⟩ := Py.bind_eq_ok_iff.mp h
    exact ih hparts (cleanEntry_parsePart hp hcmd hu) h

theorem cleanEntry_parseLine {line : Str} {run : RunConfig} (hline : CleanText line)
    (h : parseLine line = .ok (some run)) : ∀ e ∈ run.env.entries, CleanEntry e := by
  rw [parseLine] at h
  split at h
  · obtain ⟨parts, hparts, h⟩ := Py.bind_eq_ok_iff.mp h
    obtain ⟨cmd, hcmd, h⟩ := Py.bind_eq_ok_iff.mp h
    obtain rfl : cmd = run := Option.some.inj (Except.ok.inj h)
    have htext : CleanText (commandText line) := hline.of_subset fun c hc =>
      (Py.infix_strip _).subset (List.mem_of_mem_drop ((Py.infix_strip _).subset hc))
    exact cleanEntry_parseParts (fun p hp => htext.of_splits hparts hp)
      (fun e he => absurd he List.not_mem_nil) hcmd
  · cases h

theorem mem_universalNewlines {s : Str} {c : Char} (h : c ∈ universalNewlines s) : c = '\n' ∨ c ∈ s := by
  fun_induction universalNewlines s with
  | case1 => cases h
  | case2 s ih | case3 s _ ih | case4 d s _ _ ih =>
    simp only [List.mem_cons] at h ⊢
    tauto

theorem cleanText_of_mem_sourceLines {text line : Str} (hnul : '\x00' ∉ text)
    (hline : line ∈ sourceLines text) : CleanText line := by
  obtain ⟨hbreak, hsub⟩ := Py.mem_splitOn hline
  refine ⟨hbreak, fun hc => ?_⟩
  rcases mem_universalNewlines (hsub _ hc) with hc | hc
  · cases hc
  · exact hnul hc

/-- A source without NUL has clean variables only. -/
theorem cleanEntry_parseRuns {text : Str} {runs : List RunConfig} (hnul : '\x00' ∉ text)
    (h : parseRuns (some text) = .ok runs) {config : RunConfig} (hconfig : config ∈ runs) :
    ∀ e ∈ config.env.entries, CleanEntry e := by
  obtain ⟨found, hfound, h⟩ := Py.bind_eq_ok_iff.mp h
  obtain rfl := Except.ok.inj h
  split at hconfig
  · rw [List.mem_singleton.mp hconfig]
    exact fun e he => absurd he List.not_mem_nil
  · obtain ⟨run, hrun, hid⟩ := List.mem_filterMap.mp hconfig
    obtain ⟨i, hi⟩ := List.mem_iff_getElem?.mp hrun
    obtain ⟨line, hline, hparse⟩ := Py.mapM_ok_getElem?_inv hfound hi
    obtain rfl : run = some config := hid
    exact cleanEntry_parseLine (cleanText_of_mem_sourceLines hnul (List.mem_of_getElem? hline)) hparse

-- ════════════════════════════════════════════════════════════════════════
-- From the configuration to the file
-- ════════════════════════════════════════════════════════════════════════

/-- The content of a file after one action. -/
def Event.content (path : Str) (content : Option Str) : Event → Option Str
  | .writeEnv p text => if p = path then some text else content
  | .removeEnv p => if p = path then none else content
  | _ => content

/-- The content of an env file. -/
def contentAfter (events : List Event) (path : Str) : Option Str := events.foldl (Event.content path) none

def Event.isWasmTest : Event → Bool
  | .test .wasm _ _ _ _ => true
  | _ => false

/-- What is in front of the only element of a kind. -/
theorem before_eq_of_unique {α : Type} {p : α → Bool} {front rest before after : List α} {x e : α}
    (hfront : ∀ y ∈ front, p y = false) (hrest : ∀ y ∈ rest, p y = false) (he : p e = true)
    (heq : before ++ e :: after = front ++ x :: rest) : before = front := by
  have hnot : ∀ {ys : List α}, (∀ y ∈ ys, p y = false) → e ∉ ys := by
    intro ys hys hmem
    rw [hys e hmem] at he
    cases he
  rcases List.append_eq_append_iff.mp heq with ⟨a, hf, ha⟩ | ⟨a, hb, ha⟩
  · cases a with
    | nil => rw [hf, List.append_nil]
    | cons y a =>
      obtain ⟨rfl, -⟩ := List.cons.inj ha
      exact absurd (hf ▸ List.mem_append_right _ List.mem_cons_self) (hnot hfront)
  · cases a with
    | nil => rw [hb, List.append_nil]
    | cons y a =>
      obtain ⟨-, hr⟩ := List.cons.inj ha
      exact absurd (hr ▸ List.mem_append_right _ List.mem_cons_self) (hnot hrest)

/-- A Wasm process is the first action of its phase. -/
theorem PhaseRun.eq_cons {args : List Str} {hooks : Option Str}
    {run : List Event × Except Crash PhaseEnd} (h : PhaseRun .wasm args hooks run) :
    ∃ e rest, run.1 = e :: rest ∧ ∀ y ∈ rest, y.isWasmTest = false := by
  cases h <;> exact ⟨_, _, rfl, by simp [Event.isWasmTest]⟩

theorem PhaseRun.not_isWasmTest {args : List Str} {hooks : Option Str}
    {run : List Event × Except Crash PhaseEnd} (h : PhaseRun .native args hooks run) :
    ∀ e ∈ run.1, e.isWasmTest = false := by
  cases h <;> simp [Event.isWasmTest]

/-- When the Wasm process of a call starts, the env file is as it was written for the call. -/
theorem CaseRun.content {c : Case} {events before after : List Event} {res : Except Crash (Bool × ResultData)}
    {e : Event} (h : CaseRun c events res) (heq : events = before ++ e :: after)
    (he : e.isWasmTest = true) (past : List Event) :
    contentAfter (past ++ before) c.envFilePath = some c.envFileContent := by
  have hwritten : ∀ {native tail : List Event}, (∀ y ∈ native, y.isWasmTest = false) →
      (∃ x rest, tail = x :: rest ∧ ∀ y ∈ rest, y.isWasmTest = false) →
      before ++ e :: after = native ++ .writeEnv c.envFilePath c.envFileContent :: tail →
      contentAfter (past ++ before) c.envFilePath = some c.envFileContent := by
    rintro native tail hnative ⟨x, rest, rfl, hrest⟩ heq
    have hsplit : before ++ e :: after =
        native ++ [.writeEnv c.envFilePath c.envFileContent] ++ x :: rest := by
      rw [heq, List.append_assoc]
      rfl
    have hfront : ∀ y ∈ native ++ [.writeEnv c.envFilePath c.envFileContent], y.isWasmTest = false :=
      List.forall_mem_append.mpr ⟨hnative, List.forall_mem_singleton.mpr rfl⟩
    have hbefore := before_eq_of_unique hfront hrest he hsplit
    rw [hbefore, ← List.append_assoc, contentAfter, List.foldl_append]
    exact if_pos rfl
  cases h with
  | missing => exact absurd heq (by simp)
  | stopped hnative =>
    rw [hnative.not_isWasmTest e (heq ▸ List.mem_append_right _ List.mem_cons_self)] at he
    cases he
  | left hnative _ hwasm => exact hwritten hnative.not_isWasmTest hwasm.eq_cons heq.symm
  | finished hnative _ hwasm =>
    obtain ⟨x, rest, hcons, hrest⟩ := hwasm.eq_cons
    refine hwritten hnative.not_isWasmTest ⟨x, rest ++ [.removeEnv c.envFilePath], ?_, ?_⟩ heq.symm
    · rw [hcons, List.cons_append]
    · exact List.forall_mem_append.mpr ⟨hrest, List.forall_mem_singleton.mpr rfl⟩

-- ════════════════════════════════════════════════════════════════════════
-- Whole runs
-- ════════════════════════════════════════════════════════════════════════

section Runs

variable {host : Host}

/-- What every turn of a loop keeps, the loop keeps. -/
theorem forEach_forall {α β : Type} {P : Call → Prop} {body : α → List Call → Except Crash β × List Call}
    {xs : List α} (hbody : ∀ x ∈ xs, ∀ log, (∀ call ∈ log, P call) → ∀ call ∈ (body x log).2, P call)
    {log : List Call} (hlog : ∀ call ∈ log, P call) : ∀ call ∈ (forEach body xs log).2, P call := by
  induction xs generalizing log with
  | nil => exact hlog
  | cons x xs ih =>
    obtain ⟨hx, hxs⟩ := List.forall_mem_cons.mp hbody
    have hlog' := hx log hlog
    rw [forEach]
    generalize body x log = res at hlog' ⊢
    obtain ⟨res, log'⟩ := res
    cases res with
    | error e => exact hlog'
    | ok y =>
      have hrest := ih hxs hlog'
      dsimp only
      generalize forEach body xs log' = res at hrest ⊢
      obtain ⟨res, log''⟩ := res
      cases res <;> exact hrest

/-- A call is made for one of the runs of its test, and does what the function does. -/
structure Call.Made (host : Host) (call : Call) : Prop where
  config : call.case.config ∈ host.parseRuns ("unit/" ++ call.case.baseName ++ ".c")
  ended : CaseRun call.case call.events call.result

theorem made_of_mem {tests : List Str} {engines : List Engine} {verbose : Bool} {call : Call}
    (hcall : call ∈ (runTests host tests engines verbose).2) : call.Made host := by
  have hcase : ∀ (baseName : Str) (engine : Engine) (run : RunConfig × ℕ),
      run ∈ (host.parseRuns ("unit/" ++ baseName ++ ".c")).zipIdx → ∀ log, (∀ call ∈ log, Call.Made host call) →
      ∀ call ∈ (runCase host ⟨baseName, run.1, engine, verbose, run.2⟩ log).2, call.Made host := by
    intro baseName engine run hrun log hlog
    refine List.forall_mem_append.mpr ⟨hlog, List.forall_mem_singleton.mpr ⟨?_, ?_⟩⟩
    · exact List.mem_of_getElem? (List.mem_zipIdx_iff_getElem?.mp hrun)
    · exact runTestCaseExecution_run host (history log) _
  refine forEach_forall (fun testPath _ log hlog => ?_) nofun call hcall
  refine forEach_forall (fun engine _ log hlog => ?_) hlog
  exact forEach_forall (fun run hrun log hlog => hcase _ engine run hrun log hlog) hlog

/-- **The environment arrives**: in any run of the tests, whatever outcomes the processes have, a Wasm
process finds exactly the variables of its `// CMD:` line in the env file. Only the runner changes that
file: in the model a process has an outcome and no other effect. -/
theorem env_arrives {tests : List Str} {engines : List Engine} {verbose : Bool} {source : Str → Str}
    (hsource : ∀ path, parseRuns (some (source path)) = .ok (host.parseRuns path))
    (hnul : ∀ path, '\x00' ∉ source path) {call : Call}
    (hcall : call ∈ (runTests host tests engines verbose).2)
    (hshort : ∀ e ∈ call.case.config.env.entries, (entryBytes e).length ≤ 1021)
    {before after : List Event} {e : Event} (heq : call.events = before ++ e :: after)
    (he : e.isWasmTest = true) :
    testInitEnv true ((contentAfter (call.past ++ before) call.case.envFilePath).map utf8) =
        (call.case.config.env.entries.map entryBytes, 0) ∧
      ∀ v ∈ call.case.config.env.entries, assignment (entryBytes v) = (utf8 v.1, utf8 v.2) := by
  have hmade := made_of_mem hcall
  have hclean := cleanEntry_parseRuns (hnul _) (hsource _) hmade.config
  refine ⟨?_, fun v hv => assignment_entryBytes (hclean v hv).key⟩
  rw [hmade.ended.content heq he call.past]
  change envLoop (utf8 call.case.envFileContent) = _
  rw [utf8_envFileContent]
  have hlines : ∀ l ∈ call.case.config.env.entries.map entryBytes, newline ∉ l ∧ 0 ∉ l := by
    intro l hl
    obtain ⟨v, hv, rfl⟩ := List.mem_map.mp hl
    exact ⟨not_mem_utf8 (c := '\n') rfl (by decide) (hclean v hv).newline,
      not_mem_utf8 (c := '\x00') rfl (by decide) (hclean v hv).nul⟩
  have hread := envLoop_lines hlines (List.forall_mem_map.mpr hshort) []
  rwa [List.append_nil, envLoop_nil, List.append_nil] at hread

/-- A test without hooks, with one variable. -/
def envHost : Host where
  environ := .empty
  fileExists _ path := !Py.endsWith path "_hooks"
  parseRuns _ := [{ env := .ofList [("MODE", "fast")] }]
  test _ _ := .exited 0 (some [])
  cleanup _ _ := (0, [])

theorem env_arrives_mode : ∃ call ∈ (runTests envHost ["unit/env"] [iwasm] false).2, ∃ before e after,
    call.events = before ++ e :: after ∧ e.isWasmTest = true ∧
      testInitEnv true ((contentAfter (call.past ++ before) call.case.envFilePath).map utf8) =
        ([utf8 "MODE=fast"], 0) := by
  have hsource : ∀ path, parseRuns (some "// CMD: env=\"MODE=fast\"") = .ok (envHost.parseRuns path) :=
    fun _ => rfl
  let call := makeCall envHost [] ⟨"env", { env := .ofList [("MODE", "fast")] }, iwasm, false, 0⟩
  have hcall : call ∈ (runTests envHost ["unit/env"] [iwasm] false).2 := List.mem_singleton_self call
  obtain ⟨native, written, wasm, removed, heq, he⟩ : ∃ native written wasm removed,
      call.events = [native, written] ++ wasm :: [removed] ∧ wasm.isWasmTest = true :=
    ⟨_, _, _, _, rfl, rfl⟩
  have hshort : ∀ e ∈ call.case.config.env.entries, (entryBytes e).length ≤ 1021 :=
    List.forall_mem_singleton.mpr (by decide +kernel)
  have htext : '\x00' ∉ ("// CMD: env=\"MODE=fast\"" : Str) := by decide
  exact ⟨call, hcall, _, wasm, _, heq, he, (env_arrives hsource (fun _ => htext) hcall hshort heq he).1⟩

end Runs

end Wali.Tests
