import Wali.Tests.Runner
import Mathlib.Logic.Relation

/-!
# Fixtures are torn down

Every call of `run_test_case_execution` should clean up after itself. Which calls do is decided by
the outcomes of their processes: `tornDown_iff_harmless` for one call, `runTests_tornDown_iff` for
a whole run, which is a sequence of calls.
-/

namespace Wali.Tests

open Py (Str Dict)

/-- An invocation of a hooks binary. -/
inductive HookCall where
  | setup (hooks : Str)
  | cleanup (hooks : Str) (args : List Str)
  deriving DecidableEq, Repr

def HookCall.isCleanup : HookCall → Bool
  | .setup _ => false
  | .cleanup _ _ => true

def Event.hookCall? : Event → Option HookCall
  | .test _ hooks _ _ _ => hooks.map .setup
  | .cleanup _ hooks args _ _ => some (.cleanup hooks args)
  | .writeEnv _ _ | .removeEnv _ => none

/-- After each setup there is exactly one cleanup, with the given arguments, up to the next setup
or the end. -/
def Paired (args : List Str) (calls : List HookCall) : Prop :=
  ∀ before hooks after, calls = before ++ .setup hooks :: after →
    after.takeWhile HookCall.isCleanup = [.cleanup hooks args]

/-- What a call should leave behind: no fixture, and no env file. -/
structure Call.TornDown (call : Call) : Prop where
  fixtures : Paired call.case.config.cleanupArgs (call.events.filterMap Event.hookCall?)
  envFile : ∀ path content, .writeEnv path content ∈ call.events →
    path ∉ filesAfter (call.past ++ call.events)

/-- The process ended by itself and its output could be decoded. -/
def Outcome.isDecoded : Outcome → Bool
  | .exited _ output => output.isSome
  | .timedOut => false

/-- The outcomes after which nothing is left behind. -/
def Event.isHarmless : Event → Bool
  | .test .native hooks _ _ outcome => hooks.isNone || outcome.isDecoded
  | .test .wasm _ _ _ outcome => outcome.isDecoded
  | .cleanup .native _ _ _ _ => true
  | .cleanup .wasm _ _ code _ => code == 0
  | .writeEnv _ _ | .removeEnv _ => true

def Call.Harmless (call : Call) : Prop := ∀ e ∈ call.events, e.isHarmless = true

-- ════════════════════════════════════════════════════════════════════════
-- Invocations of the hooks
-- ════════════════════════════════════════════════════════════════════════

section Paired

variable {args : List Str} {hooks : Str} {calls : List HookCall}

@[simp] theorem paired_nil : Paired args [] := by
  intro before hooks after h
  simp at h

@[simp] theorem paired_setup : Paired args (.setup hooks :: calls) ↔
    calls.takeWhile HookCall.isCleanup = [.cleanup hooks args] ∧ Paired args calls := by
  constructor
  · intro h
    refine ⟨h [] hooks calls rfl, fun before hooks' after he => ?_⟩
    exact h (.setup hooks :: before) hooks' after (by rw [he, List.cons_append])
  · rintro ⟨hfirst, h⟩ before hooks' after he
    cases before with
    | nil =>
      obtain ⟨hhooks, rfl⟩ := List.cons.inj he
      obtain rfl := HookCall.setup.inj hhooks
      exact hfirst
    | cons c before => exact h before hooks' after (List.cons.inj he).2

@[simp] theorem paired_cleanup {args' : List Str} :
    Paired args (.cleanup hooks args' :: calls) ↔ Paired args calls := by
  constructor
  · intro h before hooks' after he
    exact h (.cleanup hooks args' :: before) hooks' after (by rw [he, List.cons_append])
  · intro h before hooks' after he
    cases before with
    | nil => cases (List.cons.inj he).1
    | cons c before => exact h before hooks' after (List.cons.inj he).2

end Paired

-- ════════════════════════════════════════════════════════════════════════
-- One phase
-- ════════════════════════════════════════════════════════════════════════

variable {host : Host} {past : List Event} {phase : Phase} {hooks : Option Str}
  {config : RunConfig} {cmd : List Str}

/-- What a phase can do: without an outcome there is no cleanup. -/
inductive PhaseRun (phase : Phase) (args : List Str) : Option Str →
    List Event × Except Crash PhaseEnd → Prop where
  | lost (hooks : Option Str) {argv : List Str} {env : Dict Str Str} {outcome : Outcome}
      {res : Except Crash PhaseEnd} (hlost : outcome.isDecoded = false)
      (hres : ∀ code output, res ≠ .ok (.done code output)) :
      PhaseRun phase args hooks ([.test phase hooks argv env outcome], res)
  | bare {argv : List Str} {env : Dict Str Str} {code : ℤ} {output : Str} :
      PhaseRun phase args none
        ([.test phase none argv env (.exited code (some output))], .ok (.done code output))
  | cleaned {hooks : Str} {argv : List Str} {env : Dict Str Str} {code : ℤ} {output message : Str} :
      PhaseRun phase args (some hooks)
        ([.test phase (some hooks) argv env (.exited code (some output)),
          .cleanup phase hooks args 0 message], .ok (.done code output))
  | failed {hooks : Str} {argv : List Str} {env : Dict Str Str} {outcome : Outcome} {code : ℤ}
      {message reason text : Str} (hdecoded : outcome.isDecoded = true) (hcode : code ≠ 0) :
      PhaseRun phase args (some hooks)
        ([.test phase (some hooks) argv env outcome, .cleanup phase hooks args code message],
          .ok (.stopped reason text))

theorem runPhase_run (host : Host) (past : List Event) (phase : Phase) (hooks : Option Str)
    (config : RunConfig) (cmd : List Str) :
    PhaseRun phase config.cleanupArgs hooks (runPhase host past phase hooks config cmd) := by
  unfold runPhase
  dsimp only
  cases host.test past (launch hooks config.setup cmd) with
  | timedOut => exact .lost hooks rfl fun _ _ h => by cases h
  | exited code output =>
    cases output with
    | none => exact .lost hooks rfl fun _ _ h => by cases h
    | some output =>
      cases hooks with
      | none => exact .bare
      | some hooks =>
        dsimp only
        generalize host.cleanup _ _ = res
        obtain ⟨code', message⟩ := res
        by_cases hcode : code' = 0
        · subst code'
          exact .cleaned
        · rw [if_neg hcode]
          exact .failed rfl hcode

section PhaseRun

variable {args : List Str} {run : List Event × Except Crash PhaseEnd}

def IsDone (res : Except Crash PhaseEnd) : Prop := ∃ code output, res = .ok (.done code output)

/-- A phase writes and removes no env file. -/
theorem PhaseRun.files (h : PhaseRun phase args hooks run) (files : List Str) :
    run.1.foldl Event.files files = files := by
  cases h <;> rfl

theorem PhaseRun.not_mem_writeEnv (h : PhaseRun phase args hooks run) (path content : Str) :
    .writeEnv path content ∉ run.1 := by
  cases h <;> simp

/-- A phase that is done has invoked no hooks, or set up and cleaned up. -/
theorem PhaseRun.hookCalls (h : PhaseRun phase args hooks run) (hdone : IsDone run.2) :
    run.1.filterMap Event.hookCall? =
      hooks.elim [] fun hooks => [.setup hooks, .cleanup hooks args] := by
  obtain ⟨code, output, hdone⟩ := hdone
  cases h with
  | lost _ _ hres => exact absurd hdone (hres code output)
  | bare => rfl
  | cleaned => rfl
  | failed => cases hdone

theorem PhaseRun.harmless (h : PhaseRun phase args hooks run) (hdone : IsDone run.2) :
    ∀ e ∈ run.1, e.isHarmless = true := by
  obtain ⟨code, output, hdone⟩ := hdone
  cases h with
  | lost _ _ hres => exact absurd hdone (hres code output)
  | bare => cases phase <;> simp [Event.isHarmless, Outcome.isDecoded]
  | cleaned => cases phase <;> simp [Event.isHarmless, Outcome.isDecoded]
  | failed => cases hdone

/-- A Wasm phase that is not done has an outcome that does harm. -/
theorem PhaseRun.harm (h : PhaseRun .wasm args hooks run) (hstop : ¬ IsDone run.2) :
    ¬ ∀ e ∈ run.1, e.isHarmless = true := by
  cases h with
  | lost _ hlost _ => simp [Event.isHarmless, hlost]
  | bare => exact absurd ⟨_, _, rfl⟩ hstop
  | cleaned => exact absurd ⟨_, _, rfl⟩ hstop
  | failed _ hcode => simp [Event.isHarmless, hcode]

/-- A native phase that is not done cleans up unless its outcome does harm. -/
theorem PhaseRun.paired_iff (h : PhaseRun .native args hooks run) (hstop : ¬ IsDone run.2) :
    Paired args (run.1.filterMap Event.hookCall?) ↔ ∀ e ∈ run.1, e.isHarmless = true := by
  cases h with
  | lost _ hlost _ =>
    cases hooks with
    | none => exact iff_of_true paired_nil (by simp [Event.isHarmless])
    | some hooks => simp [Event.hookCall?, Event.isHarmless, hlost]
  | bare => exact absurd ⟨_, _, rfl⟩ hstop
  | cleaned => exact absurd ⟨_, _, rfl⟩ hstop
  | failed hdecoded _ => simp [Event.hookCall?, Event.isHarmless, hdecoded, HookCall.isCleanup]

end PhaseRun

-- ════════════════════════════════════════════════════════════════════════
-- One call
-- ════════════════════════════════════════════════════════════════════════

theorem filesAfter_append (past events : List Event) :
    filesAfter (past ++ events) = events.foldl Event.files (filesAfter past) :=
  List.foldl_append ..

/-- What a call can do, and what it returns or raises. -/
inductive CaseRun (c : Case) : List Event → Except Crash (Bool × ResultData) → Prop where
  | missing {data : ResultData} : CaseRun c [] (.ok (false, data))
  | stopped {hooks : Option Str} {native : List Event × Except Crash PhaseEnd}
      {res : Except Crash (Bool × ResultData)}
      (hnative : PhaseRun .native c.config.cleanupArgs hooks native) (hstop : ¬ IsDone native.2)
      (hres : ∀ data, res ≠ .ok (true, data)) : CaseRun c native.1 res
  | left {hooks : Option Str} {native wasm : List Event × Except Crash PhaseEnd} {code : ℤ} {output : Str}
      {res : Except Crash (Bool × ResultData)}
      (hnative : PhaseRun .native c.config.cleanupArgs hooks native)
      (hdone : native.2 = .ok (.done code output))
      (hwasm : PhaseRun .wasm c.config.cleanupArgs hooks wasm) (hstop : ¬ IsDone wasm.2)
      (hres : ∀ data, res ≠ .ok (true, data)) :
      CaseRun c (native.1 ++ .writeEnv c.envFilePath c.envFileContent :: wasm.1) res
  | finished {hooks : Option Str} {native wasm : List Event × Except Crash PhaseEnd} {code code' : ℤ}
      {output output' : Str} {passed : Bool} {data : ResultData}
      (hnative : PhaseRun .native c.config.cleanupArgs hooks native)
      (hdone : native.2 = .ok (.done code output))
      (hwasm : PhaseRun .wasm c.config.cleanupArgs hooks wasm)
      (hdone' : wasm.2 = .ok (.done code' output')) (hpassed : passed = true ↔ code = code') :
      CaseRun c (native.1 ++ .writeEnv c.envFilePath c.envFileContent ::
        (wasm.1 ++ [.removeEnv c.envFilePath])) (.ok (passed, data))

/-- The env file is there from its writing on. -/
theorem mem_filesAfter_written {c : Case} {native wasm : List Event × Except Crash PhaseEnd}
    (hwasm : PhaseRun .wasm c.config.cleanupArgs hooks wasm) :
    c.envFilePath ∈ filesAfter (past ++
      (native.1 ++ .writeEnv c.envFilePath c.envFileContent :: wasm.1)) := by
  rw [← List.append_assoc, filesAfter_append, List.foldl_cons, hwasm.files]
  exact List.mem_cons_self

theorem runTestCaseExecution_run (host : Host) (past : List Event) (c : Case) :
    CaseRun c (runTestCaseExecution host past c).1 (runTestCaseExecution host past c).2 := by
  unfold runTestCaseExecution
  split
  · exact .missing
  · dsimp only
    generalize (if host.fileExists past c.hooksBin = true then some c.hooksBin else none) = hooks
    have hnative := runPhase_run host past .native hooks c.config c.nativeCmd
    generalize runPhase host past .native hooks c.config c.nativeCmd = native at hnative ⊢
    split
    · next h => exact .stopped hnative (fun ⟨_, _, hd⟩ => by rw [hd] at h; cases h) nofun
    · next h => exact .stopped hnative (fun ⟨_, _, hd⟩ => by rw [hd] at h; cases h) nofun
    · next nativeCode nativeOut hdone =>
      have hwasm := runPhase_run host
        (past ++ (native.1 ++ [.writeEnv c.envFilePath c.envFileContent])) .wasm hooks c.config c.iwasmCmd
      generalize runPhase host _ .wasm hooks c.config c.iwasmCmd = wasm at hwasm ⊢
      rw [List.append_assoc native.1, List.singleton_append]
      split
      · next h => exact .left hnative hdone hwasm (fun ⟨_, _, hd⟩ => by rw [hd] at h; cases h) nofun
      · next h => exact .left hnative hdone hwasm (fun ⟨_, _, hd⟩ => by rw [hd] at h; cases h) nofun
      · next hdone' =>
        rw [if_pos (List.contains_iff_mem.mpr (mem_filesAfter_written hwasm)), List.append_assoc,
          List.cons_append]
        split
        · next hne => exact .finished hnative hdone hwasm hdone' (iff_of_false nofun hne)
        · next heq => exact .finished hnative hdone hwasm hdone' (iff_of_true rfl (not_not.mp heq))

/-- **One call** cleans up exactly if its processes end in a harmless way. -/
theorem tornDown_iff_harmless (host : Host) (log : List Call) (c : Case) :
    (makeCall host log c).TornDown ↔ (makeCall host log c).Harmless := by
  have hrun := runTestCaseExecution_run host (history log) c
  unfold makeCall
  generalize runTestCaseExecution host (history log) c = res at hrun ⊢
  obtain ⟨events, result⟩ := res
  dsimp only at hrun ⊢
  cases hrun with
  | missing => exact iff_of_true ⟨paired_nil, fun _ _ h => by cases h⟩ fun _ h => by cases h
  | stopped hnative hstop =>
    refine ⟨fun h => (hnative.paired_iff hstop).mp h.fixtures, fun h => ⟨?_, fun _ _ hw => ?_⟩⟩
    · exact (hnative.paired_iff hstop).mpr h
    · exact absurd hw (hnative.not_mem_writeEnv _ _)
  | left hnative _ hwasm hstop =>
    refine iff_of_false (fun h => ?_) fun h => hwasm.harm hstop fun e he => ?_
    · exact h.envFile _ c.envFileContent (by simp) (mem_filesAfter_written hwasm)
    · exact h e (List.mem_append_right _ (List.mem_cons_of_mem _ he))
  | @finished hooks _ _ _ _ _ _ _ _ hnative hdone hwasm hdone' =>
    refine iff_of_true ⟨?_, fun path content hwrite => ?_⟩ fun e he => ?_
    · have hnone : (Event.writeEnv c.envFilePath c.envFileContent).hookCall? = none := rfl
      rw [List.filterMap_append, List.filterMap_cons_none hnone, List.filterMap_append,
        hnative.hookCalls ⟨_, _, hdone⟩, hwasm.hookCalls ⟨_, _, hdone'⟩]
      cases hooks with
      | none => exact paired_nil
      | some hooks =>
        change Paired _ [.setup hooks, .cleanup hooks _, .setup hooks, .cleanup hooks _]
        simp only [paired_setup, paired_cleanup, paired_nil, and_true]
        exact ⟨rfl, rfl⟩
    · simp only [List.mem_append, List.mem_cons, List.not_mem_nil, hnative.not_mem_writeEnv,
        hwasm.not_mem_writeEnv, or_false, false_or, reduceCtorEq, Event.writeEnv.injEq] at hwrite
      rw [← List.cons_append, ← List.append_assoc, ← List.append_assoc, filesAfter_append, hwrite.1]
      simp [Event.files]
    · simp only [List.mem_append, List.mem_cons, List.not_mem_nil, or_false] at he
      rcases he with he | rfl | he | rfl
      · exact hnative.harmless ⟨_, _, hdone⟩ e he
      · rfl
      · exact hwasm.harmless ⟨_, _, hdone'⟩ e he
      · rfl

-- ════════════════════════════════════════════════════════════════════════
-- Whole runs
-- ════════════════════════════════════════════════════════════════════════

/-- The log grows by one call. -/
def CallStep (host : Host) (log log' : List Call) : Prop := ∃ c, log' = log ++ [makeCall host log c]

/-- Zero or more calls. -/
abbrev Calls (host : Host) : List Call → List Call → Prop := Relation.ReflTransGen (CallStep host)

/-- A loop over a body that makes calls makes calls. -/
theorem forEach_calls {α β : Type} {body : α → List Call → Except Crash β × List Call}
    (hbody : ∀ x log, Calls host log (body x log).2) (xs : List α) (log : List Call) :
    Calls host log (forEach body xs log).2 := by
  induction xs generalizing log with
  | nil => exact .refl
  | cons x xs ih =>
    have hx := hbody x log
    rw [forEach]
    cases hb : body x log with
    | mk res log' =>
    rw [hb] at hx
    cases res with
    | error e => exact hx
    | ok y =>
      have hxs := hx.trans (ih log')
      dsimp only
      cases hr : forEach body xs log' with
      | mk res log'' =>
      rw [hr] at hxs
      cases res with
      | error e => exact hxs
      | ok ys => exact hxs

theorem runEngine_calls (host : Host) (baseName : Str) (runs : List RunConfig) (verbose : Bool)
    (engine : Engine) (log : List Call) :
    Calls host log (runEngine host baseName runs verbose engine log).2 :=
  forEach_calls (fun _ _ => Relation.ReflTransGen.single ⟨_, rfl⟩) runs.zipIdx log

theorem runTestSuite_calls (host : Host) (engines : List Engine) (verbose : Bool) (testPath : Str)
    (log : List Call) : Calls host log (runTestSuite host engines verbose testPath log).2 :=
  forEach_calls (runEngine_calls host _ _ verbose) engines log

theorem runTests_calls (host : Host) (tests : List Str) (engines : List Engine) (verbose : Bool) :
    Calls host [] (runTests host tests engines verbose).2 :=
  forEach_calls (runTestSuite_calls host engines verbose) tests []

/-- What holds of every call that can be made holds of all calls of a run. -/
theorem Calls.forall {P : Call → Prop} (hP : ∀ log c, P (makeCall host log c)) {log log' : List Call}
    (h : Calls host log log') (hlog : ∀ call ∈ log, P call) : ∀ call ∈ log', P call := by
  induction h with
  | refl => exact hlog
  | tail _ hstep ih =>
    obtain ⟨c, rfl⟩ := hstep
    intro call hcall
    rcases List.mem_append.mp hcall with hcall | hcall
    · exact ih call hcall
    · rw [List.mem_singleton.mp hcall]
      exact hP _ c

theorem tornDown_iff_of_mem {host : Host} {tests : List Str} {engines : List Engine} {verbose : Bool}
    {call : Call} (hcall : call ∈ (runTests host tests engines verbose).2) :
    call.TornDown ↔ call.Harmless :=
  (runTests_calls host tests engines verbose).forall (P := fun call => call.TornDown ↔ call.Harmless)
    (tornDown_iff_harmless host) (fun _ h => by cases h) call hcall

/-- **Fixtures**: over a whole run, every call cleans up exactly if no native process behind hooks
and no Wasm process is lost, and no cleanup after a Wasm process fails. -/
theorem runTests_tornDown_iff (host : Host) (tests : List Str) (engines : List Engine)
    (verbose : Bool) :
    (∀ call ∈ (runTests host tests engines verbose).2, call.TornDown) ↔
      ∀ call ∈ (runTests host tests engines verbose).2, call.Harmless :=
  forall₂_congr fun _ hcall => tornDown_iff_of_mem hcall

/-- A host with one test that has hooks: the outcomes of the native and of the Wasm process, and
the exit code of the cleanup after the latter. -/
def chmodHost (native wasm : Outcome) (code : ℤ) : Host where
  environ := .empty
  fileExists _ _ := true
  parseRuns _ := [{ setup := ["0644"] }]
  test past _ := if past.length = 0 then native else wasm
  cleanup past _ := (if past.length = 1 then 0 else code, "")

/-- The engine as shipped. -/
def iwasm : Engine where
  name := "iwasm"
  command := some (.inl "../iwasm")
  args := some ["{verbose_arg}", "--env-file={env_file}", "{wasm_file}"]
  verboseArg := some ("-v=5" : Str)

/-- The calls of the only test. -/
def chmodLog (native wasm : Outcome) (code : ℤ) : List Call :=
  (runTests (chmodHost native wasm code) ["unit/chmod"] [iwasm] false).2

theorem chmodLog_not_tornDown {native wasm : Outcome} {code : ℤ}
    (h : (chmodLog native wasm code).any (fun call => call.events.any fun e => !e.isHarmless) = true) :
    ¬ ∀ call ∈ chmodLog native wasm code, call.TornDown := by
  intro hall
  obtain ⟨call, hcall, h⟩ := List.any_eq_true.mp h
  obtain ⟨e, he, h⟩ := List.any_eq_true.mp h
  rw [(tornDown_iff_of_mem hcall).mp (hall call hcall) e he] at h
  cases h

/-- A native process that times out leaves its fixture; a Wasm process that does leaves its env
file as well; a cleanup that fails after the Wasm process leaves the env file. -/
theorem runTests_leaks :
    ((history (chmodLog .timedOut (.exited 0 (some [])) 0)).filterMap Event.hookCall? =
        [.setup "bin/unit/elf/chmod_hooks"] ∧
      ¬ ∀ call ∈ chmodLog .timedOut (.exited 0 (some [])) 0, call.TornDown) ∧
    ((history (chmodLog (.exited 0 (some [])) .timedOut 0)).filterMap Event.hookCall? =
        [.setup "bin/unit/elf/chmod_hooks", .cleanup "bin/unit/elf/chmod_hooks" ["0644"],
          .setup "bin/unit/elf/chmod_hooks"] ∧
      filesAfter (history (chmodLog (.exited 0 (some [])) .timedOut 0)) =
        [("/tmp/wali_env_chmod_0.env" : Str)] ∧
      ¬ ∀ call ∈ chmodLog (.exited 0 (some [])) .timedOut 0, call.TornDown) ∧
    filesAfter (history (chmodLog (.exited 0 (some [])) (.exited 0 (some [])) 1)) =
        [("/tmp/wali_env_chmod_0.env" : Str)] ∧
      ¬ ∀ call ∈ chmodLog (.exited 0 (some [])) (.exited 0 (some [])) 1, call.TornDown := by
  refine ⟨⟨by decide +kernel, chmodLog_not_tornDown (by decide +kernel)⟩,
    ⟨by decide +kernel, by decide +kernel, chmodLog_not_tornDown (by decide +kernel)⟩,
    by decide +kernel, chmodLog_not_tornDown (by decide +kernel)⟩

end Wali.Tests
