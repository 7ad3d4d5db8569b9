import Mathlib.Data.List.Forall2
import Wali.Tests.Teardown

/-!
# The verdict of the test runner

`main` selects the tests, runs them and exits with 0 if all suites passed. What that says about the
processes that were started is read off the calls that were made.
-/

namespace Wali.Tests

open Py (Str Dict)

-- ════════════════════════════════════════════════════════════════════════
-- The main function
-- ════════════════════════════════════════════════════════════════════════

/-- `os.path.splitext(p)[0]`: leading dots do not begin an extension. -/
def splitextRoot (p : Str) : Str :=
  let name := basename p
  let front := (name.rdropWhile (· != '.')).dropLast
  if name.contains '.' && front.any (· != '.') then p.take (p.length - name.length + front.length) else p

/-- What a test is called by, given a path or a name. -/
def wantedBase (f : Str) : Str :=
  let base := basename f
  if Py.endsWith base ".c" then base.take (base.length - 2) else base

/-- The sources of tests among the files that `glob` finds. -/
def testSources (sources : List Str) : List Str := sources.filter fun f => !Py.endsWith f "_hooks.c"

/-- `tests`, after the filter if there is one. -/
def selectTests (sources files : List Str) : List Str :=
  let tests := ((testSources sources).map splitextRoot).mergeSort Py.le
  if files.isEmpty then tests
  else tests.filter fun t => (files.map wantedBase).contains (basename t)

/-- `main`: the exit code, and the calls that were made. The engines are those of the configuration
file, if there is one. -/
def main (host : Host) (config : Option (List Engine)) (sources files : List Str) (verbose : Bool) :
    ℕ × List Call :=
  match config with
  | none => (1, [])
  | some engines =>
    if engines.isEmpty then (1, [])
    else if (testSources sources).isEmpty then (0, [])
    else if !files.isEmpty && (selectTests sources files).isEmpty then (1, [])
    else
      let (result, log) := runTests host (selectTests sources files) engines verbose
      match result with
      -- an exception that nothing catches
      | .error _ => (1, log)
      | .ok successCount => (if successCount ≠ (selectTests sources files).length then 1 else 0, log)

-- ════════════════════════════════════════════════════════════════════════
-- What a passed call has done
-- ════════════════════════════════════════════════════════════════════════

def Call.Passed (call : Call) : Prop := ∃ data, call.result = .ok (true, data)

/-- The exit code of a process that ended by itself with an output that could be decoded. -/
def Outcome.code? : Outcome → Option ℤ
  | .exited code (some _) => some code
  | .exited _ none | .timedOut => none

def Event.testCode? : Event → Option (Phase × Option ℤ)
  | .test phase _ _ _ outcome => some (phase, outcome.code?)
  | _ => none

def Event.cleanupCode? : Event → Option ℤ
  | .cleanup _ _ _ code _ => some code
  | _ => none

/-- The test ran natively and under the engine, both ended with one exit code, and every cleanup
succeeded. -/
structure Call.Agreed (call : Call) : Prop where
  codes : ∃ code, call.events.filterMap Event.testCode? = [(.native, some code), (.wasm, some code)]
  cleanups : ∀ e ∈ call.events, ∀ code ∈ e.cleanupCode?, code = 0

/-- The calls of a run in which nothing is raised. -/
def allCases (host : Host) (tests : List Str) (engines : List Engine) (verbose : Bool) : List Case :=
  tests.flatMap fun testPath => engines.flatMap fun engine =>
    let baseName := Py.replace (basename testPath) ".c" ""
    (host.parseRuns ("unit/" ++ baseName ++ ".c")).zipIdx.map fun run =>
      ⟨baseName, run.1, engine, verbose, run.2⟩

-- ════════════════════════════════════════════════════════════════════════
-- One call
-- ════════════════════════════════════════════════════════════════════════

section Phase

variable {phase : Phase} {args : List Str} {hooks : Option Str}
  {run : List Event × Except Crash PhaseEnd}

theorem PhaseRun.exists_testCode (h : PhaseRun phase args hooks run) :
    ∃ code, run.1.filterMap Event.testCode? = [(phase, code)] := by
  cases h <;> exact ⟨_, rfl⟩

/-- A phase that is done. -/
theorem PhaseRun.of_done {code : ℤ} {output : Str} (h : PhaseRun phase args hooks run)
    (hdone : run.2 = .ok (.done code output)) :
    run.1.filterMap Event.testCode? = [(phase, some code)] ∧
      ∀ e ∈ run.1, ∀ code ∈ e.cleanupCode?, code = 0 := by
  cases h with
  | lost _ _ hres => exact absurd hdone (hres code output)
  | bare =>
    obtain ⟨rfl, rfl⟩ := PhaseEnd.done.inj (Except.ok.inj hdone)
    exact ⟨rfl, by simp [Event.cleanupCode?]⟩
  | cleaned =>
    obtain ⟨rfl, rfl⟩ := PhaseEnd.done.inj (Except.ok.inj hdone)
    exact ⟨rfl, by simp [Event.cleanupCode?]⟩
  | failed => cases hdone

/-- A phase that is not done has no exit code, or a cleanup that failed. -/
theorem PhaseRun.of_not_done (h : PhaseRun phase args hooks run) (hstop : ¬ IsDone run.2) :
    run.1.filterMap Event.testCode? = [(phase, none)] ∨
      ¬ ∀ e ∈ run.1, ∀ code ∈ e.cleanupCode?, code = 0 := by
  cases h with
  | @lost _ _ _ outcome _ hlost _ =>
    refine Or.inl ?_
    have hnone : outcome.code? = none := by
      cases outcome with
      | timedOut => rfl
      | exited code output =>
        cases output with
        | none => rfl
        | some output => cases hlost
    simp [Event.testCode?, hnone]
  | bare => exact absurd ⟨_, _, rfl⟩ hstop
  | cleaned => exact absurd ⟨_, _, rfl⟩ hstop
  | failed _ hcode => exact Or.inr (by simp [Event.cleanupCode?, hcode])

end Phase

/-- The exit codes and the cleanups of a call whose native process is done. -/
theorem written_codes {c : Case} {hooks : Option Str} {native : List Event × Except Crash PhaseEnd}
    {code : ℤ} {output : Str} (hnative : PhaseRun .native c.config.cleanupArgs hooks native)
    (hdone : native.2 = .ok (.done code output)) (events : List Event) :
    (native.1 ++ Event.writeEnv c.envFilePath c.envFileContent :: events).filterMap Event.testCode? =
        (.native, some code) :: events.filterMap Event.testCode? ∧
      ((∀ e ∈ native.1 ++ Event.writeEnv c.envFilePath c.envFileContent :: events,
          ∀ code ∈ e.cleanupCode?, code = 0) ↔
        ∀ e ∈ events, ∀ code ∈ e.cleanupCode?, code = 0) := by
  obtain ⟨hcodes, hclean⟩ := hnative.of_done hdone
  refine ⟨?_, ?_⟩
  · rw [List.filterMap_append, hcodes]
    rfl
  · rw [List.forall_mem_append, and_iff_right hclean, List.forall_mem_cons]
    exact and_iff_right nofun

theorem CaseRun.passed_iff {call : Call} (h : CaseRun call.case call.events call.result) :
    call.Passed ↔ call.Agreed := by
  obtain ⟨c, past, events, result⟩ := call
  dsimp only at h
  have hagreed : ∀ {events : List Event}, Call.Agreed ⟨c, past, events, result⟩ ↔
      (∃ code, events.filterMap Event.testCode? = [(.native, some code), (.wasm, some code)]) ∧
        ∀ e ∈ events, ∀ code ∈ e.cleanupCode?, code = 0 :=
    ⟨fun h => ⟨h.codes, h.cleanups⟩, fun h => ⟨h.1, h.2⟩⟩
  rw [hagreed]
  cases h with
  | missing => exact iff_of_false nofun nofun
  | stopped hnative _ hres =>
    refine iff_of_false (fun ⟨data, hd⟩ => hres data hd) fun ⟨⟨code, hcode⟩, _⟩ => ?_
    obtain ⟨code', hcode'⟩ := hnative.exists_testCode
    rw [hcode'] at hcode
    cases hcode
  | @left _ _ wasm _ _ _ hnative hdone hwasm hstop hres =>
    obtain ⟨hcodes, hcleanups⟩ := written_codes hnative hdone wasm.1
    rw [hcodes, hcleanups]
    refine iff_of_false (fun ⟨data, hd⟩ => hres data hd) fun ⟨⟨code, hcode⟩, hclean⟩ => ?_
    rcases hwasm.of_not_done hstop with hnone | hfail
    · rw [hnone] at hcode
      cases hcode
    · exact hfail hclean
  | @finished _ _ wasm code code' _ _ _ data hnative hdone hwasm hdone' hpassed =>
    obtain ⟨hcodes, hcleanups⟩ := written_codes hnative hdone (wasm.1 ++ [.removeEnv c.envFilePath])
    obtain ⟨hcode', hclean'⟩ := hwasm.of_done hdone'
    rw [hcodes, hcleanups, List.filterMap_append, hcode', List.forall_mem_append]
    constructor
    · rintro ⟨data', hd⟩
      obtain rfl : code = code' := hpassed.mp (Prod.mk.inj (Except.ok.inj hd)).1
      exact ⟨⟨code, rfl⟩, hclean', List.forall_mem_singleton.mpr nofun⟩
    · rintro ⟨⟨code'', hcode⟩, -⟩
      obtain ⟨rfl, rfl, -⟩ : code = code'' ∧ code' = code'' ∧ _ := by simpa using hcode
      exact ⟨data, by rw [hpassed.mpr rfl]⟩

/-- **One call** passes exactly if its processes agree. -/
theorem passed_iff_agreed (host : Host) (log : List Call) (c : Case) :
    (makeCall host log c).Passed ↔ (makeCall host log c).Agreed :=
  CaseRun.passed_iff (runTestCaseExecution_run host (history log) c)

-- ════════════════════════════════════════════════════════════════════════
-- The loops
-- ════════════════════════════════════════════════════════════════════════

/-- What a part of a run has to do with the calls it makes: these are the given ones, unless an exception
ends it, and its result says whether all of them passed. -/
structure Accounts {β : Type} (log : List Call) (cases : List Case) (shape good : β → Prop)
    (res : Except Crash β × List Call) (calls : List Call) : Prop where
  log : res.2 = log ++ calls
  ok : ∀ y, res.1 = .ok y → calls.map Call.case = cases ∧ shape y ∧ (good y ↔ ∀ call ∈ calls, call.Passed)
  error : ∀ e, res.1 = .error e → ∃ call ∈ calls, ¬ call.Passed

section Accounts

variable {α β γ : Type} {log : List Call}

theorem accounts_runCase (host : Host) (c : Case) (log : List Call) :
    Accounts log [c] (fun _ => True) (fun r => r.1 = true) (runCase host c log) [makeCall host log c] where
  log := rfl
  ok := by
    intro y hy
    refine ⟨rfl, trivial, ?_⟩
    rw [List.forall_mem_singleton]
    change (makeCall host log c).result = _ at hy
    refine ⟨fun h => ⟨y.2, ?_⟩, fun ⟨data, hdata⟩ => ?_⟩
    · rw [hy, ← h]
    · rw [hy] at hdata
      rw [Except.ok.inj hdata]
  error := by
    intro e he
    refine ⟨_, List.mem_singleton_self _, fun ⟨data, hdata⟩ => ?_⟩
    change (makeCall host log c).result = _ at he
    rw [he] at hdata
    cases hdata

/-- A loop makes the calls of its turns, one after the other. -/
theorem accounts_forEach {body : α → List Call → Except Crash β × List Call} {cases : α → List Case}
    {shape good : α → β → Prop}
    (hbody : ∀ x log, ∃ calls, Accounts log (cases x) (shape x) (good x) (body x log) calls)
    (xs : List α) (log : List Call) :
    ∃ calls, Accounts log (xs.flatMap cases) (List.Forall₂ shape xs) (List.Forall₂ good xs)
      (forEach body xs log) calls := by
  induction xs generalizing log with
  | nil =>
    refine ⟨[], ⟨by simp [forEach], ?_, fun _ h => by cases h⟩⟩
    intro ys hys
    obtain rfl : [] = ys := Except.ok.inj hys
    exact ⟨rfl, .nil, iff_of_true .nil (List.forall_mem_nil _)⟩
  | cons x xs ih =>
    obtain ⟨calls, hx⟩ := hbody x log
    rw [forEach]
    generalize body x log = res at hx ⊢
    obtain ⟨res, log'⟩ := res
    obtain rfl : log' = log ++ calls := hx.log
    cases res with
    | error e =>
      refine ⟨calls, ⟨rfl, fun _ h => (by cases h), fun _ _ => hx.error e rfl⟩⟩
    | ok y =>
      obtain ⟨calls', hxs⟩ := ih (log ++ calls)
      obtain ⟨hcases, hshape, hgood⟩ := hx.ok y rfl
      dsimp only
      generalize forEach body xs (log ++ calls) = res at hxs ⊢
      obtain ⟨res, log'⟩ := res
      obtain rfl : log' = log ++ calls ++ calls' := hxs.log
      refine ⟨calls ++ calls', ?_⟩
      cases res with
      | error e =>
        refine ⟨List.append_assoc .., fun _ h => (by cases h), fun _ _ => ?_⟩
        obtain ⟨call, hcall, hnot⟩ := hxs.error e rfl
        exact ⟨call, List.mem_append_right _ hcall, hnot⟩
      | ok ys =>
        obtain ⟨hcases', hshape', hgood'⟩ := hxs.ok ys rfl
        refine ⟨List.append_assoc .., ?_, fun _ h => by cases h⟩
        intro zs hzs
        obtain rfl : y :: ys = zs := Except.ok.inj hzs
        refine ⟨?_, .cons hshape hshape', ?_⟩
        · rw [List.map_append, hcases, hcases', List.flatMap_cons]
        · rw [List.forall₂_cons, hgood, hgood', List.forall_mem_append]

/-- What is made of the result. -/
theorem Accounts.map {cases : List Case} {shape good : β → Prop} {shape' good' : γ → Prop}
    {res : Except Crash β × List Call} {calls : List Call} {f : β → γ}
    (h : Accounts log cases shape good res calls) (hshape : ∀ y, shape y → shape' (f y))
    (hgood : ∀ y, shape y → (good y ↔ good' (f y))) :
    Accounts log cases shape' good' (res.1.map f, res.2) calls := by
  obtain ⟨res, log'⟩ := res
  cases res with
  | error e => exact ⟨h.log, nofun, fun _ _ => h.error e rfl⟩
  | ok y =>
    obtain ⟨hcases, hy, hiff⟩ := h.ok y rfl
    refine ⟨h.log, ?_, nofun⟩
    intro z hz
    obtain rfl : f y = z := Except.ok.inj hz
    exact ⟨hcases, hshape y hy, (hgood y hy).symm.trans hiff⟩

/-- No run is listed as failed exactly if all passed. -/
theorem failed_eq_nil_iff {δ : Type} {xs : List α} {rs : List (Bool × δ)} (g : α → δ → γ)
    (h : List.Forall₂ (fun _ _ => True) xs rs) :
    List.Forall₂ (fun _ r => r.1 = true) xs rs ↔
      ((xs.zip rs).filterMap fun e => if e.2.1 then none else some (g e.1 e.2.2)) = [] := by
  induction h with
  | nil => exact iff_of_true .nil rfl
  | @cons x r xs rs _ _ ih =>
    rw [List.forall₂_cons, ih, List.zip_cons_cons]
    cases hr : r.1 with
    | true => simp [hr]
    | false => simp [hr]

theorem accounts_runEngine (host : Host) (baseName : Str) (runs : List RunConfig) (verbose : Bool) (engine : Engine)
    (log : List Call) :
    ∃ calls, Accounts log (runs.zipIdx.map fun run => ⟨baseName, run.1, engine, verbose, run.2⟩)
      (fun r => r.1 = engine.name) (fun r => r.2.2 = [])
      (runEngine host baseName runs verbose engine log) calls := by
  obtain ⟨calls, h⟩ := accounts_forEach
    (fun (run : RunConfig × ℕ) log => ⟨_, accounts_runCase host ⟨baseName, run.1, engine, verbose, run.2⟩ log⟩)
    runs.zipIdx log
  rw [← List.map_eq_flatMap] at h
  exact ⟨calls, h.map (fun _ _ => rfl) fun rs hrs =>
    failed_eq_nil_iff (fun run data => (run.2, run.1, data)) hrs⟩

/-- With different names every engine has its own entry. -/
theorem suite_iff {δ : Type} {engines : List Engine} (hnames : (engines.map Engine.name).Nodup)
    {rs : List (Str × ℕ × List δ)} (h : List.Forall₂ (fun e r => r.1 = Engine.name e) engines rs) :
    List.Forall₂ (fun _ r => r.2.2 = []) engines rs ↔
      ((Dict.ofList rs).values.all fun res => res.2.isEmpty) = true := by
  have hkeys : rs.map Prod.fst = engines.map Engine.name := by
    clear hnames
    induction h with
    | nil => rfl
    | cons hr _ ih => rw [List.map_cons, List.map_cons, hr, ih]
  rw [Dict.values, Dict.ofList_entries_of_nodup (hkeys ▸ hnames), List.all_map, List.all_eq_true]
  clear hnames hkeys
  induction h with
  | nil => exact iff_of_true .nil (List.forall_mem_nil _)
  | cons _ _ ih => simp [ih]

theorem accounts_runTestSuite (host : Host) {engines : List Engine} (hnames : (engines.map Engine.name).Nodup)
    (verbose : Bool) (testPath : Str) (log : List Call) :
    ∃ calls, Accounts log (allCases host [testPath] engines verbose) (fun _ => True) (fun b => b = true)
      (runTestSuite host engines verbose testPath log) calls := by
  obtain ⟨calls, h⟩ := accounts_forEach
    (accounts_runEngine host (Py.replace (basename testPath) ".c" "")
      (host.parseRuns ("unit/" ++ Py.replace (basename testPath) ".c" "" ++ ".c")) verbose) engines log
  refine ⟨calls, ?_⟩
  have hcases : allCases host [testPath] engines verbose = _ := List.flatMap_singleton _ testPath
  rw [hcases]
  exact h.map (fun _ _ => trivial) fun rs hrs => suite_iff hnames hrs

theorem countP_eq_length_iff {tests : List Str} {bs : List Bool} (h : List.Forall₂ (fun _ _ => True) tests bs) :
    List.Forall₂ (fun _ b => b = true) tests bs ↔ bs.countP id = tests.length := by
  rw [← h.length_eq.symm, List.countP_eq_length]
  induction h with
  | nil => exact iff_of_true .nil (List.forall_mem_nil _)
  | cons _ _ ih => simp [ih]

/-- The suites of a run have all passed exactly if all its calls have, and then no call is left out. -/
theorem accounts_runTests (host : Host) (tests : List Str) {engines : List Engine}
    (hnames : (engines.map Engine.name).Nodup) (verbose : Bool) :
    Accounts [] (allCases host tests engines verbose) (fun _ => True) (fun n => n = tests.length)
      (runTests host tests engines verbose) (runTests host tests engines verbose).2 := by
  obtain ⟨calls, h⟩ := accounts_forEach (accounts_runTestSuite host hnames verbose) tests []
  have hcases : allCases host tests engines verbose =
      tests.flatMap fun t => allCases host [t] engines verbose := by
    simp only [allCases, List.flatMap_singleton]
  have hmap : Accounts [] _ (fun _ => True) (fun n => n = tests.length) (runTests host tests engines verbose)
      calls := h.map (fun _ _ => trivial) fun bs hbs => countP_eq_length_iff hbs
  rw [hcases]
  obtain rfl : (runTests host tests engines verbose).2 = calls := hmap.log
  exact hmap

end Accounts

-- ════════════════════════════════════════════════════════════════════════
-- The exit code
-- ════════════════════════════════════════════════════════════════════════

theorem passed_iff_agreed_of_mem {host : Host} {tests : List Str} {engines : List Engine} {verbose : Bool}
    {call : Call} (hcall : call ∈ (runTests host tests engines verbose).2) : call.Passed ↔ call.Agreed :=
  (runTests_calls host tests engines verbose).forall (P := fun call => call.Passed ↔ call.Agreed)
    (passed_iff_agreed host) (fun _ h => by cases h) call hcall

/-- The tests of a run all pass: every one was run in every configuration, natively and under every
engine, and the processes agreed. -/
structure AllAgree (host : Host) (tests : List Str) (engines : List Engine) (verbose : Bool)
    (log : List Call) : Prop where
  complete : log.map Call.case = allCases host tests engines verbose
  agree : ∀ call ∈ log, call.Agreed

theorem runTests_ok_iff (host : Host) (tests : List Str) {engines : List Engine}
    (hnames : (engines.map Engine.name).Nodup) (verbose : Bool) :
    (runTests host tests engines verbose).1 = .ok tests.length ↔
      AllAgree host tests engines verbose (runTests host tests engines verbose).2 := by
  have h := accounts_runTests host tests hnames verbose
  constructor
  · intro hok
    obtain ⟨hcases, -, hgood⟩ := h.ok _ hok
    exact ⟨hcases, fun call hcall => (passed_iff_agreed_of_mem hcall).mp (hgood.mp rfl call hcall)⟩
  · intro hall
    have hpassed : ∀ call ∈ (runTests host tests engines verbose).2, call.Passed := fun call hcall =>
      (passed_iff_agreed_of_mem hcall).mpr (hall.agree call hcall)
    cases hres : (runTests host tests engines verbose).1 with
    | error e =>
      obtain ⟨call, hcall, hnot⟩ := h.error e hres
      exact absurd (hpassed call hcall) hnot
    | ok n =>
      obtain ⟨-, -, hgood⟩ := h.ok n hres
      rw [hgood.mpr hpassed]

/-- The main function, where it gets to its loop. -/
theorem main_of_selected (host : Host) {engines : List Engine} {sources files : List Str} (verbose : Bool)
    (hengines : engines ≠ []) (hsources : testSources sources ≠ [])
    (hselect : files ≠ [] → selectTests sources files ≠ []) :
    ((main host (some engines) sources files verbose).1 = 0 ↔
        (runTests host (selectTests sources files) engines verbose).1 = .ok (selectTests sources files).length) ∧
      (main host (some engines) sources files verbose).2 =
        (runTests host (selectTests sources files) engines verbose).2 := by
  have hskip : (!files.isEmpty && (selectTests sources files).isEmpty) = false := by
    rw [Bool.and_eq_false_imp]
    intro hfiles
    simpa using hselect (by simpa using hfiles)
  rw [main]
  dsimp only
  rw [if_neg (by simpa using hengines), if_neg (by simpa using hsources), if_neg (by rw [hskip]; decide)]
  generalize runTests host (selectTests sources files) engines verbose = res
  obtain ⟨res, log⟩ := res
  cases res with
  | error e => exact ⟨iff_of_false Nat.one_ne_zero nofun, rfl⟩
  | ok n =>
    refine ⟨?_, rfl⟩
    dsimp only
    split
    · next hne => exact iff_of_false Nat.one_ne_zero fun h => hne (Except.ok.inj h)
    · next heq => exact iff_of_true rfl (congrArg _ (not_not.mp heq))

/-- **The verdict**: the runner exits with 0 exactly if it has engines and finds no tests at all, or it
finds one of those it was asked for and all selected tests agree. -/
theorem main_exit_iff (host : Host) (config : Option (List Engine)) (sources files : List Str)
    (verbose : Bool) (hnames : ∀ engines, config = some engines → (engines.map Engine.name).Nodup) :
    (main host config sources files verbose).1 = 0 ↔
      ∃ engines, config = some engines ∧ engines ≠ [] ∧
        (testSources sources = [] ∨
          (files ≠ [] → selectTests sources files ≠ []) ∧
            AllAgree host (selectTests sources files) engines verbose
              (main host config sources files verbose).2) := by
  cases config with
  | none => exact iff_of_false Nat.one_ne_zero nofun
  | some engines =>
    simp only [Option.some.injEq, exists_eq_left']
    by_cases hengines : engines = []
    · subst hengines
      exact iff_of_false Nat.one_ne_zero fun h => h.1 rfl
    rw [and_iff_right hengines]
    by_cases hsources : testSources sources = []
    · refine iff_of_true ?_ (Or.inl hsources)
      simp [main, hengines, hsources]
    rw [or_iff_right hsources]
    by_cases hselect : files ≠ [] → selectTests sources files ≠ []
    · obtain ⟨hexit, hlog⟩ := main_of_selected host verbose hengines hsources hselect
      rw [hexit, hlog, runTests_ok_iff host _ (hnames engines rfl) verbose, and_iff_right hselect]
    · refine iff_of_false ?_ fun h => hselect h.1
      obtain ⟨hfiles, hnone⟩ := Classical.not_imp.mp hselect
      simp [main, hengines, hsources, hfiles, not_not.mp hnone]

/-- One test that agrees, with the engine as shipped. -/
theorem main_exit_iff_chmod : (main (chmodHost (.exited 0 (some [])) (.exited 0 (some [])) 0)
      (some [iwasm]) ["unit/chmod.c", "unit/chmod_hooks.c"] ["chmod"] false).1 = 0 ∧
    AllAgree (chmodHost (.exited 0 (some [])) (.exited 0 (some [])) 0) ["unit/chmod"] [iwasm] false
      (main (chmodHost (.exited 0 (some [])) (.exited 0 (some [])) 0)
        (some [iwasm]) ["unit/chmod.c", "unit/chmod_hooks.c"] ["chmod"] false).2 := by
  have hexit : (main (chmodHost (.exited 0 (some [])) (.exited 0 (some [])) 0)
      (some [iwasm]) ["unit/chmod.c", "unit/chmod_hooks.c"] ["chmod"] false).1 = 0 := by decide +kernel
  have hselect : selectTests ["unit/chmod.c", "unit/chmod_hooks.c"] ["chmod"] = [("unit/chmod" : Str)] := by
    decide +kernel
  obtain ⟨engines, he, -, h⟩ := (main_exit_iff _ _ _ _ _ fun engines he => by
    obtain rfl := Option.some.inj he
    decide).mp hexit
  obtain rfl := Option.some.inj he
  have hall := (h.resolve_left (by decide +kernel)).2
  rw [hselect] at hall
  exact ⟨hexit, hall⟩

end Wali.Tests
