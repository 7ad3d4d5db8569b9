import Wali.Py.Dict
import Wali.Py.Str

/-!
# The test runner

`run_tests.py` runs every test natively and under a Wasm engine, with a hooks binary around each
process that sets a fixture up and tears it down. What the processes do is up to the host: a model
of a run takes their outcomes as a parameter, and records the actions of each call of
`run_test_case_execution`.
-/

namespace Wali.Tests

open Py (Str Dict)

/-- `TEST_TIMEOUT`. -/
def testTimeout : ℕ := 20

/-- An entry of the list that `parse_runs` returns. -/
structure RunConfig where
  setup : List Str := []
  cleanup : List Str := []
  args : List Str := []
  env : Dict Str Str := .empty

/-- `run_args_cleanup`: without arguments of its own, cleanup has those of setup. -/
def RunConfig.cleanupArgs (config : RunConfig) : List Str :=
  if config.cleanup = [] then config.setup else config.cleanup

/-- An entry of `[[engines]]`. The command is a string or a list. -/
structure Engine where
  name : Str
  command : Option (Str ⊕ List Str) := none
  args : Option (List Str) := none
  verboseArg : Option Str := none

namespace Engine

/-- `wasm_cmd_parts`. -/
def commandParts (engine : Engine) : List Str :=
  match engine.command.getD (.inl "../iwasm") with
  | .inl command => [command]
  | .inr parts => parts

/-- `arg_templates`. -/
def argTemplates (engine : Engine) : List Str :=
  engine.args.getD
    ["{verbose_arg}", "--env-file={env_file}", "{wasm_file}", "{args}"]

/-- `final_args`. -/
def finalArgs (engine : Engine) (verbose : Bool) (envFile wasmFile : Str) (testArgs : List Str) :
    List Str :=
  let verboseArg := if verbose then engine.verboseArg.getD "" else ""
  let expand (arg : Str) : List Str :=
    -- the test arguments replace a template of their own only
    if Py.contains arg "{args}" then if arg = "{args}" then testArgs else [] else
    let val := Py.replace arg "{verbose_arg}" verboseArg
    let val := Py.replace val "{env_file}" envFile
    let val := Py.replace val "{wasm_file}" wasmFile
    if val = [] then [] else [val]
  let hasArgsPlaceholder := engine.argTemplates.any (Py.contains · "{args}")
  engine.argTemplates.flatMap expand ++ if hasArgsPlaceholder then [] else testArgs

end Engine

-- ════════════════════════════════════════════════════════════════════════
-- Processes
-- ════════════════════════════════════════════════════════════════════════

inductive Phase where
  | native
  | wasm
  deriving DecidableEq, Repr

def Phase.label : Phase → Str
  | .native => "Native"
  | .wasm => "Wasm"

/-- What a test process does. Its output may be no UTF-8. -/
inductive Outcome where
  | exited (code : ℤ) (output : Option Str)
  | timedOut
  deriving DecidableEq, Repr

/-- An action of the runner, with what came of it. -/
inductive Event where
  | test (phase : Phase) (hooks : Option Str) (argv : List Str) (env : Dict Str Str)
    (outcome : Outcome)
  | cleanup (phase : Phase) (hooks : Str) (args : List Str) (code : ℤ) (output : Str)
  | writeEnv (path content : Str)
  | removeEnv (path : Str)

/-- Everything the runner does not determine itself. The processes may depend on all that has
happened before. -/
structure Host where
  environ : Dict Str Str
  /-- The binaries that are there. -/
  fileExists : List Event → Str → Bool
  /-- What `parse_runs` finds in a source file. -/
  parseRuns : Str → List RunConfig
  test : List Event → List Str → Outcome
  /-- The exit code and the output of a cleanup process. -/
  cleanup : List Event → List Str → ℤ × Str

/-- The env files after one action. -/
def Event.files (files : List Str) : Event → List Str
  | .writeEnv path _ => path :: files
  | .removeEnv path => files.filter (· != path)
  | _ => files

/-- The env files that exist. -/
def filesAfter (events : List Event) : List Str := events.foldl Event.files []

/-- The command line of a test, behind the hooks if there are any. -/
def launch (hooks : Option Str) (setup cmd : List Str) : List Str :=
  match hooks with
  | some hooks => [hooks, ("setup" : Str)] ++ setup ++ [("--" : Str)] ++ cmd
  | none => cmd

/-- How a phase of a call ends: the process is done, or the function returns. -/
inductive PhaseEnd where
  | done (code : ℤ) (output : Str)
  | stopped (reason output : Str)
  deriving DecidableEq, Repr

/-- `subprocess` decodes the output after the process. -/
inductive Crash where
  | unicodeDecodeError
  deriving DecidableEq, Repr

variable (host : Host)

/-- One process with its cleanup. -/
def runPhase (past : List Event) (phase : Phase) (hooks : Option Str) (config : RunConfig)
    (cmd : List Str) : List Event × Except Crash PhaseEnd :=
  let argv := launch hooks config.setup cmd
  let outcome := host.test past argv
  let ran : List Event := [.test phase hooks argv (host.environ.update config.env.entries) outcome]
  match outcome with
  | .timedOut =>
    (ran, .ok (.stopped (phase.label ++ " timed out after " ++ Py.natStr testTimeout ++ "s") ""))
  | .exited _ none => (ran, .error .unicodeDecodeError)
  | .exited code (some output) =>
    match hooks with
    | none => (ran, .ok (.done code output))
    | some hooks =>
      let res := host.cleanup (past ++ ran) ([hooks, ("cleanup" : Str)] ++ config.cleanupArgs)
      let events := ran ++ [.cleanup phase hooks config.cleanupArgs res.1 res.2]
      if res.1 = 0 then (events, .ok (.done code output)) else
        (events, .ok (.stopped
          (phase.label ++ " cleanup failed (exit code " ++ Py.intStr res.1 ++ ")")
          (output ++ "\n[Cleanup Output]\n" ++ res.2)))

-- ════════════════════════════════════════════════════════════════════════
-- Calls
-- ════════════════════════════════════════════════════════════════════════

/-- The arguments of `run_test_case_execution`. -/
structure Case where
  baseName : Str
  config : RunConfig
  engine : Engine
  verbose : Bool
  runIdx : ℕ

namespace Case

variable (c : Case)

def wasmFile : Str := "bin/unit/wasm/" ++ c.baseName ++ ".wasm"

def nativeFile : Str := "bin/unit/elf/" ++ c.baseName

def hooksBin : Str := "bin/unit/elf/" ++ c.baseName ++ "_hooks"

def envFilePath : Str := "/tmp/wali_env_" ++ c.baseName ++ "_" ++ Py.natStr c.runIdx ++ ".env"

def envFileContent : Str := c.config.env.entries.flatMap fun e => (e.1 ++ "=" ++ e.2 ++ "\n" : Str)

def nativeCmd : List Str := c.nativeFile :: c.config.args

def iwasmCmd : List Str :=
  c.engine.commandParts ++ c.engine.finalArgs c.verbose c.envFilePath c.wasmFile c.config.args

end Case

/-- The second component of what `run_test_case_execution` returns. -/
inductive ResultData where
  | text (msg : Str)
  | outputs (native wasm : Str)
  | failure (reason native wasm : Str)
  deriving DecidableEq, Repr

/-- What the function does, and what it returns or raises. -/
def runTestCaseExecution (past : List Event) (c : Case) :
    List Event × Except Crash (Bool × ResultData) :=
  if !host.fileExists past c.wasmFile || !host.fileExists past c.nativeFile then
    ([], .ok (false, .text "missing binary"))
  else
  let hooks := if host.fileExists past c.hooksBin then some c.hooksBin else none
  let native := runPhase host past .native hooks c.config c.nativeCmd
  match native.2 with
  | .error e => (native.1, .error e)
  | .ok (.stopped reason output) => (native.1, .ok (false, .failure reason output ""))
  | .ok (.done nativeCode nativeOut) =>
    let written := native.1 ++ [.writeEnv c.envFilePath c.envFileContent]
    let wasm := runPhase host (past ++ written) .wasm hooks c.config c.iwasmCmd
    let events := written ++ wasm.1
    match wasm.2 with
    | .error e => (events, .error e)
    | .ok (.stopped reason output) => (events, .ok (false, .failure reason nativeOut output))
    | .ok (.done wasmCode wasmOut) =>
      let removed : List Event :=
        if (filesAfter (past ++ events)).contains c.envFilePath then [.removeEnv c.envFilePath] else []
      let result := if nativeCode ≠ wasmCode then
          (false, ResultData.failure ("Return codes differ (Native: " ++ Py.intStr nativeCode ++
            ", Wasm: " ++ Py.intStr wasmCode ++ ")") nativeOut wasmOut)
        else (true, .outputs nativeOut wasmOut)
      (events ++ removed, .ok result)

/-- A call that was made. -/
structure Call where
  case : Case
  /-- What had happened before. -/
  past : List Event
  events : List Event
  result : Except Crash (Bool × ResultData)

/-- The actions of all calls so far. -/
def history (log : List Call) : List Event := log.flatMap Call.events

def makeCall (log : List Call) (c : Case) : Call where
  case := c
  past := history log
  events := (runTestCaseExecution host (history log) c).1
  result := (runTestCaseExecution host (history log) c).2

-- ════════════════════════════════════════════════════════════════════════
-- Runs
-- ════════════════════════════════════════════════════════════════════════

/-- A `for` loop: an exception ends it. -/
def forEach {α β : Type} (body : α → List Call → Except Crash β × List Call) :
    List α → List Call → Except Crash (List β) × List Call
  | [], log => (.ok [], log)
  | x :: xs, log =>
    match body x log with
    | (.error e, log) => (.error e, log)
    | (.ok y, log) =>
      match forEach body xs log with
      | (.error e, log) => (.error e, log)
      | (.ok ys, log) => (.ok (y :: ys), log)

/-- One call, with its log entry. -/
def runCase (c : Case) (log : List Call) : Except Crash (Bool × ResultData) × List Call :=
  ((makeCall host log c).result, log ++ [makeCall host log c])

/-- The runs of a test under one engine: how many passed, and the others with their data. -/
def runEngine (baseName : Str) (runs : List RunConfig) (verbose : Bool) (engine : Engine)
    (log : List Call) : Except Crash (Str × ℕ × List (ℕ × RunConfig × ResultData)) × List Call :=
  let body (run : RunConfig × ℕ) := runCase host ⟨baseName, run.1, engine, verbose, run.2⟩
  let (results, log) := forEach body runs.zipIdx log
  (results.map fun rs =>
    (engine.name, rs.countP (·.1),
      (runs.zipIdx.zip rs).filterMap fun e =>
        if e.2.1 then none else some (e.1.2, e.1.1, e.2.2)), log)

/-- `os.path.basename`. -/
def basename (path : Str) : Str := path.rtakeWhile (· != '/')

/-- Whether all runs passed under all engines. -/
def runTestSuite (engines : List Engine) (verbose : Bool) (testPath : Str) (log : List Call) :
    Except Crash Bool × List Call :=
  let baseName := Py.replace (basename testPath) ".c" ""
  let runs := host.parseRuns ("unit/" ++ baseName ++ ".c")
  let (results, log) := forEach (runEngine host baseName runs verbose) engines log
  -- engines of one name share an entry
  (results.map fun rs => (Dict.ofList rs).values.all fun res => res.2.isEmpty, log)

/-- The loop of `main`: the number of suites that passed. -/
def runTests (tests : List Str) (engines : List Engine) (verbose : Bool) :
    Except Crash ℕ × List Call :=
  let (results, log) := forEach (runTestSuite host engines verbose) tests []
  (results.map fun rs => rs.countP id, log)

end Wali.Tests
