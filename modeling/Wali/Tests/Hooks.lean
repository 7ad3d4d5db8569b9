import Wali.Tests.Runner

/-!
# The hooks wrapper

`hooks_main.c` takes apart the command line that the runner puts together: the arguments of the
fixture, a separator, and the command to continue as.
-/

namespace Wali.Tests

open Py (Str)

/-- What the wrapper is linked with and what it runs on. -/
structure Fixture where
  testSetup : List Str → ℤ
  testCleanup : List Str → ℤ
  /-- The commands that can be executed. -/
  execvp : List Str → Bool

/-- A call the wrapper makes. -/
inductive HookAction where
  | testSetup (args : List Str)
  | testCleanup (args : List Str)
  | execvp (argv : List Str)
  deriving DecidableEq, Repr

/-- How the wrapper ends. -/
inductive HookEnd where
  | returned (code : ℤ)
  /-- The process continues as the command. -/
  | replaced
  deriving DecidableEq, Repr

/-- What is between the arguments of the fixture and the command. -/
def separator : Str := "--"

/-- The loop over `argv` for the separator, from the third entry on. -/
def sepIndex (argv : List Str) : Option ℕ := ((argv.drop 2).findIdx? (· = separator)).map (· + 2)

/-- `main` of `hooks_main.c`: its calls and how it ends. -/
def hooksMain (fixture : Fixture) (argv : List Str) : List HookAction × HookEnd :=
  if argv.length < 2 then ([], .returned 1)
  else if argv[1]? = some ("setup" : Str) then
    let setupArgv := match sepIndex argv with
      | some i => (argv.drop 2).take (i - 2)
      -- without a separator all arguments are for setup
      | none => argv.drop 2
    let ret := fixture.testSetup setupArgv
    if ret ≠ 0 then ([.testSetup setupArgv], .returned ret)
    else match sepIndex argv with
      | some i =>
        if i + 1 < argv.length then
          let cmd := argv.drop (i + 1)
          ([.testSetup setupArgv, .execvp cmd], if fixture.execvp cmd then .replaced else .returned 1)
        else ([.testSetup setupArgv], .returned 0)
      | none => ([.testSetup setupArgv], .returned 0)
  else if argv[1]? = some ("cleanup" : Str) then
    ([.testCleanup (argv.drop 2)], .returned (fixture.testCleanup (argv.drop 2)))
  else ([], .returned 1)

/-- The wrapper takes apart what the runner puts together. -/
structure UndoesLaunch (fixture : Fixture) (hooks : Str) (setup cmd cleanup : List Str) : Prop where
  setup : (hooksMain fixture (launch (some hooks) setup cmd)).1 =
    .testSetup setup :: if fixture.testSetup setup = 0 then [.execvp cmd] else []
  cleanup : hooksMain fixture ([hooks, ("cleanup" : Str)] ++ cleanup) =
    ([.testCleanup cleanup], .returned (fixture.testCleanup cleanup))

theorem hooksMain_cleanup (fixture : Fixture) (hooks : Str) (cleanup : List Str) :
    hooksMain fixture ([hooks, ("cleanup" : Str)] ++ cleanup) =
      ([.testCleanup cleanup], .returned (fixture.testCleanup cleanup)) := by
  rw [hooksMain, if_neg (by simp), if_neg (by simp), if_pos (by simp)]
  rfl

theorem launch_eq (hooks : Str) (setup cmd : List Str) :
    launch (some hooks) setup cmd = hooks :: ("setup" : Str) :: (setup ++ separator :: cmd) := by
  simp [launch, separator]

theorem sepIndex_eq (hooks mode : Str) {args : List Str} (h : separator ∉ args) (cmd : List Str) :
    sepIndex (hooks :: mode :: (args ++ separator :: cmd)) = some (args.length + 2) := by
  have hnone : args.findIdx? (· = separator) = none := by
    rw [List.findIdx?_eq_none_iff]
    intro x hx
    rw [decide_eq_false_iff_not]
    rintro rfl
    exact h hx
  change (((args ++ separator :: cmd).findIdx? (· = separator)).map (· + 2)) = _
  rw [List.findIdx?_append, hnone, List.findIdx?_cons, if_pos (decide_eq_true rfl)]
  simp

/-- What is in front of the first separator goes to the fixture, what is behind it is the command. -/
theorem hooksMain_setup (fixture : Fixture) (hooks : Str) {args cmd : List Str} (h : separator ∉ args)
    (hcmd : cmd ≠ []) :
    (hooksMain fixture (hooks :: ("setup" : Str) :: (args ++ separator :: cmd))).1 =
      .testSetup args :: if fixture.testSetup args = 0 then [.execvp cmd] else [] := by
  have hlen : args.length + 2 + 1 < (hooks :: ("setup" : Str) :: (args ++ separator :: cmd)).length := by
    have := List.length_pos_of_ne_nil hcmd
    simp only [List.length_cons, List.length_append]
    omega
  have htake : ((hooks :: ("setup" : Str) :: (args ++ separator :: cmd)).drop 2).take
      (args.length + 2 - 2) = args := List.take_left
  have hdrop : (hooks :: ("setup" : Str) :: (args ++ separator :: cmd)).drop (args.length + 2 + 1) = cmd := by
    change (args ++ separator :: cmd).drop (args.length + 1) = cmd
    rw [List.drop_append]
    simp
  rw [hooksMain, if_neg (by simp), if_pos (by simp), sepIndex_eq hooks _ h]
  simp only [htake, if_pos hlen, hdrop]
  by_cases hret : fixture.testSetup args = 0
  · rw [if_neg (not_not.mpr hret), if_pos hret]
  · rw [if_pos hret, if_neg hret]

/-- **Putting together and taking apart**: the wrapper undoes the composition of the command line
exactly if no argument of setup is the separator. -/
theorem undoesLaunch_iff (fixture : Fixture) (hooks : Str) (setup cmd args cleanup : List Str)
    (hcmd : cmd ≠ []) :
    UndoesLaunch fixture hooks setup (cmd ++ args) cleanup ↔ separator ∉ setup := by
  have hne : cmd ++ args ≠ [] := List.append_ne_nil_of_left_ne_nil hcmd _
  constructor
  · intro h hmem
    -- Setup is called with what is in front of the first separator.
    obtain ⟨u, v, rfl, hu⟩ := List.eq_append_cons_of_mem hmem
    have hfirst := h.setup
    rw [launch_eq, List.append_assoc, List.cons_append, hooksMain_setup fixture hooks hu (by simp)] at hfirst
    have hlen := congrArg List.length (HookAction.testSetup.inj (List.cons.inj hfirst).1)
    simp only [List.length_append, List.length_cons] at hlen
    omega
  · intro h
    refine ⟨?_, hooksMain_cleanup fixture hooks cleanup⟩
    rw [launch_eq]
    exact hooksMain_setup fixture hooks h hne

/-- A fixture that always succeeds. -/
def readyFixture : Fixture := ⟨fun _ => 0, fun _ => 0, fun _ => true⟩

/-- `// CMD: setup="0644" args="ok --"`. -/
def fixtureCase : Case := ⟨"chmod", { setup := ["0644"], args := ["ok", "--"] }, { name := "iwasm" }, false, 0⟩

/-- Both command lines of a run. -/
theorem undoesLaunch_iff_chmod :
    UndoesLaunch readyFixture fixtureCase.hooksBin fixtureCase.config.setup fixtureCase.nativeCmd
      fixtureCase.config.cleanupArgs ∧
    UndoesLaunch readyFixture fixtureCase.hooksBin fixtureCase.config.setup fixtureCase.iwasmCmd
      fixtureCase.config.cleanupArgs :=
  ⟨(undoesLaunch_iff readyFixture fixtureCase.hooksBin fixtureCase.config.setup [fixtureCase.nativeFile]
      fixtureCase.config.args fixtureCase.config.cleanupArgs (List.cons_ne_nil _ _)).mpr (by decide),
    (undoesLaunch_iff readyFixture fixtureCase.hooksBin fixtureCase.config.setup
      fixtureCase.engine.commandParts _ fixtureCase.config.cleanupArgs (List.cons_ne_nil _ _)).mpr (by decide)⟩

/-- `// CMD: setup="a -- b"`: the fixture gets `a`, and the wrapper continues as `b`. -/
theorem separator_in_setup :
    hooksMain readyFixture (launch (some ("hooks" : Str)) ["a", "--", "b"] ["bin/unit/elf/chmod", "ok"]) =
      ([.testSetup ["a"], .execvp ["b", "--", "bin/unit/elf/chmod", "ok"]], .replaced) ∧
    ¬ UndoesLaunch readyFixture "hooks" ["a", "--", "b"] ["bin/unit/elf/chmod", "ok"] [] := by
  have hrun : hooksMain readyFixture (launch (some ("hooks" : Str)) ["a", "--", "b"]
      ["bin/unit/elf/chmod", "ok"]) =
      ([.testSetup ["a"], .execvp ["b", "--", "bin/unit/elf/chmod", "ok"]], .replaced) := by
    decide +kernel
  refine ⟨hrun, fun h => ?_⟩
  have hfirst := h.setup
  rw [hrun] at hfirst
  exact absurd hfirst (by decide)

end Wali.Tests
