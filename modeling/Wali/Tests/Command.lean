import Wali.Tests.Runner
import Wali.Py.Text

/-!
# The engine command

The command line of a Wasm run is composed from the command and the argument templates of the
engine. The test arguments have to be in it once, as they are in the command line of the native run.
-/

namespace Wali.Tests

open Py (Str)

/-- The placeholder of the test arguments. -/
def argsHole : Str := "{args}"

namespace Engine

variable (engine : Engine) (verbose : Bool) (envFile wasmFile : Str)

/-- A template with its other placeholders replaced. -/
def substitute (arg : Str) : Str :=
  Py.replace (Py.replace (Py.replace arg "{verbose_arg}"
    (if verbose then engine.verboseArg.getD "" else "")) "{env_file}" envFile)
    "{wasm_file}" wasmFile

/-- What a template becomes. -/
def expand (testArgs : List Str) (arg : Str) : List Str :=
  if Py.contains arg argsHole then if arg = argsHole then testArgs else []
  else if engine.substitute verbose envFile wasmFile arg = [] then []
  else [engine.substitute verbose envFile wasmFile arg]

theorem finalArgs_eq (testArgs : List Str) : engine.finalArgs verbose envFile wasmFile testArgs =
    engine.argTemplates.flatMap (engine.expand verbose envFile wasmFile testArgs) ++
      if engine.argTemplates.any (Py.contains · argsHole) then [] else testArgs :=
  rfl

end Engine

/-- The case with other test arguments. -/
def Case.withArgs (c : Case) (args : List Str) : Case := { c with config := { c.config with args } }

/-- The command lines have the test arguments in one place. What is around them is from the command
and the templates, and is the same whatever the arguments are. -/
def Case.PassesArgs (c : Case) : Prop :=
  ∃ front back : List Str,
    (∀ x ∈ front ++ back, x ∈ c.engine.commandParts ∨
      ∃ t ∈ c.engine.argTemplates, x = c.engine.substitute c.verbose c.envFilePath c.wasmFile t) ∧
    ∀ args, (c.withArgs args).nativeCmd = [c.nativeFile] ++ args ∧
      (c.withArgs args).iwasmCmd = front ++ args ++ back

/-- The placeholder is a template of its own exactly once, or is in no template. -/
def Engine.OneHole (engine : Engine) : Prop :=
  engine.argTemplates.count argsHole = 1 ∨ ∀ t ∈ engine.argTemplates, Py.contains t argsHole = false

section Expand

variable {engine : Engine} {verbose : Bool} {envFile wasmFile : Str} {args : List Str}

/-- Only the placeholder itself takes the test arguments. -/
theorem expand_of_ne {t : Str} (h : t ≠ argsHole) :
    engine.expand verbose envFile wasmFile args t = engine.expand verbose envFile wasmFile [] t := by
  simp only [Engine.expand, if_neg h]

theorem expand_argsHole : engine.expand verbose envFile wasmFile args argsHole = args := by
  rw [Engine.expand, if_pos (by decide), if_pos rfl]

theorem flatMap_expand_of_not_mem {ts : List Str} (h : argsHole ∉ ts) :
    ts.flatMap (engine.expand verbose envFile wasmFile args) =
      ts.flatMap (engine.expand verbose envFile wasmFile []) := by
  refine List.flatMap_congr fun t ht => expand_of_ne ?_
  rintro rfl
  exact h ht

theorem mem_expand_nil {x t : Str} (h : x ∈ engine.expand verbose envFile wasmFile [] t) :
    x = engine.substitute verbose envFile wasmFile t := by
  unfold Engine.expand at h
  split_ifs at h
  · cases h
  · cases h
  · cases h
  · exact List.mem_singleton.mp h

/-- Every template that is the placeholder adds the arguments once. -/
theorem length_flatMap_expand (args ts : List Str) :
    (ts.flatMap (engine.expand verbose envFile wasmFile args)).length =
      (ts.flatMap (engine.expand verbose envFile wasmFile [])).length + ts.count argsHole * args.length := by
  induction ts with
  | nil => simp
  | cons t ts ih =>
    rw [List.flatMap_cons, List.flatMap_cons, List.length_append, List.length_append, ih]
    by_cases ht : t = argsHole
    · subst ht
      rw [expand_argsHole, expand_argsHole, List.count_cons_self, Nat.succ_mul, List.length_nil]
      omega
    · rw [expand_of_ne ht, List.count_cons_of_ne ht]
      omega

end Expand

theorem iwasmCmd_withArgs (c : Case) (args : List Str) : (c.withArgs args).iwasmCmd =
    c.engine.commandParts ++
      (c.engine.argTemplates.flatMap (c.engine.expand c.verbose c.envFilePath c.wasmFile args) ++
        if c.engine.argTemplates.any (Py.contains · argsHole) then [] else args) :=
  rfl

/-- How often the test arguments are in the command. -/
def Engine.holes (engine : Engine) : ℕ :=
  if engine.argTemplates.any (Py.contains · argsHole) then engine.argTemplates.count argsHole else 1

theorem argsHole_not_mem {ts : List Str} (h : ∀ t ∈ ts, Py.contains t argsHole = false) :
    argsHole ∉ ts :=
  fun hmem => absurd (h _ hmem) (by decide)

theorem any_contains_eq_false_iff {ts : List Str} :
    ts.any (Py.contains · argsHole) = false ↔ ∀ t ∈ ts, Py.contains t argsHole = false := by
  simp only [List.any_eq_false, Bool.not_eq_true]

theorem length_iwasmCmd (c : Case) (args : List Str) : (c.withArgs args).iwasmCmd.length =
    (c.withArgs []).iwasmCmd.length + c.engine.holes * args.length := by
  rw [iwasmCmd_withArgs, iwasmCmd_withArgs, Engine.holes]
  simp only [List.length_append, length_flatMap_expand args]
  cases h : c.engine.argTemplates.any (Py.contains · argsHole) with
  | true =>
    simp only [if_true, List.length_nil]
    omega
  | false =>
    rw [List.count_eq_zero.mpr (argsHole_not_mem (any_contains_eq_false_iff.mp h))]
    simp only [Bool.false_eq_true, if_false, List.length_nil]
    omega

theorem Engine.holes_eq_one_iff (engine : Engine) : engine.holes = 1 ↔ engine.OneHole := by
  unfold holes OneHole
  rw [← any_contains_eq_false_iff]
  cases engine.argTemplates.any (Py.contains · argsHole) with
  | true => simp
  | false => simp

/-- **The test arguments in the engine command**: they are passed on exactly if one template is the
placeholder, or if it occurs in none. -/
theorem passesArgs_iff (c : Case) : c.PassesArgs ↔ c.engine.OneHole := by
  constructor
  · rintro ⟨front, back, _, h⟩
    have hnone := congrArg List.length (h []).2
    have hone := congrArg List.length (h [[]]).2
    rw [length_iwasmCmd] at hone
    simp only [List.length_append, List.length_cons, List.length_nil] at hnone hone
    exact c.engine.holes_eq_one_iff.mp (by omega)
  · intro h
    -- Around the arguments is what the templates before and after them become.
    have hsplit : ∃ u v : List Str, (∀ t ∈ u ++ v, t ∈ c.engine.argTemplates) ∧ ∀ args,
        (c.withArgs args).iwasmCmd = c.engine.commandParts ++
          u.flatMap (c.engine.expand c.verbose c.envFilePath c.wasmFile []) ++ args ++
          v.flatMap (c.engine.expand c.verbose c.envFilePath c.wasmFile []) := by
      rcases h with hcount | hnone
      · obtain ⟨u, v, huv⟩ := List.append_of_mem (List.count_pos_iff.mp (hcount ▸ Nat.one_pos))
        rw [huv, List.count_append, List.count_cons_self] at hcount
        have hu : argsHole ∉ u := List.count_eq_zero.mp (by omega)
        have hv : argsHole ∉ v := List.count_eq_zero.mp (by omega)
        have hany : c.engine.argTemplates.any (Py.contains · argsHole) = true :=
          List.any_eq_true.mpr ⟨argsHole, by rw [huv]; simp, by decide⟩
        refine ⟨u, v, fun t ht => huv ▸ ?_, fun args => ?_⟩
        · exact List.mem_append.mpr ((List.mem_append.mp ht).imp_right (List.mem_cons_of_mem _))
        rw [iwasmCmd_withArgs, hany, if_pos rfl, huv, List.flatMap_append, List.flatMap_cons, expand_argsHole,
          flatMap_expand_of_not_mem hu, flatMap_expand_of_not_mem hv]
        simp only [List.append_assoc, List.append_nil]
      · refine ⟨c.engine.argTemplates, [], by simp, fun args => ?_⟩
        rw [iwasmCmd_withArgs, any_contains_eq_false_iff.mpr hnone, if_neg Bool.false_ne_true,
          flatMap_expand_of_not_mem (argsHole_not_mem hnone)]
        simp only [List.append_assoc, List.flatMap_nil, List.append_nil]
    obtain ⟨u, v, hmem, hcmd⟩ := hsplit
    refine ⟨_, _, fun x hx => ?_, fun args => ⟨rfl, hcmd args⟩⟩
    rw [List.append_assoc, ← List.flatMap_append] at hx
    rcases List.mem_append.mp hx with hx | hx
    · exact Or.inl hx
    · obtain ⟨t, ht, hxt⟩ := List.mem_flatMap.mp hx
      exact Or.inr ⟨t, hmem t ht, mem_expand_nil hxt⟩

/-- An engine that takes the arguments in an option of its own. -/
def optionEngine : Engine where
  name := "wasmtime"
  command := some (.inl "wasmtime")
  args := some ["{wasm_file}", "--args={args}"]

/-- The run of the test `chmod` with two arguments. -/
def chmodCase (engine : Engine) : Case := ⟨"chmod", { args := ["ok", "0777"] }, engine, false, 0⟩

/-- With the placeholder inside a longer template the arguments are lost, and the template with them;
with two placeholders they are there twice. -/
theorem args_lost :
    (chmodCase optionEngine).iwasmCmd = (["wasmtime", "bin/unit/wasm/chmod.wasm"] : List Str) ∧
    (chmodCase { name := "iwasm", args := some ["{args}", "{args}"] }).iwasmCmd =
      (["../iwasm", "ok", "0777", "ok", "0777"] : List Str) ∧
    ¬ (chmodCase optionEngine).PassesArgs := by
  refine ⟨by decide +kernel, by decide +kernel, ?_⟩
  rintro ⟨front, back, _, h⟩
  have hnone := congrArg List.length (h []).2
  have hone := congrArg List.length (h [[]]).2
  have hlen : ((chmodCase optionEngine).withArgs []).iwasmCmd.length =
      ((chmodCase optionEngine).withArgs [[]]).iwasmCmd.length := by decide +kernel
  rw [← hlen, hnone] at hone
  simp only [List.length_append, List.length_cons, List.length_nil] at hone
  omega

end Wali.Tests
