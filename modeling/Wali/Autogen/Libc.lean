import Wali.Autogen.Wamr

/-!
# The libc generator

`LibcGenerator`: declarations of the imports for C and for Rust, and the places that call them by
number. The C side gives pointers to anything but primitives the type `void*`; the Rust side knows
fixed-width integers only. What one file calls another one declares: `generate_declares`.
-/

namespace Wali

open Py (Str)

/-- `ptr_split`: the number of indirections taken off, at most `max` of them, and what is left. -/
def SyscallArg.ptrSplit (arg : SyscallArg) (max : Option ℕ) : ℕ × SyscallArg :=
  let base := Py.rstripChar '*' arg
  let indirection := arg.length - base.length
  match max with
  | some m =>
    if m < indirection then (m, base ++ List.replicate (indirection - m) '*')
    else (indirection, base)
  | none => (indirection, base)

namespace Libc

variable (R : TypeRegistry)

def ptrAnonymize (args : List SyscallArg) : List Str :=
  args.map fun arg =>
    let (indir, base) := arg.ptrSplit (some 1)
    if 0 < indir ∧ R.isPrimitive base = false then "void*" else arg

/-- A declaration in `defs.out`. -/
structure Def where
  name : Str
  types : List Str
  aliases : List Str

def Def.text (d : Def) : Str :=
  ("WALI_SYSCALL_DEF (" ++ d.name ++ ", " ++ Py.join "," d.types ++ ");") ++
    Py.join [] (d.aliases.map fun a => "\n#define __syscall_SYS_" ++ a ++ " __syscall_SYS_" ++ d.name)

def defOf (sc : Syscall) : Except Py.Error Def := do
  let types := ptrAnonymize R (← sc.argsReduce R)
  return { name := sc.name, types, aliases := sc.aliases }

def defStub (sc : Syscall) : Except Py.Error Str := (defOf R sc).map Def.text

/-- A line of `case.out` or `case_var.out`. -/
structure Case where
  name : Str
  args : List Str

def Case.text (c : Case) : Str :=
  "\t\tCASE_SYSCALL (" ++ c.name ++ ", " ++ Py.join "," c.args ++ ");"

/-- The two kinds of lines differ in how an argument is fetched. -/
def caseOf (fetch : ℕ → Str → Str) (sc : Syscall) : Except Py.Error Case := do
  let anonArgs := ptrAnonymize R (← sc.argsReduce R)
  return { name := sc.name, args := anonArgs.mapIdx fetch }

def castArg (i : ℕ) (typ : Str) : Str := "(" ++ typ ++ ")a" ++ Py.natStr (i + 1)

def vaArg (_ : ℕ) (typ : Str) : Str := "va_arg(ap, " ++ typ ++ ")"

def caseStub (sc : Syscall) : Except Py.Error Str := (caseOf R castArg sc).map Case.text

def caseVarStub (sc : Syscall) : Except Py.Error Str := (caseOf R vaArg sc).map Case.text

/-- The Rust name of a WIT integer type: `i` for `s`. -/
def rustName (wit : Str) : Str := if Py.startsWith wit "s" then 'i' :: wit.drop 1 else wit

/-- One element of the comprehension in `rustify_args`. -/
def rustifyArg (ptrWit : Str) (arg : SyscallArg) : Except Py.Error Str :=
  if arg.isPtr || arg.isFnPtr then .ok (rustName ptrWit)
  else (R.resolvePrimitive arg).map fun p => rustName p.witName

section Types

variable {R}
variable {ptrWit : Str} {arg : SyscallArg} {p : Primitive}

theorem rustifyArg_of_pointer (h : arg.Pointer) :
    rustifyArg R ptrWit arg = .ok (rustName ptrWit) := by
  rw [rustifyArg, h.or_eq]
  rfl

theorem rustifyArg_of_byValue (h : arg.ByValue) (hp : R.resolvePrimitive arg = .ok p) :
    rustifyArg R ptrWit arg = .ok (rustName p.witName) := by
  rw [rustifyArg, h.or_eq, hp]
  rfl

end Types

def rustifyArgs (sc : Syscall) : Except Py.Error (List Str) :=
  match R.cPrimitives.get? "ptr" with
  | none => .error (.keyError "ptr")
  | some ptr => do (← sc.argsReduce R).mapM (rustifyArg R ptr.witName)

/-- A declaration in `rust/defs.out`. -/
structure RustDef where
  nr : ℤ
  name : Str
  types : List Str

def RustDef.text (d : RustDef) : Str :=
  let argtys := Py.join ", " (d.types.mapIdx fun i typ => "a" ++ Py.natStr (i + 1) ++ ": " ++ typ)
  let margin : Str := List.replicate 16 ' '
  Py.indent (Py.dedent (Py.join ("\n" ++ margin) [
    margin ++ "/* " ++ Py.intStr d.nr ++ " */",
    "#[link_name = \"SYS_" ++ d.name ++ "\"]",
    "pub fn __syscall_SYS_" ++ d.name ++ "(" ++ argtys ++ ") -> ::c_long;"])) "\t"

def rustDef (sc : Syscall) : Except Py.Error RustDef := do
  let types ← rustifyArgs R sc
  return { nr := sc.nr, name := sc.name, types }

def rustDefStub (sc : Syscall) : Except Py.Error Str := (rustDef R sc).map RustDef.text

/-- An arm of the `match` in `rust/match.out`: the syscall whose constant `SYS_` it names, and the
expression it evaluates. -/
structure MatchArm where
  name : Str
  expr : Str
  deriving DecidableEq, Repr

def MatchArm.text (arm : MatchArm) : Str := "super::SYS_" ++ arm.name ++ " => " ++ arm.expr ++ ","

/-- A call with a number of arguments. -/
def callExpr (name : Str) (argc : ℕ) : Str :=
  "syscall_match_arm!(SYS_" ++ name ++ ", args, " ++
    Py.join ", " ((List.range argc).map fun x => "a" ++ Py.natStr x) ++ ")"

def unimplementedExpr (sc : Syscall) : Str :=
  "unimplemented!(\"WALI syscall '" ++ sc.name ++ "' (" ++ Py.intStr sc.nr ++ ") unimplemented!\")"

def matchArm (sc : Syscall) : Except Py.Error MatchArm :=
  if sc.implemented then do
    let args ← sc.argsReduce R
    return ⟨sc.name, callExpr sc.name args.length⟩
  else .ok ⟨sc.name, unimplementedExpr sc⟩

def rustMatchStub (sc : Syscall) : Except Py.Error Str :=
  (matchArm R sc).map fun arm => Py.indent arm.text "\t\t"

/-- The arms of `rust/match.out`: `gen_and_write` takes unimplemented calls as well. -/
def matchArms (syscalls : List Syscall) : Except Py.Error (List MatchArm) :=
  syscalls.mapM (matchArm R)

-- ════════════════════════════════════════════════════════════════════════
-- The files
-- ════════════════════════════════════════════════════════════════════════

/-- The text in front of the Rust declarations. -/
def defPrelude : Str := Py.join "\n"
  ["// --- Autogenerated from WALI/scripts/autogen.py ---",
    "#[link(wasm_import_module = \"wali\")]",
    "extern \"C\" \x7b"]

def defPostlude : Str := "\n\x7d"

def matchPrelude : Str := Py.join "\n"
  ["#[no_mangle]",
    "pub unsafe extern \"C\" fn syscall(num: ::c_long, mut args: ...) -> ::c_long \x7b",
    "    use core::unimplemented;",
    "    match num \x7b"]

def matchPostlude : Str := Py.join "\n"
  ["        _ => unimplemented!(\"WALI syscall number \x7b\x7d out-of-scope!\", num),",
    "    \x7d",
    "\x7d"]

structure Output where
  defs : Str
  case : Str
  caseVar : Str
  rustDefs : Str
  rustMatch : Str

def generate (syscalls : List Syscall) : Except Py.Error Output := do
  let defs ← genAndWrite (defStub R) syscalls true [] []
  let case ← genAndWrite (caseStub R) syscalls false [] []
  let caseVar ← genAndWrite (caseVarStub R) syscalls false [] []
  let rustDefs ← genAndWrite (rustDefStub R) syscalls false defPrelude defPostlude
  let rustMatch ← genAndWrite (rustMatchStub R) syscalls true matchPrelude matchPostlude
  return { defs, case, caseVar, rustDefs, rustMatch }

/-- What is in the files. -/
structure Contents where
  defs : List Def
  cases : List Case
  varCases : List Case
  rustDefs : List RustDef
  arms : List MatchArm

def Contents.output (s : Contents) : Output where
  defs := stubFile [] (s.defs.map Def.text) []
  case := stubFile [] (s.cases.map Case.text) []
  caseVar := stubFile [] (s.varCases.map Case.text) []
  rustDefs := stubFile defPrelude (s.rustDefs.map RustDef.text) defPostlude
  rustMatch := stubFile matchPrelude (s.arms.map fun arm => Py.indent arm.text "\t\t") matchPostlude

/-- Every function that is called is declared, with as many parameters as are passed. -/
structure Contents.Declares (s : Contents) : Prop where
  cases : ∀ c ∈ s.cases ++ s.varCases, ∃ d ∈ s.defs, d.name = c.name ∧ d.types.length = c.args.length
  /-- An arm without a call is that of an unimplemented syscall. -/
  arms : ∀ arm ∈ s.arms, (∃ sc : Syscall, sc.implemented = false ∧ arm = ⟨sc.name, unimplementedExpr sc⟩) ∨
    ∃ d ∈ s.rustDefs, arm = ⟨d.name, callExpr d.name d.types.length⟩

section Files

variable {R} {syscalls : List Syscall}

theorem genAndWrite_eq_ok {α : Type} {f : Syscall → Except Py.Error α} {text : α → Str} {all : Bool}
    {before after file : Str}
    (h : genAndWrite (fun sc => (f sc).map text) syscalls all before after = .ok file) :
    ∃ stubs, (syscalls.filter fun sc => all || sc.implemented).mapM f = .ok stubs ∧
      file = stubFile before (stubs.map text) after := by
  obtain ⟨buf, hbuf, h⟩ := Py.bind_eq_ok_iff.mp h
  obtain ⟨stubs, hstubs, rfl⟩ := Py.mapM_map_ok hbuf
  exact ⟨stubs, hstubs, (Except.ok.inj h).symm⟩

/-- A declaration and a call of one syscall. -/
theorem caseOf_declared {fetch : ℕ → Str → Str} {sc : Syscall} {d : Def} {c : Case}
    (hd : defOf R sc = .ok d) (hc : caseOf R fetch sc = .ok c) :
    d.name = c.name ∧ d.types.length = c.args.length := by
  obtain ⟨red, hred, he⟩ := Py.bind_eq_ok_iff.mp hd
  obtain ⟨red', hred', he'⟩ := Py.bind_eq_ok_iff.mp hc
  obtain rfl := Except.ok.inj (hred.symm.trans hred')
  obtain rfl := Except.ok.inj he
  obtain rfl := Except.ok.inj he'
  exact ⟨rfl, List.length_mapIdx.symm⟩

theorem cases_declared {fetch : ℕ → Str → Str} {defs : List Def} {cases : List Case}
    (hdefs : syscalls.mapM (defOf R) = .ok defs)
    (hcases : (syscalls.filter Syscall.implemented).mapM (caseOf R fetch) = .ok cases) :
    ∀ c ∈ cases, ∃ d ∈ defs, d.name = c.name ∧ d.types.length = c.args.length := by
  intro c hc
  obtain ⟨sc, hsc, hcase⟩ := Py.exists_of_mem_mapM_ok hcases hc
  obtain ⟨d, hd, hdef⟩ := Py.mem_of_mapM_ok hdefs (List.mem_of_mem_filter hsc)
  exact ⟨d, hd, caseOf_declared hdef hcase⟩

theorem arms_declared {rustDefs : List RustDef} {arms : List MatchArm}
    (hdefs : (syscalls.filter Syscall.implemented).mapM (rustDef R) = .ok rustDefs)
    (harms : matchArms R syscalls = .ok arms) :
    ∀ arm ∈ arms, (∃ sc : Syscall, sc.implemented = false ∧ arm = ⟨sc.name, unimplementedExpr sc⟩) ∨
      ∃ d ∈ rustDefs, arm = ⟨d.name, callExpr d.name d.types.length⟩ := by
  intro arm harm
  obtain ⟨sc, hsc, hmatch⟩ := Py.exists_of_mem_mapM_ok harms harm
  rw [matchArm] at hmatch
  cases himpl : sc.implemented with
  | false =>
    rw [himpl] at hmatch
    exact .inl ⟨sc, himpl, (Except.ok.inj hmatch).symm⟩
  | true =>
    rw [himpl, if_pos rfl] at hmatch
    obtain ⟨red, hred, he⟩ := Py.bind_eq_ok_iff.mp hmatch
    obtain rfl := Except.ok.inj he
    obtain ⟨d, hd, hdef⟩ := Py.mem_of_mapM_ok hdefs (List.mem_filter.mpr ⟨hsc, himpl⟩)
    obtain ⟨types, htypes, he⟩ := Py.bind_eq_ok_iff.mp hdef
    obtain rfl := Except.ok.inj he
    have hlength : types.length = red.length := by
      rw [rustifyArgs] at htypes
      split at htypes
      · cases htypes
      · rw [hred] at htypes
        exact Py.mapM_ok_length htypes
    exact .inr ⟨_, hd, by rw [hlength]⟩

/-- **What is called is declared**: in the files the generator writes for any table, and with the
number of arguments that is passed. -/
theorem generate_declares {out : Output} (h : generate R syscalls = .ok out) :
    ∃ s : Contents, s.Declares ∧ out = s.output := by
  obtain ⟨defs, hdefs, h⟩ := Py.bind_eq_ok_iff.mp h
  obtain ⟨case, hcase, h⟩ := Py.bind_eq_ok_iff.mp h
  obtain ⟨caseVar, hcaseVar, h⟩ := Py.bind_eq_ok_iff.mp h
  obtain ⟨rustDefs, hrustDefs, h⟩ := Py.bind_eq_ok_iff.mp h
  obtain ⟨rustMatch, hrustMatch, h⟩ := Py.bind_eq_ok_iff.mp h
  obtain ⟨ds, hds, rfl⟩ := genAndWrite_eq_ok hdefs
  obtain ⟨cs, hcs, rfl⟩ := genAndWrite_eq_ok hcase
  obtain ⟨vs, hvs, rfl⟩ := genAndWrite_eq_ok hcaseVar
  obtain ⟨rs, hrs, rfl⟩ := genAndWrite_eq_ok hrustDefs
  obtain ⟨arms, harms, rfl⟩ := genAndWrite_eq_ok hrustMatch
  have hall : (syscalls.filter fun sc => true || sc.implemented) = syscalls := List.filter_true _
  rw [hall] at hds harms
  refine ⟨⟨ds, cs, vs, rs, arms⟩, ⟨?_, arms_declared hrs harms⟩, (Except.ok.inj h).symm⟩
  exact List.forall_mem_append.mpr ⟨cases_declared hds hcs, cases_declared hds hvs⟩

end Files

end Libc

end Wali
