import Wali.Py.Csv
import Wali.Syscalls

/-!
# The table as a file

`dump_syscalls_to_csv` writes the table of syscalls, one row for each. The names of the arguments are
left out, the lists of aliases are put in one cell each, and the types of the arguments have six
cells. A reader that takes the cells apart again gets the entries back exactly where these cells are enough.
-/

namespace Wali

open Py (Str)

-- ════════════════════════════════════════════════════════════════════════
-- Writing
-- ════════════════════════════════════════════════════════════════════════

def csvHeader : List Str :=
  ["NR", "Syscall", "# Args", "a1", "a2", "a3", "a4", "a5", "a6", "Aliases", "Unused Aliases",
    "aarch64_NR", "riscv64_NR"]

/-- `s.args + [""] * (6 - len(s.args))`. -/
def Syscall.paddedArgs (s : Syscall) : List Str := s.args ++ List.replicate (6 - s.args.length) []

def Syscall.csvRow (s : Syscall) : List Str :=
  let numArgs : Str := if s.implemented then Py.natStr s.args.length else ""
  [Py.intStr s.nrs.x86_64, s.name, numArgs] ++ s.paddedArgs ++
    [Py.join "," s.aliases, Py.join "," s.unusedAliases, Py.intStr s.nrs.arm64, Py.intStr s.nrs.rv64]

def dumpSyscallsToCsv (list : List Syscall) : Str := Py.Csv.write (csvHeader :: list.map Syscall.csvRow)

-- ════════════════════════════════════════════════════════════════════════
-- Reading
-- ════════════════════════════════════════════════════════════════════════

/-- The integer that is written like this. -/
def readInt : Str → ℤ
  | '-' :: digits => -(Py.intOfDigits digits : ℤ)
  | digits => Py.intOfDigits digits

/-- The names in a cell. An empty cell has none. -/
def readNames (cell : Str) : List Str := if cell = [] then [] else cell.splitOn ','

def readRow : List Str → Option Syscall
  | nr :: name :: numArgs :: rest =>
    match rest.drop 6 with
    | [aliases, unusedAliases, arm64, rv64] => some
      { name
        nrs := ⟨readInt nr, readInt arm64, readInt rv64⟩
        args := (rest.take 6).takeWhile fun a => !a.isEmpty
        aliases := readNames aliases
        unusedAliases := readNames unusedAliases
        implemented := !numArgs.isEmpty }
    | _ => none
  | _ => none

def readSyscallsFromCsv (text : Str) : Option (List Syscall) := (Py.Csv.read text).tail.mapM readRow

/-- What a row says of a syscall. -/
def Syscall.anonymous (s : Syscall) : Syscall := { s with argsId := [] }

/-- A list of names that one cell can hold. -/
def OneCell (names : List Str) : Prop := names ≠ [[]] ∧ ∀ n ∈ names, ',' ∉ n

/-- A syscall that a row can hold. -/
structure Syscall.OneRow (s : Syscall) : Prop where
  few : s.args.length ≤ 6
  args : ∀ a ∈ s.args, a ≠ []
  aliases : OneCell s.aliases
  unusedAliases : OneCell s.unusedAliases

-- ════════════════════════════════════════════════════════════════════════
-- Cells
-- ════════════════════════════════════════════════════════════════════════

theorem head_natStr_ne_minus (n : ℕ) {s : Str} : Py.natStr n ≠ '-' :: s := by
  intro h
  have hdigit : ('-' : Char).isDigit = true := Py.isDigit_of_mem_natStr (n := n) (by rw [h]; exact List.mem_cons_self)
  revert hdigit
  decide

theorem readInt_intStr (n : ℤ) : readInt (Py.intStr n) = n := by
  cases n with
  | ofNat n =>
    rw [Py.intStr, readInt, Py.intOfDigits_natStr]
    · rfl
    · exact fun s h => head_natStr_ne_minus n h
  | negSucc n =>
    rw [Py.intStr, readInt, Py.intOfDigits_natStr]
    rfl

theorem readNames_join_iff {names : List Str} : readNames (Py.join "," names) = names ↔ OneCell names := by
  unfold readNames OneCell
  split
  · next hnil =>
    -- only no name and one empty name are written as an empty cell
    cases names with
    | nil => simp
    | cons n names =>
      cases names with
      | nil =>
        obtain rfl : n = [] := by simpa [Py.join] using hnil
        simp
      | cons m names =>
        rw [Py.join_cons_cons] at hnil
        simp at hnil
  · next hne =>
    have hnames : names ≠ [] := by
      rintro rfl
      exact hne rfl
    have hsplit : (Py.join "," names).splitOn ',' = names.flatMap (·.splitOn ',') := Py.splitOn_join hnames
    constructor
    · intro h
      refine ⟨?_, fun n hn => ?_⟩
      · rintro rfl
        exact hne rfl
      · rw [← h] at hn
        exact (Py.mem_splitOn hn).1
    · rintro ⟨-, hcomma⟩
      rw [hsplit, List.flatMap_congr fun n hn => Py.splitOn_of_not_mem (hcomma n hn), List.flatMap_singleton']

theorem takeWhile_padded_iff {args : List Str} (k : ℕ) :
    (args ++ List.replicate k []).takeWhile (fun a => !a.isEmpty) = args ↔ ∀ a ∈ args, a ≠ [] := by
  constructor
  · intro h a ha
    rw [← h] at ha
    simpa using List.mem_takeWhile_imp ha
  · intro h
    rw [List.takeWhile_append_of_pos fun a ha => by simpa using h a ha]
    cases k with
    | zero => simp
    | succ k => simp [List.replicate_succ]

theorem readRow_csvRow_iff (s : Syscall) : readRow s.csvRow = some s.anonymous ↔ s.OneRow := by
  have hrow : s.csvRow = Py.intStr s.nrs.x86_64 :: s.name ::
      (if s.implemented then Py.natStr s.args.length else "") :: (s.paddedArgs ++
        [Py.join "," s.aliases, Py.join "," s.unusedAliases, Py.intStr s.nrs.arm64, Py.intStr s.nrs.rv64]) := rfl
  rw [hrow, readRow]
  by_cases hfew : s.args.length ≤ 6
  · have hlen : s.paddedArgs.length = 6 := by
      rw [Syscall.paddedArgs, List.length_append, List.length_replicate]
      omega
    have himpl : (!(if s.implemented then Py.natStr s.args.length else ("" : Str)).isEmpty) = s.implemented := by
      cases s.implemented with
      | true => simp [Py.natStr_ne_nil]
      | false => rfl
    rw [List.drop_left' hlen, List.take_left' hlen]
    simp only [readInt_intStr, himpl, Syscall.anonymous, Option.some.injEq, Syscall.mk.injEq, true_and, and_true,
      Syscall.paddedArgs, takeWhile_padded_iff, readNames_join_iff]
    constructor
    · rintro ⟨hargs, haliases, hunused⟩
      exact ⟨hfew, hargs, haliases, hunused⟩
    · intro h
      exact ⟨h.args, h.aliases, h.unusedAliases⟩
  · refine iff_of_false ?_ fun h => hfew h.few
    split
    · next hdrop =>
      have hlen := congrArg List.length hdrop
      simp only [Syscall.paddedArgs, List.length_drop, List.length_append, List.length_replicate, List.length_cons,
        List.length_nil] at hlen
      omega
    · simp

/-- **Round trip**: the table is read back exactly if every syscall fits in its row. -/
theorem read_dump_iff (list : List Syscall) :
    readSyscallsFromCsv (dumpSyscallsToCsv list) = some (list.map Syscall.anonymous) ↔
      ∀ s ∈ list, s.OneRow := by
  rw [readSyscallsFromCsv, dumpSyscallsToCsv, Py.Csv.read_write, List.tail_cons]
  simp only [← readRow_csvRow_iff]
  induction list with
  | nil => simp
  | cons s list ih =>
    rw [List.map_cons, List.mapM_cons, List.map_cons, List.forall_mem_cons, ← ih]
    simp only [Option.bind_eq_bind, Option.bind_eq_some_iff, Option.pure_def, Option.some.injEq, List.cons.injEq]
    constructor
    · rintro ⟨x, hx, xs, hxs, rfl, rfl⟩
      exact ⟨hx, hxs⟩
    · rintro ⟨hx, hxs⟩
      exact ⟨_, hx, _, hxs, rfl, rfl⟩

end Wali
