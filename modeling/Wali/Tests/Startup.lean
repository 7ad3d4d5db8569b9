import Wali.Clib
import Wali.Tests.Runner

/-!
# Starting a test under Wasm

A Wasm test imports its environment and its arguments: `test_init_env` reads the file that the runner
has written for the run, `test_init_args` copies the arguments that the engine has into static
buffers.
-/

namespace Wali.Tests

open Py (Str Dict)
open Clib (Bytes Memory newline fgets)

-- ════════════════════════════════════════════════════════════════════════
-- The environment file
-- ════════════════════════════════════════════════════════════════════════

/-- What is in a text file. -/
def utf8 (s : Str) : Bytes := s.flatMap String.utf8EncodeChar

/-- The loop body of `parse_env_str`: a word with `=` in it is an assignment. -/
def parseEnvPart (env : Dict Str Str) (part : Str) : Dict Str Str :=
  if part.contains '=' then env.set (part.takeWhile (· != '=')) ((part.dropWhile (· != '=')).drop 1)
  else env

/-- `parse_env_str` on the words that `shlex.split` finds. -/
def parseEnvStr (parts : List Str) (env : Dict Str Str) : Dict Str Str := parts.foldl parseEnvPart env

/-- The loop of `test_init_env`: the strings passed to `putenv`, and what is returned. -/
def envLoop (stream : Bytes) : List Bytes × ℕ :=
  match h : fgets 1024 stream with
  | none => ([], 0)
  | some (chunk, rest) =>
    -- `strlen` stops at the first NUL
    let line := chunk.takeWhile (· != 0)
    if 1023 ≤ line.length then ([], 1)
    else
      let line := if line.getLast? = some newline then line.dropLast else line
      (line :: (envLoop rest).1, (envLoop rest).2)
termination_by stream.length
decreasing_by all_goals exact Clib.length_of_fgets h (by decide)

/-- `test_init_env`, where the engine has the path of the file or not, and the file can be opened or
not. -/
def testInitEnv (found : Bool) (file : Option Bytes) : List Bytes × ℕ :=
  if found then
    match file with
    | none => ([], 1)
    | some stream => envLoop stream
  else ([], 0)

/-- The line of an entry, without its end. -/
def entryBytes (e : Str × Str) : Bytes := utf8 (e.1 ++ "=" ++ e.2)

/-- The name and the value that `putenv` takes from a string. -/
def assignment (s : Bytes) : Bytes × Bytes := (s.takeWhile (· != 61), (s.dropWhile (· != 61)).drop 1)

/-- Every entry is passed on as it is, up to the first that does not fit. -/
structure ReadsBack (entries : List (Str × Str)) (run : List Bytes × ℕ) : Prop where
  short : (∀ e ∈ entries, (entryBytes e).length ≤ 1021) → run = (entries.map entryBytes, 0)
  long : ∀ front e back, entries = front ++ e :: back → (∀ f ∈ front, (entryBytes f).length ≤ 1021) →
    1021 < (entryBytes e).length → run = (front.map entryBytes, 1)
  same : ∀ s ∈ run.1, ∃ e ∈ entries, s = entryBytes e ∧ assignment s = (utf8 e.1, utf8 e.2)

section Utf8

/-- A byte below 128 is the character itself. -/
theorem toNat_of_mem_utf8EncodeChar {c : Char} {b : UInt8} (h : b ∈ String.utf8EncodeChar c)
    (hb : b.toNat < 128) : b.toNat = c.toNat := by
  have hc : c.val.toNat = c.toNat := rfl
  unfold String.utf8EncodeChar at h
  simp only at h
  split_ifs at h
  all_goals
    simp only [List.mem_cons, List.not_mem_nil, or_false] at h
    rcases h with rfl | rfl | rfl | rfl <;> simp only [UInt8.toNat_ofNat'] at hb ⊢ <;> omega

theorem not_mem_utf8 {s : Str} {c : Char} {b : UInt8} (hbc : b.toNat = c.toNat) (hb : b.toNat < 128)
    (h : c ∉ s) : b ∉ utf8 s := by
  intro hmem
  obtain ⟨d, hd, hbd⟩ := List.mem_flatMap.mp hmem
  have hcd : c = d := Char.ext (UInt32.toNat_inj.mp
    (hbc.symm.trans (toNat_of_mem_utf8EncodeChar hbd hb)))
  exact h (hcd ▸ hd)

theorem utf8_append (a b : Str) : utf8 (a ++ b) = utf8 a ++ utf8 b := List.flatMap_append

end Utf8

-- ════════════════════════════════════════════════════════════════════════
-- Reading
-- ════════════════════════════════════════════════════════════════════════

section Reading

variable {line : Bytes}

theorem envLoop_nil : envLoop [] = ([], 0) := by
  rw [envLoop]
  rfl

theorem envLoop_of_fgets {stream chunk rest : Bytes} (h : fgets 1024 stream = some (chunk, rest)) :
    envLoop stream = if 1023 ≤ (chunk.takeWhile (· != 0)).length then ([], 1) else
      ((if (chunk.takeWhile (· != 0)).getLast? = some newline then (chunk.takeWhile (· != 0)).dropLast
        else chunk.takeWhile (· != 0)) :: (envLoop rest).1, (envLoop rest).2) := by
  rw [envLoop]
  split
  · next h' => rw [h] at h'; cases h'
  · next h' => rw [h] at h'; cases h'; rfl

theorem fgets_line (hline : newline ∉ line) (hlen : line.length < 1023) (rest : Bytes) :
    fgets 1024 (line ++ newline :: rest) = some (line ++ [newline], rest) := by
  rw [fgets, if_neg (by simp), Clib.takeLine_append_newline hline hlen]

/-- A line that fits is passed on. -/
theorem envLoop_line (hline : newline ∉ line) (hzero : 0 ∉ line) (hlen : line.length ≤ 1021) (rest : Bytes) :
    envLoop (line ++ newline :: rest) = (line :: (envLoop rest).1, (envLoop rest).2) := by
  have hstop : (line ++ [newline]).takeWhile (· != 0) = line ++ [newline] :=
    Cut.takeWhile_bne (by simpa [newline] using hzero)
  rw [envLoop_of_fgets (fgets_line hline (by omega) rest), hstop, List.length_append, List.length_singleton,
    if_neg (by omega), List.getLast?_concat, if_pos rfl, List.dropLast_concat]

/-- A line that does not fit ends the loop, whether its end is in the buffer or not. -/
theorem envLoop_long (hline : newline ∉ line) (hzero : 0 ∉ line) (hlen : 1021 < line.length) (rest : Bytes) :
    envLoop (line ++ newline :: rest) = ([], 1) := by
  by_cases hfits : line.length < 1023
  · have hstop : (line ++ [newline]).takeWhile (· != 0) = line ++ [newline] :=
      Cut.takeWhile_bne (by simpa [newline] using hzero)
    rw [envLoop_of_fgets (fgets_line hline hfits rest), hstop, List.length_append, List.length_singleton,
      if_pos (by omega)]
  · have hchunk : fgets 1024 (line ++ newline :: rest) =
        some (line.take 1023, line.drop 1023 ++ newline :: rest) := by
      rw [fgets, if_neg (by simp), Clib.takeLine_of_le_length hline (Nat.not_lt.mp hfits)]
    rw [envLoop_of_fgets hchunk, Cut.takeWhile_bne fun h => hzero (List.mem_of_mem_take h), List.length_take,
      if_pos (by omega)]

/-- The lines in front are passed on one after the other. -/
theorem envLoop_lines {lines : List Bytes} (hclean : ∀ l ∈ lines, newline ∉ l ∧ 0 ∉ l)
    (hlen : ∀ l ∈ lines, l.length ≤ 1021) (rest : Bytes) :
    envLoop (lines.flatMap (· ++ [newline]) ++ rest) = (lines ++ (envLoop rest).1, (envLoop rest).2) := by
  induction lines with
  | nil => rfl
  | cons l lines ih =>
    have hl := hclean l List.mem_cons_self
    rw [List.flatMap_cons, List.append_assoc, List.append_assoc, List.singleton_append,
      envLoop_line hl.1 hl.2 (hlen l List.mem_cons_self),
      ih (fun l' h => hclean l' (List.mem_cons_of_mem _ h)) fun l' h => hlen l' (List.mem_cons_of_mem _ h)]
    rfl

/-- Whatever is passed on is a line of the file. -/
theorem mem_envLoop {lines : List Bytes} (hclean : ∀ l ∈ lines, newline ∉ l ∧ 0 ∉ l) {s : Bytes}
    (hs : s ∈ (envLoop (lines.flatMap (· ++ [newline]))).1) : s ∈ lines := by
  induction lines with
  | nil =>
    rw [List.flatMap_nil, envLoop_nil] at hs
    cases hs
  | cons l lines ih =>
    have hl := hclean l List.mem_cons_self
    rw [List.flatMap_cons, List.append_assoc, List.singleton_append] at hs
    by_cases hlen : l.length ≤ 1021
    · rw [envLoop_line hl.1 hl.2 hlen] at hs
      rcases List.mem_cons.mp hs with rfl | hs
      · exact List.mem_cons_self
      · exact List.mem_cons_of_mem _ (ih (fun l' h => hclean l' (List.mem_cons_of_mem _ h)) hs)
    · rw [envLoop_long hl.1 hl.2 (Nat.not_le.mp hlen)] at hs
      cases hs

end Reading

-- ════════════════════════════════════════════════════════════════════════
-- Writing
-- ════════════════════════════════════════════════════════════════════════

/-- Every entry is one of the words, cut at its first `=`. -/
theorem mem_parseEnvStr {parts : List Str} {env : Dict Str Str} {e : Str × Str}
    (h : e ∈ (parseEnvStr parts env).entries) :
    e ∈ env.entries ∨ '=' ∉ e.1 ∧ e.1 ++ "=" ++ e.2 ∈ parts := by
  induction parts generalizing env with
  | nil => exact Or.inl h
  | cons part parts ih =>
    rcases ih h with hpart | ⟨hkey, hmem⟩
    · unfold parseEnvPart at hpart
      split at hpart
      · next heq =>
        obtain ⟨key, value, rfl, hkey⟩ := List.eq_append_cons_of_mem (List.contains_iff_mem.mp heq)
        rw [Cut.takeWhile_bne_append_cons hkey, Cut.dropWhile_bne_append_cons hkey, Dict.mem_set_entries] at hpart
        rcases hpart with rfl | ⟨hold, _⟩
        · refine Or.inr ⟨hkey, ?_⟩
          rw [List.append_assoc]
          exact List.mem_cons_self
        · exact Or.inl hold
      · exact Or.inl hpart
    · exact Or.inr ⟨hkey, List.mem_cons_of_mem _ hmem⟩

theorem utf8_envFileContent (c : Case) :
    utf8 c.envFileContent = (c.config.env.entries.map entryBytes).flatMap (· ++ [newline]) := by
  rw [utf8, Case.envFileContent, List.flatMap_assoc, List.flatMap_map]
  exact List.flatMap_congr fun e _ => utf8_append _ _

theorem assignment_entryBytes {e : Str × Str} (h : '=' ∉ e.1) :
    assignment (entryBytes e) = (utf8 e.1, utf8 e.2) := by
  have hbytes : entryBytes e = utf8 e.1 ++ 61 :: utf8 e.2 := by
    rw [entryBytes, utf8_append, utf8_append, List.append_assoc]
    rfl
  have hkey : 61 ∉ utf8 e.1 := not_mem_utf8 (c := '=') rfl (by decide) h
  rw [assignment, hbytes, Cut.takeWhile_bne_append_cons hkey, Cut.dropWhile_bne_append_cons hkey]
  rfl

/-- **The environment file**: what is written for the words of a `// CMD:` line is read back entry by
entry, up to the first entry of more than 1021 bytes. -/
theorem testInitEnv_readsBack (c : Case) (parts : List Str)
    (hparts : ∀ p ∈ parts, '\n' ∉ p ∧ '\x00' ∉ p) (henv : c.config.env = parseEnvStr parts .empty) :
    ReadsBack c.config.env.entries (testInitEnv true (some (utf8 c.envFileContent))) := by
  have hentry : ∀ e ∈ c.config.env.entries, '=' ∉ e.1 ∧ e.1 ++ "=" ++ e.2 ∈ parts := by
    intro e he
    rw [henv] at he
    exact (mem_parseEnvStr he).resolve_left (List.not_mem_nil)
  have hclean : ∀ l ∈ c.config.env.entries.map entryBytes, newline ∉ l ∧ 0 ∉ l := by
    intro l hl
    obtain ⟨e, he, rfl⟩ := List.mem_map.mp hl
    obtain ⟨hbreak, hnul⟩ := hparts _ (hentry e he).2
    exact ⟨not_mem_utf8 (c := '\n') rfl (by decide) hbreak, not_mem_utf8 (c := '\x00') rfl (by decide) hnul⟩
  change ReadsBack _ (envLoop (utf8 c.envFileContent))
  rw [utf8_envFileContent]
  refine ⟨fun hshort => ?_, fun front e back heq hfront hlong => ?_, fun s hs => ?_⟩
  · have hlines := envLoop_lines hclean (List.forall_mem_map.mpr hshort) []
    rw [List.append_nil, envLoop_nil, List.append_nil] at hlines
    exact hlines
  · rw [heq, List.map_append, List.map_cons] at hclean ⊢
    have he := hclean (entryBytes e) (List.mem_append_right _ List.mem_cons_self)
    rw [List.flatMap_append, List.flatMap_cons, List.append_assoc, List.singleton_append,
      envLoop_lines (fun l hl => hclean l (List.mem_append_left _ hl)) (List.forall_mem_map.mpr hfront),
      envLoop_long he.1 he.2 hlong, List.append_nil]
  · obtain ⟨e, he, rfl⟩ := List.mem_map.mp (mem_envLoop hclean hs)
    exact ⟨e, he, rfl, assignment_entryBytes (hentry e he).1⟩

/-- `// CMD: env="MODE=fast EMPTY= URL=a=b"`. -/
def envCase : Case where
  baseName := "env"
  config := { env := parseEnvStr ["MODE=fast", "EMPTY=", "URL=a=b"] .empty }
  engine := { name := "iwasm" }
  verbose := false
  runIdx := 0

theorem testInitEnv_readsBack_three :
    envCase.envFileContent = "MODE=fast\nEMPTY=\nURL=a=b\n" ∧
    testInitEnv true (some (utf8 envCase.envFileContent)) =
      ([utf8 "MODE=fast", utf8 "EMPTY=", utf8 "URL=a=b"], 0) := by
  refine ⟨by decide +kernel, ?_⟩
  have h := testInitEnv_readsBack envCase ["MODE=fast", "EMPTY=", "URL=a=b"] (by decide) rfl
  exact (h.short (by decide +kernel)).trans (by decide +kernel)

-- ════════════════════════════════════════════════════════════════════════
-- The arguments
-- ════════════════════════════════════════════════════════════════════════

/-- An argument of the process: no NUL is in it. -/
structure Arg where
  bytes : Bytes
  noNul : 0 ∉ bytes

/-- `__cl_get_argv_len`: the length with the NUL. -/
def Arg.len (a : Arg) : ℕ := a.bytes.length + 1

/-- The number of rows of `wasm_args`, and of entries of `wasm_argv_ptrs`. -/
def argRows : ℕ := 256

/-- The size of a row of `wasm_args`. -/
def rowSize : ℕ := 1024

/-- What `argv` points to. -/
inductive ArgvPtr where
  | wasmArgvPtrs
  | other (address : ℕ)
  deriving DecidableEq, Repr

/-- The globals of a test. -/
structure ArgState where
  /-- The bytes of `wasm_args`, row after row. -/
  wasmArgs : Memory
  /-- The entries of `wasm_argv_ptrs`: NULL, or an offset in `wasm_args`. -/
  wasmArgvPtrs : ℕ → Option ℕ
  argc : ℕ
  argv : ArgvPtr
  /-- The row and the number of bytes of each copy, the last one first. -/
  copies : List (ℕ × ℕ)

/-- The static buffers are zero at first. -/
def ArgState.init (argc : ℕ) (argv : ArgvPtr) : ArgState := ⟨fun _ => 0, fun _ => none, argc, argv, []⟩

/-- `__cl_copy_argv(wasm_args[i], i)` and the assignment after it. -/
def ArgState.copy (s : ArgState) (i : ℕ) (a : Arg) : ArgState :=
  { s with
    wasmArgs := Clib.store s.wasmArgs (rowSize * i) (a.bytes ++ [0])
    wasmArgvPtrs := Function.update s.wasmArgvPtrs i (some (rowSize * i))
    copies := (i, a.len) :: s.copies }

/-- The loop of `test_init_args`, from argument `i` on. -/
def argsLoop : ℕ → List Arg → ArgState → ℕ × ArgState
  | _, [], s => (0, s)
  | i, a :: args, s => if rowSize ≤ a.len then (1, s) else argsLoop (i + 1) args (s.copy i a)

/-- `test_init_args`, for a process with these arguments. -/
def testInitArgs (args : List Arg) (s : ArgState) : ℕ × ArgState :=
  if argRows < args.length then (1, s) else
  match argsLoop 0 args s with
  | (0, s) => (0, { s with argc := args.length, argv := .wasmArgvPtrs })
  | failed => failed

/-- The globals are those of a C program with these arguments. -/
structure ArgState.HasArgs (s : ArgState) (args : List Arg) : Prop where
  argc : s.argc = args.length
  argv : s.argv = .wasmArgvPtrs
  strings : ∀ i a, args[i]? = some a →
    ∃ p, s.wasmArgvPtrs i = some p ∧ Clib.string s.wasmArgs p rowSize = some a.bytes
  /-- `argv[argc]` is in bounds, and NULL. -/
  last : args.length < argRows ∧ s.wasmArgvPtrs args.length = none

/-- The arguments are imported, or `argc` and `argv` stay as they are. -/
structure ImportsArgs (args : List Arg) (argc : ℕ) (argv : ArgvPtr) (run : ℕ × ArgState) : Prop where
  result : (run.1 = 1 ∧ run.2.argc = argc ∧ run.2.argv = argv) ∨ (run.1 = 0 ∧ run.2.HasArgs args)
  /-- Every byte that is written is in the row of its argument. -/
  bounds : ∀ c ∈ run.2.copies, c.1 < argRows ∧ c.2 ≤ rowSize
  accepts : args.length < argRows → (∀ a ∈ args, a.len < rowSize) → run.1 = 0

/-- After `i` turns of the loop. -/
structure Imported (args : List Arg) (argc : ℕ) (argv : ArgvPtr) (i : ℕ) (s : ArgState) : Prop where
  argc : s.argc = argc
  argv : s.argv = argv
  ptrs : ∀ j, s.wasmArgvPtrs j = if j < i then some (rowSize * j) else none
  rows : ∀ j a, j < i → args[j]? = some a →
    a.len < rowSize ∧ Clib.load s.wasmArgs (rowSize * j) a.len = a.bytes ++ [0]
  copies : ∀ c ∈ s.copies, c.1 < i ∧ c.2 < rowSize

section Import

variable {args rest : List Arg} {argc : ℕ} {argv : ArgvPtr} {i : ℕ} {s : ArgState}

theorem imported_init (args : List Arg) (argc : ℕ) (argv : ArgvPtr) :
    Imported args argc argv 0 (.init argc argv) :=
  ⟨rfl, rfl, fun _ => rfl, fun _ _ h => absurd h (Nat.not_lt_zero _), fun _ h => nomatch h⟩

/-- Rows do not overlap: a copy leaves the others as they are. -/
theorem Imported.copy (h : Imported args argc argv i s) {a : Arg} (ha : args[i]? = some a)
    (hlen : a.len < rowSize) : Imported args argc argv (i + 1) (s.copy i a) := by
  refine ⟨h.argc, h.argv, fun j => ?_, fun j b hj hb => ?_, fun c hc => ?_⟩
  · change Function.update s.wasmArgvPtrs i (some (rowSize * i)) j = _
    by_cases hji : j = i
    · rw [hji, Function.update_self, if_pos (Nat.lt_succ_self i)]
    · rw [Function.update_of_ne hji, h.ptrs]
      exact if_congr (by omega) rfl rfl
  · have hstored : (a.bytes ++ [0]).length = a.len := List.length_append
    by_cases hji : j = i
    · subst hji
      obtain rfl : a = b := Option.some.inj (ha.symm.trans hb)
      refine ⟨hlen, ?_⟩
      rw [← hstored]
      exact Clib.load_store_self _ _ _
    · obtain ⟨hb', hload⟩ := h.rows j b (by omega) hb
      refine ⟨hb', (Clib.load_store_of_disjoint _ (Or.inl ?_)).trans hload⟩
      have hrow : rowSize * (j + 1) ≤ rowSize * i := Nat.mul_le_mul_left _ (by omega)
      rw [Nat.mul_succ] at hrow
      omega
  · rcases List.mem_cons.mp hc with rfl | hc
    · exact ⟨Nat.lt_succ_self i, hlen⟩
    · exact ⟨Nat.lt_succ_of_lt (h.copies c hc).1, (h.copies c hc).2⟩

/-- The loop ends with all arguments copied, or at the first that does not fit. -/
theorem Imported.argsLoop (h : Imported args argc argv i s) (hi : i ≤ args.length)
    (hrest : args.drop i = rest) :
    ((Tests.argsLoop i rest s).1 = 0 ∧ (∀ a ∈ rest, a.len < rowSize) ∧
      Imported args argc argv args.length (Tests.argsLoop i rest s).2) ∨
    ((Tests.argsLoop i rest s).1 = 1 ∧ (¬ ∀ a ∈ rest, a.len < rowSize) ∧
      ∃ j ≤ args.length, Imported args argc argv j (Tests.argsLoop i rest s).2) := by
  induction rest generalizing i s with
  | nil =>
    obtain rfl : i = args.length := Nat.le_antisymm hi (List.drop_eq_nil_iff.mp hrest)
    exact Or.inl ⟨rfl, fun _ ha => (nomatch ha), h⟩
  | cons a rest ih =>
    have ha : args[i]? = some a := by
      rw [← List.head?_drop, hrest]
      rfl
    have hlt : i < args.length := (List.getElem?_eq_some_iff.mp ha).1
    have hdrop : args.drop (i + 1) = rest := by
      rw [← List.tail_drop, hrest]
      rfl
    rw [Tests.argsLoop]
    by_cases hlen : rowSize ≤ a.len
    · rw [if_pos hlen]
      exact Or.inr ⟨rfl, fun hall => absurd (hall a List.mem_cons_self) (Nat.not_lt.mpr hlen), i, hi, h⟩
    · rw [if_neg hlen, List.forall_mem_cons, and_iff_right (Nat.not_le.mp hlen)]
      exact ih (h.copy ha (Nat.not_le.mp hlen)) hlt hdrop

theorem Imported.hasArgs (h : Imported args argc argv args.length s) (hlt : args.length < argRows) :
    ({ s with argc := args.length, argv := .wasmArgvPtrs } : ArgState).HasArgs args := by
  refine ⟨rfl, rfl, fun i a ha => ?_, hlt, ?_⟩
  · have hi := (List.getElem?_eq_some_iff.mp ha).1
    obtain ⟨hlen, hload⟩ := h.rows i a hi ha
    exact ⟨rowSize * i, (h.ptrs i).trans (if_pos hi),
      Clib.string_of_load hload a.noNul (Nat.lt_of_succ_lt hlen)⟩
  · exact (h.ptrs _).trans (if_neg (Nat.lt_irrefl _))

/-- What the function returns and leaves behind. -/
theorem testInitArgs_cases (args : List Arg) (argc : ℕ) (argv : ArgvPtr) :
    (testInitArgs args (.init argc argv) = (1, .init argc argv) ∧ argRows < args.length) ∨
    (args.length ≤ argRows ∧ (∀ a ∈ args, a.len < rowSize) ∧ ∃ s, Imported args argc argv args.length s ∧
      testInitArgs args (.init argc argv) = (0, { s with argc := args.length, argv := .wasmArgvPtrs })) ∨
    (args.length ≤ argRows ∧ (¬ ∀ a ∈ args, a.len < rowSize) ∧ ∃ s, ∃ j ≤ args.length,
      Imported args argc argv j s ∧ testInitArgs args (.init argc argv) = (1, s)) := by
  unfold testInitArgs
  by_cases hrows : argRows < args.length
  · exact Or.inl ⟨if_pos hrows, hrows⟩
  · rw [if_neg hrows]
    have hle := Nat.not_lt.mp hrows
    have hrun := (imported_init args argc argv).argsLoop (Nat.zero_le _) List.drop_zero
    generalize Tests.argsLoop 0 args (.init argc argv) = run at hrun ⊢
    obtain ⟨code, s⟩ := run
    rcases hrun with ⟨rfl, hall, himp⟩ | ⟨rfl, hall, j, hj, himp⟩
    · exact Or.inr (Or.inl ⟨hle, hall, s, himp, rfl⟩)
    · exact Or.inr (Or.inr ⟨hle, hall, s, j, hj, himp, rfl⟩)

end Import

/-- **Importing the arguments**: the only vectors that go wrong are those with 256 arguments that all
fit, for which there is no room for the NULL behind the last one. -/
theorem importsArgs_iff (args : List Arg) (argc : ℕ) (argv : ArgvPtr) :
    ImportsArgs args argc argv (testInitArgs args (.init argc argv)) ↔
      ¬ (args.length = argRows ∧ ∀ a ∈ args, a.len < rowSize) := by
  have hbounds {i : ℕ} {s : ArgState} (h : Imported args argc argv i s) (hi : i ≤ argRows) :
      ∀ c ∈ s.copies, c.1 < argRows ∧ c.2 ≤ rowSize :=
    fun c hc => ⟨(h.copies c hc).1.trans_le hi, (h.copies c hc).2.le⟩
  rcases testInitArgs_cases args argc argv with ⟨hrun, hlt⟩ | ⟨hle, hall, s, himp, hrun⟩ |
    ⟨hle, hall, s, j, hj, himp, hrun⟩
  · rw [hrun]
    refine iff_of_true ⟨Or.inl ⟨rfl, rfl, rfl⟩, fun _ hc => (nomatch hc), fun h => ?_⟩ fun h => ?_
    · omega
    · omega
  · rw [hrun]
    constructor
    · rintro ⟨⟨hone, _⟩ | ⟨_, hargs⟩, _, _⟩ ⟨hrows, _⟩
      · cases hone
      · exact absurd hargs.last.1 (by omega)
    · intro hcond
      have hlt : args.length < argRows := lt_of_le_of_ne hle fun heq => hcond ⟨heq, hall⟩
      have hcopies := hbounds himp hle
      exact ⟨Or.inr ⟨rfl, himp.hasArgs hlt⟩, hcopies, fun _ _ => rfl⟩
  · rw [hrun]
    exact iff_of_true ⟨Or.inl ⟨rfl, himp.argc, himp.argv⟩, hbounds himp (hj.trans hle),
      fun _ h => absurd h hall⟩ fun h => hall h.2

/-- 256 arguments `x`. -/
def fullArgs : List Arg := List.replicate 256 ⟨[120], by decide⟩

/-- All of them are accepted, and `argv[argc]` is behind the end of `wasm_argv_ptrs`. -/
theorem no_room_for_null :
    (testInitArgs fullArgs (.init 0 (.other 0))).1 = 0 ∧
    (testInitArgs fullArgs (.init 0 (.other 0))).2.argc = argRows ∧
    (testInitArgs fullArgs (.init 0 (.other 0))).2.argv = .wasmArgvPtrs ∧
    ¬ ImportsArgs fullArgs 0 (.other 0) (testInitArgs fullArgs (.init 0 (.other 0))) := by
  have hlength : fullArgs.length = argRows := List.length_replicate
  have hall : ∀ a ∈ fullArgs, a.len < rowSize := by
    intro a ha
    rw [List.eq_of_mem_replicate ha]
    decide
  rcases testInitArgs_cases fullArgs 0 (.other 0) with ⟨_, hlt⟩ | ⟨_, _, s, _, hrun⟩ | ⟨_, hlong, _⟩
  · omega
  · rw [hrun]
    refine ⟨rfl, hlength, rfl, ?_⟩
    rintro ⟨⟨hone, _⟩ | ⟨_, hargs⟩, _, _⟩
    · cases hone
    · exact absurd hargs.last.1 (by omega)
  · exact absurd hall hlong

end Wali.Tests
