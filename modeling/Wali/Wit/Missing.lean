import Wali.Wit.Generate

/-!
# Missing records

`_generate_wit_file` warns about pointees that have no record. It recovers a pointee from the alias
of the pointer, by removing every leading `ptr-`, and looks it up among the names it declares. What
should be reported is said from the types themselves: `missingExact_iff` compares the two.
-/

namespace Wali.Wit

open Py (Str Dict)

/-- The loop over `startswith("ptr-")`. -/
def stripPtrs : Str → Str
  | 'p' :: 't' :: 'r' :: '-' :: s => stripPtrs s
  | s => s

/-- `missing_types`. The records are written before the check, and may raise. -/
def missingTypes (R : TypeRegistry) (scs : List Syscall) : Except Py.Error (List Str) := do
  let compTypes ← buildWitCompTypes R
  let _ ← records R
  let recordTypes := R.structDefs.keys.map toWit
  let isSkippable (x : Str) : Bool :=
    (basicTypesWit R).keys.contains x || compTypes.keys.contains x ||
      ([("void" : Str), "char"] : List Str).contains x
  let scPtrTypes := (((uniqPtrTypes R scs).map stripPtrs).filter fun x => !isSkippable x).dedup
  return scPtrTypes.filter fun x => !recordTypes.contains x

-- ════════════════════════════════════════════════════════════════════════
-- What should be reported
-- ════════════════════════════════════════════════════════════════════════

/-- Part of the end of a pointer type. -/
def isStarOrSpace (c : Char) : Bool := c == '*' || Py.isSpace c

/-- The innermost pointee: the type without its stars and the white space around. -/
def pointee (t : Str) : Str := (t.rdropWhile isStarOrSpace).dropWhile Py.isSpace

/-- The type of a struct field or of an argument. -/
inductive TypeUse where
  | field (typeName : Str)
  | arg (type : SyscallArg)
  deriving DecidableEq, Repr

namespace TypeUse

def text : TypeUse → Str
  | .field typeName => typeName
  | .arg type => Py.strip type

def isPointer (u : TypeUse) : Bool := Py.endsWith u.text "*"

/-- The hyphenated name of what it points to. -/
def pointeeName (u : TypeUse) : Str := toWit (pointee u.text)

/-- The alias the generator gives it. -/
def ptrAlias : TypeUse → Str
  | .field typeName => ptrName typeName
  | .arg type => witArg type

/-- Whether the generator takes it for a pointer. -/
def isCollected : TypeUse → Bool
  | .field typeName => Py.endsWith typeName "*"
  | .arg type => Py.startsWith (witArg type) "ptr-"

/-- The name that the check looks up for it. -/
def lookedUp (u : TypeUse) : Str := stripPtrs u.ptrAlias

/-- An argument that is a function pointer. -/
def isFnPtr : TypeUse → Bool
  | .field _ => false
  | .arg type => SyscallArg.isFnPtr (Py.strip type)

def isArg : TypeUse → Bool
  | .field _ => false
  | .arg _ => true

/-- The hyphenated name in front of the last stars. -/
def base : TypeUse → Str
  | .field typeName => toWit (Py.strip (Py.rstripChar '*' typeName))
  | .arg type => toWit (Py.rstripChar '*' (Py.strip type))

/-- A data pointer spelled as a name followed by stars, where the name does not look like an
alias. -/
def Plain (u : TypeUse) : Prop :=
  u.isFnPtr = false ∧ u.isPointer = true ∧ Py.startsWith u.base "ptr-" = false ∧
    u.base = u.pointeeName

/-- A data pointer with white space or further stars between its name and its last stars. -/
def Uneven (u : TypeUse) : Prop :=
  u.isFnPtr = false ∧ u.isPointer = true ∧ Py.startsWith u.base "ptr-" = false ∧
    u.base ≠ u.pointeeName

/-- A data pointer whose name looks like an alias, or an argument that is no pointer at all but has
such a name. -/
def Aliased (u : TypeUse) : Prop :=
  u.isFnPtr = false ∧ (u.isPointer = true ∨ u.isArg = true) ∧ Py.startsWith u.base "ptr-" = true

instance (u : TypeUse) : Decidable u.Plain := inferInstanceAs (Decidable (_ ∧ _))

instance (u : TypeUse) : Decidable u.Uneven := inferInstanceAs (Decidable (_ ∧ _))

instance (u : TypeUse) : Decidable u.Aliased := inferInstanceAs (Decidable (_ ∧ _))

/-- What is looked up for a type, by its kind. -/
inductive Lookup (u : TypeUse) : Str → Prop where
  | function (h : u.isFnPtr = true) : Lookup u "func"
  | plain (h : u.Plain) : Lookup u u.pointeeName
  | uneven (h : u.Uneven) : Lookup u u.base
  | aliased (h : u.Aliased) : Lookup u (stripPtrs u.base)

end TypeUse

section Report

variable (R : TypeRegistry) (scs : List Syscall)

/-- All fields and arguments. -/
def typeUses : List TypeUse :=
  (R.structDefs.values.flatMap (·.fields)).map (fun f => .field f.typeName) ++
    (scs.flatMap (·.args)).map .arg

/-- One of the two names that need no entry, or a name of the registry. -/
def Known (x : Str) : Prop := x ∈ ([("void" : Str), "char"] : List Str) ∨ ∃ k ∈ names R, toWit k = x

/-- The unknown pointees: what should be reported. -/
def UnknownPointee (x : Str) : Prop :=
  (∃ u ∈ typeUses R scs, u.isPointer = true ∧ u.pointeeName = x) ∧ ¬ Known R x

/-- Nothing else is reported, and nothing is missed. -/
def MissingExact (missing : List Str) : Prop := ∀ x, x ∈ missing ↔ UnknownPointee R scs x

/-- A known name that the check has in its tables. -/
def Tabled (x : Str) : Prop :=
  x ∈ ([("void" : Str), "char"] : List Str) ∨ Declared R x ∨ ∃ k ∈ R.structDefs.keys, toWit k = x

/-- The name of a stdint type, which is in none of them. -/
def StdintName (x : Str) : Prop := ∃ k ∈ R.cPrimitives.keys, isStdint k = true ∧ toWit k = x

/-- A name the check may look up: it is in the tables, or happens to be an unknown pointee. -/
def Harmless (x : Str) : Prop := Tabled R x ∨ UnknownPointee R scs x

/-- What the tables must satisfy for the check to be exact. -/
structure PointeesRead : Prop where
  /-- No plain pointer is to a stdint type, unless something else goes by that name. -/
  stdint : ∀ u ∈ typeUses R scs, u.Plain → StdintName R u.pointeeName → Tabled R u.pointeeName
  /-- A function pointer is looked up as `func`. -/
  function : ∀ u ∈ typeUses R scs, u.isFnPtr = true → Harmless R scs "func"
  /-- White space and stars in front of the last stars are looked up with the name. -/
  uneven : ∀ u ∈ typeUses R scs, u.Uneven → Harmless R scs u.base
  /-- A name that looks like an alias is looked up without its beginning. -/
  aliased : ∀ u ∈ typeUses R scs, u.Aliased → Harmless R scs (stripPtrs u.base)
  /-- No name that is looked up begins with `ptr-`, so no unknown pointee may. -/
  unaliased : ∀ u ∈ typeUses R scs, u.isPointer = true →
    Py.startsWith u.pointeeName "ptr-" = true → Known R u.pointeeName
  /-- Another pointee of a pointer that is not plain is looked up for some type, if it is unknown. -/
  unread : ∀ u ∈ typeUses R scs, u.isPointer = true → ¬ u.Plain →
    Py.startsWith u.pointeeName "ptr-" = false →
      Known R u.pointeeName ∨ ∃ v ∈ typeUses R scs, v.Lookup u.pointeeName

instance (x : Str) : Decidable (Known R x) := inferInstanceAs (Decidable (_ ∨ _))

instance (x : Str) : Decidable (UnknownPointee R scs x) := inferInstanceAs (Decidable (_ ∧ _))

instance (x : Str) : Decidable (Tabled R x) := inferInstanceAs (Decidable (_ ∨ _))

instance (x : Str) : Decidable (Harmless R scs x) := inferInstanceAs (Decidable (_ ∨ _))

instance (x : Str) : Decidable (StdintName R x) := inferInstanceAs (Decidable (∃ k ∈ _, _))

end Report

-- ════════════════════════════════════════════════════════════════════════
-- Spelling
-- ════════════════════════════════════════════════════════════════════════

theorem stripPtrs_ptrs (n : ℕ) (s : Str) : stripPtrs (ptrs n ++ s) = stripPtrs s := by
  induction n with
  | zero => rfl
  | succ n ih =>
    rw [ptrs, List.replicate_succ, List.flatten_cons, List.append_assoc]
    exact ih

theorem stripPtrs_of_not_startsWith {s : Str} (h : Py.startsWith s "ptr-" = false) :
    stripPtrs s = s := by
  unfold stripPtrs
  split
  · cases h
  · rfl

/-- The loop ends at a name that does not begin with `ptr-`. -/
theorem not_startsWith_stripPtrs (s : Str) : Py.startsWith (stripPtrs s) "ptr-" = false := by
  fun_induction stripPtrs s with
  | case1 s ih => exact ih
  | case2 s hno =>
    rw [← Bool.not_eq_true, Py.startsWith_iff]
    rintro ⟨rest, rfl⟩
    exact hno rest rfl

namespace TypeUse

variable {u : TypeUse} {x : Str}

theorem ptrAlias_of_isFnPtr (h : u.isFnPtr = true) : u.ptrAlias = "ptr-func" := by
  cases u with
  | field t => cases h
  | arg a =>
    have hfn : SyscallArg.isFnPtr (toWit (Py.strip a)) = true :=
      (startsWith_toWit (Py.forall_mem_of_all (by decide)) (Py.strip a)).trans h
    change transformPtrArg (toWit (Py.strip a)) = "ptr-func"
    rw [transformPtrArg, if_pos hfn]

/-- The alias of a data type: its name, with one `ptr-` for each of the last stars. -/
theorem exists_ptrAlias_eq (h : u.isFnPtr = false) :
    ∃ n, u.ptrAlias = ptrs n ++ u.base ∧ (u.isPointer = true → 0 < n) ∧
      (u.isPointer = false → n = 0) := by
  -- the stars at the end of the text are counted
  have hstars : ∀ t : Str,
      (Py.endsWith t "*" = true → 0 < t.length - (Py.rstripChar '*' t).length) ∧
      (Py.endsWith t "*" = false → t.length - (Py.rstripChar '*' t).length = 0) := by
    refine fun t => ⟨fun hstar => Nat.sub_pos_of_lt (Py.length_rstripChar_lt hstar), fun hstar => ?_⟩
    have hself : Py.rstripChar '*' t = t := Py.rstripChar_of_not_endsWith hstar
    rw [hself, Nat.sub_self]
  cases u with
  | field t => exact ⟨_, rfl, hstars t⟩
  | arg a =>
    have hfn : SyscallArg.isFnPtr (toWit (Py.strip a)) = false :=
      (startsWith_toWit (Py.forall_mem_of_all (by decide)) (Py.strip a)).trans h
    refine ⟨_, ?_, hstars (Py.strip a)⟩
    change transformPtrArg (toWit (Py.strip a)) = _
    rw [transformPtrArg, hfn, if_neg (by decide), rstripChar_toWit, length_toWit, length_toWit]
    rfl

theorem lookedUp_of_data (h : u.isFnPtr = false) : u.lookedUp = stripPtrs u.base := by
  obtain ⟨n, halias, -⟩ := exists_ptrAlias_eq h
  rw [lookedUp, halias, stripPtrs_ptrs]

/-- Pointers are taken for pointers, and arguments whose names look like aliases. -/
theorem isCollected_iff_of_data (h : u.isFnPtr = false) : u.isCollected = true ↔
    u.isPointer = true ∨ u.isArg = true ∧ Py.startsWith u.base "ptr-" = true := by
  cases u with
  | field t => simp [isCollected, isPointer, isArg, text]
  | arg a =>
    obtain ⟨n, halias, hpos, hzero⟩ := exists_ptrAlias_eq h
    change Py.startsWith (ptrAlias (.arg a)) "ptr-" = true ↔ _
    rw [halias]
    cases hptr : isPointer (.arg a) with
    | true => exact iff_of_true (startsWith_ptrs (hpos hptr) _) (.inl rfl)
    | false =>
      rw [hzero hptr]
      exact ⟨fun hs => .inr ⟨rfl, hs⟩, fun hs => (hs.resolve_left (by decide)).2⟩

/-- The kinds say what the check does. -/
theorem lookup_iff : u.Lookup x ↔ u.isCollected = true ∧ u.lookedUp = x := by
  constructor
  · rintro (hfn | ⟨hfn, hptr, hno, hbase⟩ | ⟨hfn, hptr, hno, -⟩ | ⟨hfn, hptr, hno⟩)
    · have halias := ptrAlias_of_isFnPtr hfn
      refine ⟨?_, by rw [lookedUp, halias]; rfl⟩
      cases u with
      | field t => cases hfn
      | arg a => exact (congrArg (Py.startsWith · "ptr-") halias).trans rfl
    · rw [← hbase, lookedUp_of_data hfn]
      exact ⟨(isCollected_iff_of_data hfn).mpr (.inl hptr), stripPtrs_of_not_startsWith hno⟩
    · rw [lookedUp_of_data hfn]
      exact ⟨(isCollected_iff_of_data hfn).mpr (.inl hptr), stripPtrs_of_not_startsWith hno⟩
    · exact ⟨(isCollected_iff_of_data hfn).mpr (hptr.imp_right (⟨·, hno⟩)), lookedUp_of_data hfn⟩
  · rintro ⟨hcol, rfl⟩
    cases hfn : u.isFnPtr with
    | true =>
      rw [lookedUp, ptrAlias_of_isFnPtr hfn]
      exact .function hfn
    | false =>
      rw [lookedUp_of_data hfn]
      have hkind := (isCollected_iff_of_data hfn).mp hcol
      cases hno : Py.startsWith u.base "ptr-" with
      | true => exact .aliased ⟨hfn, hkind.imp_right And.left, hno⟩
      | false =>
        have hptr := hkind.resolve_right fun harg => Bool.false_ne_true (hno.symm.trans harg.2)
        rw [stripPtrs_of_not_startsWith hno]
        by_cases hbase : u.base = u.pointeeName
        · exact hbase ▸ .plain ⟨hfn, hptr, hno, hbase⟩
        · exact .uneven ⟨hfn, hptr, hno, hbase⟩

theorem Lookup.not_startsWith (h : u.Lookup x) : Py.startsWith x "ptr-" = false := by
  obtain ⟨-, rfl⟩ := lookup_iff.mp h
  exact not_startsWith_stripPtrs _

end TypeUse

-- ════════════════════════════════════════════════════════════════════════
-- The check
-- ════════════════════════════════════════════════════════════════════════

section Check

variable {R : TypeRegistry} {scs : List Syscall} {missing : List Str} {x : Str}

theorem mem_uniqPtrTypes_iff : x ∈ uniqPtrTypes R scs ↔
    ∃ u ∈ typeUses R scs, u.isCollected = true ∧ u.ptrAlias = x := by
  simp only [uniqPtrTypes, List.mem_dedup, List.mem_append, fieldPtrTypes, argPtrTypes, typeUses,
    List.mem_map, List.mem_filter, List.mem_flatMap, or_and_right, exists_or]
  refine or_congr ⟨?_, ?_⟩ ⟨?_, ?_⟩
  · rintro ⟨f, ⟨hf, hstar⟩, he⟩
    exact ⟨.field f.typeName, ⟨f, hf, rfl⟩, hstar, he⟩
  · rintro ⟨_, ⟨f, hf, rfl⟩, hstar, he⟩
    exact ⟨f, ⟨hf, hstar⟩, he⟩
  · rintro ⟨sc, hsc, ⟨a, ha, rfl⟩, hptr⟩
    exact ⟨.arg a, ⟨a, ⟨sc, hsc, ha⟩, rfl⟩, hptr, rfl⟩
  · rintro ⟨_, ⟨a, ⟨sc, hsc, ha⟩, rfl⟩, hptr, rfl⟩
    exact ⟨sc, hsc, ⟨a, ha, rfl⟩, hptr⟩

/-- What is reported. -/
theorem mem_missingTypes (h : missingTypes R scs = .ok missing) : x ∈ missing ↔
    (∃ u ∈ typeUses R scs, u.Lookup x) ∧ ¬ Tabled R x := by
  obtain ⟨comp, hc, h⟩ := Py.bind_eq_ok_iff.mp h
  obtain ⟨_, _, h⟩ := Py.bind_eq_ok_iff.mp h
  obtain rfl := Except.ok.inj h
  have hread : x ∈ (uniqPtrTypes R scs).map stripPtrs ↔
      ∃ u ∈ typeUses R scs, u.Lookup x := by
    simp only [List.mem_map, mem_uniqPtrTypes_iff, TypeUse.lookup_iff]
    constructor
    · rintro ⟨_, ⟨u, hu, hcol, rfl⟩, he⟩
      exact ⟨u, hu, hcol, he⟩
    · rintro ⟨u, hu, hcol, he⟩
      exact ⟨u.ptrAlias, ⟨u, hu, hcol, rfl⟩, he⟩
  -- the basic types are declared as well
  have hbasic : x ∈ (basicTypesWit R).keys → Declared R x := by
    rw [mem_keys_basicTypes]
    rintro ⟨e, he, rfl⟩
    exact ⟨e.1, List.mem_append_left _ (List.mem_append_left _ (List.mem_map_of_mem he)), rfl⟩
  have hdec : x ∈ comp.keys ↔ Declared R x := mem_keys_compTypes hc
  simp only [List.mem_filter, List.mem_dedup, hread, Bool.not_eq_true', Bool.or_eq_false_iff,
    List.contains_eq_mem, decide_eq_false_iff_not, hdec, and_assoc, List.mem_map, Tabled, not_or]
  refine and_congr_right fun _ => ⟨?_, ?_⟩
  · rintro ⟨_, hd, hv, hr⟩
    exact ⟨hv, hd, hr⟩
  · rintro ⟨hv, hd, hr⟩
    exact ⟨fun hb => hd (hbasic hb), hd, hv, hr⟩

/-- The tables lack the stdint names only. -/
theorem known_iff : Known R x ↔ Tabled R x ∨ StdintName R x := by
  constructor
  · rintro (hv | ⟨k, hk, rfl⟩)
    · exact Or.inl (Or.inl hv)
    · simp only [names, List.mem_append, or_assoc] at hk
      rcases hk with hp | ha | hy | hs
      · cases hstd : isStdint k with
        | true => exact Or.inr ⟨k, hp, hstd, rfl⟩
        | false =>
          obtain ⟨p, hp⟩ := Dict.mem_keys_iff.mp hp
          exact Or.inl (Or.inr (Or.inl ⟨k, mem_declared_of_primitive hp hstd, rfl⟩))
      · obtain ⟨t, ht⟩ := Dict.mem_keys_iff.mp ha
        exact Or.inl (Or.inr (Or.inl ⟨k, mem_declared_of_alias ht, rfl⟩))
      · obtain ⟨a, ha⟩ := Dict.mem_keys_iff.mp hy
        exact Or.inl (Or.inr (Or.inl ⟨k, mem_declared_of_array ha, rfl⟩))
      · exact Or.inl (Or.inr (Or.inr ⟨k, hs, rfl⟩))
  · rintro ((hv | ⟨k, hk, rfl⟩ | ⟨k, hk, rfl⟩) | ⟨k, hk, _, rfl⟩)
    · exact Or.inl hv
    · exact Or.inr ⟨k, declared_sublist_names.subset hk, rfl⟩
    · exact Or.inr ⟨k, List.mem_append_right _ hk, rfl⟩
    · obtain ⟨p, hp⟩ := Dict.mem_keys_iff.mp hk
      exact Or.inr ⟨k, mem_names_of_primitive hp, rfl⟩

/-- **The missing-record check** reports exactly the unknown pointees, if and only if the pointers
of the tables are read right. -/
theorem missingExact_iff (R : TypeRegistry) (scs : List Syscall) (missing : List Str)
    (h : missingTypes R scs = .ok missing) :
    MissingExact R scs missing ↔ PointeesRead R scs := by
  constructor
  · intro hexact
    have hreported : ∀ u ∈ typeUses R scs, ∀ x, u.Lookup x → Harmless R scs x := by
      intro u hu x hx
      by_cases ht : Tabled R x
      · exact .inl ht
      · exact .inr ((hexact x).mp ((mem_missingTypes h).mpr ⟨⟨u, hu, hx⟩, ht⟩))
    have hfound : ∀ u ∈ typeUses R scs, u.isPointer = true →
        Known R u.pointeeName ∨ ∃ v ∈ typeUses R scs, v.Lookup u.pointeeName := by
      intro u hu hptr
      by_cases hk : Known R u.pointeeName
      · exact .inl hk
      · exact .inr ((mem_missingTypes h).mp ((hexact _).mpr ⟨⟨u, hu, hptr, rfl⟩, hk⟩)).1
    exact {
      stdint := fun u hu hplain hstd => (hreported u hu _ (.plain hplain)).resolve_right
        fun hunk => hunk.2 (known_iff.mpr (.inr hstd))
      function := fun u hu hfn => hreported u hu _ (.function hfn)
      uneven := fun u hu huneven => hreported u hu _ (.uneven huneven)
      aliased := fun u hu haliased => hreported u hu _ (.aliased haliased)
      unaliased := fun u hu hptr hs => (hfound u hu hptr).resolve_right
        fun ⟨v, _, hv⟩ => Bool.false_ne_true (hv.not_startsWith.symm.trans hs)
      unread := fun u hu hptr _ _ => hfound u hu hptr }
  · intro hread x
    rw [mem_missingTypes h]
    constructor
    · rintro ⟨⟨u, hu, hfn | hplain | huneven | haliased⟩, ht⟩
      · exact (hread.function u hu hfn).resolve_left ht
      · refine ⟨⟨u, hu, hplain.2.1, rfl⟩, fun hknown => ht ?_⟩
        exact (known_iff.mp hknown).elim id (hread.stdint u hu hplain)
      · exact (hread.uneven u hu huneven).resolve_left ht
      · exact (hread.aliased u hu haliased).resolve_left ht
    · rintro ⟨⟨u, hu, hptr, rfl⟩, hunk⟩
      refine ⟨?_, fun ht => hunk (known_iff.mpr (.inl ht))⟩
      by_cases hplain : u.Plain
      · exact ⟨u, hu, .plain hplain⟩
      · have hno := Bool.eq_false_of_not_eq_true fun hs => hunk (hread.unaliased u hu hptr hs)
        exact (hread.unread u hu hptr hplain hno).resolve_left hunk

end Check

/-- A call with a pointer to a struct that is not registered. -/
def statCall : Syscall where
  name := "stat"
  nrs := { x86_64 := 4 }
  args := ["char*", "struct stat*"]
  argsId := ["pathname", "statbuf"]
  implemented := true

theorem missingExact_iff_stat : missingTypes TypeRegistry.withTimers [openSyscall, statCall] =
      .ok ["struct-stat"] ∧
    MissingExact TypeRegistry.withTimers [openSyscall, statCall] ["struct-stat"] := by
  have hok : missingTypes TypeRegistry.withTimers [openSyscall, statCall] = .ok ["struct-stat"] := by
    decide +kernel
  have hplain : ∀ u ∈ typeUses TypeRegistry.withTimers [openSyscall, statCall],
      u.isPointer = true → u.Plain := by
    decide +kernel
  refine ⟨hok, (missingExact_iff _ _ _ hok).mpr ?_⟩
  exact {
    stdint := by decide +kernel
    function := by decide +kernel
    uneven := by decide +kernel
    aliased := by decide +kernel
    unaliased := by decide +kernel
    unread := fun u hu hptr hnot => absurd (hplain u hu hptr) hnot }

/-- A call with pointers to a stdint type, to an alias whose name starts like a pointer, and to a
function. -/
def pointersCall : Syscall where
  name := "pointers"
  nrs := {}
  args := ["uint8_t*", "ptr_func*", "fn(int)"]
  argsId := ["buf", "table", "callback"]

/-- A call with a pointer to an unknown type whose name starts like a pointer. -/
def ringCall : Syscall where
  name := "ring"
  nrs := {}
  args := ["ptr_ring*"]
  argsId := ["ring"]

/-- Known pointees are reported, and for an unknown one a name that no type has. -/
theorem missingTypes_inexact :
    (missingTypes TypeRegistry.shippedBare [pointersCall] = .ok ["uint8-t", "func"] ∧
      Known TypeRegistry.shippedBare "uint8-t" ∧
      ¬ MissingExact TypeRegistry.shippedBare [pointersCall] ["uint8-t", "func"]) ∧
    missingTypes TypeRegistry.shippedBare [ringCall] = .ok ["ring"] ∧
      UnknownPointee TypeRegistry.shippedBare [ringCall] "ptr-ring" ∧
      ¬ MissingExact TypeRegistry.shippedBare [ringCall] ["ring"] := by
  have hknown : Known TypeRegistry.shippedBare "uint8-t" := by decide +kernel
  have hunknown : UnknownPointee TypeRegistry.shippedBare [ringCall] "ptr-ring" := by decide +kernel
  refine ⟨⟨by decide +kernel, hknown, fun h => ?_⟩, by decide +kernel, hunknown, fun h => ?_⟩
  · exact ((h "uint8-t").mp (by decide)).2 hknown
  · exact absurd ((h "ptr-ring").mpr hunknown) (by decide)

end Wali.Wit
