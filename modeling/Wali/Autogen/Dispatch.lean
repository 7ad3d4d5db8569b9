import Wali.Autogen.Libc
import Wali.SyscallTable

/-!
# Dispatch by number

`rust/match.out` has one arm for every syscall, with the constant of the syscall as its pattern. On
an architecture the constant has the number of that column of the table. Which arm a number
selects, and which syscall a number stands for, is determined when no number of the column is
repeated. The module checks this for names only.
-/

namespace Wali.Libc

open Py (Str Dict)

variable (R : TypeRegistry) (table : Dict Str Syscall) (arch : Arch)

/-- The value of the constant `SYS_name` on an architecture. -/
def sysConst (name : Str) : Option ℤ := (table.get? name).map fun sc => sc.nrs.get arch

/-- The arms a number selects. -/
def armsFor (arms : List MatchArm) (num : ℤ) : List MatchArm :=
  arms.filter fun arm => sysConst table arch arm.name == some num

/-- On an architecture numbers identify syscalls. -/
structure NumbersIdentify : Prop where
  /-- Different entries carry different numbers. -/
  entries : ∀ (i j : ℕ) s s', i ≠ j → table.values[i]? = some s → table.values[j]? = some s' →
    0 ≤ s.nrs.get arch → s.nrs.get arch ≠ s'.nrs.get arch
  /-- No number selects two arms. -/
  dispatch : ∀ arms, matchArms R table.values = .ok arms → ∀ num, 0 ≤ num →
    (armsFor table arch arms num).length ≤ 1
  /-- No number stands for two syscalls. -/
  unique : ∀ num, 0 ≤ num → ∀ s ∈ table.values, ∀ s' ∈ table.values,
    s.nrs.get arch = num → s'.nrs.get arch = num → s = s'

/-- The check of `SYSCALLS`, made for a column of numbers: a dictionary by number has as many
entries as there are syscalls with a number. -/
def ColumnCheck (list : List Syscall) : Prop :=
  (Dict.ofList ((list.filter fun s => decide (0 ≤ s.nrs.get arch)).map
    fun s => (s.nrs.get arch, s))).entries.length =
    (list.filter fun s => decide (0 ≤ s.nrs.get arch)).length

variable {R table arch}

theorem columnCheck_iff {list : List Syscall} : ColumnCheck arch list ↔
    ((list.map fun s => s.nrs.get arch).filter fun n => decide (0 ≤ n)).Nodup := by
  have hkeys : ((list.filter fun s => decide (0 ≤ s.nrs.get arch)).map
      fun s => (s.nrs.get arch, s)).map Prod.fst =
      (list.map fun s => s.nrs.get arch).filter fun n => decide (0 ≤ n) := by
    rw [List.map_map, List.filter_map]
    rfl
  rw [ColumnCheck, ← hkeys, ← Dict.length_ofList_eq_iff, List.length_map]

/-- In a column without repetition a number that is there is the number of one entry. -/
theorem countP_le_one {list : List Syscall} {num : ℤ} (hnum : 0 ≤ num)
    (h : ((list.map fun s => s.nrs.get arch).filter fun n => decide (0 ≤ n)).Nodup) :
    list.countP (fun s => s.nrs.get arch == num) ≤ 1 := by
  have hcount := List.nodup_iff_count_le_one.mp h num
  rwa [List.count_filter (p := fun n => decide (0 ≤ n)) (decide_eq_true hnum), List.count,
    List.countP_map] at hcount

theorem ColumnCheck.entries {list : List Syscall} (h : ColumnCheck arch list) {i j : ℕ}
    {s s' : Syscall} (hij : i < j) (hi : list[i]? = some s) (hj : list[j]? = some s')
    (hs : 0 ≤ s.nrs.get arch) : s.nrs.get arch ≠ s'.nrs.get arch := by
  rw [columnCheck_iff] at h
  intro he
  have hle := countP_le_one hs h
  -- one entry before position `j` and one from there on
  rw [← List.take_append_drop j list, List.countP_append] at hle
  have hfst : 0 < (list.take j).countP fun x => x.nrs.get arch == s.nrs.get arch := by
    refine List.countP_pos_iff.mpr ⟨s, ?_, beq_self_eq_true _⟩
    exact List.mem_of_getElem? ((List.getElem?_take_of_lt hij).trans hi)
  have hsnd : 0 < (list.drop j).countP fun x => x.nrs.get arch == s.nrs.get arch := by
    refine List.countP_pos_iff.mpr ⟨s', ?_, beq_iff_eq.mpr he.symm⟩
    refine List.mem_of_getElem? (i := 0) ?_
    rw [List.getElem?_drop, Nat.add_zero, hj]
  omega

/-- The arms have the names of the syscalls, in order. -/
theorem matchArms_names {list : List Syscall} {arms : List MatchArm}
    (h : matchArms R list = .ok arms) : arms.map MatchArm.name = list.map Syscall.name := by
  refine Py.mapM_ok_map (fun sc arm harm => ?_) h
  rw [matchArm] at harm
  split at harm
  · obtain ⟨args, _, he⟩ := Py.bind_eq_ok_iff.mp harm
    obtain rfl := Except.ok.inj he
    rfl
  · obtain rfl := Except.ok.inj harm
    rfl

/-- As many arms are selected as there are syscalls with the number. -/
theorem length_armsFor {list : List Syscall} (hload : loadSyscalls list = .ok table)
    {arms : List MatchArm} (h : matchArms R list = .ok arms) (num : ℤ) :
    (armsFor table arch arms num).length = list.countP fun s => s.nrs.get arch == num := by
  obtain ⟨_, hent⟩ := loadSyscalls_eq_ok_iff.mp hload
  have hconst : ∀ s ∈ list, sysConst table arch s.name = some (s.nrs.get arch) := by
    intro s hs
    have hget : table.get? s.name = some s := by
      rw [Dict.get?_eq_some_iff, hent]
      exact List.mem_map.mpr ⟨s, hs, rfl⟩
    rw [sysConst, hget, Option.map_some]
  have hnames := congrArg (List.countP fun name => sysConst table arch name == some num)
    (matchArms_names h)
  rw [List.countP_map, List.countP_map] at hnames
  rw [armsFor, ← List.countP_eq_length_filter]
  refine hnames.trans (List.countP_congr fun s hs => ?_)
  rw [Function.comp_apply, hconst s hs]
  simp

theorem values_of_loadSyscalls {list : List Syscall} (h : loadSyscalls list = .ok table) :
    table.values = list := by
  rw [Dict.values, (loadSyscalls_eq_ok_iff.mp h).2, List.map_map]
  exact List.map_id list

/-- Numbers identify syscalls where the column passes the check that is made for names. -/
theorem numbersIdentify_of_load (R : TypeRegistry) {list : List Syscall}
    (hload : loadSyscalls list = .ok table) (arch : Arch) :
    NumbersIdentify R table arch ↔ ColumnCheck arch list := by
  have hval := values_of_loadSyscalls hload
  constructor
  · rintro ⟨hent, _, _⟩
    rw [hval] at hent
    rw [columnCheck_iff, List.Nodup, List.pairwise_filter, List.pairwise_map,
      List.pairwise_iff_getElem]
    intro i j hi hj hij hs _
    exact hent i j _ _ hij.ne (List.getElem?_eq_getElem hi) (List.getElem?_eq_getElem hj)
      (of_decide_eq_true hs)
  · intro hcheck
    have hone : ∀ num, 0 ≤ num → list.countP (fun s => s.nrs.get arch == num) ≤ 1 :=
      fun num hnum => countP_le_one hnum (columnCheck_iff.mp hcheck)
    have hent : ∀ (i j : ℕ) s s', i ≠ j → list[i]? = some s → list[j]? = some s' →
        0 ≤ s.nrs.get arch → s.nrs.get arch ≠ s'.nrs.get arch := by
      intro i j s s' hne hi hj hs he
      rcases lt_or_gt_of_ne hne with hlt | hgt
      · exact hcheck.entries hlt hi hj hs he
      · exact hcheck.entries hgt hj hi (he ▸ hs) he.symm
    refine ⟨hval ▸ hent, fun arms harms num hnum => ?_, fun num hnum s hs s' hs' he he' => ?_⟩
    · rw [hval] at harms
      rw [length_armsFor hload harms]
      exact hone num hnum
    · rw [hval] at hs hs'
      obtain ⟨i, hi⟩ := List.getElem?_of_mem hs
      obtain ⟨j, hj⟩ := List.getElem?_of_mem hs'
      by_cases hij : i = j
      · subst hij
        exact Option.some.inj (hi.symm.trans hj)
      · exact absurd (he.trans he'.symm) (hent i j s s' hij hi hj (he ▸ hnum))

/-- The shipped table is accepted; its columns are those of the rows. -/
theorem syscallList_load : ∃ list table, syscallList = .ok list ∧ loadSyscalls list = .ok table ∧
    (list.map fun s => (s.name, s.nrs)) = syscallRows.map fun r => (r.name, r.nrs) := by
  obtain ⟨list, hlist⟩ := syscallList_ok
  have hcols : (list.map fun s => (s.name, s.nrs)) = syscallRows.map fun r => (r.name, r.nrs) :=
    Py.mapM_ok_map (fun _ _ h => Prod.ext (SyscallRow.eval_name h).1 (SyscallRow.eval_name h).2) hlist
  have hnames : list.map Syscall.name = syscallRows.map SyscallRow.name := by
    have h := congrArg (List.map Prod.fst) hcols
    rwa [List.map_map, List.map_map] at h
  have hload : ∃ table, loadSyscalls list = .ok table := by
    have hnd : (list.map Syscall.name).Nodup := hnames ▸ nodup_syscallRows
    refine ⟨⟨list.map fun s => (s.name, s), ?_⟩, loadSyscalls_eq_ok_iff.mpr ⟨hnd, rfl⟩⟩
    rw [List.map_map]
    exact hnd
  obtain ⟨table, htable⟩ := hload
  exact ⟨list, table, hlist, htable, hcols⟩

/-- Two rows of the shipped table, both with number 151 where that is the number of `setfsuid`. -/
theorem rows_getpgrp_setfsuid :
    syscallRows[111]?.map (fun r => (r.name, r.nrs)) =
        some (("getpgrp" : String).toList, ⟨111, 151, 151⟩) ∧
      syscallRows[122]?.map (fun r => (r.name, r.nrs)) =
        some (("setfsuid" : String).toList, ⟨122, 151, 151⟩) := by decide +kernel

theorem syscallRows_x86_64 :
    ((syscallRows.map fun r => r.nrs.get .x86_64).filter fun n => decide (0 ≤ n)).Nodup := by
  have h : distinct 0 (((syscallRows.map fun r => r.nrs.get .x86_64).filter
      fun n => decide (0 ≤ n)).map Int.toNat) = true := by decide +kernel
  exact (distinct_zero_iff.mp h).of_map

/-- The same two rows in the list. -/
theorem entries_getpgrp_setfsuid {list : List Syscall}
    (h : (list.map fun s => (s.name, s.nrs)) = syscallRows.map fun r => (r.name, r.nrs)) :
    ∃ s s', list[111]? = some s ∧ list[122]? = some s' ∧ s.name = ("getpgrp" : String).toList ∧
      s'.name = ("setfsuid" : String).toList ∧ s.nrs = ⟨111, 151, 151⟩ ∧ s'.nrs = ⟨122, 151, 151⟩ := by
  obtain ⟨h1, h2⟩ := rows_getpgrp_setfsuid
  rw [← List.getElem?_map, ← h, List.getElem?_map, Option.map_eq_some_iff] at h1 h2
  obtain ⟨s, hs, he⟩ := h1
  obtain ⟨s', hs', he'⟩ := h2
  rw [Prod.mk.injEq] at he he'
  exact ⟨s, s', hs, hs', he.1, he'.1, he.2, he'.2⟩

/-- **Numbers identify syscalls** exactly where the column of the architecture passes the check
that is made for names. Of the shipped columns that is the one of x86_64. -/
theorem numbersIdentify_iff (R : TypeRegistry) :
    (∀ list table, loadSyscalls list = .ok table → ∀ arch,
      (NumbersIdentify R table arch ↔ ColumnCheck arch list)) ∧
    ∃ list table, syscallList = .ok list ∧ loadSyscalls list = .ok table ∧
      ∀ arch, NumbersIdentify R table arch ↔ arch = .x86_64 := by
  refine ⟨fun _ _ hload arch => numbersIdentify_of_load R hload arch, ?_⟩
  obtain ⟨list, table, hlist, hload, hcols⟩ := syscallList_load
  refine ⟨list, table, hlist, hload, fun arch => ⟨fun hid => ?_, ?_⟩⟩
  · obtain ⟨s, s', hs, hs', _, _, hn, hn'⟩ := entries_getpgrp_setfsuid hcols
    rw [← values_of_loadSyscalls hload] at hs hs'
    have hne := hid.entries 111 122 s s' (by decide) hs hs'
    rw [hn, hn'] at hne
    cases arch with
    | x86_64 => rfl
    | arm64 => exact absurd rfl (hne (by decide))
    | rv64 => exact absurd rfl (hne (by decide))
  · rintro rfl
    rw [numbersIdentify_of_load R hload, columnCheck_iff]
    have hcol := congrArg (List.map fun e : Str × ArchNrs => e.2.get .x86_64) hcols
    rw [List.map_map, List.map_map] at hcol
    rw [show (list.map fun s => s.nrs.get .x86_64) = _ from hcol]
    exact syscallRows_x86_64

/-- Two calls that share a number on one architecture, which the check of the names accepts. -/
def sharedNumber : List Syscall :=
  [unimpl "getpgrp" { x86_64 := 111, arm64 := 151 }, unimpl "setfsuid" { x86_64 := 122, arm64 := 151 }]

theorem numbersIdentify_iff_shared : ∃ table, loadSyscalls sharedNumber = .ok table ∧
    NumbersIdentify .shippedBare table .x86_64 ∧ ¬ NumbersIdentify .shippedBare table .arm64 := by
  obtain ⟨table, hload⟩ : ∃ table, loadSyscalls sharedNumber = .ok table :=
    ⟨⟨sharedNumber.map fun s => (s.name, s), by decide +kernel⟩,
      loadSyscalls_eq_ok_iff.mpr ⟨by decide +kernel, rfl⟩⟩
  have hiff := (numbersIdentify_iff .shippedBare).1 sharedNumber table hload
  exact ⟨table, hload, (hiff .x86_64).mpr (columnCheck_iff.mpr (by decide +kernel)),
    fun h => absurd (columnCheck_iff.mp ((hiff .arm64).mp h)) (by decide +kernel)⟩

/-- In the shipped table, which is accepted, `getpgrp` and `setfsuid` have one number on arm64 and
on rv64. -/
theorem numbers_repeated : ∃ list table, syscallList = .ok list ∧ loadSyscalls list = .ok table ∧
    ∃ s ∈ list, ∃ s' ∈ list, s.name = ("getpgrp" : String).toList ∧
      s'.name = ("setfsuid" : String).toList ∧ s.nrs.arm64 = 151 ∧ s'.nrs.arm64 = 151 ∧
      s.nrs.rv64 = 151 ∧ s'.nrs.rv64 = 151 := by
  obtain ⟨list, table, hlist, hload, hcols⟩ := syscallList_load
  obtain ⟨s, s', hs, hs', hname, hname', hn, hn'⟩ := entries_getpgrp_setfsuid hcols
  refine ⟨list, table, hlist, hload, s, List.mem_of_getElem? hs, s', List.mem_of_getElem? hs', hname,
    hname', ?_⟩
  rw [hn, hn']
  exact ⟨rfl, rfl, rfl, rfl⟩

end Wali.Libc
