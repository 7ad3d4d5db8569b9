import Wali.Wit.Generate

/-!
# A closed file

A WIT file is read only if every type name in it stands for something: a builtin, a declaration of
`types`, and in `syscalls` a pointer alias or a record besides. The generator does not check this;
`missing_types` looks at what pointers point to and only leads to a warning. Which tables lead to a file without
a dangling name can be said in terms of the tables.
-/

namespace Wali.Wit

open Py (Str Dict)
open TypeRegistry (IsWidth)

namespace WitFile

variable (w : WitFile)

/-- The type names in the declarations of `types`. -/
def typesNames : List Str := w.types.values.flatMap WitType.names

def KnownInSyscalls (x : Str) : Prop :=
  x ∈ builtins ∨ x ∈ w.syscallsScope ∨ x ∈ w.records.map WitRecord.name

/-- No type name is left without a meaning where it stands. -/
structure Closed : Prop where
  types : ∀ x ∈ w.typesNames, x ∈ builtins ∨ x ∈ w.types.keys
  /-- Every pointer alias is declared as a `ptr`. -/
  ptr : w.ptrTypes ≠ [] → w.KnownInSyscalls "ptr"
  syscalls : ∀ x ∈ w.syscallsNames, w.KnownInSyscalls x
  aux : ∀ x ∈ w.auxNames, x ∈ builtins ∨ x ∈ w.auxScope

end WitFile

section Conditions

variable (R : TypeRegistry) (scs : List Syscall) (auxs : List AuxSyscall)

/-- A name that `types` declares or that WIT has. -/
def TypeName (x : Str) : Prop := x ∈ builtins ∨ Declared R x

/-- A record goes by the name. -/
def RecordName (x : Str) : Prop := ∃ k ∈ R.structDefs.keys, toWit k = x

/-- What the tables must satisfy for the file to be closed. -/
structure Grounded : Prop where
  /-- An alias leads to a primitive, an alias or an array; a struct is no target, nor is a pointer. -/
  targets : ∀ u ∈ R.typeAliases.values, u ∉ R.cPrimitives.keys → TypeName R (toWit u)
  ptr : ∀ x, Py.startsWith x "ptr-" = true → Collected R scs x → TypeName R "ptr" ∨ RecordName R "ptr"
  /-- The alias of a pointer inside an array is introduced for some other field or argument. -/
  fields : ∀ sd ∈ R.structDefs.values, ∀ f ∈ sd.fields, ∀ x ∈ fieldNames R f,
    Py.startsWith x "ptr-" = true → TypeName R x ∨ RecordName R x ∨ Collected R scs x
  args : ∀ sc ∈ scs, sc.implemented = true → ∀ e ∈ sc.argsId.zip sc.args,
    Py.startsWith (witArg e.2) "ptr-" = false → ¬ Basic R (witArg e.2) →
    TypeName R (witArg e.2) ∨ RecordName R (witArg e.2)
  result : ∀ sc ∈ scs, sc.implemented = true →
    TypeName R "syscall-result" ∨ RecordName R "syscall-result"
  /-- In `aux` there are no records, and the only pointer aliases are those of `syscalls`. -/
  auxArgs : ∀ sc ∈ auxs, ∀ e ∈ sc.argsId.zip sc.args, ¬ Basic R (witArg e.2) →
    TypeName R (witArg e.2) ∨ Py.startsWith (witArg e.2) "ptr-" = true ∧ Collected R scs (witArg e.2)
  /-- The result is looked up as it is spelled, with its blanks. -/
  auxResults : ∀ sc ∈ auxs, ∀ t ∈ sc.result, t ≠ [] → ¬ Basic R t →
    TypeName R t ∨ Py.startsWith t "ptr-" = true ∧ Collected R scs t ∧ AuxCollected auxs t

end Conditions

variable {R : TypeRegistry} {scs : List Syscall} {auxs : List AuxSyscall} {w : WitFile} {x : Str}

-- ════════════════════════════════════════════════════════════════════════
-- Names in the tables
-- ════════════════════════════════════════════════════════════════════════

theorem typeName_witName (hwidth : ∀ p ∈ R.cPrimitives.values, IsWidth p.size) {k : Str} {p : Primitive}
    (hp : R.cPrimitives.get? k = some p) : TypeName R p.witName :=
  .inl (witName_mem_builtins (hwidth p (Dict.mem_values.mpr ⟨k, Dict.get?_eq_some_iff.mp hp⟩)))

/-- A primitive is written by a builtin or by a declared name. -/
theorem typeName_primitive (hwidth : ∀ p ∈ R.cPrimitives.values, IsWidth p.size) {k : Str} {p : Primitive}
    (hp : R.cPrimitives.get? k = some p) : TypeName R (if isStdint k then p.witName else toWit k) := by
  cases hs : isStdint k with
  | true => exact typeName_witName hwidth hp
  | false => exact .inr ⟨k, mem_declared_of_primitive hp hs, rfl⟩

theorem names_array_subset {count : ℕ} {t : WitType} (h : x ∈ (WitType.array count t).names) : x ∈ t.names := by
  cases t with
  | ident name => exact List.mem_singleton.mpr (List.eq_of_mem_replicate h)
  | array _ elem => exact h

/-- The names in a field type, apart from what looks like a pointer alias. -/
theorem known_of_fieldTypeToWitIn (hwidth : ∀ p ∈ R.cPrimitives.values, IsWidth p.size) {n : ℕ} {t : Str}
    {wt : WitType} (h : fieldTypeToWitIn R n t = .ok wt) (hx : x ∈ wt.names) :
    Py.startsWith x "ptr-" = true ∨ TypeName R x ∨ RecordName R x := by
  induction n generalizing t wt with
  | zero => cases h
  | succ n ih =>
    rw [fieldTypeToWitIn] at h
    split at h
    · next hstar =>
      obtain rfl := Except.ok.inj h
      obtain rfl := List.mem_singleton.mp hx
      exact .inl (startsWith_ptrName hstar)
    split at h
    · next halias =>
      obtain rfl := Except.ok.inj h
      obtain rfl := List.mem_singleton.mp hx
      obtain ⟨u, hu⟩ := Option.isSome_iff_exists.mp halias
      exact .inr (.inl (.inr ⟨t, mem_declared_of_alias hu, rfl⟩))
    split at h
    · next harray =>
      obtain rfl := Except.ok.inj h
      obtain rfl := List.mem_singleton.mp hx
      obtain ⟨a, ha⟩ := Option.isSome_iff_exists.mp harray
      exact .inr (.inl (.inr ⟨t, mem_declared_of_array ha, rfl⟩))
    split at h
    · next hstruct =>
      obtain rfl := Except.ok.inj h
      obtain rfl := List.mem_singleton.mp hx
      exact .inr (.inr ⟨t, Dict.mem_keys_iff.mpr (Option.isSome_iff_exists.mp hstruct), rfl⟩)
    split at h
    · next p hp =>
      obtain rfl := Except.ok.inj h
      obtain rfl := List.mem_singleton.mp hx
      exact .inr (.inl (typeName_primitive hwidth hp))
    split at h
    · obtain ⟨wt', hwt', rfl⟩ := Py.map_eq_ok_iff.mp h
      exact ih hwt' (names_array_subset hx)
    · cases h

theorem known_of_mem_fieldNames (hwidth : ∀ p ∈ R.cPrimitives.values, IsWidth p.size) {f : StructField}
    (hx : x ∈ fieldNames R f) : Py.startsWith x "ptr-" = true ∨ TypeName R x ∨ RecordName R x := by
  unfold fieldNames at hx
  split at hx
  · next wt hwt => exact known_of_fieldTypeToWitIn hwidth hwt hx
  · cases hx

/-- A type in a signature is replaced by a builtin or stays as it is. -/
theorem resolveArgWit_cases (hwidth : ∀ p ∈ R.cPrimitives.values, IsWidth p.size) (t : Str) :
    Basic R t ∧ resolveArgWit R t ∈ builtins ∨ ¬ Basic R t ∧ resolveArgWit R t = t := by
  unfold resolveArgWit
  cases hget : (basicTypesWit R).get? t with
  | none =>
    refine .inr ⟨fun hb => ?_, rfl⟩
    exact Dict.get?_eq_none_iff.mp hget (mem_keys_basicTypes.mpr hb)
  | some v =>
    refine .inl ⟨mem_keys_basicTypes.mp (Dict.mem_keys_iff.mpr ⟨v, hget⟩), ?_⟩
    obtain ⟨e, he, hv⟩ := List.mem_map.mp (Dict.mem_of_get?_ofList hget)
    rw [Option.getD_some, ← (Prod.mk.inj hv).2]
    have hp := (mem_namedPrimitives (k := e.1) (p := e.2)).mp he
    exact witName_mem_builtins (hwidth e.2 (Dict.mem_values.mpr ⟨e.1, Dict.get?_eq_some_iff.mp hp.1⟩))

-- ════════════════════════════════════════════════════════════════════════
-- Names in the file
-- ════════════════════════════════════════════════════════════════════════

theorem mem_types_syscallFunc_iff {sc : Syscall} : x ∈ (syscallFunc R sc).types ↔
    (∃ e ∈ sc.argsId.zip sc.args, argText R e.2 = x) ∨ x = "syscall-result" := by
  simp only [WitFunc.types, syscallFunc, witParams, List.map_map, List.mem_append, List.mem_map,
    Function.comp_apply, Option.toList_some, List.mem_singleton]

theorem mem_types_auxFunc_iff {sc : AuxSyscall} : x ∈ (auxFunc R sc).types ↔
    (∃ e ∈ sc.argsId.zip sc.args, argText R e.2 = x) ∨
      ∃ t ∈ sc.result, t ≠ [] ∧ resolveArgWit R t = x := by
  simp only [WitFunc.types, auxFunc, witParams, List.map_map, List.mem_append, List.mem_map,
    Function.comp_apply, Option.mem_toList, Option.mem_def, Option.bind_eq_some_iff, resultText]
  refine or_congr_right (exists_congr fun t => and_congr_right fun _ => ?_)
  split
  · next ht => simp [ht]
  · next ht => simp [ht]

section File

variable (h : generate R scs auxs = .ok w)

include h

theorem mem_typeKeys : x ∈ w.types.keys ↔ Declared R x := by
  obtain ⟨types, recs, ht, hr, rfl⟩ := generate_eq_ok_iff.mp h
  exact mem_keys_compTypes ht

theorem mem_recordNames : x ∈ w.records.map WitRecord.name ↔ RecordName R x := by
  obtain ⟨types, recs, ht, hr, rfl⟩ := generate_eq_ok_iff.mp h
  have hname : ∀ sd r, recordOf R sd = .ok r → r.name = toWit sd.name := by
    intro sd r hok
    obtain ⟨_, _, rfl⟩ := Py.map_eq_ok_iff.mp hok
    rfl
  have hkeys : recs.map WitRecord.name = R.structDefs.keys.map toWit := by
    rw [Py.mapM_ok_map hname hr, Dict.keys, Dict.values, List.map_map, List.map_map]
    exact List.map_congr_left fun e he => congrArg toWit (R.named e he)
  rw [hkeys, List.mem_map]
  rfl

theorem mem_ptrTypes : x ∈ w.ptrTypes ↔ Py.startsWith x "ptr-" = true ∧ Collected R scs x := by
  obtain ⟨types, recs, ht, hr, rfl⟩ := generate_eq_ok_iff.mp h
  rw [List.mem_insertionSort]
  refine ⟨fun hx => ?_, fun hx => (mem_uniqPtrTypes hx.1).mpr hx.2⟩
  have hptr : Py.startsWith x "ptr-" = true := by
    rcases List.mem_append.mp (List.mem_dedup.mp hx) with hfield | ha
    · obtain ⟨f, hf, rfl⟩ := List.mem_map.mp hfield
      have hstar := (List.mem_filter.mp hf).2
      exact startsWith_ptrName hstar
    · obtain ⟨sc, _, ha⟩ := List.mem_flatMap.mp ha
      exact (List.mem_filter.mp ha).2
  exact ⟨hptr, (mem_uniqPtrTypes hptr).mp hx⟩

theorem mem_auxUses : x ∈ w.auxUses ↔
    Py.startsWith x "ptr-" = true ∧ Collected R scs x ∧ AuxCollected auxs x := by
  have hptrs : x ∈ uniqPtrTypes R scs ↔ Py.startsWith x "ptr-" = true ∧ Collected R scs x := by
    rw [← mem_ptrTypes h]
    obtain ⟨types, recs, ht, hr, rfl⟩ := generate_eq_ok_iff.mp h
    rw [List.mem_insertionSort]
  obtain ⟨types, recs, ht, hr, rfl⟩ := generate_eq_ok_iff.mp h
  rw [List.mem_filter, List.contains_iff_mem, hptrs]
  constructor
  · rintro ⟨ha, hx, hc⟩
    exact ⟨hx, hc, (mem_auxPtrTypes hx).mp ha⟩
  · rintro ⟨hx, hc, ha⟩
    exact ⟨(mem_auxPtrTypes hx).mpr ha, hx, hc⟩

theorem knownInSyscalls_iff : w.KnownInSyscalls x ↔
    TypeName R x ∨ RecordName R x ∨ Py.startsWith x "ptr-" = true ∧ Collected R scs x := by
  rw [WitFile.KnownInSyscalls, WitFile.syscallsScope, List.mem_append, mem_typeKeys h, mem_recordNames h,
    mem_ptrTypes h, TypeName]
  tauto

theorem knownInAux_iff : x ∈ builtins ∨ x ∈ w.auxScope ↔
    TypeName R x ∨ Py.startsWith x "ptr-" = true ∧ Collected R scs x ∧ AuxCollected auxs x := by
  rw [WitFile.auxScope, List.mem_append, mem_typeKeys h, mem_auxUses h, TypeName, or_assoc]

theorem mem_syscallsNames_iff : x ∈ w.syscallsNames ↔
    (∃ sd ∈ R.structDefs.values, ∃ f ∈ sd.fields, x ∈ fieldNames R f) ∨
      ∃ sc ∈ scs, sc.implemented = true ∧
        ((∃ e ∈ sc.argsId.zip sc.args, argText R e.2 = x) ∨ x = "syscall-result") := by
  obtain ⟨types, recs, ht, hr, rfl⟩ := generate_eq_ok_iff.mp h
  rw [WitFile.syscallsNames, List.mem_append, mem_names_records hr, List.flatMap_map]
  simp only [List.mem_flatMap, List.mem_filter, mem_types_syscallFunc_iff, and_assoc]

theorem mem_auxNames_iff : x ∈ w.auxNames ↔ ∃ sc ∈ auxs,
    (∃ e ∈ sc.argsId.zip sc.args, argText R e.2 = x) ∨ ∃ t ∈ sc.result, t ≠ [] ∧ resolveArgWit R t = x := by
  obtain ⟨types, recs, ht, hr, rfl⟩ := generate_eq_ok_iff.mp h
  rw [WitFile.auxNames, List.flatMap_map]
  simp only [List.mem_flatMap, mem_types_auxFunc_iff]

/-- The declarations of `types` themselves: only the target of an alias can be unknown. When no two
declarations go by one name, each of them is kept. -/
theorem types_known_iff (hwidth : ∀ p ∈ R.cPrimitives.values, IsWidth p.size)
    (hnames : ((declared R).map toWit).Nodup) :
    (∀ x ∈ w.typesNames, x ∈ builtins ∨ x ∈ w.types.keys) ↔
      ∀ u ∈ R.typeAliases.values, u ∉ R.cPrimitives.keys → TypeName R (toWit u) := by
  have hknown : ∀ x, x ∈ builtins ∨ x ∈ w.types.keys ↔ TypeName R x := fun x => by
    rw [mem_typeKeys h, TypeName]
  simp only [hknown]
  obtain ⟨types, recs, ht, hr, rfl⟩ := generate_eq_ok_iff.mp h
  obtain ⟨es, hes, rfl⟩ := Py.map_eq_ok_iff.mp ht
  have hkeys : (es.map Prod.fst).Nodup := by rwa [map_fst_compEntries hes]
  have hnone : ∀ u, u ∉ R.cPrimitives.keys → aliasTarget R u = toWit u := by
    intro u hu
    rw [aliasTarget, Dict.get?_eq_none_iff.mpr hu]
  simp only [WitFile.typesNames, Dict.values, Dict.ofList_entries_of_nodup hkeys]
  constructor
  · intro hall u hu hprim
    obtain ⟨k, hk⟩ := Dict.mem_values.mp hu
    rw [← hnone u hprim]
    refine hall _ (List.mem_flatMap.mpr ⟨.ident (aliasTarget R u), ?_, List.mem_singleton_self _⟩)
    refine List.mem_map.mpr ⟨(toWit k, _), ?_, rfl⟩
    obtain ⟨arrays, _, rfl⟩ := compEntries_parts hes
    exact List.mem_append_left _ (List.mem_append_right _ (List.mem_map.mpr ⟨(k, u), hk, rfl⟩))
  · intro htargets x hx
    obtain ⟨wt, hwt, hx⟩ := List.mem_flatMap.mp hx
    obtain ⟨e, he, rfl⟩ := List.mem_map.mp hwt
    rcases compEntries_cases hes he with ⟨k, p, hp, rfl⟩ | ⟨k, u, hu, rfl⟩ | ⟨k, n, elem, p, hp, rfl⟩
    · obtain rfl := List.mem_singleton.mp hx
      exact typeName_witName hwidth hp
    · obtain rfl := List.mem_singleton.mp hx
      by_cases hprim : u ∈ R.cPrimitives.keys
      · obtain ⟨p, hp⟩ := Dict.mem_keys_iff.mp hprim
        rw [aliasTarget, hp]
        exact typeName_primitive hwidth hp
      · rw [hnone u hprim]
        exact htargets u (Dict.mem_values.mpr ⟨k, hu⟩) hprim
    · obtain rfl := List.mem_singleton.mp (names_array_subset hx)
      exact typeName_witName hwidth hp

end File

theorem WitFile.Closed.grounded (hwidth : ∀ p ∈ R.cPrimitives.values, IsWidth p.size)
    (hnames : ((declared R).map toWit).Nodup) (h : generate R scs auxs = .ok w) (hw : w.Closed) :
    Grounded R scs auxs := by
  refine ⟨(types_known_iff h hwidth hnames).mp hw.types, fun x hx hc => ?_, fun sd hsd f hf x hmem hx => ?_,
    fun sc hsc hi e he hx hb => ?_, fun sc hsc hi => ?_, fun sc hsc e he hb => ?_,
    fun sc hsc t ht hne hb => ?_⟩
  · have hptr := (knownInSyscalls_iff h).mp (hw.ptr (List.ne_nil_of_mem ((mem_ptrTypes h).mpr ⟨hx, hc⟩)))
    rcases hptr with hptr | hptr | ⟨hptr, -⟩
    · exact .inl hptr
    · exact .inr hptr
    · exact absurd hptr (by decide)
  · have hknown := hw.syscalls x ((mem_syscallsNames_iff h).mpr (.inl ⟨sd, hsd, f, hf, hmem⟩))
    rcases (knownInSyscalls_iff h).mp hknown with hk | hk | ⟨-, hk⟩
    · exact .inl hk
    · exact .inr (.inl hk)
    · exact .inr (.inr hk)
  · have htext := ((resolveArgWit_cases hwidth (witArg e.2)).resolve_left fun hbasic => hb hbasic.1).2
    have hknown := hw.syscalls (witArg e.2)
      ((mem_syscallsNames_iff h).mpr (.inr ⟨sc, hsc, hi, .inl ⟨e, he, htext⟩⟩))
    rcases (knownInSyscalls_iff h).mp hknown with hk | hk | ⟨hk, -⟩
    · exact .inl hk
    · exact .inr hk
    · rw [hx] at hk
      cases hk
  · have hknown := hw.syscalls _ ((mem_syscallsNames_iff h).mpr (.inr ⟨sc, hsc, hi, .inr rfl⟩))
    rcases (knownInSyscalls_iff h).mp hknown with hk | hk | ⟨hk, -⟩
    · exact .inl hk
    · exact .inr hk
    · exact absurd hk (by decide)
  · have htext := ((resolveArgWit_cases hwidth (witArg e.2)).resolve_left fun hbasic => hb hbasic.1).2
    have hknown := hw.aux (witArg e.2) ((mem_auxNames_iff h).mpr ⟨sc, hsc, .inl ⟨e, he, htext⟩⟩)
    exact ((knownInAux_iff h).mp hknown).imp_right fun hk => ⟨hk.1, hk.2.1⟩
  · have htext := ((resolveArgWit_cases hwidth t).resolve_left fun hbasic => hb hbasic.1).2
    have hknown := hw.aux t ((mem_auxNames_iff h).mpr ⟨sc, hsc, .inr ⟨t, ht, hne, htext⟩⟩)
    exact (knownInAux_iff h).mp hknown

theorem Grounded.closed (hwidth : ∀ p ∈ R.cPrimitives.values, IsWidth p.size)
    (hnames : ((declared R).map toWit).Nodup) (h : generate R scs auxs = .ok w)
    (hg : Grounded R scs auxs) : w.Closed := by
  refine ⟨(types_known_iff h hwidth hnames).mpr hg.targets, fun hne => ?_, fun x hx => ?_, fun x hx => ?_⟩
  · obtain ⟨x, hx⟩ := List.exists_mem_of_ne_nil _ hne
    obtain ⟨hptr, hc⟩ := (mem_ptrTypes h).mp hx
    rw [knownInSyscalls_iff h, ← or_assoc]
    exact .inl (hg.ptr x hptr hc)
  · rw [knownInSyscalls_iff h]
    rcases (mem_syscallsNames_iff h).mp hx with ⟨sd, hsd, f, hf, hmem⟩ | ⟨sc, hsc, hi, ⟨e, he, rfl⟩ | rfl⟩
    · rcases known_of_mem_fieldNames hwidth hmem with hptr | hk | hk
      · exact (hg.fields sd hsd f hf x hmem hptr).imp_right (Or.imp_right fun hc => ⟨hptr, hc⟩)
      · exact .inl hk
      · exact .inr (.inl hk)
    · rw [argText]
      rcases resolveArgWit_cases hwidth (witArg e.2) with ⟨-, hb⟩ | ⟨hb, htext⟩
      · exact .inl (.inl hb)
      · rw [htext]
        cases hptr : Py.startsWith (witArg e.2) "ptr-" with
        | true => exact .inr (.inr ⟨rfl, .inr ⟨sc, hsc, e.2, (List.of_mem_zip he).2, rfl⟩⟩)
        | false => exact (hg.args sc hsc hi e he hptr hb).imp_right .inl
    · exact (hg.result sc hsc hi).imp_right .inl
  · rw [knownInAux_iff h]
    obtain ⟨sc, hsc, ⟨e, he, rfl⟩ | ⟨t, ht, hne, rfl⟩⟩ := (mem_auxNames_iff h).mp hx
    · rw [argText]
      rcases resolveArgWit_cases hwidth (witArg e.2) with ⟨-, hb⟩ | ⟨hb, htext⟩
      · exact .inl (.inl hb)
      · rw [htext]
        refine (hg.auxArgs sc hsc e he hb).imp_right fun hk => ⟨hk.1, hk.2, ?_⟩
        exact ⟨sc, hsc, e.2, (List.of_mem_zip he).2, rfl⟩
    · rcases resolveArgWit_cases hwidth t with ⟨-, hb⟩ | ⟨hb, htext⟩
      · exact .inl (.inl hb)
      · rw [htext]
        exact hg.auxResults sc hsc t ht hne hb

/-- **No dangling name**: where WIT has an integer for every primitive, and no two declarations go by
one hyphenated name, the file is closed exactly when the tables meet the conditions. -/
theorem closed_iff_grounded (hwidth : ∀ p ∈ R.cPrimitives.values, IsWidth p.size)
    (hnames : ((declared R).map toWit).Nodup) (h : generate R scs auxs = .ok w) :
    w.Closed ↔ Grounded R scs auxs :=
  ⟨fun hw => hw.grounded hwidth hnames h, fun hg => hg.closed hwidth hnames h⟩

instance (x : Str) : Decidable (TypeName R x) := inferInstanceAs (Decidable (_ ∨ _))

instance (x : Str) : Decidable (RecordName R x) := inferInstanceAs (Decidable (∃ k ∈ R.structDefs.keys, _))

theorem closed_iff_grounded_copyArgv :
    ∃ w, generate TypeRegistry.withTimers [openSyscall] [copyArgv] = .ok w ∧ w.Closed := by
  obtain ⟨w, hw⟩ := generate_ok (R := TypeRegistry.withTimers) (by decide +kernel)
    (by decide +kernel) [openSyscall] [copyArgv]
  refine ⟨w, hw, (closed_iff_grounded (by decide +kernel) (by decide +kernel) hw).mpr ?_⟩
  have hptr : TypeName TypeRegistry.withTimers "ptr" := by decide +kernel
  exact ⟨by decide +kernel, fun _ _ _ => .inl hptr, by decide +kernel, by decide +kernel, by decide +kernel,
    by decide +kernel, by decide +kernel⟩

end Wali.Wit
