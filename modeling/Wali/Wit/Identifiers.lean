import Wali.Wit.Generate

/-!
# Identifiers of the WIT file

Parameters and record fields are renamed by different helpers. A parameter with the name of a
reserved word gets a new name from `WIT_KEYWORDS_RESERVED_MAP`; a field does not. The new names are
also what other identifiers are renamed to.
-/

namespace Wali.Wit

open Py (Str Dict)

/-- The reserved words. -/
def reserved : List Str := witKeywordsReservedMap.keys

/-- Made of letters, digits and underscores. -/
def Word (s : Str) : Prop := ∀ c ∈ s, c.isAlphanum = true ∨ c = '_'

instance (s : Str) : Decidable (Word s) := List.decidableBAll _ s

/-- Different words of a list are written as different identifiers. -/
def KeptApart {α : Type} (ids : List Str) (items : List (Str × α)) : Prop :=
  ∀ (i j : ℕ) a b x y, ids[i]? = some a → ids[j]? = some b → items[i]? = some x →
    items[j]? = some y → Word a → Word b → a ≠ b → x.1 ≠ y.1

/-- No reserved word and no clash among the identifiers of a file. -/
structure IdentifiersOk (R : TypeRegistry) (scs : List Syscall) (auxs : List AuxSyscall)
    (w : WitFile) : Prop where
  params : ∀ f ∈ w.syscallFuncs ++ w.auxFuncs, ∀ p ∈ f.params, p.1 ∉ reserved
  fields : ∀ r ∈ w.records, ∀ f ∈ r.fields, f.1 ∉ reserved
  syscalls : ∀ (i : ℕ) sc f, (scs.filter (·.implemented))[i]? = some sc →
    w.syscallFuncs[i]? = some f → KeptApart sc.argsId f.params
  aux : ∀ (i : ℕ) sc f, auxs[i]? = some sc → w.auxFuncs[i]? = some f → KeptApart sc.argsId f.params
  records : ∀ (i : ℕ) sd r, R.structDefs.values[i]? = some sd → w.records[i]? = some r →
    KeptApart (sd.fields.map StructField.name) r.fields

/-- A reserved word beside the identifier that is renamed to its replacement. -/
def Clashing (ids : List Str) : Prop := ∃ word ∈ reserved, word ∈ ids ∧ word ++ ['_', 'i', 'd'] ∈ ids

instance (ids : List Str) : Decidable (Clashing ids) :=
  inferInstanceAs (Decidable (∃ word ∈ reserved, _))

/-- What the tables must satisfy: no field has the name of a reserved word, and no call has a
clashing pair among the identifiers that are written. -/
structure NamesFree (R : TypeRegistry) (scs : List Syscall) (auxs : List AuxSyscall) : Prop where
  fields : ∀ sd ∈ R.structDefs.values, ∀ f ∈ sd.fields, f.name ∉ reserved
  syscalls : ∀ sc ∈ scs, sc.implemented = true → ¬ Clashing ((sc.argsId.zip sc.args).map Prod.fst)
  aux : ∀ sc ∈ auxs, ¬ Clashing ((sc.argsId.zip sc.args).map Prod.fst)

theorem reserved_clean : ∀ word ∈ reserved, '-' ∉ word ∧ ' ' ∉ word ∧ '_' ∉ word := by decide

theorem paramName_reserved : ∀ word ∈ reserved, paramName word = word ++ ['-', 'i', 'd'] := by decide

theorem paramName_of_not_reserved {id : Str} (h : id ∉ reserved) :
    paramName id = Py.replaceChar '_' '-' id := by
  rw [paramName, Dict.get?_eq_none_iff.mpr h]
  rfl

theorem Word.clean {s : Str} (h : Word s) : '-' ∉ s ∧ ' ' ∉ s := by
  constructor
  · intro hc
    exact absurd (h '-' hc) (by decide)
  · intro hc
    exact absurd (h ' ' hc) (by decide)

/-- Where the new character did not occur, the replacement can be undone. -/
theorem replaceChar_undo {a b : Char} {s : Str} (h : b ∉ s) :
    Py.replaceChar b a (Py.replaceChar a b s) = s := by
  induction s with
  | nil => rfl
  | cons c s ih =>
    rw [List.mem_cons, not_or] at h
    have hs := ih h.2
    simp only [Py.replaceChar, List.map_cons] at hs ⊢
    rw [hs]
    by_cases hc : c = a
    · simp [hc]
    · simp [hc, Ne.symm h.1]

/-- A text without the new character is not the result of a replacement. -/
theorem replaceChar_eq_of_not_mem {a b : Char} {s t : Str} (hb : b ∉ t)
    (h : Py.replaceChar a b s = t) : s = t := by
  have ha : a ∉ s := fun ha => hb (h ▸ Py.mem_replaceChar.mpr (Or.inr ⟨rfl, ha⟩))
  rw [← h, Py.replaceChar_of_not_mem ha]

theorem paramName_not_reserved (id : Str) : paramName id ∉ reserved := by
  by_cases hid : id ∈ reserved
  · rw [paramName_reserved id hid]
    revert id
    decide
  · rw [paramName_of_not_reserved hid]
    intro hmem
    rw [← replaceChar_eq_of_not_mem (reserved_clean _ hmem).1 rfl] at hmem
    exact hid hmem

theorem toWit_mem_reserved_iff {name : Str} : toWit name ∈ reserved ↔ name ∈ reserved := by
  constructor
  · intro h
    obtain ⟨hhyphen, _⟩ := reserved_clean _ h
    have hblanks := replaceChar_eq_of_not_mem hhyphen rfl
    rwa [← replaceChar_eq_of_not_mem hhyphen hblanks] at h
  · intro h
    obtain ⟨_, hblank, hunder⟩ := reserved_clean _ h
    rwa [toWit_of_clean hblank hunder]

theorem toWit_injective {a b : Str} (ha : Word a) (hb : Word b) (h : toWit a = toWit b) : a = b := by
  rw [toWit, toWit, Py.replaceChar_of_not_mem ha.clean.2, Py.replaceChar_of_not_mem hb.clean.2] at h
  rw [← replaceChar_undo ha.clean.1, h, replaceChar_undo hb.clean.1]

/-- The identifier that is renamed to the replacement of a reserved word. -/
theorem eq_of_paramName_eq_reserved {word b : Str} (hword : word ∈ reserved) (hb : Word b)
    (hnot : b ∉ reserved) (h : paramName word = paramName b) : b = word ++ ['_', 'i', 'd'] := by
  rw [paramName_reserved word hword, paramName_of_not_reserved hnot] at h
  have hundo := congrArg (Py.replaceChar '-' '_') h
  rw [replaceChar_undo hb.clean.1] at hundo
  have hall : ∀ word ∈ reserved,
      Py.replaceChar '-' '_' (word ++ ['-', 'i', 'd']) = word ++ ['_', 'i', 'd'] := by decide
  rw [← hundo, hall word hword]

/-- Two different words with one parameter name are a clashing pair. -/
theorem clashing_of_paramName_eq {ids : List Str} {a b : Str} (ha : a ∈ ids) (hb : b ∈ ids)
    (hwa : Word a) (hwb : Word b) (hne : a ≠ b) (h : paramName a = paramName b) : Clashing ids := by
  by_cases hra : a ∈ reserved
  · by_cases hrb : b ∈ reserved
    · rw [paramName_reserved a hra, paramName_reserved b hrb] at h
      exact absurd (List.append_cancel_right h) hne
    · exact ⟨a, hra, ha, eq_of_paramName_eq_reserved hra hwb hrb h ▸ hb⟩
  · by_cases hrb : b ∈ reserved
    · exact ⟨b, hrb, hb, eq_of_paramName_eq_reserved hrb hwa hra h.symm ▸ ha⟩
    · rw [paramName_of_not_reserved hra, paramName_of_not_reserved hrb] at h
      refine absurd ?_ hne
      rw [← replaceChar_undo hwa.clean.1, h, replaceChar_undo hwb.clean.1]

/-- A clashing pair is made of words, and has one parameter name. -/
theorem reserved_pair : ∀ word ∈ reserved, Word word ∧ Word (word ++ ['_', 'i', 'd']) ∧
    word ≠ word ++ ['_', 'i', 'd'] ∧ paramName word = paramName (word ++ ['_', 'i', 'd']) := by
  decide +kernel

section File

variable {R : TypeRegistry} {scs : List Syscall} {auxs : List AuxSyscall} {w : WitFile}

theorem params_not_reserved {argsId : List Str} {args : List SyscallArg} :
    ∀ p ∈ witParams R argsId args, p.1 ∉ reserved := by
  intro p hp
  obtain ⟨e, _, rfl⟩ := List.mem_map.mp hp
  exact paramName_not_reserved e.1

/-- The parameters of a call are kept apart unless there is a clashing pair. -/
theorem keptApart_params_iff {argsId : List Str} {args : List SyscallArg} :
    KeptApart argsId (witParams R argsId args) ↔ ¬ Clashing ((argsId.zip args).map Prod.fst) := by
  have hparam : ∀ {i : ℕ} {a : Str} {x : Str × Str}, argsId[i]? = some a →
      (witParams R argsId args)[i]? = some x →
      a ∈ (argsId.zip args).map Prod.fst ∧ x.1 = paramName a := by
    intro i a x ha hx
    rw [witParams, List.getElem?_map, Option.map_eq_some_iff] at hx
    obtain ⟨e, he, rfl⟩ := hx
    obtain rfl := Option.some.inj (ha.symm.trans (List.getElem?_zip_eq_some.mp he).1)
    exact ⟨List.mem_map_of_mem (List.mem_of_getElem? he), rfl⟩
  constructor
  · rintro hapart ⟨word, hword, hin, hin'⟩
    obtain ⟨e, he, rfl⟩ := List.mem_map.mp hin
    obtain ⟨e', he', hid⟩ := List.mem_map.mp hin'
    obtain ⟨hw, hw', hne, hsame⟩ := reserved_pair e.1 hword
    rw [← hid] at hw' hne hsame
    obtain ⟨i, hi⟩ := List.getElem?_of_mem he
    obtain ⟨j, hj⟩ := List.getElem?_of_mem he'
    refine hapart i j e.1 e'.1 (paramName e.1, argText R e.2) (paramName e'.1, argText R e'.2)
      (List.getElem?_zip_eq_some.mp hi).1 (List.getElem?_zip_eq_some.mp hj).1 ?_ ?_ hw hw' hne hsame
    · rw [witParams, List.getElem?_map, hi, Option.map_some]
    · rw [witParams, List.getElem?_map, hj, Option.map_some]
  · intro hfree i j a b x y ha hb hx hy hwa hwb hne he
    obtain ⟨hina, hxa⟩ := hparam ha hx
    obtain ⟨hinb, hyb⟩ := hparam hb hy
    exact hfree (clashing_of_paramName_eq hina hinb hwa hwb hne (hxa.symm.trans (he.trans hyb)))

/-- A record has the renamed fields of its struct. -/
theorem map_fst_recordFields {fs : List StructField} {fields : List (Str × WitType)}
    (h : recordFields R fs = .ok fields) :
    fields.map Prod.fst = fs.map fun f => toWit f.name := by
  refine Py.mapM_ok_map (fun f y hy => ?_) h
  obtain ⟨_, _, rfl⟩ := Py.map_eq_ok_iff.mp hy
  rfl

/-- The fields of a record are always kept apart. -/
theorem keptApart_fields {fs : List StructField} {fields : List (Str × WitType)}
    (h : recordFields R fs = .ok fields) : KeptApart (fs.map StructField.name) fields := by
  have hfield : ∀ {i : ℕ} {a : Str} {x : Str × WitType}, (fs.map StructField.name)[i]? = some a →
      fields[i]? = some x → x.1 = toWit a := by
    intro i a x ha hx
    have hi := congrArg (·[i]?) (map_fst_recordFields h)
    simp only [List.getElem?_map, hx, Option.map_some] at hi
    rw [List.getElem?_map, Option.map_eq_some_iff] at ha
    obtain ⟨f, hf, rfl⟩ := ha
    rw [hf, Option.map_some] at hi
    exact Option.some.inj hi
  intro i j a b x y ha hb hx hy hwa hwb hne he
  rw [hfield ha hx, hfield hb hy] at he
  exact hne (toWit_injective hwa hwb he)

/-- The records that are written, by position. -/
theorem records_getElem? {rs : List WitRecord} (h : records R = .ok rs) {i : ℕ} {r : WitRecord}
    (hr : rs[i]? = some r) :
    ∃ sd, R.structDefs.values[i]? = some sd ∧ recordFields R sd.fields = .ok r.fields := by
  obtain ⟨sd, hsd, hok⟩ := Py.mapM_ok_getElem?_inv h hr
  obtain ⟨fields, hf, rfl⟩ := Py.map_eq_ok_iff.mp hok
  exact ⟨sd, hsd, hf⟩

/-- **Identifiers**: in a file that is written there is no reserved word and no clash exactly when
no struct field has the name of a reserved word and no call has an argument of such a name beside
one with `_id` appended. -/
theorem identifiersOk_iff (R : TypeRegistry) (scs : List Syscall) (auxs : List AuxSyscall)
    (w : WitFile) (h : generate R scs auxs = .ok w) :
    IdentifiersOk R scs auxs w ↔ NamesFree R scs auxs := by
  obtain ⟨types, recs, _, hrecs, rfl⟩ := generate_eq_ok_iff.mp h
  constructor
  · rintro ⟨_, hfields, hsys, haux, _⟩
    refine ⟨fun sd hsd f hf hres => ?_, fun sc hsc hi => ?_, fun sc hsc => ?_⟩
    · obtain ⟨i, hi⟩ := List.getElem?_of_mem hsd
      obtain ⟨r, hr, hok⟩ := Py.mapM_ok_getElem? hrecs hi
      obtain ⟨fields, hrf, rfl⟩ := Py.map_eq_ok_iff.mp hok
      have hmem : toWit f.name ∈ fields.map Prod.fst := by
        rw [map_fst_recordFields hrf]
        exact List.mem_map_of_mem hf
      obtain ⟨x, hx, he⟩ := List.mem_map.mp hmem
      exact hfields _ (List.mem_of_getElem? hr) x hx (he ▸ toWit_mem_reserved_iff.mpr hres)
    · obtain ⟨i, hi⟩ := List.getElem?_of_mem (List.mem_filter.mpr ⟨hsc, hi⟩)
      refine keptApart_params_iff.mp (hsys i sc (syscallFunc R sc) hi ?_)
      rw [List.getElem?_map, hi, Option.map_some]
    · obtain ⟨i, hi⟩ := List.getElem?_of_mem hsc
      refine keptApart_params_iff.mp (haux i sc (auxFunc R sc) hi ?_)
      rw [List.getElem?_map, hi, Option.map_some]
  · rintro ⟨hfields, hsys, haux⟩
    refine ⟨fun f hf => ?_, fun r hr f hf hres => ?_, fun i sc f hi hf => ?_, fun i sc f hi hf => ?_,
      fun i sd r hi hr => ?_⟩
    · rcases List.mem_append.mp hf with hf | hf
      · obtain ⟨sc, _, rfl⟩ := List.mem_map.mp hf
        exact params_not_reserved
      · obtain ⟨sc, _, rfl⟩ := List.mem_map.mp hf
        exact params_not_reserved
    · obtain ⟨i, hi⟩ := List.getElem?_of_mem hr
      obtain ⟨sd, hsd, hrf⟩ := records_getElem? hrecs hi
      have hmem := List.mem_map_of_mem (f := Prod.fst) hf
      rw [map_fst_recordFields hrf] at hmem
      obtain ⟨g, hg, he⟩ := List.mem_map.mp hmem
      refine hfields sd (List.mem_of_getElem? hsd) g hg (toWit_mem_reserved_iff.mp ?_)
      rwa [he]
    · rw [List.getElem?_map, hi, Option.map_some, Option.some.injEq] at hf
      obtain ⟨hsc, himpl⟩ := List.mem_filter.mp (List.mem_of_getElem? hi)
      rw [← hf]
      exact keptApart_params_iff.mpr (hsys sc hsc himpl)
    · rw [List.getElem?_map, hi, Option.map_some, Option.some.injEq] at hf
      rw [← hf]
      exact keptApart_params_iff.mpr (haux sc (List.mem_of_getElem? hi))
    · obtain ⟨sd', hsd', hrf⟩ := records_getElem? hrecs hr
      obtain rfl := Option.some.inj (hi.symm.trans hsd')
      exact keptApart_fields hrf

end File

/-- `open` has an argument `flags`, which is renamed. -/
theorem identifiersOk_iff_open : ∃ w,
    generate TypeRegistry.withTimers [openSyscall] [copyArgv] = .ok w ∧
      IdentifiersOk TypeRegistry.withTimers [openSyscall] [copyArgv] w := by
  obtain ⟨w, hw⟩ := generate_ok (R := TypeRegistry.withTimers) (by decide +kernel)
    (by decide +kernel) [openSyscall] [copyArgv]
  refine ⟨w, hw, (identifiersOk_iff _ _ _ w hw).mpr ?_⟩
  exact ⟨by decide +kernel, by decide +kernel, by decide +kernel⟩

/-- The struct of `rt_sigaction` as shipped. -/
def kSigaction : StructDecl :=
  ⟨"struct k_sigaction", [⟨"handler", "ptr_func", none⟩, ⟨"flags", "unsigned long", none⟩,
    ⟨"restorer", "ptr_func", none⟩, ⟨"mask", "unsigned[2]", none⟩], some 24, true⟩

/-- A call with two arguments that differ. -/
def flagsCall : Syscall where
  name := "flagged"
  nrs := {}
  args := ["int", "int"]
  argsId := ["flags", "flags_id"]
  implemented := true

/-- The shipped struct has a field `flags`, which stays as it is; and two arguments of one call may
be written as one parameter name. -/
theorem identifiers_not_free :
    (∃ w, generate (kSigaction.postInit TypeRegistry.shippedBare).2 [] [] = .ok w ∧
      w.records.map (·.fields.map Prod.fst) =
        ([["handler", "flags", "restorer", "mask"]] : List (List Str)) ∧
      ¬ IdentifiersOk (kSigaction.postInit TypeRegistry.shippedBare).2 [] [] w) ∧
    ∃ w, generate TypeRegistry.shippedBare [flagsCall] [] = .ok w ∧
      w.syscallFuncs.map (·.params.map Prod.fst) = ([["flags-id", "flags-id"]] : List (List Str)) ∧
      ¬ IdentifiersOk TypeRegistry.shippedBare [flagsCall] [] w := by
  have hrec : (generate (kSigaction.postInit TypeRegistry.shippedBare).2 [] []).map
      (fun w => w.records.map (·.fields.map Prod.fst)) =
      .ok [["handler", "flags", "restorer", "mask"]] := by decide +kernel
  have hcall : (generate TypeRegistry.shippedBare [flagsCall] []).map
      (fun w => w.syscallFuncs.map (·.params.map Prod.fst)) =
      .ok [["flags-id", "flags-id"]] := by decide +kernel
  obtain ⟨w, hw, he⟩ := Py.map_eq_ok_iff.mp hrec
  obtain ⟨w', hw', he'⟩ := Py.map_eq_ok_iff.mp hcall
  refine ⟨⟨w, hw, he, fun hok => ?_⟩, ⟨w', hw', he', fun hok => ?_⟩⟩
  · have hmem : (["handler", "flags", "restorer", "mask"] : List Str) ∈
        w.records.map (·.fields.map Prod.fst) := by rw [he]; exact List.mem_singleton_self _
    obtain ⟨r, hr, hf⟩ := List.mem_map.mp hmem
    have hflags : ("flags" : Str) ∈ r.fields.map Prod.fst := by rw [hf]; decide
    obtain ⟨x, hx, hname⟩ := List.mem_map.mp hflags
    exact hok.fields r hr x hx (hname ▸ by decide)
  · obtain ⟨_, _, _, _, rfl⟩ := generate_eq_ok_iff.mp hw'
    exact keptApart_params_iff.mp (hok.syscalls 0 flagsCall _ rfl rfl) (by decide)

end Wali.Wit
