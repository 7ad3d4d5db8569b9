import Mathlib.Data.List.Nodup
import Mathlib.Data.List.Lemmas
import Mathlib.Data.List.Perm.Subperm

/-!
# Python dictionaries

A `dict` keeps its entries in insertion order and has each key once. The
second fact is a field of the structure, so a lookup can be read off as a
membership. Assigning to a key that is present keeps its position.
-/

namespace Py

/-- A dictionary: entries in insertion order, no key twice. -/
structure Dict (κ α : Type*) where
  entries : List (κ × α)
  nodup : (entries.map Prod.fst).Nodup

namespace Dict

variable {κ α : Type*}

def keys (d : Dict κ α) : List κ := d.entries.map Prod.fst

def values (d : Dict κ α) : List α := d.entries.map Prod.snd

def empty : Dict κ α := ⟨[], List.nodup_nil⟩

theorem eq_iff_entries_eq {d d' : Dict κ α} : d = d' ↔ d.entries = d'.entries := by
  cases d
  cases d'
  simp only [mk.injEq]

@[simp] theorem entries_empty : (empty : Dict κ α).entries = [] := rfl

theorem mem_keys_of_mem {d : Dict κ α} {k : κ} {v : α} (h : (k, v) ∈ d.entries) : k ∈ d.keys :=
  List.mem_map_of_mem h

theorem mem_values {d : Dict κ α} {v : α} : v ∈ d.values ↔ ∃ k, (k, v) ∈ d.entries := by
  simp [values]

variable [DecidableEq κ]

/-- `d.get(k)`. -/
def get? (d : Dict κ α) (k : κ) : Option α := d.entries.lookup k

/-- The entries after `d[k] = v`. -/
def setEntries (k : κ) (v : α) (es : List (κ × α)) : List (κ × α) :=
  if k ∈ es.map Prod.fst then es.map fun e => if e.1 = k then (k, v) else e else es ++ [(k, v)]

theorem map_fst_replace (k : κ) (v : α) (es : List (κ × α)) :
    (es.map fun e => if e.1 = k then (k, v) else e).map Prod.fst = es.map Prod.fst := by
  rw [List.map_map]
  apply List.map_congr_left
  rintro ⟨k', v'⟩ _
  by_cases h : k' = k <;> simp [h]

theorem nodup_setEntries {k : κ} {v : α} {es : List (κ × α)} (h : (es.map Prod.fst).Nodup) :
    ((setEntries k v es).map Prod.fst).Nodup := by
  unfold setEntries
  split
  · rwa [map_fst_replace]
  · next hk =>
    rw [List.map_append]
    exact List.Nodup.append h (by simp) (by simpa [List.disjoint_singleton] using hk)

/-- `d[k] = v`. -/
def set (d : Dict κ α) (k : κ) (v : α) : Dict κ α := ⟨setEntries k v d.entries, nodup_setEntries d.nodup⟩

/-- Assign the listed entries one after the other. -/
def update (d : Dict κ α) (es : List (κ × α)) : Dict κ α := es.foldl (fun d e => d.set e.1 e.2) d

/-- A dictionary display: a repeated key keeps its first place and its last value. -/
def ofList (es : List (κ × α)) : Dict κ α := empty.update es

theorem get?_eq_some_iff {d : Dict κ α} {k : κ} {v : α} :
    d.get? k = some v ↔ (k, v) ∈ d.entries := by
  rw [get?, List.lookup_eq_some_iff]
  constructor
  · rintro ⟨l₁, l₂, he, _⟩
    simp [he]
  · intro h
    obtain ⟨l₁, l₂, he⟩ := List.append_of_mem h
    refine ⟨l₁, l₂, he, fun e hm => ?_⟩
    have hnd := d.nodup
    rw [he, List.map_append, List.map_cons] at hnd
    have hk := (List.nodup_append.mp hnd).2.2 _ (List.mem_map_of_mem hm) k List.mem_cons_self
    simpa using hk.symm

theorem get?_eq_none_iff {d : Dict κ α} {k : κ} : d.get? k = none ↔ k ∉ d.keys := by
  constructor
  · intro h hk
    obtain ⟨⟨k', v⟩, hm, rfl⟩ := List.mem_map.mp hk
    rw [get?_eq_some_iff.mpr hm] at h
    cases h
  · intro h
    by_contra hne
    obtain ⟨v, hv⟩ := Option.ne_none_iff_exists'.mp hne
    exact h (mem_keys_of_mem (get?_eq_some_iff.mp hv))

theorem mem_keys_iff {d : Dict κ α} {k : κ} : k ∈ d.keys ↔ ∃ v, d.get? k = some v := by
  rw [← Option.isSome_iff_exists, Option.isSome_iff_ne_none, ne_eq, get?_eq_none_iff, not_not]

@[simp] theorem get?_empty (k : κ) : (empty : Dict κ α).get? k = none := rfl

theorem mem_set_entries {d : Dict κ α} {k : κ} {v : α} {e : κ × α} :
    e ∈ (d.set k v).entries ↔ e = (k, v) ∨ (e ∈ d.entries ∧ e.1 ≠ k) := by
  change e ∈ setEntries k v d.entries ↔ _
  unfold setEntries
  split
  · next hk =>
    obtain ⟨⟨k', w⟩, hm, rfl⟩ := List.mem_map.mp hk
    simp only [List.mem_map]
    constructor
    · rintro ⟨a, ha, rfl⟩
      by_cases h : a.1 = k'
      · simp [h]
      · simp [h, ha]
    · rintro (rfl | ⟨he, hne⟩)
      · exact ⟨(k', w), hm, by simp⟩
      · exact ⟨e, he, by simp [hne]⟩
  · next hk =>
    simp only [List.mem_append, List.mem_singleton]
    constructor
    · rintro (he | rfl)
      · exact Or.inr ⟨he, fun h => hk (h ▸ List.mem_map_of_mem he)⟩
      · exact Or.inl rfl
    · rintro (rfl | ⟨he, _⟩)
      · exact Or.inr rfl
      · exact Or.inl he

theorem mem_values_set {d : Dict κ α} {k : κ} {v w : α} (h : w ∈ (d.set k v).values) :
    w = v ∨ w ∈ d.values := by
  obtain ⟨k', hk'⟩ := mem_values.mp h
  rcases mem_set_entries.mp hk' with he | ⟨he, _⟩
  · exact Or.inl (congrArg Prod.snd he)
  · exact Or.inr (mem_values.mpr ⟨k', he⟩)

@[simp] theorem get?_set_self (d : Dict κ α) (k : κ) (v : α) : (d.set k v).get? k = some v := by
  rw [get?_eq_some_iff, mem_set_entries]
  exact Or.inl rfl

theorem get?_set_of_ne (d : Dict κ α) {k k' : κ} (v : α) (h : k' ≠ k) :
    (d.set k v).get? k' = d.get? k' := by
  apply Option.ext
  intro w
  rw [get?_eq_some_iff, get?_eq_some_iff, mem_set_entries]
  simp [h]

theorem mem_keys_set {d : Dict κ α} {k k' : κ} {v : α} :
    k' ∈ (d.set k v).keys ↔ k' = k ∨ k' ∈ d.keys := by
  by_cases h : k' = k
  · subst k'
    simp [mem_keys_iff]
  · simp [mem_keys_iff, get?_set_of_ne d v h, h]

@[simp] theorem update_nil (d : Dict κ α) : d.update [] = d := rfl

@[simp] theorem update_cons (d : Dict κ α) (e : κ × α) (es : List (κ × α)) :
    d.update (e :: es) = (d.set e.1 e.2).update es := rfl

theorem mem_keys_update {d : Dict κ α} {es : List (κ × α)} {k : κ} :
    k ∈ (d.update es).keys ↔ k ∈ d.keys ∨ k ∈ es.map Prod.fst := by
  induction es generalizing d with
  | nil => simp
  | cons e es ih =>
    rw [update_cons, ih, mem_keys_set, List.map_cons, List.mem_cons]
    tauto

theorem mem_keys_ofList {es : List (κ × α)} {k : κ} : k ∈ (ofList es).keys ↔ k ∈ es.map Prod.fst := by
  rw [ofList, mem_keys_update]
  exact or_iff_right List.not_mem_nil

theorem set_entries_of_not_mem {d : Dict κ α} {k : κ} (v : α) (h : k ∉ d.keys) :
    (d.set k v).entries = d.entries ++ [(k, v)] :=
  if_neg h

theorem update_entries_of_nodup {d : Dict κ α} {es : List (κ × α)} (hnd : (es.map Prod.fst).Nodup)
    (h : ∀ k ∈ es.map Prod.fst, k ∉ d.keys) : (d.update es).entries = d.entries ++ es := by
  induction es generalizing d with
  | nil => rw [update_nil, List.append_nil]
  | cons e es ih =>
    rw [List.map_cons, List.nodup_cons] at hnd
    have he := set_entries_of_not_mem e.2 (h e.1 List.mem_cons_self)
    rw [update_cons, ih hnd.2, he, List.append_assoc]
    · rfl
    · intro k hk hset
      rcases mem_keys_set.mp hset with rfl | hd
      · exact hnd.1 hk
      · exact h k (List.mem_cons_of_mem _ hk) hd

/-- A display without repeated keys keeps its entries as they are. -/
theorem ofList_entries_of_nodup {es : List (κ × α)} (hnd : (es.map Prod.fst).Nodup) :
    (ofList es).entries = es :=
  update_entries_of_nodup hnd fun _ _ => List.not_mem_nil

/-- No key is repeated in a display that has an entry for each of its items. -/
theorem length_ofList_eq_iff {es : List (κ × α)} :
    (ofList es).entries.length = es.length ↔ (es.map Prod.fst).Nodup := by
  constructor
  · intro h
    have hsub : (ofList es).keys.Subperm (es.map Prod.fst) :=
      List.subperm_of_subset (ofList es).nodup fun k hk => mem_keys_ofList.mp hk
    refine (hsub.perm_of_length_le ?_).nodup_iff.mp (ofList es).nodup
    rw [keys, List.length_map, List.length_map, h]
  · intro hnd
    rw [ofList_entries_of_nodup hnd]

/-- A value after the assignments was there before or was assigned to its key. -/
theorem of_get?_update {d : Dict κ α} {es : List (κ × α)} {k : κ} {v : α}
    (h : (d.update es).get? k = some v) : d.get? k = some v ∨ (k, v) ∈ es := by
  induction es generalizing d with
  | nil => exact Or.inl h
  | cons e es ih =>
    rcases ih h with hset | hmem
    · by_cases hk : k = e.1
      · subst hk
        rw [get?_set_self, Option.some.injEq] at hset
        subst hset
        exact Or.inr List.mem_cons_self
      · rw [get?_set_of_ne d e.2 hk] at hset
        exact Or.inl hset
    · exact Or.inr (List.mem_cons_of_mem e hmem)

theorem mem_of_get?_ofList {es : List (κ × α)} {k : κ} {v : α}
    (h : (ofList es).get? k = some v) : (k, v) ∈ es :=
  (of_get?_update h).resolve_left (by simp)

/-- A key that is assigned once has the value assigned to it. -/
theorem get?_ofList_of_count [BEq κ] [LawfulBEq κ] {es : List (κ × α)} {k : κ} {v : α}
    (hone : (es.map Prod.fst).count k = 1) (h : (k, v) ∈ es) : (ofList es).get? k = some v := by
  obtain ⟨v', hv'⟩ := mem_keys_iff.mp (mem_keys_ofList.mpr (List.mem_map_of_mem h))
  rw [List.count, List.countP_map, List.countP_eq_length_filter] at hone
  obtain ⟨e, he⟩ := List.length_eq_one_iff.mp hone
  have hall : ∀ w, (k, w) ∈ es → (k, w) = e := fun w hw =>
    List.mem_singleton.mp (he ▸ List.mem_filter.mpr ⟨hw, beq_self_eq_true k⟩)
  have hpair := (hall v' (mem_of_get?_ofList hv')).trans (hall v h).symm
  rw [hv', (Prod.mk.inj hpair).2]

theorem get?_ofList_of_mem {es : List (κ × α)} {k : κ} {v : α} (hnd : (es.map Prod.fst).Nodup)
    (h : (k, v) ∈ es) : (ofList es).get? k = some v :=
  get?_ofList_of_count (List.count_eq_one_of_mem hnd (List.mem_map_of_mem h)) h

end Dict

end Py
