import Wali.Syscalls

/-!
# Argument declarations

The arguments of a syscall are declared as `<type> <id>`. The declaration is cut at its last white
space, whatever is on the two sides of it.
-/

namespace Wali

open Py (Str)

def isIdentifier : Str → Bool
  | [] => false
  | c :: cs => (c.isAlpha || c == '_') && cs.all fun d => d.isAlphanum || d == '_'

/-- A type text, white space and an identifier. -/
def Declares (a type id : Str) : Prop := Py.LastWord a type id ∧ isIdentifier id = true

/-- A declaration of a pointer: the stars are somewhere between the type and the name. -/
def DeclaresPointer (a target : Str) (k : ℕ) (id : Str) : Prop :=
  ∃ gap gap' tail, a = target ++ gap ++ List.replicate k '*' ++ gap' ++ id ++ tail ∧ 0 < k ∧
    Py.Blank gap ∧ Py.Blank gap' ∧ isIdentifier id = true ∧ Py.Blank tail

/-- The stars are next to the name, behind white space: `T *id`. -/
def StarAtName (a target : Str) (k : ℕ) (id : Str) : Prop :=
  ∃ gap tail, a = target ++ gap ++ List.replicate k '*' ++ id ++ tail ∧ 0 < k ∧ gap ≠ [] ∧
    Py.Blank gap ∧ isIdentifier id = true ∧ Py.Blank tail

/-- The declaration is read for what it is. -/
structure ParsesExactly (a : Str) : Prop where
  /-- What is accepted is a type and an identifier. -/
  exact : ∀ type id, splitArgs a = .ok (type, id) ↔ Declares a type id
  /-- `T *id` is rejected or is the same as `T* id`. -/
  star : ∀ target k id, StarAtName a target k id → (∃ e, splitArgs a = .error e) ∨
    splitArgs a = splitArgs (target ++ List.replicate k '*' ++ [' '] ++ id)
  /-- No pointer is recorded as a value, -/
  impl : ∀ target k id, DeclaresPointer a target k id → ∀ name args nrs aliases unused sc,
    Wali.impl name args nrs aliases unused = .ok sc → ∀ i : ℕ, args[i]? = some a →
      ∃ t, sc.args[i]? = some t ∧ t.isPtr = true
  /-- nor by the helper for auxiliary calls. -/
  implAux : ∀ target k id, DeclaresPointer a target k id → ∀ name args result sc,
    Wali.implAux name args result = .ok sc → ∀ i : ℕ, args[i]? = some a →
      ∃ t, sc.args[i]? = some t ∧ t.isPtr = true

/-- The last of two words or more is an identifier. -/
def NamedLast (a : Str) : Prop :=
  (Py.words a).length < 2 ∨ ∃ w, (Py.words a).getLast? = some w ∧ isIdentifier w = true

-- ════════════════════════════════════════════════════════════════════════
-- What is split
-- ════════════════════════════════════════════════════════════════════════

/-- The codes of letters and digits. -/
theorem toNat_of_isAlphanum {c : Char} (h : c.isAlphanum = true) : 48 ≤ c.toNat ∧ c.toNat ≤ 122 := by
  have hrange {lo hi : UInt32} (h : c.val ≥ lo ∧ c.val ≤ hi) : lo.toNat ≤ c.toNat ∧ c.toNat ≤ hi.toNat :=
    ⟨UInt32.le_iff_toNat_le.mp h.1, UInt32.le_iff_toNat_le.mp h.2⟩
  rcases Bool.or_eq_true_iff.mp h with ha | hd
  · rcases Bool.or_eq_true_iff.mp ha with hupper | hlower
    · have hcodes : 65 ≤ c.toNat ∧ c.toNat ≤ 90 := hrange (of_decide_eq_true hupper)
      omega
    · have hand := Bool.and_eq_true_iff.mp hlower
      have hcodes : 97 ≤ c.toNat ∧ c.toNat ≤ 122 :=
        hrange ⟨of_decide_eq_true hand.1, of_decide_eq_true hand.2⟩
      omega
  · have hcodes := Char.isDigit_iff_toNat.mp hd
    exact ⟨hcodes.1, hcodes.2.trans (by decide)⟩

/-- The characters of an identifier. -/
theorem isIdentifier_char {id : Str} (h : isIdentifier id = true) {c : Char} (hc : c ∈ id) :
    48 ≤ c.toNat ∧ c.toNat ≤ 122 := by
  have hchar : c.isAlphanum = true ∨ c = '_' := by
    cases id with
    | nil => cases hc
    | cons d ds =>
      simp only [isIdentifier, Bool.and_eq_true, Bool.or_eq_true, beq_iff_eq, List.all_eq_true] at h
      rcases List.mem_cons.mp hc with rfl | hc
      · exact h.1.imp_left fun ha => Bool.or_eq_true_iff.mpr (Or.inl ha)
      · exact h.2 c hc
  rcases hchar with hchar | rfl
  · exact toNat_of_isAlphanum hchar
  · decide

theorem isWord_of_isIdentifier {id : Str} (h : isIdentifier id = true) : Py.IsWord id := by
  refine ⟨?_, fun c hc => ?_⟩
  · rintro rfl
    cases h
  · have hcodes : ∀ n ∈ Py.spaceCodes, n < 48 ∨ 122 < n := by decide
    have hrange := isIdentifier_char h hc
    by_contra hsp
    have := hcodes _ (List.contains_iff_mem.mp (Bool.eq_true_of_not_eq_false hsp))
    omega

theorem star_not_mem_identifier {id : Str} (h : isIdentifier id = true) : '*' ∉ id := by
  intro hmem
  exact absurd (isIdentifier_char h hmem).1 (by decide)

/-- The property of the words is the property of the split. -/
theorem namedLast_iff {a : Str} :
    NamedLast a ↔ ∀ type w, Py.LastWord a type w → isIdentifier w = true := by
  constructor
  · rintro (hlt | ⟨w', hw', hid⟩) type w h
    · exact absurd h.two_le_words (Nat.not_le.mpr hlt)
    · rw [h.words, List.getLast?_concat] at hw'
      cases hw'
      exact hid
  · intro h
    rcases Py.rsplitOnce_cases a with ⟨_, hblank⟩ | ⟨lead, w, tail, _, rfl, hlead, hw, htail⟩ | ⟨t, w, _, hl⟩
    · exact Or.inl (by rw [Py.words_blank hblank]; decide)
    · refine Or.inl ?_
      rw [Py.words_append_of_blank htail, Py.words_blank_append hlead, hw.words]
      exact Nat.one_lt_two
    · exact Or.inr ⟨w, by rw [hl.words, List.getLast?_concat], h t w hl⟩

theorem exact_iff (a : Str) :
    (∀ type id, splitArgs a = .ok (type, id) ↔ Declares a type id) ↔ NamedLast a := by
  rw [namedLast_iff]
  constructor
  · intro h type w hl
    exact ((h type w).mp (splitArgs_eq_ok_iff.mpr hl)).2
  · intro h type w
    rw [splitArgs_eq_ok_iff]
    exact ⟨fun hl => ⟨hl, h type w hl⟩, And.left⟩

-- ════════════════════════════════════════════════════════════════════════
-- Pointers
-- ════════════════════════════════════════════════════════════════════════

/-- A star next to the name is in the last word. -/
theorem star_mem_lastWord {a u id tail type w : Str} {k : ℕ}
    (ha : a = u ++ List.replicate k '*' ++ id ++ tail) (hk : 0 < k) (hid : isIdentifier id = true)
    (ht : Py.Blank tail) (hl : Py.LastWord a type w) : '*' ∈ w := by
  obtain ⟨gap, r, hu, rfl, hne, hgap⟩ := hl.append_word ha (isWord_of_isIdentifier hid) ht
  have hlast := congrArg List.getLast? hu
  rw [List.getLast?_append_of_ne_nil _ (by simp [hk.ne']), List.getLast?_replicate, if_neg hk.ne'] at hlast
  rcases List.eq_nil_or_concat' r with rfl | ⟨r, d, rfl⟩
  · obtain ⟨g, c, rfl⟩ := (List.eq_nil_or_concat' gap).resolve_left hne
    have hc : '*' = c := by simpa using hlast
    exact absurd (hgap c (by simp)) (by rw [← hc]; decide)
  · have hd : '*' = d := by simpa using hlast
    rw [hd]
    simp

/-- Where the last word is an identifier, the stars of a pointer are in front of it. -/
theorem DeclaresPointer.isPtr {a target id type w : Str} {k : ℕ} (h : DeclaresPointer a target k id)
    (hl : Py.LastWord a type w) (hw : isIdentifier w = true) : SyscallArg.isPtr type = true := by
  obtain ⟨gap, gap', tail, ha, hk, hgap, hgap', hid, ht⟩ := h
  have hstars : Py.Trimmed Py.isSpace (List.replicate k '*') :=
    Py.trimmed_of_forall fun c hc => by rw [List.eq_of_mem_replicate hc]; decide
  by_cases hnil : gap' = []
  · rw [hnil, List.append_nil] at ha
    exact absurd (star_mem_lastWord ha hk hid ht hl) (star_not_mem_identifier hw)
  · have hl' : Py.LastWord a (target ++ gap ++ List.replicate k '*') id :=
      ⟨⟨gap', tail, ha, hnil, hgap', ht⟩, by simp [hk.ne'], hstars.append (by simp [hk.ne']),
        isWord_of_isIdentifier hid⟩
    rw [(hl.unique hl').1]
    exact Py.endsWith_append_replicate _ '*' hk

theorem mapM_splitArgs_getElem? {args : List Str} {parts : List (SyscallArg × Str)}
    (h : args.mapM splitArgs = .ok parts) {i : ℕ} {a : Str} (hi : args[i]? = some a) :
    ∃ type id, splitArgs a = .ok (type, id) ∧ (parts.map Prod.fst)[i]? = some type := by
  obtain ⟨⟨type, id⟩, hp, hs⟩ := Py.mapM_ok_getElem? h hi
  exact ⟨type, id, hs, by rw [List.getElem?_map, hp]; rfl⟩

/-- **What the argument parser accepts**: the last word is never looked at, so that a declaration is
read for what it is exactly if its last word is an identifier. -/
theorem parsesExactly_iff (a : Str) : ParsesExactly a ↔ NamedLast a := by
  refine ⟨fun h => (exact_iff a).mp h.exact, fun h => ?_⟩
  have hname (type w : Str) (hs : splitArgs a = .ok (type, w)) :
      Py.LastWord a type w ∧ isIdentifier w = true := ((exact_iff a).mpr h type w).mp hs
  -- either helper goes through the same comprehension
  have hptr {target id : Str} {k : ℕ} (hp : DeclaresPointer a target k id) {args : List Str}
      {parts : List (SyscallArg × Str)} (hparts : args.mapM splitArgs = .ok parts) {i : ℕ}
      (hi : args[i]? = some a) : ∃ t, (parts.map Prod.fst)[i]? = some t ∧ t.isPtr = true := by
    obtain ⟨type, w, hs, ht⟩ := mapM_splitArgs_getElem? hparts hi
    obtain ⟨hl, hw⟩ := hname _ _ hs
    exact ⟨type, ht, hp.isPtr hl hw⟩
  refine ⟨(exact_iff a).mpr h, ?_, ?_, ?_⟩
  · rintro target k id ⟨gap, tail, ha, hk, _, _, hid, ht⟩
    cases hs : splitArgs a with
    | error e => exact Or.inl ⟨e, rfl⟩
    | ok pair =>
      obtain ⟨hl, hw⟩ := hname pair.1 pair.2 hs
      exact absurd (star_mem_lastWord ha hk hid ht hl) (star_not_mem_identifier hw)
  · intro target k id hp name args nrs aliases unused sc himpl i hi
    obtain ⟨parts, hparts, hsc⟩ := Py.bind_eq_ok_iff.mp himpl
    cases hsc
    exact hptr hp hparts hi
  · intro target k id hp name args result sc himpl i hi
    obtain ⟨parts, hparts, hsc⟩ := Py.bind_eq_ok_iff.mp himpl
    cases hsc
    exact hptr hp hparts hi

/-- The star of `char *buf` becomes part of the name, and the argument a `char` by value. -/
theorem star_in_name :
    splitArgs "char *buf" = .ok ("char", "*buf") ∧ splitArgs "char* buf" = .ok ("char*", "buf") ∧
    impl "read" ["int fd", "char *buf", "size_t count"] ⟨0, 63, 63⟩ = .ok
      { name := "read", nrs := ⟨0, 63, 63⟩, args := ["int", "char", "size_t"],
        argsId := ["fd", "*buf", "count"], implemented := true } ∧
    ¬ ParsesExactly "char *buf" := by
  refine ⟨by decide +kernel, by decide +kernel, by decide +kernel, fun h => ?_⟩
  have hdecl := (h.exact "char" "*buf").mp (by decide +kernel)
  exact absurd hdecl.2 (by decide)

end Wali
