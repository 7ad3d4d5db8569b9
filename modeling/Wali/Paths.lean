import Wali.Py.Text
import Mathlib.Data.List.Forall2

/-!
# Paths

Lexical normalisation of absolute paths: empty components and `.` are dropped, `..` takes back the
component before it, and the root is its own parent. `normText` normalises the paths that occur in
the words of a text.
-/

namespace Paths

open Py (Str)

def step (dir : List Str) (c : Str) : List Str :=
  if c = [] ∨ c = ['.'] then dir else if c = ['.', '.'] then dir.dropLast else dir ++ [c]

/-- Where some components lead from a directory. -/
def walk (dir cs : List Str) : List Str := cs.foldl step dir

/-- The text of a directory. -/
def absolute (dir : List Str) : Str := if dir = [] then ['/'] else dir.flatMap ('/' :: ·)

def normPath (p : Str) : Str := if p = [] then [] else absolute (walk [] (p.splitOn '/'))

/-- The path in a word starts at its first slash. -/
def normWord (w : Str) : Str := w.takeWhile (· != '/') ++ normPath (w.dropWhile (· != '/'))

def normText (s : Str) : Str := Py.join [' '] ((s.splitOn ' ').map normWord)

/-- A component that leads into a directory. -/
structure IsName (c : Str) : Prop where
  ne_nil : c ≠ []
  ne_dot : c ≠ ['.']
  ne_dots : c ≠ ['.', '.']
  no_slash : '/' ∉ c

/-- A relative path as a number of levels to go up and a directory to go down to. -/
def relStep (r : ℕ × List Str) (c : Str) : ℕ × List Str :=
  if c = [] ∨ c = ['.'] then r
  else if c = ['.', '.'] then if r.2 = [] then (r.1 + 1, []) else (r.1, r.2.dropLast)
  else (r.1, r.2 ++ [c])

def relative (cs : List Str) : ℕ × List Str := cs.foldl relStep (0, [])

/-- How many levels a relative path goes up. -/
def climb (cs : List Str) : ℕ := (relative cs).1

-- ════════════════════════════════════════════════════════════════════════
-- Walking
-- ════════════════════════════════════════════════════════════════════════

section Walk

variable {dir cs : List Str} {c : Str}

theorem walk_append (dir cs cs' : List Str) : walk dir (cs ++ cs') = walk (walk dir cs) cs' :=
  List.foldl_append

theorem step_name (h : IsName c) (dir : List Str) : step dir c = dir ++ [c] := by
  rw [step, if_neg (not_or.mpr ⟨h.ne_nil, h.ne_dot⟩), if_neg h.ne_dots]

theorem walk_names (h : ∀ c ∈ cs, IsName c) (dir : List Str) : walk dir cs = dir ++ cs := by
  induction cs generalizing dir with
  | nil => exact (List.append_nil dir).symm
  | cons c cs ih =>
    rw [List.forall_mem_cons] at h
    change walk (step dir c) cs = _
    rw [step_name h.1, ih h.2, List.append_assoc, List.singleton_append]

theorem isName_step (hdir : ∀ d ∈ dir, IsName d) (hc : '/' ∉ c) : ∀ d ∈ step dir c, IsName d := by
  intro d hd
  rw [step] at hd
  split at hd
  · exact hdir d hd
  · next hdot =>
    split at hd
    · exact hdir d (List.mem_of_mem_dropLast hd)
    · next hdots =>
      rcases List.mem_append.mp hd with hd | hd
      · exact hdir d hd
      · rw [List.mem_singleton.mp hd]
        exact ⟨fun h => hdot (Or.inl h), fun h => hdot (Or.inr h), hdots, hc⟩

/-- A walk along components leads to a directory. -/
theorem isName_walk (hdir : ∀ d ∈ dir, IsName d) (hcs : ∀ c ∈ cs, '/' ∉ c) :
    ∀ d ∈ walk dir cs, IsName d := by
  induction cs generalizing dir with
  | nil => exact hdir
  | cons c cs ih =>
    rw [List.forall_mem_cons] at hcs
    exact ih (isName_step hdir hcs.1) hcs.2

/-- A step after a walk is a step of the relative path. -/
theorem step_relStep (dir : List Str) (r : ℕ × List Str) (c : Str) :
    step (dir.take (dir.length - r.1) ++ r.2) c =
      dir.take (dir.length - (relStep r c).1) ++ (relStep r c).2 := by
  rw [step, relStep]
  split
  · rfl
  · split
    · by_cases hr : r.2 = []
      · rw [if_pos hr, hr, List.append_nil, List.append_nil]
        rw [List.dropLast_eq_take, List.length_take, List.take_take]
        congr 1
        omega
      · rw [if_neg hr, List.dropLast_append_of_ne_nil hr]
    · exact List.append_assoc ..

/-- A walk goes up as far as it can, and then down. -/
theorem walk_eq (dir cs : List Str) :
    walk dir cs = dir.take (dir.length - climb cs) ++ (relative cs).2 := by
  have hfold : ∀ r, walk (dir.take (dir.length - r.1) ++ r.2) cs =
      dir.take (dir.length - (cs.foldl relStep r).1) ++ (cs.foldl relStep r).2 := by
    induction cs with
    | nil => exact fun _ => rfl
    | cons c cs ih =>
      intro r
      change walk (step _ c) cs = _
      rw [step_relStep, ih]
      rfl
  have h := hfold (0, [])
  rwa [Nat.sub_zero, List.take_length, List.append_nil] at h

/-- From a directory and from its parent one gets to the same place only by going up to the root. -/
theorem walk_dropLast_eq_iff (dir cs : List Str) :
    walk dir.dropLast cs = walk dir cs ↔ dir.length ≤ climb cs := by
  rw [walk_eq, walk_eq, List.append_cancel_right_eq, List.length_dropLast]
  constructor
  · intro h
    have hlen := congrArg List.length h
    rw [List.length_take, List.length_take, List.length_dropLast] at hlen
    omega
  · intro h
    have hz : dir.length - climb cs = 0 := by omega
    have hz' : dir.length - 1 - climb cs = 0 := by omega
    rw [hz, hz', List.take_zero, List.take_zero]

end Walk

-- ════════════════════════════════════════════════════════════════════════
-- Normal forms
-- ════════════════════════════════════════════════════════════════════════

section Absolute

variable {dir dir' : List Str}

theorem splitOn_flatMap (h : ∀ d ∈ dir, '/' ∉ d) : (dir.flatMap ('/' :: ·)).splitOn '/' = [] :: dir := by
  induction dir using List.reverseRecOn with
  | nil => rfl
  | append_singleton dir d ih =>
    have hd : '/' ∉ d := h d (by simp)
    rw [List.flatMap_append, List.flatMap_singleton, Py.splitOn_append_cons,
      ih fun e he => h e (List.mem_append_left _ he), Py.splitOn_of_not_mem hd, List.cons_append]

/-- The components of a directory are read back. -/
theorem filter_splitOn_absolute (h : ∀ d ∈ dir, IsName d) :
    ((absolute dir).splitOn '/').filter (· ≠ []) = dir := by
  rw [absolute]
  split
  · next hnil => exact hnil ▸ rfl
  · rw [splitOn_flatMap fun d hd => (h d hd).no_slash]
    exact List.filter_eq_self.mpr fun d hd => decide_eq_true (h d hd).ne_nil

theorem absolute_inj (h : ∀ d ∈ dir, IsName d) (h' : ∀ d ∈ dir', IsName d) :
    absolute dir = absolute dir' ↔ dir = dir' := by
  refine ⟨fun he => ?_, congrArg absolute⟩
  rw [← filter_splitOn_absolute h, he, filter_splitOn_absolute h']

/-- A text that leads to a directory, or to the root if it is empty. -/
structure Leads (p : Str) (dir : List Str) : Prop where
  slash : ∃ q, p ++ ['/'] = '/' :: q
  walk : walk [] (p.splitOn '/') = dir

theorem leads_flatMap (h : ∀ d ∈ dir, IsName d) : Leads (dir.flatMap ('/' :: ·)) dir where
  slash := by
    cases dir with
    | nil => exact ⟨[], rfl⟩
    | cons d dir => exact ⟨_, rfl⟩
  walk := by
    rw [splitOn_flatMap fun d hd => (h d hd).no_slash]
    exact walk_names h []

theorem absolute_ne_nil (dir : List Str) : absolute dir ≠ [] := by
  cases dir with
  | nil => exact List.cons_ne_nil '/' []
  | cons d dir => exact List.cons_ne_nil '/' _

theorem leads_absolute (h : ∀ d ∈ dir, IsName d) : Leads (absolute dir) dir := by
  rw [absolute]
  split
  · next hnil => exact hnil ▸ ⟨⟨['/'], rfl⟩, rfl⟩
  · exact leads_flatMap h

variable {p p' : Str}

theorem Leads.below (h : Leads p dir) (r : Str) : Leads (p ++ '/' :: r) (Paths.walk dir (r.splitOn '/')) where
  slash := by
    obtain ⟨q, hq⟩ := h.slash
    refine ⟨q ++ (r ++ ['/']), ?_⟩
    rw [List.append_assoc, List.cons_append, ← List.singleton_append, ← List.append_assoc, hq,
      List.cons_append]
  walk := by rw [Py.splitOn_append_cons, walk_append, h.walk]

theorem Leads.exists_cons (h : Leads p dir) (hne : p ≠ []) : ∃ q, p = '/' :: q := by
  obtain ⟨q, hq⟩ := h.slash
  obtain ⟨c, r, rfl⟩ := List.exists_cons_of_ne_nil hne
  exact ⟨r, by rw [(List.cons.inj hq).1]⟩

theorem Leads.normPath_eq (h : Leads p dir) (hne : p ≠ []) : normPath p = absolute dir := by
  rw [normPath, if_neg hne, h.walk]

theorem Leads.isName (h : Leads p dir) : ∀ d ∈ dir, IsName d := by
  rw [← h.walk]
  exact isName_walk (fun _ hd => nomatch hd) fun c hc => (Py.mem_splitOn hc).1

end Absolute

section Words

variable {p w s s' : Str}

theorem mem_walk {dir cs : List Str} {d : Str} (h : d ∈ walk dir cs) : d ∈ dir ∨ d ∈ cs := by
  induction cs generalizing dir with
  | nil => exact Or.inl h
  | cons c cs ih =>
    rcases ih h with hd | hd
    · rw [step] at hd
      split at hd
      · exact Or.inl hd
      · split at hd
        · exact Or.inl (List.mem_of_mem_dropLast hd)
        · rcases List.mem_append.mp hd with hd | hd
          · exact Or.inl hd
          · exact Or.inr (List.mem_singleton.mp hd ▸ List.mem_cons_self)
    · exact Or.inr (List.mem_cons_of_mem c hd)

/-- Normalising adds no characters but slashes. -/
theorem mem_normPath {c : Char} (h : c ∈ normPath p) : c = '/' ∨ c ∈ p := by
  rw [normPath] at h
  split at h
  · cases h
  · rw [absolute] at h
    split at h
    · exact Or.inl (List.mem_singleton.mp h)
    · obtain ⟨d, hd, hc⟩ := List.mem_flatMap.mp h
      rcases List.mem_cons.mp hc with hc | hc
      · exact Or.inl hc
      · rcases mem_walk hd with hd | hd
        · cases hd
        · exact Or.inr ((Py.mem_splitOn hd).2 c hc)

theorem blank_not_mem_normWord (h : ' ' ∉ w) : ' ' ∉ normWord w := by
  intro hmem
  rcases List.mem_append.mp hmem with hmem | hmem
  · exact h ((List.takeWhile_prefix _).subset hmem)
  · rcases mem_normPath hmem with hc | hc
    · exact absurd hc (by decide)
    · exact h ((List.dropWhile_suffix _).subset hc)

theorem normText_eq_iff :
    normText s = normText s' ↔ (s.splitOn ' ').map normWord = (s'.splitOn ' ').map normWord := by
  have hsplit : ∀ s : Str, (normText s).splitOn ' ' = (s.splitOn ' ').map normWord := by
    intro s
    refine List.splitOn_intercalate ' ' (fun l hl => ?_) ?_
    · obtain ⟨w, hw, rfl⟩ := List.mem_map.mp hl
      exact blank_not_mem_normWord (Py.mem_splitOn hw).1
    · rw [ne_eq, List.map_eq_nil_iff]
      exact List.splitOnP_ne_nil _ s
  constructor
  · intro h
    rw [← hsplit, ← hsplit, h]
  · intro h
    rw [normText, normText, h]

/-- Texts that agree up to the paths in them have the same blanks. -/
theorem blank_mem_of_normText_eq (h : normText s = normText s') (hs : ' ' ∉ s) : ' ' ∉ s' := by
  have hlen := congrArg List.length (normText_eq_iff.mp h)
  rw [List.length_map, List.length_map, Py.splitOn_of_not_mem hs] at hlen
  intro hmem
  obtain ⟨a, b, rfl⟩ := List.append_of_mem hmem
  rw [Py.splitOn_append_cons, List.length_append] at hlen
  have ha := List.length_pos_of_ne_nil (List.splitOnP_ne_nil (· == ' ') a)
  have hb := List.length_pos_of_ne_nil (List.splitOnP_ne_nil (· == ' ') b)
  rw [← List.splitOn] at ha hb
  rw [List.length_singleton] at hlen
  omega

theorem normWord_append {pre : Str} (hpre : '/' ∉ pre) (q : Str) :
    normWord (pre ++ '/' :: q) = pre ++ normPath ('/' :: q) := by
  have hall : ∀ c ∈ pre, (c != '/') = true := by
    intro c hc
    rw [bne_iff_ne]
    rintro rfl
    exact hpre hc
  rw [normWord, Cut.takeWhile_append_cons (by decide), Cut.dropWhile_append_cons (by decide),
    List.takeWhile_eq_self_iff.mpr hall, List.dropWhile_eq_nil_iff.mpr hall, List.nil_append]

theorem normText_of_not_mem (h : ' ' ∉ s) : normText s = normWord s := by
  rw [normText, Py.splitOn_of_not_mem h]
  exact List.intercalate_singleton

section WordTo

variable {p' r pre : Str} {dir dir' : List Str}

/-- A path in which there is no blank. -/
structure WordTo (p : Str) (dir : List Str) : Prop where
  leads : Leads p dir
  ne_nil : p ≠ []
  no_blank : ' ' ∉ p

theorem Leads.wordTo_below (h : Leads p dir) (hp : ' ' ∉ p) (hr : ' ' ∉ r) :
    WordTo (p ++ '/' :: r) (Paths.walk dir (r.splitOn '/')) where
  leads := h.below r
  ne_nil := by simp
  no_blank := by
    rw [List.mem_append, List.mem_cons, not_or, not_or]
    exact ⟨hp, by decide, hr⟩

theorem WordTo.below (h : WordTo p dir) (hr : ' ' ∉ r) :
    WordTo (p ++ '/' :: r) (walk dir (r.splitOn '/')) := h.leads.wordTo_below h.no_blank hr

/-- A path behind a text without slashes. -/
theorem WordTo.normText_append (h : WordTo p dir) (hpre : '/' ∉ pre ∧ ' ' ∉ pre) :
    normText (pre ++ p) = pre ++ absolute dir := by
  have hblank : ' ' ∉ pre ++ p := by
    rw [List.mem_append, not_or]
    exact ⟨hpre.2, h.no_blank⟩
  rw [normText_of_not_mem hblank]
  obtain ⟨q, hq⟩ := h.leads.exists_cons h.ne_nil
  rw [hq, normWord_append hpre.1, ← hq, h.leads.normPath_eq h.ne_nil]

theorem WordTo.normText_flag (h : WordTo p dir) (h' : WordTo p' dir) (hpre : '/' ∉ pre ∧ ' ' ∉ pre) :
    normText (pre ++ p) = normText (pre ++ p') := by
  rw [h.normText_append hpre, h'.normText_append hpre]

/-- Paths agree if they lead to the same place. -/
theorem WordTo.normText_eq_iff (h : WordTo p dir) (h' : WordTo p' dir') :
    normText p = normText p' ↔ dir = dir' := by
  have hnil : '/' ∉ ([] : Str) ∧ ' ' ∉ ([] : Str) := ⟨List.not_mem_nil, List.not_mem_nil⟩
  have hp : normText p = absolute dir := h.normText_append hnil
  have hp' : normText p' = absolute dir' := h'.normText_append hnil
  rw [hp, hp', absolute_inj h.leads.isName h'.leads.isName]

end WordTo

/-- Joined texts agree if their parts do. -/
theorem normText_join {xs ys : List Str} (h : List.Forall₂ (fun x y => normText x = normText y) xs ys) :
    normText (Py.join [' '] xs) = normText (Py.join [' '] ys) := by
  have hwords : (xs.flatMap (·.splitOn ' ')).map normWord = (ys.flatMap (·.splitOn ' ')).map normWord := by
    induction h with
    | nil => rfl
    | cons hx _ ih =>
      rw [List.flatMap_cons, List.flatMap_cons, List.map_append, List.map_append, ih,
        Paths.normText_eq_iff.mp hx]
  cases h with
  | nil => rfl
  | cons =>
    rw [Paths.normText_eq_iff, Py.splitOn_join (List.cons_ne_nil _ _),
      Py.splitOn_join (List.cons_ne_nil _ _), hwords]

end Words

end Paths
