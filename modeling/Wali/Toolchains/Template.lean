import Wali.Py.Text

/-!
# Variable definitions

A right-hand side is a text in which variables occur. Make takes the rest of the line, Bash a word
or a quoted text, CMake a quoted text or words that it joins by semicolons, Fish a list of words.
A blank ends a word. Every other character here stands for itself.

Definitions in which no variable is changed after its use are equations: `run_eq_eval`.
-/

namespace Wali.Toolchains

open Py (Str)

inductive Sym (V : Type) where
  | chr (c : Char)
  | ref (v : V)

abbrev Template (V : Type) := List (Sym V)

structure Assignment (V : Type) where
  var : V
  /-- In double quotes, where the language has them. -/
  quoted : Bool
  rhs : Template V

section Languages

variable {V : Type}

def text (s : Str) : Template V := s.map .chr

/-- A variable with a text in front of it and one behind. -/
def around (pre : Str) (v : V) (post : Str) : Template V := text pre ++ .ref v :: text post

/-- `sh_join`. -/
def shJoin (xs : List (Template V)) : Template V := [Sym.chr ' '].intercalate xs

def Sym.value (env : V → Str) : Sym V → Str
  | .chr c => [c]
  | .ref v => env v

def expand (env : V → Str) (t : Template V) : Str := t.flatMap (Sym.value env)

def Sym.isBlank : Sym V → Bool
  | .chr c => c == ' '
  | .ref _ => false

def firstWord (t : Template V) : Template V := t.takeWhile fun x => !x.isBlank

def words (t : Template V) : List (Template V) :=
  (t.splitOnP Sym.isBlank).filter fun w => !w.isEmpty

/-- The words of a text. -/
def textWords (s : Str) : List Str := (s.splitOn ' ').filter fun w => !w.isEmpty

/-- A word in which a variable may be a list: one word for each choice. -/
def expandWord (env : V → List Str) : Template V → List Str
  | [] => [[]]
  | .chr c :: t => (expandWord env t).map (c :: ·)
  | .ref v :: t => (env v).flatMap fun x => (expandWord env t).map (x ++ ·)

def expandWords (env : V → List Str) (t : Template V) : List Str := (words t).flatMap (expandWord env)

def evalMake (env : V → Str) (a : Assignment V) : Str := expand env a.rhs

def evalBash (env : V → Str) (a : Assignment V) : Str :=
  expand env (if a.quoted then a.rhs else firstWord a.rhs)

def evalFish (env : V → List Str) (a : Assignment V) : List Str := expandWords env a.rhs

def evalCmake (env : V → Str) (a : Assignment V) : Str :=
  if a.quoted then expand env a.rhs else Py.join ";" ((words a.rhs).map (expand env))

/-- One definition after the other. -/
def run {β : Type} [DecidableEq V] (eval : (V → β) → Assignment V → β) (env : V → β)
    (as : List (Assignment V)) : V → β :=
  as.foldl (fun env a => Function.update env a.var (eval env a)) env

-- ════════════════════════════════════════════════════════════════════════
-- Texts
-- ════════════════════════════════════════════════════════════════════════

theorem expand_append (env : V → Str) (t t' : Template V) :
    expand env (t ++ t') = expand env t ++ expand env t' := List.flatMap_append

theorem expand_text (env : V → Str) (s : Str) : expand env (text s) = s := by
  rw [expand, text, List.flatMap_map]
  exact List.flatMap_singleton' s

theorem map_expand_text (env : V → Str) (xs : List Str) : (xs.map text).map (expand env) = xs := by
  rw [List.map_map]
  exact (List.map_congr_left fun s _ => expand_text env s).trans (List.map_id xs)

theorem expand_ref (env : V → Str) (v : V) : expand env [.ref v] = env v := List.append_nil _

theorem expand_around (env : V → Str) (pre : Str) (v : V) (post : Str) :
    expand env (around pre v post) = pre ++ env v ++ post := by
  rw [around, expand_append, expand_text, List.append_assoc]
  change pre ++ (env v ++ expand env (text post)) = _
  rw [expand_text]

theorem shJoin_cons_cons (x y : Template V) (ys : List (Template V)) :
    shJoin (x :: y :: ys) = x ++ .chr ' ' :: shJoin (y :: ys) := by
  rw [shJoin, List.intercalate_cons_cons, List.append_assoc, List.singleton_append, shJoin]

theorem expand_shJoin (env : V → Str) (xs : List (Template V)) :
    expand env (shJoin xs) = Py.join [' '] (xs.map (expand env)) := by
  induction xs with
  | nil => rfl
  | cons x xs ih =>
    cases xs with
    | nil => simp [shJoin, Py.join]
    | cons y ys =>
      rw [shJoin_cons_cons, List.map_cons, List.map_cons, Py.join_cons_cons, ← List.map_cons, ← ih,
        expand_append, List.append_assoc]
      rfl

theorem firstWord_around {pre : Str} (h : ' ' ∉ pre) (v : V) (post : Str) :
    firstWord (around pre v post) = around pre v (post.takeWhile (· != ' ')) := by
  have htext : ∀ s : Str, (text s : Template V).takeWhile (fun x => !x.isBlank) =
      text (s.takeWhile (· != ' ')) := fun s => List.takeWhile_map ..
  have hpre : ∀ x ∈ (text pre : Template V), (!x.isBlank) = true := by
    intro x hx
    obtain ⟨c, hc, rfl⟩ := List.mem_map.mp hx
    exact bne_iff_ne.mpr fun he => h (he ▸ hc)
  rw [firstWord, around, List.takeWhile_append_of_pos hpre, List.takeWhile_cons_of_pos rfl, htext, around]

-- ════════════════════════════════════════════════════════════════════════
-- Words
-- ════════════════════════════════════════════════════════════════════════

theorem words_shJoin (xs : List (Template V)) : words (shJoin xs) = xs.flatMap words := by
  induction xs with
  | nil => rfl
  | cons x xs ih =>
    cases xs with
    | nil => simp [shJoin]
    | cons y ys =>
      rw [shJoin_cons_cons, words, List.splitOnP_append_cons _ _ rfl, List.filter_append,
        List.flatMap_cons, ← ih, words, words]

theorem splitOnP_text (s : Str) :
    (text s : Template V).splitOnP Sym.isBlank = (s.splitOn ' ').map text := by
  induction s with
  | nil => rfl
  | cons c s ih =>
    obtain ⟨l, ls, hl⟩ := List.exists_cons_of_ne_nil (List.splitOnP_ne_nil (· == ' ') s)
    have hcons : (text (c :: s) : Template V) = .chr c :: text s := rfl
    rw [List.splitOn, hl] at ih
    rw [hcons, List.splitOnP_cons_eq_if_modifyHead, ih, List.splitOn,
      List.splitOnP_cons_eq_if_modifyHead, hl]
    change (if (c == ' ') = true then _ else _) = _
    split
    · rfl
    · rfl

theorem words_of_no_blank {t : Template V} (hne : t ≠ []) (h : ∀ x ∈ t, x.isBlank = false) :
    words t = [t] := by
  rw [words, List.splitOnP_eq_singleton h, List.filter_cons_of_pos]
  · rfl
  · simpa using hne

theorem words_around {pre post : Str} (hpre : ' ' ∉ pre) (hpost : ' ' ∉ post) (v : V) :
    words (around pre v post) = [around pre v post] := by
  have htext : ∀ {s : Str}, ' ' ∉ s → ∀ x ∈ (text s : Template V), x.isBlank = false := by
    intro s hs x hx
    obtain ⟨c, hc, rfl⟩ := List.mem_map.mp hx
    exact beq_eq_false_iff_ne.mpr fun he => hs (he ▸ hc)
  refine words_of_no_blank (by simp [around]) fun x hx => ?_
  rcases List.mem_append.mp hx with hx | hx
  · exact htext hpre x hx
  · rcases List.mem_cons.mp hx with rfl | hx
    · rfl
    · exact htext hpost x hx

theorem textWords_of_word {s : Str} (hne : s ≠ []) (h : ' ' ∉ s) : textWords s = [s] := by
  rw [textWords, Py.splitOn_of_not_mem h, List.filter_cons_of_pos]
  · rfl
  · simpa using hne

theorem textWords_join {xs : List Str} (hne : xs ≠ []) :
    textWords (Py.join [' '] xs) = xs.flatMap textWords := by
  rw [textWords, Py.splitOn_join hne, List.filter_flatMap]
  rfl

section Lists

variable (env : V → List Str)

theorem expandWord_text_append (s : Str) (t : Template V) :
    expandWord env (text s ++ t) = (expandWord env t).map (s ++ ·) := by
  induction s with
  | nil => exact (List.map_id' _).symm
  | cons c s ih =>
    change (expandWord env (text s ++ t)).map (c :: ·) = _
    rw [ih, List.map_map]
    rfl

theorem expandWord_text (s : Str) : expandWord env (text s) = [s] := by
  have h := expandWord_text_append env s []
  rw [List.append_nil] at h
  rw [h]
  exact congrArg ([·]) (List.append_nil s)

theorem expandWords_shJoin (xs : List (Template V)) :
    expandWords env (shJoin xs) = xs.flatMap (expandWords env) := by
  rw [expandWords, words_shJoin, List.flatMap_assoc]
  rfl

theorem expandWords_text (s : Str) : expandWords env (text s) = textWords s := by
  have hfilter : ∀ l : List Str, (l.map text).filter (fun w : Template V => !w.isEmpty) =
      (l.filter fun w => !w.isEmpty).map text := by
    intro l
    rw [List.filter_map]
    refine congrArg (List.map text) (List.filter_congr fun w _ => ?_)
    cases w with
    | nil => rfl
    | cons c w => rfl
  rw [expandWords, words, splitOnP_text, hfilter, List.flatMap_map]
  simp only [expandWord_text]
  exact List.flatMap_singleton' _

theorem expandWords_ref (v : V) : expandWords env [.ref v] = env v := by
  have hwords : words [Sym.ref v] = [[Sym.ref v]] := words_of_no_blank (by simp) (by simp [Sym.isBlank])
  rw [expandWords, hwords, List.flatMap_singleton, expandWord]
  simp [expandWord]

variable {env}

/-- A variable that is one word, inside a word. -/
theorem expandWords_around {pre post x : Str} {v : V} (hpre : ' ' ∉ pre) (hpost : ' ' ∉ post)
    (h : env v = [x]) : expandWords env (around pre v post) = [pre ++ x ++ post] := by
  have htail : expandWord env (.ref v :: text post) = [x ++ post] := by
    rw [expandWord, h, expandWord_text]
    rfl
  rw [expandWords, words_around hpre hpost, List.flatMap_singleton, around, expandWord_text_append,
    htail, List.map_singleton, List.append_assoc]

/-- A list of words, as far as a language without lists can tell. -/
theorem expandWords_shJoin_eq {env' : V → Str} {xs : List (Template V)} (hne : xs ≠ [])
    (h : ∀ x ∈ xs, expandWords env x = textWords (expand env' x)) :
    expandWords env (shJoin xs) = textWords (expand env' (shJoin xs)) := by
  have hmap : xs.map (expand env') ≠ [] := by
    rwa [ne_eq, List.map_eq_nil_iff]
  rw [expandWords_shJoin, expand_shJoin, textWords_join hmap, List.flatMap_map]
  exact List.flatMap_congr h

end Lists

end Languages

-- ════════════════════════════════════════════════════════════════════════
-- Equations
-- ════════════════════════════════════════════════════════════════════════

section Run

variable {V β : Type}

/-- The variables in a text. -/
def refs (t : Template V) : List V := t.filterMap fun
  | .chr _ => none
  | .ref v => some v

/-- No variable is changed after it was used. -/
def Ordered (as : List (Assignment V)) : Prop :=
  as.Pairwise (fun a b => b.var ≠ a.var ∧ b.var ∉ refs a.rhs) ∧ ∀ a ∈ as, a.var ∉ refs a.rhs

/-- What is assigned depends on the variables in the right-hand side. -/
def Local (eval : (V → β) → Assignment V → β) : Prop :=
  ∀ env env' a, (∀ v ∈ refs a.rhs, env v = env' v) → eval env a = eval env' a

theorem mem_refs {t : Template V} {v : V} : v ∈ refs t ↔ .ref v ∈ t := by
  rw [refs, List.mem_filterMap]
  constructor
  · rintro ⟨x, hx, he⟩
    cases x with
    | chr c => cases he
    | ref u => exact Option.some.inj he ▸ hx
  · exact fun h => ⟨.ref v, h, rfl⟩

theorem expand_congr {env env' : V → Str} {t : Template V} (h : ∀ v ∈ refs t, env v = env' v) :
    expand env t = expand env' t := by
  refine List.flatMap_congr fun x hx => ?_
  cases x with
  | chr c => rfl
  | ref v => exact h v (mem_refs.mpr hx)

theorem expandWord_congr {env env' : V → List Str} {t : Template V} (h : ∀ v ∈ refs t, env v = env' v) :
    expandWord env t = expandWord env' t := by
  induction t with
  | nil => rfl
  | cons x t ih =>
    have htail := ih fun v hv => h v (mem_refs.mpr (List.mem_cons_of_mem x (mem_refs.mp hv)))
    cases x with
    | chr c => rw [expandWord, expandWord, htail]
    | ref v => rw [expandWord, expandWord, htail, h v (mem_refs.mpr List.mem_cons_self)]

/-- A word has no other variables than the text. -/
theorem refs_of_mem_words {t w : Template V} (hw : w ∈ words t) {v : V} (hv : v ∈ refs w) : v ∈ refs t :=
  mem_refs.mpr (Py.mem_splitOnP (List.mem_of_mem_filter hw) _ (mem_refs.mp hv)).2

theorem local_evalMake : Local (evalMake (V := V)) := fun _ _ _ h => expand_congr h

theorem local_evalBash : Local (evalBash (V := V)) := by
  intro env env' a h
  rw [evalBash, evalBash]
  split
  · exact expand_congr h
  · refine expand_congr fun v hv => h v (mem_refs.mpr ?_)
    exact (List.takeWhile_prefix _).subset (mem_refs.mp hv)

theorem local_evalFish : Local (evalFish (V := V)) := fun _ _ _ h =>
  List.flatMap_congr fun _ hw => expandWord_congr fun v hv => h v (refs_of_mem_words hw hv)

theorem local_evalCmake : Local (evalCmake (V := V)) := by
  intro env env' a h
  rw [evalCmake, evalCmake]
  split
  · exact expand_congr h
  · refine congrArg (Py.join _) (List.map_congr_left fun w hw => ?_)
    exact expand_congr fun v hv => h v (refs_of_mem_words hw hv)

variable [DecidableEq V] {eval : (V → β) → Assignment V → β} {as : List (Assignment V)}

theorem run_of_not_mem {v : V} (h : ∀ a ∈ as, a.var ≠ v) (env : V → β) : run eval env as v = env v := by
  induction as generalizing env with
  | nil => rfl
  | cons a as ih =>
    rw [List.forall_mem_cons] at h
    change run eval (Function.update env a.var (eval env a)) as v = _
    rw [ih h.2, Function.update_of_ne h.1.symm]

/-- In the end, every definition holds. -/
theorem run_eq_eval (hl : Local eval) (ho : Ordered as) {a : Assignment V} (ha : a ∈ as) (env : V → β) :
    run eval env as a.var = eval (run eval env as) a := by
  induction as generalizing env with
  | nil => cases ha
  | cons b bs ih =>
    obtain ⟨hpair, hself⟩ := ho
    rw [List.pairwise_cons] at hpair
    rw [List.forall_mem_cons] at hself
    change run eval (Function.update env b.var (eval env b)) bs a.var = eval (run eval _ bs) a
    rcases List.mem_cons.mp ha with rfl | ha
    · -- neither the variable nor what it depends on changes from here on
      rw [run_of_not_mem fun c hc => (hpair.1 c hc).1, Function.update_self]
      refine hl _ _ a fun v hv => ?_
      have hne : v ≠ a.var := fun he => hself.1 (he ▸ hv)
      have hlater : ∀ c ∈ bs, c.var ≠ v := fun c hc he => (hpair.1 c hc).2 (he ▸ hv)
      rw [run_of_not_mem hlater]
      exact (Function.update_of_ne hne _ _).symm
    · exact ih ⟨hpair.2, hself.2⟩ ha _

end Run

end Wali.Toolchains
