import Wali.Py.Text

/-!
# Filling placeholders

A template is a text with placeholders `[[KEY]]`, and the values are put in one after the other, each
by a `str.replace` over the whole text. A later replacement also looks at the values that are already
there. When no value has two opening brackets next to each other and none ends in one, this does nothing: all placeholders are
filled at once, `fill_source`.
-/

namespace Py.Fill

/-- A template, cut at its placeholders. -/
inductive Piece where
  | text (s : Str)
  | slot (key : Str)
  deriving DecidableEq, Repr

def slotText (key : Str) : Str := "[[" ++ key ++ "]]"

def Piece.source : Piece → Str
  | .text s => s
  | .slot key => slotText key

def source (ps : List Piece) : Str := ps.flatMap Piece.source

/-- `template.replace('[[KEY]]', value)`, for one value after the other. -/
def fill (values : List (Str × Str)) (template : Str) : Str :=
  values.foldl (fun s e => replace s (slotText e.1) e.2) template

/-- What stands in the place of a piece when all placeholders are filled at once. One without a value
stays. -/
def Piece.filled (values : List (Str × Str)) : Piece → Str
  | .text s => s
  | .slot key => (values.lookup key).getD (slotText key)

/-- A text in which no placeholder begins, whatever comes after it. -/
structure Quiet (s : Str) : Prop where
  inside : ¬ ['[', '['] <:+: s
  last : s.getLast? ≠ some '['

/-- A key without brackets. -/
def IsKey (key : Str) : Prop := ∀ c ∈ key, c ≠ '[' ∧ c ≠ ']'

/-- The texts of a template are quiet and its keys are keys. -/
def Piece.Ok : Piece → Prop
  | .text s => Quiet s
  | .slot key => IsKey key

/-- One replacement. -/
def Piece.subst (key value : Str) : Piece → Piece
  | .text s => .text s
  | .slot k => if k = key then .text value else .slot k

section Quiet

variable {s : Str}

theorem quiet_of_not_mem (h : '[' ∉ s) : Quiet s where
  inside := fun hin => h (hin.subset List.mem_cons_self)
  last := fun hl => h (List.mem_of_getLast? hl)

theorem quiet_cons_of_not_mem (c : Char) (h : '[' ∉ s) (hne : s ≠ []) : Quiet (c :: s) where
  inside := by
    intro hin
    rcases List.infix_cons_iff.mp hin with ⟨t, ht⟩ | hin
    · obtain ⟨-, rfl⟩ := List.cons.inj ht
      exact h List.mem_cons_self
    · exact (quiet_of_not_mem h).inside hin
  last := by
    obtain ⟨d, s, rfl⟩ := List.exists_cons_of_ne_nil hne
    rw [List.getLast?_cons_cons]
    exact (quiet_of_not_mem h).last

theorem Quiet.tail {c : Char} (h : Quiet (c :: s)) : Quiet s where
  inside := fun hin => h.inside (hin.trans (List.suffix_cons c s).isInfix)
  last := by
    intro hl
    refine h.last ?_
    cases s with
    | nil => cases hl
    | cons d s => rwa [List.getLast?_cons_cons]

theorem Quiet.append {u v : Str} (hu : Quiet u) (hv : Quiet v) : Quiet (u ++ v) where
  inside := by
    induction u with
    | nil => exact hv.inside
    | cons c u ih =>
      intro hin
      rcases List.infix_cons_iff.mp hin with ⟨t, ht⟩ | hin
      · obtain ⟨rfl, hrest⟩ := List.cons.inj ht
        cases u with
        | nil => exact hu.last rfl
        | cons d u =>
          have hd : '[' = d := (List.cons.inj hrest).1
          rw [← hd] at hu
          exact hu.inside (List.prefix_append _ u).isInfix
      · exact ih hu.tail hin
  last := by
    rw [List.getLast?_append]
    cases hl : v.getLast? with
    | none => exact hu.last
    | some c => exact fun hc => hv.last (hl.trans hc)

theorem Quiet.join {sep : Str} (hsep : Quiet sep) {parts : List Str} (h : ∀ p ∈ parts, Quiet p) :
    Quiet (Py.join sep parts) :=
  Cut.intercalate_induction (quiet_of_not_mem List.not_mem_nil)
    (fun _ _ hu hv => (hu.append hsep).append hv) h

/-- No placeholder begins in a quiet text. -/
theorem Quiet.not_prefix {c : Char} (h : Quiet (c :: s)) (key rest : Str) :
    ¬ slotText key <+: c :: (s ++ rest) := by
  rintro ⟨t, ht⟩
  obtain ⟨rfl, htail⟩ := List.cons.inj ht
  cases s with
  | nil => exact h.last rfl
  | cons d s =>
    obtain ⟨rfl, -⟩ := List.cons.inj htail
    exact h.inside ⟨[], s, rfl⟩

theorem Quiet.replace_append (h : Quiet s) (key value rest : Str) :
    replace (s ++ rest) (slotText key) value = s ++ replace rest (slotText key) value := by
  induction s with
  | nil => rfl
  | cons c s ih => rw [List.cons_append, replace_cons_of_no_match (h.not_prefix key rest), ih h.tail]; rfl

end Quiet

theorem slotText_ne_nil (key : Str) : slotText key ≠ [] := List.cons_ne_nil _ _

/-- A placeholder does not begin inside another one. -/
theorem IsKey.replace_append {k : Str} (hk : IsKey k) {key : Str} (hkey : IsKey key) (hne : k ≠ key)
    (value rest : Str) :
    replace (slotText k ++ rest) (slotText key) value =
      slotText k ++ replace rest (slotText key) value := by
  have htake : ∀ {k : Str}, IsKey k → ∀ tail : Str, (k ++ ']' :: tail).takeWhile (· != ']') = k := by
    exact fun hk tail => Cut.takeWhile_bne_append_cons (fun hc => (hk ']' hc).2 rfl) tail
  -- at its beginning there would have to be the same key,
  have hstart : ¬ slotText key <+: slotText k ++ rest := by
    rintro ⟨t, ht⟩
    have hkeys : key ++ ']' :: (']' :: t) = k ++ ']' :: (']' :: rest) := by
      simpa [slotText] using ht
    have heq := congrArg (List.takeWhile (· != ']')) hkeys
    rw [htake hkey, htake hk] at heq
    exact hne heq.symm
  -- and further on there is no second bracket
  have hrest : Quiet ('[' :: (k ++ "]]")) := by
    refine quiet_cons_of_not_mem '[' ?_ (by simp)
    rw [List.mem_append]
    rintro (h | h)
    · exact (hk _ h).1 rfl
    · revert h
      decide
  have hsplit : slotText k ++ rest = '[' :: (('[' :: (k ++ "]]")) ++ rest) := by
    simp [slotText]
  rw [hsplit, replace_cons_of_no_match (by rwa [← hsplit]), hrest.replace_append]
  simp [slotText]

theorem source_cons (p : Piece) (ps : List Piece) : source (p :: ps) = p.source ++ source ps := List.flatMap_cons

theorem replace_source {ps : List Piece} (hps : ∀ p ∈ ps, p.Ok) {key : Str} (hkey : IsKey key) (value : Str) :
    replace (source ps) (slotText key) value = source (ps.map (Piece.subst key value)) := by
  induction ps with
  | nil => rfl
  | cons p ps ih =>
    obtain ⟨hp, hps⟩ := List.forall_mem_cons.mp hps
    rw [List.map_cons, source_cons, source_cons, ← ih hps]
    cases p with
    | text s => exact Quiet.replace_append hp key value _
    | slot k =>
      by_cases hk : k = key
      · subst hk
        rw [Piece.subst, if_pos rfl]
        exact replace_append_self (slotText_ne_nil k) _
      · rw [Piece.subst, if_neg hk]
        exact IsKey.replace_append hp hkey hk value _

theorem Piece.Ok.subst {p : Piece} (hp : p.Ok) (key : Str) {value : Str} (hvalue : Quiet value) :
    (p.subst key value).Ok := by
  cases p with
  | text s => exact hp
  | slot k =>
    rw [Piece.subst]
    split
    · exact hvalue
    · exact hp

theorem filled_subst (p : Piece) (key value : Str) (values : List (Str × Str)) :
    (p.subst key value).filled values = p.filled ((key, value) :: values) := by
  cases p with
  | text s => rfl
  | slot k =>
    by_cases hk : k = key
    · subst hk
      simp [Piece.subst, Piece.filled]
    · have hbeq : (k == key) = false := beq_eq_false_iff_ne.mpr hk
      simp [Piece.subst, Piece.filled, hk, List.lookup_cons, hbeq]

/-- **All placeholders at once**: one replacement after the other leaves every value as it is. -/
theorem fill_source {ps : List Piece} (hps : ∀ p ∈ ps, p.Ok) {values : List (Str × Str)}
    (hvalues : ∀ e ∈ values, IsKey e.1 ∧ Quiet e.2) :
    fill values (source ps) = ps.flatMap (Piece.filled values) := by
  induction values generalizing ps with
  | nil =>
    refine List.flatMap_congr fun p _ => ?_
    cases p <;> rfl
  | cons e values ih =>
    obtain ⟨⟨hkey, hquiet⟩, hvalues⟩ := List.forall_mem_cons.mp hvalues
    have hps' : ∀ p ∈ ps.map (Piece.subst e.1 e.2), p.Ok := by
      intro q hq
      obtain ⟨p, hp, rfl⟩ := List.mem_map.mp hq
      exact (hps p hp).subst e.1 hquiet
    rw [fill, List.foldl_cons, replace_source hps hkey, ← fill, ih hps' hvalues, List.flatMap_map]
    exact List.flatMap_congr fun p _ => filled_subst p e.1 e.2 values

end Py.Fill
