import Mathlib.Data.Fintype.Card
import Mathlib.Data.Fintype.EquivFin
import Mathlib.Data.Fintype.Sets
import Mathlib.Logic.Relation
import Mathlib.Order.WellFounded

/-!
# Chasing a partial successor

A table in which an entry may refer to another entry is read by chasing: from
a state one moves to its successor until there is none. A recursion that does
one thing at the end of the chase and one thing at every move is a `fold`. It
is given a budget of moves here; `fold_unfold` says that a budget no stopping
chase exceeds turns the fold into a solution of the unbounded recursion
equation, where the value for a chase that never stops is `out`.
-/

namespace Chase

variable {σ β : Type*} (next : σ → Option σ)

/-- The chase from a state stops. -/
inductive Stops : σ → Prop
  | here {s : σ} (h : next s = none) : Stops s
  | move {s t : σ} (h : next s = some t) (ht : Stops t) : Stops s

/-- The chase from a state stops after exactly `n` moves. -/
def StopsIn : ℕ → σ → Prop
  | 0, s => next s = none
  | n + 1, s => ∃ t, next s = some t ∧ StopsIn n t

/-- The fold of a chase with a budget of states it may look at. -/
def fold (stop : σ → β) (more : σ → β → β) (out : β) : ℕ → σ → β
  | 0, _ => out
  | n + 1, s =>
    match next s with
    | none => stop s
    | some t => more s (fold stop more out n t)

/-- Every chase that stops looks at no more states than the budget of its start. -/
def Adequate (budget : σ → ℕ) : Prop := ∀ s n, StopsIn next n s → n < budget s

variable {next}

theorem stops_iff {s : σ} : Stops next s ↔ ∃ n, StopsIn next n s := by
  constructor
  · intro h
    induction h with
    | here h => exact ⟨0, h⟩
    | move h _ ih =>
      obtain ⟨n, hn⟩ := ih
      exact ⟨n + 1, _, h, hn⟩
  · rintro ⟨n, hn⟩
    induction n generalizing s with
    | zero => exact .here hn
    | succ n ih =>
      obtain ⟨t, ht, hn⟩ := hn
      exact .move ht (ih hn)

theorem StopsIn.unique {s : σ} {m n : ℕ} (hm : StopsIn next m s) (hn : StopsIn next n s) :
    m = n := by
  induction m generalizing n s with
  | zero =>
    cases n with
    | zero => rfl
    | succ n =>
      obtain ⟨t, ht, _⟩ := hn
      rw [show next s = none from hm] at ht
      cases ht
  | succ m ih =>
    obtain ⟨t, ht, hm⟩ := hm
    cases n with
    | zero =>
      rw [show next s = none from hn] at ht
      cases ht
    | succ n =>
      obtain ⟨u, hu, hn⟩ := hn
      rw [ht, Option.some.injEq] at hu
      subst u
      rw [ih hm hn]

/-- A stopping chase passes, inside any closed set, through a state at every
distance from its end. -/
theorem StopsIn.exists_at {S : Finset σ} (hS : ∀ s ∈ S, ∀ t, next s = some t → t ∈ S)
    {n k : ℕ} {s : σ} (hs : s ∈ S) (h : StopsIn next n s) (hk : k ≤ n) :
    ∃ t ∈ S, StopsIn next k t := by
  induction n generalizing s with
  | zero =>
    have : k = 0 := by omega
    subst this
    exact ⟨s, hs, h⟩
  | succ n ih =>
    by_cases he : k = n + 1
    · subst he
      exact ⟨s, hs, h⟩
    · obtain ⟨t, ht, hn⟩ := h
      exact ih (hS s hs t ht) hn (by omega)

/-- **Pigeonhole**: a chase that stops and stays in a finite set makes fewer moves than the set
has elements, since the distance to the end tells its states apart. -/
theorem StopsIn.lt_card {S : Finset σ} (hS : ∀ s ∈ S, ∀ t, next s = some t → t ∈ S)
    {n : ℕ} {s : σ} (hs : s ∈ S) (h : StopsIn next n s) : n < S.card := by
  choose f hfS hf using fun k : Fin (n + 1) => h.exists_at hS hs (Nat.le_of_lt_succ k.isLt)
  have hinj : Function.Injective f := fun i j hij =>
    Fin.ext ((hf i).unique (hij ▸ hf j))
  have hcard := Finset.card_le_card_of_injOn f (s := Finset.univ) (fun k _ => hfS k) hinj.injOn
  rw [Finset.card_univ, Fintype.card_fin] at hcard
  omega

/-- On finitely many states a relation without cycles is well founded. -/
theorem wellFounded_of_acyclic {r : σ → σ → Prop} {p : σ → Prop} [Finite {s // p s}]
    (h : ∀ s, p s → ¬ Relation.TransGen r s s) :
    WellFounded fun a b : {s // p s} => r b.1 a.1 := by
  let below : {s // p s} → {s // p s} → Prop := fun a b => Relation.TransGen r b.1 a.1
  have : IsTrans _ below := ⟨fun _ _ _ hab hbc => hbc.trans hab⟩
  have : Std.Irrefl below := ⟨fun a ha => h a.1 a.2 ha⟩
  exact Subrelation.wf (r := below) (fun hr => .single hr) (Finite.wellFounded_of_trans_of_irrefl below)

/-- A chase that stays in a finite set stops if it never comes back to a state. -/
theorem stops_of_acyclic {S : Finset σ} (hS : ∀ s ∈ S, ∀ t, next s = some t → t ∈ S)
    (h : ∀ s ∈ S, ¬ Relation.TransGen (fun a b => next a = some b) s s) {s : σ} (hs : s ∈ S) :
    Stops next s := by
  have hwf := wellFounded_of_acyclic h
  suffices key : ∀ a : S, Stops next a.1 from key ⟨s, hs⟩
  intro a
  induction a using hwf.induction with
  | _ a ih =>
    cases hn : next a.1 with
    | none => exact .here hn
    | some t => exact .move hn (ih ⟨t, hS a.1 a.2 t hn⟩ hn)

/-- A chase that makes only moves of one that stops, stops. -/
theorem Stops.mono {next' : σ → Option σ} (h : ∀ s t, next' s = some t → next s = some t) {s : σ}
    (hs : Stops next s) : Stops next' s := by
  induction hs with
  | @here s hn =>
    cases hn' : next' s with
    | none => exact .here hn'
    | some t => exact absurd (hn.symm.trans (h s t hn')) (by simp)
  | @move s t hn _ ih =>
    cases hn' : next' s with
    | none => exact .here hn'
    | some t' =>
      obtain rfl := Option.some.inj (hn.symm.trans (h s t' hn'))
      exact .move hn' ih

section Fold

variable (stop : σ → β) (more : σ → β → β) (out : β)

theorem fold_of_stopsIn {n k : ℕ} {s : σ} (h : StopsIn next k s) (hk : k < n) :
    fold next stop more out n s = fold next stop more out (k + 1) s := by
  induction n generalizing k s with
  | zero => omega
  | succ n ih =>
    cases k with
    | zero => simp only [fold, show next s = none from h]
    | succ k =>
      obtain ⟨t, ht, hk'⟩ := h
      rw [fold, fold]
      simp only [ht]
      rw [ih hk' (by omega)]

theorem exists_next_of_not_stops {s : σ} (h : ¬ Stops next s) :
    ∃ t, next s = some t ∧ ¬ Stops next t := by
  cases hs : next s with
  | none => exact absurd (.here hs) h
  | some t => exact ⟨t, rfl, fun ht => h (.move hs ht)⟩

theorem fold_of_not_stops (hout : ∀ s, more s out = out) {n : ℕ} {s : σ} (h : ¬ Stops next s) :
    fold next stop more out n s = out := by
  induction n generalizing s with
  | zero => rfl
  | succ n ih =>
    obtain ⟨t, hs, ht⟩ := exists_next_of_not_stops h
    simp only [fold, hs, ih ht, hout]

theorem stops_of_fold_eq (hout : ∀ s, more s out = out) {n : ℕ} {s : σ} {b : β}
    (h : fold next stop more out n s = b) (hb : b ≠ out) : Stops next s := by
  by_contra hs
  exact hb (h.symm.trans (fold_of_not_stops stop more out hout hs))

/-- A chase that stops within the budget does not come out as one that does not. -/
theorem fold_ne_out (hstop : ∀ s, stop s ≠ out) (hmore : ∀ s b, b ≠ out → more s b ≠ out)
    {n k : ℕ} {s : σ} (h : StopsIn next k s) (hk : k < n) : fold next stop more out n s ≠ out := by
  induction n generalizing k s with
  | zero => omega
  | succ n ih =>
    cases k with
    | zero => simpa only [fold, show next s = none from h] using hstop s
    | succ k =>
      obtain ⟨t, ht, hk'⟩ := h
      simpa only [fold, ht] using hmore s _ (ih hk' (by omega))

/-- With an adequate budget the fold solves the recursion equation of the chase. -/
theorem fold_unfold {budget : σ → ℕ} (hb : Adequate next budget) (hout : ∀ s, more s out = out)
    (s : σ) : fold next stop more out (budget s) s =
      match next s with
      | none => stop s
      | some t => more s (fold next stop more out (budget t) t) := by
  by_cases h : Stops next s
  · obtain ⟨n, hn⟩ := stops_iff.mp h
    rw [fold_of_stopsIn stop more out hn (hb s n hn), fold]
    cases n with
    | zero => simp only [show next s = none from hn]
    | succ n =>
      obtain ⟨t, ht, hn⟩ := hn
      simp only [ht]
      rw [fold_of_stopsIn stop more out hn (hb t n hn)]
  · rw [fold_of_not_stops stop more out hout h]
    obtain ⟨t, hs, ht⟩ := exists_next_of_not_stops h
    simp only [hs, fold_of_not_stops stop more out hout ht, hout]

end Fold

end Chase
