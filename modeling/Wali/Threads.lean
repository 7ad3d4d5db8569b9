import Mathlib.Algebra.BigOperators.Pi
import Mathlib.Algebra.Order.BigOperators.Group.Finset
import Mathlib.Data.Fintype.BigOperators
import Mathlib.Data.List.Induction

/-!
# Threads and their runs

A run of a system of threads is a list of events, each of which is a step that may be impossible.
What holds of a run is proved by induction on its last event. Semaphores are conserved: their value
goes with how many threads are at which place, which is counted here.
-/

namespace Wali.Threads

-- ════════════════════════════════════════════════════════════════════════
-- Runs
-- ════════════════════════════════════════════════════════════════════════

section Runs

variable {σ ε : Type*} {step : σ → ε → Option σ} {s s' t : σ} {e : ε} {es es' : List ε}

/-- The state after a run, if all its steps are possible. -/
def run (step : σ → ε → Option σ) : List ε → σ → Option σ
  | [], s => some s
  | e :: es, s => (step s e).bind (run step es)

theorem run_append : run step (es ++ es') s = (run step es s).bind (run step es') := by
  induction es generalizing s with
  | nil => rfl
  | cons e es ih =>
    rw [List.cons_append, run, run, Option.bind_assoc]
    exact Option.bind_congr fun t _ => ih

theorem run_append_of_eq (h : run step es s = some s') (h' : run step es' s' = some t) :
    run step (es ++ es') s = some t := by
  rw [run_append, h]
  exact h'

theorem run_singleton : run step [e] s = step s e := by
  rw [run]
  exact Option.bind_fun_some _

/-- **Invariants of runs**: what holds at first and after each step holds after every run. -/
theorem run_invariant {P : List ε → σ → Prop} (h0 : P [] s)
    (hstep : ∀ {es u e u'}, P es u → step u e = some u' → P (es ++ [e]) u')
    (h : run step es s = some t) : P es t := by
  induction es using List.reverseRecOn generalizing t with
  | nil => exact Option.some.inj h ▸ h0
  | append_singleton es e ih =>
    rw [run_append] at h
    obtain ⟨u, hu, h⟩ := Option.bind_eq_some_iff.mp h
    rw [run_singleton] at h
    exact hstep (ih hu) h

/-- Some run leads to a state with `P`. -/
def CanReach (step : σ → ε → Option σ) (P : σ → Prop) (s : σ) : Prop :=
  ∃ es t, run step es s = some t ∧ P t

variable {P P' : σ → Prop}

theorem CanReach.here (h : P s) : CanReach step P s := ⟨[], s, rfl, h⟩

theorem CanReach.of_step (e : ε) (hstep : step s e = some s') (h : CanReach step P s') :
    CanReach step P s := by
  obtain ⟨es, t, hrun, ht⟩ := h
  exact ⟨[e] ++ es, t, run_append_of_eq (run_singleton.trans hstep) hrun, ht⟩

/-- The states on the way are reached by runs from where the run before began. -/
theorem CanReach.trans (h : CanReach step P s)
    (h' : ∀ {es t}, run step es s = some t → P t → CanReach step P' t) : CanReach step P' s := by
  obtain ⟨es, t, hrun, ht⟩ := h
  obtain ⟨es', u, hrun', hu⟩ := h' hrun ht
  exact ⟨es ++ es', u, run_append_of_eq hrun hrun', hu⟩

end Runs

-- ════════════════════════════════════════════════════════════════════════
-- Counting
-- ════════════════════════════════════════════════════════════════════════

section Count

variable {n : ℕ} {α : Type*} {p : α → Bool} {places : Fin n → α} {i j : Fin n}

/-- How many threads are at a place with `p`. -/
def count (p : α → Bool) (places : Fin n → α) : ℕ := ∑ i, (p (places i)).toNat

theorem count_const (p : α → Bool) {x : α} (h : p x = false) : count p (fun _ : Fin n => x) = 0 := by
  simp [count, h]

/-- A thread that moves leaves the place it was at. -/
theorem count_update (p : α → Bool) (places : Fin n → α) (i : Fin n) (x : α) :
    count p (Function.update places i x) + (p (places i)).toNat = count p places + (p x).toNat := by
  have hcomp : (fun j => (p (Function.update places i x j)).toNat) =
      Function.update (fun j => (p (places j)).toNat) i (p x).toNat :=
    Function.comp_update (fun y => (p y).toNat) places i x
  rw [count, hcomp, Finset.sum_update_of_mem (Finset.mem_univ i), count,
    Finset.sum_eq_add_sum_sdiff_singleton_of_mem (Finset.mem_univ i) fun j => (p (places j)).toNat]
  omega

theorem count_le_count {p' : α → Bool} (h : ∀ x, p x = true → p' x = true) :
    count p places ≤ count p' places := by
  refine Finset.sum_le_sum fun i _ => ?_
  cases hp : p (places i) with
  | false => exact Nat.zero_le _
  | true => rw [h _ hp]

theorem count_pos (h : p (places i) = true) : 0 < count p places := by
  refine lt_of_lt_of_le ?_ (Finset.single_le_sum (fun j _ => Nat.zero_le _) (Finset.mem_univ i))
  simp [h]

/-- Where at most one thread is, two threads are the same. -/
theorem eq_of_count_le_one (h : count p places ≤ 1) (hi : p (places i) = true) (hj : p (places j) = true) :
    i = j := by
  by_contra hne
  have hpair : ∑ l ∈ ({i, j} : Finset (Fin n)), (p (places l)).toNat ≤ count p places :=
    Finset.sum_le_univ_sum_of_nonneg fun _ => Nat.zero_le _
  rw [Finset.sum_pair hne, hi, hj] at hpair
  change 2 ≤ _ at hpair
  omega

end Count

end Wali.Threads
