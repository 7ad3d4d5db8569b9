import Mathlib.Data.List.FinRange
import Mathlib.Logic.Relation
import Wali.Threads

/-!
# Delivery tokens of the MQTT benchmark

The publishers of `mqtt.c` and the callback of the MQTT library share one variable,
`deliveredtoken`, and one semaphore. A publisher resets the variable, publishes a message, waits
until the variable has its token and posts the semaphore; the callback waits for the semaphore
and stores the token it is called with. The library calls back once for every token.
-/

namespace Wali.Mqtt

/-- `MQTTClient_deliveryToken`. -/
abbrev Token := ℤ

/-- Where a publisher is in its loop. -/
inductive Publisher where
  /-- Before `deliveredtoken = 0`. -/
  | head
  /-- Before `MQTTClient_publishMessage`. -/
  | ready
  /-- In `while (deliveredtoken != token)`. -/
  | waiting (token : Token)
  /-- Before `sem_post`. -/
  | posting
  /-- Before `sem_trywait(&stop_publish)`. -/
  | posted
  | stopped
  deriving DecidableEq, Repr

structure State (n : ℕ) where
  publisher : Fin n → Publisher
  deliveredtoken : Token
  /-- `qos1_pubmutex`. -/
  pubmutex : ℕ
  /-- The tokens the callback has still to be called with, or is waiting with. -/
  inFlight : List Token
  /-- The tokens that are behind `sem_wait`, but not stored. -/
  passed : List Token

inductive Action (n : ℕ) where
  | reset (i : Fin n)
  | publish (i : Fin n) (token : Token)
  | wait (token : Token)
  | store (token : Token)
  | see (i : Fin n)
  | post (i : Fin n)
  | again (i : Fin n)
  | stop (i : Fin n)
  deriving DecidableEq, Repr

variable {n : ℕ}

def init (n : ℕ) : State n where
  publisher _ := .head
  deliveredtoken := -1
  pubmutex := 1
  inFlight := []
  passed := []

namespace State

variable (s : State n)

def goto (i : Fin n) (p : Publisher) : State n := { s with publisher := Function.update s.publisher i p }

/-- No token that is in use. -/
def isFresh (token : Token) : Bool :=
  token != 0 && !s.inFlight.contains token && !s.passed.contains token &&
    (List.finRange n).all fun j => s.publisher j != .waiting token

/-- One atomic step, if it is possible. -/
def step : Action n → Option (State n)
  | .reset i =>
    if s.publisher i = .head then some { s.goto i .ready with deliveredtoken := 0 } else none
  | .publish i token =>
    if s.publisher i = .ready ∧ s.isFresh token = true then
      some { s.goto i (.waiting token) with inFlight := token :: s.inFlight }
    else none
  | .wait token =>
    if s.inFlight.contains token = true ∧ 0 < s.pubmutex then
      some { s with
        pubmutex := s.pubmutex - 1
        inFlight := s.inFlight.erase token
        passed := token :: s.passed }
    else none
  | .store token =>
    if s.passed.contains token then
      some { s with deliveredtoken := token, passed := s.passed.erase token }
    else none
  | .see i => if s.publisher i = .waiting s.deliveredtoken then some (s.goto i .posting) else none
  | .post i =>
    if s.publisher i = .posting then some { s.goto i .posted with pubmutex := s.pubmutex + 1 } else none
  | .again i => if s.publisher i = .posted then some (s.goto i .head) else none
  | .stop i => if s.publisher i = .posted then some (s.goto i .stopped) else none

end State

/-- Some step leads from one state to the other. -/
def Step (s s' : State n) : Prop := ∃ a, s.step a = some s'

def Reachable (s : State n) : Prop := Relation.ReflTransGen Step (init n) s

/-- The callback has stored the token the publisher is waiting for. -/
def State.Stored (s : State n) (i : Fin n) (token : Token) : Prop :=
  s.publisher i = .waiting token ∧ token ∉ s.inFlight ∧ token ∉ s.passed

/-- No acknowledgement is lost: a stored token is there until its publisher has seen it. -/
def State.AcksKept (s : State n) : Prop := ∀ i token, s.Stored i token → s.deliveredtoken = token

theorem reachable_of_run {as : List (Action n)} {s : State n}
    (h : Threads.run State.step as (init n) = some s) : Reachable s :=
  Threads.run_invariant (P := fun _ s => Reachable s) .refl (fun hs hstep => hs.tail ⟨_, hstep⟩) h

/-- What each step needs, and what it does. -/
inductive Move (s : State n) : State n → Prop where
  | reset (i : Fin n) (hi : s.publisher i = .head) : Move s { s.goto i .ready with deliveredtoken := 0 }
  | publish (i : Fin n) (token : Token) (hi : s.publisher i = .ready) (hfresh : s.isFresh token = true) :
      Move s { s.goto i (.waiting token) with inFlight := token :: s.inFlight }
  | wait (token : Token) (hmem : token ∈ s.inFlight) : Move s { s with
      pubmutex := s.pubmutex - 1
      inFlight := s.inFlight.erase token
      passed := token :: s.passed }
  | store (token : Token) (hmem : token ∈ s.passed) :
      Move s { s with deliveredtoken := token, passed := s.passed.erase token }
  | see (i : Fin n) (hi : s.publisher i = .waiting s.deliveredtoken) : Move s (s.goto i .posting)
  | post (i : Fin n) (hi : s.publisher i = .posting) :
      Move s { s.goto i .posted with pubmutex := s.pubmutex + 1 }
  | again (i : Fin n) (hi : s.publisher i = .posted) : Move s (s.goto i .head)
  | stop (i : Fin n) (hi : s.publisher i = .posted) : Move s (s.goto i .stopped)

theorem Step.move {s s' : State n} (h : Step s s') : Move s s' := by
  obtain ⟨a, ha⟩ := h
  cases a with
  | publish i token =>
    obtain ⟨⟨hi, hfresh⟩, he⟩ := Option.ite_none_right_eq_some.mp ha
    exact Option.some.inj he ▸ .publish i token hi hfresh
  | wait token =>
    obtain ⟨⟨hmem, _⟩, he⟩ := Option.ite_none_right_eq_some.mp ha
    exact Option.some.inj he ▸ .wait token (List.contains_iff_mem.mp hmem)
  | store token =>
    obtain ⟨hmem, he⟩ := Option.ite_none_right_eq_some.mp ha
    exact Option.some.inj he ▸ .store token (List.contains_iff_mem.mp hmem)
  | reset i =>
    obtain ⟨hi, he⟩ := Option.ite_none_right_eq_some.mp ha
    exact Option.some.inj he ▸ .reset i hi
  | see i =>
    obtain ⟨hi, he⟩ := Option.ite_none_right_eq_some.mp ha
    exact Option.some.inj he ▸ .see i hi
  | post i =>
    obtain ⟨hi, he⟩ := Option.ite_none_right_eq_some.mp ha
    exact Option.some.inj he ▸ .post i hi
  | again i =>
    obtain ⟨hi, he⟩ := Option.ite_none_right_eq_some.mp ha
    exact Option.some.inj he ▸ .again i hi
  | stop i =>
    obtain ⟨hi, he⟩ := Option.ite_none_right_eq_some.mp ha
    exact Option.some.inj he ▸ .stop i hi

@[simp] theorem publisher_goto (s : State n) (i : Fin n) (p : Publisher) :
    (s.goto i p).publisher i = p := Function.update_self ..

-- ════════════════════════════════════════════════════════════════════════
-- One publisher
-- ════════════════════════════════════════════════════════════════════════

/-- How far the acknowledgement of the only token in use has come. -/
inductive Ack (s : State 1) (token : Token) : Prop where
  | inFlight (hi : s.inFlight = [token]) (hp : s.passed = []) (hd : s.deliveredtoken = 0)
  | passed (hi : s.inFlight = []) (hp : s.passed = [token]) (hd : s.deliveredtoken = 0)
  | stored (hi : s.inFlight = []) (hp : s.passed = []) (hd : s.deliveredtoken = token)

/-- The state of one publisher and of the callback go together. -/
inductive Single (s : State 1) : Prop where
  | quiet (hw : ∀ token, s.publisher 0 ≠ .waiting token) (hi : s.inFlight = []) (hp : s.passed = [])
      (hd : s.publisher 0 = .ready → s.deliveredtoken = 0)
  | waiting (token : Token) (hw : s.publisher 0 = .waiting token) (hne : token ≠ 0)
      (hack : Ack s token)

theorem single_init : Single (init 1) := .quiet nofun rfl rfl nofun

/-- Outside the waiting loop the callback has nothing to do. -/
theorem Single.of_not_waiting {s : State 1} (h : Single s)
    (hw : ∀ token, s.publisher 0 ≠ .waiting token) : s.inFlight = [] ∧ s.passed = [] := by
  cases h with
  | quiet _ hi hp _ => exact ⟨hi, hp⟩
  | waiting token he _ _ => exact absurd he (hw token)

theorem Single.step {s s' : State 1} (h : Single s) (hstep : Step s s') : Single s' := by
  cases hstep.move with
  | reset i hi =>
    obtain rfl : i = 0 := Subsingleton.elim i 0
    obtain ⟨hf, hp⟩ := h.of_not_waiting (by simp [hi])
    exact .quiet (by simp) hf hp fun _ => rfl
  | publish i token hi hfresh =>
    obtain rfl : i = 0 := Subsingleton.elim i 0
    obtain ⟨hf, hp⟩ := h.of_not_waiting (by simp [hi])
    have hd : s.deliveredtoken = 0 := by
      cases h with
      | quiet _ _ _ hd => exact hd hi
      | waiting _ hw _ _ => rw [hw] at hi; cases hi
    have hne : token ≠ 0 := by
      rintro rfl
      simp [State.isFresh] at hfresh
    exact .waiting token (by simp) hne (.inFlight (by simp [hf]) hp hd)
  | wait token hmem =>
    cases h with
    | quiet _ hi _ _ => simp [hi] at hmem
    | waiting t hw hne hack =>
      cases hack with
      | inFlight hi hp hd =>
        obtain rfl : token = t := by simpa [hi] using hmem
        exact .waiting token hw hne (.passed (by simp [hi]) (by simp [hp]) hd)
      | passed hi _ _ => simp [hi] at hmem
      | stored hi _ _ => simp [hi] at hmem
  | store token hmem =>
    cases h with
    | quiet _ _ hp _ => simp [hp] at hmem
    | waiting t hw hne hack =>
      cases hack with
      | inFlight _ hp _ => simp [hp] at hmem
      | passed hi hp _ =>
        obtain rfl : token = t := by simpa [hp] using hmem
        exact .waiting token hw hne (.stored hi (by simp [hp]) rfl)
      | stored _ hp _ => simp [hp] at hmem
  | see i hi =>
    obtain rfl : i = 0 := Subsingleton.elim i 0
    cases h with
    | quiet hw _ _ _ => exact absurd hi (hw _)
    | waiting t hw hne hack =>
      have ht : t = s.deliveredtoken := Publisher.waiting.inj (hw.symm.trans hi)
      cases hack with
      | inFlight _ _ hd => exact absurd (ht.trans hd) hne
      | passed _ _ hd => exact absurd (ht.trans hd) hne
      | stored hf hp _ => exact .quiet (by simp) hf hp (by simp)
  | post i hi | again i hi | stop i hi =>
    obtain rfl : i = 0 := Subsingleton.elim i 0
    obtain ⟨hf, hp⟩ := h.of_not_waiting (by simp [hi])
    exact .quiet (by simp) hf hp (by simp)

theorem Reachable.single {s : State 1} (h : Reachable s) : Single s := by
  induction h with
  | refl => exact single_init
  | tail _ hstep ih => exact ih.step hstep

theorem Single.acksKept {s : State 1} (h : Single s) : s.AcksKept := by
  rintro i token ⟨hw, hi, hp⟩
  obtain rfl : i = 0 := Subsingleton.elim i 0
  cases h with
  | quiet hnot _ _ _ => exact absurd hw (hnot token)
  | waiting t ht _ hack =>
    obtain rfl : t = token := Publisher.waiting.inj (ht.symm.trans hw)
    cases hack with
    | inFlight he _ _ => exact absurd (by simp [he]) hi
    | passed _ he _ => exact absurd (by simp [he]) hp
    | stored _ _ hd => exact hd

-- ════════════════════════════════════════════════════════════════════════
-- More publishers
-- ════════════════════════════════════════════════════════════════════════

/-- The second publisher starts its loop between the store and the check of the first. -/
def overwriting (n : ℕ) : List (Action (n + 2)) :=
  [.reset 0, .publish 0 1, .wait 1, .store 1, .reset 1]

theorem exists_overwritten (n : ℕ) : ∃ s, Threads.run State.step (overwriting n) (init (n + 2)) = some s ∧
    s.Stored 0 1 ∧ s.deliveredtoken = 0 := by
  have hfresh : ∀ x : Fin (n + 2),
      ¬ Function.update (fun _ => Publisher.head) 0 .ready x = .waiting 1 := by
    intro x
    rw [Function.update_apply]
    split
    · exact fun h => by cases h
    · exact fun h => by cases h
  simp [overwriting, Threads.run, State.step, State.isFresh, init, State.goto, State.Stored, hfresh]

/-- A token that was stored and is no longer there. -/
structure State.Lost (s : State n) (i : Fin n) (token : Token) : Prop where
  stored : s.Stored i token
  gone : s.deliveredtoken ≠ token
  nonzero : token ≠ 0

theorem publisher_goto_of_waiting {s : State n} {i j : Fin n} {token : Token} {p : Publisher}
    (hi : s.publisher i = .waiting token) (hj : s.publisher j ≠ .waiting token) :
    (s.goto j p).publisher i = .waiting token := by
  have hne : i ≠ j := by
    rintro rfl
    exact hj hi
  rw [← hi]
  exact Function.update_of_ne hne ..

/-- A lost acknowledgement stays lost. -/
theorem State.Lost.step {s s' : State n} {i : Fin n} {token : Token} (h : s.Lost i token)
    (hstep : Step s s') : s'.Lost i token := by
  obtain ⟨⟨hw, hf, hp⟩, hd, hne⟩ := h
  cases hstep.move with
  | reset j hj => exact ⟨⟨publisher_goto_of_waiting hw (by simp [hj]), hf, hp⟩, hne.symm, hne⟩
  | publish j t hj hfresh =>
    have ht : token ≠ t := by
      rintro rfl
      simp only [State.isFresh, Bool.and_eq_true, List.all_eq_true, bne_iff_ne] at hfresh
      exact hfresh.2 i (List.mem_finRange i) hw
    exact ⟨⟨publisher_goto_of_waiting hw (by simp [hj]), by simp [ht, hf], hp⟩, hd, hne⟩
  | wait t hmem =>
    have ht : token ≠ t := fun he => hf (he ▸ hmem)
    exact ⟨⟨hw, fun hm => hf (List.mem_of_mem_erase hm), by simp [ht, hp]⟩, hd, hne⟩
  | store t hmem =>
    exact ⟨⟨hw, hf, fun hm => hp (List.mem_of_mem_erase hm)⟩, fun he => hp (he ▸ hmem), hne⟩
  | see j hj =>
    have hj' : s.publisher j ≠ .waiting token := by
      rw [hj]
      exact fun h => hd (Publisher.waiting.inj h)
    exact ⟨⟨publisher_goto_of_waiting hw hj', hf, hp⟩, hd, hne⟩
  | post j hj | again j hj | stop j hj =>
    exact ⟨⟨publisher_goto_of_waiting hw (by simp [hj]), hf, hp⟩, hd, hne⟩

/-- The publisher waits for ever. -/
theorem State.Lost.waits {s s' : State n} {i : Fin n} {token : Token} (h : s.Lost i token)
    (hrun : Relation.ReflTransGen Step s s') : s'.publisher i = .waiting token := by
  have hlost : s'.Lost i token := by
    induction hrun with
    | refl => exact h
    | tail _ hstep ih => exact ih.step hstep
  exact hlost.stored.1

/-- **Acknowledgements**: none is lost, in any interleaving, exactly if there is at most one
publisher. -/
theorem acksKept_iff (n : ℕ) : (∀ s : State n, Reachable s → s.AcksKept) ↔ n ≤ 1 := by
  constructor
  · intro h
    by_contra hn
    obtain ⟨m, rfl⟩ := Nat.exists_eq_add_of_le' (Nat.lt_of_not_le hn)
    obtain ⟨s, hrun, hst, hd⟩ := exists_overwritten m
    exact absurd (hd.symm.trans (h s (reachable_of_run hrun) 0 1 hst)) (by decide)
  · intro hn s hs
    match n, hn with
    | 0, _ => exact fun i => i.elim0
    | 1, _ => exact hs.single.acksKept

/-- With two publishers the first may wait for ever. -/
theorem ack_lost : ∃ s : State 2, Reachable s ∧ ¬ s.AcksKept ∧
    ∀ s', Relation.ReflTransGen Step s s' → s'.publisher 0 = .waiting 1 := by
  obtain ⟨s, hrun, hst, hd⟩ := exists_overwritten 0
  have hgone : s.deliveredtoken ≠ 1 := by
    rw [hd]
    decide
  refine ⟨s, reachable_of_run hrun, fun hkept => hgone (hkept 0 1 hst), fun s' h => ?_⟩
  exact State.Lost.waits ⟨hst, hgone, by decide⟩ h

end Wali.Mqtt
