import Wali.Mqtt.Sample

/-!
# How the benchmark ends

The publishers of the whole program are those of the token protocol, so one publisher never loses an
acknowledgement. With one publisher and one subscriber no interleaving leads into a state from which
the program cannot end.
-/

namespace Wali.Mqtt

open Clib (Qsort)
open Threads

variable {k n : ℕ} {c : Settings} {q : Qsort UInt32}

-- ════════════════════════════════════════════════════════════════════════
-- The token protocol
-- ════════════════════════════════════════════════════════════════════════

/-- A step of the whole program is one of the token protocol, or none. -/
theorem Reachable.session_step {s s' : Session k n} {e : Event k n} (hqos : c.qos ≠ 0)
    (h : Reachable s.tokens) (hstep : s.step c q e = some s') : Reachable s'.tokens := by
  cases Session.moves_of_step hstep with
  | tokens a t _ _ ha => exact h.tail ⟨a, ha⟩
  | unacknowledged i token h0 => exact absurd h0 hqos
  | stop i _ hi => exact h.tail ⟨.stop i, if_pos hi⟩
  | message | allocateReceive | allocateRtt | subscribe | wake | post | leave | noSample | summarize
    | finish => exact h

theorem reachable_tokens {es : List (Event k n)} {s : Session k n} (hqos : c.qos ≠ 0)
    (hrun : Session.run c q es = some s) : Reachable s.tokens := by
  refine run_invariant (P := fun _ s => Reachable s.tokens) ?_ ?_ hrun
  · exact .refl
  · exact fun h hstep => h.session_step hqos hstep

/-- The value of `qos1_pubmutex`: the callback has taken it from when it is behind `sem_wait` until
the publisher has posted it. -/
def permits (p : Publisher) (inFlight : List Token) : ℕ :=
  match p with
  | .waiting _ => if inFlight.isEmpty then 0 else 1
  | .posting => 0
  | _ => 1

structure Steady (s : State 1) : Prop where
  single : Single s
  mutex : s.pubmutex = permits (s.publisher 0) s.inFlight

theorem steady_init : Steady (init 1) := ⟨single_init, rfl⟩

theorem Steady.step {s s' : State 1} (h : Steady s) (hstep : Step s s') : Steady s' := by
  refine ⟨h.single.step hstep, ?_⟩
  have hmutex := h.mutex
  cases hstep.move with
  | reset i hi | publish i token hi | post i hi | again i hi | stop i hi =>
    obtain rfl : i = 0 := Subsingleton.elim i 0
    rw [hi] at hmutex
    simpa [permits, State.goto] using hmutex
  | wait token hmem =>
    cases h.single with
    | quiet _ hi => simp [hi] at hmem
    | waiting t hw _ hack =>
      cases hack with
      | inFlight hi =>
        obtain rfl : token = t := by simpa [hi] using hmem
        rw [hw, hi] at hmutex
        simp [permits, hw, hi, hmutex]
      | passed hi | stored hi => simp [hi] at hmem
  | store token hmem => exact hmutex
  | see i hi =>
    obtain rfl : i = 0 := Subsingleton.elim i 0
    obtain ⟨hf, -⟩ := (h.single.step hstep).of_not_waiting (by simp)
    rw [hi, show s.inFlight = [] from hf] at hmutex
    simpa [permits, State.goto] using hmutex

/-- A publisher that does not wait for an acknowledgement. -/
theorem Steady.unacknowledged {s : State 1} {i : Fin 1} (h : Steady s) (hi : s.publisher i = .ready) :
    Steady (s.goto i .posted) := by
  obtain rfl : i = 0 := Subsingleton.elim i 0
  obtain ⟨hf, hp⟩ := h.single.of_not_waiting (by simp [hi])
  refine ⟨.quiet (by simp) hf hp (by simp), ?_⟩
  have hmutex := h.mutex
  rw [hi] at hmutex
  simpa [permits, State.goto] using hmutex

theorem Steady.session_step {s s' : Session k 1} {e : Event k 1} (h : Steady s.tokens)
    (hstep : s.step c q e = some s') : Steady s'.tokens := by
  cases Session.moves_of_step hstep with
  | tokens a t _ _ ha => exact h.step ⟨a, ha⟩
  | unacknowledged i token _ hi => exact h.unacknowledged hi
  | stop i _ hi => exact h.step ⟨.stop i, if_pos hi⟩
  | message | allocateReceive | allocateRtt | subscribe | wake | post | leave | noSample | summarize
    | finish => exact h

theorem steady_run {es : List (Event k 1)} {s : Session k 1} (hrun : Session.run c q es = some s) :
    Steady s.tokens := by
  refine run_invariant (P := fun _ s => Steady s.tokens) ?_ ?_ hrun
  · exact steady_init
  · exact fun h hstep => h.session_step hstep

/-- **Acknowledgements in the whole program**: the publishers and the callback `delivered` behave as in
the token protocol, whatever the other threads do. A single publisher never loses one. -/
theorem session_acksKept {es : List (Event k n)} {s : Session k n} (hrun : Session.run c q es = some s) :
    (c.qos ≠ 0 → Reachable s.tokens) ∧ (n ≤ 1 → s.tokens.AcksKept) := by
  refine ⟨fun hqos => reachable_tokens hqos hrun, fun hn => ?_⟩
  obtain rfl | rfl := Nat.le_one_iff_eq_zero_or_eq_one.mp hn
  · exact fun i => i.elim0
  · exact (steady_run hrun).single.acksKept

/-- The publisher waits while a subscriber starts. -/
theorem session_acksKept_waiting : ∃ s : Session 1 1, s.tokens.publisher 0 = .waiting 5 ∧
    Reachable s.tokens ∧ s.tokens.AcksKept := by
  obtain ⟨s, hrun, hwait⟩ : ∃ s : Session 1 1, Session.run smallSettings Clib.mergeQsort
      [.publisher (.reset 0), .subscriber 0, .publisher (.publish 0 5)] = some s ∧
      s.tokens.publisher 0 = .waiting 5 := ⟨_, rfl, rfl⟩
  have h := session_acksKept hrun
  exact ⟨s, hwait, h.1 (by decide), h.2 le_rfl⟩

-- ════════════════════════════════════════════════════════════════════════
-- The subscriber can end
-- ════════════════════════════════════════════════════════════════════════

/-- The program can get from a state to one with `P`. -/
abbrev Session.CanReach (c : Settings) (q : Qsort UInt32) : (Session k n → Prop) → Session k n → Prop :=
  Threads.CanReach fun s e => s.step c q e

section Subscriber

variable {s : Session 1 n}

/-- A message that can be read moves the counter on. -/
theorem step_emptyMessage (c : Settings) (q : Qsort UInt32) (hsub : (s.subscriber 0).isSubscribed = true) :
    ∃ r, s.step c q (.message (emptyMessage 0)) = some { s with receiver := r } ∧
      r.it = s.receiver.it + 1 ∧ (s.receiver.it = c.maxIter → 0 < r.doneReceiving) := by
  have hany : (List.finRange 1).any (fun j => (s.subscriber j).isSubscribed) = true :=
    List.any_eq_true.mpr ⟨0, List.mem_finRange 0, hsub⟩
  have hstep : ∀ r, Arrives c.maxIter s.receiver (emptyMessage 0) r →
      s.step c q (.message (emptyMessage 0)) = some { s with receiver := r } := by
    intro r h
    rw [Session.step, Session.stepMessage, if_pos (Or.inr hany), arrives_iff.mpr h]
    rfl
  have htopic : (emptyMessage 0).topic ≠ pubkill := by decide
  by_cases hlt : s.receiver.it < c.maxIter
  · refine ⟨_, hstep _ (.record htopic hlt 0 (by decide)), rfl, fun he => ?_⟩
    exact absurd (he ▸ hlt) (UInt32.lt_irrefl _)
  · refine ⟨_, hstep _ (.full htopic hlt), rfl, fun he => ?_⟩
    simp [he]

/-- A waiting subscriber can be woken up: messages come until the counter is at `MAX_ITER`. -/
theorem canReach_done (hwait : s.subscriber 0 = .waiting) : Session.CanReach c q
    (fun t => t.subscriber 0 = .waiting ∧ 0 < t.receiver.doneReceiving) s := by
  have hsub : (s.subscriber 0).isSubscribed = true := by
    rw [hwait]
    rfl
  induction hd : (c.maxIter - s.receiver.it).toNat generalizing s with
  | zero =>
    obtain ⟨r, hstep, -, hdone⟩ := step_emptyMessage c q hsub
    refine .of_step _ hstep (.here ⟨hwait, hdone ?_⟩)
    rw [UInt32.toNat_sub] at hd
    have := s.receiver.it.toNat_lt
    have := c.maxIter.toNat_lt
    exact UInt32.toNat_inj.mp (by omega)
  | succ d ih =>
    obtain ⟨r, hstep, hit, -⟩ := step_emptyMessage c q hsub
    refine .of_step _ hstep (ih hwait hsub ?_)
    dsimp only
    rw [UInt32.toNat_sub] at hd
    rw [hit, UInt32.toNat_sub, UInt32.toNat_add]
    have := s.receiver.it.toNat_lt
    have := c.maxIter.toNat_lt
    change (2 ^ 32 - (s.receiver.it.toNat + 1) % 2 ^ 32 + c.maxIter.toNat) % 2 ^ 32 = d
    omega

/-- One statement of the subscriber, and then on from there. -/
theorem canReach_of_subscriber {x : Subscriber} {r : Receiver} {P : Session 1 n → Prop}
    (hstep : s.stepSubscriber 0 = some { s.goto 0 x with receiver := r })
    (h : ∀ t : Session 1 n, t.subscriber 0 = x → Session.CanReach c q P t) : Session.CanReach c q P s :=
  .of_step (.subscriber 0) hstep (h _ (subscriber_goto s 0 x))

theorem canReach_ended (s : Session 1 n) : Session.CanReach c q (fun t => t.subscriber 0 = .ended) s := by
  have hleaving : ∀ s : Session 1 n, s.subscriber 0 = .leaving →
      Session.CanReach c q (fun t => t.subscriber 0 = .ended) s := fun s hj =>
    canReach_of_subscriber (by rw [Session.stepSubscriber, hj]) fun t ht => .here ht
  have hposting : ∀ s : Session 1 n, s.subscriber 0 = .posting →
      Session.CanReach c q (fun t => t.subscriber 0 = .ended) s := fun s hj =>
    canReach_of_subscriber (by rw [Session.stepSubscriber, hj]) hleaving
  have hwaiting : ∀ s : Session 1 n, s.subscriber 0 = .waiting →
      Session.CanReach c q (fun t => t.subscriber 0 = .ended) s := by
    intro s hj
    refine (canReach_done hj).trans fun {_ t} _ h => ?_
    obtain ⟨ht, hpos⟩ := h
    exact canReach_of_subscriber (by rw [Session.stepSubscriber, ht]; exact if_pos hpos) hposting
  have hallocated : ∀ s : Session 1 n, s.subscriber 0 = .allocated →
      Session.CanReach c q (fun t => t.subscriber 0 = .ended) s := fun s hj =>
    canReach_of_subscriber (by rw [Session.stepSubscriber, hj]) hwaiting
  have hallocating : ∀ s : Session 1 n, s.subscriber 0 = .allocating →
      Session.CanReach c q (fun t => t.subscriber 0 = .ended) s := fun s hj =>
    canReach_of_subscriber (by rw [Session.stepSubscriber, hj]) hallocated
  cases hj : s.subscriber 0 with
  | start => exact canReach_of_subscriber (by rw [Session.stepSubscriber, hj]) hallocating
  | allocating => exact hallocating s hj
  | allocated => exact hallocated s hj
  | waiting => exact hwaiting s hj
  | posting => exact hposting s hj
  | leaving => exact hleaving s hj
  | ended => exact .here hj

end Subscriber

-- ════════════════════════════════════════════════════════════════════════
-- The publisher can end
-- ════════════════════════════════════════════════════════════════════════

/-- Both threads have ended. -/
structure Session.ThreadsEnded (s : Session 1 1) : Prop where
  subscriber : s.subscriber 0 = .ended
  publisher : s.tokens.publisher 0 = .stopped

/-- The subscriber has ended, and the publisher will find the semaphore. -/
structure Session.Stopping (s : Session 1 1) : Prop where
  ended : s.subscriber 0 = .ended
  pos : 0 < s.receiver.stopPublish

section Publisher

variable {s : Session 1 1}

/-- A step of the token protocol, and then on from there. -/
theorem canReach_of_tokens {P : Session 1 1 → Prop} {a : Action 1} {t : State 1}
    (ha : s.tokens.step a = some t) (hsame : s.stepPublisher c a = s.stepTokens a)
    (h : Session.CanReach c q P { s with tokens := t }) : Session.CanReach c q P s := by
  refine .of_step (.publisher a) ?_ h
  rw [Session.step, hsame, Session.stepTokens, ha]
  rfl

theorem Session.Stopping.of_posted (h : s.Stopping) (hi : s.tokens.publisher 0 = .posted) :
    Session.CanReach c q Session.ThreadsEnded s := by
  have hstep : s.step c q (.publisher (.stop 0)) = some { s with
      tokens := s.tokens.goto 0 .stopped
      receiver.stopPublish := s.receiver.stopPublish - 1 } := by
    rw [Session.step, Session.stepPublisher, if_pos h.pos, Session.stepTokens, State.step, if_pos hi]
    rfl
  exact .of_step _ hstep (.here ⟨h.ended, publisher_goto s.tokens 0 .stopped⟩)

theorem Session.Stopping.of_posting (h : s.Stopping) (hi : s.tokens.publisher 0 = .posting) :
    Session.CanReach c q Session.ThreadsEnded s :=
  canReach_of_tokens (a := .post 0) (if_pos hi) rfl
    (of_posted ⟨h.ended, h.pos⟩ (publisher_goto s.tokens 0 .posted))

theorem Session.Stopping.of_seen (h : s.Stopping) (hi : s.tokens.publisher 0 = .waiting s.tokens.deliveredtoken) :
    Session.CanReach c q Session.ThreadsEnded s :=
  canReach_of_tokens (a := .see 0) (if_pos hi) rfl
    (of_posting ⟨h.ended, h.pos⟩ (publisher_goto s.tokens 0 .posting))

theorem Session.Stopping.of_passed {token : Token} (h : s.Stopping)
    (hi : s.tokens.publisher 0 = .waiting token) (hp : s.tokens.passed = [token]) :
    Session.CanReach c q Session.ThreadsEnded s :=
  canReach_of_tokens (a := .store token) (if_pos (by simp [hp])) rfl (of_seen ⟨h.ended, h.pos⟩ hi)

theorem Session.Stopping.of_inFlight {token : Token} (h : s.Stopping)
    (hi : s.tokens.publisher 0 = .waiting token) (hf : s.tokens.inFlight = [token])
    (hp : s.tokens.passed = []) (hmutex : 0 < s.tokens.pubmutex) :
    Session.CanReach c q Session.ThreadsEnded s :=
  canReach_of_tokens (a := .wait token) (if_pos ⟨by simp [hf], hmutex⟩) rfl
    (of_passed ⟨h.ended, h.pos⟩ hi (by rw [hp]))

theorem Session.Stopping.of_ready (h : s.Stopping) (hi : s.tokens.publisher 0 = .ready)
    (hf : s.tokens.inFlight = []) (hp : s.tokens.passed = []) (hmutex : 0 < s.tokens.pubmutex) :
    Session.CanReach c q Session.ThreadsEnded s := by
  by_cases hqos : c.qos = 0
  · refine .of_step (.publisher (.publish 0 1)) ?_
      (of_posted (s := { s with tokens := s.tokens.goto 0 .posted }) ⟨h.ended, h.pos⟩
        (publisher_goto s.tokens 0 .posted))
    rw [Session.step, Session.stepPublisher, if_pos hqos, if_pos hi]
  · have hfresh : s.tokens.isFresh 1 = true := by
      simp [State.isFresh, hf, hp, List.finRange, hi]
    refine canReach_of_tokens (a := .publish 0 1) (if_pos ⟨hi, hfresh⟩) (if_neg hqos) ?_
    exact of_inFlight ⟨h.ended, h.pos⟩ (publisher_goto s.tokens 0 (.waiting 1)) (by rw [hf]) hp hmutex

/-- The publisher gets to the end of its turn, and finds the semaphore there. -/
theorem Session.Stopping.canReach (h : s.Stopping) (hsteady : Steady s.tokens)
    (hi : s.tokens.publisher 0 ≠ .stopped) : Session.CanReach c q Session.ThreadsEnded s := by
  obtain ⟨hsingle, hmutex⟩ := hsteady
  cases hplace : s.tokens.publisher 0 with
  | head =>
    obtain ⟨hf, hp⟩ := hsingle.of_not_waiting (by simp [hplace])
    refine canReach_of_tokens (a := .reset 0) (if_pos hplace) rfl ?_
    exact of_ready ⟨h.ended, h.pos⟩ (publisher_goto s.tokens 0 _) hf hp
      (by rw [hplace] at hmutex; exact hmutex ▸ Nat.one_pos)
  | ready =>
    obtain ⟨hf, hp⟩ := hsingle.of_not_waiting (by simp [hplace])
    exact h.of_ready hplace hf hp (by rw [hmutex, hplace]; exact Nat.one_pos)
  | waiting token =>
    cases hsingle with
    | quiet hw => exact absurd hplace (hw token)
    | waiting t hw _ hack =>
      obtain rfl : t = token := Publisher.waiting.inj (hw.symm.trans hplace)
      cases hack with
      | inFlight hf hp => exact h.of_inFlight hplace hf hp (by rw [hmutex, hplace, hf]; exact Nat.one_pos)
      | passed _ hp => exact h.of_passed hplace hp
      | stored _ _ hd => exact h.of_seen (hd ▸ hplace)
  | posting => exact h.of_posting hplace
  | posted => exact h.of_posted hplace
  | stopped => exact absurd hplace hi

/-- A publisher that still runs after the subscriber has ended is told to stop. -/
theorem stopping_of_run {es : List (Event 1 1)} (hrun : Session.run c q es = some s)
    (hended : s.subscriber 0 = .ended) (hi : s.tokens.publisher 0 ≠ .stopped) : s.Stopping := by
  refine ⟨hended, ?_⟩
  have hstop := (conserved_run hrun).stop
  have hposted : 0 < count Subscriber.hasPosted s.subscriber := count_pos (i := 0) (by rw [hended]; rfl)
  have hzero : count Publisher.isStopped s.tokens.publisher = 0 := by
    have hfalse : (s.tokens.publisher 0).isStopped = false := by
      cases h : s.tokens.publisher 0 <;> first | rfl | exact absurd h hi
    simp [count, hfalse]
  omega

end Publisher

-- ════════════════════════════════════════════════════════════════════════
-- The program can end
-- ════════════════════════════════════════════════════════════════════════

def Session.HasEnded (s : Session 1 1) : Prop := ∃ printed, s.main = .ended printed

theorem canReach_finish {s : Session 1 1} {printed : Option Summary} (h : s.ThreadsEnded)
    (hmain : s.main = .summarized printed) : Session.CanReach c q Session.HasEnded s := by
  have hjoin : Session.joins .stopped s.tokens.publisher = true := decide_eq_true h.2
  have hstep : s.step c q .main = some { s with main := .ended printed } := by
    simp only [Session.step, Session.stepMain, hmain, hjoin, if_true]
  exact .of_step _ hstep (.here ⟨printed, rfl⟩)

theorem Session.ThreadsEnded.canReach {s : Session 1 1} (h : s.ThreadsEnded)
    (hsummary : ∀ rtt : List UInt32, rtt.length = c.maxIter.toNat →
      ∃ summary, sortAndSummarize q rtt c.maxIter (dropIdx c.dropRatio c.maxIter) = .ok summary) :
    Session.CanReach c q Session.HasEnded s := by
  cases hmain : s.main with
  | joining =>
    obtain ⟨summary, hs⟩ := hsummary ((List.range c.maxIter.toNat).map s.receiver.rttTs) (by simp)
    have hsample : s.sample c = some ((List.range c.maxIter.toNat).map s.receiver.rttTs) := by
      simp [Session.sample, List.finRange, h.1]
    refine .of_step .main (Session.stepMain_of_summary hmain (decide_eq_true h.1) hsample hs) ?_
    exact canReach_finish ⟨h.subscriber, h.publisher⟩ rfl
  | summarized printed => exact canReach_finish h hmain
  | ended printed => exact .here ⟨printed, hmain⟩

/-- **No dead end**: with one subscriber and one publisher the program can end from every state that it
can get into, if its statistics can be computed. -/
theorem can_end {es : List (Event 1 1)} {s : Session 1 1}
    (hsummary : ∀ rtt : List UInt32, rtt.length = c.maxIter.toNat →
      ∃ summary, sortAndSummarize q rtt c.maxIter (dropIdx c.dropRatio c.maxIter) = .ok summary)
    (hrun : Session.run c q es = some s) : Session.CanReach c q Session.HasEnded s := by
  have hthreads : Session.CanReach c q Session.ThreadsEnded s := by
    refine (canReach_ended s).trans fun {es' t} hrun' hended => ?_
    have hrun : Session.run c q (es ++ es') = some t := run_append_of_eq hrun hrun'
    by_cases hi : t.tokens.publisher 0 = .stopped
    · exact .here ⟨hended, hi⟩
    · exact (stopping_of_run hrun hended hi).canReach (steady_run hrun) hi
  exact hthreads.trans fun _ ht => ht.canReach hsummary

theorem sortAndSummarize_small (rtt : List UInt32) (h : rtt.length = smallSettings.maxIter.toNat) :
    ∃ summary, sortAndSummarize Clib.mergeQsort rtt smallSettings.maxIter
      (dropIdx smallSettings.dropRatio smallSettings.maxIter) = .ok summary := by
  refine ⟨_, summarize_ok (by decide) (by decide) ?_ rfl⟩
  exact (List.length_mergeSort rtt).trans h |>.ge

/-- The publisher waits for an acknowledgement that is still to come. -/
theorem can_end_small : ∃ s : Session 1 1, s.tokens.publisher 0 = .waiting 5 ∧
    s.tokens.inFlight = [5] ∧ Session.CanReach smallSettings Clib.mergeQsort Session.HasEnded s := by
  obtain ⟨s, hrun, hwait, hflight⟩ : ∃ s : Session 1 1, Session.run smallSettings Clib.mergeQsort
      [.publisher (.reset 0), .subscriber 0, .publisher (.publish 0 5)] = some s ∧
      s.tokens.publisher 0 = .waiting 5 ∧ s.tokens.inFlight = [5] := ⟨_, rfl, rfl, rfl⟩
  exact ⟨s, hwait, hflight, can_end sortAndSummarize_small hrun⟩

end Wali.Mqtt
