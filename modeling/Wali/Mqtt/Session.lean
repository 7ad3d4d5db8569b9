import Mathlib.Data.List.Count
import Wali.Mqtt
import Wali.Mqtt.Payload
import Wali.Mqtt.Summary
import Wali.Threads

/-!
# The threads of the MQTT benchmark

The whole program: the main thread, the subscribers, the publishers and the callbacks of the MQTT
library run interleaved and meet at three semaphores. The publishers and the callback `delivered`
are those of the token protocol, the callback `msgarrvd` is that of the payload, and the main thread
ends with the summary.
-/

namespace Wali.Mqtt

open Clib (Bytes Memory Qsort)
open Threads

/-- The options that the threads depend on. -/
structure Settings where
  maxIter : UInt32
  qos : UInt32
  dropRatio : UInt32

/-- Where a subscriber is in `subscribe_thread`. -/
inductive Subscriber where
  /-- Before `receive_ts` is allocated. -/
  | start
  /-- Before `rtt_ts` is allocated. -/
  | allocating
  /-- Before `SUBSCRIBE`. -/
  | allocated
  /-- In `sem_wait(&done_receiving)`. -/
  | waiting
  /-- Before `sem_post(&stop_publish)`. -/
  | posting
  /-- Before `UNSUBSCRIBE`. -/
  | leaving
  | ended
  deriving DecidableEq, Repr

/-- Where `main` is, with what it has printed. -/
inductive Main where
  /-- In the loop that joins the subscribers. -/
  | joining
  /-- In the loop that joins the publishers. -/
  | summarized (printed : Option Summary)
  | ended (printed : Option Summary)
  deriving DecidableEq, Repr

def Main.printed : Main → Option Summary
  | .joining => none
  | .summarized printed | .ended printed => printed

namespace Subscriber

def isSubscribed : Subscriber → Bool
  | .waiting | .posting | .leaving | .ended => true
  | _ => false

/-- Behind `sem_wait`. -/
def isWoken : Subscriber → Bool
  | .posting | .leaving | .ended => true
  | _ => false

/-- Behind `sem_post`. -/
def hasPosted : Subscriber → Bool
  | .leaving | .ended => true
  | _ => false

end Subscriber

/-- A message the MQTT library calls `msgarrvd` with. -/
structure Message where
  topic : Bytes
  payload : Memory
  len : ℕ
  receiveTime : UInt64

structure Session (k n : ℕ) where
  tokens : State n
  subscriber : Fin k → Subscriber
  /-- The variables of `msgarrvd`, and the values of the semaphores it posts. -/
  receiver : Receiver
  main : Main

/-- Which thread or callback does its next step. -/
inductive Event (k n : ℕ) where
  | publisher (a : Action n)
  | message (m : Message)
  | subscriber (j : Fin k)
  | main

variable {k n : ℕ}

namespace Session

def init (k n : ℕ) : Session k n where
  tokens := Mqtt.init n
  subscriber _ := .start
  receiver := { it := 0, receiveTs := fun _ => 0, rttTs := fun _ => 0, stopPublish := 0, doneReceiving := 0 }
  main := .joining

variable (s : Session k n)

def goto (j : Fin k) (p : Subscriber) : Session k n :=
  { s with subscriber := Function.update s.subscriber j p }

def stepTokens (a : Action n) : Option (Session k n) :=
  (s.tokens.step a).map fun tokens => { s with tokens }

/-- Without acknowledgements a publisher does not wait for its token. The loop goes on as long as
`sem_trywait` fails. -/
def stepPublisher (c : Settings) : Action n → Option (Session k n)
  | .publish i token =>
    if c.qos = 0 then
      if s.tokens.publisher i = .ready then some { s with tokens := s.tokens.goto i .posted } else none
    else s.stepTokens (.publish i token)
  | .again i => if s.receiver.stopPublish = 0 then s.stepTokens (.again i) else none
  | .stop i =>
    if 0 < s.receiver.stopPublish then
      { s with receiver.stopPublish := s.receiver.stopPublish - 1 }.stepTokens (.stop i)
    else none
  | a => s.stepTokens a

def stepSubscriber (j : Fin k) : Option (Session k n) :=
  match s.subscriber j with
  | .start => some { s.goto j .allocating with receiver.receiveTs := fun _ => 0 }
  | .allocating => some { s.goto j .allocated with receiver.rttTs := fun _ => 0 }
  | .allocated => some (s.goto j .waiting)
  | .waiting =>
    if 0 < s.receiver.doneReceiving then
      some { s.goto j .posting with receiver.doneReceiving := s.receiver.doneReceiving - 1 }
    else none
  | .posting => some { s.goto j .leaving with receiver.stopPublish := s.receiver.stopPublish + 1 }
  | .leaving => some (s.goto j .ended)
  | .ended => none

/-- A message arrives on a topic somebody has subscribed to. -/
def stepMessage (c : Settings) (m : Message) : Option (Session k n) :=
  if m.topic = pubkill ∨ (List.finRange k).any (fun j => (s.subscriber j).isSubscribed) = true then
    (msgarrvd c.maxIter s.receiver m.topic m.payload m.len m.receiveTime).map fun receiver =>
      { s with receiver }
  else none

/-- The thread whose id is kept, the one that was created last, is at this place. -/
def joins {m : ℕ} {α : Type} [DecidableEq α] (place : α) (threads : Fin m → α) : Bool :=
  match m, threads with
  | 0, _ => true
  | m + 1, threads => decide (threads (Fin.last m) = place)

/-- `rtt_ts`, unless it is not allocated. -/
def sample (c : Settings) : Option (List UInt32) :=
  if (List.finRange k).any (fun j => s.subscriber j != .start && s.subscriber j != .allocating) then
    some ((List.range c.maxIter.toNat).map s.receiver.rttTs)
  else none

/-- `qsort` sorts the array in place. -/
def sortTimes (times : List UInt32) : Session k n :=
  { s with receiver.rttTs := fun i => times.getD i (s.receiver.rttTs i) }

def stepMain (c : Settings) (q : Qsort UInt32) : Option (Session k n) :=
  match s.main with
  | .joining =>
    if joins .ended s.subscriber then
      match s.sample c with
      | none => some { s with main := .summarized none }
      | some rtt =>
        match sortAndSummarize q rtt c.maxIter (dropIdx c.dropRatio c.maxIter) with
        | .error _ => none
        | .ok summary => some { s.sortTimes (q.sort cmpfunc rtt) with main := .summarized summary }
    else none
  | .summarized printed =>
    if joins .stopped s.tokens.publisher then some { s with main := .ended printed } else none
  | .ended _ => none

/-- One atomic step, if it is possible. -/
def step (c : Settings) (q : Qsort UInt32) : Event k n → Option (Session k n)
  | .publisher a => s.stepPublisher c a
  | .message m => s.stepMessage c m
  | .subscriber j => s.stepSubscriber j
  | .main => s.stepMain c q

end Session

-- ════════════════════════════════════════════════════════════════════════
-- What a run has received
-- ════════════════════════════════════════════════════════════════════════

/-- A message that is not for a publisher. -/
def Event.data : Event k n → Option Message
  | .message m => if m.topic = pubkill then none else some m
  | _ => none

def Event.isKill : Event k n → Bool
  | .message m => decide (m.topic = pubkill)
  | _ => false

def received (es : List (Event k n)) : List Message := es.filterMap Event.data

def kills (es : List (Event k n)) : ℕ := es.countP Event.isKill

/-- The round-trip time of a message. -/
def Message.rtt (m : Message) : Option UInt32 :=
  (decodePl m.payload m.len).map fun (_, deliverTime) => (m.receiveTime - deliverTime).toUInt32

/-- How often a counter that wraps around is at `MAX_ITER` while it counts messages. -/
def fullCount (maxIter : UInt32) (len : ℕ) : ℕ :=
  (List.range len).countP fun i => UInt32.ofNat i == maxIter

-- ════════════════════════════════════════════════════════════════════════
-- What each step needs, and what it does
-- ════════════════════════════════════════════════════════════════════════

/-- The three ways through `msgarrvd`. -/
inductive Arrives (maxIter : UInt32) (r : Receiver) (m : Message) : Receiver → Prop where
  | kill (htopic : m.topic = pubkill) : Arrives maxIter r m { r with stopPublish := r.stopPublish + 1 }
  | record (htopic : m.topic ≠ pubkill) (hlt : r.it < maxIter) (time : UInt32) (htime : m.rtt = some time) :
      Arrives maxIter r m { r with
        it := r.it + 1
        receiveTs := Function.update r.receiveTs r.it.toNat m.receiveTime
        rttTs := Function.update r.rttTs r.it.toNat time }
  | full (htopic : m.topic ≠ pubkill) (hlt : ¬ r.it < maxIter) :
      Arrives maxIter r m { r with
        it := r.it + 1
        doneReceiving := if r.it = maxIter then r.doneReceiving + 1 else r.doneReceiving }

theorem arrives_iff {maxIter : UInt32} {r r' : Receiver} {m : Message} :
    msgarrvd maxIter r m.topic m.payload m.len m.receiveTime = some r' ↔ Arrives maxIter r m r' := by
  constructor
  · intro h
    rw [msgarrvd] at h
    split at h
    · next htopic => exact Option.some.inj h ▸ .kill htopic
    · next htopic =>
      split at h
      · next hlt =>
        obtain ⟨x, hx, rfl⟩ := Option.map_eq_some_iff.mp h
        exact .record htopic hlt _ (by rw [Message.rtt, hx]; rfl)
      · next hlt => exact Option.some.inj h ▸ .full htopic hlt
  · intro h
    cases h with
    | kill htopic => rw [msgarrvd, if_pos htopic]
    | record htopic hlt time htime =>
      obtain ⟨x, hx, rfl⟩ := Option.map_eq_some_iff.mp htime
      rw [msgarrvd, if_neg htopic, if_pos hlt, hx]
      rfl
    | full htopic hlt => rw [msgarrvd, if_neg htopic, if_neg hlt]

namespace Session

/-- What an event needs, and what it does. -/
inductive Moves (c : Settings) (q : Qsort UInt32) (s : Session k n) : Event k n → Session k n → Prop where
  | tokens (a : Action n) (t : State n) (hstop : ∀ i, a ≠ .stop i)
      (hqos : c.qos = 0 → ∀ i token, a ≠ .publish i token) (ha : s.tokens.step a = some t) :
      Moves c q s (.publisher a) { s with tokens := t }
  | unacknowledged (i : Fin n) (token : Token) (hqos : c.qos = 0) (hi : s.tokens.publisher i = .ready) :
      Moves c q s (.publisher (.publish i token)) { s with tokens := s.tokens.goto i .posted }
  | stop (i : Fin n) (hpos : 0 < s.receiver.stopPublish) (hi : s.tokens.publisher i = .posted) :
      Moves c q s (.publisher (.stop i)) { s with
        tokens := s.tokens.goto i .stopped
        receiver.stopPublish := s.receiver.stopPublish - 1 }
  | message (m : Message) (r : Receiver)
      (hsub : m.topic = pubkill ∨ ∃ j, (s.subscriber j).isSubscribed = true)
      (harrives : Arrives c.maxIter s.receiver m r) :
      Moves c q s (.message m) { s with receiver := r }
  | allocateReceive (j : Fin k) (hj : s.subscriber j = .start) :
      Moves c q s (.subscriber j) { s.goto j .allocating with receiver.receiveTs := fun _ => 0 }
  | allocateRtt (j : Fin k) (hj : s.subscriber j = .allocating) :
      Moves c q s (.subscriber j) { s.goto j .allocated with receiver.rttTs := fun _ => 0 }
  | subscribe (j : Fin k) (hj : s.subscriber j = .allocated) :
      Moves c q s (.subscriber j) (s.goto j .waiting)
  | wake (j : Fin k) (hj : s.subscriber j = .waiting) (hpos : 0 < s.receiver.doneReceiving) :
      Moves c q s (.subscriber j)
        { s.goto j .posting with receiver.doneReceiving := s.receiver.doneReceiving - 1 }
  | post (j : Fin k) (hj : s.subscriber j = .posting) :
      Moves c q s (.subscriber j)
        { s.goto j .leaving with receiver.stopPublish := s.receiver.stopPublish + 1 }
  | leave (j : Fin k) (hj : s.subscriber j = .leaving) : Moves c q s (.subscriber j) (s.goto j .ended)
  | noSample (hmain : s.main = .joining) (hjoin : joins .ended s.subscriber = true)
      (hsample : s.sample c = none) : Moves c q s .main { s with main := .summarized none }
  | summarize (rtt : List UInt32) (summary : Summary) (hmain : s.main = .joining)
      (hjoin : joins .ended s.subscriber = true) (hsample : s.sample c = some rtt)
      (hsummary : sortAndSummarize q rtt c.maxIter (dropIdx c.dropRatio c.maxIter) = .ok summary) :
      Moves c q s .main { s.sortTimes (q.sort cmpfunc rtt) with main := .summarized summary }
  | finish (printed : Option Summary) (hmain : s.main = .summarized printed)
      (hjoin : joins .stopped s.tokens.publisher = true) : Moves c q s .main { s with main := .ended printed }

variable {c : Settings} {q : Qsort UInt32} {s s' : Session k n} {e : Event k n}

theorem moves_of_stepPublisher {a : Action n} (h : s.stepPublisher c a = some s') :
    Moves c q s (.publisher a) s' := by
  cases a with
  | publish i token =>
    rw [stepPublisher] at h
    split at h
    · next hqos =>
      obtain ⟨hi, he⟩ := Option.ite_none_right_eq_some.mp h
      exact Option.some.inj he ▸ .unacknowledged i token hqos hi
    · next hqos =>
      obtain ⟨t, ht, rfl⟩ := Option.map_eq_some_iff.mp h
      exact .tokens _ t nofun (fun h0 => absurd h0 hqos) ht
  | stop i =>
    obtain ⟨hpos, h⟩ := Option.ite_none_right_eq_some.mp h
    obtain ⟨t, ht, rfl⟩ := Option.map_eq_some_iff.mp h
    obtain ⟨hi, he⟩ := Option.ite_none_right_eq_some.mp ht
    exact Option.some.inj he ▸ .stop i hpos hi
  | again i =>
    obtain ⟨t, ht, rfl⟩ := Option.map_eq_some_iff.mp (Option.ite_none_right_eq_some.mp h).2
    exact .tokens _ t nofun (fun _ => nofun) ht
  | reset i | wait token | store token | see i | post i =>
    obtain ⟨t, ht, rfl⟩ := Option.map_eq_some_iff.mp h
    exact .tokens _ t nofun (fun _ => nofun) ht

theorem moves_of_stepSubscriber {j : Fin k} (h : s.stepSubscriber j = some s') :
    Moves c q s (.subscriber j) s' := by
  rw [stepSubscriber] at h
  split at h
  · next hj => exact Option.some.inj h ▸ .allocateReceive j hj
  · next hj => exact Option.some.inj h ▸ .allocateRtt j hj
  · next hj => exact Option.some.inj h ▸ .subscribe j hj
  · next hj =>
    obtain ⟨hpos, he⟩ := Option.ite_none_right_eq_some.mp h
    exact Option.some.inj he ▸ .wake j hj hpos
  · next hj => exact Option.some.inj h ▸ .post j hj
  · next hj => exact Option.some.inj h ▸ .leave j hj
  · cases h

theorem moves_of_stepMain (h : s.stepMain c q = some s') : Moves c q s .main s' := by
  rw [stepMain] at h
  split at h
  · next hmain =>
    obtain ⟨hjoin, h⟩ := Option.ite_none_right_eq_some.mp h
    split at h
    · next hsample => exact Option.some.inj h ▸ .noSample hmain hjoin hsample
    · next rtt hsample =>
      split at h
      · cases h
      · next summary hsummary => exact Option.some.inj h ▸ .summarize rtt summary hmain hjoin hsample hsummary
  · next printed hmain =>
    obtain ⟨hjoin, he⟩ := Option.ite_none_right_eq_some.mp h
    exact Option.some.inj he ▸ .finish printed hmain hjoin
  · cases h

theorem stepMain_of_summary {rtt : List UInt32} {summary : Summary} (hmain : s.main = .joining)
    (hjoin : joins .ended s.subscriber = true) (hsample : s.sample c = some rtt)
    (hsummary : sortAndSummarize q rtt c.maxIter (dropIdx c.dropRatio c.maxIter) = .ok summary) :
    s.step c q .main = some { s.sortTimes (q.sort cmpfunc rtt) with main := .summarized summary } := by
  simp only [step, stepMain, hmain, hjoin, hsample, hsummary, if_true]

theorem moves_of_step (h : s.step c q e = some s') : Moves c q s e s' := by
  cases e with
  | publisher a => exact moves_of_stepPublisher h
  | message m =>
    obtain ⟨hsub, h⟩ := Option.ite_none_right_eq_some.mp h
    obtain ⟨r, hr, rfl⟩ := Option.map_eq_some_iff.mp h
    exact .message m r (by simpa using hsub) (arrives_iff.mp hr)
  | subscriber j => exact moves_of_stepSubscriber h
  | main => exact moves_of_stepMain h

end Session

-- ════════════════════════════════════════════════════════════════════════
-- The semaphores
-- ════════════════════════════════════════════════════════════════════════

def Publisher.isStopped : Publisher → Bool
  | .stopped => true
  | _ => false

/-- Only a stop stops a publisher. -/
theorem count_isStopped_step {s t : State n} {a : Action n} (h : s.step a = some t)
    (hstop : ∀ i, a ≠ .stop i) :
    count Publisher.isStopped t.publisher = count Publisher.isStopped s.publisher := by
  have hgoto : ∀ {i p p'}, s.publisher i = p → p.isStopped = false → p'.isStopped = false →
      count Publisher.isStopped (s.goto i p').publisher = count Publisher.isStopped s.publisher := by
    intro i p p' hi hp hp'
    have hcount := count_update Publisher.isStopped s.publisher i p'
    rw [hi, hp, hp'] at hcount
    exact hcount
  cases a with
  | reset i | see i | post i | again i =>
    obtain ⟨hi, he⟩ := Option.ite_none_right_eq_some.mp h
    exact Option.some.inj he ▸ hgoto hi rfl rfl
  | publish i token =>
    obtain ⟨⟨hi, _⟩, he⟩ := Option.ite_none_right_eq_some.mp h
    exact Option.some.inj he ▸ hgoto hi rfl rfl
  | wait token | store token =>
    obtain ⟨_, he⟩ := Option.ite_none_right_eq_some.mp h
    exact Option.some.inj he ▸ rfl
  | stop i => exact absurd rfl (hstop i)

theorem fullCount_succ (maxIter : UInt32) (len : ℕ) :
    fullCount maxIter (len + 1) = fullCount maxIter len + if UInt32.ofNat len = maxIter then 1 else 0 := by
  simp [fullCount, List.range_succ, List.countP_append, List.countP_singleton]

/-- Before it wraps around, the counter is at `MAX_ITER` once. -/
theorem fullCount_of_le {maxIter : UInt32} {len : ℕ} (h : len ≤ UInt32.size) :
    fullCount maxIter len = if maxIter.toNat < len then 1 else 0 := by
  induction len with
  | zero => rfl
  | succ len ih =>
    have heq : UInt32.ofNat len = maxIter ↔ len = maxIter.toNat := by
      rw [← UInt32.toNat_inj, UInt32.toNat_ofNat_of_lt' h]
    rw [fullCount_succ, ih (Nat.le_of_succ_le h)]
    simp only [heq]
    grind

/-- The values of the semaphores go with where the threads are and with the messages. -/
structure Conserved (c : Settings) (es : List (Event k n)) (s : Session k n) : Prop where
  it : s.receiver.it = UInt32.ofNat (received es).length
  done : s.receiver.doneReceiving + count Subscriber.isWoken s.subscriber =
    fullCount c.maxIter (received es).length
  stop : s.receiver.stopPublish + count Publisher.isStopped s.tokens.publisher =
    kills es + count Subscriber.hasPosted s.subscriber

section Steps

variable {c : Settings} {q : Qsort UInt32} {es : List (Event k n)} {s s' : Session k n} {e : Event k n}

theorem received_concat (es : List (Event k n)) (e : Event k n) :
    received (es ++ [e]) = received es ++ e.data.toList := by
  rw [received, List.filterMap_append]
  cases h : e.data <;> simp [received, h]

theorem kills_concat (es : List (Event k n)) (e : Event k n) :
    kills (es ++ [e]) = kills es + e.isKill.toNat := by
  rw [kills, List.countP_append, kills]
  cases h : e.isKill <;> simp [h]

/-- A step of anything else than a message. -/
theorem Conserved.of_quiet (hdata : e.data = none) (hkill : e.isKill = false)
    (h : Conserved c es s) (hit : s'.receiver.it = s.receiver.it)
    (hdone : s'.receiver.doneReceiving + count Subscriber.isWoken s'.subscriber =
      s.receiver.doneReceiving + count Subscriber.isWoken s.subscriber)
    (hstop : s'.receiver.stopPublish + count Publisher.isStopped s'.tokens.publisher +
        count Subscriber.hasPosted s.subscriber =
      s.receiver.stopPublish + count Publisher.isStopped s.tokens.publisher +
        count Subscriber.hasPosted s'.subscriber) :
    Conserved c (es ++ [e]) s' := by
  have hr : received (es ++ [e]) = received es := by
    rw [received_concat, hdata]
    exact List.append_nil _
  have hk : kills (es ++ [e]) = kills es := by
    rw [kills_concat, hkill]
    rfl
  refine ⟨by rw [hr, hit, h.it], by rw [hr, hdone, h.done], ?_⟩
  rw [hk]
  have := h.stop
  omega

theorem Conserved.message {m : Message} {r : Receiver} (h : Conserved c es s)
    (harrives : Arrives c.maxIter s.receiver m r) :
    Conserved c (es ++ [.message m]) { s with receiver := r } := by
  obtain ⟨hit, hdone, hstop⟩ := h
  cases harrives with
  | kill htopic =>
    have hr : received (es ++ [.message m]) = received es := by
      rw [received_concat, Event.data, if_pos htopic]
      exact List.append_nil _
    have hk : kills (es ++ [.message m]) = kills es + 1 := by
      rw [kills_concat, Event.isKill, decide_eq_true htopic]
      rfl
    refine ⟨by rw [hr]; exact hit, by rw [hr]; exact hdone, ?_⟩
    rw [hk]
    dsimp only
    omega
  | record htopic hlt | full htopic hlt =>
    have hr : (received (es ++ [.message m])).length = (received es).length + 1 := by
      rw [received_concat, Event.data, if_neg htopic]
      exact List.length_append
    have hk : kills (es ++ [.message m]) = kills es := by
      rw [kills_concat, Event.isKill, decide_eq_false htopic]
      rfl
    refine ⟨?_, ?_, by rw [hk]; exact hstop⟩
    · rw [hr, UInt32.ofNat_add, ← hit]
      rfl
    · rw [hr, fullCount_succ, ← hit, ← hdone]
      grind

theorem Conserved.goto {j : Fin k} {x y : Subscriber} {r : Receiver} (h : Conserved c es s)
    (hj : s.subscriber j = x) (hit : r.it = s.receiver.it)
    (hdone : r.doneReceiving + y.isWoken.toNat = s.receiver.doneReceiving + x.isWoken.toNat)
    (hstop : r.stopPublish + x.hasPosted.toNat = s.receiver.stopPublish + y.hasPosted.toNat) :
    Conserved c (es ++ [.subscriber j]) { s.goto j y with receiver := r } := by
  have hwoken := count_update Subscriber.isWoken s.subscriber j y
  have hposted := count_update Subscriber.hasPosted s.subscriber j y
  rw [hj] at hwoken hposted
  refine h.of_quiet rfl rfl hit ?_ ?_
  · dsimp only [Session.goto]
    omega
  · dsimp only [Session.goto]
    omega

theorem Conserved.step (h : Conserved c es s) (hstep : s.step c q e = some s') :
    Conserved c (es ++ [e]) s' := by
  cases Session.moves_of_step hstep with
  | message m r _ harrives => exact h.message harrives
  | tokens a t hstop _ ha =>
    exact h.of_quiet rfl rfl rfl rfl (by simp only [count_isStopped_step ha hstop])
  | unacknowledged i token _ hi =>
    have hcount := count_update Publisher.isStopped s.tokens.publisher i .posted
    rw [hi] at hcount
    exact h.of_quiet rfl rfl rfl rfl (by dsimp only [State.goto]; simp_all [Publisher.isStopped])
  | stop i hpos hi =>
    have hcount := count_update Publisher.isStopped s.tokens.publisher i .stopped
    rw [hi] at hcount
    refine h.of_quiet rfl rfl rfl rfl ?_
    dsimp only [State.goto]
    change _ + 0 = _ + 1 at hcount
    omega
  | allocateReceive j hj | allocateRtt j hj | subscribe j hj | post j hj | leave j hj =>
    exact h.goto hj rfl rfl rfl
  | wake j hj hpos => exact h.goto hj rfl (Nat.sub_add_cancel hpos) rfl
  | noSample | summarize | finish => exact h.of_quiet rfl rfl rfl rfl rfl

/-- A run of the whole program. -/
def Session.run (c : Settings) (q : Qsort UInt32) (es : List (Event k n)) : Option (Session k n) :=
  Threads.run (fun s e => s.step c q e) es (Session.init k n)

theorem conserved_run (h : Session.run c q es = some s) : Conserved c es s := by
  refine run_invariant ⟨rfl, ?_, ?_⟩ Conserved.step h
  · exact (Nat.zero_add _).trans (count_const Subscriber.isWoken rfl)
  · exact ((Nat.zero_add _).trans (count_const Publisher.isStopped rfl)).trans
      ((Nat.zero_add _).trans (count_const Subscriber.hasPosted rfl)).symm

/-- Behind its first loop, `main` has joined the last subscriber. -/
def Session.Joined (s : Session k n) : Prop :=
  s.main ≠ .joining → ∀ j : Fin k, j.val + 1 = k → s.subscriber j = .ended

theorem joins_iff {m : ℕ} {α : Type} [DecidableEq α] {place : α} {threads : Fin m → α} :
    Session.joins place threads = true ↔ ∀ j : Fin m, j.val + 1 = m → threads j = place := by
  cases m with
  | zero => exact iff_of_true rfl fun j => j.elim0
  | succ m =>
    rw [Session.joins, decide_eq_true_iff]
    refine ⟨fun h j hj => ?_, fun h => h _ rfl⟩
    obtain rfl : j = Fin.last m := Fin.ext (Nat.succ.inj hj)
    exact h

theorem Session.Joined.goto {j : Fin k} {x : Subscriber} {r : Receiver} (h : s.Joined)
    (hj : s.subscriber j ≠ .ended) : Session.Joined { s.goto j x with receiver := r } := by
  intro hmain i hi
  have hne : i ≠ j := by
    rintro rfl
    exact hj (h hmain i hi)
  exact (Function.update_of_ne hne ..).trans (h hmain i hi)

theorem Session.Joined.step (h : s.Joined) (hstep : s.step c q e = some s') : s'.Joined := by
  cases Session.moves_of_step hstep with
  | tokens | unacknowledged | stop | message => exact h
  | allocateReceive j hj | allocateRtt j hj | subscribe j hj | wake j hj | post j hj | leave j hj =>
    exact h.goto (by rw [hj]; decide)
  | noSample _ hjoin | summarize _ _ _ hjoin => exact fun _ => joins_iff.mp hjoin
  | finish printed hmain => exact fun _ => h (by rw [hmain]; exact nofun)

theorem joined_run (h : Session.run c q es = some s) : s.Joined :=
  run_invariant (fun h => absurd rfl h) Session.Joined.step h

/-- **Who ends**: as long as the message counter does not wrap around, at most one subscriber is woken
up, and every publisher but one is stopped by a message. If it is not the last subscriber that is
woken up, `main` never gets to its summary. -/
theorem woken_le_one (hrun : Session.run c q es = some s) (hfew : (received es).length ≤ UInt32.size) :
    count Subscriber.isWoken s.subscriber ≤ 1 ∧
      count Publisher.isStopped s.tokens.publisher ≤ kills es + 1 ∧
      ∀ j : Fin k, (s.subscriber j).isWoken = true → j.val + 1 ≠ k → s.main = .joining := by
  have hcons := conserved_run hrun
  have hdone := hcons.done
  rw [fullCount_of_le hfew] at hdone
  have hwoken : count Subscriber.isWoken s.subscriber ≤ 1 := by
    split at hdone <;> omega
  have hposted : count Subscriber.hasPosted s.subscriber ≤ count Subscriber.isWoken s.subscriber :=
    count_le_count fun p hp => by cases p <;> first | rfl | cases hp
  refine ⟨hwoken, by have := hcons.stop; omega, fun j hj hlast => ?_⟩
  by_contra hmain
  have hpos : 0 < k := Nat.zero_lt_of_lt j.isLt
  let last : Fin k := ⟨k - 1, Nat.sub_one_lt_of_lt hpos⟩
  have hended : s.subscriber last = .ended := joined_run hrun hmain last (Nat.sub_add_cancel hpos)
  obtain rfl : j = last := eq_of_count_le_one hwoken hj (by rw [hended]; rfl)
  exact hlast (Nat.sub_add_cancel hpos)

/-- A message with an empty client id that was sent at time 0. -/
def emptyMessage (receiveTime : UInt64) : Message := ⟨[], fun _ => 0, 13, receiveTime⟩

def smallSettings : Settings := ⟨1, 1, 0⟩

/-- Two messages wake up the first of two subscribers. -/
def firstWoken : List (Event 2 0) :=
  [.subscriber 0, .subscriber 0, .subscriber 0, .message (emptyMessage 7), .message (emptyMessage 9),
    .subscriber 0]

theorem woken_le_one_first : ∃ s : Session 2 0,
    Session.run smallSettings Clib.mergeQsort firstWoken = some s ∧ (s.subscriber 0).isWoken = true ∧
      count Subscriber.isWoken s.subscriber ≤ 1 ∧ s.main = .joining := by
  obtain ⟨s, hrun, hwoken⟩ : ∃ s : Session 2 0,
      Session.run smallSettings Clib.mergeQsort firstWoken = some s ∧ (s.subscriber 0).isWoken = true :=
    ⟨_, rfl, rfl⟩
  obtain ⟨hone, -, hmain⟩ := woken_le_one hrun (by decide)
  exact ⟨s, hrun, hwoken, hone, hmain 0 hwoken (by decide)⟩

end Steps

end Wali.Mqtt
