import Wali.Mqtt.Session

/-!
# What the benchmark summarizes

With one subscriber the printed numbers are those of the first `MAX_ITER` messages, in any
interleaving of the threads.
-/

namespace Wali.Mqtt

open Clib (Qsort)
open Threads

variable {n : ℕ} {c : Settings} {q : Qsort UInt32} {es : List (Event 1 n)} {s s' : Session 1 n}
  {e : Event 1 n}

/-- A summary is that of the first messages. -/
structure FirstMessages (c : Settings) (q : Qsort UInt32) (messages : List Message) (summary : Summary)
    (rtt : List UInt32) : Prop where
  more : c.maxIter.toNat < messages.length
  times : rtt.map some = (messages.take c.maxIter.toNat).map Message.rtt
  summary : sortAndSummarize q rtt c.maxIter (dropIdx c.dropRatio c.maxIter) = .ok summary

/-- Before the summary every message has its time in the array. -/
structure Recorded (c : Settings) (q : Qsort UInt32) (es : List (Event 1 n)) (s : Session 1 n) : Prop where
  early : (s.subscriber 0).isSubscribed = false → received es = []
  times : s.main = .joining → ∀ i m, (received es)[i]? = some m → i < c.maxIter.toNat →
    m.rtt = some (s.receiver.rttTs i)
  printed : s.main ≠ .joining → ∃ summary, s.main.printed = some summary ∧
    ∃ rtt, FirstMessages c q (received es) summary rtt

theorem FirstMessages.append {messages : List Message} {summary : Summary} {rtt : List UInt32}
    (h : FirstMessages c q messages summary rtt) (ms : List Message) :
    FirstMessages c q (messages ++ ms) summary rtt where
  more := by
    rw [List.length_append]
    exact Nat.lt_add_right _ h.more
  times := by
    rw [List.take_append_of_le_length h.more.le]
    exact h.times
  summary := h.summary

/-- A step that neither receives a message nor changes the array. -/
theorem Recorded.of_quiet (h : Recorded c q es s) (hdata : e.data = none)
    (hsub : (s'.subscriber 0).isSubscribed = false → (s.subscriber 0).isSubscribed = false)
    (htimes : s'.receiver.rttTs = s.receiver.rttTs) (hmain : s'.main = s.main) :
    Recorded c q (es ++ [e]) s' := by
  have hr : received (es ++ [e]) = received es := by
    rw [received_concat, hdata]
    exact List.append_nil _
  refine ⟨fun hs => by rw [hr]; exact h.early (hsub hs), ?_, ?_⟩
  · rw [hr, hmain, htimes]
    exact h.times
  · rw [hr, hmain]
    exact h.printed

/-- Before it has subscribed, a subscriber may empty the array. -/
theorem Recorded.of_early (h : Recorded c q es s) (hdata : e.data = none)
    (hsub : (s.subscriber 0).isSubscribed = false) (hmain : s'.main = s.main) :
    Recorded c q (es ++ [e]) s' := by
  have hnil := h.early hsub
  have hr : received (es ++ [e]) = [] := by
    rw [received_concat, hdata, hnil]
    rfl
  refine ⟨fun _ => hr, fun _ i m hi => ?_, fun hne => ?_⟩
  · rw [hr] at hi
    cases hi
  · obtain ⟨_, _, _, hfirst⟩ := h.printed (hmain ▸ hne)
    have hmore := hfirst.more
    rw [hnil] at hmore
    exact absurd hmore (Nat.not_lt_zero _)

theorem Recorded.message {m : Message} {r : Receiver} (h : Recorded c q es s) (hcons : Conserved c es s)
    (hsub : m.topic = pubkill ∨ ∃ j, (s.subscriber j).isSubscribed = true)
    (harrives : Arrives c.maxIter s.receiver m r)
    (hfew : m.topic ≠ pubkill → (received es).length < UInt32.size) :
    Recorded c q (es ++ [.message m]) { s with receiver := r } := by
  have hit : m.topic ≠ pubkill → s.receiver.it.toNat = (received es).length := by
    intro htopic
    rw [hcons.it, UInt32.toNat_ofNat_of_lt' (hfew htopic)]
  have hprinted : s.main ≠ .joining → ∃ summary, s.main.printed = some summary ∧
      ∃ rtt, FirstMessages c q (received (es ++ [.message m])) summary rtt := by
    intro hmain
    obtain ⟨summary, hs, rtt, hfirst⟩ := h.printed hmain
    rw [received_concat]
    exact ⟨summary, hs, rtt, hfirst.append _⟩
  have hsubscribed : m.topic ≠ pubkill → (s.subscriber 0).isSubscribed = true := by
    intro htopic
    obtain ⟨j, hj⟩ := hsub.resolve_left htopic
    rwa [Subsingleton.elim j 0] at hj
  cases harrives with
  | kill htopic =>
    refine h.of_quiet ?_ id rfl rfl
    exact if_pos htopic
  | record htopic hlt time htime =>
    refine ⟨fun hs => absurd (hsubscribed htopic) (by rw [hs]; decide), fun hmain i m' hi hlt' => ?_, hprinted⟩
    rw [received_concat, Event.data, if_neg htopic] at hi
    change (received es ++ [m])[i]? = some m' at hi
    have hit := hit htopic
    rcases Nat.lt_trichotomy i (received es).length with hless | rfl | hmore
    · rw [List.getElem?_append_left hless] at hi
      dsimp only
      rw [Function.update_of_ne (by omega)]
      exact h.times hmain i m' hi hlt'
    · rw [List.getElem?_concat_length] at hi
      dsimp only
      rw [← Option.some.inj hi, htime, hit, Function.update_self]
    · rw [List.getElem?_eq_none (by rw [List.length_append]; exact hmore)] at hi
      cases hi
  | full htopic hlt =>
    refine ⟨fun hs => absurd (hsubscribed htopic) (by rw [hs]; decide), fun hmain i m' hi hlt' => ?_, hprinted⟩
    rw [received_concat] at hi
    have hit := hit htopic
    have hfull : c.maxIter.toNat ≤ s.receiver.it.toNat := Nat.le_of_not_lt hlt
    rw [List.getElem?_append_left (by omega)] at hi
    exact h.times hmain i m' hi hlt'

theorem Recorded.summarize {rtt : List UInt32} {summary : Summary} (h : Recorded c q es s)
    (hcons : Conserved c es s) (hmain : s.main = .joining) (hjoin : Session.joins .ended s.subscriber = true)
    (hsample : s.sample c = some rtt)
    (hsummary : sortAndSummarize q rtt c.maxIter (dropIdx c.dropRatio c.maxIter) = .ok summary)
    (hfew : (received es).length ≤ UInt32.size) : FirstMessages c q (received es) summary rtt := by
  have hended : s.subscriber 0 = .ended := joins_iff.mp hjoin 0 rfl
  have hmore : c.maxIter.toNat < (received es).length := by
    have hdone := hcons.done
    have hwoken : 0 < count Subscriber.isWoken s.subscriber := count_pos (i := 0) (by rw [hended]; rfl)
    rw [fullCount_of_le hfew] at hdone
    split at hdone
    · assumption
    · omega
  refine ⟨hmore, ?_, hsummary⟩
  have hrtt : rtt = (List.range c.maxIter.toNat).map s.receiver.rttTs := by
    rw [Session.sample] at hsample
    exact (Option.some.inj (Option.ite_none_right_eq_some.mp hsample).2).symm
  refine List.ext_getElem (by simp [hrtt]; omega) fun i hi hi' => ?_
  rw [List.length_map, List.length_take] at hi'
  have hlt : i < (received es).length := by omega
  rw [List.getElem_map, List.getElem_map, List.getElem_take,
    h.times hmain i _ (List.getElem?_eq_getElem hlt) (by omega)]
  simp [hrtt]

theorem subscriber_goto (s : Session 1 n) (j : Fin 1) (x : Subscriber) : (s.goto j x).subscriber 0 = x := by
  obtain rfl : j = 0 := Subsingleton.elim j 0
  exact Function.update_self 0 x s.subscriber

theorem Recorded.step (h : Recorded c q es s) (hcons : Conserved c es s) (hstep : s.step c q e = some s')
    (hfew : (received (es ++ [e])).length ≤ UInt32.size) : Recorded c q (es ++ [e]) s' := by
  rw [received_concat, List.length_append] at hfew
  have hquiet : e.data = none → received (es ++ [e]) = received es := by
    intro hdata
    rw [received_concat, hdata]
    exact List.append_nil _
  cases Session.moves_of_step hstep with
  | tokens | unacknowledged | stop => exact h.of_quiet rfl id rfl rfl
  | message m r hsub harrives =>
    refine h.message hcons hsub harrives fun htopic => ?_
    rw [Event.data, if_neg htopic] at hfew
    exact hfew
  | allocateReceive j hj | allocateRtt j hj | subscribe j hj =>
    refine h.of_early rfl ?_ rfl
    rw [← Subsingleton.elim j 0, hj]
    rfl
  | wake j hj | post j hj | leave j hj =>
    refine h.of_quiet rfl (fun hs => ?_) rfl rfl
    exact absurd (subscriber_goto s j _ ▸ hs) (by decide)
  | noSample hmain hjoin hsample =>
    have hended : s.subscriber 0 = .ended := joins_iff.mp hjoin 0 rfl
    have hsome : s.sample c ≠ none := by simp [Session.sample, List.finRange, hended]
    exact absurd hsample hsome
  | summarize rtt summary hmain hjoin hsample hsummary =>
    have hfirst := h.summarize hcons hmain hjoin hsample hsummary (Nat.le_of_add_right_le hfew)
    refine ⟨?_, fun h => (by cases h), fun _ => ⟨summary, rfl, rtt, ?_⟩⟩
    · rw [hquiet rfl]
      exact h.early
    · rw [hquiet rfl]
      exact hfirst
  | finish printed hmain =>
    obtain ⟨summary, hs, hfirst⟩ := h.printed (by rw [hmain]; exact Main.noConfusion)
    rw [hmain] at hs
    refine ⟨?_, fun h => (by cases h), fun _ => ⟨summary, hs, ?_⟩⟩
    · rw [hquiet rfl]
      exact h.early
    · rw [hquiet rfl]
      exact hfirst

theorem recorded_run (h : Session.run c q es = some s) (hfew : (received es).length ≤ UInt32.size) :
    Recorded c q es s := by
  refine (run_invariant (P := fun es s =>
    Conserved c es s ∧ ((received es).length ≤ UInt32.size → Recorded c q es s)) ?_ ?_ h).2 hfew
  · exact ⟨conserved_run (q := q) rfl, fun _ => ⟨fun _ => rfl, fun _ _ _ => nofun, fun h => absurd rfl h⟩⟩
  · rintro es u e u' ⟨hcons, hrec⟩ hstep
    refine ⟨hcons.step hstep, fun hfew => ?_⟩
    have hfew' : (received es).length ≤ UInt32.size := by
      rw [received_concat, List.length_append] at hfew
      exact Nat.le_of_add_right_le hfew
    exact (hrec hfew').step hcons hstep hfew

/-- **The printed sample**: when one subscriber runs and `main` gets behind its joins, more than
`MAX_ITER` messages have come, and what is printed are the numbers of the first `MAX_ITER` round-trip
times, whatever the threads and the callbacks do in between. -/
theorem printed_first_messages (hrun : Session.run c q es = some s)
    (hfew : (received es).length ≤ UInt32.size) (hmain : s.main ≠ .joining) :
    ∃ summary, s.main.printed = some summary ∧
      ∃ rtt, FirstMessages c q (received es) summary rtt :=
  (recorded_run hrun hfew).printed hmain

/-- The subscriber gets two messages and ends. -/
def smallRun : List (Event 1 0) :=
  [.subscriber 0, .subscriber 0, .subscriber 0, .message (emptyMessage 7), .message (emptyMessage 9),
    .subscriber 0, .subscriber 0, .subscriber 0]

theorem printed_first_messages_small : ∃ s summary,
    Session.run smallSettings Clib.mergeQsort (smallRun ++ [.main]) = some s ∧
      s.main.printed = some summary ∧
      ∃ rtt, FirstMessages smallSettings Clib.mergeQsort (received (smallRun ++ [.main])) summary rtt := by
  obtain ⟨t, ht, hmain, hjoin, hsample⟩ : ∃ t, Session.run smallSettings Clib.mergeQsort smallRun = some t ∧
      t.main = .joining ∧ Session.joins .ended t.subscriber = true ∧ t.sample smallSettings = some [7] :=
    ⟨_, rfl, rfl, rfl, rfl⟩
  have hsummary : sortAndSummarize Clib.mergeQsort [7] 1 (dropIdx 0 1) =
      .ok ⟨meanOf [7], [7].foldl (addSquare (meanOf [7])) 0, ([7].foldl addTime (0, 0)).2, [7]⟩ := by
    have hsort : Clib.mergeQsort.sort cmpfunc [7] = [7] := List.mergeSort_singleton 7
    rw [sortAndSummarize, hsort]
    exact summarize_ok (by decide) (by decide) (by decide) rfl
  have hrun := run_append_of_eq ht (run_singleton.trans (Session.stepMain_of_summary hmain hjoin hsample hsummary))
  obtain ⟨summary, hs, hfirst⟩ := printed_first_messages hrun (by decide) fun h => by cases h
  exact ⟨_, summary, hrun, hs, hfirst⟩

end Wali.Mqtt
