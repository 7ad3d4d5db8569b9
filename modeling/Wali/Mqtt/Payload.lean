import Mathlib.Data.List.Induction
import Wali.Clib

/-!
# The payload of the MQTT benchmark

A publisher writes its client id, a packet counter and the time into a buffer of `PAYLOAD_SIZE`
bytes; the callback of a subscriber takes them out again and records the round-trip time. Both
compute the places of the fields from the length of the client id.
-/

namespace Wali.Mqtt

open Clib (Bytes Memory)

/-- The options that the payload depends on. -/
structure Options where
  /-- `CLIENTID`. -/
  clientId : Bytes
  noNul : 0 ∉ clientId
  /-- `PAYLOAD_SIZE`. -/
  payloadSize : UInt32
  /-- `MAX_ITER`. -/
  maxIter : UInt32

/-- The topic that ends a publisher. -/
def pubkill : Bytes := [112, 117, 98, 107, 105, 108, 108]

-- ════════════════════════════════════════════════════════════════════════
-- The publisher
-- ════════════════════════════════════════════════════════════════════════

/-- A use of `ENCODE_PL`: the offset and the bytes. -/
structure Encode where
  offset : ℕ
  bytes : Bytes

def Encode.write (m : Memory) (e : Encode) : Memory := Clib.store m e.offset e.bytes

namespace Options

variable (o : Options)

/-- `bptr`, a 32-bit number. -/
def bptr : UInt32 := UInt32.ofNat (o.clientId.length + 1)

/-- The client id with its NUL. -/
def encodeId : Encode := ⟨0, o.clientId ++ [0]⟩

/-- The counter. -/
def encodeCounter (it : UInt32) : Encode := ⟨o.bptr.toNat, Clib.leBytes 4 it.toNat⟩

/-- The timestamp, behind the counter. -/
def encodeTime (ts : UInt64) : Encode := ⟨(o.bptr + 4).toNat, Clib.leBytes 8 ts.toNat⟩

end Options

/-- The variables of `publish_thread`. -/
structure Sender where
  payload : Memory
  it : UInt32

/-- Before the loop. What the buffer is filled with does not matter. -/
def Sender.start (o : Options) (fill : Memory) : Sender := ⟨o.encodeId.write fill, 0⟩

/-- The payload that is published next. -/
def Sender.packet (o : Options) (p : Sender) (ts : UInt64) : Memory :=
  (o.encodeTime ts).write ((o.encodeCounter p.it).write p.payload)

/-- One turn of the loop. -/
def Sender.send (o : Options) (p : Sender) (ts : UInt64) : Sender := ⟨p.packet o ts, p.it + 1⟩

/-- After packets with these timestamps. -/
def Sender.after (o : Options) (fill : Memory) (sent : List UInt64) : Sender :=
  sent.foldl (Sender.send o) (.start o fill)

-- ════════════════════════════════════════════════════════════════════════
-- The subscriber
-- ════════════════════════════════════════════════════════════════════════

/-- The counter and the time in a payload of `len` bytes, unless they are read from outside of it. -/
def decodePl (payload : Memory) (len : ℕ) : Option (UInt32 × UInt64) :=
  match Clib.strlen payload 0 len with
  | none => none
  | some n =>
    let msgPt := UInt32.ofNat (n + 1)
    let next := msgPt + 4
    if msgPt.toNat + 4 ≤ len ∧ next.toNat + 8 ≤ len then
      some (UInt32.ofNat (Clib.ofLeBytes (Clib.load payload msgPt.toNat 4)),
        UInt64.ofNat (Clib.ofLeBytes (Clib.load payload next.toNat 8)))
    else none

/-- The variables of the callback, and how often it posts the semaphores. -/
structure Receiver where
  it : UInt32
  receiveTs : ℕ → UInt64
  rttTs : ℕ → UInt32
  stopPublish : ℕ
  doneReceiving : ℕ

/-- `msgarrvd` at a time, with a message of `len` bytes. -/
def msgarrvd (maxIter : UInt32) (s : Receiver) (topic : Bytes) (payload : Memory) (len : ℕ)
    (receiveTime : UInt64) : Option Receiver :=
  if topic = pubkill then some { s with stopPublish := s.stopPublish + 1 }
  else if s.it < maxIter then
    (decodePl payload len).map fun (_, deliverTime) =>
      { s with
        it := s.it + 1
        receiveTs := Function.update s.receiveTs s.it.toNat receiveTime
        rttTs := Function.update s.rttTs s.it.toNat (receiveTime - deliverTime).toUInt32 }
  else
    some { s with
      it := s.it + 1
      doneReceiving := if s.it = maxIter then s.doneReceiving + 1 else s.doneReceiving }

/-- A packet is written inside its buffer, and a subscriber that still records gets out of it what
was put in. -/
structure PacketOk (o : Options) (it : UInt32) (ts : UInt64) (payload : Memory) : Prop where
  inside : ∀ e ∈ [o.encodeId, o.encodeCounter it, o.encodeTime ts],
    e.offset + e.bytes.length ≤ o.payloadSize.toNat
  decodes : decodePl payload o.payloadSize.toNat = some (it, ts)
  records : ∀ s topic receiveTime, topic ≠ pubkill → s.it < o.maxIter → ∃ s',
    msgarrvd o.maxIter s topic payload o.payloadSize.toNat receiveTime = some s' ∧
      s'.receiveTs s.it.toNat = receiveTime ∧
      ((s'.rttTs s.it.toNat).toNat : ℤ) = ((receiveTime.toNat : ℤ) - ts.toNat) % (UInt32.size : ℕ)

section Fields

variable {o : Options}

/-- The fields fit into the buffer. -/
def Options.Fits (o : Options) : Prop := o.clientId.length + 13 ≤ o.payloadSize.toNat

theorem Options.Fits.bptr (h : o.Fits) : o.bptr.toNat = o.clientId.length + 1 := by
  have hsize := o.payloadSize.toNat_lt
  unfold Options.Fits at h
  rw [Options.bptr, UInt32.toNat_ofNat']
  omega

theorem Options.Fits.time (h : o.Fits) : (o.bptr + 4).toNat = o.clientId.length + 5 := by
  have hsize := o.payloadSize.toNat_lt
  have hb := h.bptr
  unfold Options.Fits at h
  rw [UInt32.toNat_add, hb]
  change (o.clientId.length + 1 + 4) % _ = _
  omega

/-- The first write that does not fit is outside of the buffer. -/
theorem fits_of_inside {it : UInt32} {ts : UInt64}
    (h : ∀ e ∈ [o.encodeId, o.encodeCounter it, o.encodeTime ts],
      e.offset + e.bytes.length ≤ o.payloadSize.toNat) : o.Fits := by
  have hid := h o.encodeId (by simp)
  have hcounter := h (o.encodeCounter it) (by simp)
  have htime := h (o.encodeTime ts) (by simp)
  have hsize := o.payloadSize.toNat_lt
  simp only [Options.encodeId, Options.encodeCounter, Options.encodeTime, List.length_append,
    List.length_singleton, Clib.length_leBytes, Options.bptr, UInt32.toNat_add, UInt32.toNat_ofNat'] at hid hcounter htime
  change (_ + 4) % _ + 8 ≤ _ at htime
  unfold Options.Fits
  omega

/-- The client id is at the start of the payload. -/
def Options.HasId (o : Options) (m : Memory) : Prop :=
  Clib.load m 0 (o.clientId.length + 1) = o.clientId ++ [0]

theorem hasId_start (fill : Memory) : o.HasId (Sender.start o fill).payload := by
  have h := Clib.load_store_self fill 0 (o.clientId ++ [0])
  rw [List.length_append] at h
  exact h

/-- The counter and the time are written behind the client id. -/
theorem Options.HasId.packet {p : Sender} (h : o.HasId p.payload) (hfits : o.Fits) (ts : UInt64) :
    o.HasId (p.packet o ts) := by
  refine ((Clib.load_store_of_disjoint _ (Or.inl ?_)).trans
    (Clib.load_store_of_disjoint _ (Or.inl ?_))).trans h
  · change 0 + (o.clientId.length + 1) ≤ (o.bptr + 4).toNat
    rw [hfits.time]
    omega
  · change 0 + (o.clientId.length + 1) ≤ o.bptr.toNat
    rw [hfits.bptr]
    omega

theorem after_concat (fill : Memory) (sent : List UInt64) (ts : UInt64) :
    Sender.after o fill (sent ++ [ts]) = (Sender.after o fill sent).send o ts := by
  rw [Sender.after, List.foldl_append]
  rfl

theorem hasId_after (hfits : o.Fits) (fill : Memory) (sent : List UInt64) :
    o.HasId (Sender.after o fill sent).payload := by
  induction sent using List.reverseRecOn with
  | nil => exact hasId_start fill
  | append_singleton sent ts ih =>
    rw [after_concat]
    exact ih.packet hfits ts

/-- The counter is the number of packets before. -/
theorem it_after (fill : Memory) (sent : List UInt64) :
    (Sender.after o fill sent).it = UInt32.ofNat sent.length := by
  induction sent using List.reverseRecOn with
  | nil => rfl
  | append_singleton sent ts ih =>
    rw [after_concat, List.length_append, UInt32.ofNat_add, ← ih]
    rfl

/-- Both fields are read from where they were written. -/
theorem decodePl_packet {p : Sender} (h : o.HasId p.payload) (hfits : o.Fits) (ts : UInt64) :
    decodePl (p.packet o ts) o.payloadSize.toNat = some (p.it, ts) := by
  have hroom : o.clientId.length + 13 ≤ o.payloadSize.toNat := hfits
  have hlen : Clib.strlen (p.packet o ts) 0 o.payloadSize.toNat = some o.clientId.length :=
    Clib.strlen_of_load (h.packet hfits ts) o.noNul (by omega)
  have hcounter : Clib.load (p.packet o ts) o.bptr.toNat 4 = Clib.leBytes 4 p.it.toNat := by
    refine (Clib.load_store_of_disjoint _ (Or.inl ?_)).trans ?_
    · change o.bptr.toNat + 4 ≤ (o.bptr + 4).toNat
      rw [hfits.bptr, hfits.time]
    · have hself := Clib.load_store_self p.payload o.bptr.toNat (Clib.leBytes 4 p.it.toNat)
      rw [Clib.length_leBytes] at hself
      exact hself
  have htime : Clib.load (p.packet o ts) (o.bptr + 4).toNat 8 = Clib.leBytes 8 ts.toNat := by
    have hself := Clib.load_store_self ((o.encodeCounter p.it).write p.payload) (o.bptr + 4).toNat
      (Clib.leBytes 8 ts.toNat)
    rw [Clib.length_leBytes] at hself
    exact hself
  have hbounds : o.bptr.toNat + 4 ≤ o.payloadSize.toNat ∧ (o.bptr + 4).toNat + 8 ≤ o.payloadSize.toNat := by
    rw [hfits.bptr, hfits.time]
    omega
  rw [decodePl, hlen]
  change (if o.bptr.toNat + 4 ≤ _ ∧ (o.bptr + 4).toNat + 8 ≤ _ then _ else none) = _
  rw [if_pos hbounds]
  change some (UInt32.ofNat (Clib.ofLeBytes (Clib.load _ o.bptr.toNat 4)),
    UInt64.ofNat (Clib.ofLeBytes (Clib.load _ (o.bptr + 4).toNat 8))) = _
  have hit : p.it.toNat % Clib.byteRange 4 = p.it.toNat := Nat.mod_eq_of_lt p.it.toNat_lt
  have hts : ts.toNat % Clib.byteRange 8 = ts.toNat := Nat.mod_eq_of_lt ts.toNat_lt
  rw [hcounter, htime, Clib.ofLeBytes_leBytes, Clib.ofLeBytes_leBytes, hit, hts, UInt32.ofNat_toNat,
    UInt64.ofNat_toNat]

/-- The subtraction is done with 64 bits, and 32 of them are kept. -/
theorem toNat_rtt (receiveTime ts : UInt64) :
    (((receiveTime - ts).toUInt32.toNat : ℕ) : ℤ) =
      ((receiveTime.toNat : ℤ) - ts.toNat) % (UInt32.size : ℕ) := by
  have ht := ts.toNat_lt
  have hr := receiveTime.toNat_lt
  have hsize : UInt32.size = 4294967296 := rfl
  rw [UInt64.toNat_toUInt32, UInt64.toNat_sub, hsize]
  omega

end Fields

/-- **The payload**: in any run of a publisher, a packet is inside its buffer and is decoded to what
was encoded exactly if the client id leaves 13 bytes for its NUL and the two fields. -/
theorem packetOk_iff (o : Options) (fill : Memory) (sent : List UInt64) (ts : UInt64) :
    PacketOk o (UInt32.ofNat sent.length) ts ((Sender.after o fill sent).packet o ts) ↔ o.Fits := by
  constructor
  · intro h
    exact fits_of_inside h.inside
  · intro hfits
    have hroom : o.clientId.length + 13 ≤ o.payloadSize.toNat := hfits
    have hdecode := decodePl_packet (hasId_after hfits fill sent) hfits ts
    rw [it_after] at hdecode
    refine ⟨?_, hdecode, fun s topic receiveTime htopic hit => ?_⟩
    · intro e he
      simp only [List.mem_cons, List.not_mem_nil, or_false] at he
      rcases he with rfl | rfl | rfl
      · change 0 + (o.clientId ++ [0]).length ≤ _
        rw [List.length_append, List.length_singleton]
        omega
      · change o.bptr.toNat + (Clib.leBytes 4 _).length ≤ _
        rw [hfits.bptr, Clib.length_leBytes]
        omega
      · change (o.bptr + 4).toNat + (Clib.leBytes 8 _).length ≤ _
        rw [hfits.time, Clib.length_leBytes]
        omega
    · rw [msgarrvd, if_neg htopic, if_pos hit, hdecode]
      refine ⟨_, rfl, Function.update_self .., ?_⟩
      change ((Function.update s.rttTs s.it.toNat (receiveTime - ts).toUInt32 s.it.toNat).toNat : ℤ) = _
      rw [Function.update_self]
      exact toNat_rtt receiveTime ts

/-- The default client id, `test-client`, with `--size=16`. -/
def smallOptions : Options where
  clientId := [116, 101, 115, 116, 45, 99, 108, 105, 101, 110, 116]
  noNul := by decide
  payloadSize := 16
  maxIter := 10

/-- The timestamp is written behind the end of the buffer. -/
theorem time_outside :
    (smallOptions.encodeTime 0).offset = 16 ∧
    ∀ fill : Memory, ¬ PacketOk smallOptions 0 0 ((Sender.after smallOptions fill []).packet smallOptions 0) := by
  refine ⟨by decide, fun fill h => ?_⟩
  exact absurd (h.inside (smallOptions.encodeTime 0) (by simp)) (by decide)

end Wali.Mqtt
