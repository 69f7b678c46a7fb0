import Mathlib.Tactic.SplitIfs
import Prns.Verified.Bytes

/-!
# Channels: sequences, windows and envelopes

Model of `links/channel/mod.rs`. A channel numbers its messages with 16 bits that wrap, keeps
a window that bounds how many sends may be in flight, and frames each message with its type,
its sequence and its length.
-/

namespace Prns.Ports.Channel

open Verified

abbrev MessageType : Type := UInt16
abbrev ChannelSequence : Type := UInt16

/-- `ChannelSequence::next`. -/
def nextSequence (sequence : ChannelSequence) : ChannelSequence := sequence + 1

theorem nextSequence_ofNat (n : Nat) : nextSequence (UInt16.ofNat n) = UInt16.ofNat (n + 1) := by
  rw [nextSequence, UInt16.ofNat_add]
  rfl

theorem ofNat_inj {n m : Nat} (hn : n < m + 65536 := by omega)
    (hm : m < n + 65536 := by omega) :
    UInt16.ofNat n = UInt16.ofNat m ↔ n = m := by
  constructor
  · intro h
    have hmod := congrArg UInt16.toNat h
    rw [UInt16.toNat_ofNat', UInt16.toNat_ofNat'] at hmod
    omega
  · rintro rfl
    rfl

def u32Max : Nat := 2 ^ 32 - 1
def u64Max : Nat := 2 ^ 64 - 1

def saturatingAdd (limit a b : Nat) : Nat := min (a + b) limit
def saturatingMul (limit a b : Nat) : Nat := min (a * b) limit

abbrev RttMillis : Type := Nat
abbrev InstantMillis : Type := Nat

inductive ChannelRttTier where
  | fast
  | medium
  | slow
  deriving DecidableEq, Repr

def fastCeiling : RttMillis := 180
def mediumCeiling : RttMillis := 750
def stopAndWaitThreshold : RttMillis := 1450

def rttTier (rtt : RttMillis) : ChannelRttTier :=
  if rtt ≤ fastCeiling then .fast
  else if rtt ≤ mediumCeiling then .medium
  else .slow

def demandsStopAndWait (rtt : RttMillis) : Bool := decide (stopAndWaitThreshold < rtt)

structure ChannelWindow where
  size : Nat
  max : Nat
  min : Nat
  flexibility : Nat
  fastRateRounds : Nat
  mediumRateRounds : Nat
  deriving DecidableEq, Repr

namespace ChannelWindow

def initial : Nat := 2
def minInitial : Nat := 2
def minLimitMedium : Nat := 5
def minLimitFast : Nat := 16
def maxSlow : Nat := 5
def maxMedium : Nat := 12
def maxFast : Nat := 48
def flexibilityInitial : Nat := 4
def fastRateThreshold : Nat := 10

def forRtt (rtt : RttMillis) : ChannelWindow :=
  if demandsStopAndWait rtt then ⟨1, 1, 1, 1, 0, 0⟩
  else ⟨initial, maxSlow, minInitial, flexibilityInitial, 0, 0⟩

/-- `ChannelWindow::default`. -/
def fresh : ChannelWindow := forRtt 0

def inFlightCountLimit (window : ChannelWindow) : Nat := window.size

def growOnAck (window : ChannelWindow) (rtt : RttMillis) : ChannelWindow :=
  let window := if window.size < window.max then { window with size := window.size + 1 } else window
  match rttTier rtt with
  | .slow => { window with fastRateRounds := 0, mediumRateRounds := 0 }
  | .medium =>
      let window :=
        { window with
          fastRateRounds := 0
          mediumRateRounds := saturatingAdd u32Max window.mediumRateRounds 1 }
      if window.max < maxMedium ∧ window.mediumRateRounds = fastRateThreshold then
        { window with max := maxMedium, min := minLimitMedium }
      else window
  | .fast =>
      let window :=
        { window with fastRateRounds := saturatingAdd u32Max window.fastRateRounds 1 }
      if window.max < maxFast ∧ window.fastRateRounds = fastRateThreshold then
        { window with max := maxFast, min := minLimitFast }
      else window

def shrinkOnLoss (window : ChannelWindow) : ChannelWindow :=
  if window.min < window.size then
    let window := { window with size := window.size - 1 }
    if window.min + window.flexibility < window.max then { window with max := window.max - 1 }
    else window
  else window

inductive Event where
  | ack (rtt : RttMillis)
  | loss

def step (window : ChannelWindow) : Event → ChannelWindow
  | .ack rtt => window.growOnAck rtt
  | .loss => window.shrinkOnLoss

/-- The bounds of a window whose size never falls below `floor`. A promotion raises `min` at
once and the size only follows, so `min` is bounded by `max` and not by `size`. -/
def Bounded (floor : Nat) (window : ChannelWindow) : Prop :=
  floor ≤ window.size ∧ window.size ≤ window.max ∧ window.max ≤ maxFast ∧
    floor ≤ window.min ∧ window.min ≤ window.max ∧ window.flexibility ≤ flexibilityInitial ∧
    window.min ≤ minLimitFast

theorem Bounded.step {window : ChannelWindow} {floor : Nat} (hfloor : floor ≤ minInitial)
    (h : Bounded floor window) (event : Event) : Bounded floor (window.step event) := by
  simp only [Bounded, minInitial, maxFast, minLimitFast] at h hfloor ⊢
  cases event with
  | ack rtt =>
    -- the size grows to at most the old `max`, and a promotion only raises `max`
    simp only [ChannelWindow.step, growOnAck, maxFast, maxMedium, minLimitFast, minLimitMedium]
    split <;> split <;> (try split) <;> (try dsimp only at *) <;> omega
  | loss =>
    simp only [ChannelWindow.step, shrinkOnLoss]
    split <;> (try split) <;> (try dsimp only at *) <;> omega

/-- **The window keeps its bounds**: size and floor stay below the ceiling, the size stays at
or above the floor it started from, and the 8-bit sums the code forms stay in range. -/
theorem window_stays_bounded (rtt : RttMillis) (events : List Event) :
    let window := events.foldl step (forRtt rtt)
    (forRtt rtt).min ≤ window.size ∧ window.size ≤ window.max ∧ window.max ≤ 48 ∧
      1 ≤ window.size ∧ 1 ≤ window.min ∧ window.min ≤ window.max ∧
      window.size + 1 < 2 ^ 8 ∧ window.min + window.flexibility < 2 ^ 8 := by
  have hmin : 1 ≤ (forRtt rtt).min ∧ (forRtt rtt).min ≤ minInitial := by
    unfold forRtt
    split <;> decide
  have hstart : Bounded (forRtt rtt).min (forRtt rtt) := by
    unfold Bounded forRtt
    split <;> decide
  have hrun := List.foldlRecOn events step hstart fun _ h event _ => h.step hmin.2 event
  simp only [Bounded, maxFast, minLimitFast, flexibilityInitial] at hrun
  omega

/-- Ten fast acknowledgements promote a fresh window: the floor rises past the size. -/
theorem window_floor_passes_size :
    ¬ ∀ (rtt : RttMillis) (events : List Event), (events.foldl step (forRtt rtt)).min ≤
      (events.foldl step (forRtt rtt)).size := fun h =>
  absurd (h 0 (List.replicate 10 (.ack 0))) (by decide)

end ChannelWindow

def channelEnvelopeHeaderLen : Nat := 6
def u16Max : Nat := 2 ^ 16 - 1

/-- `MAX_SEND_TO_CHANNEL_BODY_LEN`, the channel MDU of the broadcast MTU. -/
def maxSendToChannelBodyLen : Nat := 425

/-- `CHANNEL_PLAINTEXT_CAP`. -/
def channelPlaintextCap : Nat := channelEnvelopeHeaderLen + maxSendToChannelBodyLen

inductive EnvelopeError where
  | payloadTooLong
  | bufferTooShort
  | truncatedHeader
  | lengthMismatch
  deriving DecidableEq, Repr

/-- The bytes of an envelope: type, sequence and length, each big-endian, and the payload. -/
def envelopeBytes (messageType : MessageType) (sequence : ChannelSequence)
    (payload : List UInt8) : List UInt8 :=
  beBytes 2 messageType.toNat ++ beBytes 2 sequence.toNat ++ beBytes 2 payload.length ++ payload

/-- `write_envelope` into a buffer of `capacity` bytes. -/
def writeEnvelope (messageType : MessageType) (sequence : ChannelSequence) (payload : List UInt8)
    (capacity : Nat) : Except EnvelopeError (List UInt8) :=
  if u16Max < payload.length then .error .payloadTooLong
  else if capacity < channelEnvelopeHeaderLen + payload.length then .error .bufferTooShort
  else .ok (envelopeBytes messageType sequence payload)

structure Envelope where
  messageType : MessageType
  sequence : ChannelSequence
  payload : List UInt8
  deriving DecidableEq, Repr

def parseEnvelope (bytes : List UInt8) : Except EnvelopeError Envelope :=
  if bytes.length < channelEnvelopeHeaderLen then .error .truncatedHeader
  else
    let messageType := UInt16.ofNat (ofBeBytes (bytes.take 2))
    let sequence := UInt16.ofNat (ofBeBytes ((bytes.drop 2).take 2))
    let length := ofBeBytes ((bytes.drop 4).take 2)
    let payload := bytes.drop channelEnvelopeHeaderLen
    if payload.length ≠ length then .error .lengthMismatch
    else .ok ⟨messageType, sequence, payload⟩

variable {messageType : MessageType} {sequence : ChannelSequence}

theorem writeEnvelope_ok {payload bytes : List UInt8} {capacity : Nat}
    (h : writeEnvelope messageType sequence payload capacity = .ok bytes) :
    bytes = envelopeBytes messageType sequence payload ∧ payload.length ≤ u16Max := by
  unfold writeEnvelope at h
  split_ifs at h with hlong
  cases h
  exact ⟨rfl, Nat.le_of_not_lt hlong⟩

theorem parseEnvelope_envelopeBytes {payload : List UInt8} (h : payload.length ≤ u16Max) :
    parseEnvelope (envelopeBytes messageType sequence payload) =
      .ok ⟨messageType, sequence, payload⟩ := by
  have htype : ofBeBytes (beBytes 2 messageType.toNat) = messageType.toNat :=
    ofBeBytes_beBytes (by have := messageType.toNat_lt; omega)
  have hsequence : ofBeBytes (beBytes 2 sequence.toNat) = sequence.toNat :=
    ofBeBytes_beBytes (by have := sequence.toNat_lt; omega)
  have hlength : ofBeBytes (beBytes 2 payload.length) = payload.length :=
    ofBeBytes_beBytes (by rw [u16Max] at h; omega)
  have htotal : (envelopeBytes messageType sequence payload).length = 6 + payload.length := by
    simp [envelopeBytes]
    omega
  have htake : (envelopeBytes messageType sequence payload).take 2 = beBytes 2 messageType.toNat := by
    simp [envelopeBytes]
  have htake2 : ((envelopeBytes messageType sequence payload).drop 2).take 2 =
      beBytes 2 sequence.toNat := by
    simp [envelopeBytes]
  have htake4 : ((envelopeBytes messageType sequence payload).drop 4).take 2 =
      beBytes 2 payload.length := by
    simp [envelopeBytes, List.drop_append, List.take_append]
  have hdrop : (envelopeBytes messageType sequence payload).drop 6 = payload := by
    simp [envelopeBytes, List.drop_append, List.drop_eq_nil_of_le]
  unfold parseEnvelope
  rw [if_neg (by rw [htotal, channelEnvelopeHeaderLen]; omega)]
  rw [channelEnvelopeHeaderLen, hdrop, htake, htake2, htake4, htype, hsequence, hlength,
    if_neg (fun hne => hne rfl), UInt16.ofNat_toNat, UInt16.ofNat_toNat]

end Prns.Ports.Channel
