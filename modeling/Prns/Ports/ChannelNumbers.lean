import Prns.Ports.ChannelReliability

/-!
# The numbers of a channel's sends

A send that fails leaves the next number and the ring of outstanding sends as they were; one
that succeeds adds one entry and takes one number. So the `n`-th send of a run carries the
number `n` modulo 65536.

Nothing keeps the numbers of the outstanding sends apart: a send that is never proved may wait
while 65535 later ones are sent and proved, and the next one takes its number.
-/

namespace Prns.Ports.Channel

open Verified Verified.VecOps
open Outstanding
open World
open Sender

def Sender.nextTx (sender : Sender) : ChannelSequence := (sender.row.getD .fresh).nextTx

def Sender.ring (sender : Sender) : List Outstanding := (sender.row.getD .fresh).outstanding

/-- A send without its deadline, which later sends extend. -/
def Outstanding.untimed (send : Outstanding) : Outstanding := { send with timeoutAt := 0 }

/-- A send fails and leaves number and ring, or takes the next number and one place. -/
structure AllOrNothing (packetHash : Frame → PacketHash) (sender : Sender) (id : CommandId)
    (message : Message) (now : InstantMillis) (iv : Iv)
    (out : Except SendToChannelWriteError Frame × Sender) : Prop where
  failed : ∀ error, out.1 = .error error → out.2.nextTx = sender.nextTx ∧ out.2.ring = sender.ring
  tracked : ∀ frame, out.1 = .ok frame →
    frame = ⟨iv, envelopeBytes message.1 sender.nextTx message.2⟩ ∧
      out.2.nextTx.toNat = (sender.nextTx.toNat + 1) % 65536 ∧
      out.2.ring.map Outstanding.untimed = sender.ring.map Outstanding.untimed ++
        [⟨packetHash frame, id, sender.nextTx, message.1, message.2, iv, now, 0, 0⟩]

variable {packetHash : Frame → PacketHash} {sender : Sender}

theorem map_stretchChannelDeadlines {β : Type} {f : Outstanding → β}
    (hf : ∀ send timeoutAt, f { send with timeoutAt := timeoutAt } = f send) (row : SendRow)
    (rtt : RttMillis) :
    (row.stretchChannelDeadlines rtt).outstanding.map f = row.outstanding.map f := by
  simp only [SendRow.stretchChannelDeadlines, List.map_map]
  apply List.map_congr_left
  intro send _
  simp only [Function.comp_apply]
  split_ifs
  · exact hf send _
  · rfl

theorem Sender.Writes.allOrNothing {id : CommandId} {message : Message} {now : InstantMillis}
    {iv : Iv} {out : Except SendToChannelWriteError Frame × Sender}
    (h : sender.Writes packetHash id message now iv out) :
    AllOrNothing packetHash sender id message now iv out := by
  cases h with
  | refused error => exact ⟨fun _ _ => ⟨rfl, rfl⟩, nofun⟩
  | opened error hphase => exact ⟨fun _ _ => by simp [nextTx, ring], nofun⟩
  | tracked timeoutAt hphase hrow henvelope =>
    refine ⟨nofun, ?_⟩
    intro frame hframe
    cases hframe
    have hbytes := (writeEnvelope_ok henvelope).1
    subst hrow hbytes
    refine ⟨by simp [nextTx], ?_, ?_⟩
    · simp [nextTx, SendRow.track, SendRow.stretchChannelDeadlines, nextSequence]
    · have hmap := @map_stretchChannelDeadlines _ untimed (fun _ _ => rfl)
      simp [ring, nextTx, SendRow.track, hmap, untimed]

/-! ## Runs -/

/-- The numbers on the wire: the `n`-th send carries `n`, and nothing else is sent. -/
structure World.Numbered (packetHash : Frame → PacketHash) (w : World) : Prop where
  sending : Sending packetHash w.sent w.sender
  frames : ∀ frame ∈ w.frames, ∃ (n : Nat) (s : Sent), w.sent[n]? = some s ∧ s.frame = frame

def World.Distinct (w : World) : Prop := (w.sender.ring.map Outstanding.sequence).Nodup

/-- The condition on a step: when a send is commanded, no send that waits was made a whole turn
of the sequence, 65536 sends, before. -/
def World.withinTurn (packetHash : Frame → PacketHash) (w : World) : Event → Bool
  | .send .. => w.sender.ring.all fun send =>
      match w.sent.findIdx? fun s => packetHash s.frame == send.packetHash with
      | none => true
      | some n => decide (w.sent.length < n + 65536)
  | _ => true

theorem nodup_swapRemove {ring : List Outstanding} {sub : Nat} {send : Outstanding}
    (h : (ring.map sequence).Nodup) (hsend : ring[sub]? = some send) :
    ((swapRemove ring sub).map sequence).Nodup := by
  have hperm := (swapRemove_perm ring sub send hsend).map sequence
  exact (List.nodup_cons.mp (hperm.nodup_iff.mp h)).2

/-- Retransmissions keep the numbers of the sends that still wait. -/
theorem distinct_fireDueChannelTimeouts (now : InstantMillis) (emits : Frame → Bool) (turns : Nat)
    (h : (sender.ring.map sequence).Nodup) :
    ((sender.fireDueChannelTimeouts now emits turns).sender.ring.map sequence).Nodup := by
  induction turns generalizing sender with
  | zero => exact h
  | succ turns ih =>
    rw [fireDueChannelTimeouts]
    cases hturn : sender.fireDue now emits with
    | none => exact h
    | some turn =>
      apply ih
      cases fires hturn with
      | orphaned hrow hsend hdue =>
        simp only [ring, hrow, Option.getD_some] at h ⊢
        exact nodup_swapRemove h hsend
      | exhausted hrow => exact List.nodup_nil
      | retried hrow hsend hdue htries =>
        simp only [ring, hrow, Option.getD_some] at h ⊢
        have hmap := @map_stretchChannelDeadlines _ sequence (fun _ _ => rfl)
        obtain ⟨hlt, rfl⟩ := List.getElem?_eq_some_iff.mp hsend
        simp only [SendRow.retryOutstandingSend, hmap, List.map_set]
        rwa [← List.getElem_map sequence (h := by simpa using hlt), List.set_getElem_self]

variable {w : World} (h : w.Numbered packetHash)
include h

theorem World.Numbered.next_not_mem {rtt : RttMillis} {key : SigningKey}
    (hphase : w.sender.phase = .active rtt key)
    (hturn : ∀ send ∈ w.sender.ring, ∀ n, w.sent.findIdx?
      (fun s => packetHash s.frame == send.packetHash) = some n → w.sent.length < n + 65536) :
    w.sender.nextTx ∉ w.sender.ring.map sequence := by
  obtain ⟨hnext, htracked⟩ := h.sending.opened hphase
  intro hin
  obtain ⟨send, hsend, hsame⟩ := List.mem_map.mp hin
  obtain ⟨n, s, htracks⟩ := htracked send hsend
  obtain ⟨hlt, hs⟩ := List.getElem?_eq_some_iff.mp htracks.sent
  -- The oldest send with this hash is not a turn old, so neither is this one.
  have hhash : (packetHash w.sent[n].frame == send.packetHash) = true := by
    rw [hs, htracks.packetHash, beq_self_eq_true]
  cases hfound : w.sent.findIdx? fun s => packetHash s.frame == send.packetHash with
  | none =>
    have hnot := List.findIdx?_eq_none_iff.mp hfound _ (List.getElem_mem hlt)
    rw [hhash] at hnot
    cases hnot
  | some first =>
    have hwithin := hturn send hsend first hfound
    obtain ⟨hfirst, -, hbefore⟩ := List.findIdx?_eq_some_iff_getElem.mp hfound
    have hle : first ≤ n := Nat.le_of_not_lt fun hlater => hbefore n hlater hhash
    rw [nextTx, hnext, htracks.sequence, ofNat_inj] at hsame
    omega

theorem World.Numbered.step (event : Event) :
    (w.step packetHash event).Numbered packetHash ∧
      (w.withinTurn packetHash event = true → w.Distinct → (w.step packetHash event).Distinct) := by
  cases event with
  | send id message now iv hasRow sealed hasSlot emitted =>
    rw [World.step]
    cases w.sender.ingestSendToChannel with
    | error failure => exact ⟨⟨h.sending, h.frames⟩, fun _ hdistinct => hdistinct⟩
    | ok _ =>
      have hwrites := w.sender.writes packetHash id message now iv hasRow sealed hasSlot
      generalize w.sender.writeCommandedSendToChannel packetHash id message now iv hasRow sealed
        hasSlot = out at hwrites
      have hsending := h.sending.write hwrites
      cases hwrites with
      | refused error => exact ⟨⟨hsending, h.frames⟩, fun _ hdistinct => hdistinct⟩
      | opened error hphase =>
        refine ⟨⟨hsending, h.frames⟩, fun _ hdistinct => ?_⟩
        simpa [World.Distinct, ring] using hdistinct
      | @tracked rtt key row plaintext timeoutAt hphase hrow henvelope =>
        have hframes := frames_emitted ⟨id, message.1, message.2, ⟨iv, plaintext⟩⟩ h.frames emitted
        refine ⟨⟨hsending, hframes⟩, fun hturn hdistinct => ?_⟩
        have hnew := h.next_not_mem hphase fun send hsend n hn => by
          have hwithin := List.all_eq_true.mp hturn send hsend
          rw [hn] at hwithin
          exact of_decide_eq_true hwithin
        subst hrow
        have hmap := @map_stretchChannelDeadlines _ sequence (fun _ _ => rfl)
        simp only [World.Distinct, ring, Option.getD_some, SendRow.track, hmap,
          List.map_append, List.map_singleton, SendRow.opened_outstanding, SendRow.opened_nextTx]
        refine List.nodup_append.mpr ⟨hdistinct, List.nodup_singleton _, ?_⟩
        rintro sequence hold _ hlast rfl
        rw [List.mem_singleton.mp hlast] at hold
        exact hnew hold
  | arrive i hasRow hasSlot signs =>
    rw [World.step]
    repeat' split
    all_goals exact ⟨⟨h.sending, h.frames⟩, fun _ hdistinct => hdistinct⟩
  | proof payload arrivedAt => exact ⟨⟨h.sending, h.frames⟩, fun _ hdistinct => hdistinct⟩
  | verified i valid =>
    rw [World.step]
    cases howed : w.owed[i]? with
    | none => exact ⟨h, fun _ hdistinct => hdistinct⟩
    | some owed =>
      have hresumes := w.sender.resumes owed valid
      refine ⟨⟨(h.sending.resume hresumes).1, h.frames⟩, fun _ hdistinct => ?_⟩
      dsimp only [World.Distinct]
      generalize w.sender.resumeChannelAckVerify owed valid = out at hresumes
      cases hresumes with
      | nothing => exact hdistinct
      | retires hvalid hrow hsend hhash =>
        simp only [World.Distinct, ring, hrow, Option.getD_some] at hdistinct ⊢
        exact nodup_swapRemove hdistinct hsend
  | timeouts turns now emits =>
    have hresends := h.sending.fireDueChannelTimeouts now emits turns
    refine ⟨⟨hresends.sending, ?_⟩, fun _ hdistinct =>
      distinct_fireDueChannelTimeouts now emits turns hdistinct⟩
    intro frame hframe
    rcases List.mem_append.mp hframe with hin | hin
    · exact h.frames frame hin
    · exact hresends.frames frame hin

theorem World.Numbered.run (events : List Event) :
    (w.run packetHash events).Numbered packetHash ∧
      (allAlong packetHash (withinTurn packetHash) w events = true → w.Distinct →
        (w.run packetHash events).Distinct) := by
  induction events generalizing w with
  | nil => exact ⟨h, fun _ hdistinct => hdistinct⟩
  | cons event events ih =>
    obtain ⟨hnumbered, hdistinct⟩ := h.step event
    obtain ⟨hrun, hrest⟩ := ih hnumbered
    refine ⟨hrun, fun hturn hbefore => ?_⟩
    rw [allAlong, Bool.and_eq_true] at hturn
    exact hrest hturn.2 (hdistinct hturn.1 hbefore)

omit h

/--
**A send is all or nothing**: every send of every sender fails without a trace or takes one
number and one place, the `n`-th send of every run carries `n` modulo 65536 and every packet on
the wire is that of a send, and the numbers of the outstanding sends differ, if no send waits
while a whole turn of later ones is made.
-/
theorem send_is_all_or_nothing (packetHash : Frame → PacketHash) :
    (∀ (sender : Sender) (id : CommandId) (message : Message) (now : InstantMillis) (iv : Iv)
      (hasRow : Bool) (sealed : Except LinkDataError Unit) (hasSlot : Bool),
      AllOrNothing packetHash sender id message now iv (sender.writeCommandedSendToChannel packetHash
        id message now iv hasRow sealed hasSlot)) ∧
    ∀ (rtt : RttMillis) (peerSigning : SigningKey) (events : List Event),
      (∀ n s, ((World.opened rtt peerSigning).run packetHash events).sent[n]? = some s →
        s.frame.plaintext = envelopeBytes s.messageType (UInt16.ofNat n) s.body) ∧
      (∀ frame ∈ ((World.opened rtt peerSigning).run packetHash events).frames,
        ∃ s ∈ ((World.opened rtt peerSigning).run packetHash events).sent, s.frame = frame) ∧
      (allAlong packetHash (World.withinTurn packetHash) (World.opened rtt peerSigning) events =
        true → ((World.opened rtt peerSigning).run packetHash events).Distinct) := by
  refine ⟨?_, ?_⟩
  · intro sender id message now iv hasRow sealed hasSlot
    exact (sender.writes packetHash id message now iv hasRow sealed hasSlot).allOrNothing
  intro rtt peerSigning events
  have hopened : (opened rtt peerSigning).Numbered packetHash :=
    ⟨⟨nofun, nofun, fun _ _ _ _ => rfl, nofun⟩, nofun⟩
  obtain ⟨hnumbered, hdistinct⟩ := hopened.run events
  refine ⟨fun n s hs => (hnumbered.sending.envelope n s hs).1, ?_, fun hturn =>
    hdistinct hturn List.nodup_nil⟩
  intro frame hframe
  obtain ⟨n, s, hs, hsame⟩ := hnumbered.frames frame hframe
  exact ⟨s, List.mem_of_getElem? hs, hsame⟩

theorem send_is_all_or_nothing_two :
    ((World.opened 100 7).run ivHash [sends 0, sends 1]).sender.ring.map Outstanding.sequence =
        [0, 1] ∧
      ((World.opened 100 7).run ivHash [sends 0, sends 1]).Distinct :=
  ⟨by decide, ((send_is_all_or_nothing ivHash).2 100 7 [sends 0, sends 1]).2.2 (by decide)⟩

def wideHash (frame : Frame) : PacketHash := beBytes 32 frame.iv

/-- The send `k` is made and its proof, the `i`-th, gets back. -/
def lap (i k : Nat) : List Event :=
  [sends k, .proof (beBytes 32 k ++ List.replicate 64 0) 0, .verified i true]

/-- The first send is never proved, and `k` later ones are. -/
def laps : Nat → List Event
  | 0 => [sends 0]
  | k + 1 => laps k ++ lap k (k + 1)

/-- Only the first send waits after `k` later ones. -/
structure Lapped (k : Nat) (w : World) : Prop where
  owed : w.owed.length = k
  waits : ∃ window first, w.sender = ⟨.active 100 7, some ⟨UInt16.ofNat (k + 1), window, [first]⟩⟩ ∧
    2 ≤ window.size ∧ first.sequence = 0 ∧ first.packetHash = beBytes 32 0

theorem World.run_snoc (w : World) (events more : List Event) :
    w.run packetHash (events ++ more) = (w.run packetHash events).run packetHash more := by
  induction events generalizing w with
  | nil => rfl
  | cons event events ih => exact ih _

variable {k : Nat}

theorem beBytes_ne (hk : k < 65536) : beBytes 32 0 ≠ beBytes 32 (k + 1) := by
  intro heq
  have hsame := congrArg ofBeBytes heq
  rw [ofBeBytes_beBytes (by decide), ofBeBytes_beBytes (by omega)] at hsame
  omega

theorem Lapped.send (h : Lapped k w) : ∃ window first second,
    (w.step wideHash (sends (k + 1))).sender =
        ⟨.active 100 7, some ⟨UInt16.ofNat (k + 1) + 1, window, [first, second]⟩⟩ ∧
      (w.step wideHash (sends (k + 1))).owed = w.owed ∧ 2 ≤ window.size ∧
      first.sequence = 0 ∧ first.packetHash = beBytes 32 0 ∧
      second.sequence = UInt16.ofNat (k + 1) ∧ second.packetHash = beBytes 32 (k + 1) := by
  obtain ⟨window, first, hsender, hsize, hsequence, hhash⟩ := h.waits
  have hopen : ¬ window.size ≤ 1 := by omega
  simp [step, sends, hsender, ingestSendToChannel, writeCommandedSendToChannel,
    ChannelWindow.inFlightCountLimit, hopen, SendRow.opened, writeEnvelope, u16Max,
    channelPlaintextCap, channelEnvelopeHeaderLen, maxSendToChannelBodyLen,
    SendRow.stretchChannelDeadlines, nextSequence]
  refine ⟨hsize, ?_, ?_, rfl⟩
  · split_ifs <;> exact hsequence
  · split_ifs <;> exact hhash

theorem Lapped.lap (h : Lapped k w) (hk : k < 65536) :
    Lapped (k + 1) (w.run wideHash (lap k (k + 1))) := by
  obtain ⟨window, first, second, hsender, howed, hsize, hsequence, hhash, -, hsecond⟩ := h.send
  have hlength := h.owed
  have hfirst := beBytes_ne hk
  rw [Channel.lap, run]
  generalize w.step wideHash _ = w' at hsender howed ⊢
  rw [← howed] at hlength
  subst hlength
  have hgrown : window.size ≤ (window.growOnAck 100).size := by
    unfold ChannelWindow.growOnAck
    dsimp only
    repeat' split
    all_goals simp
  refine ⟨?_, window.growOnAck 100, first, ?_, by omega, hsequence, hhash⟩
  · simp [run, step, prepareChannelAckVerify, hsender, hsecond,
      explicitProofPayloadLen, packetHashLen]
  · simp [run, step, prepareChannelAckVerify, hsender, hsecond, hhash, hfirst,
      explicitProofPayloadLen, packetHashLen, resumeChannelAckVerify, List.findIdx?_cons,
      swapRemove]

theorem lapped (k : Nat) (hk : k ≤ 65536) : Lapped k ((opened 100 7).run wideHash (laps k)) := by
  induction k with
  | zero => exact ⟨by decide, .forRtt 100, _, rfl, by decide, by decide, by decide⟩
  | succ k ih =>
    rw [laps, run_snoc]
    exact (ih (by omega)).lap (by omega)

/-- The first send still waits when the send a turn later takes its number. -/
theorem send_takes_number_in_use :
    ¬ ((World.opened 100 7).run wideHash (laps 65535 ++ [sends (65535 + 1)])).Distinct := by
  have hlapped := lapped 65535 (by omega)
  rw [run_snoc]
  generalize (opened 100 7).run wideHash (laps 65535) = w at hlapped ⊢
  obtain ⟨window, first, second, hsender, -, -, hfirst, -, hsecond, -⟩ := hlapped.send
  rw [run, run, Distinct, ring, hsender]
  simp [hfirst, hsecond]

end Prns.Ports.Channel
