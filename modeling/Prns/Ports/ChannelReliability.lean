import Prns.Ports.ChannelReceive
import Prns.Ports.ChannelSend

/-!
# Reliability of a channel

One sender and one receiver of a channel, with a network between them that loses, repeats and
reorders packets: every packet that was ever put on the wire may arrive at any time, any number
of times, and so may every proof. Packets are authentic, distinct sends have distinct packet
hashes, and a signature verifies only if the receiver made it.

A receiver proves what it drops because it is out of its window, and a sender does not keep
its numbers within that window. So a message that overtakes an unacknowledged one by more
than 48 is dropped and acknowledged, and is never sent again. As long as every packet that
arrives is at most 48 ahead of the next message and less than a turn of the sequence behind
it, `acknowledged_message_is_kept` says that the delivered messages are a prefix of the
sent ones and that every acknowledged message is delivered or held in the reorder buffer.
-/

namespace Prns.Ports.Channel

open Verified.VecOps

/-- A send that was tracked, with its packet. -/
structure Sent where
  command : CommandId
  messageType : MessageType
  body : List UInt8
  frame : Frame
  deriving DecidableEq, Repr

def Sent.message (send : Sent) : Message := (send.messageType, send.body)

structure World where
  sender : Sender
  receiver : Option ReceiveRow
  /-- All packets that were ever put on the wire. -/
  frames : List Frame
  /-- The packets that the receiver has proved. -/
  proved : List PacketHash
  /-- Proofs that arrived and whose signature is being verified, or was. -/
  owed : List ChannelAckVerifyOwed
  sent : List Sent
  delivered : List Message
  settled : List (CommandId × Settlement)

/-- The link was just established. -/
def World.opened (rtt : RttMillis) (peerSigning : SigningKey) : World :=
  ⟨⟨.active rtt peerSigning, none⟩, none, [], [], [], [], [], []⟩

inductive Event where
  /-- A send is commanded. `emitted` says that its packet leaves. -/
  | send (id : CommandId) (message : Message) (now : InstantMillis) (iv : Iv) (hasRow : Bool)
      (sealed : Except LinkDataError Unit) (hasSlot emitted : Bool)
  /-- A packet of the wire arrives. `signs` says that a proof it is owed gets signed. -/
  | arrive (i : Nat) (hasRow hasSlot signs : Bool)
  | proof (payload : List UInt8) (arrivedAt : InstantMillis)
  | verified (i : Nat) (valid : Bool)
  | timeouts (turns : Nat) (now : InstantMillis) (emits : Frame → Bool)

section

variable (packetHash : Frame → PacketHash)

def World.step (w : World) : Event → World
  | .send id message now iv hasRow sealed hasSlot emitted =>
      match w.sender.ingestSendToChannel with
      | .error failure => { w with settled := w.settled ++ [(id, .failed failure)] }
      | .ok () =>
          match w.sender.writeCommandedSendToChannel packetHash id message now iv hasRow sealed
              hasSlot with
          | (.error error, sender) =>
              { w with
                sender := sender
                settled := w.settled ++ [(id, .failed (sendToChannelFailure error))] }
          | (.ok frame, sender) =>
              { w with
                sender := sender
                frames := if emitted then w.frames ++ [frame] else w.frames
                sent := w.sent ++ [⟨id, message.1, message.2, frame⟩] }
  | .arrive i hasRow hasSlot signs =>
      match w.frames[i]? with
      | none => w
      | some frame =>
          match parseEnvelope frame.plaintext with
          | .error _ => w
          | .ok envelope =>
              let out := receive w.receiver hasRow hasSlot envelope.sequence envelope.messageType
                envelope.payload
              { w with
                receiver := out.2.1
                delivered := w.delivered ++ out.2.2
                proved :=
                  if out.1.owesProof && signs then w.proved ++ [packetHash frame]
                  else w.proved }
  | .proof payload arrivedAt =>
      { w with owed := w.owed ++ (w.sender.prepareChannelAckVerify payload arrivedAt).toList }
  | .verified i valid =>
      match w.owed[i]? with
      | none => w
      | some owed =>
          let out := w.sender.resumeChannelAckVerify owed valid
          { w with sender := out.1, settled := w.settled ++ out.2.toList }
  | .timeouts turns now emits =>
      let out := w.sender.fireDueChannelTimeouts now emits turns
      { w with
        sender := out.sender
        frames := w.frames ++ out.frames
        settled := w.settled ++ out.settled }

def World.run (w : World) : List Event → World
  | [] => w
  | event :: events => (w.step packetHash event).run events

/-- Commands have identities of their own, and packets hashes of their own. -/
def World.fresh (w : World) : Event → Bool
  | .send id message now iv hasRow sealed hasSlot _ =>
      !(w.sent.any fun send => send.command == id) &&
        match (w.sender.writeCommandedSendToChannel packetHash id message now iv hasRow sealed
            hasSlot).1 with
        | .error _ => true
        | .ok frame => !(w.sent.any fun send => packetHash send.frame == packetHash frame)
  | _ => true

/-- A signature verifies only if the receiver made it. -/
def World.unforged (w : World) : Event → Bool
  | .verified i valid =>
      match w.owed[i]? with
      | none => true
      | some owed => !valid || w.proved.contains owed.packetHash
  | _ => true

/-- The condition on a step: a packet that arrives is at most 48 ahead of the next message,
and less than a turn of the sequence, but for the window, behind it. -/
def World.inReach (w : World) : Event → Bool
  | .arrive i _ _ _ =>
      match w.frames[i]? with
      | none => true
      | some frame =>
          match w.sent.findIdx? fun send => send.frame == frame with
          | none => true
          | some n => decide (n ≤ w.delivered.length + 48 ∧ w.delivered.length < n + 65488)
  | _ => true

/-- All steps of the run meet a condition. -/
def allAlong (p : World → Event → Bool) (w : World) : List Event → Bool
  | [] => true
  | event :: events => p w event && allAlong p (w.step packetHash event) events

/-- A send that waits is one of those that were sent, as it was sent. -/
structure Tracks (sent : List Sent) (send : Outstanding) (n : Nat) (s : Sent) : Prop where
  sent : sent[n]? = some s
  packetHash : send.packetHash = packetHash s.frame
  command : send.commandId = s.command
  sequence : send.sequence = UInt16.ofNat n
  messageType : send.messageType = s.messageType
  body : send.body = s.body
  iv : send.iv = s.frame.iv

/-- The sender's side: numbers are consecutive and what waits was sent. -/
structure Sending (sent : List Sent) (sender : Sender) : Prop where
  envelope : ∀ n s, sent[n]? = some s →
    s.frame.plaintext = envelopeBytes s.messageType (UInt16.ofNat n) s.body ∧
      s.body.length ≤ u16Max
  next : ∀ row, sender.row = some row → row.nextTx = UInt16.ofNat sent.length
  unopened : sender.row = none → ∀ rtt key, sender.phase = .active rtt key → sent = []
  tracked : ∀ row, sender.row = some row → ∀ send ∈ row.outstanding, ∃ n s,
    Tracks packetHash sent send n s

end

variable {packetHash : Frame → PacketHash} {sent : List Sent} {n : Nat} {s : Sent} {α : Type}
  {xs : List α} {x : α} {rtt : RttMillis} {id : CommandId} {frames : List Frame}

theorem getElem?_append_of_some (h : xs[n]? = some x) (ys : List α) : (xs ++ ys)[n]? = some x := by
  rw [List.getElem?_append_left (List.getElem?_eq_some_iff.mp h).1]
  exact h

theorem Tracks.mono {send : Outstanding} (h : Tracks packetHash sent send n s) (more : List Sent) :
    Tracks packetHash (sent ++ more) send n s := by
  exact { h with sent := getElem?_append_of_some h.sent more }

/-- Only deadlines and tries change. -/
structure SameSend (send send' : Outstanding) : Prop where
  packetHash : send'.packetHash = send.packetHash
  command : send'.commandId = send.commandId
  sequence : send'.sequence = send.sequence
  messageType : send'.messageType = send.messageType
  body : send'.body = send.body
  iv : send'.iv = send.iv

theorem SameSend.refl (send : Outstanding) : SameSend send send := ⟨rfl, rfl, rfl, rfl, rfl, rfl⟩

theorem Tracks.same {send send' : Outstanding}
    (h : Tracks packetHash sent send n s) (hsame : SameSend send send') :
    Tracks packetHash sent send' n s :=
  ⟨h.sent, hsame.packetHash.trans h.packetHash, hsame.command.trans h.command,
    hsame.sequence.trans h.sequence, hsame.messageType.trans h.messageType,
    hsame.body.trans h.body, hsame.iv.trans h.iv⟩

theorem mem_stretchChannelDeadlines {row : SendRow} {send : Outstanding}
    (h : send ∈ (row.stretchChannelDeadlines rtt).outstanding) :
    ∃ before ∈ row.outstanding, SameSend before send := by
  obtain ⟨before, hbefore, heq⟩ := List.mem_map.mp h
  refine ⟨before, hbefore, ?_⟩
  rw [← heq]
  dsimp only
  split_ifs
  · exact ⟨rfl, rfl, rfl, rfl, rfl, rfl⟩
  · exact SameSend.refl before

variable {sender : Sender} (h : Sending packetHash sent sender)

include h

theorem Sending.keep {row row' : SendRow} (hrow : sender.row = some row)
    (hnext : row'.nextTx = row.nextTx)
    (hsends : ∀ send ∈ row'.outstanding, ∃ before ∈ row.outstanding, SameSend before send) :
    Sending packetHash sent { sender with row := some row' } where
  envelope := h.envelope
  next := by
    rintro _ ⟨⟩
    exact hnext.trans (h.next row hrow)
  unopened := by
    rintro ⟨⟩
  tracked := by
    rintro _ ⟨⟩ send hsend
    obtain ⟨before, hbefore, hsame⟩ := hsends send hsend
    obtain ⟨n, s, htracks⟩ := h.tracked row hrow before hbefore
    exact ⟨n, s, htracks.same hsame⟩

omit h in
theorem mem_swapRemove {i : Nat} (hi : i < xs.length) (h : x ∈ swapRemove xs i) : x ∈ xs :=
  (swapRemove_perm xs i _ (List.getElem?_eq_getElem hi)).mem_iff.mpr (List.mem_cons_of_mem _ h)

theorem Sending.opened {key : SigningKey} (hphase : sender.phase = .active rtt key) :
    (sender.row.getD .fresh).nextTx = UInt16.ofNat sent.length ∧
      ∀ send ∈ (sender.row.getD .fresh).outstanding, ∃ n s, Tracks packetHash sent send n s := by
  cases hrow : sender.row with
  | none =>
    rw [h.unopened hrow rtt key hphase]
    exact ⟨rfl, nofun⟩
  | some row => exact ⟨h.next row hrow, h.tracked row hrow⟩

/-- A send that fails keeps the numbers; one that is tracked takes the next. -/
theorem Sending.write {message : Message} {now : InstantMillis} {iv : Iv}
    {out : Except SendToChannelWriteError Frame × Sender}
    (hout : sender.Writes packetHash id message now iv out) :
    match out with
    | (.error _, sender') => Sending packetHash sent sender'
    | (.ok frame, sender') =>
      Sending packetHash (sent ++ [⟨id, message.1, message.2, frame⟩]) sender' := by
  cases hout with
  | refused error => exact h
  | opened error hphase =>
    obtain ⟨hnext, htracked⟩ := h.opened hphase
    refine ⟨h.envelope, ?_, nofun, ?_⟩
    · rintro _ ⟨⟩
      simpa using hnext
    · rintro _ ⟨⟩
      simpa using htracked
  | @tracked rtt key row plaintext timeoutAt hphase hrow henvelope =>
    obtain ⟨hnext, htracked⟩ := h.opened hphase
    rw [← SendRow.opened_nextTx _ rtt, ← hrow] at hnext
    rw [← SendRow.opened_outstanding _ rtt, ← hrow] at htracked
    obtain ⟨hbytes, hlength⟩ := writeEnvelope_ok henvelope
    rw [hnext] at hbytes
    refine ⟨?_, ?_, nofun, ?_⟩
    · intro n s hs
      rcases getElem?_snoc hs with hs | ⟨rfl, rfl⟩
      · exact h.envelope n s hs
      · exact ⟨hbytes, hlength⟩
    · rintro _ ⟨⟩
      show nextSequence row.nextTx = _
      rw [hnext, nextSequence_ofNat, List.length_append, List.length_singleton]
    rintro _ ⟨⟩ send hsend
    obtain ⟨before, hbefore, hsame⟩ := mem_stretchChannelDeadlines hsend
    rcases List.mem_append.mp hbefore with hold | hnew
    · obtain ⟨n, s, htracks⟩ := htracked before hold
      exact ⟨n, s, (htracks.mono _).same hsame⟩
    · rw [List.mem_singleton] at hnew
      subst hnew
      exact ⟨sent.length, _, Tracks.same
        ⟨List.getElem?_concat_length, rfl, rfl, hnext, rfl, rfl, rfl⟩ hsame⟩

/-! ## Proofs and timeouts -/

theorem Sending.resume {owed : ChannelAckVerifyOwed} {valid : Bool}
    {out : Sender × Option (CommandId × Settlement)} (hout : sender.Resumes owed valid out) :
    Sending packetHash sent out.1 ∧ ∀ id settlement, out.2 = some (id, settlement) →
        valid = true ∧ ∃ (n : Nat) (s : Sent), sent[n]? = some s ∧ s.command = id ∧
          packetHash s.frame = owed.packetHash := by
  cases hout with
  | nothing => exact ⟨h, nofun⟩
  | retires hvalid hrow hsend hhash =>
    obtain ⟨hlt, -⟩ := List.getElem?_eq_some_iff.mp hsend
    obtain ⟨n, s, htracks⟩ := h.tracked _ hrow _ (List.mem_of_getElem? hsend)
    refine ⟨h.keep hrow rfl fun send hin => ⟨send, mem_swapRemove hlt hin, SameSend.refl send⟩, ?_⟩
    intro id settlement hsome
    cases hsome
    exact ⟨hvalid, n, s, htracks.sent, htracks.command.symm, htracks.packetHash.symm.trans hhash⟩

theorem Sending.reseal {send : Outstanding} (htracks : Tracks packetHash sent send n s)
    {frame : Frame} (hframe : send.reseal = some frame) : frame = s.frame := by
  unfold Outstanding.reseal at hframe
  cases henvelope : writeEnvelope send.messageType send.sequence send.body channelPlaintextCap with
  | error error =>
    rw [henvelope] at hframe
    cases hframe
  | ok plaintext =>
    rw [henvelope] at hframe
    cases hframe
    have hbytes := (writeEnvelope_ok henvelope).1
    rw [htracks.messageType, htracks.sequence, htracks.body,
      ← (h.envelope n s htracks.sent).1] at hbytes
    rw [htracks.iv, hbytes]

omit h in
/-- What a handler may do: it puts packets on the wire that were sent before, and settles no
command with success. -/
structure Resends (packetHash : Frame → PacketHash) (sent : List Sent) (turn : Turn) : Prop where
  sending : Sending packetHash sent turn.sender
  frames : ∀ frame ∈ turn.frames, ∃ (n : Nat) (s : Sent), sent[n]? = some s ∧ s.frame = frame
  settled : ∀ entry ∈ turn.settled, ∃ failure, entry.2 = .failed failure

omit h in
theorem settleAll_failed (turns : Nat) (outstanding : List Outstanding) :
    ∀ entry ∈ settleAll turns outstanding, ∃ failure, entry.2 = .failed failure := by
  induction turns generalizing outstanding with
  | zero => exact nofun
  | succ turns ih =>
    cases outstanding with
    | nil => exact nofun
    | cons send rest => exact List.forall_mem_cons.mpr ⟨⟨.timeout, rfl⟩, ih _⟩

theorem Sending.fireDue {now : InstantMillis} {emits : Frame → Bool} {turn : Turn}
    (hturn : sender.Fires now emits turn) : Resends packetHash sent turn := by
  cases hturn with
  | orphaned hrow hsend hdue =>
    obtain ⟨hlt, -⟩ := List.getElem?_eq_some_iff.mp hsend
    refine ⟨?_, nofun, ?_⟩
    · exact h.keep hrow rfl fun send hin => ⟨send, mem_swapRemove hlt hin, SameSend.refl send⟩
    · exact List.forall_mem_singleton.mpr ⟨.timeout, rfl⟩
  | exhausted hrow =>
    exact ⟨⟨h.envelope, nofun, nofun, nofun⟩, nofun, settleAll_failed _ _⟩
  | @retried rtt row sub send hrow hsend hdue htries =>
    refine ⟨h.keep hrow rfl fun after hin => ?_, ?_, nofun⟩
    · obtain ⟨retried, hretried, hsame⟩ := mem_stretchChannelDeadlines hin
      rcases List.mem_or_eq_of_mem_set hretried with hold | hnew
      · exact ⟨retried, hold, hsame⟩
      · subst hnew
        exact ⟨send, List.mem_of_getElem? hsend, hsame.packetHash, hsame.command, hsame.sequence,
          hsame.messageType, hsame.body, hsame.iv⟩
    intro frame hframe
    have hresealed : send.reseal = some frame := by
      simpa using (List.mem_filter.mp hframe).1
    obtain ⟨n, s, htracks⟩ := h.tracked row hrow send (List.mem_of_getElem? hsend)
    exact ⟨n, s, htracks.sent, (h.reseal htracks hresealed).symm⟩

omit h

theorem Sending.fireDueChannelTimeouts (now : InstantMillis)
    (emits : Frame → Bool) (turns : Nat) (h : Sending packetHash sent sender) :
    Resends packetHash sent (sender.fireDueChannelTimeouts now emits turns) := by
  induction turns generalizing sender with
  | zero => exact ⟨h, nofun, nofun⟩
  | succ turns ih =>
    rw [Sender.fireDueChannelTimeouts]
    cases hturn : sender.fireDue now emits with
    | none => exact ⟨h, nofun, nofun⟩
    | some turn =>
      have hfirst := h.fireDue (Sender.fires hturn)
      have hrest := ih hfirst.sending
      exact ⟨hrest.sending, List.forall_mem_append.mpr ⟨hfirst.frames, hrest.frames⟩,
        List.forall_mem_append.mpr ⟨hfirst.settled, hrest.settled⟩⟩

/-! ## The two sides together -/

def World.messages (w : World) : List Message := w.sent.map Sent.message

/-- The `n`-th message is delivered, or held in the reorder buffer. -/
def World.Keeps (w : World) (n : Nat) : Prop :=
  Holds w.messages w.delivered (w.receiver.getD .fresh).buffered n

structure World.Inv (packetHash : Frame → PacketHash) (w : World) : Prop where
  sending : Sending packetHash w.sent w.sender
  hashes : ∀ (n m : Nat) (s t : Sent), w.sent[n]? = some s → w.sent[m]? = some t →
    packetHash s.frame = packetHash t.frame → n = m
  commands : ∀ (n m : Nat) (s t : Sent), w.sent[n]? = some s → w.sent[m]? = some t →
    s.command = t.command → n = m
  frames : ∀ frame ∈ w.frames, ∃ (n : Nat) (s : Sent), w.sent[n]? = some s ∧ s.frame = frame
  receiving : Receiving w.messages w.delivered (w.receiver.getD .fresh)
  proved : ∀ hash ∈ w.proved, ∃ (n : Nat) (s : Sent), w.sent[n]? = some s ∧
    packetHash s.frame = hash ∧ w.Keeps n
  settled : ∀ id rtt, (id, Settlement.delivered rtt) ∈ w.settled → ∃ (n : Nat) (s : Sent),
    w.sent[n]? = some s ∧ s.command = id ∧ w.Keeps n

theorem Holds.more {sent delivered : List Message} {buffered : List Buffered}
    (h : Holds sent delivered buffered n) (more : List Message) :
    Holds (sent ++ more) delivered buffered n := by
  rcases h with hbefore | ⟨hlow, hhigh, entry, hentry, hsequence, hsent⟩
  · exact Or.inl hbefore
  · exact Or.inr ⟨hlow, hhigh, entry, hentry, hsequence, getElem?_append_of_some hsent more⟩

theorem Receiving.more {sent delivered : List Message} {row : ReceiveRow}
    (h : Receiving sent delivered row) (more : List Message) :
    Receiving (sent ++ more) delivered row where
  next := h.next
  isPrefix := h.isPrefix.trans (List.prefix_append sent more)
  ahead entry hentry := by
    obtain ⟨n, hlow, hhigh, hsequence, hsent⟩ := h.ahead entry hentry
    exact ⟨n, hlow, hhigh, hsequence, getElem?_append_of_some hsent more⟩
  nodup := h.nodup

variable {w : World}

open World

theorem World.Inv.settle (h : w.Inv packetHash) (hsending : Sending packetHash w.sent sender)
    (hframes : ∀ frame ∈ frames, ∃ (n : Nat) (s : Sent), w.sent[n]? = some s ∧ s.frame = frame)
    {settled : List (CommandId × Settlement)}
    (hsettled : ∀ entry ∈ settled, ∃ failure, entry.2 = .failed failure) :
    Inv packetHash { w with
      sender := sender, frames := w.frames ++ frames, settled := w.settled ++ settled } where
  sending := hsending
  hashes := h.hashes
  commands := h.commands
  frames := List.forall_mem_append.mpr ⟨h.frames, hframes⟩
  receiving := h.receiving
  proved := h.proved
  settled := by
    intro id rtt hentry
    rcases List.mem_append.mp hentry with hin | hin
    · exact h.settled id rtt hin
    · obtain ⟨failure, hfailure⟩ := hsettled _ hin
      cases hfailure

theorem frames_emitted (send : Sent)
    (h : ∀ frame ∈ frames, ∃ (n : Nat) (s : Sent), sent[n]? = some s ∧ s.frame = frame)
    (emitted : Bool) : ∀ frame ∈ (if emitted then frames ++ [send.frame] else frames),
      ∃ (n : Nat) (s : Sent), (sent ++ [send])[n]? = some s ∧ s.frame = frame := by
  intro frame hframe
  have hcases : frame ∈ frames ∨ frame = send.frame := by
    split_ifs at hframe
    · simpa using hframe
    · exact Or.inl hframe
  rcases hcases with hin | rfl
  · obtain ⟨n, s, hs, hsame⟩ := h frame hin
    exact ⟨n, s, getElem?_append_of_some hs _, hsame⟩
  · exact ⟨sent.length, send, List.getElem?_concat_length, rfl⟩

theorem distinct_snoc {β : Type} {f : Sent → β} {send : Sent}
    (h : ∀ (n m : Nat) (s t : Sent), sent[n]? = some s → sent[m]? = some t → f s = f t → n = m)
    (hnew : ∀ s ∈ sent, f s ≠ f send) (n m : Nat) (s t : Sent) (hs : (sent ++ [send])[n]? = some s)
    (ht : (sent ++ [send])[m]? = some t) (heq : f s = f t) : n = m := by
  rcases getElem?_snoc hs with hs' | ⟨rfl, rfl⟩ <;> rcases getElem?_snoc ht with ht' | ⟨rfl, rfl⟩
  · exact h n m s t hs' ht' heq
  · exact absurd heq (hnew s (List.mem_of_getElem? hs'))
  · exact absurd heq.symm (hnew t (List.mem_of_getElem? ht'))
  · rfl

theorem World.Inv.send (h : w.Inv packetHash) {message : Message} {frame : Frame}
    (hsending : Sending packetHash (w.sent ++ [⟨id, message.1, message.2, frame⟩]) sender)
    (hid : ∀ s ∈ w.sent, s.command ≠ id)
    (hhash : ∀ s ∈ w.sent, packetHash s.frame ≠ packetHash frame) (emitted : Bool) :
    Inv packetHash { w with
      sender := sender
      frames := if emitted then w.frames ++ [frame] else w.frames
      sent := w.sent ++ [⟨id, message.1, message.2, frame⟩] } := by
  have hmessages : (w.sent ++ [(⟨id, message.1, message.2, frame⟩ : Sent)]).map Sent.message =
      w.messages ++ [message] := by
    rw [List.map_append]
    rfl
  refine ⟨hsending, distinct_snoc h.hashes hhash, distinct_snoc h.commands hid, ?_, ?_, ?_, ?_⟩
  · exact frames_emitted ⟨id, message.1, message.2, frame⟩ h.frames emitted
  · show Receiving (List.map _ _) _ _
    rw [hmessages]
    exact h.receiving.more [message]
  · intro hash hin
    obtain ⟨n, s, hs, hsame, hkeeps⟩ := h.proved hash hin
    refine ⟨n, s, getElem?_append_of_some hs _, hsame, ?_⟩
    show Holds (List.map _ _) _ _ _
    rw [hmessages]
    exact hkeeps.more [message]
  · intro id' rtt hin
    obtain ⟨n, s, hs, hcommand, hkeeps⟩ := h.settled id' rtt hin
    refine ⟨n, s, getElem?_append_of_some hs _, hcommand, ?_⟩
    show Holds (List.map _ _) _ _ _
    rw [hmessages]
    exact hkeeps.more [message]

theorem World.Inv.arrive (h : w.Inv packetHash)
    (hs : w.sent[n]? = some s) (hahead : n ≤ w.delivered.length + 48)
    (hbehind : w.delivered.length < n + 65488) (hasRow hasSlot signs : Bool) :
    let out := receive w.receiver hasRow hasSlot (UInt16.ofNat n) s.messageType s.body
    Inv packetHash { w with
      receiver := out.2.1
      delivered := w.delivered ++ out.2.2
      proved :=
        if out.1.owesProof && signs then w.proved ++ [packetHash s.frame] else w.proved } := by
  have hmessage : w.messages[n]? = some (s.messageType, s.body) := by
    rw [messages, List.getElem?_map, hs]
    rfl
  have hreceived := receive_spec h.receiving hmessage hahead hbehind hasRow hasSlot
  refine ⟨h.sending, h.hashes, h.commands, h.frames, hreceived.receiving, ?_, ?_⟩
  · intro hash hin
    have hcases : hash ∈ w.proved ∨ hash = packetHash s.frame ∧
        (receive w.receiver hasRow hasSlot (UInt16.ofNat n) s.messageType s.body).1.owesProof =
          true := by
      split_ifs at hin with hproof
      · rw [Bool.and_eq_true] at hproof
        rcases List.mem_append.mp hin with hin | hin
        · exact Or.inl hin
        · exact Or.inr ⟨List.mem_singleton.mp hin, hproof.1⟩
      · exact Or.inl hin
    rcases hcases with hin | ⟨rfl, hproof⟩
    · obtain ⟨m, t, ht, hhash, hkeeps⟩ := h.proved hash hin
      exact ⟨m, t, ht, hhash, hreceived.kept m hkeeps⟩
    · exact ⟨n, s, hs, rfl, hreceived.proved hproof⟩
  · intro id rtt hin
    obtain ⟨m, t, ht, hcommand, hkeeps⟩ := h.settled id rtt hin
    exact ⟨m, t, ht, hcommand, hreceived.kept m hkeeps⟩

/-! ## Runs -/

theorem World.Inv.step (h : w.Inv packetHash) {event : Event}
    (hfresh : w.fresh packetHash event = true) (hunforged : w.unforged event = true)
    (hreach : w.inReach event = true) : (w.step packetHash event).Inv packetHash := by
  cases event with
  | send id message now iv hasRow sealed hasSlot emitted =>
    have hwrites := w.sender.writes packetHash id message now iv hasRow sealed hasSlot
    rw [World.fresh, Bool.and_eq_true, Bool.not_eq_true', List.any_eq_false] at hfresh
    have hid : ∀ s ∈ w.sent, s.command ≠ id := by
      intro s hs
      simpa using hfresh.1 s hs
    have hfails : ∀ (sender : Sender) (failure : SendToChannelFailure),
        Sending packetHash w.sent sender → World.Inv packetHash { w with
          sender := sender, settled := w.settled ++ [(id, .failed failure)] } := by
      intro sender failure hsending
      have hinv := h.settle hsending (fun _ hframe => absurd hframe List.not_mem_nil)
        (List.forall_mem_singleton (a := (id, Settlement.failed failure)).mpr ⟨failure, rfl⟩)
      rwa [List.append_nil] at hinv
    rw [World.step]
    cases w.sender.ingestSendToChannel with
    | error failure => exact hfails w.sender failure h.sending
    | ok _ =>
      cases hout : w.sender.writeCommandedSendToChannel packetHash id message now iv hasRow sealed
          hasSlot with
      | mk result sender =>
        rw [hout] at hwrites hfresh
        cases result with
        | error error => exact hfails sender _ (h.sending.write hwrites)
        | ok frame =>
          have hhash : ∀ s ∈ w.sent, packetHash s.frame ≠ packetHash frame := by
            have hnew := hfresh.2
            rw [Bool.not_eq_true', List.any_eq_false] at hnew
            intro s hs
            simpa using hnew s hs
          exact h.send (h.sending.write hwrites) hid hhash emitted
  | arrive i hasRow hasSlot signs =>
    rw [World.step]
    rw [World.inReach] at hreach
    cases hframe : w.frames[i]? with
    | none => exact h
    | some frame =>
      rw [hframe] at hreach
      dsimp only at hreach ⊢
      obtain ⟨n, s, hs, rfl⟩ := h.frames frame (List.mem_of_getElem? hframe)
      obtain ⟨hplaintext, hlength⟩ := h.sending.envelope n s hs
      rw [hplaintext, parseEnvelope_envelopeBytes hlength]
      -- The condition is about the number under which the packet was sent.
      have hrange : n ≤ w.delivered.length + 48 ∧ w.delivered.length < n + 65488 := by
        cases hfound : w.sent.findIdx? fun send => send.frame == s.frame with
        | none =>
          have hnot := List.findIdx?_eq_none_iff.mp hfound s (List.mem_of_getElem? hs)
          rw [beq_self_eq_true] at hnot
          cases hnot
        | some m =>
          rw [hfound] at hreach
          obtain ⟨hlt, hsame, -⟩ := List.findIdx?_eq_some_iff_getElem.mp hfound
          rw [beq_iff_eq] at hsame
          have heq : m = n :=
            h.hashes m n _ s (List.getElem?_eq_getElem hlt) hs (congrArg packetHash hsame)
          subst heq
          exact of_decide_eq_true hreach
      exact h.arrive hs hrange.1 hrange.2 hasRow hasSlot signs
  | proof payload arrivedAt =>
    exact ⟨h.sending, h.hashes, h.commands, h.frames, h.receiving, h.proved, h.settled⟩
  | verified i valid =>
    rw [World.step]
    rw [World.unforged] at hunforged
    cases howed : w.owed[i]? with
    | none => exact h
    | some owed =>
      rw [howed] at hunforged
      obtain ⟨hsending, hcommand⟩ := h.sending.resume (w.sender.resumes owed valid)
      refine ⟨hsending, h.hashes, h.commands, h.frames, h.receiving, h.proved, ?_⟩
      intro id rtt hin
      rcases List.mem_append.mp hin with hin | hin
      · exact h.settled id rtt hin
      rw [Option.mem_toList] at hin
      obtain ⟨hvalid, n, s, hs, hid, hhash⟩ := hcommand id _ hin
      -- The receiver made the proof, so it keeps the message of that packet.
      have hproved : owed.packetHash ∈ w.proved := by
        rw [hvalid] at hunforged
        simpa using hunforged
      obtain ⟨m, t, ht, hsame, hkeeps⟩ := h.proved _ hproved
      have heq : m = n := h.hashes m n t s ht hs (hsame.trans hhash.symm)
      exact ⟨n, s, hs, hid, heq ▸ hkeeps⟩
  | timeouts turns now emits =>
    have hresends := h.sending.fireDueChannelTimeouts now emits turns
    exact h.settle hresends.sending hresends.frames hresends.settled

theorem inv_opened (packetHash : Frame → PacketHash) (rtt : RttMillis) (peerSigning : SigningKey) :
    (opened rtt peerSigning).Inv packetHash where
  sending := ⟨nofun, nofun, fun _ _ _ _ => rfl, nofun⟩
  hashes := nofun
  commands := nofun
  frames := nofun
  receiving := receiving_fresh []
  proved := nofun
  settled := nofun

theorem World.Inv.run (h : w.Inv packetHash) (events : List Event)
    (hfresh : allAlong packetHash (fresh packetHash) w events = true)
    (hunforged : allAlong packetHash unforged w events = true)
    (hreach : allAlong packetHash inReach w events = true) :
    (w.run packetHash events).Inv packetHash := by
  induction events generalizing w with
  | nil => exact h
  | cons event events ih =>
    rw [allAlong, Bool.and_eq_true] at hfresh hunforged hreach
    exact ih (h.step hfresh.1 hunforged.1 hreach.1) hfresh.2 hunforged.2 hreach.2

/-- The delivered messages are a prefix of the sent ones, and a message whose send was settled
with success is among them or held in the reorder buffer. -/
structure Reliable (w : World) : Prop where
  inOrder : w.delivered <+: w.messages
  kept : ∀ (n : Nat) (s : Sent) (rtt : RttMillis), w.sent[n]? = some s →
    (s.command, Settlement.delivered rtt) ∈ w.settled → w.Keeps n

/--
**No acknowledged message is dropped**, in every run in which each packet that arrives is at
most 48 ahead of the next message and less than a turn of the sequence behind it.
-/
theorem acknowledged_message_is_kept (packetHash : Frame → PacketHash) (rtt : RttMillis)
    (peerSigning : SigningKey) (events : List Event)
    (hfresh : allAlong packetHash (World.fresh packetHash) (World.opened rtt peerSigning) events =
      true)
    (hunforged : allAlong packetHash World.unforged (World.opened rtt peerSigning) events = true)
    (hreach : allAlong packetHash World.inReach (World.opened rtt peerSigning) events = true) :
    Reliable ((World.opened rtt peerSigning).run packetHash events) := by
  have hinv := (inv_opened packetHash rtt peerSigning).run events hfresh hunforged hreach
  refine ⟨hinv.receiving.isPrefix, ?_⟩
  intro n s rtt hs hsettled
  obtain ⟨m, t, ht, hcommand, hkeeps⟩ := hinv.settled s.command rtt hsettled
  rw [← hinv.commands m n t s ht hs hcommand]
  exact hkeeps

def ivHash (frame : Frame) : PacketHash := UInt8.ofNat frame.iv :: List.replicate 31 0

/-- The message `k` of a run, under the IV `k`. -/
def sends (k : Nat) : Event := .send k (0, [UInt8.ofNat k]) 0 k true (.ok ()) true true

/-- The packet `k` arrives, and its proof, the `i`-th, gets back. -/
def acknowledges (i k : Nat) : List Event :=
  [.arrive k true true true, .proof (UInt8.ofNat k :: List.replicate 95 0) 0, .verified i true]

/-- The first packet is late: the second is acknowledged, then the first, and both are
delivered. -/
def swapped : List Event := [sends 0, sends 1] ++ acknowledges 0 1 ++ acknowledges 1 0

theorem acknowledged_message_is_kept_swapped :
    (allAlong ivHash (World.fresh ivHash) (World.opened 100 7) swapped = true ∧
      allAlong ivHash World.unforged (World.opened 100 7) swapped = true ∧
      allAlong ivHash World.inReach (World.opened 100 7) swapped = true ∧
      ((World.opened 100 7).run ivHash swapped).settled = [(1, .delivered 0), (0, .delivered 0)]) ∧
    Reliable ((World.opened 100 7).run ivHash swapped) :=
  ⟨by decide, acknowledged_message_is_kept ivHash 100 7 swapped (by decide +kernel)
    (by decide +kernel) (by decide +kernel)⟩

/-- The first packet is lost while 49 others are sent and acknowledged one by one; then it
arrives and is acknowledged. -/
def overtaken : List Event :=
  [sends 0] ++ (List.range 49).flatMap (fun i => sends (i + 1) :: acknowledges i (i + 1)) ++
    acknowledges 49 0

/-- The message that overtook the lost one by 49 is acknowledged and gone: nothing waits for a
proof any more, and it was not delivered. -/
theorem overtaking_message_is_lost :
    allAlong ivHash (World.fresh ivHash) (World.opened 100 7) overtaken = true ∧
      allAlong ivHash World.unforged (World.opened 100 7) overtaken = true ∧
      (49, .delivered 0) ∈ ((World.opened 100 7).run ivHash overtaken).settled ∧
      ((World.opened 100 7).run ivHash overtaken).delivered.length = 49 ∧
      (((World.opened 100 7).run ivHash overtaken).sender.row.map SendRow.outstanding) = some [] ∧
      ¬ Reliable ((World.opened 100 7).run ivHash overtaken) := by
  have hsettled : (49, .delivered 0) ∈ ((opened 100 7).run ivHash overtaken).settled := by
    decide +kernel
  have hdelivered : ((opened 100 7).run ivHash overtaken).delivered.length = 49 := by
    decide +kernel
  refine ⟨by decide +kernel, by decide +kernel, hsettled, hdelivered, by decide +kernel, ?_⟩
  intro h
  have hsent : ((opened 100 7).run ivHash overtaken).sent[49]? =
      some ⟨49, 0, [49], ⟨49, envelopeBytes 0 49 [49]⟩⟩ := by decide +kernel
  have hempty :
      (((opened 100 7).run ivHash overtaken).receiver.getD .fresh).buffered = [] := by
    decide +kernel
  rcases h.kept 49 _ 0 hsent hsettled with hbefore | ⟨-, -, entry, hentry, -⟩
  · omega
  · rw [hempty] at hentry
    exact absurd hentry List.not_mem_nil

end Prns.Ports.Channel
