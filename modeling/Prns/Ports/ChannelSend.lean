import Prns.Ports.Channel
import Prns.Verified.VecOps

/-!
# The sending side of a channel

Model of `links/channel/send.rs` on one link: sends are numbered, tracked until their proof
verifies, and sent again when their deadline passes. The window bounds how many sends are
outstanding, not how far apart their numbers are.

What the table, the interface and the seal make of an operation is given to it as an
argument. A packet is determined by its IV and its plaintext, since the link has one key; how
packets are hashed is a parameter. The cached earliest deadline of the channel is left out,
so the loop over due sends looks at the sends themselves.
-/

namespace Prns.Ports.Channel

open Verified.VecOps

abbrev CommandId : Type := Nat
abbrev Iv : Type := Nat
abbrev PacketHash : Type := List UInt8
abbrev SigningKey : Type := Nat

def channelMaxTries : Nat := 5
def packetHashLen : Nat := 32
def explicitProofPayloadLen : Nat := packetHashLen + 64

/-- A sealed packet. -/
structure Frame where
  iv : Iv
  plaintext : List UInt8
  deriving DecidableEq, Repr

inductive LinkPhase where
  | absent
  | pending
  | handshake
  | active (rtt : RttMillis) (peerSigning : SigningKey)
  deriving DecidableEq, Repr

inductive LinkDataError where
  | payloadTooLong
  | bufferTooShort
  deriving DecidableEq, Repr

inductive SendToChannelRejection where
  | noSuchLink
  | linkNotActive
  deriving DecidableEq, Repr

inductive SendToChannelFailure where
  | rejected (rejection : SendToChannelRejection)
  | writeFailed (error : LinkDataError)
  | windowFull
  | untrackable
  | timeout
  | linkClosed
  deriving DecidableEq, Repr

inductive SendToChannelWriteError where
  | linkVanished
  | untrackable
  | windowFull
  | frame (error : LinkDataError)
  deriving DecidableEq, Repr

def sendToChannelFailure : SendToChannelWriteError → SendToChannelFailure
  | .linkVanished => .rejected .noSuchLink
  | .untrackable => .untrackable
  | .windowFull => .windowFull
  | .frame error => .writeFailed error

/-- How a command ends: the round trip of a send that was proved, or the failure. -/
inductive Settlement where
  | delivered (rtt : RttMillis)
  | failed (failure : SendToChannelFailure)
  deriving DecidableEq, Repr

/-- A send that waits for its proof. -/
structure Outstanding where
  packetHash : PacketHash
  commandId : CommandId
  sequence : ChannelSequence
  messageType : MessageType
  body : List UInt8
  iv : Iv
  sentAt : InstantMillis
  timeoutAt : InstantMillis
  tries : Nat
  deriving DecidableEq, Repr

/-- The sending half of a row of the channel table. -/
structure SendRow where
  nextTx : ChannelSequence
  window : ChannelWindow
  outstanding : List Outstanding
  deriving DecidableEq, Repr

def SendRow.fresh : SendRow := ⟨0, .fresh, []⟩

/-- The link and its channel, as the sender knows them. -/
structure Sender where
  phase : LinkPhase
  row : Option SendRow
  deriving DecidableEq, Repr

def channelRetryTimeoutMs (rtt : RttMillis) (tries inFlightCount : Nat) : Nat :=
  let tries := min tries channelMaxTries
  let base := max (saturatingMul u64Max rtt 5 / 2) 25
  let ringScaled :=
    saturatingMul u64Max base
      (saturatingAdd u64Max (saturatingMul u64Max inFlightCount 2) 3)
  if tries = 0 then ringScaled / 3
  else saturatingMul u64Max ringScaled (3 ^ (tries - 1)) / 2 ^ tries

/-- `stretch_channel_deadlines`: deadlines are recomputed and only ever extended. -/
def SendRow.stretchChannelDeadlines (row : SendRow) (rtt : RttMillis) : SendRow :=
  { row with outstanding := row.outstanding.map fun send =>
      let stretched := saturatingAdd u64Max send.sentAt
        (channelRetryTimeoutMs rtt send.tries row.outstanding.length)
      if send.timeoutAt < stretched then { send with timeoutAt := stretched } else send }

/-- `ingest_send_to_channel`. -/
def Sender.ingestSendToChannel (sender : Sender) : Except SendToChannelFailure Unit :=
  match sender.phase with
  | .absent => .error (.rejected .noSuchLink)
  | .pending => .error (.rejected .linkNotActive)
  | .handshake => .error (.rejected .linkNotActive)
  | .active _ _ =>
      match sender.row with
      | none => .ok ()
      | some row =>
          if row.window.inFlightCountLimit ≤ row.outstanding.length then .error .windowFull
          else .ok ()

/-- The row that `write_commanded_send_to_channel` sends from: a channel that has nothing in
flight at sequence zero takes the window of its round trip. -/
def SendRow.opened (row : SendRow) (rtt : RttMillis) : SendRow :=
  if row.nextTx = 0 ∧ row.outstanding.length = 0 then { row with window := .forRtt rtt } else row

/-- `write_commanded_send_to_channel`. `hasRow` says that the table has room for a row,
`sealed` what becomes of the packet, and `hasSlot` that the row can track one more send. -/
def Sender.writeCommandedSendToChannel (packetHash : Frame → PacketHash) (sender : Sender)
    (id : CommandId) (message : MessageType × List UInt8) (now : InstantMillis) (iv : Iv)
    (hasRow : Bool) (sealed : Except LinkDataError Unit) (hasSlot : Bool) :
    Except SendToChannelWriteError Frame × Sender :=
  match sender.phase with
  | .absent => (.error .linkVanished, sender)
  | .pending => (.error .linkVanished, sender)
  | .handshake => (.error .linkVanished, sender)
  | .active rtt _ =>
      if sender.row.isNone && !hasRow then (.error .untrackable, sender)
      else
        let row := (sender.row.getD .fresh).opened rtt
        let kept := { sender with row := some row }
        if row.window.inFlightCountLimit ≤ row.outstanding.length then (.error .windowFull, kept)
        else
          match writeEnvelope message.1 row.nextTx message.2 channelPlaintextCap with
          | .error _ => (.error (.frame .payloadTooLong), kept)
          | .ok plaintext =>
              match sealed with
              | .error error => (.error (.frame error), kept)
              | .ok () =>
                  if hasSlot then
                    let frame : Frame := ⟨iv, plaintext⟩
                    let timeoutAt := saturatingAdd u64Max now
                      (channelRetryTimeoutMs rtt 0 (row.outstanding.length + 1))
                    let pushed : SendRow :=
                      { row with
                        nextTx := nextSequence row.nextTx
                        outstanding := row.outstanding ++ [⟨packetHash frame, id, row.nextTx,
                          message.1, message.2, iv, now, timeoutAt, 0⟩] }
                    (.ok frame,
                      { sender with row := some (pushed.stretchChannelDeadlines rtt) })
                  else (.error .windowFull, kept)

/-- A proof whose signature has to be verified. -/
structure ChannelAckVerifyOwed where
  packetHash : PacketHash
  signingKey : SigningKey
  signature : List UInt8
  arrivedAt : InstantMillis
  deriving DecidableEq, Repr

def Sender.prepareChannelAckVerify (sender : Sender) (payload : List UInt8)
    (arrivedAt : InstantMillis) : Option ChannelAckVerifyOwed :=
  if payload.length ≠ explicitProofPayloadLen then none
  else
    match sender.row with
    | none => none
    | some row =>
        let namedHash := payload.take packetHashLen
        let signature := payload.drop packetHashLen
        if row.outstanding.any fun send => send.packetHash == namedHash then
          match sender.phase with
          | .absent => none
          | .pending => none
          | .handshake => none
          | .active _ peerSigning => some ⟨namedHash, peerSigning, signature, arrivedAt⟩
        else none

/-- `resume_channel_ack_verify`: the sender afterwards, and the command that is settled. -/
def Sender.resumeChannelAckVerify (sender : Sender) (owed : ChannelAckVerifyOwed) (valid : Bool) :
    Sender × Option (CommandId × Settlement) :=
  if !valid then (sender, none)
  else
    match sender.row with
    | none => (sender, none)
    | some row =>
        match row.outstanding.findIdx? fun send => send.packetHash == owed.packetHash with
        | none => (sender, none)
        | some sub =>
            match sender.phase, row.outstanding[sub]? with
            | .active rtt peerSigning, some send =>
                if peerSigning ≠ owed.signingKey then (sender, none)
                else
                  ({ sender with row := some { row with
                      outstanding := swapRemove row.outstanding sub
                      window := row.window.growOnAck rtt } },
                    some (send.commandId, .delivered (owed.arrivedAt - send.sentAt)))
            | _, _ => (sender, none)

inductive DueSendVerdict where
  | orphanedByLink
  | exhausted
  | retry (rtt : RttMillis)
  deriving DecidableEq, Repr

def classifyDueSend (phase : LinkPhase) (tries : Nat) : DueSendVerdict :=
  match phase with
  | .active rtt _ => if channelMaxTries ≤ tries then .exhausted else .retry rtt
  | .absent => .orphanedByLink
  | .pending => .orphanedByLink
  | .handshake => .orphanedByLink

/-- What a handler leaves: the sender, the frames it put on the wire, and the commands it
settled. -/
structure Turn where
  sender : Sender
  frames : List Frame
  settled : List (CommandId × Settlement)

/-- The envelope of an outstanding send, sealed once more with the same IV. -/
def Outstanding.reseal (send : Outstanding) : Option Frame :=
  match writeEnvelope send.messageType send.sequence send.body channelPlaintextCap with
  | .error _ => none
  | .ok plaintext => some ⟨send.iv, plaintext⟩

/-- `retry_outstanding_send`. `emits` says which frames are sealed and leave. -/
def SendRow.retryOutstandingSend (row : SendRow) (sub : Nat) (send : Outstanding) (rtt : RttMillis) :
    SendRow :=
  let tries := send.tries + 1
  let timeoutAt := saturatingAdd u64Max send.sentAt
    (channelRetryTimeoutMs rtt tries row.outstanding.length)
  let retried : SendRow :=
    { row with
      outstanding := row.outstanding.set sub { send with tries := tries, timeoutAt := timeoutAt } }
  let stretched := retried.stretchChannelDeadlines rtt
  { stretched with window := stretched.window.shrinkOnLoss }

/-- `teardown_channel_link`: every send is settled and the link goes. -/
def settleAll : Nat → List Outstanding → List (CommandId × Settlement)
  | 0, _ => []
  | turns + 1, outstanding =>
      match outstanding with
      | [] => []
      | send :: _ =>
          (send.commandId, .failed .timeout) :: settleAll turns (swapRemove outstanding 0)

/-- One turn of `fire_due_channel_timeouts`, for the first send that is due. -/
def Sender.fireDue (sender : Sender) (now : InstantMillis) (emits : Frame → Bool) : Option Turn :=
  match sender.row with
  | none => none
  | some row =>
      match row.outstanding.findIdx? fun send => decide (send.timeoutAt ≤ now) with
      | none => none
      | some sub =>
          match row.outstanding[sub]? with
          | none => none
          | some send =>
              match classifyDueSend sender.phase send.tries with
              | .orphanedByLink =>
                  some ⟨{ sender with row := some { row with
                      outstanding := swapRemove row.outstanding sub } },
                    [], [(send.commandId, .failed .timeout)]⟩
              | .exhausted =>
                  some ⟨⟨.absent, none⟩, [], settleAll row.outstanding.length row.outstanding⟩
              | .retry rtt =>
                  some ⟨{ sender with row := some (row.retryOutstandingSend sub send rtt) },
                    send.reseal.toList.filter emits, []⟩

/-- `fire_due_channel_timeouts`, cut off after a number of turns. -/
def Sender.fireDueChannelTimeouts (now : InstantMillis) (emits : Frame → Bool) :
    Nat → Sender → Turn
  | 0, sender => ⟨sender, [], []⟩
  | turns + 1, sender =>
      match sender.fireDue now emits with
      | none => ⟨sender, [], []⟩
      | some turn =>
          let rest := turn.sender.fireDueChannelTimeouts now emits turns
          ⟨rest.sender, turn.frames ++ rest.frames, turn.settled ++ rest.settled⟩

/-! ## What the operations can do -/

@[simp] theorem SendRow.opened_nextTx (row : SendRow) (rtt : RttMillis) :
    (row.opened rtt).nextTx = row.nextTx := by
  unfold SendRow.opened
  split_ifs <;> rfl

@[simp] theorem SendRow.opened_outstanding (row : SendRow) (rtt : RttMillis) :
    (row.opened rtt).outstanding = row.outstanding := by
  unfold SendRow.opened
  split_ifs <;> rfl

/-- The row that tracks one more send. -/
def SendRow.track (row : SendRow) (send : Outstanding) (rtt : RttMillis) : SendRow :=
  SendRow.stretchChannelDeadlines
    { row with nextTx := nextSequence row.nextTx, outstanding := row.outstanding ++ [send] } rtt

theorem of_findIdx? {α : Type} {p : α → Bool} {xs : List α} {i : Nat} {x : α}
    (h : xs.findIdx? p = some i) (hx : xs[i]? = some x) : p x = true := by
  obtain ⟨hlt, hp, -⟩ := List.findIdx?_eq_some_iff_getElem.mp h
  rw [List.getElem?_eq_getElem hlt] at hx
  cases hx
  exact hp

namespace Sender

/-- A send is refused, opens a row and fails, or is tracked under the next number. -/
inductive Writes (packetHash : Frame → PacketHash) (sender : Sender) (id : CommandId)
    (message : MessageType × List UInt8) (now : InstantMillis) (iv : Iv) :
    Except SendToChannelWriteError Frame × Sender → Prop
  | refused (error : SendToChannelWriteError) :
      Writes packetHash sender id message now iv (.error error, sender)
  | opened {rtt : RttMillis} {key : SigningKey} (error : SendToChannelWriteError)
      (hphase : sender.phase = .active rtt key) :
      Writes packetHash sender id message now iv
        (.error error, { sender with row := some ((sender.row.getD .fresh).opened rtt) })
  | tracked {rtt : RttMillis} {key : SigningKey} {row : SendRow} {plaintext : List UInt8}
      (timeoutAt : InstantMillis) (hphase : sender.phase = .active rtt key)
      (hrow : row = (sender.row.getD .fresh).opened rtt)
      (henvelope : writeEnvelope message.1 row.nextTx message.2 channelPlaintextCap =
        .ok plaintext) :
      Writes packetHash sender id message now iv (.ok ⟨iv, plaintext⟩,
        { sender with row := some (row.track ⟨packetHash ⟨iv, plaintext⟩, id, row.nextTx,
          message.1, message.2, iv, now, timeoutAt, 0⟩ rtt) })

theorem writes (sender : Sender) (packetHash : Frame → PacketHash) (id : CommandId)
    (message : MessageType × List UInt8) (now : InstantMillis) (iv : Iv) (hasRow : Bool)
    (sealed : Except LinkDataError Unit) (hasSlot : Bool) :
    sender.Writes packetHash id message now iv
      (sender.writeCommandedSendToChannel packetHash id message now iv hasRow sealed hasSlot) := by
  unfold writeCommandedSendToChannel
  dsimp only
  repeat' split
  all_goals first
    | exact .refused _
    | exact .opened _ ‹_›
    | exact .tracked _ ‹_› rfl ‹_›

/-- A proof changes nothing, or retires the send that it names. -/
inductive Resumes (sender : Sender) (owed : ChannelAckVerifyOwed) (valid : Bool) :
    Sender × Option (CommandId × Settlement) → Prop
  | nothing : Resumes sender owed valid (sender, none)
  | retires {rtt : RttMillis} {row : SendRow} {sub : Nat} {send : Outstanding}
      (hvalid : valid = true) (hrow : sender.row = some row)
      (hsend : row.outstanding[sub]? = some send) (hhash : send.packetHash = owed.packetHash) :
      Resumes sender owed valid
        ({ sender with row := some { row with
            outstanding := swapRemove row.outstanding sub
            window := row.window.growOnAck rtt } },
          some (send.commandId, .delivered (owed.arrivedAt - send.sentAt)))

theorem resumes (sender : Sender) (owed : ChannelAckVerifyOwed) (valid : Bool) :
    sender.Resumes owed valid (sender.resumeChannelAckVerify owed valid) := by
  unfold resumeChannelAckVerify
  repeat' split
  all_goals try exact .nothing
  rename_i hvalid _ row hrow _ sub hfound _ _ rtt key send hphase hsend hkey
  have hhash := of_findIdx? hfound hsend
  exact .retires (by simpa using hvalid) hrow hsend (beq_iff_eq.mp hhash)

/-- What the turn for a due send can be: the send is dropped because the link is gone, all
sends are because it ran out of tries, or it is sent once more. -/
inductive Fires (sender : Sender) (now : InstantMillis) (emits : Frame → Bool) : Turn → Prop
  | orphaned {row : SendRow} {sub : Nat} {send : Outstanding} (hrow : sender.row = some row)
      (hsend : row.outstanding[sub]? = some send) (hdue : send.timeoutAt ≤ now) :
      Fires sender now emits ⟨{ sender with row := some { row with
        outstanding := swapRemove row.outstanding sub } }, [], [(send.commandId, .failed .timeout)]⟩
  | exhausted {row : SendRow} (hrow : sender.row = some row) :
      Fires sender now emits
        ⟨⟨.absent, none⟩, [], settleAll row.outstanding.length row.outstanding⟩
  | retried {rtt : RttMillis} {row : SendRow} {sub : Nat} {send : Outstanding}
      (hrow : sender.row = some row) (hsend : row.outstanding[sub]? = some send)
      (hdue : send.timeoutAt ≤ now) (htries : send.tries < channelMaxTries) :
      Fires sender now emits
        ⟨{ sender with row := some (row.retryOutstandingSend sub send rtt) },
          send.reseal.toList.filter emits, []⟩

theorem fires {sender : Sender} {now : InstantMillis} {emits : Frame → Bool} {turn : Turn}
    (h : sender.fireDue now emits = some turn) : sender.Fires now emits turn := by
  unfold fireDue at h
  repeat' split at h
  all_goals cases h
  · rename_i hrow _ _ hfound _ _ hsend _ _
    have hdue := of_findIdx? hfound hsend
    exact .orphaned hrow hsend (of_decide_eq_true hdue)
  · rename_i hrow _ _ hfound _ _ hsend _ _
    exact .exhausted hrow
  rename_i hrow _ _ hfound _ send hsend _ _ hverdict
  have hdue := of_findIdx? hfound hsend
  have htries : send.tries < channelMaxTries := by
    unfold classifyDueSend at hverdict
    split at hverdict
    · split_ifs at hverdict with hspent
      exact Nat.lt_of_not_le hspent
    all_goals cases hverdict
  exact .retried hrow hsend (of_decide_eq_true hdue) htries

end Sender

end Prns.Ports.Channel
