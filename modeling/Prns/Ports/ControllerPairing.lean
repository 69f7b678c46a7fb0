import Prns.Ports.PairingExchange

/-!
# The controller's side of pairing

Model of `controller_pairing`: the controller sends a begin, takes the signed offer of a
target, commits to the transcript once its user has approved it, and owes the storing of
an access once the completion of the target verifies.
-/

namespace Prns.Ports.RemoteControlControllerPairing

open RemoteControl
open Pairing

inductive WindowError where
  | deadlineNotFuture (startedAt expiresAt : Nat)

structure Window where
  startedAt : Nat
  expiresAt : Nat
  startedAt_lt : startedAt < expiresAt

def Window.new (startedAt expiresAt : Nat) : Except WindowError Window :=
  if h : expiresAt ≤ startedAt then .error (.deadlineNotFuture startedAt expiresAt)
  else .ok ⟨startedAt, expiresAt, Nat.lt_of_not_le h⟩

inductive AttemptWindowError where
  | pairingWindowElapsed (offeredAt pairingExpiresAt : Nat)

structure AttemptWindow where
  offeredAt : Nat
  attemptTimeout : RemoteControlPairingAttemptTimeout
  expiresAt : Nat

/-- `saturating_add` of an instant. -/
def saturatingAdd (instant duration : Nat) : Nat := min (instant + duration) (2 ^ 64 - 1)

def AttemptWindow.new (offeredAt : Nat) (attemptTimeout : RemoteControlPairingAttemptTimeout)
    (pairingWindow : Window) : Except AttemptWindowError AttemptWindow :=
  if pairingWindow.expiresAt ≤ offeredAt then
    .error (.pairingWindowElapsed offeredAt pairingWindow.expiresAt)
  else
    .ok ⟨offeredAt, attemptTimeout,
      min (saturatingAdd offeredAt attemptTimeout.duration) pairingWindow.expiresAt⟩

inductive Phase (Digest : Type) where
  | idle
  | awaitingOffer (context : RemoteControlPairingContext)
      (controller : RemoteControlControllerIdentity) (window : Window)
  | awaitingApproval (transcript : RemoteControlPairingTranscript) (window : AttemptWindow)
  | awaitingCompletion (transcript : RemoteControlPairingTranscript) (window : AttemptWindow)
  | persisting (attemptId : Digest) (context : RemoteControlPairingContext)
      (access : RemoteControlTargetAccess)

inductive Activity (Digest : Type) where
  | awaitingOffer
  | awaitingApproval (attemptId : Digest)
  | awaitingCompletion (attemptId : Digest)
  | persisting (attemptId : Digest)

inductive Aborted (Digest : Type) where
  | awaitingOffer (context : RemoteControlPairingContext)
  | awaitingApproval (attemptId : Digest) (context : RemoteControlPairingContext)
  | awaitingCompletion (attemptId : Digest) (context : RemoteControlPairingContext)

inductive BeginOutcome (Digest : Type) where
  | beginOwed (begin : RemoteControlPairingBegin) (context : RemoteControlPairingContext)
      (expiresAt : Nat)
  | busy (active : Activity Digest)
  | pairingUnavailable (reason : WindowError)

inductive ReceiveOfferOutcome (Digest : Type) where
  | confirmationRequired (attemptId : Digest)
  | expired (expired : Aborted Digest)
  | rejected (reason : RemoteControlPairingOfferVerificationError)
  | noActiveAttempt
  | unexpected (active : Activity Digest)
  | pairingUnavailable (reason : AttemptWindowError)

inductive ApproveOutcome (Digest : Type) where
  | commitOwed (attemptId : Digest) (commit : RemoteControlPairingCommit Digest)
      (context : RemoteControlPairingContext) (expiresAt : Nat)
  | expired (expired : Aborted Digest)
  | noActiveAttempt
  | offerNotReceived
  | attemptMismatch (requested active : Digest)
  | persistenceInProgress (attemptId : Digest)

inductive RejectOutcome (Digest : Type) where
  | rejected (aborted : Aborted Digest)
  | expired (expired : Aborted Digest)
  | noActiveAttempt
  | offerNotReceived
  | attemptMismatch (requested active : Digest)
  | alreadyApproved (attemptId : Digest)
  | persistenceInProgress (attemptId : Digest)

inductive ReceiveCompletedOutcome (Digest : Type) where
  | persistenceOwed (attemptId : Digest)
  | expired (expired : Aborted Digest)
  | rejected (attemptId : Digest)
      (reason : RemoteControlPairingCompletedVerificationError Digest)
  | noActiveAttempt
  | offerNotReceived
  | approvalRequired (attemptId : Digest)
  | alreadyReceived (attemptId : Digest)

inductive PersistOutcome (Digest : Type) where
  | completed (attemptId : Digest) (context : RemoteControlPairingContext)
      (access : RemoteControlTargetAccess)
  | noPersistenceOwed
  | attemptMismatch (persisted active : Digest)

inductive FailPersistenceOutcome (Digest : Type) where
  | failed (attemptId : Digest) (context : RemoteControlPairingContext)
      (access : RemoteControlTargetAccess)
  | noPersistenceOwed
  | attemptMismatch (failed active : Digest)

inductive ExpireOutcome (Digest : Type) where
  | expired (aborted : Aborted Digest)
  | notDue (expiresAt : Nat)
  | noActiveAttempt
  | persistenceInProgress (attemptId : Digest)

/-- The outcome of `close_link`, and of `request_failed`, which does the same. -/
inductive LinkAbort (Digest : Type) where
  | aborted (aborted : Aborted Digest)
  | unrelatedLink
  | noActiveAttempt
  | persistenceInProgress (attemptId : Digest)

/-! ## Operations -/

variable {Digest Signature : Type}

section

variable [DecidableEq Digest] (crypto : PairingCrypto Digest Signature)

def activityFor : Phase Digest → Option (Activity Digest)
  | .awaitingOffer _ _ _ => some .awaitingOffer
  | .awaitingApproval transcript _ => some (.awaitingApproval (transcript.digest crypto))
  | .awaitingCompletion transcript _ => some (.awaitingCompletion (transcript.digest crypto))
  | .persisting attemptId _ _ => some (.persisting attemptId)
  | .idle => none

/-- `take_expired_exchange`; a phase for which it answers is left idle. -/
def takeExpiredExchange (phase : Phase Digest) (now : Nat) : Option (Aborted Digest) :=
  match phase with
  | .awaitingOffer context _ window =>
      if window.expiresAt ≤ now then some (.awaitingOffer context) else none
  | .awaitingApproval transcript window =>
      if window.expiresAt ≤ now then
        some (.awaitingApproval (transcript.digest crypto) transcript.context)
      else none
  | .awaitingCompletion transcript window =>
      if window.expiresAt ≤ now then
        some (.awaitingCompletion (transcript.digest crypto) transcript.context)
      else none
  | .idle => none
  | .persisting _ _ _ => none

def begin (phase : Phase Digest) (controller : RemoteControlControllerIdentity)
    (context : RemoteControlPairingContext) (invitationCode : Bytes 4)
    (startedAt pairingExpiresAt : Nat) : Phase Digest × BeginOutcome Digest :=
  match activityFor crypto phase with
  | some active => (phase, .busy active)
  | none =>
      match Window.new startedAt pairingExpiresAt with
      | .error reason => (phase, .pairingUnavailable reason)
      | .ok window =>
          (.awaitingOffer context controller window,
            .beginOwed (.new crypto controller context.endpoint invitationCode) context
              window.expiresAt)

def receiveOffer (phase : Phase Digest) (offer : RemoteControlPairingOffer Signature)
    (receivedAt : Nat) : Phase Digest × ReceiveOfferOutcome Digest :=
  match takeExpiredExchange crypto phase receivedAt with
  | some expired => (.idle, .expired expired)
  | none =>
      match phase with
      | .awaitingOffer context controller window =>
          match offer.verifyController crypto context controller with
          | .error reason => (phase, .rejected reason)
          | .ok transcript =>
              match AttemptWindow.new receivedAt transcript.attemptTimeout window with
              | .error reason => (.idle, .pairingUnavailable reason)
              | .ok attemptWindow =>
                  (.awaitingApproval transcript attemptWindow,
                    .confirmationRequired (transcript.digest crypto))
      | .idle => (.idle, .noActiveAttempt)
      | .awaitingApproval transcript _ =>
          (phase, .unexpected (.awaitingApproval (transcript.digest crypto)))
      | .awaitingCompletion transcript _ =>
          (phase, .unexpected (.awaitingCompletion (transcript.digest crypto)))
      | .persisting attemptId _ _ => (phase, .unexpected (.persisting attemptId))

def approve (phase : Phase Digest) (requested : Digest) (now : Nat) :
    Phase Digest × ApproveOutcome Digest :=
  match takeExpiredExchange crypto phase now with
  | some expired => (.idle, .expired expired)
  | none =>
      match phase with
      | .idle => (.idle, .noActiveAttempt)
      | .awaitingOffer _ _ _ => (phase, .offerNotReceived)
      | .awaitingApproval transcript window =>
          if requested ≠ transcript.digest crypto then
            (phase, .attemptMismatch requested (transcript.digest crypto))
          else
            (.awaitingCompletion transcript window,
              .commitOwed (transcript.digest crypto) (.new crypto transcript) transcript.context
                window.expiresAt)
      -- The commit is sent again, whichever attempt was asked for.
      | .awaitingCompletion transcript window =>
          (phase, .commitOwed (transcript.digest crypto) (.new crypto transcript)
            transcript.context window.expiresAt)
      | .persisting attemptId _ _ => (phase, .persistenceInProgress attemptId)

def reject (phase : Phase Digest) (requested : Digest) (now : Nat) :
    Phase Digest × RejectOutcome Digest :=
  match takeExpiredExchange crypto phase now with
  | some expired => (.idle, .expired expired)
  | none =>
      match phase with
      | .idle => (.idle, .noActiveAttempt)
      | .awaitingOffer _ _ _ => (phase, .offerNotReceived)
      | .awaitingApproval transcript _ =>
          if requested ≠ transcript.digest crypto then
            (phase, .attemptMismatch requested (transcript.digest crypto))
          else
            (.idle, .rejected (.awaitingApproval (transcript.digest crypto) transcript.context))
      | .awaitingCompletion transcript _ => (phase, .alreadyApproved (transcript.digest crypto))
      | .persisting attemptId _ _ => (phase, .persistenceInProgress attemptId)

def receiveCompleted (phase : Phase Digest)
    (completed : RemoteControlPairingCompleted Digest Signature) (receivedAt : Nat) :
    Phase Digest × ReceiveCompletedOutcome Digest :=
  match takeExpiredExchange crypto phase receivedAt with
  | some expired => (.idle, .expired expired)
  | none =>
      match phase with
      | .idle => (.idle, .noActiveAttempt)
      | .awaitingOffer _ _ _ => (phase, .offerNotReceived)
      | .awaitingApproval transcript _ => (phase, .approvalRequired (transcript.digest crypto))
      | .awaitingCompletion transcript _ =>
          match completed.verify crypto transcript with
          | some reason => (phase, .rejected (transcript.digest crypto) reason)
          | none =>
              (.persisting (transcript.digest crypto) transcript.context
                  (.ofPermissions transcript.target transcript.permissions),
                .persistenceOwed (transcript.digest crypto))
      | .persisting attemptId _ _ => (phase, .alreadyReceived attemptId)

/-- The access that the controller owes to storage for the attempt. -/
def targetAccess (phase : Phase Digest) (attemptId : Digest) : Option RemoteControlTargetAccess :=
  match phase with
  | .persisting active _ access => if active ≠ attemptId then none else some access
  | .idle => none
  | .awaitingOffer _ _ _ => none
  | .awaitingApproval _ _ => none
  | .awaitingCompletion _ _ => none

def persistenceSucceeded (phase : Phase Digest) (persisted : Digest) :
    Phase Digest × PersistOutcome Digest :=
  match phase with
  | .persisting attemptId context access =>
      if persisted ≠ attemptId then (phase, .attemptMismatch persisted attemptId)
      else (.idle, .completed attemptId context access)
  | .idle => (phase, .noPersistenceOwed)
  | .awaitingOffer _ _ _ => (phase, .noPersistenceOwed)
  | .awaitingApproval _ _ => (phase, .noPersistenceOwed)
  | .awaitingCompletion _ _ => (phase, .noPersistenceOwed)

def persistenceFailed (phase : Phase Digest) (failed : Digest) :
    Phase Digest × FailPersistenceOutcome Digest :=
  match phase with
  | .persisting attemptId context access =>
      if failed ≠ attemptId then (phase, .attemptMismatch failed attemptId)
      else (.idle, .failed attemptId context access)
  | .idle => (phase, .noPersistenceOwed)
  | .awaitingOffer _ _ _ => (phase, .noPersistenceOwed)
  | .awaitingApproval _ _ => (phase, .noPersistenceOwed)
  | .awaitingCompletion _ _ => (phase, .noPersistenceOwed)

def expire (phase : Phase Digest) (now : Nat) : Phase Digest × ExpireOutcome Digest :=
  match takeExpiredExchange crypto phase now with
  | some aborted => (.idle, .expired aborted)
  | none =>
      match phase with
      | .idle => (phase, .noActiveAttempt)
      | .awaitingOffer _ _ window => (phase, .notDue window.expiresAt)
      | .awaitingApproval _ window => (phase, .notDue window.expiresAt)
      | .awaitingCompletion _ window => (phase, .notDue window.expiresAt)
      | .persisting attemptId _ _ => (phase, .persistenceInProgress attemptId)

def abortForLink (phase : Phase Digest) (linkId : LinkId) : Phase Digest × LinkAbort Digest :=
  match phase with
  | .idle => (.idle, .noActiveAttempt)
  | .awaitingOffer context _ _ =>
      if context.linkId = linkId then (.idle, .aborted (.awaitingOffer context))
      else (phase, .unrelatedLink)
  | .awaitingApproval transcript _ =>
      if transcript.context.linkId = linkId then
        (.idle, .aborted (.awaitingApproval (transcript.digest crypto) transcript.context))
      else (phase, .unrelatedLink)
  | .awaitingCompletion transcript _ =>
      if transcript.context.linkId = linkId then
        (.idle, .aborted (.awaitingCompletion (transcript.digest crypto) transcript.context))
      else (phase, .unrelatedLink)
  | .persisting attemptId context _ =>
      if context.linkId = linkId then (phase, .persistenceInProgress attemptId)
      else (phase, .unrelatedLink)

def closeLink (phase : Phase Digest) (linkId : LinkId) : Phase Digest × LinkAbort Digest :=
  abortForLink crypto phase linkId

def requestFailed (phase : Phase Digest) (linkId : LinkId) : Phase Digest × LinkAbort Digest :=
  abortForLink crypto phase linkId

end

/-! ## Steps -/

/-- An operation with its arguments and its outcome. -/
inductive Event (Digest Signature : Type) where
  | begin (controller : RemoteControlControllerIdentity) (context : RemoteControlPairingContext)
      (invitationCode : Bytes 4) (startedAt pairingExpiresAt : Nat)
      (outcome : BeginOutcome Digest)
  | receiveOffer (offer : RemoteControlPairingOffer Signature) (receivedAt : Nat)
      (outcome : ReceiveOfferOutcome Digest)
  | approve (requested : Digest) (now : Nat) (outcome : ApproveOutcome Digest)
  | reject (requested : Digest) (now : Nat) (outcome : RejectOutcome Digest)
  | receiveCompleted (completed : RemoteControlPairingCompleted Digest Signature)
      (receivedAt : Nat) (outcome : ReceiveCompletedOutcome Digest)
  | persistenceSucceeded (persisted : Digest) (outcome : PersistOutcome Digest)
  | persistenceFailed (failed : Digest) (outcome : FailPersistenceOutcome Digest)
  | expire (now : Nat) (outcome : ExpireOutcome Digest)
  | closeLink (linkId : LinkId) (outcome : LinkAbort Digest)
  | requestFailed (linkId : LinkId) (outcome : LinkAbort Digest)

section

variable [DecidableEq Digest] (crypto : PairingCrypto Digest Signature)

/-- One operation, from a phase to the phase that it leaves. -/
inductive Step (phase : Phase Digest) : Event Digest Signature → Phase Digest → Prop where
  | begin {controller context invitationCode startedAt pairingExpiresAt outcome next}
      (h : begin crypto phase controller context invitationCode startedAt pairingExpiresAt =
        (next, outcome)) :
      Step phase
        (.begin controller context invitationCode startedAt pairingExpiresAt outcome) next
  | receiveOffer {offer receivedAt outcome next}
      (h : receiveOffer crypto phase offer receivedAt = (next, outcome)) :
      Step phase (.receiveOffer offer receivedAt outcome) next
  | approve {requested now outcome next}
      (h : approve crypto phase requested now = (next, outcome)) :
      Step phase (.approve requested now outcome) next
  | reject {requested now outcome next}
      (h : reject crypto phase requested now = (next, outcome)) :
      Step phase (.reject requested now outcome) next
  | receiveCompleted {completed receivedAt outcome next}
      (h : receiveCompleted crypto phase completed receivedAt = (next, outcome)) :
      Step phase (.receiveCompleted completed receivedAt outcome) next
  | persistenceSucceeded {persisted outcome next}
      (h : persistenceSucceeded phase persisted = (next, outcome)) :
      Step phase (.persistenceSucceeded persisted outcome) next
  | persistenceFailed {failed outcome next}
      (h : persistenceFailed phase failed = (next, outcome)) :
      Step phase (.persistenceFailed failed outcome) next
  | expire {now outcome next} (h : expire crypto phase now = (next, outcome)) :
      Step phase (.expire now outcome) next
  | closeLink {linkId outcome next} (h : closeLink crypto phase linkId = (next, outcome)) :
      Step phase (.closeLink linkId outcome) next
  | requestFailed {linkId outcome next}
      (h : requestFailed crypto phase linkId = (next, outcome)) :
      Step phase (.requestFailed linkId outcome) next

/-- The local user approved the id of the attempt, and was heard. -/
def Event.Approves (attemptId : Digest) : Event Digest Signature → Prop
  | .approve requested _ (.commitOwed committed _ _ _) =>
      requested = attemptId ∧ committed = attemptId
  | _ => False

/-- What an operation does to the phase, as far as an attempt goes forward by it. -/
inductive Move : Phase Digest → Event Digest Signature → Phase Digest → Prop where
  | begins {event context controller window} :
      Move .idle event (.awaitingOffer context controller window)
  | offered {context controller window offer receivedAt outcome attemptWindow}
      (h : offer.verifyController crypto context controller =
        .ok (offer.transcript context controller)) :
      Move (.awaitingOffer context controller window) (.receiveOffer offer receivedAt outcome)
        (.awaitingApproval (offer.transcript context controller) attemptWindow)
  | approves {transcript window event} (h : event.Approves (transcript.digest crypto)) :
      Move (.awaitingApproval transcript window) event (.awaitingCompletion transcript window)
  | completes {transcript window completed receivedAt outcome}
      (h : completed.verify crypto transcript = none) :
      Move (.awaitingCompletion transcript window)
        (.receiveCompleted completed receivedAt outcome)
        (.persisting (transcript.digest crypto) transcript.context
          (.ofPermissions transcript.target transcript.permissions))
  | stays {phase event} : Move phase event phase
  | ends {phase event} : Move phase event .idle

variable {crypto} {phase next : Phase Digest} {event : Event Digest Signature}

theorem abortForLink_move {linkId : LinkId} {outcome : LinkAbort Digest}
    (h : abortForLink crypto phase linkId = (next, outcome)) : Move crypto phase event next := by
  unfold abortForLink at h
  repeat' split at h
  all_goals
    cases h
    first | exact .ends | exact .stays

/-- Every operation is one of the moves. -/
theorem Step.move (h : Step crypto phase event next) : Move crypto phase event next := by
  cases h with
  | begin h =>
    unfold RemoteControlControllerPairing.begin at h
    repeat' split at h
    all_goals
      cases h
      try exact .stays
    · rename_i hidle _ _ _
      cases phase with
      | idle => exact .begins
      | _ => cases hidle
  | receiveOffer h =>
    unfold RemoteControlControllerPairing.receiveOffer at h
    repeat' split at h
    all_goals
      cases h
      try first | exact .ends | exact .stays
    · rename_i hverified _ _ _
      have hunfolded := hverified
      simp only [RemoteControlPairingOffer.verifyController] at hunfolded
      split_ifs at hunfolded
      cases hunfolded
      exact .offered hverified
  | approve h =>
    unfold RemoteControlControllerPairing.approve at h
    repeat' split at h
    all_goals
      cases h
      try first | exact .ends | exact .stays
    · rename_i hid
      exact .approves ⟨not_not.mp hid, rfl⟩
  | receiveCompleted h =>
    unfold RemoteControlControllerPairing.receiveCompleted at h
    repeat' split at h
    all_goals
      cases h
      try first | exact .ends | exact .stays
    · rename_i hverified
      exact .completes hverified
  | closeLink h => exact abortForLink_move h
  | requestFailed h => exact abortForLink_move h
  | reject h | persistenceSucceeded h | persistenceFailed h | expire h =>
    -- these end the attempt or leave it
    first
    | unfold RemoteControlControllerPairing.reject at h
    | unfold RemoteControlControllerPairing.persistenceSucceeded at h
    | unfold RemoteControlControllerPairing.persistenceFailed at h
    | unfold RemoteControlControllerPairing.expire at h
    repeat' split at h
    all_goals
      cases h
      first | exact .ends | exact .stays

end

end Prns.Ports.RemoteControlControllerPairing
