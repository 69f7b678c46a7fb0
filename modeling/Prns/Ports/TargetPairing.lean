import Prns.Ports.PairingExchange

/-!
# The target's side of pairing

Model of `target_pairing`: the state that a target keeps from the begin of a controller to
the completion that it hands out. An attempt is active until the local user has approved
it and the controller has committed to it, in either order; then its authorization is owed
to storage; once storage has reported, the completion is retained until it expires or its
link closes.

Each operation returns the phase that it leaves and its outcome. Instants and durations
are milliseconds; where the source adds them with a check, the bound is that of `u64`.
-/

namespace Prns.Ports.RemoteControlTargetPairing

open RemoteControl
open Pairing

structure RemoteControlPairingWindow where
  expiresAt : Nat

structure RemoteControlPairingSession (Digest : Type) where
  identity : IdentityHash
  window : RemoteControlPairingWindow
  permissions : RemoteControlPairingPermissions
  attemptTimeout : RemoteControlPairingAttemptTimeout
  invitationVerifier : Digest

inductive AttemptWindowError where
  | pairingWindowElapsed (startedAt pairingExpiresAt : Nat)
  | deadlineOverflow (startedAt : Nat) (attemptTimeout : RemoteControlPairingAttemptTimeout)
  | exceedsPairingWindow (attemptExpiresAt pairingExpiresAt : Nat)

structure AttemptWindow where
  startedAt : Nat
  attemptTimeout : RemoteControlPairingAttemptTimeout
  expiresAt : Nat
  expiresAt_eq : expiresAt = startedAt + attemptTimeout.duration

def AttemptWindow.new (startedAt : Nat) (attemptTimeout : RemoteControlPairingAttemptTimeout)
    (pairingWindow : RemoteControlPairingWindow) : Except AttemptWindowError AttemptWindow :=
  if pairingWindow.expiresAt ≤ startedAt then
    .error (.pairingWindowElapsed startedAt pairingWindow.expiresAt)
  else if 2 ^ 64 ≤ startedAt + attemptTimeout.duration then
    .error (.deadlineOverflow startedAt attemptTimeout)
  else if pairingWindow.expiresAt < startedAt + attemptTimeout.duration then
    .error (.exceedsPairingWindow (startedAt + attemptTimeout.duration) pairingWindow.expiresAt)
  else .ok ⟨startedAt, attemptTimeout, startedAt + attemptTimeout.duration, rfl⟩

def attemptTimeoutForRemainingWindow (configured : RemoteControlPairingAttemptTimeout)
    (startedAt : Nat) (pairingWindow : RemoteControlPairingWindow) :
    RemoteControlPairingAttemptTimeout :=
  let remaining := pairingWindow.expiresAt - startedAt
  match RemoteControlPairingAttemptTimeout.ofDuration (min configured.duration remaining) with
  | .ok bounded => bounded
  | .error _ => configured

structure Responder where
  linkId : LinkId
  requestId : Bytes 16
  deriving DecidableEq

structure BeginArrival where
  begin : RemoteControlPairingBegin
  responder : Responder
  identifiedController : IdentityHash

structure CommitArrival (Digest : Type) where
  commit : RemoteControlPairingCommit Digest
  responder : Responder
  identifiedController : IdentityHash

structure Attempt where
  transcript : RemoteControlPairingTranscript
  window : AttemptWindow

inductive ConfirmationProgress where
  | both
  | targetApproval (responder : Responder)
  | controllerCommit

inductive ActiveStage where
  | offerPrepared
  | confirming (progress : ConfirmationProgress)

inductive AuthorizationCompletion (Digest Signature : Type) where
  | unprepared
  | prepared (completed : RemoteControlPairingCompleted Digest Signature)

inductive Phase (Digest Signature : Type) where
  | idle
  | active (attempt : Attempt) (stage : ActiveStage)
  | authorizing (attempt : Attempt) (responder : Responder)
      (completion : AuthorizationCompletion Digest Signature)
  | completing (attempt : Attempt) (responder : Responder)
      (completed : RemoteControlPairingCompleted Digest Signature)

/-! ## Outcomes -/

inductive Aborted (Digest : Type) where
  | offerPrepared (attemptId : Digest) (context : RemoteControlPairingContext)
  | awaitingBoth (attemptId : Digest) (context : RemoteControlPairingContext)
  | awaitingTargetApproval (attemptId : Digest) (context : RemoteControlPairingContext)
      (responder : Responder)
  | awaitingControllerCommit (attemptId : Digest) (context : RemoteControlPairingContext)

structure CompletionRetentionExpired (Digest : Type) where
  attemptId : Digest
  context : RemoteControlPairingContext

inductive BeginRejection where
  | controllerIdentityMismatch (claimed identified : IdentityHash)
  | invalidInvitationProof
  | authorityUnsupported (version : RemoteControlPairingProtocolVersion)
      (authority : RemoteControlControllerAuthority)
  | requestUnsupportedForVersion (version : RemoteControlPairingProtocolVersion)
      (request : RemoteControlRequestKind)

inductive BeginOutcome (Digest Signature : Type) where
  | offerPrepared (attemptId : Digest) (responder : Responder)
      (offer : RemoteControlPairingOffer Signature)
  | expired (expired : Aborted Digest)
  | completionRetentionExpired (expired : CompletionRetentionExpired Digest)
  | busy (active : Digest)
  | pairingUnavailable (reason : AttemptWindowError)
  | rejected (rejected : Responder) (reason : BeginRejection)

inductive DispatchOfferOutcome (Digest : Type) where
  | awaitingConfirmation (attempt : Attempt)
  | attemptMismatch (dispatched active : Digest)
  | noOfferPrepared

inductive FailOfferDispatchOutcome (Digest : Type) where
  | aborted (attemptId : Digest) (context : RemoteControlPairingContext)
  | attemptMismatch (failed active : Digest)
  | noOfferPrepared

inductive ApproveOutcome (Digest : Type) where
  | awaitingControllerCommit (attemptId : Digest)
  | authorizationOwed (attemptId : Digest) (grant : RemoteControlControllerGrant)
  | expired (expired : Aborted Digest)
  | noActiveAttempt
  | attemptMismatch (requested active : Digest)
  | offerPendingDispatch (attemptId : Digest)
  | alreadyApproved (attemptId : Digest)
  | finalizationInProgress (attemptId : Digest)
  | completionRetentionExpired (expired : CompletionRetentionExpired Digest)

inductive CommitRejection (Digest : Type) where
  | noActiveAttempt
  | offerPendingDispatch
  | wrongLink (expected found : LinkId)
  | controllerIdentityMismatch (expected identified : IdentityHash)
  | transcriptMismatch (expected found : Digest)
  | alreadyCommitted
  | finalizationInProgress

inductive CommitOutcome (Digest Signature : Type) where
  | awaitingTargetApproval (attemptId : Digest)
  | authorizationOwed (attemptId : Digest) (grant : RemoteControlControllerGrant)
  | completionOwed (attemptId : Digest) (responder : Responder)
      (completed : RemoteControlPairingCompleted Digest Signature)
  | completionRetentionExpired (expired : CompletionRetentionExpired Digest)
      (rejected : Responder)
  | expired (expired : Aborted Digest) (rejected : Responder)
  | rejected (rejected : Responder) (reason : CommitRejection Digest)

inductive RejectOutcome (Digest : Type) where
  | rejected (aborted : Aborted Digest)
  | expired (expired : Aborted Digest)
  | noActiveAttempt
  | attemptMismatch (requested active : Digest)
  | offerPendingDispatch (attemptId : Digest)
  | alreadyApproved (attemptId : Digest)
  | finalizationInProgress (attemptId : Digest)
  | completionRetentionExpired (expired : CompletionRetentionExpired Digest)

inductive PrepareAuthorizationOutcome (Digest : Type) where
  | prepared (attemptId : Digest)
  | deadlineElapsed (attemptId : Digest)
  | signingFailed (attemptId : Digest) (error : RemoteControlPairingCompletionSigningError)
  | noAuthorizationOwed
  | attemptMismatch (prepared active : Digest)

inductive PersistAuthorizationOutcome (Digest Signature : Type) where
  | completionOwed (attemptId : Digest) (responder : Responder)
      (completed : RemoteControlPairingCompleted Digest Signature)
  | signingFailed (attemptId : Digest) (error : RemoteControlPairingCompletionSigningError)
  | authorizationPersistedAfterDeadline (attemptId : Digest)
      (context : RemoteControlPairingContext) (grant : RemoteControlControllerGrant)
  | completionRetentionExpired (expired : CompletionRetentionExpired Digest)
  | noAuthorizationOwed
  | attemptMismatch (settled active : Digest)

inductive FailAuthorizationOutcome (Digest : Type) where
  | aborted (attemptId : Digest) (context : RemoteControlPairingContext) (responder : Responder)
  | noAuthorizationOwed
  | attemptMismatch (settled active : Digest)

inductive ExpireOutcome (Digest : Type) where
  | expired (aborted : Aborted Digest)
  | notDue (expiresAt : Nat)
  | noActiveAttempt
  | finalizationInProgress (attemptId : Digest)
  | completionRetentionExpired (expired : CompletionRetentionExpired Digest)

inductive CloseLinkOutcome (Digest : Type) where
  | aborted (aborted : Aborted Digest)
  | unrelatedLink
  | noActiveAttempt
  | finalizationInProgress (attemptId : Digest)
  | completionRetentionEnded (attemptId : Digest)

/-! ## Operations -/

section

variable {Digest Signature : Type} [DecidableEq Digest] (crypto : PairingCrypto Digest Signature)

def RemoteControlPairingSession.endpoint (session : RemoteControlPairingSession Digest) :
    Bytes 16 :=
  crypto.deriveDestinationHash session.identity

def Attempt.attemptId (attempt : Attempt) : Digest := attempt.transcript.digest crypto

/-- The grant that the transcript names. -/
def Attempt.grant (attempt : Attempt) : RemoteControlControllerGrant :=
  .ofPermissions attempt.transcript.controller attempt.transcript.permissions

def abortActive (attempt : Attempt) : ActiveStage → Aborted Digest
  | .offerPrepared => .offerPrepared (attempt.attemptId crypto) attempt.transcript.context
  | .confirming .both => .awaitingBoth (attempt.attemptId crypto) attempt.transcript.context
  | .confirming (.targetApproval responder) =>
      .awaitingTargetApproval (attempt.attemptId crypto) attempt.transcript.context responder
  | .confirming .controllerCommit =>
      .awaitingControllerCommit (attempt.attemptId crypto) attempt.transcript.context

def Phase.attempt : Phase Digest Signature → Option Attempt
  | .idle => none
  | .active attempt _ => some attempt
  | .authorizing attempt _ _ => some attempt
  | .completing attempt _ _ => some attempt

/-- `take_expired_attempt`; a phase for which it answers is left idle. -/
def takeExpiredAttempt (phase : Phase Digest Signature) (now : Nat) : Option (Aborted Digest) :=
  match phase with
  | .active attempt stage =>
      if attempt.window.expiresAt ≤ now then some (abortActive crypto attempt stage) else none
  | .idle => none
  | .authorizing _ _ _ => none
  | .completing _ _ _ => none

/-- `take_expired_completion`; a phase for which it answers is left idle. -/
def takeExpiredCompletion (phase : Phase Digest Signature) (now : Nat) :
    Option (CompletionRetentionExpired Digest) :=
  match phase with
  | .completing attempt _ _ =>
      if attempt.window.expiresAt ≤ now then
        some ⟨attempt.attemptId crypto, attempt.transcript.context⟩
      else none
  | .idle => none
  | .active _ _ => none
  | .authorizing _ _ _ => none

/-- The end of `begin`, once no attempt stands in its way. -/
def beginIdle (targetSigner : IdentitySigner Signature)
    (session : RemoteControlPairingSession Digest) (arrival : BeginArrival) (startedAt : Nat) :
    Phase Digest Signature × BeginOutcome Digest Signature :=
  let attemptTimeout :=
    attemptTimeoutForRemainingWindow session.attemptTimeout startedAt session.window
  match AttemptWindow.new startedAt attemptTimeout session.window with
  | .error reason => (.idle, .pairingUnavailable reason)
  | .ok window =>
      match preparedOffer crypto targetSigner
          ⟨session.endpoint crypto, arrival.responder.linkId⟩ arrival.begin session.permissions
          attemptTimeout with
      | .error (.authorityUnsupported version authority) =>
          (.idle, .rejected arrival.responder (.authorityUnsupported version authority))
      | .error (.requestUnsupportedForVersion version request) =>
          (.idle, .rejected arrival.responder (.requestUnsupportedForVersion version request))
      | .ok (offer, transcript) =>
          let attempt : Attempt := ⟨transcript, window⟩
          (.active attempt .offerPrepared,
            .offerPrepared (attempt.attemptId crypto) arrival.responder offer)

def begin (phase : Phase Digest Signature) (targetSigner : IdentitySigner Signature)
    (session : RemoteControlPairingSession Digest) (arrival : BeginArrival) (startedAt : Nat) :
    Phase Digest Signature × BeginOutcome Digest Signature :=
  match takeExpiredCompletion crypto phase startedAt with
  | some expired => (.idle, .completionRetentionExpired expired)
  | none =>
      let claimed := crypto.deriveIdentityHash arrival.begin.controller.publicKeys
      if claimed ≠ arrival.identifiedController then
        (phase, .rejected arrival.responder
          (.controllerIdentityMismatch claimed arrival.identifiedController))
      else if !verifyInvitation crypto session.invitationVerifier (session.endpoint crypto)
          arrival.begin.controller arrival.begin.invitationProof then
        (phase, .rejected arrival.responder .invalidInvitationProof)
      else
        match takeExpiredAttempt crypto phase startedAt with
        | some expired => (.idle, .expired expired)
        | none =>
            match phase.attempt with
            | some attempt => (phase, .busy (attempt.attemptId crypto))
            | none => beginIdle crypto targetSigner session arrival startedAt

def offerDispatched (phase : Phase Digest Signature) (dispatched : Digest) :
    Phase Digest Signature × DispatchOfferOutcome Digest :=
  match phase with
  | .active attempt .offerPrepared =>
      if dispatched ≠ attempt.attemptId crypto then
        (phase, .attemptMismatch dispatched (attempt.attemptId crypto))
      else (.active attempt (.confirming .both), .awaitingConfirmation attempt)
  | .active _ (.confirming _) => (phase, .noOfferPrepared)
  | .idle => (phase, .noOfferPrepared)
  | .authorizing _ _ _ => (phase, .noOfferPrepared)
  | .completing _ _ _ => (phase, .noOfferPrepared)

def offerDispatchFailed (phase : Phase Digest Signature) (failed : Digest) :
    Phase Digest Signature × FailOfferDispatchOutcome Digest :=
  match phase with
  | .active attempt .offerPrepared =>
      if failed = attempt.attemptId crypto then
        (.idle, .aborted (attempt.attemptId crypto) attempt.transcript.context)
      else (phase, .attemptMismatch failed (attempt.attemptId crypto))
  | .active _ (.confirming _) => (phase, .noOfferPrepared)
  | .idle => (phase, .noOfferPrepared)
  | .authorizing _ _ _ => (phase, .noOfferPrepared)
  | .completing _ _ _ => (phase, .noOfferPrepared)

/-- An approval of the attempt that is being confirmed. -/
def approveConfirming (attempt : Attempt) :
    ConfirmationProgress → Phase Digest Signature × ApproveOutcome Digest
  | .both =>
      (.active attempt (.confirming .controllerCommit),
        .awaitingControllerCommit (attempt.attemptId crypto))
  | .targetApproval responder =>
      (.authorizing attempt responder .unprepared,
        .authorizationOwed (attempt.attemptId crypto) attempt.grant)
  | .controllerCommit =>
      (.active attempt (.confirming .controllerCommit),
        .alreadyApproved (attempt.attemptId crypto))

def approve (phase : Phase Digest Signature) (requested : Digest) (now : Nat) :
    Phase Digest Signature × ApproveOutcome Digest :=
  match takeExpiredCompletion crypto phase now with
  | some expired => (.idle, .completionRetentionExpired expired)
  | none =>
      match takeExpiredAttempt crypto phase now with
      | some expired => (.idle, .expired expired)
      | none =>
          match phase with
          | .idle => (.idle, .noActiveAttempt)
          | .active attempt .offerPrepared =>
              if requested ≠ attempt.attemptId crypto then
                (phase, .attemptMismatch requested (attempt.attemptId crypto))
              else (phase, .offerPendingDispatch (attempt.attemptId crypto))
          | .active attempt (.confirming progress) =>
              if requested ≠ attempt.attemptId crypto then
                (phase, .attemptMismatch requested (attempt.attemptId crypto))
              else approveConfirming crypto attempt progress
          | .authorizing attempt _ _ =>
              (phase, .finalizationInProgress (attempt.attemptId crypto))
          | .completing attempt _ _ =>
              (phase, .finalizationInProgress (attempt.attemptId crypto))

/-- `validate_commit`; `none` is success. -/
def validateCommit (attempt : Attempt) (arrival : CommitArrival Digest) :
    Option (CommitRejection Digest) :=
  let expectedLink := attempt.transcript.context.linkId
  let expectedController := crypto.deriveIdentityHash attempt.transcript.controller.publicKeys
  if arrival.responder.linkId ≠ expectedLink then
    some (.wrongLink expectedLink arrival.responder.linkId)
  else if arrival.identifiedController ≠ expectedController then
    some (.controllerIdentityMismatch expectedController arrival.identifiedController)
  else if !arrival.commit.matches crypto attempt.transcript then
    some (.transcriptMismatch (attempt.attemptId crypto) arrival.commit.transcript)
  else none

/-- A commit that `validate_commit` passed. -/
def commitValidated (phase : Phase Digest Signature) (arrival : CommitArrival Digest) :
    Phase Digest Signature × CommitOutcome Digest Signature :=
  match phase with
  | .active _ .offerPrepared => (phase, .rejected arrival.responder .offerPendingDispatch)
  | .active attempt (.confirming .both) =>
      (.active attempt (.confirming (.targetApproval arrival.responder)),
        .awaitingTargetApproval (attempt.attemptId crypto))
  | .active attempt (.confirming .controllerCommit) =>
      (.authorizing attempt arrival.responder .unprepared,
        .authorizationOwed (attempt.attemptId crypto) attempt.grant)
  | .active _ (.confirming (.targetApproval _)) =>
      (phase, .rejected arrival.responder .alreadyCommitted)
  | .authorizing _ _ _ => (phase, .rejected arrival.responder .finalizationInProgress)
  | .completing attempt _ completed =>
      (phase, .completionOwed (attempt.attemptId crypto) arrival.responder completed)
  | .idle => (phase, .rejected arrival.responder .noActiveAttempt)

def commit (phase : Phase Digest Signature) (arrival : CommitArrival Digest) (now : Nat) :
    Phase Digest Signature × CommitOutcome Digest Signature :=
  match takeExpiredCompletion crypto phase now with
  | some expired => (.idle, .completionRetentionExpired expired arrival.responder)
  | none =>
      match takeExpiredAttempt crypto phase now with
      | some expired => (.idle, .expired expired arrival.responder)
      | none =>
          match phase.attempt with
          | none => (phase, .rejected arrival.responder .noActiveAttempt)
          | some attempt =>
              match validateCommit crypto attempt arrival with
              | some reason => (phase, .rejected arrival.responder reason)
              | none => commitValidated crypto phase arrival

/-- A rejection of the attempt that is being confirmed. -/
def rejectConfirming (attempt : Attempt) :
    ConfirmationProgress → Phase Digest Signature × RejectOutcome Digest
  | .both => (.idle, .rejected (abortActive crypto attempt (.confirming .both)))
  | .targetApproval responder =>
      (.idle, .rejected (abortActive crypto attempt (.confirming (.targetApproval responder))))
  | .controllerCommit =>
      (.active attempt (.confirming .controllerCommit),
        .alreadyApproved (attempt.attemptId crypto))

def reject (phase : Phase Digest Signature) (requested : Digest) (now : Nat) :
    Phase Digest Signature × RejectOutcome Digest :=
  match takeExpiredCompletion crypto phase now with
  | some expired => (.idle, .completionRetentionExpired expired)
  | none =>
      match takeExpiredAttempt crypto phase now with
      | some expired => (.idle, .expired expired)
      | none =>
          match phase with
          | .idle => (.idle, .noActiveAttempt)
          | .active attempt .offerPrepared =>
              if requested ≠ attempt.attemptId crypto then
                (phase, .attemptMismatch requested (attempt.attemptId crypto))
              else (phase, .offerPendingDispatch (attempt.attemptId crypto))
          | .active attempt (.confirming progress) =>
              if requested ≠ attempt.attemptId crypto then
                (phase, .attemptMismatch requested (attempt.attemptId crypto))
              else rejectConfirming crypto attempt progress
          | .authorizing attempt _ _ =>
              (phase, .finalizationInProgress (attempt.attemptId crypto))
          | .completing attempt _ _ =>
              (phase, .finalizationInProgress (attempt.attemptId crypto))

def prepareAuthorization (phase : Phase Digest Signature) (prepared : Digest)
    (targetSigner : IdentitySigner Signature) (now : Nat) :
    Phase Digest Signature × PrepareAuthorizationOutcome Digest :=
  match phase with
  | .authorizing attempt responder completion =>
      if prepared ≠ attempt.attemptId crypto then
        (phase, .attemptMismatch prepared (attempt.attemptId crypto))
      else
        match completion with
        | .prepared _ => (phase, .prepared (attempt.attemptId crypto))
        | .unprepared =>
            if attempt.window.expiresAt ≤ now then
              (phase, .deadlineElapsed (attempt.attemptId crypto))
            else
              match RemoteControlPairingCompleted.signedBy crypto targetSigner
                  attempt.transcript with
              | .ok completed =>
                  (.authorizing attempt responder (.prepared completed),
                    .prepared (attempt.attemptId crypto))
              | .error error => (phase, .signingFailed (attempt.attemptId crypto) error)
  | .idle => (phase, .noAuthorizationOwed)
  | .active _ _ => (phase, .noAuthorizationOwed)
  | .completing _ _ _ => (phase, .noAuthorizationOwed)

/-- The phase and outcome of `settle_prepared_authorization`, which answers `None` where no
prepared or retained completion exists. -/
def settlePreparedAuthorization (phase : Phase Digest Signature) (settled : Digest) (now : Nat) :
    Phase Digest Signature × Option (PersistAuthorizationOutcome Digest Signature) :=
  match takeExpiredCompletion crypto phase now with
  | some expired => (.idle, some (.completionRetentionExpired expired))
  | none =>
      match phase with
      | .authorizing attempt responder (.prepared completed) =>
          if settled ≠ attempt.attemptId crypto then
            (phase, some (.attemptMismatch settled (attempt.attemptId crypto)))
          else (.completing attempt responder completed,
            some (.completionOwed (attempt.attemptId crypto) responder completed))
      | .completing attempt responder completed =>
          if settled ≠ attempt.attemptId crypto then
            (phase, some (.attemptMismatch settled (attempt.attemptId crypto)))
          else (phase, some (.completionOwed (attempt.attemptId crypto) responder completed))
      | .idle => (phase, none)
      | .active _ _ => (phase, none)
      | .authorizing _ _ .unprepared => (phase, none)

/-- The completion of an authorization that was reported persisted: the prepared one, or
one signed now. -/
def signedCompletion (targetSigner : IdentitySigner Signature) (attempt : Attempt) :
    AuthorizationCompletion Digest Signature →
      Except RemoteControlPairingCompletionSigningError
        (RemoteControlPairingCompleted Digest Signature)
  | .prepared completed => .ok completed
  | .unprepared => RemoteControlPairingCompleted.signedBy crypto targetSigner attempt.transcript

def AuthorizationCompletion.isUnprepared : AuthorizationCompletion Digest Signature → Bool
  | .unprepared => true
  | .prepared _ => false

/-- The part of `authorization_persisted` that follows the two early returns. -/
def persistUnsettled (phase : Phase Digest Signature) (settled : Digest)
    (targetSigner : IdentitySigner Signature) (now : Nat) :
    Phase Digest Signature × PersistAuthorizationOutcome Digest Signature :=
  match phase with
  | .authorizing attempt responder completion =>
      if settled ≠ attempt.attemptId crypto then
        (phase, .attemptMismatch settled (attempt.attemptId crypto))
      else if completion.isUnprepared && decide (attempt.window.expiresAt ≤ now) then
        (.idle, .authorizationPersistedAfterDeadline (attempt.attemptId crypto)
          attempt.transcript.context attempt.grant)
      else
        match signedCompletion crypto targetSigner attempt completion with
        | .ok completed =>
            (.completing attempt responder completed,
              .completionOwed (attempt.attemptId crypto) responder completed)
        | .error error =>
            (.authorizing attempt responder .unprepared,
              .signingFailed (attempt.attemptId crypto) error)
  | .completing attempt responder completed =>
      if settled ≠ attempt.attemptId crypto then
        (phase, .attemptMismatch settled (attempt.attemptId crypto))
      else (phase, .completionOwed (attempt.attemptId crypto) responder completed)
  | .idle => (phase, .noAuthorizationOwed)
  | .active _ _ => (phase, .noAuthorizationOwed)

def authorizationPersisted (phase : Phase Digest Signature) (settled : Digest)
    (targetSigner : IdentitySigner Signature) (now : Nat) :
    Phase Digest Signature × PersistAuthorizationOutcome Digest Signature :=
  match settlePreparedAuthorization crypto phase settled now with
  | (left, some completion) => (left, completion)
  | (left, none) =>
      match takeExpiredCompletion crypto left now with
      | some expired => (.idle, .completionRetentionExpired expired)
      | none => persistUnsettled crypto left settled targetSigner now

def authorizationFailed (phase : Phase Digest Signature) (settled : Digest) :
    Phase Digest Signature × FailAuthorizationOutcome Digest :=
  match phase with
  | .authorizing attempt responder _ =>
      if settled ≠ attempt.attemptId crypto then
        (phase, .attemptMismatch settled (attempt.attemptId crypto))
      else (.idle, .aborted (attempt.attemptId crypto) attempt.transcript.context responder)
  | .idle => (phase, .noAuthorizationOwed)
  | .active _ _ => (phase, .noAuthorizationOwed)
  | .completing _ _ _ => (phase, .noAuthorizationOwed)

def expire (phase : Phase Digest Signature) (now : Nat) :
    Phase Digest Signature × ExpireOutcome Digest :=
  match takeExpiredCompletion crypto phase now with
  | some expired => (.idle, .completionRetentionExpired expired)
  | none =>
      match takeExpiredAttempt crypto phase now with
      | some aborted => (.idle, .expired aborted)
      | none =>
          match phase with
          | .idle => (phase, .noActiveAttempt)
          | .active attempt _ => (phase, .notDue attempt.window.expiresAt)
          | .authorizing attempt _ _ =>
              (phase, .finalizationInProgress (attempt.attemptId crypto))
          | .completing attempt _ _ => (phase, .notDue attempt.window.expiresAt)

def closeLink (phase : Phase Digest Signature) (linkId : LinkId) :
    Phase Digest Signature × CloseLinkOutcome Digest :=
  match phase with
  | .idle => (.idle, .noActiveAttempt)
  | .active attempt stage =>
      if attempt.transcript.context.linkId = linkId then
        (.idle, .aborted (abortActive crypto attempt stage))
      else (phase, .unrelatedLink)
  | .authorizing attempt _ _ =>
      if attempt.transcript.context.linkId = linkId then
        (phase, .finalizationInProgress (attempt.attemptId crypto))
      else (phase, .unrelatedLink)
  | .completing attempt _ _ =>
      if attempt.transcript.context.linkId = linkId then
        (.idle, .completionRetentionEnded (attempt.attemptId crypto))
      else (phase, .unrelatedLink)

end

end Prns.Ports.RemoteControlTargetPairing
