import Prns.Ports.TargetPairing

/-!
# Runs of the target's pairing state

A run is a history of operations with the outcomes that they returned, oldest first. What
an operation can do to the phase is said once, by `Move`. The invariant `Justified` then
ties each phase to the history that led to it, and the two consents behind an owed
authorization, and the report behind a released completion, are read off it.
-/

namespace Prns.Ports.RemoteControlTargetPairing

open RemoteControl
open Pairing

/-- An operation with its arguments and its outcome. -/
inductive Event (Digest Signature : Type) where
  | begin (targetSigner : IdentitySigner Signature)
      (session : RemoteControlPairingSession Digest) (arrival : BeginArrival) (startedAt : Nat)
      (outcome : BeginOutcome Digest Signature)
  | offerDispatched (dispatched : Digest) (outcome : DispatchOfferOutcome Digest)
  | offerDispatchFailed (failed : Digest) (outcome : FailOfferDispatchOutcome Digest)
  | approve (requested : Digest) (now : Nat) (outcome : ApproveOutcome Digest)
  | commit (arrival : CommitArrival Digest) (now : Nat) (outcome : CommitOutcome Digest Signature)
  | reject (requested : Digest) (now : Nat) (outcome : RejectOutcome Digest)
  | prepareAuthorization (prepared : Digest) (targetSigner : IdentitySigner Signature)
      (now : Nat) (outcome : PrepareAuthorizationOutcome Digest)
  | authorizationPersisted (settled : Digest) (targetSigner : IdentitySigner Signature)
      (now : Nat) (outcome : PersistAuthorizationOutcome Digest Signature)
  | settlePreparedAuthorization (settled : Digest) (now : Nat)
      (outcome : Option (PersistAuthorizationOutcome Digest Signature))
  | authorizationFailed (settled : Digest) (outcome : FailAuthorizationOutcome Digest)
  | expire (now : Nat) (outcome : ExpireOutcome Digest)
  | closeLink (linkId : LinkId) (outcome : CloseLinkOutcome Digest)

section

variable {Digest Signature : Type} [DecidableEq Digest] (crypto : PairingCrypto Digest Signature)

/-- One operation, from a phase to the phase that it leaves. -/
inductive Step (phase : Phase Digest Signature) :
    Event Digest Signature → Phase Digest Signature → Prop where
  | begin {targetSigner session arrival startedAt outcome next}
      (h : begin crypto phase targetSigner session arrival startedAt = (next, outcome)) :
      Step phase (.begin targetSigner session arrival startedAt outcome) next
  | offerDispatched {dispatched outcome next}
      (h : offerDispatched crypto phase dispatched = (next, outcome)) :
      Step phase (.offerDispatched dispatched outcome) next
  | offerDispatchFailed {failed outcome next}
      (h : offerDispatchFailed crypto phase failed = (next, outcome)) :
      Step phase (.offerDispatchFailed failed outcome) next
  | approve {requested now outcome next}
      (h : approve crypto phase requested now = (next, outcome)) :
      Step phase (.approve requested now outcome) next
  | commit {arrival now outcome next} (h : commit crypto phase arrival now = (next, outcome)) :
      Step phase (.commit arrival now outcome) next
  | reject {requested now outcome next}
      (h : reject crypto phase requested now = (next, outcome)) :
      Step phase (.reject requested now outcome) next
  | prepareAuthorization {prepared targetSigner now outcome next}
      (h : prepareAuthorization crypto phase prepared targetSigner now = (next, outcome)) :
      Step phase (.prepareAuthorization prepared targetSigner now outcome) next
  | authorizationPersisted {settled targetSigner now outcome next}
      (h : authorizationPersisted crypto phase settled targetSigner now = (next, outcome)) :
      Step phase (.authorizationPersisted settled targetSigner now outcome) next
  | settlePreparedAuthorization {settled now outcome next}
      (h : settlePreparedAuthorization crypto phase settled now = (next, outcome)) :
      Step phase (.settlePreparedAuthorization settled now outcome) next
  | authorizationFailed {settled outcome next}
      (h : authorizationFailed crypto phase settled = (next, outcome)) :
      Step phase (.authorizationFailed settled outcome) next
  | expire {now outcome next} (h : expire crypto phase now = (next, outcome)) :
      Step phase (.expire now outcome) next
  | closeLink {linkId outcome next} (h : closeLink crypto phase linkId = (next, outcome)) :
      Step phase (.closeLink linkId outcome) next

/-- The histories of operations from the idle state, each with the phase that it leaves. -/
inductive Run : List (Event Digest Signature) → Phase Digest Signature → Prop where
  | start : Run [] .idle
  | next {history phase event phase'} (run : Run history phase)
      (step : Step crypto phase event phase') : Run (history ++ [event]) phase'

/-- The authorization that the event hands to storage. -/
def Event.owes : Event Digest Signature → Option (Digest × RemoteControlControllerGrant)
  | .approve _ _ (.authorizationOwed attemptId grant) => some (attemptId, grant)
  | .commit _ _ (.authorizationOwed attemptId grant) => some (attemptId, grant)
  | _ => none

/-- The completion that the event hands out for delivery. -/
def Event.releases :
    Event Digest Signature → Option (Digest × RemoteControlPairingCompleted Digest Signature)
  | .commit _ _ (.completionOwed attemptId _ completed) => some (attemptId, completed)
  | .authorizationPersisted _ _ _ (.completionOwed attemptId _ completed) =>
      some (attemptId, completed)
  | .settlePreparedAuthorization _ _ (some (.completionOwed attemptId _ completed)) =>
      some (attemptId, completed)
  | _ => none

def Event.prepares : Event Digest Signature → Bool
  | .begin _ _ _ _ (.offerPrepared _ _ _) => true
  | _ => false

/-- The event began the attempt. -/
def Event.Begins (attempt : Attempt) : Event Digest Signature → Prop
  | .begin targetSigner session arrival startedAt (.offerPrepared attemptId _ offer) =>
      preparedOffer crypto targetSigner ⟨session.endpoint crypto, arrival.responder.linkId⟩
          arrival.begin session.permissions attempt.window.attemptTimeout =
        .ok (offer, attempt.transcript) ∧
      attempt.window.startedAt = startedAt ∧ attemptId = attempt.attemptId crypto
  | _ => False

def Event.Dispatches (attempt : Attempt) : Event Digest Signature → Prop
  | .offerDispatched dispatched (.awaitingConfirmation _) =>
      dispatched = attempt.attemptId crypto
  | _ => False

/-- The local user approved the id of the attempt, before it expired, and was heard. -/
def Event.Approves (attempt : Attempt) : Event Digest Signature → Prop
  | .approve requested now (.awaitingControllerCommit _) =>
      requested = attempt.attemptId crypto ∧ now < attempt.window.expiresAt
  | .approve requested now (.authorizationOwed _ _) =>
      requested = attempt.attemptId crypto ∧ now < attempt.window.expiresAt
  | _ => False

structure CommitsTo (transcript : RemoteControlPairingTranscript)
    (arrival : CommitArrival Digest) : Prop where
  link : arrival.responder.linkId = transcript.context.linkId
  controller :
    arrival.identifiedController = crypto.deriveIdentityHash transcript.controller.publicKeys
  version : arrival.commit.protocolVersion = transcript.protocolVersion
  digest : arrival.commit.transcript = transcript.digest crypto

/-- A commit to the transcript of the attempt arrived, before it expired, and was heard. -/
def Event.Commits (attempt : Attempt) : Event Digest Signature → Prop
  | .commit arrival now (.awaitingTargetApproval _) =>
      CommitsTo crypto attempt.transcript arrival ∧ now < attempt.window.expiresAt
  | .commit arrival now (.authorizationOwed _ _) =>
      CommitsTo crypto attempt.transcript arrival ∧ now < attempt.window.expiresAt
  | _ => False

def Event.ReportsPersisted (attemptId : Digest) : Event Digest Signature → Prop
  | .authorizationPersisted settled _ _ (.completionOwed _ _ _) => settled = attemptId
  | .settlePreparedAuthorization settled _ (some (.completionOwed _ _ _)) => settled = attemptId
  | _ => False

/-- An accepted reject, a close of the link, or the news that an attempt expired. -/
def Event.Interrupts (linkId : LinkId) : Event Digest Signature → Prop
  | .reject _ _ (.rejected _) => True
  | .closeLink closed _ => closed = linkId
  | .begin _ _ _ _ (.expired _) => True
  | .approve _ _ (.expired _) => True
  | .commit _ _ (.expired _ _) => True
  | .reject _ _ (.expired _) => True
  | .expire _ (.expired _) => True
  | _ => False

/-- The event neither begins an attempt nor owes an authorization. -/
def Event.Continues (event : Event Digest Signature) : Prop :=
  event.prepares = false ∧ event.owes = none

/-! ## What an operation can do -/

/-- Everything that an operation does to the phase. An event that keeps an active attempt
did not interrupt it. -/
inductive Move :
    Phase Digest Signature → Event Digest Signature → Phase Digest Signature → Prop where
  | begins {attempt event} (h : event.Begins crypto attempt) :
      Move .idle event (.active attempt .offerPrepared)
  | dispatches (attempt) :
      Move (.active attempt .offerPrepared)
        (.offerDispatched (attempt.attemptId crypto) (.awaitingConfirmation attempt))
        (.active attempt (.confirming .both))
  | approves {attempt now} (h : now < attempt.window.expiresAt) :
      Move (.active attempt (.confirming .both))
        (.approve (attempt.attemptId crypto) now
          (.awaitingControllerCommit (attempt.attemptId crypto)))
        (.active attempt (.confirming .controllerCommit))
  | commits {attempt arrival now} (harrival : CommitsTo crypto attempt.transcript arrival)
      (h : now < attempt.window.expiresAt) :
      Move (.active attempt (.confirming .both))
        (.commit arrival now (.awaitingTargetApproval (attempt.attemptId crypto)))
        (.active attempt (.confirming (.targetApproval arrival.responder)))
  | approvesLast {attempt responder now} (h : now < attempt.window.expiresAt) :
      Move (.active attempt (.confirming (.targetApproval responder)))
        (.approve (attempt.attemptId crypto) now
          (.authorizationOwed (attempt.attemptId crypto) attempt.grant))
        (.authorizing attempt responder .unprepared)
  | commitsLast {attempt arrival now} (harrival : CommitsTo crypto attempt.transcript arrival)
      (h : now < attempt.window.expiresAt) :
      Move (.active attempt (.confirming .controllerCommit))
        (.commit arrival now (.authorizationOwed (attempt.attemptId crypto) attempt.grant))
        (.authorizing attempt arrival.responder .unprepared)
  | signs {attempt responder signer completed event}
      (hsigned : RemoteControlPairingCompleted.signedBy crypto signer attempt.transcript =
        .ok completed)
      (hcontinues : event.Continues) (hreleases : event.releases = none) :
      Move (.authorizing attempt responder .unprepared) event
        (.authorizing attempt responder (.prepared completed))
  | settles {attempt responder completion completed event}
      (hsigned : completion = .prepared completed ∨ ∃ signer,
        RemoteControlPairingCompleted.signedBy crypto signer attempt.transcript = .ok completed)
      (hcontinues : event.Continues)
      (hreleases : event.releases = some (attempt.attemptId crypto, completed))
      (hreports : event.ReportsPersisted (attempt.attemptId crypto)) :
      Move (.authorizing attempt responder completion) event
        (.completing attempt responder completed)
  | releases {attempt responder completed event} (hcontinues : event.Continues)
      (hreleases : event.releases = some (attempt.attemptId crypto, completed)) :
      Move (.completing attempt responder completed) event
        (.completing attempt responder completed)
  | stays {phase event} (hcontinues : event.Continues) (hreleases : event.releases = none)
      (hkeeps : ∀ attempt stage, phase = .active attempt stage →
        ¬ event.Interrupts attempt.transcript.context.linkId) :
      Move phase event phase
  | ends {phase event} (hcontinues : event.Continues) (hreleases : event.releases = none) :
      Move phase event .idle

variable {crypto} {phase next : Phase Digest Signature} {attempt : Attempt}
  {outcome : PersistAuthorizationOutcome Digest Signature}

theorem validateCommit_none {arrival : CommitArrival Digest}
    (h : validateCommit crypto attempt arrival = none) :
    CommitsTo crypto attempt.transcript arrival := by
  unfold validateCommit at h
  dsimp only at h
  split_ifs at h with hlink hcontroller hmatches
  have hcommit : arrival.commit.matches crypto attempt.transcript = true := by
    simpa using hmatches
  rw [RemoteControlPairingCommit.matches, Bool.and_eq_true, beq_iff_eq, beq_iff_eq] at hcommit
  exact ⟨not_not.mp hlink, not_not.mp hcontroller, hcommit.1, hcommit.2⟩

variable {targetSigner : IdentitySigner Signature} {now : Nat}

omit [DecidableEq Digest] in
theorem lt_expiresAt {stage : ActiveStage}
    (h : takeExpiredAttempt crypto (.active attempt stage) now = none) :
    now < attempt.window.expiresAt := by
  by_contra hdue
  rw [takeExpiredAttempt, if_pos (Nat.le_of_not_lt hdue)] at h
  cases h

variable {settled : Digest}

theorem settlePreparedAuthorization_move
    {outcome : Option (PersistAuthorizationOutcome Digest Signature)}
    (h : settlePreparedAuthorization crypto phase settled now = (next, outcome)) :
    Move crypto phase (.settlePreparedAuthorization settled now outcome) next := by
  unfold settlePreparedAuthorization at h
  repeat' split at h
  all_goals
    cases h
    try first
      | exact .ends ⟨rfl, rfl⟩ rfl
      | exact .stays ⟨rfl, rfl⟩ rfl fun _ _ _ => id
  · rename_i hid
    exact .settles (Or.inl rfl) ⟨rfl, rfl⟩ rfl (not_not.mp hid)
  · exact .releases ⟨rfl, rfl⟩ rfl

omit [DecidableEq Digest] in
theorem Move.persisted
    (h : Move crypto phase (.settlePreparedAuthorization settled now (some outcome)) next) :
    Move crypto phase (.authorizationPersisted settled targetSigner now outcome) next := by
  have hreleases : (Event.authorizationPersisted settled targetSigner now outcome).releases =
      (Event.settlePreparedAuthorization settled now (some outcome)).releases := by
    cases outcome <;> rfl
  cases h with
  | begins hbegins => cases hbegins
  | signs hsigned _ hnone => exact .signs hsigned ⟨rfl, rfl⟩ (hreleases.trans hnone)
  | settles hsigned _ hsome hreports =>
    apply Move.settles hsigned ⟨rfl, rfl⟩ (hreleases.trans hsome)
    cases outcome with
    | completionOwed _ _ _ => exact hreports
    | _ => cases hsome
  | releases _ hsome => exact .releases ⟨rfl, rfl⟩ (hreleases.trans hsome)
  | stays _ hnone _ => exact .stays ⟨rfl, rfl⟩ (hreleases.trans hnone) fun _ _ _ => id
  | ends _ hnone => exact .ends ⟨rfl, rfl⟩ (hreleases.trans hnone)

theorem settlePreparedAuthorization_none
    (h : settlePreparedAuthorization crypto phase settled now = (next, none)) : next = phase := by
  unfold settlePreparedAuthorization at h
  split at h
  · cases h
  split at h
  · split_ifs at h <;> cases h
  · split_ifs at h <;> cases h
  all_goals
    cases h
    rfl

theorem persistUnsettled_move
    (h : persistUnsettled crypto phase settled targetSigner now = (next, outcome)) :
    Move crypto phase (.authorizationPersisted settled targetSigner now outcome) next := by
  unfold persistUnsettled at h
  repeat' split at h
  all_goals
    cases h
    try first
      | exact .ends ⟨rfl, rfl⟩ rfl
      | exact .stays ⟨rfl, rfl⟩ rfl fun _ _ _ => id
  · rename_i attempt responder completion hid _ _ completed hsigned
    have horigin : completion = .prepared completed ∨ ∃ signer,
        RemoteControlPairingCompleted.signedBy crypto signer attempt.transcript =
          .ok completed := by
      cases completion with
      | unprepared => exact Or.inr ⟨targetSigner, hsigned⟩
      | prepared _ =>
        cases hsigned
        exact Or.inl rfl
    exact .settles horigin ⟨rfl, rfl⟩ rfl (not_not.mp hid)
  · rename_i completion _ _ _ _ hfailed
    cases completion with
    | unprepared => exact .stays ⟨rfl, rfl⟩ rfl fun _ _ _ => id
    | prepared _ => cases hfailed
  · exact .releases ⟨rfl, rfl⟩ rfl

variable {event : Event Digest Signature}

/-- Every operation is one of the moves. -/
theorem Step.move (h : Step crypto phase event next) : Move crypto phase event next := by
  cases h with
  | begin h =>
    unfold RemoteControlTargetPairing.begin beginIdle at h
    dsimp only at h
    repeat' split at h
    all_goals
      cases h
      try first
        | exact .ends ⟨rfl, rfl⟩ rfl
        | exact .stays ⟨rfl, rfl⟩ rfl fun _ _ _ => id
    · rename_i hidle _ _ hwindow _ _ _ hprepared
      unfold AttemptWindow.new at hwindow
      split_ifs at hwindow
      cases hwindow
      cases phase with
      | idle => exact .begins ⟨hprepared, rfl, rfl⟩
      | active _ _ => cases hidle
      | authorizing _ _ _ => cases hidle
      | completing _ _ _ => cases hidle
  | offerDispatched h =>
    unfold RemoteControlTargetPairing.offerDispatched at h
    repeat' split at h
    all_goals
      cases h
      try first
        | exact .ends ⟨rfl, rfl⟩ rfl
        | exact .stays ⟨rfl, rfl⟩ rfl fun _ _ _ => id
    · rename_i hid
      rw [not_not.mp hid]
      exact .dispatches _
  | approve h =>
    unfold RemoteControlTargetPairing.approve approveConfirming at h
    repeat' split at h
    all_goals
      cases h
      try first
        | exact .ends ⟨rfl, rfl⟩ rfl
        | exact .stays ⟨rfl, rfl⟩ rfl fun _ _ _ => id
    · rename_i hid _ _ hdue
      rw [not_not.mp hid]
      exact .approves (lt_expiresAt hdue)
    · rename_i hid _ _ _ hdue
      rw [not_not.mp hid]
      exact .approvesLast (lt_expiresAt hdue)
  | commit h =>
    unfold RemoteControlTargetPairing.commit commitValidated at h
    repeat' split at h
    all_goals
      cases h
      try first
        | exact .ends ⟨rfl, rfl⟩ rfl
        | exact .stays ⟨rfl, rfl⟩ rfl fun _ _ _ => id
    · rename_i hvalid _ _ _ hdue hattempt
      cases hattempt
      exact .commits (validateCommit_none hvalid) (lt_expiresAt hdue)
    · rename_i hvalid _ _ _ hdue hattempt
      cases hattempt
      exact .commitsLast (validateCommit_none hvalid) (lt_expiresAt hdue)
    · exact .releases ⟨rfl, rfl⟩ rfl
  | prepareAuthorization h =>
    unfold RemoteControlTargetPairing.prepareAuthorization at h
    repeat' split at h
    all_goals
      cases h
      try first
        | exact .ends ⟨rfl, rfl⟩ rfl
        | exact .stays ⟨rfl, rfl⟩ rfl fun _ _ _ => id
    · rename_i hsigned
      exact .signs hsigned ⟨rfl, rfl⟩ rfl
  | authorizationPersisted h =>
    unfold RemoteControlTargetPairing.authorizationPersisted at h
    split at h
    · rename_i hsettle
      cases h
      exact (settlePreparedAuthorization_move hsettle).persisted
    rename_i hsettle
    have hkept := settlePreparedAuthorization_none hsettle
    subst hkept
    split at h
    · cases h
      exact .ends ⟨rfl, rfl⟩ rfl
    · exact persistUnsettled_move h
  | settlePreparedAuthorization h => exact settlePreparedAuthorization_move h
  | closeLink h =>
    unfold RemoteControlTargetPairing.closeLink at h
    repeat' split at h
    all_goals
      cases h
      try exact .ends ⟨rfl, rfl⟩ rfl
    all_goals
      apply Move.stays ⟨rfl, rfl⟩ rfl
      intro attempt stage heq
      cases heq
    · rename_i hlink
      exact fun hinterrupts => hlink hinterrupts.symm
  | offerDispatchFailed h | reject h | authorizationFailed h | expire h =>
    -- these end the attempt or leave it
    first
    | unfold RemoteControlTargetPairing.offerDispatchFailed at h
    | unfold RemoteControlTargetPairing.reject rejectConfirming at h
    | unfold RemoteControlTargetPairing.authorizationFailed at h
    | unfold RemoteControlTargetPairing.expire at h
    repeat' split at h
    all_goals
      cases h
      first
      | exact .ends ⟨rfl, rfl⟩ rfl
      | exact .stays ⟨rfl, rfl⟩ rfl fun _ _ _ => id

theorem Step.begins (h : Step crypto phase event next) (hprepares : event.prepares = true) :
    ∃ attempt, event.Begins crypto attempt := by
  cases h.move with
  | begins hbegins => exact ⟨_, hbegins⟩
  | dispatches _ | approves _ | commits _ _ | approvesLast _ | commitsLast _ _ => cases hprepares
  | signs _ hcontinues _ | settles _ hcontinues _ _ | releases hcontinues _ | stays hcontinues _ _
    | ends hcontinues _ => exact absurd hprepares (by rw [hcontinues.1]; decide)

theorem Run.begins {history : List (Event Digest Signature)} (run : Run crypto history phase) :
    ∀ event ∈ history, event.prepares = true → ∃ attempt, event.Begins crypto attempt := by
  induction run with
  | start => exact fun event hmem => absurd hmem List.not_mem_nil
  | next run step ih =>
    intro event hmem hprepares
    rcases List.mem_append.mp hmem with hold | hnew
    · exact ih event hold hprepares
    · cases List.mem_singleton.mp hnew
      exact step.begins hprepares

end

end Prns.Ports.RemoteControlTargetPairing
