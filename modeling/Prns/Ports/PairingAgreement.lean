import Prns.Ports.TargetPairingConsent
import Prns.Ports.ControllerPairing

/-!
# Pairing agreement

A controller and a target run side by side and share only messages. The network may drop,
repeat, delay and reorder them: whatever the target has sent may reach the controller at
any later moment, any number of times, or never. It may also make messages up, but none
that bears a signature of the target.

The target hands out a completion only after storage reported, so a completion that the
controller accepts ties the two histories together; since the transcript is spelled
without ambiguity, the digest in it ties the permissions that both sides store.
-/

namespace Prns.Ports.PairingAgreement

open Verified
open RemoteControl
open Pairing
open RemoteControlTargetPairing (Attempt OwedSince)
open RemoteControlControllerPairing

/-- An operation of one of the two parties. -/
inductive PairingEvent (Digest Signature : Type) where
  | target (event : RemoteControlTargetPairing.Event Digest Signature)
  | controller (event : RemoteControlControllerPairing.Event Digest Signature)

section

variable {Digest Signature : Type} [DecidableEq Digest]

def targetEvents (history : List (PairingEvent Digest Signature)) :
    List (RemoteControlTargetPairing.Event Digest Signature) :=
  history.filterMap fun
    | .target event => some event
    | .controller _ => none

def controllerEvents (history : List (PairingEvent Digest Signature)) :
    List (RemoteControlControllerPairing.Event Digest Signature) :=
  history.filterMap fun
    | .controller event => some event
    | .target _ => none

/-- The offer that the event of the target sends. -/
def offerSent : RemoteControlTargetPairing.Event Digest Signature →
    Option (RemoteControlPairingOffer Signature)
  | .begin _ _ _ _ (.offerPrepared _ _ offer) => some offer
  | _ => none

/-- A begin of the target is answered under its own identity. -/
def SignedWith (signer : IdentitySigner Signature) :
    RemoteControlTargetPairing.Event Digest Signature → Prop
  | .begin targetSigner _ _ _ _ => targetSigner = signer
  | _ => True

variable (crypto : PairingCrypto Digest Signature) (signer : IdentitySigner Signature)

/-- Distinct spellings of transcripts have distinct digests. -/
def CollisionFree : Prop :=
  ∀ a b : RemoteControlPairingTranscript, a.digest crypto = b.digest crypto → a.bytes = b.bytes

/-- The key accepts the signature for no message. -/
def Forged (key : Bytes 32) (signature : Signature) : Prop :=
  ∀ message, crypto.ed25519Verify key message signature = false

/-- What the network may hand to the controller: an offer or a completion that the target
has sent, or a forgery. -/
def Delivered (history : List (PairingEvent Digest Signature)) :
    RemoteControlControllerPairing.Event Digest Signature → Prop
  | .receiveOffer offer _ _ =>
      (∃ event ∈ targetEvents history, offerSent event = some offer) ∨
        Forged crypto offer.target.publicKeys.signing offer.signature
  | .receiveCompleted completed _ _ =>
      (∃ event ∈ targetEvents history, ∃ attemptId,
        event.releases = some (attemptId, completed)) ∨
        Forged crypto signer.publicKeys.signing completed.signature
  | _ => True

/-- The interleavings of the two parties. What reaches the target is not restricted: it
may hear from other controllers as well. -/
inductive PairingRun : List (PairingEvent Digest Signature) →
    RemoteControlTargetPairing.Phase Digest Signature →
    RemoteControlControllerPairing.Phase Digest → Prop where
  | start : PairingRun [] .idle .idle
  | target {history target controller event next} (run : PairingRun history target controller)
      (hsigned : SignedWith signer event)
      (step : RemoteControlTargetPairing.Step crypto target event next) :
      PairingRun (history ++ [.target event]) next controller
  | controller {history target controller event next}
      (run : PairingRun history target controller)
      (hdelivered : Delivered crypto signer history event)
      (step : RemoteControlControllerPairing.Step crypto controller event next) :
      PairingRun (history ++ [.controller event]) target next

/-- The two parties agree on an attempt for which the controller owes an access to
storage. -/
structure Agreed (history : List (PairingEvent Digest Signature)) (attemptId : Digest)
    (access : RemoteControlTargetAccess) : Prop where
  /-- The user of the controller approved the attempt. -/
  controllerApproved : ∃ event ∈ controllerEvents history, event.Approves attemptId
  /-- The user of the target approved the attempt. -/
  targetApproved : ∃ attempt : Attempt, attempt.attemptId crypto = attemptId ∧
    ∃ event ∈ targetEvents history, event.Approves crypto attempt
  /-- The target owed a grant for the attempt, and after that reported it persisted; the
  grant gives what the access gives. -/
  stored : ∃ grant before after since, targetEvents history = before ++ after ∧
    OwedSince attemptId grant before since ∧
    (∃ event ∈ since, event.ReportsPersisted attemptId) ∧
    access.authority = grant.authority ∧ access.permittedRequests = grant.permittedRequests
  /-- The access names the target. -/
  target : access.target.publicKeys = signer.publicKeys

structure OfTarget (transcript : RemoteControlPairingTranscript) : Prop where
  target : transcript.target.publicKeys = signer.publicKeys
  spelled : Spelled transcript.protocolVersion transcript.permissions

/-- What the history says of the phase of the controller. -/
def Held (history : List (PairingEvent Digest Signature)) :
    RemoteControlControllerPairing.Phase Digest → Prop
  | .idle => True
  | .awaitingOffer _ _ _ => True
  | .awaitingApproval transcript _ => OfTarget signer transcript
  | .awaitingCompletion transcript _ =>
      OfTarget signer transcript ∧
        ∃ event ∈ controllerEvents history, event.Approves (transcript.digest crypto)
  | .persisting attemptId _ access => Agreed crypto signer history attemptId access

variable {crypto signer} {history : List (PairingEvent Digest Signature)}
  {target : RemoteControlTargetPairing.Phase Digest Signature}
  {controller next : RemoteControlControllerPairing.Phase Digest}
  (event : PairingEvent Digest Signature)

omit [DecidableEq Digest] in
theorem targetEvents_snoc :
    targetEvents (history ++ [event]) = targetEvents history ++ targetEvents [event] :=
  List.filterMap_append

omit [DecidableEq Digest] in
theorem controllerEvents_snoc :
    controllerEvents (history ++ [event]) = controllerEvents history ++ controllerEvents [event] :=
  List.filterMap_append

omit [DecidableEq Digest] in
theorem exists_controller_snoc {P : Event Digest Signature → Prop}
    (h : ∃ event ∈ controllerEvents history, P event) (event : PairingEvent Digest Signature) :
    ∃ x ∈ controllerEvents (history ++ [event]), P x := by
  obtain ⟨x, hmem, hx⟩ := h
  rw [controllerEvents_snoc]
  exact ⟨x, List.mem_append_left _ hmem, hx⟩

omit [DecidableEq Digest] in
theorem Agreed.snoc {attemptId : Digest} {access : RemoteControlTargetAccess}
    (h : Agreed crypto signer history attemptId access) (event : PairingEvent Digest Signature) :
    Agreed crypto signer (history ++ [event]) attemptId access := by
  constructor
  · exact exists_controller_snoc h.controllerApproved event
  · obtain ⟨attempt, hid, x, hmem, hx⟩ := h.targetApproved
    rw [targetEvents_snoc]
    exact ⟨attempt, hid, x, List.mem_append_left _ hmem, hx⟩
  · obtain ⟨grant, before, after, since, hsplit, hrest⟩ := h.stored
    rw [targetEvents_snoc, hsplit, List.append_assoc]
    exact ⟨grant, before, _, since, rfl, hrest⟩
  · exact h.target

omit [DecidableEq Digest] in
theorem Held.snoc (h : Held crypto signer history controller)
    (event : PairingEvent Digest Signature) :
    Held crypto signer (history ++ [event]) controller := by
  cases controller with
  | idle => trivial
  | awaitingOffer _ _ _ => trivial
  | awaitingApproval _ _ => exact h
  | awaitingCompletion _ _ => exact ⟨h.1, exists_controller_snoc h.2 event⟩
  | persisting _ _ _ => exact Agreed.snoc h event

variable (run : PairingRun crypto signer history target controller)
include run

theorem PairingRun.targetRun :
    RemoteControlTargetPairing.Run crypto (targetEvents history) target := by
  induction run with
  | start => exact .start
  | target run hsigned step ih =>
    rw [targetEvents_snoc]
    exact ih.next step
  | controller run hdelivered step ih =>
    rw [targetEvents_snoc]
    exact (List.append_nil _).symm ▸ ih

theorem PairingRun.signedWith : ∀ event ∈ targetEvents history, SignedWith signer event := by
  induction run with
  | start => exact fun event hmem => absurd hmem List.not_mem_nil
  | target run hsigned step ih =>
    intro event hmem
    rw [targetEvents_snoc] at hmem
    rcases List.mem_append.mp hmem with hold | hnew
    · exact ih event hold
    · rw [List.mem_singleton.mp hnew]
      exact hsigned
  | controller run hdelivered step ih =>
    intro event hmem
    rw [targetEvents_snoc] at hmem
    rcases List.mem_append.mp hmem with hold | hnew
    · exact ih event hold
    · exact absurd hnew List.not_mem_nil

omit run

variable {transcript : RemoteControlPairingTranscript}

omit [DecidableEq Digest] in
theorem preparedOffer_ok {context : RemoteControlPairingContext} {begin : RemoteControlPairingBegin}
    {permissions : RemoteControlPairingPermissions} {timeout : RemoteControlPairingAttemptTimeout}
    {offer : RemoteControlPairingOffer Signature}
    (h : preparedOffer crypto signer context begin permissions timeout = .ok (offer, transcript)) :
    OfTarget signer transcript ∧ offer.protocolVersion = transcript.protocolVersion ∧
      offer.target = transcript.target ∧ offer.permissions = transcript.permissions := by
  unfold preparedOffer at h
  split_ifs at h with hauthority
  split at h
  · cases h
  rename_i hrequests
  cases h
  refine ⟨⟨rfl, ?_, hrequests⟩, rfl, rfl, rfl⟩
  intro hversion
  by_contra hoperator
  exact hauthority ⟨hversion, hoperator⟩

omit [DecidableEq Digest] in
theorem ofTarget_of_begins {attempt : Attempt}
    {event : RemoteControlTargetPairing.Event Digest Signature} (hsigned : SignedWith signer event)
    (h : event.Begins crypto attempt) : OfTarget signer attempt.transcript := by
  cases event with
  | begin targetSigner session arrival startedAt outcome =>
    cases outcome with
    | offerPrepared attemptId responder offer =>
      cases hsigned
      exact (preparedOffer_ok h.1).1
    | _ => cases h
  | _ => cases h

/-! ## Agreement -/

/-- A completion that the target sent for a transcript of its own brings agreement. -/
theorem PairingRun.agreed (hash : CollisionFree crypto)
    (run : PairingRun crypto signer history target controller) (hof : OfTarget signer transcript)
    (happroved : ∃ event ∈ controllerEvents history, event.Approves (transcript.digest crypto))
    {completed : RemoteControlPairingCompleted Digest Signature}
    (hdigest : completed.transcript = transcript.digest crypto)
    (hsent : ∃ event ∈ targetEvents history, ∃ attemptId,
      event.releases = some (attemptId, completed)) :
    Agreed crypto signer history (transcript.digest crypto)
      (.ofPermissions transcript.target transcript.permissions) := by
  -- The completion was released after storage reported the authorization of its digest.
  obtain ⟨release, hmem, attemptId, hreleases⟩ := hsent
  obtain ⟨before, after, hhistory⟩ := List.append_of_mem hmem
  obtain ⟨⟨grant, since, howed, hreports⟩, hcompleted⟩ :=
    run.targetRun.released before release after hhistory attemptId completed hreleases
  obtain rfl : attemptId = transcript.digest crypto := hcompleted.symm.trans hdigest
  -- That authorization was owed for an attempt to which the local user consented.
  obtain ⟨earlier, owed, hsplit, howes, hcontinue⟩ := howed
  have hhistory' : targetEvents history = before ++ [release] ++ after := by
    rw [hhistory, List.append_assoc, List.singleton_append]
  have howedHistory : targetEvents history = earlier ++ owed :: (since ++ after) := by
    rw [hhistory', hsplit, List.append_assoc, List.cons_append]
  obtain ⟨attempt, ⟨begun, ⟨first, began, hbegan, hbegins, -⟩, confirming, hdispatched,
    ⟨approval, happroval, happroves⟩, -⟩, hid, hgrant⟩ :=
    run.targetRun.consented earlier owed _ howedHistory _ grant howes
  -- The digest determines the transcript, and so what both sides store.
  have hbeganMem : began ∈ targetEvents history := by
    rw [howedHistory, hbegan]
    simp
  have hofAttempt := ofTarget_of_begins (run.signedWith began hbeganMem) hbegins
  have htranscript : attempt.transcript = transcript :=
    RemoteControlPairingTranscript.bytes_inj hofAttempt.spelled hof.spelled (hash _ _ hid)
  constructor
  · exact happroved
  · refine ⟨attempt, hid, approval, ?_, happroves⟩
    obtain ⟨offered, dispatch, hconfirming, -⟩ := hdispatched
    have hinside : approval ∈ begun ++ [owed] := by
      rw [hconfirming]
      simp [happroval]
    rw [howedHistory, hbegan]
    rcases List.mem_append.mp hinside with hold | hnew
    · simp [hold]
    · simp [List.mem_singleton.mp hnew]
  · refine ⟨grant, before ++ [release], after, since, hhistory', ?_, hreports, ?_, ?_⟩
    · exact ⟨earlier, owed, hsplit, howes, hcontinue⟩
    · rw [hgrant, ← htranscript]
      rfl
    · rw [hgrant, ← htranscript]
      rfl
  · exact hof.target

theorem PairingRun.held (hash : CollisionFree crypto)
    (run : PairingRun crypto signer history target controller) :
    Held crypto signer history controller := by
  induction run with
  | start => trivial
  | target run hsigned step ih => exact ih.snoc _
  | controller run hdelivered step ih =>
    rename_i history target controller event next
    have hold := ih.snoc (.controller event)
    cases step.move with
    | begins => trivial
    | offered hverified =>
      rcases hdelivered with hsent | hforged
      · -- an offer that the target sent makes a transcript of the target
        obtain ⟨event, hmem, hoffer⟩ := hsent
        have hsigned := run.signedWith event hmem
        have hbegins : ∃ attempt, event.Begins crypto attempt := run.targetRun.begins event hmem (by
          cases event with
          | begin _ _ _ _ outcome =>
            cases outcome with
            | offerPrepared _ _ _ => rfl
            | _ => cases hoffer
          | _ => cases hoffer)
        obtain ⟨attempt, hbegins⟩ := hbegins
        cases event with
        | begin targetSigner session arrival startedAt outcome =>
          cases outcome with
          | offerPrepared attemptId responder prepared =>
            cases hoffer
            cases hsigned
            obtain ⟨hof, hversion, htarget, hpermissions⟩ := preparedOffer_ok hbegins.1
            have hspelled := hof.spelled
            rw [← hversion, ← hpermissions] at hspelled
            exact ⟨(congrArg (·.publicKeys) htarget).trans hof.target, hspelled⟩
          | _ => cases hoffer
        | _ => cases hoffer
      · unfold RemoteControlPairingOffer.verifyController at hverified
        dsimp only at hverified
        rw [hforged] at hverified
        cases hverified
    | approves happroves =>
      refine ⟨hold, event, ?_, happroves⟩
      rw [controllerEvents_snoc]
      exact List.mem_append_right _ (List.mem_singleton_self event)
    | completes hverified =>
      unfold RemoteControlPairingCompleted.verify at hverified
      split_ifs at hverified with hversion hdigest hsignature
      rw [not_not] at hdigest
      rcases hdelivered with hsent | hforged
      · exact (run.agreed hash ih.1 ih.2 hdigest hsent).snoc _
      · rw [ih.1.target, hforged] at hsignature
        cases hsignature
    | stays => exact hold
    | ends => trivial

/-- Pairing agreement. In every run, whenever the controller owes the storing of an access
for an attempt, both users approved that attempt, the target has reported its
authorization persisted, and the access names the target and gives what the grant of the
target gives. -/
theorem pairing_agreement (hash : CollisionFree crypto)
    (run : PairingRun crypto signer history target controller) {attemptId : Digest}
    {access : RemoteControlTargetAccess}
    (howes : RemoteControlControllerPairing.targetAccess controller attemptId = some access) :
    Agreed crypto signer history attemptId access := by
  have hheld := run.held hash
  cases controller with
  | persisting active context stored =>
    rw [targetAccess] at howes
    split_ifs at howes with hid
    cases howes
    cases not_not.mp hid
    exact hheld
  | _ => cases howes

end

/-! ## A sample -/

section

open RemoteControlTargetPairing

theorem length_zeros : [(0 : UInt8), 0, 0, 0].length = 4 := rfl

/-- The controller of the sample session begins on its link. -/
def controllerBegun :
    RemoteControlControllerPairing.Phase (List UInt8) ×
      RemoteControlControllerPairing.BeginOutcome (List UInt8) :=
  RemoteControlControllerPairing.begin plainCrypto .idle ⟨filledKeys 1⟩
    ⟨filledId 3, filledId 9⟩ ⟨[0, 0, 0, 0], length_zeros⟩ 0 60000

def sentOffer : RemoteControlPairingOffer Unit :=
  (offerSent (.begin plainSigner describeSession plainBegin 0 begun.2)).getD
    ⟨.v4, ⟨filledKeys 7⟩, describeSession.permissions, describeSession.attemptTimeout, ()⟩

def controllerOffered :
    RemoteControlControllerPairing.Phase (List UInt8) ×
      RemoteControlControllerPairing.ReceiveOfferOutcome (List UInt8) :=
  RemoteControlControllerPairing.receiveOffer plainCrypto controllerBegun.1 sentOffer 500

def controllerApproved :
    RemoteControlControllerPairing.Phase (List UInt8) ×
      RemoteControlControllerPairing.ApproveOutcome (List UInt8) :=
  RemoteControlControllerPairing.approve plainCrypto controllerOffered.1 begunId 1500

def sentCompleted : RemoteControlPairingCompleted (List UInt8) Unit :=
  (persistedEvent.releases.map Prod.snd).getD ⟨.v4, [], ()⟩

def controllerCompleted :
    RemoteControlControllerPairing.Phase (List UInt8) ×
      RemoteControlControllerPairing.ReceiveCompletedOutcome (List UInt8) :=
  RemoteControlControllerPairing.receiveCompleted plainCrypto controllerApproved.1 sentCompleted 4000

/-- The two parties in turn, up to the report of storage. -/
def storedHistory : List (PairingEvent (List UInt8) Unit) :=
  [.controller (.begin ⟨filledKeys 1⟩ ⟨filledId 3, filledId 9⟩ ⟨[0, 0, 0, 0], length_zeros⟩ 0 60000
      controllerBegun.2),
    .target (.begin plainSigner describeSession plainBegin 0 begun.2),
    .target (.offerDispatched begunId dispatched.2),
    .controller (.receiveOffer sentOffer 500 controllerOffered.2),
    .target (.approve begunId 1000 approved.2),
    .controller (.approve begunId 1500 controllerApproved.2),
    .target commitEvent,
    .target persistedEvent]

theorem offerSent_begun :
    offerSent (.begin plainSigner describeSession plainBegin 0 begun.2) = some sentOffer := by
  rfl

theorem releases_persistedEvent :
    ∃ attemptId, persistedEvent.releases = some (attemptId, sentCompleted) := by
  have hsome : persistedEvent.releases.isSome = true := by decide +kernel
  obtain ⟨⟨attemptId, completed⟩, hreleases⟩ := Option.isSome_iff_exists.mp hsome
  rw [sentCompleted, hreleases]
  exact ⟨attemptId, rfl⟩

theorem storedRun :
    PairingRun plainCrypto plainSigner storedHistory persisted.1 controllerApproved.1 := by
  have hcontrollerBegun : Step plainCrypto .idle
      (.begin ⟨filledKeys 1⟩ ⟨filledId 3, filledId 9⟩ ⟨[0, 0, 0, 0], length_zeros⟩ 0 60000
        controllerBegun.2) controllerBegun.1 := .begin (Prod.eta controllerBegun).symm
  have hbegun : Step plainCrypto .idle
      (.begin plainSigner describeSession plainBegin 0 begun.2) begun.1 :=
    .begin (Prod.eta begun).symm
  have hdispatched : Step plainCrypto begun.1 (.offerDispatched begunId dispatched.2)
      dispatched.1 := .offerDispatched (Prod.eta dispatched).symm
  have hoffered : Step plainCrypto controllerBegun.1
      (.receiveOffer sentOffer 500 controllerOffered.2) controllerOffered.1 :=
    .receiveOffer (Prod.eta controllerOffered).symm
  have happroved : Step plainCrypto dispatched.1 (.approve begunId 1000 approved.2)
      approved.1 := .approve (Prod.eta approved).symm
  have hcontrollerApproved : Step plainCrypto controllerOffered.1
      (.approve begunId 1500 controllerApproved.2) controllerApproved.1 :=
    .approve (Prod.eta controllerApproved).symm
  have hcommitted : Step plainCrypto approved.1 commitEvent committed.1 :=
    .commit (Prod.eta committed).symm
  have hpersisted : Step plainCrypto committed.1 persistedEvent persisted.1 :=
    .authorizationPersisted (Prod.eta persisted).symm
  have hstart : PairingRun plainCrypto plainSigner [] .idle .idle := .start
  have hprepared := (hstart.controller (by trivial) hcontrollerBegun).target (by rfl) hbegun
  have hsent := hprepared.target (by trivial) hdispatched
  have hconfirming := hsent.controller
    (by exact Or.inl ⟨_, List.mem_cons_self, offerSent_begun⟩) hoffered
  have hboth := (hconfirming.target (by trivial) happroved).controller (by trivial)
    hcontrollerApproved
  exact (hboth.target (by trivial) hcommitted).target (by trivial) hpersisted

/-- The controller receives the completion of the sample session and owes an access. -/
theorem pairing_agreement_paired : CollisionFree plainCrypto ∧
      ∃ access, RemoteControlControllerPairing.targetAccess controllerCompleted.1 begunId =
          some access ∧
        Agreed plainCrypto plainSigner
          (storedHistory ++ [.controller (.receiveCompleted sentCompleted 4000
            controllerCompleted.2)]) begunId access := by
  have hash : CollisionFree plainCrypto := fun a b h => h
  have hmem : persistedEvent ∈ targetEvents storedHistory := by
    simp [targetEvents, storedHistory]
  have hreceived : Step plainCrypto controllerApproved.1
      (.receiveCompleted sentCompleted 4000 controllerCompleted.2) controllerCompleted.1 :=
    .receiveCompleted (Prod.eta controllerCompleted).symm
  have run := storedRun.controller
    (by exact Or.inl ⟨persistedEvent, hmem, releases_persistedEvent⟩) hreceived
  have hsome : (targetAccess controllerCompleted.1 begunId).isSome = true := by decide +kernel
  obtain ⟨access, howes⟩ := Option.isSome_iff_exists.mp hsome
  exact ⟨hash, access, howes, pairing_agreement hash run howes⟩

end

end Prns.Ports.PairingAgreement
