import Prns.Verified.Histories
import Prns.Ports.TargetPairingRuns

/-!
# The consents behind an authorization

The target owes an authorization only after its offer was dispatched, the local user
approved the attempt and the controller committed to it; it hands out a completion only
after storage reported that authorization persisted.
-/

namespace Prns.Ports.RemoteControlTargetPairing

open Verified
open RemoteControl
open Pairing

section

variable {Digest Signature : Type} [DecidableEq Digest] (crypto : PairingCrypto Digest Signature)

/-- The event leaves the attempt as it found it or carries it on: it does not interrupt it,
begins no other one and owes nothing. -/
def Event.Undisturbing (attempt : Attempt) (event : Event Digest Signature) : Prop :=
  ¬ event.Interrupts attempt.transcript.context.linkId ∧ event.Continues

/-- The history since the attempt began. -/
def BegunSince (attempt : Attempt) (history since : List (Event Digest Signature)) : Prop :=
  Since (Event.Begins crypto attempt) (Event.Undisturbing attempt) history since

def DispatchedSince (attempt : Attempt) (history since : List (Event Digest Signature)) : Prop :=
  Since (Event.Dispatches crypto attempt) (fun _ => True) history since

/-- Both consents to an authorization that is owed now. Since the attempt began, and with
nothing to disturb it, its offer was dispatched, and since then the local user approved it
and its controller committed to it; one of the two is the event that owes. -/
def Consented (before : List (Event Digest Signature)) (owed : Event Digest Signature)
    (attempt : Attempt) : Prop :=
  ∃ since, BegunSince crypto attempt before since ∧
    ∃ confirming, DispatchedSince crypto attempt (since ++ [owed]) confirming ∧
      (∃ event ∈ confirming, event.Approves crypto attempt) ∧
      (∃ event ∈ confirming, event.Commits crypto attempt)

/-- The history since the authorization was owed. -/
def OwedSince (attemptId : Digest) (grant : RemoteControlControllerGrant)
    (history since : List (Event Digest Signature)) : Prop :=
  Since (fun event => event.owes = some (attemptId, grant)) Event.Continues history since

/-- The completion of the attempt is released after the authorization that was owed for it
was reported persisted, and with no other attempt begun since. -/
def Persisted (history : List (Event Digest Signature)) (attemptId : Digest) : Prop :=
  ∃ grant since, OwedSince attemptId grant history since ∧
    ∃ event ∈ since, event.ReportsPersisted attemptId

/-! ## The invariant -/

/-- What the events since the begin of an active attempt say of its stage. -/
def Progress (attempt : Attempt) (since : List (Event Digest Signature)) : ActiveStage → Prop
  | .offerPrepared => True
  | .confirming .both => ∃ confirming, DispatchedSince crypto attempt since confirming
  | .confirming (.targetApproval _) =>
      ∃ confirming, DispatchedSince crypto attempt since confirming ∧
        ∃ event ∈ confirming, event.Commits crypto attempt
  | .confirming .controllerCommit =>
      ∃ confirming, DispatchedSince crypto attempt since confirming ∧
        ∃ event ∈ confirming, event.Approves crypto attempt

def CompletionOf (attempt : Attempt) : AuthorizationCompletion Digest Signature → Prop
  | .unprepared => True
  | .prepared completed => completed.transcript = attempt.attemptId crypto

/-- The history stands behind the phase. -/
def Justified (history : List (Event Digest Signature)) : Phase Digest Signature → Prop
  | .idle => True
  | .active attempt stage =>
      ∃ since, BegunSince crypto attempt history since ∧ Progress crypto attempt since stage
  | .authorizing attempt _ completion =>
      (∃ since, OwedSince (attempt.attemptId crypto) attempt.grant history since) ∧
        CompletionOf crypto attempt completion
  | .completing attempt _ completed =>
      Persisted history (attempt.attemptId crypto) ∧
        completed.transcript = attempt.attemptId crypto

variable {crypto} {history since : List (Event Digest Signature)} {event : Event Digest Signature}
  {attempt : Attempt} {phase next : Phase Digest Signature}
  {completed : RemoteControlPairingCompleted Digest Signature} {P : Event Digest Signature → Prop}

omit [DecidableEq Digest] in
theorem signedBy_transcript {signer : IdentitySigner Signature}
    {transcript : RemoteControlPairingTranscript}
    (h : RemoteControlPairingCompleted.signedBy crypto signer transcript = .ok completed) :
    completed.transcript = transcript.digest crypto := by
  unfold RemoteControlPairingCompleted.signedBy at h
  split_ifs at h
  cases h
  rfl

omit [DecidableEq Digest] in
theorem dispatchedSince_snoc {confirming : List (Event Digest Signature)}
    (h : DispatchedSince crypto attempt since confirming) (event : Event Digest Signature) :
    DispatchedSince crypto attempt (since ++ [event]) (confirming ++ [event]) :=
  h.snoc trivial

omit [DecidableEq Digest] in
theorem exists_mem_snoc (h : ∃ x ∈ since, P x) (event : Event Digest Signature) :
    ∃ x ∈ since ++ [event], P x := by
  obtain ⟨x, hmem, hx⟩ := h
  exact ⟨x, List.mem_append_left _ hmem, hx⟩

omit [DecidableEq Digest] in
theorem exists_mem_new (h : P event) :
    ∃ x ∈ since ++ [event], P x :=
  ⟨event, List.mem_append_right _ (List.mem_singleton_self event), h⟩

omit [DecidableEq Digest] in
theorem Progress.snoc {stage : ActiveStage} (h : Progress crypto attempt since stage)
    (event : Event Digest Signature) : Progress crypto attempt (since ++ [event]) stage := by
  cases stage with
  | offerPrepared => trivial
  | confirming progress =>
    cases progress with
    | both =>
      obtain ⟨confirming, hdispatched⟩ := h
      exact ⟨_, dispatchedSince_snoc hdispatched event⟩
    | targetApproval _ =>
      obtain ⟨confirming, hdispatched, hcommits⟩ := h
      exact ⟨_, dispatchedSince_snoc hdispatched event, exists_mem_snoc hcommits event⟩
    | controllerCommit =>
      obtain ⟨confirming, hdispatched, happroves⟩ := h
      exact ⟨_, dispatchedSince_snoc hdispatched event, exists_mem_snoc happroves event⟩

variable {attemptId : Digest}

omit [DecidableEq Digest] in
theorem Persisted.snoc (h : Persisted history attemptId) (hcontinues : event.Continues) :
    Persisted (history ++ [event]) attemptId := by
  obtain ⟨grant, since, howed, hreports⟩ := h
  exact ⟨grant, _, howed.snoc hcontinues, exists_mem_snoc hreports event⟩

variable (h : Justified crypto history phase)

include h

omit [DecidableEq Digest] in
theorem Justified.stays (hcontinues : event.Continues)
    (hkeeps : ∀ attempt stage, phase = .active attempt stage →
      ¬ event.Interrupts attempt.transcript.context.linkId) :
    Justified crypto (history ++ [event]) phase := by
  cases phase with
  | idle => trivial
  | active attempt stage =>
    obtain ⟨since, hbegun, hprogress⟩ := h
    exact ⟨_, hbegun.snoc ⟨hkeeps attempt stage rfl, hcontinues⟩, hprogress.snoc event⟩
  | authorizing attempt responder completion =>
    obtain ⟨⟨since, howed⟩, hcompletion⟩ := h
    exact ⟨⟨_, howed.snoc hcontinues⟩, hcompletion⟩
  | completing attempt responder completed =>
    exact ⟨h.1.snoc hcontinues, h.2⟩

omit [DecidableEq Digest] in
theorem Justified.move (hmove : Move crypto phase event next) :
    Justified crypto (history ++ [event]) next := by
  cases hmove with
  | begins hbegins => exact ⟨[], Since.now history hbegins, trivial⟩
  | dispatches attempt =>
    obtain ⟨since, hbegun, -⟩ := h
    exact ⟨_, hbegun.snoc ⟨id, rfl, rfl⟩, [], Since.now since rfl⟩
  | approves hdue =>
    obtain ⟨since, hbegun, confirming, hdispatched⟩ := h
    exact ⟨_, hbegun.snoc ⟨id, rfl, rfl⟩, _, dispatchedSince_snoc hdispatched _,
      exists_mem_new ⟨rfl, hdue⟩⟩
  | commits harrival hdue =>
    obtain ⟨since, hbegun, confirming, hdispatched⟩ := h
    exact ⟨_, hbegun.snoc ⟨id, rfl, rfl⟩, _, dispatchedSince_snoc hdispatched _,
      exists_mem_new ⟨harrival, hdue⟩⟩
  | approvesLast hdue => exact ⟨⟨[], Since.now history rfl⟩, trivial⟩
  | commitsLast harrival hdue => exact ⟨⟨[], Since.now history rfl⟩, trivial⟩
  | signs hsigned hcontinues hreleases =>
    obtain ⟨⟨since, howed⟩, -⟩ := h
    exact ⟨⟨_, howed.snoc hcontinues⟩, signedBy_transcript hsigned⟩
  | settles hsigned hcontinues hreleases hreports =>
    obtain ⟨⟨since, howed⟩, hcompletion⟩ := h
    refine ⟨⟨_, _, howed.snoc hcontinues, exists_mem_new hreports⟩, ?_⟩
    rcases hsigned with hprepared | ⟨signer, hsigned⟩
    · rw [hprepared] at hcompletion
      exact hcompletion
    · exact signedBy_transcript hsigned
  | releases hcontinues hreleases => exact ⟨h.1.snoc hcontinues, h.2⟩
  | stays hcontinues hreleases hkeeps => exact h.stays hcontinues hkeeps
  | ends hcontinues hreleases => trivial

omit h in
theorem Run.justified (run : Run crypto history phase) : Justified crypto history phase := by
  induction run with
  | start => trivial
  | next _ step ih => exact ih.move step.move

/-! ## What stands behind an event -/

omit [DecidableEq Digest] in
theorem Justified.consented (hmove : Move crypto phase event next)
    {grant : RemoteControlControllerGrant} (howes : event.owes = some (attemptId, grant)) :
    ∃ attempt, Consented crypto history event attempt ∧ attempt.attemptId crypto = attemptId ∧
      grant = attempt.grant := by
  cases hmove with
  | begins hbegins =>
    cases event with
    | begin _ _ _ _ outcome => cases howes
    | _ => cases hbegins
  | dispatches _ | approves _ | commits _ _ => cases howes
  | approvesLast hdue =>
    cases howes
    obtain ⟨since, hbegun, confirming, hdispatched, hcommits⟩ := h
    exact ⟨_, ⟨since, hbegun, _, dispatchedSince_snoc hdispatched _, exists_mem_new ⟨rfl, hdue⟩,
      exists_mem_snoc hcommits _⟩, rfl, rfl⟩
  | commitsLast harrival hdue =>
    cases howes
    obtain ⟨since, hbegun, confirming, hdispatched, happroves⟩ := h
    exact ⟨_, ⟨since, hbegun, _, dispatchedSince_snoc hdispatched _,
      exists_mem_snoc happroves _, exists_mem_new ⟨harrival, hdue⟩⟩, rfl, rfl⟩
  | signs _ hcontinues _ | settles _ hcontinues _ _ | releases hcontinues _ | stays hcontinues _ _
    | ends hcontinues _ =>
    rw [hcontinues.2] at howes
    cases howes

omit [DecidableEq Digest] in
theorem Justified.released (hmove : Move crypto phase event next)
    (hreleases : event.releases = some (attemptId, completed)) :
    Persisted (history ++ [event]) attemptId ∧ completed.transcript = attemptId := by
  have hnext := h.move hmove
  cases hmove with
  | begins hbegins =>
    cases event with
    | begin _ _ _ _ outcome => cases hreleases
    | _ => cases hbegins
  | dispatches _ | approves _ | commits _ _ | approvesLast _ | commitsLast _ _ => cases hreleases
  | settles _ _ hsome _ | releases _ hsome =>
    rw [hsome] at hreleases
    cases hreleases
    exact hnext
  | signs _ _ hnone | stays _ hnone _ | ends _ hnone =>
    rw [hnone] at hreleases
    cases hreleases

omit h

theorem Run.consented (run : Run crypto history phase) :
    Everywhere (fun before event => ∀ attemptId grant, event.owes = some (attemptId, grant) →
      ∃ attempt, Consented crypto before event attempt ∧ attempt.attemptId crypto = attemptId ∧
        grant = attempt.grant) history := by
  induction run with
  | start => exact Everywhere.nil
  | next run step ih =>
    exact ih.snoc fun attemptId grant howes => run.justified.consented step.move howes

theorem Run.released (run : Run crypto history phase) :
    Everywhere (fun before event => ∀ attemptId completed,
      event.releases = some (attemptId, completed) →
        Persisted (before ++ [event]) attemptId ∧ completed.transcript = attemptId) history := by
  induction run with
  | start => exact Everywhere.nil
  | next run step ih =>
    exact ih.snoc fun attemptId completed hreleases => run.justified.released step.move hreleases

/-- Pairing needs both consents. In every run, an authorization is owed only for an
attempt to which both sides consented, with the grant that the transcript of the attempt
names; between two authorizations an attempt was begun; and a completion is released only
after the authorization of its attempt was reported persisted. -/
theorem authorization_needs_both_consents (run : Run crypto history phase) :
    (∀ before owed after attemptId grant, history = before ++ owed :: after →
      owed.owes = some (attemptId, grant) → ∃ attempt, Consented crypto before owed attempt ∧
          attempt.transcript.digest crypto = attemptId ∧
          grant = .ofPermissions attempt.transcript.controller attempt.transcript.permissions) ∧
    (∀ before first between second after, history = before ++ first :: between ++ second :: after →
      first.owes.isSome = true → second.owes.isSome = true →
        ∃ attempt, ∃ began ∈ between, began.Begins crypto attempt) ∧
    (∀ before release after attemptId completed, history = before ++ release :: after →
      release.releases = some (attemptId, completed) →
        Persisted (before ++ [release]) attemptId) := by
  refine ⟨?_, ?_, ?_⟩
  · intro before owed after attemptId grant hhistory howes
    exact run.consented before owed after hhistory attemptId grant howes
  · intro before first between second after hhistory hfirst hsecond
    obtain ⟨⟨attemptId, grant⟩, howes⟩ := Option.isSome_iff_exists.mp hsecond
    obtain ⟨attempt, hconsented, -⟩ := run.consented _ second after hhistory attemptId grant howes
    -- the attempt began after any authorization owed before
    obtain ⟨since, hbegun, -⟩ := hconsented
    refine ⟨attempt, hbegun.exists_between rfl (fun hbegins => ?_) fun hundisturbing => ?_⟩
    · cases first with
      | begin _ _ _ _ _ => cases hfirst
      | _ => cases hbegins
    · rw [hundisturbing.2.2] at hfirst
      cases hfirst
  · intro before release after attemptId completed hhistory hreleases
    exact (run.released before release after hhistory attemptId completed hreleases).1

end

/-! ## A sample -/

/-- A hash that is its input, and signatures that all verify. -/
def plainCrypto : PairingCrypto (List UInt8) Unit where
  sha256 bytes := bytes
  digestBytes bytes := bytes
  hmacSha256 _ _ := ⟨List.replicate 32 0, List.length_replicate⟩
  ed25519Verify _ _ _ := true
  deriveIdentityHash keys :=
    ⟨keys.signing.val.take 16, by rw [List.length_take, keys.signing.property]; rfl⟩
  deriveDestinationHash hash := hash

def filledKeys (fill : UInt8) : IdentityPublicKeys :=
  ⟨⟨List.replicate 32 fill, List.length_replicate⟩, ⟨List.replicate 32 fill, List.length_replicate⟩⟩

def filledId (fill : UInt8) : Bytes 16 := ⟨List.replicate 16 fill, List.length_replicate⟩

def plainSigner : IdentitySigner Unit := ⟨filledKeys 7, fun _ => ()⟩

/-- A session that lets an operator describe the node, for a minute. -/
def describeSession : RemoteControlPairingSession (List UInt8) where
  identity := filledId 3
  window := ⟨60000⟩
  permissions :=
    ⟨.operator, (RemoteControlRequestSet.empty.insert .describe).2, by decide⟩
  attemptTimeout := ⟨30000, by decide, by decide⟩
  invitationVerifier := []

/-- The begin of the controller `1` on the link `9`. -/
def plainBegin : BeginArrival where
  begin := ⟨.v4, ⟨filledKeys 1⟩, ⟨List.replicate 32 0, List.length_replicate⟩⟩
  responder := ⟨filledId 9, filledId 10⟩
  identifiedController := filledId 1

def begun : Phase (List UInt8) Unit × BeginOutcome (List UInt8) Unit :=
  begin plainCrypto .idle plainSigner describeSession plainBegin 0

/-- The id of the attempt that the begin made. -/
def begunId : List UInt8 :=
  match begun.2 with
  | .offerPrepared attemptId _ _ => attemptId
  | _ => []

def plainCommit : CommitArrival (List UInt8) where
  commit := ⟨.v4, begunId⟩
  responder := ⟨filledId 9, filledId 11⟩
  identifiedController := filledId 1

def dispatched : Phase (List UInt8) Unit × DispatchOfferOutcome (List UInt8) :=
  offerDispatched plainCrypto begun.1 begunId

def approved : Phase (List UInt8) Unit × ApproveOutcome (List UInt8) :=
  approve plainCrypto dispatched.1 begunId 1000

def committed : Phase (List UInt8) Unit × CommitOutcome (List UInt8) Unit :=
  commit plainCrypto approved.1 plainCommit 2000

def persisted : Phase (List UInt8) Unit × PersistAuthorizationOutcome (List UInt8) Unit :=
  authorizationPersisted plainCrypto committed.1 begunId plainSigner 3000

/-- The events up to the approval of the local user. -/
def confirmingHistory : List (Event (List UInt8) Unit) :=
  [.begin plainSigner describeSession plainBegin 0 begun.2,
    .offerDispatched begunId dispatched.2, .approve begunId 1000 approved.2]

def commitEvent : Event (List UInt8) Unit := .commit plainCommit 2000 committed.2

def persistedEvent : Event (List UInt8) Unit :=
  .authorizationPersisted begunId plainSigner 3000 persisted.2

theorem pairedRun :
    Run plainCrypto (confirmingHistory ++ [commitEvent] ++ [persistedEvent]) persisted.1 := by
  have hbegun : Step plainCrypto .idle
      (.begin plainSigner describeSession plainBegin 0 begun.2) begun.1 :=
    Step.begin (Prod.eta begun).symm
  have hdispatched : Step plainCrypto begun.1 (.offerDispatched begunId dispatched.2)
      dispatched.1 := Step.offerDispatched (Prod.eta dispatched).symm
  have happroved : Step plainCrypto dispatched.1 (.approve begunId 1000 approved.2)
      approved.1 := Step.approve (Prod.eta approved).symm
  have hcommitted : Step plainCrypto approved.1 commitEvent committed.1 :=
    Step.commit (Prod.eta committed).symm
  have hpersisted : Step plainCrypto committed.1 persistedEvent persisted.1 :=
    Step.authorizationPersisted (Prod.eta persisted).symm
  exact ((((Run.start.next hbegun).next hdispatched).next happroved).next hcommitted).next
    hpersisted

/-- The commit of the controller completes the consents, and the report of storage releases
the completion. -/
theorem authorization_needs_both_consents_paired :
    (∃ attempt, Consented plainCrypto confirmingHistory commitEvent attempt) ∧
      ∃ attemptId, Persisted (confirmingHistory ++ [commitEvent] ++ [persistedEvent]) attemptId := by
  have howes : commitEvent.owes.isSome = true := by decide +kernel
  have hreleases : persistedEvent.releases.isSome = true := by decide +kernel
  obtain ⟨⟨attemptId, grant⟩, howes⟩ := Option.isSome_iff_exists.mp howes
  obtain ⟨⟨releasedId, completed⟩, hreleases⟩ := Option.isSome_iff_exists.mp hreleases
  obtain ⟨hconsented, -, hpersisted⟩ := authorization_needs_both_consents pairedRun
  constructor
  · obtain ⟨attempt, hattempt, -⟩ :=
      hconsented confirmingHistory commitEvent [persistedEvent] attemptId grant (by simp) howes
    exact ⟨attempt, hattempt⟩
  · exact ⟨releasedId, hpersisted _ persistedEvent [] releasedId completed rfl hreleases⟩

end Prns.Ports.RemoteControlTargetPairing
