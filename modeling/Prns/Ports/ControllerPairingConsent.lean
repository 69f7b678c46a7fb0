import Prns.Ports.PairingAgreement

/-!
# Consent of the controller's user

Over all runs of `controller_pairing`: a commit is owed only while the attempt has not
expired, for the transcript of an offer that was accepted in this attempt, and after the
user has approved the attempt by its id. Once that has happened the id is not compared
again: the commit is owed to an approval of any other attempt too.
-/

namespace Prns.Ports.RemoteControlControllerPairing

open Verified
open RemoteControl
open Pairing

section

variable {Digest Signature : Type} [DecidableEq Digest] (crypto : PairingCrypto Digest Signature)

/-- Operations in any order, from the idle phase. -/
inductive Run : List (Event Digest Signature) → Phase Digest → Prop where
  | start : Run [] .idle
  | step {history phase event next} (run : Run history phase)
      (h : Step crypto phase event next) : Run (history ++ [event]) next

/-- A new attempt is begun. -/
def Event.Begins : Event Digest Signature → Prop
  | .begin _ _ _ _ _ (.beginOwed _ _ _) => True
  | _ => False

def Event.Accepts (transcript : RemoteControlPairingTranscript) : Event Digest Signature → Prop
  | .receiveOffer offer _ (.confirmationRequired attemptId) =>
      attemptId = transcript.digest crypto ∧ ∃ context controller,
        offer.verifyController crypto context controller = .ok transcript
  | _ => False

/-- The offer of the transcript was accepted before `since`, in the attempt that is still
the last one begun. -/
def AcceptedSince (transcript : RemoteControlPairingTranscript)
    (history since : List (Event Digest Signature)) : Prop :=
  Since (Event.Accepts crypto transcript) (fun later => ¬ later.Begins) history since

/-- A commit that is owed is the commit of an accepted offer, before the attempt expires.
The approval names the attempt, unless one that did was heard since the offer. -/
def Consented (before : List (Event Digest Signature)) : Event Digest Signature → Prop
  | .approve requested now (.commitOwed attemptId commit context expiresAt) =>
      now < expiresAt ∧ ∃ transcript since, AcceptedSince crypto transcript before since ∧
        attemptId = transcript.digest crypto ∧ commit = .new crypto transcript ∧
        context = transcript.context ∧
        (requested = attemptId ∨ ∃ approval ∈ since, approval.Approves attemptId)
  | _ => True

/-- What the history says of an attempt with an offer. -/
def Justified (history : List (Event Digest Signature)) : Phase Digest → Prop
  | .awaitingApproval transcript _ => ∃ since, AcceptedSince crypto transcript history since
  | .awaitingCompletion transcript _ => ∃ since, AcceptedSince crypto transcript history since ∧
      ∃ approval ∈ since, approval.Approves (transcript.digest crypto)
  | _ => True

variable {crypto} {history : List (Event Digest Signature)} {phase next : Phase Digest}
  {event : Event Digest Signature} {transcript : RemoteControlPairingTranscript}
  {window : AttemptWindow}

theorem Step.not_begins (h : Step crypto phase event next)
    (hactive : (activityFor crypto phase).isSome) : ¬ event.Begins := by
  obtain ⟨active, hactive⟩ := Option.isSome_iff_exists.mp hactive
  cases h with
  | begin h =>
    simp only [RemoteControlControllerPairing.begin, hactive] at h
    cases h
    exact id
  | _ => exact id

theorem Step.accepts {context : RemoteControlPairingContext}
    {controller : RemoteControlControllerIdentity} {pairing : Window}
    {offer : RemoteControlPairingOffer Signature} {receivedAt : Nat}
    {outcome : ReceiveOfferOutcome Digest}
    (h : Step crypto (.awaitingOffer context controller pairing)
      (.receiveOffer offer receivedAt outcome) (.awaitingApproval transcript window)) :
    Event.Accepts crypto transcript (.receiveOffer offer receivedAt outcome) := by
  cases h with
  | receiveOffer h =>
    unfold RemoteControlControllerPairing.receiveOffer at h
    repeat' split at h
    all_goals cases h
    rename_i hverified _
    exact ⟨rfl, _, _, hverified⟩

theorem Justified.step (h : Justified crypto history phase) (hstep : Step crypto phase event next) :
    Justified crypto (history ++ [event]) next := by
  cases hstep.move with
  | begins | ends | completes => trivial
  | offered => exact ⟨[], Since.now history hstep.accepts⟩
  | approves happroves =>
    obtain ⟨since, hsince⟩ := h
    exact ⟨since ++ [event], hsince.snoc (hstep.not_begins rfl), event, by simp, happroves⟩
  | stays =>
    cases phase with
    | idle | awaitingOffer | persisting => trivial
    | awaitingApproval =>
      obtain ⟨since, hsince⟩ := h
      exact ⟨since ++ [event], hsince.snoc (hstep.not_begins rfl)⟩
    | awaitingCompletion =>
      obtain ⟨since, hsince, approval, hmem, happroves⟩ := h
      exact ⟨since ++ [event], hsince.snoc (hstep.not_begins rfl), approval,
        List.mem_append_left _ hmem, happroves⟩

theorem Run.justified (run : Run crypto history phase) : Justified crypto history phase := by
  induction run with
  | start => trivial
  | step _ hstep ih => exact ih.step hstep

theorem Justified.consented (h : Justified crypto history phase)
    (hstep : Step crypto phase event next) : Consented crypto history event := by
  cases hstep with
  | approve happrove =>
    unfold RemoteControlControllerPairing.approve at happrove
    repeat' split at happrove
    all_goals cases happrove
    all_goals try trivial
    · rename_i hunexpired hid
      obtain ⟨since, hsince⟩ := h
      exact ⟨by simpa [takeExpiredExchange] using hunexpired, _, since, hsince, rfl, rfl, rfl,
        Or.inl (not_not.mp hid)⟩
    · rename_i hunexpired
      obtain ⟨since, hsince, happroved⟩ := h
      exact ⟨by simpa [takeExpiredExchange] using hunexpired, _, since, hsince, rfl, rfl, rfl,
        Or.inr happroved⟩
  | _ => trivial

theorem Run.consented (run : Run crypto history phase) :
    Everywhere (Consented crypto) history := by
  induction run with
  | start => exact Everywhere.nil
  | step run hstep ih => exact ih.snoc (run.justified.consented hstep)

/-- In every run, each commit that is owed has the consent of the user; and while approval
is awaited, an answer to another attempt is a mismatch and changes nothing. -/
theorem consent_is_specific (run : Run crypto history phase) :
    Everywhere (Consented crypto) history ∧
      ∀ transcript window requested now, phase = .awaitingApproval transcript window →
        now < window.expiresAt → requested ≠ transcript.digest crypto →
        approve crypto phase requested now =
            (phase, .attemptMismatch requested (transcript.digest crypto)) ∧
          reject crypto phase requested now =
            (phase, .attemptMismatch requested (transcript.digest crypto)) := by
  refine ⟨run.consented, ?_⟩
  intro transcript window requested now hphase hnow hother
  subst hphase
  simp [approve, reject, takeExpiredExchange, hother, Nat.not_le.mpr hnow]

end

section

open RemoteControlTargetPairing (plainCrypto begunId)
open PairingAgreement

theorem offeredRun : ∃ history, Run plainCrypto history controllerOffered.1 :=
  ⟨_, (Run.start.step (.begin (Prod.eta controllerBegun).symm)).step
    (.receiveOffer (Prod.eta controllerOffered).symm)⟩

theorem controllerOffered_phase : ∃ transcript window,
    controllerOffered.1 = .awaitingApproval transcript window ∧ 2000 < window.expiresAt ∧
      transcript.digest plainCrypto = begunId :=
  ⟨_, _, rfl, by decide, rfl⟩

/-- The approval of another attempt, before the one of the sample session. -/
theorem consent_is_specific_offered :
    approve plainCrypto controllerOffered.1 [] 1000 =
      (controllerOffered.1, .attemptMismatch [] begunId) := by
  obtain ⟨transcript, window, hphase, hwindow, hid⟩ := controllerOffered_phase
  obtain ⟨history, run⟩ := offeredRun
  rw [← hid]
  exact ((consent_is_specific run).2 transcript window [] 1000 hphase (by omega)
    (by rw [hid]; decide)).1

/-- The user approves the attempt of the sample session and then another one: the commit
of the first is owed again. -/
theorem other_approval_owes_commit :
    (∃ history, Run plainCrypto history controllerApproved.1) ∧ begunId ≠ [] ∧
      ∃ commit context expiresAt, approve plainCrypto controllerApproved.1 [] 2000 =
        (controllerApproved.1, .commitOwed begunId commit context expiresAt) := by
  obtain ⟨history, run⟩ := offeredRun
  refine ⟨⟨_, run.step (.approve (Prod.eta controllerApproved).symm)⟩, by decide, ?_⟩
  obtain ⟨transcript, window, hphase, hwindow, hid⟩ := controllerOffered_phase
  have happroved : controllerApproved.1 = .awaitingCompletion transcript window := by
    rw [controllerApproved, hphase]
    simp [approve, takeExpiredExchange, hid, Nat.not_le.mpr (show 1500 < window.expiresAt by omega)]
  rw [happroved]
  simp [approve, takeExpiredExchange, hid, Nat.not_le.mpr hwindow]

end

end Prns.Ports.RemoteControlControllerPairing
