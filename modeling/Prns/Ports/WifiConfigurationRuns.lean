import Prns.Ports.WifiConfigurationStore
import Prns.Verified.Histories

/-!
# Runs of the Wi-Fi credential store

A run is a sequence of calls by any controllers on one pair of pages. Every call meets
its own faults, so power may be lost inside any of them; the store has no memory beside
the flash, so what follows a power loss is simply the next call. The log of a run has
every call with what it reported.

The invariant is that the log explains the newer record: where its confirmed credential
and its candidate come from, and that its next revision is above all that were given out.
From it follow that only confirmed credentials survive a restart, and, for runs whose
first record is written without an interruption, that the store is never locked.
-/

namespace Prns.Ports.WifiStore

open Verified
open Verified.NorFlash (Geometry Image FlashError slice)
open Verified.TornFlash
open Verified.TwoPages

inductive Call where
  | load
  | status (controller : Controller)
  | stage (controller : Controller) (station : WifiStation)
  | activate (controller : Controller) (revision : Revision)
  | confirm (controller : Controller) (revision : Revision)
  | cancel (controller : Controller) (revision : Revision)
  deriving DecidableEq

def Call.plan : Call → Option StoredState → Plan
  | .load => loadPlan
  | .status controller => statusPlan controller
  | .stage controller station => stagePlan controller station
  | .activate controller revision => activatePlan controller revision
  | .confirm controller revision => confirmPlan controller revision
  | .cancel controller revision => cancelPlan controller revision

/-! ## What the calls write -/

/-- The state without its candidate, as the next record. -/
def StoredState.settled (state : StoredState) : StoredState :=
  { state.withoutCandidate with generation := state.generation + 1 }

/-- What a call writes, and what it then reports. -/
inductive Written (found : Option StoredState) :
    Call → StoredState → CommitOutcome Answer → Prop where
  | load (status : Status) (hcandidate : (stateOf found).candidate.isSome)
      (hstatus : (stateOf found).settled.status = .ok status) :
      Written found .load (stateOf found).settled
        (.committed (.loaded (loadedOf (stateOf found).settled status true)))
  | stage (controller : Controller) (station : WifiStation) (revision : Revision)
      (hrevision : revision.get = (stateOf found).nextRevision)
      (hlast : (stateOf found).nextRevision ≠ 0xFFFFFFFF) :
      Written found (.stage controller station)
        ⟨(stateOf found).generation + 1, (stateOf found).nextRevision + 1,
          (stateOf found).confirmed, some ⟨controller, ⟨revision, station⟩⟩, some .staged⟩
        (.committed (.staged revision))
  | activate (state : StoredState) (candidate : CandidateCredential) (hfound : found = some state)
      (hcandidate : state.candidate = some candidate) :
      Written found (.activate candidate.controller candidate.credential.revision)
        { state with phase := some .awaitingConfirmation, generation := state.generation + 1 }
        (.committed (.activated candidate.credential.station))
  | confirm (state : StoredState) (candidate : CandidateCredential) (hfound : found = some state)
      (hcandidate : state.candidate = some candidate)
      (hphase : state.phase = some .awaitingConfirmation) :
      Written found (.confirm candidate.controller candidate.credential.revision)
        { state with
          candidate := none
          confirmed := some candidate.credential
          phase := none
          generation := state.generation + 1 } (.committed .confirmed)
  | cancel (controller : Controller) (revision : Revision) (state : StoredState)
      (hfound : found = some state) :
      Written found (.cancel controller revision) state.settled
        (.committed (.cancelled (state.confirmed.map StoredCredential.station)))

variable {revision : Revision} {sealing : Sealing} {g : Geometry} {pages : Page → UInt32}
  {found : Option StoredState} {call : Call} {next : StoredState} {planned : CommitOutcome Answer}

theorem transactionOf_ok {controller : Controller} {state : StoredState}
    {candidate : CandidateCredential}
    (h : transactionOf controller revision found = .ok (state, candidate)) :
    found = some state ∧ state.candidate = some candidate ∧ candidate.controller = controller ∧
      candidate.credential.revision = revision := by
  unfold transactionOf at h
  split at h
  · cases h
  split at h
  · cases h
  rename_i hcandidate
  split_ifs at h with hcontroller hrevision
  cases h
  exact ⟨rfl, hcandidate, Decidable.not_not.mp hcontroller, Decidable.not_not.mp hrevision⟩

open Call

theorem Call.written (h : call.plan found = .write next planned) :
    Written found call next planned := by
  cases call
  all_goals
    simp only [plan, loadPlan, statusPlan, stagePlan, activatePlan, confirmPlan, cancelPlan,
      Revision.new] at h
    repeat' split at h
    all_goals cases h
  · rename_i hstatus
    cases hstatus
  · exact .load _ ‹_› ‹_›
  · rename_i hrevision hlast
    split_ifs at hrevision
    cases hrevision
    exact .stage _ _ _ rfl hlast
  · rename_i htransaction _
    obtain ⟨rfl, hcandidate, rfl, rfl⟩ := transactionOf_ok htransaction
    exact .activate _ _ rfl hcandidate
  · rename_i htransaction hphase
    obtain ⟨rfl, hcandidate, rfl, rfl⟩ := transactionOf_ok htransaction
    exact .confirm _ _ rfl hcandidate (Decidable.not_not.mp hphase)
  · rename_i htransaction
    obtain ⟨rfl, -⟩ := transactionOf_ok htransaction
    exact .cancel _ _ _ rfl

theorem toNat_next {r : UInt32} (h : r ≠ 0xFFFFFFFF) : (r + 1).toNat = r.toNat + 1 := by
  have hne : r.toNat ≠ 4294967295 := fun heq => h (UInt32.toNat_inj.mp heq)
  have hlt := r.toNat_lt
  show (r.toNat + 1) % 2 ^ 32 = r.toNat + 1
  omega

theorem Call.sound (call : Call) : Sound call.plan := by
  intro found next report hfound hplan
  cases written hplan with
  | load status hcandidate hstatus => exact ⟨⟨hfound.nextRevision, rfl⟩, rfl⟩
  | stage controller station revision hrevision hlast =>
    refine ⟨⟨?_, rfl⟩, rfl⟩
    -- the next revision does not wrap to zero
    intro hzero
    have hnext := toNat_next hlast
    rw [show (stateOf found).nextRevision + 1 = 0 from hzero] at hnext
    cases hnext
  | activate state candidate hsome hcandidate =>
    subst hsome
    refine ⟨⟨hfound.nextRevision, ?_⟩, rfl⟩
    rw [hcandidate]
    rfl
  | confirm state candidate hsome hcandidate hphase =>
    subst hsome
    exact ⟨⟨hfound.nextRevision, rfl⟩, rfl⟩
  | cancel controller revision state hsome =>
    subst hsome
    exact ⟨⟨hfound.nextRevision, rfl⟩, rfl⟩

theorem Call.write_none (h : call.plan none = .write next planned) :
    ∃ revision, planned = .committed (.staged revision) := by
  cases written h with
  | load status hcandidate hstatus => cases hcandidate
  | stage controller station revision hrevision hlast => exact ⟨revision, rfl⟩
  | activate state candidate hsome hcandidate => cases hsome
  | confirm state candidate hsome hcandidate hphase => cases hsome
  | cancel controller revision state hsome => cases hsome

inductive Report where
  | returned (outcome : CommitOutcome Answer)
  | powerLost
  deriving DecidableEq

structure Entry where
  call : Call
  report : Report
  deriving DecidableEq

/-- A call, what its flash operations run into, and the random bytes it draws. -/
structure Event where
  call : Call
  faults : List Fault
  iv : Vector UInt8 16

structure World where
  cells : Image
  log : List Entry

def reportOf : Outcome Empty (CommitOutcome Answer) → Report
  | .ok outcome => .returned outcome
  | .error e => nomatch e
  | .stopped _ => .powerLost

section

variable (sealing : Sealing) (g : Geometry) (pages : Page → UInt32)

def Call.run (iv : Vector UInt8 16) : Call → Act Device Empty (CommitOutcome Answer)
  | .load => WifiStore.load sealing g pages iv
  | .status controller => WifiStore.status sealing g pages controller iv
  | .stage controller station => WifiStore.stage sealing g pages controller station iv
  | .activate controller revision => WifiStore.activate sealing g pages controller revision iv
  | .confirm controller revision => WifiStore.confirm sealing g pages controller revision iv
  | .cancel controller revision => WifiStore.cancel sealing g pages controller revision iv

def World.step (w : World) (event : Event) : World :=
  let result := event.call.run sealing g pages event.iv
    { cells := w.cells, faults := event.faults }
  { cells := result.2.cells, log := w.log ++ [⟨event.call, reportOf result.1⟩] }

def World.run (w : World) (events : List Event) : World :=
  events.foldl (World.step sealing g pages) w

/-- Both pages are erased, as far as the store reads them. -/
def Blank (cells : Image) : Prop :=
  ∀ page, NorFlash.Erased cells (base pages page) (base pages page + recordLen)

/-- No interrupted erase of the run forges a record. -/
def Authentic (w : World) : List Event → Prop
  | [] => True
  | event :: events => Unforged sealing g pages { cells := w.cells, faults := event.faults } ∧
      Authentic (w.step sealing g pages event) events

end

theorem World.run_append (w : World) (events later : List Event) :
    w.run sealing g pages (events ++ later) =
      (w.run sealing g pages events).run sealing g pages later :=
  List.foldl_append

/-- The call gave this answer, or it is not known whether it took effect. -/
def Report.MayBe (report : Report) (answer : Answer) : Prop :=
  report = .returned (.committed answer) ∨ report = .powerLost ∨
    ∃ error, report = .returned (.indeterminate error)

/-- Not a successful load. -/
def NotLoad (entry : Entry) : Prop :=
  ∀ configuration, entry.report ≠ .returned (.committed (.loaded configuration))

/-- Not a successful confirmation. -/
def NotConfirm (entry : Entry) : Prop := entry.report ≠ .returned (.committed .confirmed)

/-- The controller staged the station as this revision, and no load succeeded since. -/
def Staged (controller : Controller) (revision : Revision) (station : WifiStation) :
    List Entry → Prop :=
  After (fun _ entry => entry.call = .stage controller station ∧
    entry.report.MayBe (.staged revision)) NotLoad

/-- Then it activated that revision, and no load succeeded since. -/
def Activated (controller : Controller) (revision : Revision) (station : WifiStation) :
    List Entry → Prop :=
  After (fun before entry => entry.call = .activate controller revision ∧
    entry.report.MayBe (.activated station) ∧ Staged controller revision station before) NotLoad

/-- Then it confirmed that revision, and no other confirmation succeeded since. -/
def Confirmed (revision : Revision) (station : WifiStation) (log : List Entry) : Prop :=
  ∃ controller, After (fun before entry => entry.call = .confirm controller revision ∧
    entry.report.MayBe .confirmed ∧ Activated controller revision station before) NotConfirm log

/-- What a load may answer: nothing if nothing was confirmed, or else the credentials of
the last confirmation that succeeded or of one that was in flight after it. -/
def LoadExplained (before : List Entry) (entry : Entry) : Prop :=
  ∀ configuration, entry.report = .returned (.committed (.loaded configuration)) →
    (configuration.active = none ∧ configuration.status = .factoryProvisioning ∧
        ∀ earlier ∈ before, NotConfirm earlier) ∨
      ∃ revision station, configuration.active = some station ∧
        configuration.status = .confirmed revision ∧ Confirmed revision station before

def Entry.stagedRevision (entry : Entry) : Option Revision :=
  match entry.report with
  | .returned (.committed (.staged revision)) => some revision
  | _ => none

/-- The revisions that committed stages were given. -/
def stagedRevisions (log : List Entry) : List Revision := log.filterMap Entry.stagedRevision

def Entry.isStage (entry : Entry) : Bool :=
  match entry.call with
  | .stage _ _ => true
  | _ => false

def stageCalls (log : List Entry) : Nat := log.countP Entry.isStage

/-! ## The invariant -/

structure Explained (log : List Entry) (state : StoredState) : Prop where
  given : ∀ revision ∈ stagedRevisions log, revision.get < state.nextRevision
  bound : state.nextRevision.toNat ≤ stageCalls log + 1
  unconfirmed : state.confirmed = none → ∀ entry ∈ log, NotConfirm entry
  confirmed : ∀ credential, state.confirmed = some credential →
    Confirmed credential.revision credential.station log
  staged : ∀ candidate, state.candidate = some candidate →
    Staged candidate.controller candidate.credential.revision candidate.credential.station log
  activated : ∀ candidate, state.candidate = some candidate →
    state.phase = some .awaitingConfirmation →
    Activated candidate.controller candidate.credential.revision candidate.credential.station log

variable {entry : Entry} {state : StoredState}

section

variable {log : List Entry}

theorem stagedRevisions_snoc (log : List Entry) (entry : Entry) :
    stagedRevisions (log ++ [entry]) = stagedRevisions log ++ entry.stagedRevision.toList := by
  rw [stagedRevisions, List.filterMap_append, ← stagedRevisions]
  congr 1

theorem stageCalls_snoc (log : List Entry) (entry : Entry) :
    stageCalls (log ++ [entry]) = stageCalls log + if entry.isStage then 1 else 0 := by
  rw [stageCalls, List.countP_append, ← stageCalls]
  cases h : entry.isStage <;> simp [h]

theorem Confirmed.snoc {station : WifiStation} (h : Confirmed revision station log)
    (hentry : NotConfirm entry) : Confirmed revision station (log ++ [entry]) := by
  obtain ⟨controller, hafter⟩ := h
  exact ⟨controller, hafter.snoc hentry⟩

theorem notConfirm_snoc (h : ∀ entry ∈ log, NotConfirm entry) (hentry : NotConfirm entry) :
    ∀ earlier ∈ log ++ [entry], NotConfirm earlier :=
  List.forall_mem_append.mpr ⟨h, List.forall_mem_singleton.mpr hentry⟩

theorem given_snoc {bound : UInt32} (h : ∀ revision ∈ stagedRevisions log, revision.get < bound)
    (hentry : entry.stagedRevision = none) :
    ∀ revision ∈ stagedRevisions (log ++ [entry]), revision.get < bound := by
  rw [stagedRevisions_snoc, hentry]
  simpa using h

theorem explained_factory : Explained [] StoredState.factory where
  given := nofun
  bound := Nat.le_refl 1
  unconfirmed := nofun
  confirmed := nofun
  staged := nofun
  activated := nofun

theorem Explained.bound_snoc (h : Explained log state) (entry : Entry) :
    state.nextRevision.toNat ≤ stageCalls (log ++ [entry]) + 1 := by
  have hbound := h.bound
  rw [stageCalls_snoc]
  omega

theorem Explained.snoc (h : Explained log state) (hload : NotLoad entry)
    (hconfirm : NotConfirm entry) (hstaged : entry.stagedRevision = none) :
    Explained (log ++ [entry]) state where
  given := given_snoc h.given hstaged
  bound := h.bound_snoc entry
  unconfirmed hnone := notConfirm_snoc (h.unconfirmed hnone) hconfirm
  confirmed credential hsome := (h.confirmed credential hsome).snoc hconfirm
  staged candidate hsome := (h.staged candidate hsome).snoc hload
  activated candidate hsome hphase := (h.activated candidate hsome hphase).snoc hload

theorem Explained.settle (h : Explained log state) (hconfirm : NotConfirm entry)
    (hstaged : entry.stagedRevision = none) (hrevision : next.nextRevision = state.nextRevision)
    (hconfirmed : next.confirmed = state.confirmed) (hcandidate : next.candidate = none) :
    Explained (log ++ [entry]) next where
  given := hrevision ▸ given_snoc h.given hstaged
  bound := hrevision ▸ h.bound_snoc entry
  unconfirmed hnone := notConfirm_snoc (h.unconfirmed (by rw [← hconfirmed, hnone])) hconfirm
  confirmed credential hsome := (h.confirmed credential (by rw [← hconfirmed, hsome])).snoc hconfirm
  staged candidate hsome := by
    rw [hcandidate] at hsome
    cases hsome
  activated candidate hsome := by
    rw [hcandidate] at hsome
    cases hsome

variable {report : Report}

/-- The report is the planned one, or says that the effect is not known. -/
def Report.Follows (report : Report) (planned : CommitOutcome Answer) : Prop :=
  report = .returned planned ∨ report = .powerLost ∨
    ∃ error, report = .returned (.indeterminate error)

theorem Report.Follows.answer {answer : Answer} (h : report.Follows planned)
    (heq : report = .returned (.committed answer)) : planned = .committed answer := by
  rcases h with rfl | rfl | ⟨error, rfl⟩
  · exact Report.returned.inj heq
  · cases heq
  · cases heq

theorem stagedRevision_eq_some (h : entry.stagedRevision = some revision) :
    entry.report = .returned (.committed (.staged revision)) := by
  unfold Entry.stagedRevision at h
  split at h
  · cases h
    assumption
  · cases h

section

variable {answer : Answer} (h : report.MayBe answer)

include h

theorem Report.MayBe.eq {other : Answer} (heq : report = .returned (.committed other)) :
    answer = other := by
  have hfollows : report.Follows (.committed answer) := h
  cases hfollows.answer heq
  rfl

theorem Report.MayBe.notLoad (hanswer : ∀ configuration, answer ≠ .loaded configuration) :
    NotLoad ⟨call, report⟩ := fun configuration heq => hanswer configuration (h.eq heq)

theorem Report.MayBe.notConfirm (hanswer : answer ≠ .confirmed) : NotConfirm ⟨call, report⟩ :=
  fun heq => hanswer (h.eq heq)

theorem Report.MayBe.stagedRevision
    (hsome : (Entry.mk call report).stagedRevision = some revision) :
    answer = .staged revision :=
  h.eq (stagedRevision_eq_some hsome)

theorem Report.MayBe.notStaged (hanswer : ∀ revision, answer ≠ .staged revision) :
    (Entry.mk call report).stagedRevision = none := by
  cases hsome : (Entry.mk call report).stagedRevision with
  | none => rfl
  | some revision => exact absurd (h.stagedRevision hsome) (hanswer revision)

end

/-- **A write keeps the state explained**, by the log with the call that made it. -/
theorem Explained.write (h : Explained log (stateOf found))
    (hplan : call.plan found = .write next planned) (hreport : report.Follows planned) :
    Explained (log ++ [⟨call, report⟩]) next := by
  cases written hplan with
  | load status hcandidate hstatus =>
    have hmay : report.MayBe _ := hreport
    exact h.settle (hmay.notConfirm nofun) (hmay.notStaged nofun) rfl rfl rfl
  | stage controller station revision hrevision hlast =>
    have hmay : report.MayBe (.staged revision) := hreport
    have hnext := toNat_next hlast
    constructor
    · intro given hgiven
      rw [stagedRevisions_snoc] at hgiven
      rw [UInt32.lt_iff_toNat_lt, hnext]
      rcases List.mem_append.mp hgiven with hold | hnew
      · have hlt := UInt32.lt_iff_toNat_lt.mp (h.given given hold)
        omega
      · cases hmay.stagedRevision (Option.mem_toList.mp hnew)
        rw [hrevision]
        omega
    · have hbound := h.bound
      rw [stageCalls_snoc]
      show ((stateOf found).nextRevision + 1).toNat ≤ stageCalls log + 1 + 1
      omega
    · exact fun hnone => notConfirm_snoc (h.unconfirmed hnone) (hmay.notConfirm nofun)
    · exact fun credential hsome => (h.confirmed credential hsome).snoc (hmay.notConfirm nofun)
    · intro candidate hsome
      cases hsome
      exact After.now ⟨rfl, hmay⟩
    · nofun
  | activate state candidate hfound hcandidate =>
    subst hfound
    have hmay : report.MayBe (.activated candidate.credential.station) := hreport
    have hquiet : Explained (log ++ [⟨.activate candidate.controller
        candidate.credential.revision, report⟩]) state :=
      h.snoc (hmay.notLoad nofun) (hmay.notConfirm nofun) (hmay.notStaged nofun)
    refine ⟨hquiet.given, hquiet.bound, hquiet.unconfirmed, hquiet.confirmed, hquiet.staged, ?_⟩
    intro candidate' hsome _
    cases hcandidate.symm.trans hsome
    exact After.now ⟨rfl, hmay, h.staged candidate hcandidate⟩
  | confirm state candidate hfound hcandidate hphase =>
    subst hfound
    have hmay : report.MayBe .confirmed := hreport
    refine ⟨given_snoc h.given (hmay.notStaged nofun), h.bound_snoc _, nofun, ?_, nofun, nofun⟩
    intro credential hsome
    cases hsome
    exact ⟨candidate.controller, After.now ⟨rfl, hmay, h.activated candidate hcandidate hphase⟩⟩
  | cancel controller revision state hfound =>
    subst hfound
    have hmay : report.MayBe (.cancelled _) := hreport
    exact h.settle (hmay.notConfirm nofun) (hmay.notStaged nofun) rfl rfl rfl

theorem Call.keep_cases {answer : Answer} (h : call.plan found = .keep answer) :
    (∃ status, call = .load ∧ (stateOf found).candidate = none ∧
        (stateOf found).status = .ok status ∧
        answer = .loaded (loadedOf (stateOf found) status false)) ∨
      (∃ status, answer = .status status) ∨ ∃ station, answer = .activated station := by
  cases call
  all_goals
    simp only [plan, loadPlan, statusPlan, stagePlan, activatePlan, confirmPlan, cancelPlan] at h
    repeat' split at h
    all_goals cases h
  · exact Or.inl ⟨_, rfl, Option.not_isSome_iff_eq_none.mp ‹_›, ‹_›, rfl⟩
  · exact Or.inr (Or.inl ⟨_, rfl⟩)
  · exact Or.inr (Or.inl ⟨_, rfl⟩)
  · exact Or.inr (Or.inr ⟨_, rfl⟩)

theorem loadExplained_of {settled : StoredState} {status : Status} {recovered : Bool}
    (h : Explained log state) (hconfirmed : settled.confirmed = state.confirmed)
    (hcandidate : settled.candidate = none) (hstatus : settled.status = .ok status) :
    LoadExplained log
      ⟨call, .returned (.committed (.loaded (loadedOf settled status recovered)))⟩ := by
  intro configuration heq
  cases heq
  cases hphase : settled.phase with
  | some phase => simp [StoredState.status, hcandidate, hphase] at hstatus
  | none =>
    simp only [StoredState.status, hcandidate, hphase, Except.ok.injEq] at hstatus
    subst hstatus
    cases hcredential : settled.confirmed with
    | none =>
      refine Or.inl ⟨?_, rfl, h.unconfirmed (hconfirmed ▸ hcredential)⟩
      simp [loadedOf, hcredential]
    | some credential =>
      refine Or.inr ⟨credential.revision, credential.station, ?_, rfl,
        h.confirmed credential (hconfirmed ▸ hcredential)⟩
      simp [loadedOf, hcredential]

end

variable {w : World} {event : Event}

section

variable {sealing : Sealing} {g : Geometry} {pages : Page → UInt32}

/-- What a call does to the record and what it reports, in one of three ways. -/
inductive Moved (sealing : Sealing) (pages : Page → UInt32) (call : Call)
    (cells cells' : Image) : Report → Prop where
  | same (report : Report) (hreport : ∀ answer, report ≠ .returned (.committed answer))
      (hcurrent : current sealing pages cells' = current sealing pages cells) :
      Moved sealing pages call cells cells' report
  | kept (found : Option StoredState) (answer : Answer)
      (hseen : seen sealing pages cells = .ok found) (hplan : call.plan found = .keep answer)
      (hcells : cells' = cells) :
      Moved sealing pages call cells cells' (.returned (.committed answer))
  | took (found : Option StoredState) (next : StoredState) (planned : CommitOutcome Answer)
      (report : Report) (hseen : seen sealing pages cells = .ok found)
      (hplan : call.plan found = .write next planned)
      (hcurrent : current sealing pages cells' = some next)
      (hreport : report.Follows planned) : Moved sealing pages call cells cells' report

variable {trouble : Prop} {cells cells' : Image}

theorem moved_of_effect {outcome : CommitOutcome Answer}
    (h : Effect sealing pages call.plan trouble cells cells' outcome) :
    Moved sealing pages call cells cells' (.returned outcome) := by
  cases h with
  | unread error htrouble hcells => exact .same _ nofun (by rw [hcells])
  | locked error reason hseen hcells => exact .same _ nofun (by rw [hcells])
  | refused found error hseen hplan hcells => exact .same _ nofun (by rw [hcells])
  | kept found answer hseen hplan hcells => exact .kept found answer hseen hplan hcells
  | wrote found next report hseen hplan hcurrent =>
    exact .took found next outcome _ hseen hplan hcurrent (Or.inl rfl)
  | unwritten found next report error htrouble hseen hplan hcurrent => exact .same _ nofun hcurrent
  | unsettled found next report error htrouble hseen hplan hcurrent =>
    rcases hcurrent with hsame | hnext
    · exact .same _ nofun hsame
    · exact .took found next report _ hseen hplan hnext (Or.inr (Or.inr ⟨error, rfl⟩))

theorem moved_of_broken (h : Broken sealing pages call.plan trouble cells cells') :
    Moved sealing pages call cells cells' .powerLost := by
  cases h with
  | untouched htrouble hcells => exact .same _ nofun (by rw [hcells])
  | unsettled found next report htrouble hseen hplan hcurrent =>
    rcases hcurrent with hsame | hnext
    · exact .same _ nofun hsame
    · exact .took found next report _ hseen hplan hnext (Or.inr (Or.inl rfl))

theorem step_cases (hforged : Unforged sealing g pages { cells := w.cells, faults := event.faults }) :
    ∃ cells' report, w.step sealing g pages event = ⟨cells', w.log ++ [⟨event.call, report⟩]⟩ ∧
      ((∃ outcome, report = .returned outcome ∧ Effect sealing pages event.call.plan
          (Trouble g pages { cells := w.cells, faults := event.faults }) w.cells cells' outcome) ∨
        report = .powerLost ∧ Broken sealing pages event.call.plan
          (Trouble g pages { cells := w.cells, faults := event.faults }) w.cells cells') := by
  have hperform := ensures_perform event.call.sound event.iv hforged
  have hrun : event.call.run sealing g pages event.iv =
      perform sealing g pages event.call.plan event.iv := by
    cases event.call <;> rfl
  rw [← hrun] at hperform
  refine ⟨_, _, rfl, ?_⟩
  unfold Act.Ensures at hperform
  generalize event.call.run sealing g pages event.iv
    { cells := w.cells, faults := event.faults } = result at hperform ⊢
  obtain ⟨outcome, d'⟩ := result
  cases outcome with
  | ok outcome => exact Or.inl ⟨outcome, rfl, hperform⟩
  | error e => exact nomatch e
  | stopped powered => exact Or.inr ⟨rfl, hperform⟩

theorem step_moved
    (hforged : Unforged sealing g pages { cells := w.cells, faults := event.faults }) :
    ∃ cells' report, w.step sealing g pages event = ⟨cells', w.log ++ [⟨event.call, report⟩]⟩ ∧
      Moved sealing pages event.call w.cells cells' report := by
  obtain ⟨cells', report, hstep, ⟨outcome, rfl, heffect⟩ | ⟨rfl, hbroken⟩⟩ := step_cases hforged
  · exact ⟨cells', _, hstep, moved_of_effect heffect⟩
  · exact ⟨cells', _, hstep, moved_of_broken hbroken⟩

/-- The log explains the record, its loads, and that no revision was given out twice. -/
structure Inv (sealing : Sealing) (pages : Page → UInt32) (w : World) : Prop where
  explained : Explained w.log (stateOf (current sealing pages w.cells))
  loads : Everywhere LoadExplained w.log
  distinct : (stagedRevisions w.log).Nodup

theorem distinct_snoc {log : List Entry} (h : (stagedRevisions log).Nodup)
    (hentry : ∀ revision, entry.stagedRevision = some revision → revision ∉ stagedRevisions log) :
    (stagedRevisions (log ++ [entry])).Nodup := by
  rw [stagedRevisions_snoc]
  cases hrevision : entry.stagedRevision with
  | none => simpa using h
  | some revision =>
    refine h.append (List.nodup_singleton _) ?_
    simpa using hentry revision hrevision

theorem loadExplained_of_notLoad {before : List Entry} (h : NotLoad entry) :
    LoadExplained before entry :=
  fun configuration heq => absurd heq (h configuration)

variable (h : Inv sealing pages w)
include h

theorem Inv.snoc {cells' : Image}
    (hexplained : Explained (w.log ++ [entry]) (stateOf (current sealing pages cells')))
    (hload : LoadExplained w.log entry) (hstaged : entry.stagedRevision = none) :
    Inv sealing pages ⟨cells', w.log ++ [entry]⟩ where
  explained := hexplained
  loads := h.loads.snoc hload
  distinct := distinct_snoc h.distinct (by simp [hstaged])

/-- **One call keeps the invariant.** -/
theorem Inv.step (hforged : Unforged sealing g pages { cells := w.cells, faults := event.faults }) :
    Inv sealing pages (w.step sealing g pages event) := by
  obtain ⟨cells', report, hstep, hmoved⟩ := step_moved hforged
  rw [hstep]
  have hexplained := h.explained
  cases hmoved with
  | same report hreport hcurrent =>
    have hstaged : (Entry.mk event.call report).stagedRevision = none :=
      Option.eq_none_iff_forall_ne_some.mpr fun _ hsome =>
        hreport _ (stagedRevision_eq_some hsome)
    have hload : NotLoad ⟨event.call, report⟩ := fun configuration => hreport _
    rw [← hcurrent] at hexplained
    exact h.snoc (hexplained.snoc hload (hreport _) hstaged) (loadExplained_of_notLoad hload) hstaged
  | kept found answer hseen hplan hcells =>
    subst hcells
    have hcurrent := current_of_seen hseen
    have hmay : (Report.returned (.committed answer)).MayBe answer := Or.inl rfl
    rcases keep_cases hplan with ⟨status, hcall, hcandidate, hstatus, rfl⟩ | hquiet
    · refine h.snoc (hexplained.settle (hmay.notConfirm nofun) rfl rfl rfl ?_) ?_ rfl
      · rw [hcurrent]
        exact hcandidate
      · rw [hcurrent] at hexplained
        exact loadExplained_of hexplained rfl hcandidate hstatus
    · have hkinds : (∀ configuration, answer ≠ .loaded configuration) ∧ answer ≠ .confirmed ∧
          ∀ revision, answer ≠ .staged revision := by
        rcases hquiet with ⟨status, rfl⟩ | ⟨station, rfl⟩ <;> exact ⟨nofun, nofun, nofun⟩
      have hload := @Report.MayBe.notLoad event.call _ _ hmay hkinds.1
      have hstaged := @Report.MayBe.notStaged event.call _ _ hmay hkinds.2.2
      exact h.snoc (hexplained.snoc hload (hmay.notConfirm hkinds.2.1) hstaged)
        (loadExplained_of_notLoad hload) hstaged
  | took found next planned report hseen hplan hcurrent hreport =>
    rw [current_of_seen hseen] at hexplained
    refine ⟨?_, h.loads.snoc ?_, distinct_snoc h.distinct ?_⟩
    · rw [hcurrent]
      exact hexplained.write hplan hreport
    · intro configuration heq
      rw [hreport.answer heq] at hplan
      have hwritten := written hplan
      generalize event.call = call at hwritten
      cases hwritten with
      | load status hcandidate hstatus =>
        have hload : LoadExplained w.log ⟨event.call, .returned (.committed (.loaded
            (loadedOf (stateOf found).settled status true)))⟩ :=
          loadExplained_of hexplained rfl rfl hstatus
        exact hload _ rfl
    · intro revision hsome hmem
      rw [hreport.answer (stagedRevision_eq_some hsome)] at hplan
      have hlt := hexplained.given revision hmem
      have hwritten := written hplan
      generalize event.call = call at hwritten
      cases hwritten with
      | stage controller station _ hrevision hlast =>
        rw [hrevision] at hlt
        exact UInt32.lt_irrefl _ hlt

theorem Inv.run {events : List Event} (hauthentic : Authentic sealing g pages w events) :
    Inv sealing pages (w.run sealing g pages events) := by
  induction events generalizing w with
  | nil => exact h
  | cons event events ih => exact ih (h.step hauthentic.1) hauthentic.2

omit h

theorem seen_blank (h : Blank pages cells) : seen sealing pages cells = .ok none := by
  have hslots : ∀ page, slotsOf sealing pages cells page = .erased := by
    intro page
    exact if_pos (NorFlash.slice_all_iff.mpr (h page))
  have hrecord : ∀ page, (slotsOf sealing pages cells page).record = none := by
    intro page
    rw [hslots page]
    rfl
  unfold seen activeOf
  rw [if_neg]
  · exact congrArg Except.ok (value_none (active_eq_none (hrecord .first) (hrecord .second)))
  · rintro ⟨-, -, hinvalid | hinvalid⟩ <;> rw [hslots] at hinvalid <;> cases hinvalid

theorem inv_blank (h : Blank pages cells) : Inv sealing pages ⟨cells, []⟩ where
  explained := by
    rw [current_of_seen (seen_blank h)]
    exact explained_factory
  loads := Everywhere.nil
  distinct := List.nodup_nil

/-- **Only confirmed credentials survive a restart.** In every run from erased pages,
wherever flash operations fail or lose power: a load that succeeds gives the credentials
of the last successful confirmation or of one in flight after it, staged, activated and
confirmed in that order by one controller with no successful load in between; no two
committed stages have the same revision; and a call that reports that it did not commit
changes nothing later calls can see, once the store has a record. -/
theorem only_confirmed_credentials_survive (sealing : Sealing) (g : Geometry)
    (pages : Page → UInt32) (cells : Image) (hblank : Blank pages cells) (events : List Event)
    (hauthentic : Authentic sealing g pages ⟨cells, []⟩ events) :
    Everywhere LoadExplained (World.run sealing g pages ⟨cells, []⟩ events).log ∧
      (stagedRevisions (World.run sealing g pages ⟨cells, []⟩ events).log).Nodup ∧
      ∀ event error, Unforged sealing g pages
          { cells := (World.run sealing g pages ⟨cells, []⟩ events).cells
            faults := event.faults } →
        seen sealing pages (World.run sealing g pages ⟨cells, []⟩ events).cells ≠ .ok none →
        (World.run sealing g pages ⟨cells, []⟩ (events ++ [event])).log =
          (World.run sealing g pages ⟨cells, []⟩ events).log ++
            [⟨event.call, .returned (.notCommitted error)⟩] →
        seen sealing pages (World.run sealing g pages ⟨cells, []⟩ (events ++ [event])).cells =
          seen sealing pages (World.run sealing g pages ⟨cells, []⟩ events).cells := by
  have hinv := (inv_blank hblank).run hauthentic
  refine ⟨hinv.loads, hinv.distinct, ?_⟩
  intro event error hforged hrecord hlog
  -- a call that reports that it did not commit
  rw [World.run_append] at hlog ⊢
  change (World.step sealing g pages _ event).log = _ at hlog
  show seen sealing pages (World.step sealing g pages _ event).cells = _
  generalize World.run sealing g pages ⟨cells, []⟩ events = w at *
  obtain ⟨cells', report, hstep, hcases⟩ := step_cases hforged
  rw [hstep] at hlog ⊢
  have hreport : report = .returned (.notCommitted error) := by
    have hlast := List.append_cancel_left hlog
    cases hlast
    rfl
  rcases hcases with ⟨outcome, houtcome, heffect⟩ | ⟨hlost, -⟩
  · rw [houtcome] at hreport
    cases hreport
    cases heffect with
    | unread _ htrouble hcells => rw [hcells]
    | locked _ reason hseen hcells => rw [hcells]
    | refused found _ hseen hplan hcells => rw [hcells]
    | wrote found next _ hseen hplan hcurrent =>
      have hwritten := written hplan
      generalize event.call = call at hwritten
      cases hwritten
    | unwritten found next report _ htrouble hseen hplan hcurrent =>
      cases found with
      | none => exact absurd hseen hrecord
      | some state =>
        rw [hseen]
        exact seen_of_current (hcurrent.trans (current_of_seen hseen))
  · rw [hlost] at hreport
    cases hreport

end

/-! ## The first record

As long as no record is committed, a half-written one cannot be told from one that was
sealed under another key. -/

/-- A stand-in for the cipher. -/
def plainSealing : Sealing where
  wrap _ plain := plain ++ zeros (tokenLen - plainLen)
  unwrap token := some (token.take plainLen)
  length_wrap iv plain h := by
    rw [List.length_append, h, zeros, List.length_replicate]
    decide
  unwrap_wrap iv plain h := by rw [List.take_left' h]

def sampleGeometry : Geometry where
  readSize := 1
  writeSize := 4
  eraseSize := 4096
  capacity := 8192

def samplePages : Page → UInt32
  | .first => 0
  | .second => 4096

def sampleController : Controller where
  bytes := List.replicate 16 7
  length_eq := by decide

def sampleStation : WifiStation where
  ssid := "hopspot"
  password := ""
  named := by decide
  ssidFits := by decide
  passwordFits := by decide

/-- The stage of a first credential; the write of its header stops after one byte. -/
def brokenStage (fault : Tear → Fault) : Event where
  call := .stage sampleController sampleStation
  faults := [.none, .none, .none, .none, .none, fault ⟨1, fun _ => 0⟩]
  iv := Vector.replicate 16 0

/-- A call on working flash. -/
def Event.quiet (call : Call) (iv : Vector UInt8 16) : Event where
  call := call
  faults := []
  iv := iv

theorem unforged_quiet (sealing : Sealing) (g : Geometry) (pages : Page → UInt32) (cells : Image) :
    Unforged sealing g pages { cells := cells, faults := [] } :=
  fun _ hmem => absurd hmem List.not_mem_nil

def sampleStage : List Event :=
  [.quiet (.stage sampleController sampleStation) (Vector.replicate 16 0)]

/-- A first transaction, and a load. -/
def sampleEvents : List Event :=
  sampleStage ++
  [.quiet (.activate sampleController ⟨1, by decide⟩) (Vector.replicate 16 1),
    .quiet (.confirm sampleController ⟨1, by decide⟩) (Vector.replicate 16 2),
    .quiet .load (Vector.replicate 16 3)]

theorem authentic_sampleEvents :
    Authentic plainSealing sampleGeometry samplePages ⟨fun _ => 0xFF, []⟩ sampleEvents :=
  ⟨unforged_quiet _ _ _ _, unforged_quiet _ _ _ _, unforged_quiet _ _ _ _,
    unforged_quiet _ _ _ _, trivial⟩

theorem fits_sample : Fits sampleGeometry samplePages where
  valid := by decide
  record := by decide
  reads page := by cases page <;> decide
  writes page := by cases page <;> decide
  inside page := by cases page <;> decide
  below page := by cases page <;> decide

theorem blank_sample : Blank samplePages (fun _ => 0xFF) := fun _ _ _ _ => rfl

theorem unforged_of_raised_zero {d : Device}
    (hraised : ∀ tear ∈ d.tears, tear.raised = fun _ => 0) :
    Unforged sealing g pages d := by
  intro tear hmem page state htorn
  rw [hraised tear hmem, raise_zero] at htorn ⊢
  rw [htorn]
  exact ⟨rfl, rfl⟩

/-- Such a stage reports that it did not commit, and yet the store that loaded before it
does not load after it. -/
theorem first_failed_stage_is_visible :
    Fits sampleGeometry samplePages ∧ Blank samplePages (fun _ => 0xFF) ∧
      Authentic plainSealing sampleGeometry samplePages ⟨fun _ => 0xFF, []⟩ [brokenStage .fail] ∧
      (World.run plainSealing sampleGeometry samplePages ⟨fun _ => 0xFF, []⟩
        [.quiet .load (Vector.replicate 16 0)]).log =
        [⟨.load, .returned (.committed (.loaded ⟨none, .factoryProvisioning, false⟩))⟩] ∧
      (World.run plainSealing sampleGeometry samplePages ⟨fun _ => 0xFF, []⟩
        [brokenStage .fail, .quiet .load (Vector.replicate 16 0)]).log =
        [⟨.stage sampleController sampleStation,
            .returned (.notCommitted (.flash .writeRecord .other))⟩,
          ⟨.load, .returned (.notCommitted .authenticationFailed)⟩] := by
  exact ⟨fits_sample, blank_sample, ⟨unforged_of_raised_zero (by rintro _ (_ | ⟨_, ⟨⟩⟩); rfl), trivial⟩,
    by decide +kernel, by decide +kernel⟩

section

variable {sealing : Sealing} {g : Geometry} {pages : Page → UInt32} {iv : Vector UInt8 16}

theorem step_quiet (hfits : Fits g pages) (hfaults : event.faults = [])
    (hseen : seen sealing pages w.cells = .ok found) :
    match event.call.plan found with
    | .refuse _ => ∃ error, w.step sealing g pages event =
        ⟨w.cells, w.log ++ [⟨event.call, .returned (.notCommitted error)⟩]⟩
    | .keep answer => w.step sealing g pages event =
        ⟨w.cells, w.log ++ [⟨event.call, .returned (.committed answer)⟩]⟩
    | .write next planned => ∃ cells', w.step sealing g pages event =
        ⟨cells', w.log ++ [⟨event.call, .returned planned⟩]⟩ ∧
        current sealing pages cells' = some next := by
  have hforged : Unforged sealing g pages { cells := w.cells, faults := event.faults } := by
    rw [hfaults]
    exact unforged_quiet _ _ _ _
  have hclear : ¬ Trouble g pages { cells := w.cells, faults := event.faults } := by
    rw [hfaults]
    rintro (hfaults | hunfit)
    · exact hfaults rfl
    · exact hunfit hfits
  obtain ⟨cells', report, hstep, hcases⟩ := step_cases hforged
  rw [hstep]
  rcases hcases with ⟨outcome, rfl, heffect⟩ | ⟨-, hbroken⟩
  · cases heffect with
    | unread error htrouble hcells => exact absurd htrouble hclear
    | locked error reason hlocked hcells =>
      rw [hseen] at hlocked
      cases hlocked
    | refused found' error hseen' hplan hcells =>
      cases hseen.symm.trans hseen'
      rw [hplan, hcells]
      exact ⟨error, rfl⟩
    | kept found' answer hseen' hplan hcells =>
      cases hseen.symm.trans hseen'
      rw [hplan, hcells]
    | wrote found' next _ hseen' hplan hcurrent =>
      cases hseen.symm.trans hseen'
      rw [hplan]
      exact ⟨cells', rfl, hcurrent⟩
    | unwritten found' next report error htrouble => exact absurd htrouble hclear
    | unsettled found' next report error htrouble => exact absurd htrouble hclear
  · cases hbroken with
    | untouched htrouble hcells =>
      rcases htrouble with htrouble | ⟨reason, hlocked⟩
      · exact absurd htrouble hclear
      · rw [hseen] at hlocked
        cases hlocked
    | unsettled found' next report htrouble => exact absurd htrouble hclear

section

variable {controller : Controller} {station : WifiStation} (hfits : Fits g pages)
  (iv : Vector UInt8 16)

include hfits

variable (hseen : seen sealing pages w.cells = .ok found)

include hseen

theorem step_keep {answer : Answer} (hplan : call.plan found = .keep answer) :
    w.step sealing g pages (.quiet call iv) =
      ⟨w.cells, w.log ++ [⟨call, .returned (.committed answer)⟩]⟩ := by
  have hstep := step_quiet hfits (show (Event.quiet call iv).faults = [] from rfl) hseen
  rw [show (Event.quiet call iv).call.plan found = .keep answer from hplan] at hstep
  exact hstep

theorem step_write (hplan : call.plan found = .write next planned) :
    (w.step sealing g pages (.quiet call iv)).log = w.log ++ [⟨call, .returned planned⟩] ∧
      seen sealing pages (w.step sealing g pages (.quiet call iv)).cells = .ok (some next) := by
  have hstep := step_quiet hfits (show (Event.quiet call iv).faults = [] from rfl) hseen
  rw [show (Event.quiet call iv).call.plan found = .write next planned from hplan] at hstep
  obtain ⟨cells', hstep, hcurrent⟩ := hstep
  rw [hstep]
  exact ⟨rfl, seen_of_current hcurrent⟩

theorem load_quiet : ∃ found' configuration, (w.step sealing g pages (.quiet .load iv)).log =
        w.log ++ [⟨.load, .returned (.committed (.loaded configuration))⟩] ∧
      seen sealing pages (w.step sealing g pages (.quiet .load iv)).cells = .ok found' ∧
      (stateOf found').candidate = none ∧
      (stateOf found').nextRevision = (stateOf found).nextRevision ∧
      (found = none → configuration = ⟨none, .factoryProvisioning, false⟩) := by
  have hphase := (wellFormed_of_seen hseen).phase
  cases hcandidate : (stateOf found).candidate with
  | none =>
    obtain ⟨status, hstatus⟩ : ∃ status, (stateOf found).status = .ok status := by
      rw [hcandidate] at hphase
      have hnone := Option.isNone_iff_eq_none.mp (Option.isSome_eq_false_iff.mp hphase.symm)
      rw [StoredState.status, hcandidate, hnone]
      exact ⟨_, rfl⟩
    have hplan : Call.load.plan found =
        .keep (.loaded (loadedOf (stateOf found) status false)) := by
      simp [Call.plan, loadPlan, hcandidate, hstatus]
    rw [step_keep hfits iv hseen hplan]
    refine ⟨found, _, rfl, hseen, hcandidate, rfl, ?_⟩
    rintro rfl
    cases hstatus
    rfl
  | some candidate =>
    have hsome : (stateOf found).candidate.isSome = true := by rw [hcandidate]; rfl
    obtain ⟨next, planned, hplan⟩ : ∃ next planned, Call.load.plan found = .write next planned :=
      ⟨_, _, if_pos hsome⟩
    obtain ⟨hlog, hseen'⟩ := step_write hfits iv hseen hplan
    cases Call.written hplan
    refine ⟨some _, _, hlog, hseen', rfl, rfl, ?_⟩
    rintro rfl
    cases hcandidate

theorem stage_quiet (hcandidate : (stateOf found).candidate = none)
    (hlast : (stateOf found).nextRevision ≠ 0xFFFFFFFF) (controller : Controller)
    (station : WifiStation) :
    ∃ revision state,
      (w.step sealing g pages (.quiet (.stage controller station) iv)).log = w.log ++
        [⟨.stage controller station, .returned (.committed (.staged revision))⟩] ∧
      seen sealing pages (w.step sealing g pages (.quiet (.stage controller station) iv)).cells =
        .ok (some state) ∧
      state.candidate = some ⟨controller, ⟨revision, station⟩⟩ ∧ state.phase = some .staged := by
  have hzero := (wellFormed_of_seen hseen).nextRevision
  have hplan : plan (.stage controller station) found =
      .write ⟨(stateOf found).generation + 1, (stateOf found).nextRevision + 1,
        (stateOf found).confirmed, some ⟨controller, ⟨⟨_, hzero⟩, station⟩⟩, some .staged⟩
        (.committed (.staged ⟨_, hzero⟩)) := by
    simp [plan, stagePlan, hcandidate, Revision.new, hzero, hlast]
  obtain ⟨hlog, hseen'⟩ := step_write hfits iv hseen hplan
  exact ⟨_, _, hlog, hseen', rfl, rfl⟩

end

/-- A stage whose first read fails. -/
def failedStage : Event where
  call := .stage sampleController sampleStation
  faults := [.fail ⟨0, fun _ => 0⟩]
  iv := Vector.replicate 16 0

theorem only_confirmed_credentials_survive_sample : Everywhere LoadExplained
        (World.run plainSealing sampleGeometry samplePages ⟨fun _ => 0xFF, []⟩ sampleStage).log ∧
      seen plainSealing samplePages (World.run plainSealing sampleGeometry samplePages
          ⟨fun _ => 0xFF, []⟩ (sampleStage ++ [failedStage])).cells =
        seen plainSealing samplePages (World.run plainSealing sampleGeometry samplePages
          ⟨fun _ => 0xFF, []⟩ sampleStage).cells := by
  obtain ⟨hloads, -, hseen⟩ := only_confirmed_credentials_survive plainSealing sampleGeometry
    samplePages (fun _ => 0xFF) blank_sample sampleStage ⟨unforged_quiet _ _ _ _, trivial⟩
  have hrecord : seen plainSealing samplePages (World.run plainSealing sampleGeometry samplePages
      ⟨fun _ => 0xFF, []⟩ sampleStage).cells ≠ .ok none := by
    have hblank : seen plainSealing samplePages _ = .ok none := seen_blank blank_sample
    obtain ⟨revision, state, -, hstate, -⟩ := stage_quiet (w := ⟨fun _ => 0xFF, []⟩) fits_sample
      (Vector.replicate 16 0) hblank rfl (by decide) sampleController sampleStation
    show seen plainSealing samplePages (World.step plainSealing sampleGeometry samplePages
      ⟨fun _ => 0xFF, []⟩ _).cells ≠ .ok none
    rw [hstate]
    nofun
  have hfailed : (World.run plainSealing sampleGeometry samplePages ⟨fun _ => 0xFF, []⟩
      (sampleStage ++ [failedStage])).log =
        (World.run plainSealing sampleGeometry samplePages ⟨fun _ => 0xFF, []⟩ sampleStage).log ++
          [⟨failedStage.call, .returned (.notCommitted (.flash .read .other))⟩] := by
    rfl
  exact ⟨hloads, hseen _ _ (unforged_of_raised_zero (by rintro _ (_ | ⟨_, ⟨⟩⟩); rfl)) hrecord
    hfailed⟩

/-! ## The store is not locked -/

/-- No call is interrupted or fails while the store has no record yet. -/
def FirstUnbroken (sealing : Sealing) (g : Geometry) (pages : Page → UInt32) (w : World) :
    List Event → Prop
  | [] => True
  | event :: events => (seen sealing pages w.cells = .ok none → event.faults = []) ∧
      FirstUnbroken sealing g pages (w.step sealing g pages event) events

/-- The store is as it was delivered, or it has a record and a stage was committed. -/
def Healthy (sealing : Sealing) (pages : Page → UInt32) (w : World) : Prop :=
  (seen sealing pages w.cells = .ok none ∧ stagedRevisions w.log = []) ∨
    ∃ state, seen sealing pages w.cells = .ok (some state) ∧ stagedRevisions w.log ≠ []

theorem Healthy.step (hfits : Fits g pages) (h : Healthy sealing pages w)
    (hforged : Unforged sealing g pages { cells := w.cells, faults := event.faults })
    (hfirst : seen sealing pages w.cells = .ok none → event.faults = []) :
    Healthy sealing pages (w.step sealing g pages event) := by
  rcases h with ⟨hseen, hlog⟩ | ⟨state, hseen, hlog⟩
  · have hstep := step_quiet hfits (hfirst hseen) hseen
    cases hplan : event.call.plan none with
    | refuse error =>
      rw [hplan] at hstep
      obtain ⟨error', hstep⟩ := hstep
      rw [hstep]
      exact Or.inl ⟨hseen, by rw [stagedRevisions_snoc, hlog]; rfl⟩
    | keep answer =>
      rw [hplan] at hstep
      rw [hstep]
      refine Or.inl ⟨hseen, ?_⟩
      have hmay : (Report.returned (.committed answer)).MayBe answer := Or.inl rfl
      rw [stagedRevisions_snoc, hlog, hmay.notStaged]
      · rfl
      · rintro revision rfl
        rcases keep_cases hplan with ⟨status, -, -, -, heq⟩ | ⟨status, heq⟩ | ⟨station, heq⟩ <;>
          cases heq
    | write next planned =>
      rw [hplan] at hstep
      obtain ⟨cells', hstep, hcurrent⟩ := hstep
      obtain ⟨revision, rfl⟩ := write_none hplan
      rw [hstep]
      refine Or.inr ⟨next, seen_of_current hcurrent, ?_⟩
      rw [stagedRevisions_snoc]
      exact List.append_ne_nil_of_right_ne_nil _ nofun
  · obtain ⟨cells', report, hstep, hmoved⟩ := step_moved hforged
    rw [hstep]
    have hgrown : stagedRevisions (w.log ++ [⟨event.call, report⟩]) ≠ [] := by
      rw [stagedRevisions_snoc]
      exact List.append_ne_nil_of_left_ne_nil hlog _
    have hold := current_of_seen hseen
    cases hmoved with
    | same report hreport hcurrent =>
      exact Or.inr ⟨state, seen_of_current (hcurrent.trans hold), hgrown⟩
    | kept found answer hseen' hplan hcells =>
      refine Or.inr ⟨state, ?_, hgrown⟩
      rw [hcells]
      exact hseen
    | took found next planned report hseen' hplan hcurrent hreport =>
      exact Or.inr ⟨next, seen_of_current hcurrent, hgrown⟩

theorem Healthy.run (hfits : Fits g pages) (h : Healthy sealing pages w) {events : List Event}
    (hauthentic : Authentic sealing g pages w events)
    (hfirst : FirstUnbroken sealing g pages w events) :
    Healthy sealing pages (w.run sealing g pages events) := by
  induction events generalizing w with
  | nil => exact h
  | cons event events ih =>
    exact ih (h.step hfits hauthentic.1 hfirst.1) hauthentic.2 hfirst.2

end

end Prns.Ports.WifiStore
