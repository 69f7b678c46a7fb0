import Prns.Ports.WifiConfigurationRecord
import Prns.Verified.PagedRecord

/-!
# The Wi-Fi credential store

`WifiConfigurationStore` keeps its whole state as a sealed record in one of two flash
pages; the store itself has no memory, so a restart only matters in that a load follows
it. Every call reads both pages, decides from the newer valid record, and writes at most
one new record. The calls differ in what they decide: that is their `Plan`.

`ensures_perform` follows a call through every flash operation that may fail or lose
power, and says which record the pages then hold.
-/

namespace Prns.Ports.WifiStore

open Verified
open Verified.NorFlash (Geometry Image FlashError check check_none slice)
open Verified.TornFlash
open Verified.TwoPages
open Verified.PagedRecord (Area Codec Within Stale Landed Settled)
open PagedRecord
open Act

inductive FlashOperation where
  | read | erase | writeRecord | verifyRecord | writeCommit | verifyCommit
  deriving DecidableEq, Repr

inductive StoreError where
  | flash (operation : FlashOperation) (error : FlashError)
  | invalidLayout
  | authenticationFailed
  | corruptRecord
  | verificationFailed
  | busy
  | noTransaction
  | controllerMismatch
  | revisionMismatch
  | revisionExhausted
  deriving DecidableEq, Repr

inductive CommitOutcome (α : Type) where
  | committed (a : α)
  | notCommitted (error : StoreError)
  | indeterminate (error : StoreError)
  deriving DecidableEq

inductive Status where
  | factoryProvisioning
  | confirmed (revision : Revision)
  | transaction (revision : Revision) (controller : Controller) (phase : TransactionPhase)
  deriving DecidableEq

structure LoadedConfiguration where
  active : Option WifiStation
  status : Status
  recoveredUnconfirmedTransaction : Bool
  deriving DecidableEq

def StoredState.status (state : StoredState) : Except StoreError Status :=
  match state.candidate, state.phase with
  | some candidate, some phase =>
    .ok (.transaction candidate.credential.revision candidate.controller phase)
  | none, none =>
    .ok (match state.confirmed with
      | none => .factoryProvisioning
      | some confirmed => .confirmed confirmed.revision)
  | _, _ => .error .corruptRecord

def StoredState.withoutCandidate (state : StoredState) : StoredState :=
  { state with candidate := none, phase := none }

inductive Slot where
  | erased
  | invalid
  | valid (state : StoredState)
  deriving DecidableEq

def Slot.record : Slot → Option StoredState
  | .valid state => some state
  | .erased => none
  | .invalid => none

def decodeSlot (sealing : Sealing) (bytes : List UInt8) : Slot :=
  if bytes.all (· == 0xFF) then .erased
  else
    match decodeRecord sealing bytes with
    | some state => .valid state
    | none => .invalid

def selectActive (slots : Page → Slot) : Option StoredState :=
  value StoredState.generation (fun page => (slots page).record)

def selectActiveIndex (slots : Page → Slot) : Option Page :=
  active StoredState.generation (fun page => (slots page).record)

/-- `read_active`, from the slots that were read. -/
def activeOf (slots : Page → Slot) : Except StoreError (Option StoredState) :=
  if (slots .first).record.isNone ∧ (slots .second).record.isNone ∧
      (slots .first = .invalid ∨ slots .second = .invalid) then .error .authenticationFailed
  else .ok (selectActive slots)

/-! ## Decisions -/

/-- What the calls answer. -/
inductive Answer where
  | loaded (configuration : LoadedConfiguration)
  | status (status : Status)
  | staged (revision : Revision)
  | activated (station : WifiStation)
  | confirmed
  | cancelled (active : Option WifiStation)
  deriving DecidableEq

/-- What a call does once it has read the state: refuse, answer without a write, or write
a state and then report. -/
inductive Plan where
  | refuse (error : StoreError)
  | keep (answer : Answer)
  | write (next : StoredState) (report : CommitOutcome Answer)

/-- The state a call starts from. -/
def stateOf (seen : Option StoredState) : StoredState := seen.getD StoredState.factory

def loadedOf (state : StoredState) (status : Status) (recovered : Bool) : LoadedConfiguration where
  active := state.confirmed.map StoredCredential.station
  status := status
  recoveredUnconfirmedTransaction := recovered

def loadPlan (seen : Option StoredState) : Plan :=
  let state := stateOf seen
  if state.candidate.isSome then
    let next := { state.withoutCandidate with generation := state.generation + 1 }
    .write next (match next.status with
      | .error error => .indeterminate error
      | .ok status => .committed (.loaded (loadedOf next status true)))
  else
    match state.status with
    | .error error => .refuse error
    | .ok status => .keep (.loaded (loadedOf state status false))

def statusPlan (controller : Controller) (seen : Option StoredState) : Plan :=
  match (stateOf seen).status with
  | .error error => .refuse error
  | .ok (.transaction revision owner phase) =>
    if owner ≠ controller then .refuse .controllerMismatch
    else .keep (.status (.transaction revision owner phase))
  | .ok status => .keep (.status status)

def stagePlan (controller : Controller) (station : WifiStation) (seen : Option StoredState) :
    Plan :=
  let state := stateOf seen
  if state.candidate.any (fun candidate => candidate.controller ≠ controller) then .refuse .busy
  else
    match Revision.new state.nextRevision with
    | none => .refuse .revisionExhausted
    | some revision =>
      if state.nextRevision = 0xFFFFFFFF then .refuse .revisionExhausted
      else
        .write
          { generation := state.generation + 1
            nextRevision := state.nextRevision + 1
            confirmed := state.confirmed
            candidate := some { controller := controller
                                credential := { revision := revision, station := station } }
            phase := some .staged }
          (.committed (.staged revision))

/-- `transaction`, from the state that was read. -/
def transactionOf (controller : Controller) (revision : Revision) (seen : Option StoredState) :
    Except StoreError (StoredState × CandidateCredential) :=
  match seen with
  | none => .error .noTransaction
  | some state =>
    match state.candidate with
    | none => .error .noTransaction
    | some candidate =>
      if candidate.controller ≠ controller then .error .controllerMismatch
      else if candidate.credential.revision ≠ revision then .error .revisionMismatch
      else .ok (state, candidate)

def activatePlan (controller : Controller) (revision : Revision) (seen : Option StoredState) :
    Plan :=
  match transactionOf controller revision seen with
  | .error error => .refuse error
  | .ok (state, candidate) =>
    if state.phase = some .awaitingConfirmation then .keep (.activated candidate.credential.station)
    else
      .write { state with phase := some .awaitingConfirmation, generation := state.generation + 1 }
        (.committed (.activated candidate.credential.station))

def confirmPlan (controller : Controller) (revision : Revision) (seen : Option StoredState) :
    Plan :=
  match transactionOf controller revision seen with
  | .error error => .refuse error
  | .ok (state, candidate) =>
    if state.phase ≠ some .awaitingConfirmation then .refuse .noTransaction
    else
      .write
        { state with
          candidate := none
          confirmed := some candidate.credential
          phase := none
          generation := state.generation + 1 }
        (.committed .confirmed)

def cancelPlan (controller : Controller) (revision : Revision) (seen : Option StoredState) :
    Plan :=
  match transactionOf controller revision seen with
  | .error error => .refuse error
  | .ok (state, _) =>
    .write { state.withoutCandidate with generation := state.generation + 1 }
      (.committed (.cancelled (state.confirmed.map StoredCredential.station)))

section

/-! ## Operations

The store is its two pages, on a flash of geometry `g`. -/

variable (sealing : Sealing) (g : Geometry) (pages : Page → UInt32)

/-- The address of a page. -/
def base (page : Page) : Nat := (pages page).toNat

/-- `page + ERASE_SIZE as u32`. -/
def pageEnd (page : Page) : Nat := (pages page + UInt32.ofNat g.eraseSize).toNat

def validateLayout : Except StoreError Unit :=
  if g.eraseSize = 0 ∨ g.writeSize = 0 ∨ g.eraseSize < recordLen ∨ headerLen % g.writeSize ≠ 0 ∨
      commitLen % g.writeSize ≠ 0 ∨ (recordLen - tokenOffset) % g.writeSize ≠ 0 ∨
      pages .first = pages .second ∨ base pages .first % g.eraseSize ≠ 0 ∨
      base pages .second % g.eraseSize ≠ 0 then .error .invalidLayout
  else .ok ()

def readSlots : Act Device StoreError (Page → Slot) := do
  Act.ofExcept (validateLayout g pages)
  let first ← (read g (base pages .first) recordLen).mapError (.flash .read)
  let second ← (read g (base pages .second) recordLen).mapError (.flash .read)
  pure (fun
    | .first => decodeSlot sealing first
    | .second => decodeSlot sealing second)

def readActive : Act Device StoreError (Option StoredState) := do
  let slots ← readSlots sealing g pages
  Act.ofExcept (activeOf slots)

/-- The part of `commit_state` whose failure is reported as not committed. -/
def writeRecord (page : Page) (bytes : List UInt8) : Act Device StoreError Unit := do
  (erase g (base pages page) (pageEnd g pages page)).mapError (.flash .erase)
  (write g (base pages page) (bytes.take headerLen)).mapError (.flash .writeRecord)
  (write g (base pages page + tokenOffset) (bytes.drop tokenOffset)).mapError (.flash .writeRecord)
  let verification ← (read g (base pages page) recordLen).mapError (.flash .verifyRecord)
  if verification.take headerLen ≠ bytes.take headerLen ∨
      verification.drop tokenOffset ≠ bytes.drop tokenOffset ∨
      field verification commitOffset commitLen ≠ List.replicate commitLen 0xFF then
    Act.fail .verificationFailed
  else pure ()

/-- The part of `commit_state` whose failure is reported as indeterminate. -/
def sealRecord (page : Page) (state : StoredState) : Act Device StoreError Unit := do
  (write g (base pages page + commitOffset) commitMarker).mapError (.flash .writeCommit)
  let verification ← (read g (base pages page) recordLen).mapError (.flash .verifyCommit)
  if decodeRecord sealing verification = some state then pure ()
  else Act.fail .verificationFailed

def commitTo (page : Page) (state : StoredState) (bytes : List UInt8) :
    Act Device Empty (CommitOutcome Unit) := do
  match ← (writeRecord g pages page bytes).attempt with
  | .error error => pure (.notCommitted error)
  | .ok () =>
    match ← (sealRecord sealing g pages page state).attempt with
    | .error error => pure (.indeterminate error)
    | .ok () => pure (.committed ())

def commitState (state : StoredState) (iv : Vector UInt8 16) :
    Act Device Empty (CommitOutcome Unit) := do
  match validateLayout g pages with
  | .error error => pure (.notCommitted error)
  | .ok () =>
    match ← (readSlots sealing g pages).attempt with
    | .error error => pure (.notCommitted error)
    | .ok slots =>
      match encodeRecord sealing state iv with
      | none => pure (.notCommitted .corruptRecord)
      | some bytes =>
        commitTo sealing g pages (((selectActiveIndex slots).map Page.other).getD .first) state bytes

/-- A call: read, decide, write. -/
def perform (plan : Option StoredState → Plan) (iv : Vector UInt8 16) :
    Act Device Empty (CommitOutcome Answer) := do
  match ← (readActive sealing g pages).attempt with
  | .error error => pure (.notCommitted error)
  | .ok seen =>
    match plan seen with
    | .refuse error => pure (.notCommitted error)
    | .keep answer => pure (.committed answer)
    | .write next report =>
      match ← commitState sealing g pages next iv with
      | .committed () => pure report
      | .notCommitted error => pure (.notCommitted error)
      | .indeterminate error => pure (.indeterminate error)

/-- `load`; either kind of failure is the error of its result. -/
def load (iv : Vector UInt8 16) : Act Device Empty (CommitOutcome Answer) :=
  perform sealing g pages loadPlan iv

def status (controller : Controller) (iv : Vector UInt8 16) :
    Act Device Empty (CommitOutcome Answer) :=
  perform sealing g pages (statusPlan controller) iv

def stage (controller : Controller) (station : WifiStation) (iv : Vector UInt8 16) :
    Act Device Empty (CommitOutcome Answer) :=
  perform sealing g pages (stagePlan controller station) iv

def activate (controller : Controller) (revision : Revision) (iv : Vector UInt8 16) :
    Act Device Empty (CommitOutcome Answer) :=
  perform sealing g pages (activatePlan controller revision) iv

def confirm (controller : Controller) (revision : Revision) (iv : Vector UInt8 16) :
    Act Device Empty (CommitOutcome Answer) :=
  perform sealing g pages (confirmPlan controller revision) iv

def cancel (controller : Controller) (revision : Revision) (iv : Vector UInt8 16) :
    Act Device Empty (CommitOutcome Answer) :=
  perform sealing g pages (cancelPlan controller revision) iv

def pageRecord (cells : Image) (page : Page) : Option StoredState :=
  decodeRecord sealing (slice cells (base pages page) recordLen)

/-- The newer valid record. -/
def current (cells : Image) : Option StoredState :=
  value StoredState.generation (pageRecord sealing pages cells)

def slotsOf (cells : Image) (page : Page) : Slot :=
  decodeSlot sealing (slice cells (base pages page) recordLen)

/-- What `read_active` gives on working flash. Every call starts from it. -/
def seen (cells : Image) : Except StoreError (Option StoredState) :=
  activeOf (slotsOf sealing pages cells)

end

variable {bytes : List UInt8} {found : Option StoredState} {d : Device} {next : StoredState}
  {state : StoredState}

section

variable {sealing : Sealing} {pages : Page → UInt32} {cells : Image}

theorem framed_of_decodeRecord (h : decodeRecord sealing bytes = some state) :
    field bytes 0 4 = magic ∧ field bytes 4 2 = beBytes 2 schemaVersion ∧
      field bytes 6 2 = [0, 0] ∧ field bytes commitOffset commitLen = commitMarker := by
  unfold decodeRecord at h
  split_ifs at h with hframed
  simpa only [not_or, ne_eq, Decidable.not_not] using hframed

theorem decodeSlot_record (bytes : List UInt8) :
    (decodeSlot sealing bytes).record = decodeRecord sealing bytes := by
  unfold decodeSlot
  by_cases herased : bytes.all (· == 0xFF) = true
  · rw [if_pos herased]
    cases hdecode : decodeRecord sealing bytes with
    | none => rfl
    | some state =>
      have hmem : (0x48 : UInt8) ∈ field bytes 0 4 := by
        rw [(framed_of_decodeRecord hdecode).1]
        exact List.mem_cons_self
      exact absurd (eq_of_mem_field herased hmem) (by decide)
  · rw [if_neg herased]
    cases decodeRecord sealing bytes <;> rfl

theorem slotsOf_record (cells : Image) :
    (fun page => (slotsOf sealing pages cells page).record) = pageRecord sealing pages cells := by
  funext page
  exact decodeSlot_record _

theorem selectActive_slotsOf (cells : Image) :
    selectActive (slotsOf sealing pages cells) = current sealing pages cells := by
  rw [selectActive, slotsOf_record, current]

theorem seen_of_current (h : current sealing pages cells = some state) :
    seen sealing pages cells = .ok (some state) := by
  unfold seen activeOf
  rw [if_neg, selectActive_slotsOf, h]
  rintro ⟨hfirst, hsecond, -⟩
  have hnone : active StoredState.generation (pageRecord sealing pages cells) = none := by
    rw [← slotsOf_record]
    exact active_eq_none (Option.isNone_iff_eq_none.mp hfirst)
      (Option.isNone_iff_eq_none.mp hsecond)
  rw [current, value_none hnone] at h
  cases h

theorem current_of_seen (h : seen sealing pages cells = .ok found) :
    current sealing pages cells = found := by
  unfold seen activeOf at h
  split at h
  · cases h
  · rw [selectActive_slotsOf] at h
    exact Except.ok.inj h

theorem wellFormed_of_current (h : current sealing pages cells = some state) :
    WellFormed state := by
  unfold current value at h
  cases hactive : active StoredState.generation (pageRecord sealing pages cells) with
  | none =>
    rw [hactive] at h
    cases h
  | some page =>
    rw [hactive] at h
    exact wellFormed_of_decodeRecord h

theorem wellFormed_of_seen (h : seen sealing pages cells = .ok found) :
    WellFormed (stateOf found) := by
  cases found with
  | none => exact wellFormed_factory
  | some state => exact wellFormed_of_current (current_of_seen h)

end

section

variable {g : Geometry} {pages : Page → UInt32}

structure ValidLayout (g : Geometry) (pages : Page → UInt32) : Prop where
  record : recordLen ≤ g.eraseSize
  apart : pages .first ≠ pages .second
  header : headerLen % g.writeSize = 0
  commit : commitLen % g.writeSize = 0
  token : tokenLen % g.writeSize = 0
  aligned : ∀ page, base pages page % g.eraseSize = 0

theorem validLayout_of_validateLayout (h : validateLayout g pages = .ok ()) :
    ValidLayout g pages := by
  unfold validateLayout at h
  split at h
  · cases h
  rename_i hvalid
  simp only [not_or, Nat.not_lt, ne_eq, Decidable.not_not] at hvalid
  obtain ⟨-, -, hrecord, hheader, hcommit, htoken, hapart, hfirst, hsecond⟩ := hvalid
  refine ⟨hrecord, hapart, hheader, hcommit, htoken, ?_⟩
  intro page
  cases page with
  | first => exact hfirst
  | second => exact hsecond

theorem multiples_apart {size a b : Nat} (ha : a % size = 0) (hb : b % size = 0) (hne : a ≠ b) :
    a + size ≤ b ∨ b + size ≤ a := by
  obtain ⟨m, rfl⟩ := Nat.dvd_of_mod_eq_zero ha
  obtain ⟨n, rfl⟩ := Nat.dvd_of_mod_eq_zero hb
  rcases Nat.lt_trichotomy m n with hlt | rfl | hlt
  · have hle := Nat.mul_le_mul_left size hlt
    exact Or.inl hle
  · exact absurd rfl hne
  · have hle := Nat.mul_le_mul_left size hlt
    exact Or.inr hle

theorem ValidLayout.bases_apart (h : ValidLayout g pages) (page : Page) :
    base pages page + g.eraseSize ≤ base pages page.other ∨
      base pages page.other + g.eraseSize ≤ base pages page := by
  apply multiples_apart (h.aligned page) (h.aligned page.other)
  intro heq
  have hpages := UInt32.toNat_inj.mp heq
  cases page with
  | first => exact h.apart hpages
  | second => exact h.apart hpages.symm

/-- The record's bytes around its commit field. -/
def frame : Frame where
  len := recordLen
  commitAt := commitOffset
  marker := commitMarker
  fits := by decide
  written := by decide +kernel
  nonempty := by decide

def ValidLayout.area (h : ValidLayout g pages) : Area where
  base := base pages
  size := g.eraseSize
  frame := frame
  fits := h.record
  apart := h.bases_apart

def codec (sealing : Sealing) : Codec frame StoredState where
  decode := decodeRecord sealing
  marked h := (framed_of_decodeRecord h).2.2.2

theorem ValidLayout.pageEnd_cases (h : ValidLayout g pages) (page : Page) :
    pageEnd g pages page = base pages page + g.eraseSize ∨
      pageEnd g pages page < base pages page ∧ 2 ^ 32 ≤ base pages page + g.eraseSize := by
  have hsecond : base pages page.other < 2 ^ 32 := (pages page.other).toNat_lt
  have hapart := h.bases_apart page
  have hend : pageEnd g pages page = (base pages page + g.eraseSize) % 2 ^ 32 := by
    rw [pageEnd, UInt32.toNat_add, UInt32.toNat_ofNat', Nat.add_mod_mod]
    rfl
  omega

/-- The pages lie inside the flash, and the flash can read and write where the store
does. `validateLayout` checks only a part of this. -/
structure Fits (g : Geometry) (pages : Page → UInt32) : Prop where
  valid : validateLayout g pages = .ok ()
  record : recordLen % g.readSize = 0
  reads : ∀ page, base pages page % g.readSize = 0
  writes : ∀ page, base pages page % g.writeSize = 0
  inside : ∀ page, base pages page + g.eraseSize ≤ g.capacity
  below : ∀ page, base pages page + g.eraseSize < 2 ^ 32

section

variable (h : Fits g pages) (page : Page)

include h

theorem Fits.layout : ValidLayout g pages := validLayout_of_validateLayout h.valid

theorem Fits.check_read : check g g.readSize (base pages page) recordLen = none :=
  check_none (h.reads page) h.record
    (Nat.le_trans (Nat.add_le_add_left h.layout.record _) (h.inside page))

theorem Fits.check_erase : check g g.eraseSize (base pages page) g.eraseSize = none :=
  check_none (h.layout.aligned page) (Nat.mod_self _) (h.inside page)

theorem Fits.check_write {offset len : Nat} (hoffset : offset % g.writeSize = 0)
    (hlen : len % g.writeSize = 0) (hroom : offset + len ≤ recordLen) :
    check g g.writeSize (base pages page + offset) len = none := by
  have hrecord := h.layout.record
  have hinside := h.inside page
  refine check_none ?_ hlen (by omega)
  rw [Nat.add_mod, h.writes page, hoffset]
  simp

end

end

/-! ## Writing -/

section

variable {sealing : Sealing} {g : Geometry} {pages : Page → UInt32} {page : Page}
  {cells cells' : Image}

/-- **Authenticity**: a page that is accepted after an interrupted erase was accepted
before, with the same token. -/
def Unforged (sealing : Sealing) (g : Geometry) (pages : Page → UInt32) (d : Device) : Prop :=
  ∀ tear ∈ d.tears, ∀ page state,
    pageRecord sealing pages
        (raise d.cells (base pages page) (base pages page + g.eraseSize) tear.raised) page =
        some state →
      (pageRecord sealing pages d.cells page).isSome ∧
        slice (raise d.cells (base pages page) (base pages page + g.eraseSize) tear.raised)
            (base pages page + tokenOffset) tokenLen =
          slice d.cells (base pages page + tokenOffset) tokenLen

theorem header_of_decodeRecord (h : decodeRecord sealing bytes = some state) :
    ∃ plain, sealing.unwrap (bytes.drop tokenOffset) = some plain ∧
      bytes.take tokenOffset = magic ++ (beBytes 2 schemaVersion ++ ([0, 0] ++
        (field bytes 8 8 ++ commitMarker))) ∧
      UInt64.ofNat (ofBeBytes (field bytes 8 8)) = UInt64.ofNat (ofBeBytes (field plain 1 8)) := by
  obtain ⟨hmagic, hschema, hzero, hmarker⟩ := framed_of_decodeRecord h
  unfold decodeRecord at h
  split at h
  · cases h
  simp only [Option.bind_eq_bind, Option.bind_eq_some_iff] at h
  obtain ⟨plain, hplain, hdecode⟩ := h
  refine ⟨plain, hplain, ?_, ?_⟩
  · rw [← hmagic, ← hschema, ← hzero, ← hmarker]
    rw [show tokenOffset = 4 + (2 + (2 + (8 + commitLen))) from rfl, List.take_add, List.take_add,
      List.take_add, List.take_add, List.drop_drop, List.drop_drop, List.drop_drop]
    rfl
  split at hdecode
  · cases hdecode
  unfold decodePlain at hdecode
  split at hdecode
  · cases hdecode
  · rename_i hgeneration
    simp only [not_or, ne_eq, Decidable.not_not] at hgeneration
    exact hgeneration.2.symm

theorem eq_of_decodeRecord {bytes bytes' : List UInt8} {state' : StoredState}
    (h : decodeRecord sealing bytes = some state) (h' : decodeRecord sealing bytes' = some state')
    (hlen : bytes.length = recordLen) (hlen' : bytes'.length = recordLen)
    (htoken : bytes.drop tokenOffset = bytes'.drop tokenOffset) : bytes = bytes' := by
  obtain ⟨plain, hplain, hfront, hgeneration⟩ := header_of_decodeRecord h
  obtain ⟨plain', hplain', hfront', hgeneration'⟩ := header_of_decodeRecord h'
  have hsame : plain = plain' := by
    rw [htoken, hplain'] at hplain
    exact (Option.some.inj hplain).symm
  have hfield : ∀ {b : List UInt8}, b.length = recordLen → (field b 8 8).length = 8 := by
    intro b hb
    rw [field, List.length_take, List.length_drop, hb]
    rfl
  have hheader : field bytes 8 8 = field bytes' 8 8 := by
    apply ofBeBytes_inj (by rw [hfield hlen, hfield hlen'])
    have hwide : 256 ^ 8 = 2 ^ 64 := by decide
    have hlt := ofBeBytes_lt (field bytes 8 8)
    have hlt' := ofBeBytes_lt (field bytes' 8 8)
    rw [hfield hlen, hwide] at hlt
    rw [hfield hlen', hwide] at hlt'
    have heq := congrArg UInt64.toNat ((hgeneration.trans (by rw [hsame])).trans hgeneration'.symm)
    rw [UInt64.toNat_ofNat', UInt64.toNat_ofNat', Nat.mod_eq_of_lt hlt, Nat.mod_eq_of_lt hlt'] at heq
    exact heq
  rw [← List.take_append_drop tokenOffset bytes, ← List.take_append_drop tokenOffset bytes',
    hfront, hfront', hheader, htoken]

theorem Unforged.detected (h : Unforged sealing g pages d) (hlayout : ValidLayout g pages)
    (page : Page) : Detected hlayout.area (codec sealing) d page := by
  intro tear hmem
  cases htorn : pageRecord sealing pages
    (raise d.cells (base pages page) (base pages page + g.eraseSize) tear.raised) page with
  | none => exact Or.inr htorn
  | some state =>
    obtain ⟨hold, htoken⟩ := h tear hmem page state htorn
    obtain ⟨state', hold⟩ := Option.isSome_iff_exists.mp hold
    refine Or.inl (eq_of_decodeRecord htorn hold (NorFlash.length_slice ..)
      (NorFlash.length_slice ..) ?_)
    have hle : tokenOffset ≤ recordLen := by decide
    show (slice _ _ recordLen).drop tokenOffset = (slice _ _ recordLen).drop tokenOffset
    rw [NorFlash.drop_slice hle, NorFlash.drop_slice hle]
    exact htoken

/-- What may have kept a call from succeeding. -/
def Trouble (g : Geometry) (pages : Page → UInt32) (d : Device) : Prop :=
  d.faults ≠ [] ∨ ¬ Fits g pages

variable {d' : Device}

theorem trouble_of_troubled {refused : Option FlashError} (h : Troubled d' refused)
    (hrefused : Fits g pages → refused = none) (hahead : Ahead d d') : Trouble g pages d := by
  rcases h with hne | hfaults
  · exact Or.inr (fun hfits => hne (hrefused hfits))
  · exact Or.inl (fun hd => hfaults (hahead.quiet hd))

/-- The operations on a page, each with what it leaves when it does not complete. -/
theorem ensures_erasePage (hlayout : ValidLayout g pages) (page : Page)
    (hforged : Unforged sealing g pages d) :
    Ensures (erase g (base pages page) (pageEnd g pages page)) d
      (fun _ d' => d'.cells = erasedPage hlayout.area page d.cells ∧ Ahead d d')
      (fun d' => Stale hlayout.area (codec sealing) page d.cells d'.cells ∧ Trouble g pages d) := by
  rcases hlayout.pageEnd_cases page with hend | ⟨hend, hhigh⟩
  · rw [hend]
    refine (ensures_erase g (Nat.le_add_right _ _) d).weaken ?_
    rintro d' ⟨htorn, hahead, htroubled⟩
    refine ⟨stale_of_torn (hforged.detected hlayout page) htorn,
      trouble_of_troubled htroubled ?_ (Ahead.refl d)⟩
    intro hfits
    rw [Nat.add_sub_cancel_left]
    exact hfits.check_erase page
  · -- the end wraps to before the page
    unfold Ensures erase
    rw [if_pos hend]
    refine ⟨Stale.refl, Or.inr ?_⟩
    intro hfits
    exact absurd (hfits.below page) (Nat.not_lt.mpr hhigh)

variable {front back : List UInt8}

theorem ensures_writeRecord (hlayout : ValidLayout g pages) (hfront : front.length = headerLen)
    (hback : back.length = tokenLen) (hforged : Unforged sealing g pages d) :
    Ensures (writeRecord g pages page (front ++ (List.replicate commitLen 0xFF ++ back))) d
      (fun _ d' => d'.cells = bodyWritten hlayout.area page d.cells front back ∧ Ahead d d')
      (fun d' => Stale hlayout.area (codec sealing) page d.cells d'.cells ∧ Trouble g pages d) := by
  have htake : (front ++ (List.replicate commitLen 0xFF ++ back)).take headerLen = front :=
    List.take_left' hfront
  have hdrop : (front ++ (List.replicate commitLen 0xFF ++ back)).drop tokenOffset = back := by
    rw [← List.append_assoc]
    exact List.drop_left' (by rw [List.length_append, hfront, List.length_replicate]; rfl)
  unfold writeRecord
  rw [htake, hdrop]
  -- erase
  refine (ensures_erasePage hlayout page hforged).mapError.bind ?_
  rintro _ d₁ ⟨hcells₁, hahead₁⟩
  -- the header
  refine (ensures_write_from hahead₁ hcells₁ (stale_front hfront) ?_).mapError.bind ?_
  · rw [hfront]
    exact fun h => trouble_of_troubled h
      (fun hfits => hfits.check_write page (Nat.zero_mod _) hlayout.header (by decide)) hahead₁
  rintro _ d₂ ⟨hcells₂, hahead₂⟩
  -- the token
  refine (ensures_write_from hahead₂ hcells₂ (stale_back hfront hback) ?_).mapError.bind ?_
  · have hoffset : tokenOffset % g.writeSize = 0 := by
      rw [show tokenOffset = headerLen + commitLen from rfl, Nat.add_mod, hlayout.header,
        hlayout.commit]
      simp
    rw [hback]
    exact fun h => trouble_of_troubled h (fun hfits => hfits.check_write page hoffset
      hlayout.token (Nat.le_of_ble_eq_true rfl)) hahead₂
  rintro _ d₃ ⟨hcells₃, hahead₃⟩
  -- reading it back
  refine (ensures_read_from hahead₃ hcells₃ (Stale.of_open
    (within_bodyWritten hfront hback) (open_bodyWritten hfront))
    ?_).mapError.bind ?_
  · exact fun h => trouble_of_troubled h (fun hfits => hfits.check_read page) hahead₃
  rintro verification d₄ ⟨hverification, hcells₄, hahead₄⟩
  obtain rfl := hverification.trans (slice_bodyWritten hfront hback)
  have hmiddle : field (front ++ (List.replicate commitLen 0xFF ++ back)) commitOffset commitLen =
      List.replicate commitLen 0xFF := field_middle hfront List.length_replicate
  rw [if_neg]
  · exact ensures_pure ⟨hcells₄, hahead₄⟩
  · rintro (h | h | h)
    · exact h htake
    · exact h hdrop
    · exact h hmiddle

theorem ensures_sealRecord (hlayout : ValidLayout g pages) (hfront : front.length = headerLen)
    (hback : back.length = tokenLen)
    (hdecode : decodeRecord sealing (front ++ (commitMarker ++ back)) = some state)
    (hcells : d.cells = bodyWritten hlayout.area page cells front back) :
    Ensures (sealRecord sealing g pages page state) d
      (fun _ d' => Landed hlayout.area (codec sealing) page state cells d'.cells)
      (fun d' => Settled hlayout.area (codec sealing) page state cells d'.cells ∧
        Trouble g pages d) := by
  have hlanded : Landed hlayout.area (codec sealing) page state cells (NorFlash.program _ _ _) :=
    landed_committed hfront hback hdecode
  -- the marker
  refine (ensures_write_from (Ahead.refl d) hcells
    (settled_commit hfront hback hdecode) ?_).mapError.bind ?_
  · exact fun h => trouble_of_troubled h (fun hfits => hfits.check_write page
      hlayout.header hlayout.commit (Nat.le_of_ble_eq_true rfl)) (Ahead.refl d)
  rintro _ d₁ ⟨hcells₁, hahead₁⟩
  -- reading it back
  refine (ensures_read_from hahead₁ hcells₁ (Or.inr hlanded) ?_).mapError.bind ?_
  · exact fun h => trouble_of_troubled h (fun hfits => hfits.check_read page) hahead₁
  rintro verification d₂ ⟨hverification, hcells₂, -⟩
  obtain rfl := hverification.trans (slice_committed hfront hback)
  rw [if_pos]
  · exact ensures_pure (hcells₂ ▸ hlanded)
  · exact hdecode

/-! ## Committing -/

/-- What an outcome says of the record before, the record now, and the record that was to
be written. -/
def Truthful (old now : Option StoredState) (next : StoredState) (trouble : Prop) :
    CommitOutcome Unit → Prop
  | .committed _ => now = some next
  | .notCommitted _ => now = old ∧ trouble
  | .indeterminate _ => (now = old ∨ now = some next) ∧ trouble

/-- Nothing was written. -/
def Untouched (d d' : Device) : Prop := d'.cells = d.cells ∧ Ahead d d'

theorem ensures_readSlots (sealing : Sealing) (hlayout : validateLayout g pages = .ok ())
    (d : Device) :
    Ensures (readSlots sealing g pages) d
      (fun slots d' => slots = slotsOf sealing pages d.cells ∧ Untouched d d')
      (fun d' => d'.cells = d.cells ∧ Trouble g pages d) := by
  unfold readSlots
  rw [hlayout]
  refine (ensures_read_from (L := (· = d.cells)) (Ahead.refl d) rfl rfl ?_).mapError.bind ?_
  · exact fun h => trouble_of_troubled h (fun hfits => hfits.check_read .first) (Ahead.refl d)
  rintro first d₁ ⟨rfl, hcells₁, hahead₁⟩
  refine (ensures_read_from (L := (· = d.cells)) hahead₁ hcells₁ rfl ?_).mapError.bind ?_
  · exact fun h => trouble_of_troubled h (fun hfits => hfits.check_read .second) hahead₁
  rintro second d₂ ⟨rfl, huntouched⟩
  refine ensures_pure ⟨?_, huntouched⟩
  funext page
  cases page <;> rfl

theorem Untouched.unforged (h : Untouched d d') (hforged : Unforged sealing g pages d) :
    Unforged sealing g pages d' := by
  intro tear hmem page state
  rw [h.1]
  exact hforged tear (h.2.tears hmem) page state

theorem Untouched.trouble (h : Untouched d d') (htrouble : Trouble g pages d') :
    Trouble g pages d :=
  htrouble.imp (fun hfaults hd => hfaults (h.2.quiet hd)) id

/-- **A write, through every exit**: the newer record is the old one or the new one, and
the outcome says which. -/
theorem ensures_commitState (hlayout : validateLayout g pages = .ok ()) (hnext : WellFormed next)
    (iv : Vector UInt8 16) (hforged : Unforged sealing g pages d)
    (hgeneration : ∀ old, current sealing pages d.cells = some old →
      next.generation = old.generation + 1) :
    Ensures (commitState sealing g pages next iv) d
      (fun outcome d' => Truthful (current sealing pages d.cells) (current sealing pages d'.cells)
        next (Trouble g pages d) outcome)
      (fun d' => (current sealing pages d'.cells = current sealing pages d.cells ∨
        current sealing pages d'.cells = some next) ∧ Trouble g pages d) := by
  have hvalid := validLayout_of_validateLayout hlayout
  obtain ⟨token, htoken, hencode, hdecode⟩ := @encodeRecord_decodes next sealing hnext iv
  unfold commitState
  rw [hlayout, hencode]
  refine (ensures_readSlots sealing hlayout d).attempt_bind ?_ ?_ ?_
  · rintro d' ⟨hcells, htrouble⟩
    exact ⟨Or.inl (by rw [hcells]), htrouble⟩
  · rintro error d₁ ⟨hcells, htrouble⟩
    exact ensures_pure ⟨by rw [hcells], htrouble⟩
  rintro slots d₁ ⟨rfl, hread⟩
  have hforged₁ := hread.unforged hforged
  have htrouble (h : Trouble g pages d₁) : Trouble g pages d := hread.trouble h
  rw [← hread.1] at hgeneration ⊢
  have hpage : ((selectActiveIndex (slotsOf sealing pages d₁.cells)).map Page.other).getD .first =
      target StoredState.generation (pageRecord sealing pages d₁.cells) := by
    rw [selectActiveIndex, slotsOf_record, target]
    cases active StoredState.generation (pageRecord sealing pages d₁.cells) <;> rfl
  show Ensures (commitTo sealing g pages _ next _) d₁ _ _
  generalize ((selectActiveIndex (slotsOf sealing pages d₁.cells)).map Page.other).getD .first =
    page at hpage
  have hstale : ∀ {cells'}, Stale hvalid.area (codec sealing) page d₁.cells cells' →
      current sealing pages cells' = current sealing pages d₁.cells :=
    fun h => Stale.value_eq hpage h
  have hlanded : ∀ {cells'}, Landed hvalid.area (codec sealing) page next d₁.cells cells' →
      current sealing pages cells' = some next :=
    fun h => Landed.value_eq hpage hgeneration h
  refine (ensures_writeRecord hvalid rfl htoken hforged₁).attempt_bind ?_ ?_ ?_
  · rintro d' ⟨hleft, hd₁⟩
    exact ⟨Or.inl (hstale hleft), htrouble hd₁⟩
  · rintro error d₂ ⟨hleft, hd₁⟩
    exact ensures_pure ⟨hstale hleft, htrouble hd₁⟩
  rintro _ d₂ ⟨hcells₂, hahead₂⟩
  have htrouble₂ : Trouble g pages d₂ → Trouble g pages d :=
    fun h => htrouble (h.imp (fun hfaults hd => hfaults (hahead₂.quiet hd)) id)
  refine (ensures_sealRecord hvalid rfl htoken hdecode hcells₂).attempt_bind ?_ ?_ ?_
  · rintro d' ⟨hleft, hd₂⟩
    exact ⟨hleft.imp hstale hlanded, htrouble₂ hd₂⟩
  · rintro error d₃ ⟨hleft, hd₂⟩
    exact ensures_pure ⟨hleft.imp hstale hlanded, htrouble₂ hd₂⟩
  · exact fun _ d₃ hsealed => ensures_pure (hlanded hsealed)

end

/-! ## Calls -/

/-- A plan writes well-formed states of the next generation. -/
def Sound (plan : Option StoredState → Plan) : Prop :=
  ∀ found next report, WellFormed (stateOf found) → plan found = .write next report →
    WellFormed next ∧ next.generation = (stateOf found).generation + 1

section

variable (sealing : Sealing) (pages : Page → UInt32) (plan : Option StoredState → Plan)
  (trouble : Prop) (cells cells' : Image)

/-- What a call that returned did, by its outcome. -/
inductive Effect : CommitOutcome Answer → Prop where
  | unread (error : StoreError) (htrouble : trouble) (hcells : cells' = cells) :
      Effect (.notCommitted error)
  | locked (error reason : StoreError) (hseen : seen sealing pages cells = .error reason)
      (hcells : cells' = cells) : Effect (.notCommitted error)
  | refused (found : Option StoredState) (error : StoreError)
      (hseen : seen sealing pages cells = .ok found) (hplan : plan found = .refuse error)
      (hcells : cells' = cells) : Effect (.notCommitted error)
  | kept (found : Option StoredState) (answer : Answer)
      (hseen : seen sealing pages cells = .ok found) (hplan : plan found = .keep answer)
      (hcells : cells' = cells) : Effect (.committed answer)
  | wrote (found : Option StoredState) (next : StoredState) (report : CommitOutcome Answer)
      (hseen : seen sealing pages cells = .ok found) (hplan : plan found = .write next report)
      (hcurrent : current sealing pages cells' = some next) : Effect report
  | unwritten (found : Option StoredState) (next : StoredState) (report : CommitOutcome Answer)
      (error : StoreError) (htrouble : trouble)
      (hseen : seen sealing pages cells = .ok found) (hplan : plan found = .write next report)
      (hcurrent : current sealing pages cells' = current sealing pages cells) :
      Effect (.notCommitted error)
  | unsettled (found : Option StoredState) (next : StoredState) (report : CommitOutcome Answer)
      (error : StoreError) (htrouble : trouble)
      (hseen : seen sealing pages cells = .ok found) (hplan : plan found = .write next report)
      (hcurrent : current sealing pages cells' = current sealing pages cells ∨
        current sealing pages cells' = some next) : Effect (.indeterminate error)

/-- What a call that lost power did. -/
inductive Broken : Prop where
  | untouched (htrouble : trouble ∨ ∃ reason, seen sealing pages cells = .error reason)
      (hcells : cells' = cells)
  | unsettled (found : Option StoredState) (next : StoredState) (report : CommitOutcome Answer)
      (htrouble : trouble) (hseen : seen sealing pages cells = .ok found)
      (hplan : plan found = .write next report)
      (hcurrent : current sealing pages cells' = current sealing pages cells ∨
        current sealing pages cells' = some next)

end

section

variable {sealing : Sealing} {g : Geometry} {pages : Page → UInt32}
  {plan : Option StoredState → Plan}

theorem ensures_readActive (d : Device) : Ensures (readActive sealing g pages) d
      (fun found d' => seen sealing pages d.cells = .ok found ∧ Untouched d d' ∧
        validateLayout g pages = .ok ())
      (fun d' => d'.cells = d.cells ∧ (Trouble g pages d ∨
        ∃ error, seen sealing pages d.cells = .error error)) := by
  unfold readActive
  cases hlayout : validateLayout g pages with
  | error error =>
    unfold readSlots
    rw [hlayout]
    refine ⟨rfl, Or.inl (Or.inr ?_)⟩
    intro hfits
    rw [hfits.valid] at hlayout
    cases hlayout
  | ok _ =>
    refine ((ensures_readSlots sealing hlayout d).weaken (fun _ h => ⟨h.1, Or.inl h.2⟩)).bind ?_
    rintro slots d' ⟨rfl, huntouched⟩
    show Ensures (ofExcept (seen sealing pages d.cells)) d' _ _
    cases hseen : seen sealing pages d.cells with
    | error error => exact ensures_fail ⟨huntouched.1, Or.inr ⟨error, rfl⟩⟩
    | ok found => exact ensures_pure ⟨rfl, huntouched, rfl⟩

theorem Sound.generation (hsound : Sound plan) {cells : Image} {report : CommitOutcome Answer}
    (hseen : seen sealing pages cells = .ok found) (hplan : plan found = .write next report)
    (old : StoredState) (hold : current sealing pages cells = some old) :
    next.generation = old.generation + 1 := by
  rw [current_of_seen hseen] at hold
  have hnext := (hsound found next report (wellFormed_of_seen hseen) hplan).2
  rw [hold] at hnext
  exact hnext

/-- **A call, through every exit.** -/
theorem ensures_perform (hsound : Sound plan) (iv : Vector UInt8 16)
    (hforged : Unforged sealing g pages d) :
    Ensures (perform sealing g pages plan iv) d
      (fun outcome d' => Effect sealing pages plan (Trouble g pages d) d.cells d'.cells outcome)
      (fun d' => Broken sealing pages plan (Trouble g pages d) d.cells d'.cells) := by
  have hread : Ensures (readActive sealing g pages) d _ _ := ensures_readActive d
  refine hread.attempt_bind (fun _ h => Broken.untouched h.2 h.1) ?_ ?_
  · rintro error d₁ ⟨hcells, htrouble | ⟨reason, hseen⟩⟩
    · exact ensures_pure (Effect.unread error htrouble hcells)
    · exact ensures_pure (Effect.locked error reason hseen hcells)
  rintro found d₁ ⟨hseen, huntouched, hlayout⟩
  show Ensures (match plan found with
    | .refuse error => _
    | .keep answer => _
    | .write next report => _) d₁ _ _
  cases hplan : plan found with
  | refuse error => exact ensures_pure (Effect.refused found error hseen hplan huntouched.1)
  | keep answer => exact ensures_pure (Effect.kept found answer hseen hplan huntouched.1)
  | write next report =>
    have hnext := (hsound found next report (wellFormed_of_seen hseen) hplan).1
    have hcommit := ensures_commitState hlayout hnext iv (huntouched.unforged hforged) (by
      rw [huntouched.1]
      exact hsound.generation hseen hplan)
    rw [huntouched.1] at hcommit
    refine (hcommit.weaken ?_).bind ?_
    · rintro d' ⟨hcurrent, htrouble⟩
      exact Broken.unsettled found next report (huntouched.trouble htrouble) hseen hplan hcurrent
    intro outcome d' htruth
    cases outcome with
    | committed _ => exact ensures_pure (Effect.wrote found next report hseen hplan htruth)
    | notCommitted error =>
      exact ensures_pure (Effect.unwritten found next report error
        (huntouched.trouble htruth.2) hseen hplan htruth.1)
    | indeterminate error =>
      exact ensures_pure (Effect.unsettled found next report error
        (huntouched.trouble htruth.2) hseen hplan htruth.1)

end

end Prns.Ports.WifiStore
