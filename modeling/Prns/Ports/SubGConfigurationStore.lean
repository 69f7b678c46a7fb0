import Prns.Ports.SubGConfigurationRecord
import Prns.Verified.PagedRecord

/-!
# The radio configuration store

`SubGConfigurationStore` keeps the radio configuration as a record in one of two flash
pages. A commit erases the page that does not hold the active record, writes the new
record around its commit field, writes the commit word and reads the record back; when
one of the last two fails it looks at both pages again to say what happened.

Every flash operation may fail or lose power, and then a write leaves a prefix of its
bytes and an erase raises any bits of its page. The main result follows a commit through
all of them from any two pages. The checksum is needed in one place only: an erase that
tears the page of an old record must not turn it into another record. A record that is
torn while it is written has no commit word.
-/

namespace Prns.Ports.SubGStore

open Verified
open Verified.NorFlash (Geometry Image FlashError check check_none slice)
open Verified.TornFlash
open Verified.TwoPages
open Verified.PagedRecord (Area Codec Within Stale Landed Settled)
open Radio
open PagedRecord
open Act

inductive FlashOperation where
  | read | erase | writeRecord | writeCommit | verify | reconcile
  deriving DecidableEq, Repr

inductive StoreError where
  | unsupportedConfiguration
  | flash (operation : FlashOperation) (error : FlashError)
  | invalidLayout
  | verificationFailed
  deriving DecidableEq, Repr

inductive CommitOutcome where
  | committed
  | notCommitted (error : StoreError)
  | indeterminate (error : StoreError)
  deriving DecidableEq, Repr

inductive LoadNotice where
  | migrated | recovered | reset
  deriving DecidableEq, Repr

structure LoadedConfiguration where
  state : LoRaConfigurationState
  notice : Option LoadNotice

/-! ## Slots -/

inductive Slot where
  | erased
  | valid (record : StoredRecord)
  | invalid (generation : Option UInt64)

def Slot.record : Slot → Option StoredRecord
  | .valid record => some record
  | .erased => none
  | .invalid _ => none

def slotOf (lora2g4 : Bool) (bytes : List UInt8) : Slot :=
  if bytes.all (· == 0xFF) then .erased
  else
    match decodeRecord lora2g4 bytes with
    | some record => .valid record
    | none => .invalid (generationHint bytes)

def selectActive (slots : Page → Slot) : Option Page :=
  active StoredRecord.generation (fun page => (slots page).record)

section

/-! ## Operations

The store is its two pages, on a flash of geometry `g`. -/

variable (lora2g4 : Bool) (g : Geometry) (pages : Page → UInt32)

/-- The address of a page. -/
def base (page : Page) : Nat := (pages page).toNat

def pageEnd (page : Page) : Nat := base pages page + g.eraseSize

def validPage (page : Page) : Bool :=
  base pages page % g.eraseSize == 0 && base pages page % g.readSize == 0 &&
    base pages page % g.writeSize == 0 && decide (pageEnd g pages page < 2 ^ 32) &&
    decide (pageEnd g pages page ≤ g.capacity)

def validateLayout : Except StoreError Unit :=
  if g.eraseSize = 0 ∨ g.readSize = 0 ∨ g.writeSize = 0 ∨ 2 ^ 32 ≤ g.eraseSize ∨
      g.eraseSize < recordLen ∨ recordLen % g.readSize ≠ 0 ∨ commitOffset % g.writeSize ≠ 0 ∨
      4 % g.writeSize ≠ 0 ∨ (commitOffset + 4) % g.writeSize ≠ 0 ∨
      (recordLen - commitOffset - 4) % g.writeSize ≠ 0 ∨ pages .first = pages .second then
    .error .invalidLayout
  else if !validPage g pages .first || !validPage g pages .second then .error .invalidLayout
  else if base pages .first < pageEnd g pages .second ∧
      base pages .second < pageEnd g pages .first then .error .invalidLayout
  else .ok ()

def readSlot (operation : FlashOperation) (page : Page) : Act Device StoreError Slot := do
  let bytes ← (read g (base pages page) recordLen).mapError (.flash operation)
  pure (slotOf lora2g4 bytes)

def readSlots (operation : FlashOperation) : Act Device StoreError (Page → Slot) := do
  let first ← readSlot lora2g4 g pages operation .first
  let second ← readSlot lora2g4 g pages operation .second
  pure (fun
    | .first => first
    | .second => second)

/-- The page beside the active one is a newer record that was lost. -/
def recovered (record : StoredRecord) : Slot → Bool
  | .invalid (some generation) => generationIsNewer generation record.generation
  | .invalid none => true
  | .erased => false
  | .valid _ => false

def loadNotice (slots : Page → Slot) (page : Page) (record : StoredRecord) : Option LoadNotice :=
  if recovered record (slots page.other) then some .recovered
  else if record.legacy then some .migrated
  else none

def isErased : Slot → Bool
  | .erased => true
  | _ => false

/-- `load_radio`, from the slots that were read. -/
def loadedFrom (slots : Page → Slot) : Except StoreError LoadedConfiguration :=
  match selectActive slots with
  | none =>
    .ok { state := .unconfigured
          notice := if isErased (slots .first) && isErased (slots .second) then none
            else some .reset }
  | some page =>
    match (slots page).record with
    | none => .ok { state := .unconfigured, notice := some .reset }
    | some record =>
      match record.value.state with
      | none => .error .unsupportedConfiguration
      | some state => .ok { state := state, notice := loadNotice slots page record }

def loadRadio : Act Device StoreError LoadedConfiguration := do
  Act.ofExcept (validateLayout g pages)
  let slots ← readSlots lora2g4 g pages .read
  Act.ofExcept (loadedFrom slots)

def reconcileCommit (expected : StoredRecord) (previous : Option StoredRecord)
    (failure : StoreError) : Act Device Empty CommitOutcome := do
  match ← (readSlots lora2g4 g pages .reconcile).attempt with
  | .error error => pure (.indeterminate error)
  | .ok slots =>
    let now := (selectActive slots).bind (fun page => (slots page).record)
    if now = some expected then pure .committed
    else if now = previous then pure (.notCommitted failure)
    else pure (.indeterminate failure)

/-- The part of `commit` whose failure means that nothing was committed. -/
def writeRecord (page : Page) (record : List UInt8) : Act Device StoreError Unit := do
  (erase g (base pages page) (pageEnd g pages page)).mapError (.flash .erase)
  (write g (base pages page) (record.take commitOffset)).mapError (.flash .writeRecord)
  (write g (base pages page + (commitOffset + 4)) (record.drop (commitOffset + 4))).mapError
    (.flash .writeRecord)

/-- The part of `commit` whose failure is reconciled. -/
def sealRecord (page : Page) (record : List UInt8) (expected : StoredRecord) :
    Act Device StoreError Unit := do
  (write g (base pages page + commitOffset) commitWord).mapError (.flash .writeCommit)
  let verified ← (read g (base pages page) recordLen).mapError (.flash .verify)
  if verified ≠ record.take commitOffset ++ (commitWord ++ record.drop (commitOffset + 4)) then
    Act.fail .verificationFailed
  else if decodeRecord lora2g4 verified ≠ some expected then Act.fail .verificationFailed
  else pure ()

def commitTo (page : Page) (previous : Option StoredRecord) (expected : StoredRecord) :
    Act Device Empty CommitOutcome := do
  let record := encodeRecord expected.generation expected.value
  match ← (writeRecord g pages page record).attempt with
  | .error error => pure (.notCommitted error)
  | .ok () =>
    match ← (sealRecord lora2g4 g pages page record expected).attempt with
    | .error error => reconcileCommit lora2g4 g pages expected previous error
    | .ok () => pure .committed

def commit (value : StoredValue) : Act Device Empty CommitOutcome := do
  match validateLayout g pages with
  | .error error => pure (.notCommitted error)
  | .ok () =>
    match ← (readSlots lora2g4 g pages .read).attempt with
    | .error error => pure (.notCommitted error)
    | .ok slots =>
      let current := selectActive slots
      let previous := current.bind (fun page => (slots page).record)
      let target := (current.map Page.other).getD .first
      let generation := (previous.map (·.generation + 1)).getD 0
      commitTo lora2g4 g pages target previous
        { generation := generation, value := value, legacy := false }

def save (configuration : SubGConfiguration) : Act Device Empty CommitOutcome :=
  commit lora2g4 g pages (.configuration configuration)

def clear : Act Device Empty CommitOutcome := commit lora2g4 g pages .unconfigured

def saveRadio : LoRaConfigurationState → Act Device Empty CommitOutcome
  | .unconfigured => clear lora2g4 g pages
  | .configured (.subG configuration) => save lora2g4 g pages configuration
  | .configured (.ghz24 profile) => commit lora2g4 g pages (.ghz24 profile)

/-! ## The record a load finds -/

def pageRecord (cells : Image) (page : Page) : Option StoredRecord :=
  decodeRecord lora2g4 (slice cells (base pages page) recordLen)

/-- The record of the store. -/
def current (cells : Image) : Option StoredRecord :=
  value StoredRecord.generation (pageRecord lora2g4 pages cells)

/-- The record that a commit of a value writes. -/
def nextRecord (cells : Image) (value : StoredValue) : StoredRecord :=
  { generation := ((current lora2g4 pages cells).map (·.generation + 1)).getD 0
    value := value
    legacy := false }

def slotsOf (cells : Image) (page : Page) : Slot :=
  slotOf lora2g4 (slice cells (base pages page) recordLen)

/-- What a load on working flash says of the configuration. -/
def loads (d : Device) : Outcome StoreError LoRaConfigurationState :=
  match (loadRadio lora2g4 g pages d.quiet).1 with
  | .ok loaded => .ok loaded.state
  | .error e => .error e
  | .stopped powered => .stopped powered

def stateOf : Option StoredRecord → Outcome StoreError LoRaConfigurationState
  | none => .ok .unconfigured
  | some record =>
    match record.value.state with
    | none => .error .unsupportedConfiguration
    | some state => .ok state

end

variable {bytes : List UInt8} {record : StoredRecord}

section

variable {lora2g4 : Bool} (h : decodeRecord lora2g4 bytes = some record)
include h

theorem wellFramed_of_decodeRecord : wellFramed bytes = true := by
  unfold decodeRecord at h
  split at h
  · assumption
  · cases h

theorem magic_of_decodeRecord : field bytes 0 4 = magic := by
  have hframed := wellFramed_of_decodeRecord h
  simp only [wellFramed, Bool.and_eq_true] at hframed
  exact eq_of_beq hframed.1.1.1.1.1.1

omit h

theorem slotOf_record (lora2g4 : Bool) (bytes : List UInt8) :
    (slotOf lora2g4 bytes).record = decodeRecord lora2g4 bytes := by
  unfold slotOf
  by_cases herased : bytes.all (· == 0xFF) = true
  · rw [if_pos herased]
    cases hdecode : decodeRecord lora2g4 bytes with
    | none => rfl
    | some record =>
      have hfirst : (0x48 : UInt8) ∈ field bytes 0 4 := by
        rw [magic_of_decodeRecord hdecode]
        exact List.mem_cons_self
      exact absurd (eq_of_mem_field herased hfirst) (by decide)
  · rw [if_neg herased]
    cases hdecode : decodeRecord lora2g4 bytes with
    | none => rfl
    | some record => rfl

end

section

variable {g : Geometry} {pages : Page → UInt32}

/-- What `validateLayout` admits. -/
structure Layout (g : Geometry) (pages : Page → UInt32) : Prop where
  erase : 0 < g.eraseSize
  record : recordLen ≤ g.eraseSize
  reads : ∀ page, check g g.readSize (base pages page) recordLen = none
  erases : ∀ page, check g g.eraseSize (base pages page) g.eraseSize = none
  fronts : ∀ page, check g g.writeSize (base pages page) commitOffset = none
  backs : ∀ page, check g g.writeSize (base pages page + (commitOffset + 4))
    (recordLen - (commitOffset + 4)) = none
  commits : ∀ page, check g g.writeSize (base pages page + commitOffset) 4 = none
  apart : ∀ page, pageEnd g pages page ≤ base pages page.other ∨
    pageEnd g pages page.other ≤ base pages page

theorem layout_of_validateLayout (h : validateLayout g pages = .ok ()) : Layout g pages := by
  unfold validateLayout at h
  split_ifs at h with hsizes hpages hapart
  simp only [not_or, Nat.not_le, Nat.not_lt, ne_eq, Decidable.not_not] at hsizes
  obtain ⟨herase, -, -, -, hrecord, hread, hcommit, hfour, hback, hrest, -⟩ := hsizes
  have hvalid : ∀ page, validPage g pages page = true := by
    intro page
    cases page <;> simp_all
  simp only [validPage, Bool.and_eq_true, beq_iff_eq] at hvalid
  have hlen : recordLen = 48 := rfl
  have hoffset : commitOffset = 28 := rfl
  have hinside : ∀ page, base pages page + g.eraseSize ≤ g.capacity :=
    fun page => of_decide_eq_true (hvalid page).2
  have hwrites : ∀ {page offset}, offset % g.writeSize = 0 →
      (base pages page + offset) % g.writeSize = 0 := by
    intro page offset haligned
    rw [Nat.add_mod, (hvalid page).1.1.2, haligned]
    simp
  refine ⟨by omega, hrecord, fun page => ?_, fun page => ?_, fun page => ?_, fun page => ?_,
    fun page => ?_, fun page => ?_⟩
  all_goals have hend := hinside page
  · exact check_none (hvalid page).1.1.1.2 hread (by omega)
  · exact check_none (hvalid page).1.1.1.1 (Nat.mod_self _) hend
  · exact check_none (hvalid page).1.1.2 hcommit (by omega)
  · exact check_none (hwrites hback) (by rwa [Nat.sub_sub] at hrest) (by omega)
  · exact check_none (hwrites hcommit) hfour (by omega)
  · cases page <;> (unfold pageEnd at *; show _ ∨ _; simp only [Page.other]; omega)

end

section

variable {lora2g4 : Bool} {g : Geometry} {pages : Page → UInt32}

/-- Nothing was written, and a failure came from a fault. -/
def Untouched (d d' : Device) : Prop := d'.cells = d.cells ∧ Ahead d d'

theorem ensures_readSlot (hlayout : Layout g pages) (operation : FlashOperation) (page : Page)
    (d : Device) :
    Ensures (readSlot lora2g4 g pages operation page) d
      (fun slot d' => slot = slotsOf lora2g4 pages d.cells page ∧ Untouched d d')
      (fun d' => d'.cells = d.cells ∧ d.faults ≠ []) := by
  refine (ensures_read_from (L := (· = d.cells)) (Ahead.refl d) rfl rfl ?_).mapError.bind ?_
  · exact fun h => h.faulted (hlayout.reads page) (Ahead.refl d)
  rintro bytes d' ⟨rfl, huntouched⟩
  exact ensures_pure ⟨rfl, huntouched⟩

variable (lora2g4) in
theorem ensures_readSlots (hlayout : Layout g pages) (operation : FlashOperation) (d : Device) :
    Ensures (readSlots lora2g4 g pages operation) d
      (fun slots d' => slots = slotsOf lora2g4 pages d.cells ∧ Untouched d d')
      (fun d' => d'.cells = d.cells ∧ d.faults ≠ []) := by
  refine (ensures_readSlot hlayout operation .first d).bind ?_
  rintro first d₁ ⟨rfl, hcells, hahead⟩
  refine ((ensures_readSlot hlayout operation .second d₁).weaken ?_).bind ?_
  · rintro d₂ ⟨hcells', hfaults⟩
    exact ⟨hcells'.trans hcells, fun hd => hfaults (hahead.quiet hd)⟩
  rintro second d₂ ⟨rfl, hcells', hahead'⟩
  refine ensures_pure ⟨?_, hcells'.trans hcells, hahead.trans hahead'⟩
  funext page
  cases page
  · rfl
  · rw [hcells]

theorem slotsOf_record (cells : Image) :
    (fun page => (slotsOf lora2g4 pages cells page).record) = pageRecord lora2g4 pages cells := by
  funext page
  exact slotOf_record lora2g4 _

theorem selectActive_record (cells : Image) : (selectActive (slotsOf lora2g4 pages cells)).bind
      (fun page => (slotsOf lora2g4 pages cells page).record) = current lora2g4 pages cells := by
  rw [selectActive, slotsOf_record]
  rfl

theorem loadedFrom_state (slots : Page → Slot) : (match loadedFrom slots with
      | .ok loaded => Outcome.ok loaded.state
      | .error e => Outcome.error e) =
      stateOf ((selectActive slots).bind (fun page => (slots page).record)) := by
  unfold loadedFrom
  cases selectActive slots with
  | none => rfl
  | some page =>
    show _ = stateOf (slots page).record
    cases hrecord : (slots page).record with
    | none => simp only [hrecord, stateOf]
    | some record =>
      simp only [hrecord, stateOf]
      cases record.value.state <;> rfl

/-- **A load sees the store's record only**, when nothing fails. -/
theorem loads_eq (hvalid : validateLayout g pages = .ok ()) (d : Device) :
    loads lora2g4 g pages d = stateOf (current lora2g4 pages d.cells) := by
  have hlayout := layout_of_validateLayout hvalid
  have hread := (ensures_readSlots lora2g4 hlayout .read d.quiet).cases
  have hstate := loadedFrom_state (slotsOf lora2g4 pages d.cells)
  rw [selectActive_record] at hstate
  rcases hread with ⟨slots, hok, hslots, -⟩ | ⟨-, -, hfaults⟩
  · have hrun : readSlots lora2g4 g pages .read d.quiet =
        (.ok slots, (readSlots lora2g4 g pages .read d.quiet).2) := Prod.ext hok rfl
    rw [show slots = slotsOf lora2g4 pages d.cells from hslots] at hrun
    unfold loads loadRadio
    rw [hvalid, bind_ok (show ofExcept (.ok ()) d.quiet = (.ok (), d.quiet) from rfl),
      bind_ok hrun, ← hstate]
    cases loadedFrom (slotsOf lora2g4 pages d.cells) <;> rfl
  · exact absurd rfl hfaults

end

/-! ## Writing -/

/-- The record's bytes around its commit field. -/
def frame : Frame where
  len := recordLen
  commitAt := commitOffset
  marker := commitWord
  fits := by decide
  written := by decide +kernel
  nonempty := by decide

variable {d : Device} {page : Page} {cells cells' : Image}

section

variable {lora2g4 : Bool} {g : Geometry} {pages : Page → UInt32}

/-- The pages of the store. -/
def Layout.area (hlayout : Layout g pages) : Area where
  base := base pages
  size := g.eraseSize
  frame := frame
  fits := hlayout.record
  apart := hlayout.apart

def codec (lora2g4 : Bool) : Codec frame StoredRecord where
  decode := decodeRecord lora2g4
  marked h := by
    have hframed := wellFramed_of_decodeRecord h
    simp only [wellFramed, Bool.and_eq_true] at hframed
    exact eq_of_beq hframed.1.2

/-- **No collision**: a record that an interrupted erase tore is unchanged or not
accepted. An accepted one has a matching checksum. -/
def TornDetected (lora2g4 : Bool) (g : Geometry) (pages : Page → UInt32) (d : Device) : Prop :=
  ∀ tear ∈ d.tears, ∀ page,
    slice (raise d.cells (base pages page) (pageEnd g pages page) tear.raised) (base pages page)
        recordLen = slice d.cells (base pages page) recordLen ∨
      pageRecord lora2g4 pages
        (raise d.cells (base pages page) (pageEnd g pages page) tear.raised) page = none

theorem length_encodeRecord (hvalue : Storable lora2g4 record.value) :
    (encodeRecord record.generation record.value).length = recordLen :=
  length_layout _ _ hvalue (length_leBytes 4 _) rfl

section

variable (hlen : bytes.length = recordLen)

include hlen

theorem length_front : (bytes.take commitOffset).length = frame.commitAt := by
  rw [List.length_take, hlen]
  rfl

theorem length_back : (bytes.drop (commitOffset + 4)).length = frame.len - frame.commitEnd := by
  rw [List.length_drop, hlen]
  rfl

end

/-- The page once its record is written around the open commit field. -/
def body (hlayout : Layout g pages) (page : Page) (cells : Image) (bytes : List UInt8) : Image :=
  PagedRecord.bodyWritten hlayout.area page cells (bytes.take commitOffset)
    (bytes.drop (commitOffset + 4))

/-- Until the commit word is written, the page holds its old record or none. -/
theorem ensures_writeRecord (hlayout : Layout g pages) {bytes : List UInt8}
    (hlen : bytes.length = recordLen) (hdetected : TornDetected lora2g4 g pages d) :
    Ensures (writeRecord g pages page bytes) d
      (fun _ d' => d'.cells = body hlayout page d.cells bytes ∧ Ahead d d')
      (fun d' => Stale hlayout.area (codec lora2g4) page d.cells d'.cells ∧ d.faults ≠ []) := by
  have hfront : (bytes.take commitOffset).length = hlayout.area.frame.commitAt := length_front hlen
  have hback : (bytes.drop (commitOffset + 4)).length =
      hlayout.area.frame.len - hlayout.area.frame.commitEnd := length_back hlen
  -- erase
  refine ((ensures_erase g (Nat.le_add_right _ _) d).mapError.weaken ?_).bind ?_
  · rintro d' ⟨htorn, -, htroubled⟩
    rw [Nat.add_sub_cancel_left] at htroubled
    exact ⟨stale_of_torn (fun tear hmem => hdetected tear hmem page) htorn,
      htroubled.faulted (hlayout.erases page) (Ahead.refl d)⟩
  rintro _ d₁ ⟨hcells₁, hahead₁⟩
  -- the parts in front of the commit field and behind it
  refine (ensures_write_from hahead₁ hcells₁ (stale_front hfront) ?_).mapError.bind ?_
  · rw [hfront]
    exact fun h => h.faulted (hlayout.fronts page) hahead₁
  rintro _ d₂ ⟨hcells₂, hahead₂⟩
  refine (ensures_write_from hahead₂ hcells₂ (stale_back hfront hback) ?_).mapError
  rw [hback]
  exact fun h => h.faulted (hlayout.backs page) hahead₂

/-- Nothing the seal leaves is anything but the old record, none, or the new one. -/
theorem ensures_sealRecord (hlayout : Layout g pages) (hvalue : Storable lora2g4 record.value)
    (hlegacy : record.legacy = false)
    (hcells : d.cells = body hlayout page cells (encodeRecord record.generation record.value)) :
    Ensures
      (sealRecord lora2g4 g pages page (encodeRecord record.generation record.value) record) d
      (fun _ d' => Landed hlayout.area (codec lora2g4) page record cells d'.cells)
      (fun d' => Settled hlayout.area (codec lora2g4) page record cells d'.cells ∧
        d.faults ≠ []) := by
  have hdecode : decodeRecord lora2g4 (committedRecord record.generation record.value) =
      some record := by
    rw [decodeRecord_committedRecord _ hvalue, ← hlegacy]
  have hjoined : (encodeRecord record.generation record.value).take commitOffset ++ (commitWord ++
      (encodeRecord record.generation record.value).drop (commitOffset + 4)) =
      committedRecord record.generation record.value := rfl
  have hfront := length_front (length_encodeRecord hvalue)
  have hback := length_back (length_encodeRecord hvalue)
  unfold sealRecord
  unfold body at hcells
  -- only the two parts of the record matter from here on
  generalize committedRecord record.generation record.value = sealed at hdecode hjoined
  generalize (encodeRecord record.generation record.value).take commitOffset = front at *
  generalize (encodeRecord record.generation record.value).drop (commitOffset + 4) = back at *
  subst hjoined
  have hlanded : Landed hlayout.area (codec lora2g4) page record cells (NorFlash.program _ _ _) :=
    landed_committed hfront hback hdecode
  -- the commit word
  refine (ensures_write_from (Ahead.refl d) hcells
    (settled_commit hfront hback hdecode) ?_).mapError.bind ?_
  · exact fun h => h.faulted (hlayout.commits page) (Ahead.refl d)
  rintro _ d₁ ⟨hcells₁, hahead₁⟩
  -- reading it back
  refine (ensures_read_from hahead₁ hcells₁ (Or.inr hlanded) ?_).mapError.bind ?_
  · exact fun h => h.faulted (hlayout.reads page) hahead₁
  rintro verified d₂ ⟨hverified, hcells₂, -⟩
  obtain rfl := hverified.trans (slice_committed hfront hback)
  rw [if_neg (fun hne => hne rfl), if_neg (fun hne => hne hdecode)]
  exact ensures_pure (hcells₂ ▸ hlanded)

end

/-! ## Committing -/

/-- What an outcome says of the record before and the record now. -/
def Truthful (old now : Option StoredRecord) (expected : StoredRecord) (faulted : Prop) :
    CommitOutcome → Prop
  | .committed => now = some expected
  | .notCommitted _ => now = old ∧ faulted
  | .indeterminate _ => (now = old ∨ now = some expected) ∧ faulted

section

variable {lora2g4 : Bool} {g : Geometry} {pages : Page → UInt32} {expected : StoredRecord}

theorem ensures_reconcileCommit (hlayout : Layout g pages) {old : Option StoredRecord}
    {failure : StoreError} {faulted : Prop} (hfaulted : faulted)
    (hnow : current lora2g4 pages d.cells = old ∨ current lora2g4 pages d.cells = some expected) :
    Ensures (reconcileCommit lora2g4 g pages expected old failure) d
      (fun outcome d' => Truthful old (current lora2g4 pages d'.cells) expected faulted outcome)
      (fun d' => current lora2g4 pages d'.cells = old ∨
        current lora2g4 pages d'.cells = some expected) := by
  refine (ensures_readSlots lora2g4 hlayout .reconcile d).attempt_bind ?_ ?_ ?_
  · rintro d' ⟨hcells, -⟩
    rw [hcells]
    exact hnow
  · rintro error d' ⟨hcells, -⟩
    refine ensures_pure ⟨?_, hfaulted⟩
    rw [hcells]
    exact hnow
  rintro slots d' ⟨rfl, hcells, -⟩
  show Ensures (if _ then _ else if _ then _ else _) _ _ _
  rw [selectActive_record, ← hcells]
  by_cases hexpected : current lora2g4 pages d'.cells = some expected
  · rw [if_pos hexpected]
    exact ensures_pure hexpected
  rw [if_neg hexpected]
  by_cases hold : current lora2g4 pages d'.cells = old
  · rw [if_pos hold]
    exact ensures_pure ⟨hold, hfaulted⟩
  · rw [← hcells] at hnow
    exact absurd hnow (by simp [hold, hexpected])

/-- The page a commit goes to, and what is there before. -/
structure Aimed (lora2g4 : Bool) (pages : Page → UInt32) (cells : Image) (page : Page)
    (expected : StoredRecord) : Prop where
  page_eq : page = target StoredRecord.generation (pageRecord lora2g4 pages cells)
  next : ∀ old, current lora2g4 pages cells = some old →
    expected.generation = old.generation + 1

variable {hlayout : Layout g pages}

theorem Aimed.stale (haimed : Aimed lora2g4 pages cells page expected)
    (h : Stale hlayout.area (codec lora2g4) page cells cells') :
    current lora2g4 pages cells' = current lora2g4 pages cells :=
  Stale.value_eq haimed.page_eq h

theorem Aimed.landed (haimed : Aimed lora2g4 pages cells page expected)
    (h : Landed hlayout.area (codec lora2g4) page expected cells cells') :
    current lora2g4 pages cells' = some expected :=
  Landed.value_eq haimed.page_eq haimed.next h

theorem ensures_commitTo (hlayout : Layout g pages) (hvalue : Storable lora2g4 expected.value)
    (hlegacy : expected.legacy = false) (hdetected : TornDetected lora2g4 g pages d)
    (haimed : Aimed lora2g4 pages d.cells page expected) :
    Ensures (commitTo lora2g4 g pages page (current lora2g4 pages d.cells) expected) d
      (fun outcome d' => Truthful (current lora2g4 pages d.cells)
        (current lora2g4 pages d'.cells) expected (d.faults ≠ []) outcome)
      (fun d' => (current lora2g4 pages d'.cells = current lora2g4 pages d.cells ∨
        current lora2g4 pages d'.cells = some expected) ∧ d.faults ≠ []) := by
  have hnow : ∀ {cells'}, Settled hlayout.area (codec lora2g4) page expected d.cells cells' →
      current lora2g4 pages cells' = current lora2g4 pages d.cells ∨
        current lora2g4 pages cells' = some expected :=
    fun h => h.imp haimed.stale haimed.landed
  refine (ensures_writeRecord hlayout (length_encodeRecord hvalue) hdetected).attempt_bind ?_ ?_ ?_
  · rintro d' ⟨hstale, hfaults⟩
    exact ⟨Or.inl (haimed.stale hstale), hfaults⟩
  · rintro error d₁ ⟨hstale, hfaults⟩
    exact ensures_pure ⟨haimed.stale hstale, hfaults⟩
  rintro _ d₁ ⟨hcells, hahead⟩
  have hfaulted : d₁.faults ≠ [] → d.faults ≠ [] := fun h hd => h (hahead.quiet hd)
  refine (ensures_sealRecord hlayout hvalue hlegacy hcells).attempt_bind ?_ ?_ ?_
  · rintro d' ⟨hleft, hfaults⟩
    exact ⟨hnow hleft, hfaulted hfaults⟩
  · rintro error d₂ ⟨hleft, hfaults⟩
    exact (ensures_reconcileCommit hlayout (hfaulted hfaults) (hnow hleft)).weaken
      fun _ h => ⟨h, hfaulted hfaults⟩
  · exact fun _ d₂ hsealed => ensures_pure (haimed.landed hsealed)

theorem Untouched.detected {d' : Device} (h : Untouched d d')
    (hdetected : TornDetected lora2g4 g pages d) : TornDetected lora2g4 g pages d' := by
  intro tear hmem page
  rw [h.1]
  exact hdetected tear (h.2.tears hmem) page

theorem aimed_target (cells : Image) (value : StoredValue) : Aimed lora2g4 pages cells
      (((selectActive (slotsOf lora2g4 pages cells)).map Page.other).getD .first)
      (nextRecord lora2g4 pages cells value) := by
  constructor
  · rw [selectActive, slotsOf_record, target]
    cases active StoredRecord.generation (pageRecord lora2g4 pages cells) <;> rfl
  · intro old hold
    rw [nextRecord, hold]
    rfl

/-- **A commit, through every exit**: the record of the store is the old or the new one,
and the outcome says which. -/
theorem ensures_commit (hvalid : validateLayout g pages = .ok ()) {value : StoredValue}
    (hvalue : Storable lora2g4 value) (hdetected : TornDetected lora2g4 g pages d) :
    Ensures (commit lora2g4 g pages value) d
      (fun outcome d' => Truthful (current lora2g4 pages d.cells)
        (current lora2g4 pages d'.cells) (nextRecord lora2g4 pages d.cells value)
        (d.faults ≠ []) outcome)
      (fun d' => (current lora2g4 pages d'.cells = current lora2g4 pages d.cells ∨
        current lora2g4 pages d'.cells = some (nextRecord lora2g4 pages d.cells value)) ∧
        d.faults ≠ []) := by
  have hlayout := layout_of_validateLayout hvalid
  unfold commit
  rw [hvalid]
  refine (ensures_readSlots lora2g4 hlayout .read d).attempt_bind ?_ ?_ ?_
  · rintro d' ⟨hcells, hfaults⟩
    exact ⟨Or.inl (by rw [hcells]), hfaults⟩
  · rintro error d₁ ⟨hcells, hfaults⟩
    exact ensures_pure ⟨by rw [hcells], hfaults⟩
  rintro slots d₁ ⟨rfl, hread⟩
  have hfaulted : d₁.faults ≠ [] → d.faults ≠ [] := fun h hd => h (hread.2.quiet hd)
  show Ensures (commitTo lora2g4 g pages _ _ _) d₁ _ _
  rw [selectActive_record, ← hread.1]
  refine (ensures_commitTo hlayout hvalue rfl (hread.detected hdetected)
    (aimed_target d₁.cells value)).mono ?_ ?_
  · intro outcome d' h
    cases outcome with
    | committed => exact h
    | notCommitted e => exact ⟨h.1, hfaulted h.2⟩
    | indeterminate e => exact ⟨h.1, hfaulted h.2⟩
  · rintro d' ⟨h, hfaults⟩
    exact ⟨h, hfaulted hfaults⟩

end

/-! ## The store -/

/-- The states of a build: those of the 2.4 GHz band only with the feature. -/
def InBuild (lora2g4 : Bool) : LoRaConfigurationState → Prop
  | .unconfigured => True
  | .configured (.subG _) => True
  | .configured (.ghz24 _) => lora2g4 = true

def storedValue : LoRaConfigurationState → StoredValue
  | .unconfigured => .unconfigured
  | .configured (.subG configuration) => .configuration configuration
  | .configured (.ghz24 profile) => .ghz24 profile

section

variable {lora2g4 : Bool} {g : Geometry} {pages : Page → UInt32}

theorem storable_storedValue {state : LoRaConfigurationState} (h : InBuild lora2g4 state) :
    Storable lora2g4 (storedValue state) := by
  cases state with
  | unconfigured => exact trivial
  | configured configuration =>
    cases configuration with
    | subG configuration => exact trivial
    | ghz24 profile => exact h

/-- What the outcome of a save says of the next load. -/
def Saved (lora2g4 : Bool) (g : Geometry) (pages : Page → UInt32) (state : LoRaConfigurationState)
    (d d' : Device) : CommitOutcome → Prop
  | .committed => loads lora2g4 g pages d' = .ok state
  | .notCommitted _ => loads lora2g4 g pages d' = loads lora2g4 g pages d ∧
      (validateLayout g pages = .ok () → d.faults ≠ [])
  | .indeterminate _ => (loads lora2g4 g pages d' = loads lora2g4 g pages d ∨
      loads lora2g4 g pages d' = .ok state) ∧ d.faults ≠ []

theorem ensures_saveRadio {d : Device} {state : LoRaConfigurationState}
    (hstate : InBuild lora2g4 state) (hdetected : TornDetected lora2g4 g pages d) :
    Ensures (saveRadio lora2g4 g pages state) d
      (fun outcome d' => Saved lora2g4 g pages state d d' outcome)
      (fun d' => (loads lora2g4 g pages d' = loads lora2g4 g pages d ∨
        loads lora2g4 g pages d' = .ok state) ∧ d.faults ≠ []) := by
  have hsave : saveRadio lora2g4 g pages state = commit lora2g4 g pages (storedValue state) := by
    cases state with
    | unconfigured => rfl
    | configured configuration => cases configuration <;> rfl
  rw [hsave]
  cases hvalid : validateLayout g pages with
  | error e =>
    unfold commit
    rw [hvalid]
    exact ensures_pure ⟨rfl, fun hok => nomatch hvalid.symm.trans hok⟩
  | ok _ =>
    have hnew : stateOf (some (nextRecord lora2g4 pages d.cells (storedValue state))) =
        .ok state := by
      cases state with
      | unconfigured => rfl
      | configured configuration => cases configuration <;> rfl
    simp only [Saved, loads_eq hvalid, ← hnew]
    refine (ensures_commit hvalid (storable_storedValue hstate) hdetected).mono ?_ ?_
    · intro outcome d' htruth
      cases outcome with
      | committed => exact congrArg stateOf htruth
      | notCommitted error => exact ⟨congrArg stateOf htruth.1, fun _ => htruth.2⟩
      | indeterminate error =>
        exact ⟨htruth.1.imp (congrArg stateOf) (congrArg stateOf), htruth.2⟩
    · rintro d' ⟨hnow, hfaults⟩
      exact ⟨hnow.imp (congrArg stateOf) (congrArg stateOf), hfaults⟩

/-- **The radio configuration store is crash safe and truthful.** From any two pages, for
every configuration and wherever the flash fails or power is lost: a later load gives the
old or the new configuration; after `committed` the new one, after `notCommitted` the old
one; and nothing but a fault keeps a configuration from being committed. -/
theorem save_is_old_or_new (lora2g4 : Bool) (g : Geometry) (pages : Page → UInt32) (d : Device)
    (state : LoRaConfigurationState) (hstate : InBuild lora2g4 state)
    (hdetected : TornDetected lora2g4 g pages d) :
    (loads lora2g4 g pages (saveRadio lora2g4 g pages state d).2 = loads lora2g4 g pages d ∨
        loads lora2g4 g pages (saveRadio lora2g4 g pages state d).2 = .ok state) ∧
      ((saveRadio lora2g4 g pages state d).1 = .ok .committed →
        loads lora2g4 g pages (saveRadio lora2g4 g pages state d).2 = .ok state) ∧
      (∀ error, (saveRadio lora2g4 g pages state d).1 = .ok (.notCommitted error) →
        loads lora2g4 g pages (saveRadio lora2g4 g pages state d).2 = loads lora2g4 g pages d) ∧
      (validateLayout g pages = .ok () → d.faults = [] →
        (saveRadio lora2g4 g pages state d).1 = .ok .committed) := by
  rcases (ensures_saveRadio hstate hdetected).cases with
    ⟨outcome, houtcome, htruth⟩ | ⟨hnone, hnow, hfaults⟩
  · rw [houtcome]
    cases outcome with
    | committed => exact ⟨Or.inr htruth, fun _ => htruth, nofun, fun _ _ => rfl⟩
    | notCommitted error =>
      exact ⟨Or.inl htruth.1, nofun, fun _ _ => htruth.1,
        fun hvalid hd => absurd hd (htruth.2 hvalid)⟩
    | indeterminate error => exact ⟨htruth.1, nofun, nofun, fun _ hd => absurd hd htruth.2⟩
  · exact ⟨hnow, fun h => absurd h (hnone _), fun _ h => absurd h (hnone _),
      fun _ hd => absurd hd hfaults⟩

/-- Power is lost in the middle of the commit word of a first configuration. -/
theorem save_is_old_or_new_cut : ∃ d : Device, d.tears ≠ [] ∧
      (loads true ⟨1, 4, 4096, 8192⟩ (fun | .first => 0 | .second => 4096)
          (saveRadio true ⟨1, 4, 4096, 8192⟩ (fun | .first => 0 | .second => 4096)
            .unconfigured d).2 =
            loads true ⟨1, 4, 4096, 8192⟩ (fun | .first => 0 | .second => 4096) d ∨
        loads true ⟨1, 4, 4096, 8192⟩ (fun | .first => 0 | .second => 4096)
          (saveRadio true ⟨1, 4, 4096, 8192⟩ (fun | .first => 0 | .second => 4096)
            .unconfigured d).2 = .ok .unconfigured) := by
  refine ⟨{ cells := fun _ => 0xFF
            faults := [.none, .none, .none, .none, .none, .powerLoss ⟨2, fun _ => 0⟩] },
    by decide, ?_⟩
  refine (save_is_old_or_new true _ _ _ .unconfigured trivial ?_).1
  intro tear hmem page
  rw [show tear.raised = fun _ => 0 by
    rw [List.mem_singleton.mp hmem], raise_zero]
  exact Or.inl rfl

end

/-! ## Saves one after the other -/

section

/-- A save of a state, and the faults it meets. -/
abbrev Save := LoRaConfigurationState × List Fault

variable (lora2g4 : Bool) (g : Geometry) (pages : Page → UInt32)

/-- The saves with what they reported, and the flash they leave. -/
def saveAll : Device → List Save →
    List (LoRaConfigurationState × Outcome Empty CommitOutcome) × Device
  | d, [] => ([], d)
  | d, (state, faults) :: saves =>
    let saved := saveRadio lora2g4 g pages state { d with faults }
    let rest := saveAll saved.2 saves
    ((state, saved.1) :: rest.1, rest.2)

def DetectedAll : Device → List Save → Prop
  | _, [] => True
  | d, (state, faults) :: saves => TornDetected lora2g4 g pages { d with faults } ∧
    DetectedAll (saveRadio lora2g4 g pages state { d with faults }).2 saves

/-- What may be stored after the reports, if it was one of `states` before: a commit settles it,
a report that nothing was committed leaves it, and anything else adds the state. -/
def possible (states : List (Outcome StoreError LoRaConfigurationState)) :
    List (LoRaConfigurationState × Outcome Empty CommitOutcome) →
      List (Outcome StoreError LoRaConfigurationState)
  | [] => states
  | (state, .ok .committed) :: log => possible [.ok state] log
  | (_, .ok (.notCommitted _)) :: log => possible states log
  | (state, _) :: log => possible (.ok state :: states) log

variable {lora2g4 g pages} {d : Device}

/-- **The reports of all saves together say what is stored**: whatever faults and power losses
the saves met, a load after them gives the last state that was reported as committed, or one of
those saved later whose save was cut off or ended without knowing. -/
theorem loads_possible_after_saves (saves : List Save)
    (hbuild : ∀ save ∈ saves, InBuild lora2g4 save.1) (hdetected : DetectedAll lora2g4 g pages d saves) :
    loads lora2g4 g pages (saveAll lora2g4 g pages d saves).2 ∈
      possible [loads lora2g4 g pages d] (saveAll lora2g4 g pages d saves).1 := by
  suffices h : ∀ states, loads lora2g4 g pages d ∈ states →
      loads lora2g4 g pages (saveAll lora2g4 g pages d saves).2 ∈
        possible states (saveAll lora2g4 g pages d saves).1 from h _ List.mem_cons_self
  induction saves generalizing d with
  | nil => exact fun _ h => h
  | cons save saves ih =>
    intro states hstates
    obtain ⟨state, faults⟩ := save
    obtain ⟨hstate, hbuild⟩ := List.forall_mem_cons.mp hbuild
    have hnext := ih hbuild hdetected.2
    rw [show loads lora2g4 g pages d = loads lora2g4 g pages { d with faults } from rfl] at hstates
    have hadded : ∀ new, (new = loads lora2g4 g pages { d with faults } ∨ new = .ok state) →
        new ∈ .ok state :: states := by
      rintro new (rfl | rfl)
      · exact List.mem_cons_of_mem _ hstates
      · exact List.mem_cons_self
    simp only [saveAll]
    rcases (ensures_saveRadio hstate hdetected.1).cases with
      ⟨outcome, houtcome, htruth⟩ | ⟨hnone, hnow, -⟩
    · rw [houtcome]
      cases outcome with
      | committed => exact hnext _ (List.mem_singleton.mpr htruth)
      | notCommitted error => exact hnext _ (htruth.1 ▸ hstates)
      | indeterminate error => exact hnext _ (hadded _ htruth.1)
    · cases houtcome : (saveRadio lora2g4 g pages state { d with faults }).1 with
      | ok outcome => exact absurd houtcome (hnone _)
      | error e => cases e
      | stopped powered => exact hnext _ (hadded _ hnow)

/-- Power is lost in the first save, and the second is made after the restart. -/
theorem loads_possible_after_saves_restarted : ∃ g pages d saves, saves.length = 2 ∧
    loads true g pages (saveAll true g pages d saves).2 ∈
      possible [loads true g pages d] (saveAll true g pages d saves).1 := by
  refine ⟨⟨1, 4, 4096, 8192⟩, fun | .first => 0 | .second => 4096, ⟨fun _ => 0xFF, []⟩,
    [(.unconfigured, [.none, .none, .none, .none, .none, .powerLoss ⟨2, fun _ => 0⟩]),
      (.unconfigured, [])], rfl, loads_possible_after_saves _ (by simp [InBuild]) ⟨?_, ?_, trivial⟩⟩
  · intro tear hmem page
    rw [show tear.raised = fun _ => 0 by
      rw [List.mem_singleton.mp hmem], raise_zero]
    exact Or.inl rfl
  · exact fun _ hmem => absurd hmem List.not_mem_nil

end

end Prns.Ports.SubGStore
