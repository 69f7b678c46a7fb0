import Prns.Ports.IdentityVaultRecord

/-!
# The flash identity vault

The vault keeps secrets and blobs under labels in the slots of a flash region. A new label
is appended to an erased slot. To overwrite or to remove a label the vault reads all
records, erases the whole region and writes the records back.

A change of one label is followed through every way a flash operation can fail or lose
power. What counts is what the vault answers after a restart, for every label.

Addresses are `u32` in the source; `validate` keeps the region inside the flash, so that
they do not wrap.
-/

namespace Prns.Ports.IdentityVault

open Verified
open Verified.NorFlash (Geometry Image FlashError check)
open Verified.TornFlash (Device Ahead)
open Verified.SlottedFlash (slot Vacant Within Uncommitted framed)

/-- A vault of `slots` slots at `offset`. -/
structure Vault where
  g : Geometry
  offset : Nat
  slots : Nat

inductive Removal where
  | removed
  | nothingStored
  deriving DecidableEq, Repr

variable (v : Vault)

def eraseSpan (g : Geometry) (slots : Nat) : Nat :=
  (slots * slotLen + g.eraseSize - 1) / g.eraseSize * g.eraseSize

def validate : Option FlashVaultError :=
  if slotLen % v.g.readSize ≠ 0 ∨ slotLen % v.g.writeSize ≠ 0 ∨ commitLen < v.g.writeSize ∨
      commitLen % v.g.writeSize ≠ 0 ∨ v.offset % v.g.eraseSize ≠ 0 then some .misaligned
  else if v.g.capacity < v.offset + eraseSpan v.g v.slots then some .outOfBounds
  else none

/-- Every call validates the region first. -/
def validated {α : Type} (f : Act Device FlashVaultError α) : Act Device FlashVaultError α :=
  match validate v with
  | some e => Act.fail e
  | none => f

abbrev Vault.table : SlottedFlash.Table := slotTable v.offset

def readBuffer (index : Nat) : Act Device FlashVaultError (List UInt8) :=
  (TornFlash.read v.g (v.table.start index) slotLen).mapError .flash

def readSlot (index : Nat) : Act Device FlashVaultError (Option Record) := do
  let buffer ← readBuffer v index
  Act.ofExcept (decodeSlot buffer)

def readMatching (label : IdentityLabel) (index : Nat) :
    Act Device FlashVaultError (Option Record) := do
  let record ← readSlot v index
  pure (record.filter (·.label = label))

/-- The loop over the slots that `load`, `stored_blob_len`, `load_blob` and
`store_payload` begin with. -/
def findRecord (label : IdentityLabel) : Act Device FlashVaultError (Option Record) :=
  Act.firstOf (readMatching v label) (List.range v.slots)

def load (label : IdentityLabel) : Act Device FlashVaultError (Option (Vector UInt8 64)) :=
  validated v do
    match ← findRecord v label with
    | some ⟨_, .identity secret⟩ => pure (some secret)
    | some ⟨_, .blob _ _⟩ => pure none
    | none => pure none

def storedBlobLen (label : IdentityLabel) : Act Device FlashVaultError (Option Nat) :=
  validated v do
    match ← findRecord v label with
    | some ⟨_, .blob bytes _⟩ => pure (some bytes.length)
    | some ⟨_, .identity _⟩ => pure none
    | none => pure none

/-- A load into a buffer of `bufferLen` bytes. -/
def loadBlob (label : IdentityLabel) (bufferLen : Nat) :
    Act Device FlashVaultError (Option (List UInt8)) :=
  validated v do
    match ← findRecord v label with
    | some ⟨_, .blob bytes _⟩ =>
      if bufferLen < bytes.length then Act.fail (.blobOutgrewBuffer bytes.length bufferLen)
      else pure (some bytes)
    | some ⟨_, .identity _⟩ => pure none
    | none => pure none

/-! ## Changes -/

/-- `push` on a vector with room for every slot. -/
def pushRecord (slots : Nat) (records : List Record) (record : Record) :
    Except FlashVaultError (List Record) :=
  if records.length < slots then .ok (records ++ [record]) else .error .storeFull

def collectRecords : List Nat → List Record → Act Device FlashVaultError (List Record)
  | [], records => pure records
  | index :: indices, records => do
    match ← readSlot v index with
    | none => collectRecords indices records
    | some record =>
      let records ← Act.ofExcept (pushRecord v.slots records record)
      collectRecords indices records

def readRecords : Act Device FlashVaultError (List Record) :=
  collectRecords v (List.range v.slots) []

def readVacant (index : Nat) : Act Device FlashVaultError (Option Nat) := do
  let buffer ← readBuffer v index
  pure (if buffer.all (· == stateEmpty) then some index else none)

def findVacantSlot : Act Device FlashVaultError (Option Nat) :=
  Act.firstOf (readVacant v) (List.range v.slots)

def writeSlot (index : Nat) (record : Record) : Act Device FlashVaultError Unit :=
  (SlottedFlash.writeSlot v.table v.g index record.payload.state record.body).mapError .flash

def writeRecords : Nat → List Record → Act Device FlashVaultError Unit
  | _, [] => pure ()
  | index, record :: records => do
    writeSlot v index record
    writeRecords (index + 1) records

def rewrite (records : List Record) : Act Device FlashVaultError Unit := do
  (TornFlash.erase v.g v.offset (v.offset + eraseSpan v.g v.slots)).mapError .flash
  writeRecords v 0 records

/-- The first record of the label with another payload. -/
def replacePayload (label : IdentityLabel) (payload : RecordPayload) :
    List Record → Option (List Record)
  | [] => none
  | record :: records =>
    if record.label = label then some ({ record with payload := payload } :: records)
    else (replacePayload label payload records).map (record :: ·)

def storePayload (label : IdentityLabel) (payload : RecordPayload) :
    Act Device FlashVaultError Unit :=
  validated v do
    match ← findRecord v label with
    | some _ =>
      let records ← readRecords v
      match replacePayload label payload records with
      | none => Act.fail .corrupt
      | some records => rewrite v records
    | none =>
      match ← findVacantSlot v with
      | none => Act.fail .storeFull
      | some index => writeSlot v index ⟨label, payload⟩

def store (label : IdentityLabel) (secret : Vector UInt8 64) : Act Device FlashVaultError Unit :=
  storePayload v label (.identity secret)

def storeBlob (label : IdentityLabel) (blob : List UInt8) : Act Device FlashVaultError Unit :=
  if h : blob.length ≤ flashVaultBlobCap then storePayload v label (.blob blob h)
  else Act.fail (.blobTooLong blob.length)

def keepOthers (slots : Nat) (label : IdentityLabel) :
    List Record → List Record → Except FlashVaultError (List Record)
  | [], kept => .ok kept
  | record :: records, kept =>
    if record.label = label then keepOthers slots label records kept
    else do
      let kept ← pushRecord slots kept record
      keepOthers slots label records kept

def remove (label : IdentityLabel) : Act Device FlashVaultError Removal :=
  validated v do
    let records ← readRecords v
    let kept ← Act.ofExcept (keepOthers v.slots label records [])
    if records.any (·.label = label) then do
      rewrite v kept
      pure .removed
    else pure .nothingStored

/-- The calls that change the vault. -/
inductive Call where
  | store (label : IdentityLabel) (secret : Vector UInt8 64)
  | storeBlob (label : IdentityLabel) (blob : List UInt8)
  | remove (label : IdentityLabel)

def Call.label : Call → IdentityLabel
  | .store label _ => label
  | .storeBlob label _ => label
  | .remove label => label

/-- The new value that the call is to give its label, for a removal no value. A blob that
does not fit is refused. -/
def Call.target : Call → Option (Option RecordPayload)
  | .store _ secret => some (some (.identity secret))
  | .storeBlob _ blob =>
    if h : blob.length ≤ flashVaultBlobCap then some (some (.blob blob h)) else none
  | .remove _ => some none

def Call.run (v : Vault) : Call → Act Device FlashVaultError Unit
  | .store label secret => IdentityVault.store v label secret
  | .storeBlob label blob => IdentityVault.storeBlob v label blob
  | .remove label => do
    let _ ← IdentityVault.remove v label
    pure ()

/-- The record that a search for the label finds after a restart. -/
def view (cells : Image) (label : IdentityLabel) : Outcome FlashVaultError (Option Record) :=
  (findRecord v label { cells := cells, faults := [] }).1

/-- The answers to the three loads of a label after a restart. -/
def answers (cells : Image) (label : IdentityLabel) (bufferLen : Nat) :
    Outcome FlashVaultError (Option (Vector UInt8 64)) × Outcome FlashVaultError (Option Nat) ×
      Outcome FlashVaultError (Option (List UInt8)) :=
  ((load v label { cells := cells, faults := [] }).1,
    (storedBlobLen v label { cells := cells, faults := [] }).1,
    (loadBlob v label bufferLen { cells := cells, faults := [] }).1)

/-- The answers for a label with this payload, or with none. -/
def answersOf (payload : Option RecordPayload) (bufferLen : Nat) :
    Outcome FlashVaultError (Option (Vector UInt8 64)) × Outcome FlashVaultError (Option Nat) ×
      Outcome FlashVaultError (Option (List UInt8)) :=
  match payload with
  | none => (.ok none, .ok none, .ok none)
  | some (.identity secret) => (.ok (some secret), .ok none, .ok none)
  | some (.blob bytes _) =>
    (.ok none, .ok (some bytes.length),
      if bufferLen < bytes.length then .error (.blobOutgrewBuffer bytes.length bufferLen)
      else .ok (some bytes))

variable {v} {cells cells' : Image} {label : IdentityLabel}

theorem answers_congr (h : view v cells' label = view v cells label) (bufferLen : Nat) :
    answers v cells' label bufferLen = answers v cells label bufferLen := by
  have hbind {β : Type} (k : Option Record → Act Device FlashVaultError β)
      (hk : ∀ r t t', (k r t').1 = (k r t).1) :
      (validated v (findRecord v label >>= k) { cells := cells', faults := [] }).1 =
        (validated v (findRecord v label >>= k) { cells := cells, faults := [] }).1 := by
    unfold validated
    cases validate v with
    | some e => rfl
    | none => exact Act.bind_fst_congr h hk
  unfold answers load storedBlobLen loadBlob
  rw [hbind, hbind, hbind]
  · rintro (_ | ⟨_, _ | _⟩) t t'
    · rfl
    · rfl
    · dsimp only
      split <;> rfl
  · rintro (_ | ⟨_, _ | _⟩) t t' <;> rfl
  · rintro (_ | ⟨_, _ | _⟩) t t' <;> rfl

theorem answers_invalid (hvalid : validate v ≠ none) (bufferLen : Nat) :
    answers v cells' label bufferLen = answers v cells label bufferLen := by
  unfold answers load storedBlobLen loadBlob validated
  cases h : validate v with
  | some e => rfl
  | none => exact absurd h hvalid

theorem answers_of_view (hvalid : validate v = none) {record : Option Record}
    (h : view v cells label = .ok record) (bufferLen : Nat) :
    answers v cells label bufferLen = answersOf (record.map (·.payload)) bufferLen := by
  have hrun : ∃ d, findRecord v label { cells := cells, faults := [] } = (.ok record, d) :=
    ⟨_, Prod.ext h rfl⟩
  obtain ⟨d, hrun⟩ := hrun
  unfold answers load storedBlobLen loadBlob validated
  rw [hvalid]
  dsimp only
  rw [Act.bind_ok hrun, Act.bind_ok hrun, Act.bind_ok hrun]
  rcases record with _ | ⟨_, _ | _⟩
  · rfl
  · rfl
  · dsimp only [answersOf, Option.map]
    congr 2
    split <;> rfl

end Prns.Ports.IdentityVault
