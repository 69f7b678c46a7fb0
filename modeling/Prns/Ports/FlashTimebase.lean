import Prns.Ports.FlashJournalWorld
import Mathlib.Data.Finset.Lattice.Fold
import Mathlib.Order.Lattice.Nat

/-!
# The timebase of the flash journal

Model of the timebase side of `persistence/impls/flash_journal/mod.rs`: two regions
of one sector each, in slots of 32 bytes. A slot holds a sealed clock snapshot and
behind it the time of the last compaction attempt with a checksum of its own, or
erased cells if there was none. A write goes to the slot behind the last used one of
the newer region; when that region is full the other one is erased and started.

The methods of the journal use its flash and its layout only, so they are actions on
the device here.
-/

namespace Prns.Ports.Journal

open Verified
open Verified.NorFlash
open Persistence

def timebaseSlotLen : Nat := 32

def compactionBudgetOffset : Nat := 24

def compactionBudgetLen : Nat := timebaseSlotLen - compactionBudgetOffset

def compactionBudgetMinuteMillis : Nat := 60000

def compactionBudgetDomain : List UInt8 := [0x50, 0x43, 0x42, 0x31]

def timebaseHeadroomMillis : UInt64 := 2 * 60 * 60 * 1000

def saturatingAdd (a b : UInt64) : UInt64 := UInt64.ofNat (min (a.toNat + b.toNat) (2 ^ 64 - 1))

def maxMillis : Option UInt64 → Option UInt64 → Option UInt64
  | some first, some second => some (max first second)
  | some value, none => some value
  | none, some value => some value
  | none, none => none

/-- The order of the source on optional instants: nothing is before everything. -/
def earlier : Option UInt64 → Option UInt64 → Bool
  | some first, some second => decide (first < second)
  | none, some _ => true
  | _, none => false

def compactionBudgetChecksum (encoded : List UInt8) : UInt32 :=
  crc32 (compactionBudgetDomain ++ encoded)

def roundCompactionAttemptUp (attemptedAt : UInt64) : Except JournalError UInt64 :=
  let minutes := attemptedAt.toNat / compactionBudgetMinuteMillis
  let roundedMinutes :=
    minutes + (if attemptedAt.toNat % compactionBudgetMinuteMillis = 0 then 0 else 1)
  if u32Max < roundedMinutes then .error .payloadTooLarge
  else .ok (UInt64.ofNat (roundedMinutes * compactionBudgetMinuteMillis))

def writeCompactionBudget (attemptedAt : UInt64) : Option (List UInt8) :=
  let minutes := attemptedAt.toNat / compactionBudgetMinuteMillis
  if u32Max < minutes then none
  else
    let encoded := leBytes 4 minutes
    some (encoded ++ leBytes 4 (compactionBudgetChecksum encoded).toNat)

def readCompactionBudget (bytes : List UInt8) : Option UInt64 :=
  if bytes.length < compactionBudgetLen then none
  else
    let encoded := bytes.take 4
    let checksum := UInt32.ofNat (ofLeBytes ((bytes.drop 4).take 4))
    if checksum ≠ compactionBudgetChecksum encoded then none
    else some (UInt64.ofNat (ofLeBytes encoded * compactionBudgetMinuteMillis))

structure TimebaseRegionState where
  appendAt : Option Nat
  newest : Option UInt64
  lastCompactionAttempt : Option UInt64
  anyUsed : Bool
  deriving DecidableEq, Repr

structure FlashJournalTimebaseState where
  highWater : Option UInt64
  lastCompactionAttempt : Option UInt64
  deriving DecidableEq, Repr

/-- What a scan of a region has seen so far. -/
structure TimebaseScan where
  newest : Option UInt64
  lastCompactionAttempt : Option UInt64
  lastUsed : Option Nat

def TimebaseScan.see (s : TimebaseScan) (slot : Nat) (bytes : List UInt8) : TimebaseScan :=
  if bytes.all (· == 0xFF) then s
  else
    match readTimebaseSnapshot bytes with
    | .error _ => { s with lastUsed := some slot }
    | .ok value =>
        { newest := maxMillis s.newest (some value)
          lastCompactionAttempt := maxMillis s.lastCompactionAttempt
            (readCompactionBudget (bytes.drop compactionBudgetOffset))
          lastUsed := some slot }

def scanSlots (g : Geometry) (region : Nat) :
    List Nat → TimebaseScan → Act Device JournalError TimebaseScan
  | [], s => pure s
  | slot :: slots, s => do
      let bytes ← (read g (region + slot * timebaseSlotLen) timebaseSlotLen).mapError .flash
      scanSlots g region slots (s.see slot bytes)

def slotCount (g : Geometry) : Nat := g.eraseSize / timebaseSlotLen

def TimebaseScan.finish (g : Geometry) (s : TimebaseScan) : TimebaseRegionState where
  appendAt :=
    match s.lastUsed with
    | none => some 0
    | some last => if last + 1 < slotCount g then some (last + 1) else none
  newest := s.newest
  lastCompactionAttempt := s.lastCompactionAttempt
  anyUsed := s.lastUsed.isSome

def scanTimebaseRegion (g : Geometry) (region : Nat) :
    Act Device JournalError TimebaseRegionState := do
  let s ← scanSlots g region (List.range (slotCount g)) ⟨none, none, none⟩
  pure (s.finish g)

/-- One turn of the loop over the regions. -/
def inspectRegion (g : Geometry) (region : Nat) (state : FlashJournalTimebaseState) :
    Act Device JournalError FlashJournalTimebaseState :=
  match validateRegion g region with
  | some e => Act.fail e
  | none => do
      let regionState ← scanTimebaseRegion g region
      pure
        { highWater := maxMillis state.highWater regionState.newest
          lastCompactionAttempt :=
            maxMillis state.lastCompactionAttempt regionState.lastCompactionAttempt }

def inspectTimebaseState (g : Geometry) (layout : FlashJournalLayout) :
    Act Device JournalError FlashJournalTimebaseState := do
  let state ← inspectRegion g (layout.timebaseRegions .first) ⟨none, none⟩
  inspectRegion g (layout.timebaseRegions .second) state

/-- The bytes behind the snapshot. -/
def budgetBytes : Option UInt64 → Option (List UInt8)
  | none => some (List.replicate compactionBudgetLen 0xFF)
  | some attempt => writeCompactionBudget attempt

def writeTimebaseSlot (g : Geometry) (region slot : Nat) (value : UInt64)
    (lastCompactionAttempt : Option UInt64) : Act Device JournalError Unit :=
  match writeTimebaseSnapshot value timebaseSnapshotLen, budgetBytes lastCompactionAttempt with
  | some snapshot, some budget =>
      (write g (region + slot * timebaseSlotLen)
        (snapshot ++ List.replicate (compactionBudgetOffset - timebaseSnapshotLen) 0xFF ++
          budget)).mapError .flash
  | _, _ => Act.fail .payloadTooLarge

def newerTimebaseRegion (states : Side → TimebaseRegionState) : Side :=
  match (states .first).newest, (states .second).newest with
  | some firstHigh, some secondHigh =>
      if firstHigh < secondHigh ∨ (secondHigh = firstHigh ∧
          earlier (states .first).lastCompactionAttempt
            (states .second).lastCompactionAttempt = true) then .second
      else .first
  | none, none =>
      if earlier (states .first).lastCompactionAttempt
          (states .second).lastCompactionAttempt = true then .second
      else .first
  | none, some _ => .second
  | some _, none => .first

def clearRegion (g : Geometry) (region : Nat) (anyUsed : Bool) : Act Device JournalError Unit :=
  if anyUsed then (erase g region (region + g.eraseSize)).mapError .flash else pure ()

def writeTimebaseState (g : Geometry) (layout : FlashJournalLayout)
    (states : Side → TimebaseRegionState) (highWater : UInt64)
    (lastCompactionAttempt : Option UInt64) : Act Device JournalError Unit :=
  let active := newerTimebaseRegion states
  match (states active).appendAt with
  | some slot =>
      writeTimebaseSlot g (layout.timebaseRegions active) slot highWater lastCompactionAttempt
  | none => do
      let other := active.other
      clearRegion g (layout.timebaseRegions other) (states other).anyUsed
      writeTimebaseSlot g (layout.timebaseRegions other) 0 highWater lastCompactionAttempt

/-- Both regions, as both recording methods scan them first. -/
def scanTimebase (g : Geometry) (layout : FlashJournalLayout) :
    Act Device JournalError (Side → TimebaseRegionState) := do
  let first ← scanTimebaseRegion g (layout.timebaseRegions .first)
  let second ← scanTimebaseRegion g (layout.timebaseRegions .second)
  pure (perSide first second)

def recordTimebase (g : Geometry) (layout : FlashJournalLayout) (now : UInt64) :
    Act Device JournalError Unit := do
  let value := saturatingAdd now timebaseHeadroomMillis
  let states ← scanTimebase g layout
  let newest := maxMillis (states .first).newest (states .second).newest
  if newest.any (value ≤ ·) then pure ()
  else
    writeTimebaseState g layout states value
      (maxMillis (states .first).lastCompactionAttempt (states .second).lastCompactionAttempt)

def recordCompactionBudget (g : Geometry) (layout : FlashJournalLayout) (attemptedAt : UInt64) :
    Act Device JournalError UInt64 :=
  match roundCompactionAttemptUp attemptedAt with
  | .error e => Act.fail e
  | .ok roundedAttempt => do
      let states ← scanTimebase g layout
      let lastCompactionAttempt :=
        maxMillis (states .first).lastCompactionAttempt (states .second).lastCompactionAttempt
      match lastCompactionAttempt.filter (roundedAttempt ≤ ·) with
      | some stored => pure stored
      | none => do
          let highWater := (maxMillis
            (maxMillis (states .first).newest (states .second).newest)
            (some (saturatingAdd attemptedAt timebaseHeadroomMillis))).getD attemptedAt
          writeTimebaseState g layout states highWater (some roundedAttempt)
          pure roundedAttempt

end Prns.Ports.Journal
