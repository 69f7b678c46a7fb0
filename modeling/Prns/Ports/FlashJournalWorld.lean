import Prns.Ports.FlashJournalWrite

/-!
# A journal, its flash and its owner

The world is a flash, with an open journal over it while the power is on. The
owner makes calls one at a time; every flash operation of a call may run into a
fault, and the power may go at any moment. The ledger is what the owner may rely
on: the records that were replayed to it or acknowledged since, the one append
that may or may not have landed, and how far a compaction has come.

The ledger is moved by what the owner sees of a call only: whether it returned.
What an owner has to observe is `Allowed`: records fit the scratch buffer of the
next `open`, the sectors of the inactive arena are erased in order before a
compaction begins, and a commit is confirmed at the position it was made at.
-/

namespace Prns.Ports.Journal

open Verified
open Verified.NorFlash

inductive Call where
  | initializeEmpty
  | append (kind : RecordKind) (payload : List UInt8)
  | confirmAppend (pos : Nat) (kind : RecordKind) (payload : List UInt8)
  | eraseInactiveSector (sector : Nat)
  | beginCompaction
  | appendCompacted (kind : RecordKind) (payload : List UInt8)
  | commitCompaction
  | confirmCompactionCommit (pos : Nat)
  | abortCompaction
  deriving DecidableEq, Repr

def forget {ε α : Type} : Outcome ε α → Outcome ε Unit
  | .ok _ => .ok ()
  | .error e => .error e
  | .stopped powered => .stopped powered

def Call.run (g : Geometry) (layout : FlashJournalLayout) (j : FlashJournal) :
    Call → Outcome JournalError Unit × FlashJournal
  | .initializeEmpty => j.initializeEmpty g layout
  | .append kind payload => j.append g layout kind payload
  | .confirmAppend pos kind payload =>
      let r := j.confirmAppend g layout pos kind payload
      (forget r.1, r.2)
  | .eraseInactiveSector sector => j.eraseInactiveSector g layout sector
  | .beginCompaction => j.beginCompaction layout
  | .appendCompacted kind payload => j.appendCompacted g layout kind payload
  | .commitCompaction => j.commitCompaction g layout
  | .confirmCompactionCommit pos =>
      let r := j.confirmCompactionCommit g layout pos
      (forget r.1, r.2)
  | .abortCompaction => (.ok (), j.abortCompaction)

inductive World where
  | off (flash : Device)
  | on (journal : FlashJournal)

def World.flash : World → Device
  | .off flash => flash
  | .on journal => journal.flash

/-- What the owner of a journal may rely on. -/
structure Ledger where
  /-- The arena in use and its epoch. -/
  active : Option (Side × UInt64)
  /-- The records replayed at the last `open` and those acknowledged since. -/
  acked : List Record
  /-- The append that neither returned nor was refused. -/
  inFlight : Option Record
  /-- The records acknowledged by the compaction in progress. -/
  attempt : List Record
  /-- Where its commit record was to be written, if the commit did not return. -/
  commitAt : Option Nat
  /-- How many sectors of the inactive arena were erased in order. -/
  erased : Nat

namespace Ledger

def target (l : Ledger) : Side :=
  match l.active with
  | none => .first
  | some (side, _) => side.other

def nextEpoch (l : Ledger) : UInt64 :=
  match l.active with
  | none => 0
  | some (_, epoch) => epoch + 1

/-- An arena is in use, with nothing uncertain. -/
def inUse (active : Option (Side × UInt64)) (records : List Record) : Ledger :=
  ⟨active, records, none, [], none, 0⟩

def opened (o : Opened) : Ledger :=
  inUse (o.active.map fun cursor => (cursor.index, cursor.epoch)) o.replayed

variable (g : Geometry) (layout : FlashJournalLayout)

/-- The ledger after a call that took the journal from `j` to `j'`. -/
def after (l : Ledger) (call : Call) (j j' : FlashJournal) (returned : Bool) : Ledger :=
  match call with
  | .initializeEmpty =>
      if j.active.isSome then l
      else if returned then inUse (some (.first, 0)) []
      else { l with attempt := [], commitAt := some (layout.arenas .first).start, erased := 0 }
  | .append kind payload =>
      match j.active with
      | none => l
      | some cursor =>
          if kind = .arenaCommit ∨ j.compaction.isSome ∨
              accepts g (layout.arenas cursor.index) cursor payload.length = false then l
          else if returned then { l with acked := l.acked ++ [⟨cursor.epoch, kind, payload⟩] }
          else { l with inFlight := some ⟨cursor.epoch, kind, payload⟩ }
  | .eraseInactiveSector sector =>
      if returned then { l with erased := max l.erased (sector + 1) } else l
  | .beginCompaction =>
      if returned then { l with attempt := [], commitAt := none, erased := 0 } else l
  | .appendCompacted kind payload =>
      if returned then { l with attempt := l.attempt ++ [⟨l.nextEpoch, kind, payload⟩] } else l
  | .commitCompaction =>
      match j.compaction with
      | none => l
      | some cursor =>
          if returned then inUse (some (cursor.index, cursor.epoch)) l.attempt
          else if accepts g (layout.arenas cursor.index) cursor 0 then
            { l with commitAt := some cursor.appendAt }
          else l
  | .confirmCompactionCommit _ =>
      match j.compaction with
      | none => l
      | some cursor =>
          if j'.compaction = none then inUse (some (cursor.index, cursor.epoch)) l.attempt
          else l
  | .confirmAppend .. => l
  | .abortCompaction => l

end Ledger

structure State where
  world : World
  ledger : Ledger

section

variable (g : Geometry) (layout : FlashJournalLayout) (scratchLen : Nat)

def Allowed (l : Ledger) (j : FlashJournal) : Call → Prop
  | .append _ payload => Fits g scratchLen payload
  | .appendCompacted _ payload => Fits g scratchLen payload
  | .eraseInactiveSector sector => sector ≤ l.erased
  | .beginCompaction => l.erased = j.inactiveSectorCount g layout
  | .confirmCompactionCommit pos => l.commitAt = some pos
  | .initializeEmpty => j.compaction = none ∧ l.attempt = []
  | _ => True

instance (l : Ledger) (j : FlashJournal) (call : Call) :
    Decidable (Allowed g layout scratchLen l j call) := by
  cases call <;> unfold Allowed <;> infer_instance

/-- The flash with the faults that the next call runs into. -/
def facing (d : Device) (faults : List Fault) : Device := { d with faults }

def blankFlash : Device := ⟨fun _ => 0xFF, [], true⟩

/-- A call cut off by a power loss leaves the flash only. -/
def worldAfter (r : Outcome JournalError Unit × FlashJournal) : World :=
  match r.1 with
  | .stopped false => .off r.2.flash
  | _ => .on r.2

def returned {ε α : Type} : Outcome ε α → Bool
  | .ok _ => true
  | _ => false

/-- One step: a call under some faults, the loss of power, or `open` under some
faults. -/
inductive Move : State → State → Prop where
  | call (j : FlashJournal) (l : Ledger) (call : Call) (faults : List Fault)
      (hallowed : Allowed g layout scratchLen l j call)
      (r : Outcome JournalError Unit × FlashJournal)
      (hrun : call.run g layout { j with flash := facing j.flash faults } = r) :
      Move ⟨.on j, l⟩ ⟨worldAfter r, l.after g layout call j r.2 (returned r.1)⟩
  | powerLoss (j : FlashJournal) (l : Ledger) : Move ⟨.on j, l⟩ ⟨.off j.flash, l⟩
  | opened (d d' : Device) (l : Ledger) (faults : List Fault) (o : Opened)
      (hopen : openFlash g layout scratchLen (facing d faults) = (.ok o, d')) :
      Move ⟨.off d, l⟩ ⟨.on ⟨d', o.active, none⟩, .opened o⟩
  | notOpened (d d' : Device) (l : Ledger) (faults : List Fault)
      (outcome : Outcome JournalError Opened) (hfail : ∀ o, outcome ≠ .ok o)
      (hopen : openFlash g layout scratchLen (facing d faults) = (outcome, d')) :
      Move ⟨.off d, l⟩ ⟨.off d', l⟩

/-- A flash that opens, whose append position has an erased tail, and its ledger. -/
def Start (s : State) : Prop :=
  ∃ d o, s = ⟨.off d, .opened o⟩ ∧ d.clean = true ∧
    openFlash g layout scratchLen d.quiet = (.ok o, d.quiet) ∧
    ∀ cursor, o.active = some cursor →
      Erased d.cells cursor.appendAt (layout.arenas cursor.index).stop

inductive Reachable : State → Prop where
  | start {s : State} (h : Start g layout scratchLen s) : Reachable s
  | step {s s' : State} (h : Reachable s) (hmove : Move g layout scratchLen s s') : Reachable s'

end

end Prns.Ports.Journal
