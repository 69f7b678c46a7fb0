import Prns.Verified.NorFlash
import Prns.Ports.SnapshotEnvelope

/-!
# The flash journal

Model of the record side of `persistence/impls/flash_journal/mod.rs`: two arenas of
which one is active, records appended to it, and compaction into the other one. A
record is a 32-byte header and a padded payload; the last word of the header is
programmed last and makes the record count.

The flash of the source is any `NorFlash`; here it is the device of
`Verified/NorFlash.lean`, whose operations may fail or be cut off anywhere. An
`async` call that is dropped at an await point is one that is cut off with the
power on.
-/

namespace Prns.Ports.Journal

open Verified
open Verified.NorFlash
open Persistence

def magic : List UInt8 := [0x50, 0x52, 0x4E, 0x4A]

def schemaVersion : Nat := 1

def commitWord : Nat := 0x54494D43

def headerLen : Nat := 32

def checksumPrefixLen : Nat := 20

def commitOffset : Nat := 28

def ioChunkLen : Nat := 256

def u32Max : Nat := 2 ^ 32 - 1

def usizeMax : Nat := 2 ^ 64 - 1

/-- The index `0` or `1` of an arena or of a timebase region. -/
inductive Side where
  | first
  | second
  deriving DecidableEq, Repr

def Side.other : Side → Side
  | .first => .second
  | .second => .first

theorem Side.other_other (side : Side) : side.other.other = side := by
  cases side <;> rfl

structure FlashArenaRange where
  start : Nat
  stop : Nat
  deriving DecidableEq, Repr

def FlashArenaRange.len (a : FlashArenaRange) : Nat := a.stop - a.start

def FlashArenaRange.isEmpty (a : FlashArenaRange) : Bool := decide (a.stop ≤ a.start)

structure FlashJournalLayout where
  timebaseRegions : Side → Nat
  arenas : Side → FlashArenaRange

inductive RecordKind where
  | arenaCommit
  | routeUpsert
  | routeRemoval
  | selfRatchet
  | remoteControlControllerGrants
  | remoteControlTargetAccesses
  | discoveryGroupConfigurations
  | nodeName
  deriving DecidableEq, Repr

def RecordKind.toWire : RecordKind → Nat
  | .arenaCommit => 1
  | .routeUpsert => 2
  | .routeRemoval => 3
  | .selfRatchet => 4
  | .remoteControlControllerGrants => 5
  | .remoteControlTargetAccesses => 6
  | .discoveryGroupConfigurations => 7
  | .nodeName => 8

def RecordKind.fromWire : Nat → Option RecordKind
  | 1 => some .arenaCommit
  | 2 => some .routeUpsert
  | 3 => some .routeRemoval
  | 4 => some .selfRatchet
  | 5 => some .remoteControlControllerGrants
  | 6 => some .remoteControlTargetAccesses
  | 7 => some .discoveryGroupConfigurations
  | 8 => some .nodeName
  | _ => none

inductive FlashJournalWarning where
  | unknownSchema (found : Nat)
  | corrupt
  deriving DecidableEq, Repr

structure RestoreReport where
  activeEpoch : Option UInt64
  restoredRecords : Nat
  warning : Option FlashJournalWarning
  deriving DecidableEq, Repr

structure Record where
  epoch : UInt64
  kind : RecordKind
  payload : List UInt8
  deriving DecidableEq, Repr

inductive JournalError where
  | flash (e : FlashError)
  | commitUnconfirmed (pos : Nat) (e : FlashError)
  | misaligned
  | outOfBounds
  | arenaFull
  | uninitialized
  | compactionInProgress
  | noCompaction
  | payloadTooLarge
  | scratchTooShort
  | verificationFailed
  deriving DecidableEq, Repr

inductive CommitResolution where
  | committed
  | notCommitted
  deriving DecidableEq, Repr

structure ArenaState where
  epoch : Option UInt64
  appendAt : Nat
  warning : Option FlashJournalWarning
  deriving DecidableEq, Repr

structure ArenaCursor where
  index : Side
  epoch : UInt64
  appendAt : Nat
  deriving DecidableEq, Repr

structure RecordHeader where
  schema : Nat
  kind : Nat
  epoch : UInt64
  payloadLen : Nat
  checksum : UInt32
  committed : Bool
  deriving DecidableEq, Repr

def checkedAdd (limit a b : Nat) : Option Nat :=
  if a + b ≤ limit then some (a + b) else none

def alignUp (value alignment : Nat) : Option Nat :=
  if value % alignment = 0 then some value
  else checkedAdd usizeMax value (alignment - value % alignment)

def ioAlignment (g : Geometry) : Nat := max g.writeSize g.readSize

def recordEnd (g : Geometry) (pos payloadLen : Nat) : Option Nat := do
  let padded ← alignUp payloadLen (ioAlignment g)
  let len ← checkedAdd usizeMax headerLen padded
  if len ≤ u32Max then checkedAdd u32Max pos len else none

def recordChecksum (front payload : List UInt8) : UInt32 :=
  ~~~ payload.foldl crcByte (~~~ crc32 front)

def recordHeader (epoch : UInt64) (kind : RecordKind) (payloadLen : Nat) (checksum : UInt32)
    (committed : Bool) : List UInt8 :=
  magic ++ leBytes 2 schemaVersion ++ leBytes 2 kind.toWire ++ leBytes 8 epoch.toNat ++
    leBytes 4 payloadLen ++ leBytes 4 checksum.toNat ++ [0xFF, 0xFF, 0xFF, 0xFF] ++
    (if committed then leBytes 4 commitWord else [0xFF, 0xFF, 0xFF, 0xFF])

/-- The bytes `[start, stop)` of a header. -/
def field (bytes : List UInt8) (start stop : Nat) : List UInt8 :=
  (bytes.take stop).drop start

/-- The source's `Option` is the conversion of slices of known length. -/
def parseHeader (bytes : List UInt8) : RecordHeader where
  schema := ofLeBytes (field bytes 4 6)
  kind := ofLeBytes (field bytes 6 8)
  epoch := UInt64.ofNat (ofLeBytes (field bytes 8 16))
  payloadLen := ofLeBytes (field bytes 16 20)
  checksum := UInt32.ofNat (ofLeBytes (field bytes 20 24))
  committed := decide (ofLeBytes (field bytes commitOffset headerLen) = commitWord)

def headerMatchesRecord (bytes : List UInt8) (epoch : UInt64) (kind : RecordKind)
    (payloadLen : Nat) (checksum : UInt32) (committed : Bool) : Bool :=
  decide (bytes = recordHeader epoch kind payloadLen checksum committed)

def confirmRecordHeader (header : List UInt8) (epoch : UInt64) (kind : RecordKind)
    (payload : List UInt8) : Except JournalError CommitResolution :=
  if header.drop commitOffset ≠ leBytes 4 commitWord then .ok .notCommitted
  else
    let checksum := recordChecksum (header.take checksumPrefixLen) payload
    if !headerMatchesRecord header epoch kind payload.length checksum true then
      .error .verificationFailed
    else .ok .committed

def checkRecordBounds (g : Geometry) (arena : FlashArenaRange) (pos payloadLen : Nat) :
    Option JournalError :=
  match recordEnd g pos payloadLen with
  | none => some .payloadTooLarge
  | some recordEnd =>
      if pos < arena.start ∨ arena.stop < recordEnd ∨ pos % g.readSize ≠ 0 then
        some .outOfBounds
      else none

/-! ## Opening -/

def overlaps (first second : FlashArenaRange) : Bool :=
  decide (first.start < second.stop) && decide (second.start < first.stop)

def validateRegion (g : Geometry) (region : Nat) : Option JournalError :=
  if region % g.eraseSize ≠ 0 then some .misaligned
  else
    match checkedAdd usizeMax region g.eraseSize with
    | none => some .outOfBounds
    | some stop => if g.capacity < stop then some .outOfBounds else none

def validateArena (g : Geometry) (layout : FlashJournalLayout) (arena : FlashArenaRange) :
    Option JournalError :=
  if arena.isEmpty ∨ arena.start % g.eraseSize ≠ 0 ∨ arena.stop % g.eraseSize ≠ 0 then
    some .misaligned
  else if g.capacity < arena.stop then some .outOfBounds
  else if overlaps arena ⟨layout.timebaseRegions .first,
      layout.timebaseRegions .first + g.eraseSize⟩ then some .misaligned
  else if overlaps arena ⟨layout.timebaseRegions .second,
      layout.timebaseRegions .second + g.eraseSize⟩ then some .misaligned
  else none

/-- The refusal of a layout or of a scratch buffer, if there is one. -/
def validate (g : Geometry) (layout : FlashJournalLayout) (scratchLen : Nat) :
    Option JournalError :=
  if g.writeSize = 0 ∨ g.readSize = 0 ∨ g.eraseSize = 0 ∨ 4 < g.writeSize ∨
      headerLen % g.writeSize ≠ 0 ∨ headerLen % g.readSize ≠ 0 ∨
      scratchLen < ioAlignment g then some .misaligned
  else if scratchLen < min ioChunkLen (ioAlignment g) ∨ scratchLen % g.readSize ≠ 0 then
    some .scratchTooShort
  else
    (validateRegion g (layout.timebaseRegions .first)) <|>
    (validateRegion g (layout.timebaseRegions .second)) <|>
    (if max (layout.timebaseRegions .first) (layout.timebaseRegions .second) -
        min (layout.timebaseRegions .first) (layout.timebaseRegions .second) <
        g.eraseSize then some .misaligned else none) <|>
    (validateArena g layout (layout.arenas .first)) <|>
    (validateArena g layout (layout.arenas .second)) <|>
    (if overlaps (layout.arenas .first) (layout.arenas .second) then some .misaligned
      else none)

def epochIsNewer (candidate current : UInt64) : Bool :=
  decide (candidate - current ≠ 0) && decide (candidate - current < (1 : UInt64) <<< 63)

def selectActive (first second : ArenaState) : Option Side :=
  match first.epoch, second.epoch with
  | some firstEpoch, some secondEpoch =>
      if epochIsNewer secondEpoch firstEpoch then some .second else some .first
  | some _, none => some .first
  | none, some _ => some .second
  | none, none => none

/-- What a scan has seen so far. -/
structure Scan where
  committedEpoch : Option UInt64
  warning : Option FlashJournalWarning
  replayed : List Record
  deriving DecidableEq, Repr

def Scan.stopAt (s : Scan) (pos : Nat) : ArenaState × List Record :=
  (⟨s.committedEpoch, pos, s.warning⟩, s.replayed)

def Scan.corrupt (s : Scan) (arena : FlashArenaRange) : ArenaState × List Record :=
  { s with warning := some .corrupt }.stopAt arena.stop

/-- A record with a valid checksum; `none` if it ends the scan as corrupt. -/
def Scan.take (s : Scan) (replayEpoch : Option UInt64) (header : RecordHeader)
    (payload : List UInt8) : Option Scan :=
  if header.schema ≠ schemaVersion then
    some { s with
      warning := some (.unknownSchema header.schema)
      committedEpoch :=
        if header.kind = RecordKind.arenaCommit.toWire then some header.epoch
        else s.committedEpoch }
  else
    match RecordKind.fromWire header.kind with
    | none => none
    | some kind =>
        if kind = .arenaCommit then
          if header.payloadLen ≠ 0 then none
          else some { s with committedEpoch := some header.epoch }
        else if replayEpoch = some header.epoch then
          some { s with replayed := s.replayed ++ [⟨header.epoch, kind, payload⟩] }
        else some s

section

variable {g : Geometry} {pos len recordEnd' : Nat} (h : recordEnd g pos len = some recordEnd')

include h

theorem recordEnd_eq_some : ∃ padded, alignUp len (ioAlignment g) = some padded ∧
    recordEnd' = pos + headerLen + padded ∧ headerLen + padded ≤ u32Max := by
  simp only [recordEnd, checkedAdd, Option.bind_eq_bind, Option.bind_eq_some_iff,
    Option.ite_none_right_eq_some, Option.some.injEq] at h
  obtain ⟨padded, hpadded, len', ⟨-, hlen⟩, hmax, -, hend⟩ := h
  exact ⟨padded, hpadded, by omega, by omega⟩

theorem lt_recordEnd : pos + headerLen ≤ recordEnd' := by
  obtain ⟨padded, -, rfl, -⟩ := recordEnd_eq_some h
  omega

end

def readScratch (g : Geometry) (pos paddedLen : Nat) : Act Device JournalError (List UInt8) :=
  if 0 < paddedLen then (read g pos paddedLen).mapError .flash else pure []

set_option linter.unusedVariables false in
def scanLoop (g : Geometry) (arena : FlashArenaRange) (scratchLen : Nat)
    (replayEpoch : Option UInt64) (pos : Nat) (s : Scan) :
    Act Device JournalError (ArenaState × List Record) :=
  if hroom : pos + headerLen ≤ arena.stop then do
    let headerBytes ← (read g pos headerLen).mapError .flash
    if headerBytes.all (· == 0xFF) then pure (s.stopAt pos)
    else
      let header := parseHeader headerBytes
      if !header.committed then pure (s.stopAt arena.stop)
      else if headerBytes.take 4 ≠ magic then pure (s.corrupt arena)
      else
        match hend : recordEnd g pos header.payloadLen with
        | none => pure (s.corrupt arena)
        | some recordEnd' =>
            if arena.stop < recordEnd' then pure (s.corrupt arena)
            else if scratchLen < header.payloadLen then Act.fail .scratchTooShort
            else
              match alignUp header.payloadLen g.readSize with
              | none => Act.fail .payloadTooLarge
              | some paddedLen =>
                  if scratchLen < paddedLen then Act.fail .scratchTooShort
                  else do
                    let scratch ← readScratch g (pos + headerLen) paddedLen
                    let payload := scratch.take header.payloadLen
                    if recordChecksum (headerBytes.take checksumPrefixLen) payload ≠
                        header.checksum then pure (s.corrupt arena)
                    else
                      match s.take replayEpoch header payload with
                      | none => pure (s.corrupt arena)
                      | some s' => scanLoop g arena scratchLen replayEpoch recordEnd' s'
  else pure (s.stopAt pos)
termination_by arena.stop - pos
decreasing_by
  have hlt := lt_recordEnd hend
  unfold headerLen at hlt hroom
  omega

def scanArena (g : Geometry) (arena : FlashArenaRange) (scratchLen : Nat)
    (replayEpoch : Option UInt64) : Act Device JournalError (ArenaState × List Record) :=
  scanLoop g arena scratchLen replayEpoch arena.start ⟨none, none, []⟩

/-- What `open` hands to its caller: the cursor of the active arena, the report, and
the records it replayed. -/
structure Opened where
  active : Option ArenaCursor
  report : RestoreReport
  replayed : List Record
  deriving DecidableEq, Repr

/-- The second pass over the selected arena, which hands out its records. -/
def replayActive (g : Geometry) (layout : FlashJournalLayout) (scratchLen : Nat)
    (state : Side → ArenaState) : Option Side → Act Device JournalError (List Record)
  | none => pure []
  | some index =>
      if (state index).warning = none then do
        let replay ← scanArena g (layout.arenas index) scratchLen (state index).epoch
        pure replay.2
      else pure []

def cursorAt (layout : FlashJournalLayout) (state : Side → ArenaState) (index : Side) :
    ArenaCursor where
  index := index
  epoch := (state index).epoch.getD 0
  appendAt :=
    if (state index).warning = none then (state index).appendAt
    else (layout.arenas index).stop

def openedWith (layout : FlashJournalLayout) (state : Side → ArenaState)
    (selected : Option Side) (replayed : List Record) : Opened :=
  let active := selected.map (cursorAt layout state)
  { active
    report :=
      { activeEpoch := active.map ArenaCursor.epoch
        restoredRecords := min replayed.length u32Max
        warning := selected.bind fun index => (state index).warning }
    replayed }

def perSide {α : Type} (first second : α) : Side → α
  | .first => first
  | .second => second

theorem perSide_eta {α : Type} (f : Side → α) : perSide (f .first) (f .second) = f := by
  funext s
  cases s <;> rfl

def openFlash (g : Geometry) (layout : FlashJournalLayout) (scratchLen : Nat) :
    Act Device JournalError Opened :=
  match validate g layout scratchLen with
  | some e => Act.fail e
  | none => do
      let first ← scanArena g (layout.arenas .first) scratchLen none
      let second ← scanArena g (layout.arenas .second) scratchLen none
      let state := perSide first.1 second.1
      let selected := selectActive first.1 second.1
      let replayed ← replayActive g layout scratchLen state selected
      pure (openedWith layout state selected replayed)

/-! ## Writing a record -/

set_option linter.unusedVariables false in
def writePayload (g : Geometry) (payloadAt : Nat) (remaining : List UInt8) :
    Act Device JournalError Unit :=
  if hempty : remaining = [] then pure ()
  else
    let take := min remaining.length ioChunkLen
    let finalChunk := take = remaining.length
    match if finalChunk then alignUp take g.writeSize else some take with
    | none => Act.fail .payloadTooLarge
    | some writeLen => do
        let chunk := remaining.take take ++ List.replicate (ioChunkLen - take) 0xFF
        (write g payloadAt (chunk.take writeLen)).mapError .flash
        writePayload g (payloadAt + writeLen) (remaining.drop take)
termination_by remaining.length
decreasing_by
  have hpos := List.length_pos_iff.mpr hempty
  rw [List.length_drop]
  unfold ioChunkLen
  omega

set_option linter.unusedVariables false in
def verifyChunks (g : Geometry) (payloadAt : Nat) (remaining : List UInt8) :
    Act Device JournalError Unit :=
  if hempty : remaining = [] then pure ()
  else
    let chunk := remaining.take ioChunkLen
    match alignUp chunk.length g.readSize with
    | none => Act.fail .payloadTooLarge
    | some readLen => do
        let bytes ← (read g payloadAt readLen).mapError .flash
        if bytes.take chunk.length ≠ chunk ∨
            (bytes.drop chunk.length).any (· != 0xFF) = true then
          Act.fail .verificationFailed
        else verifyChunks g (payloadAt + readLen) (remaining.drop ioChunkLen)
termination_by remaining.length
decreasing_by
  have hpos := List.length_pos_iff.mpr hempty
  rw [List.length_drop]
  unfold ioChunkLen
  omega

def verifyRecordPayload (g : Geometry) (pos : Nat) (payload : List UInt8) :
    Act Device JournalError Unit :=
  verifyChunks g (pos + headerLen) payload

def checksumOf (epoch : UInt64) (kind : RecordKind) (payload : List UInt8) : UInt32 :=
  recordChecksum ((recordHeader epoch kind payload.length 0 false).take checksumPrefixLen)
    payload

/-- The first half of `write_record`: the whole record but its commit word, read
back. -/
def stageRecord (g : Geometry) (pos : Nat) (epoch : UInt64) (kind : RecordKind)
    (payload : List UInt8) : Act Device JournalError Unit := do
  let checksum := checksumOf epoch kind payload
  (write g pos ((recordHeader epoch kind payload.length checksum false).take
    commitOffset)).mapError .flash
  writePayload g (pos + headerLen) payload
  let header ← (read g pos headerLen).mapError .flash
  if !headerMatchesRecord header epoch kind payload.length checksum false then
    Act.fail .verificationFailed
  else verifyRecordPayload g pos payload

/-- The second half of `write_record`: the commit word. A write that reported an
error still counts if the record reads back committed. -/
def commitRecord (g : Geometry) (pos recordEnd' : Nat) (epoch : UInt64) (kind : RecordKind)
    (payload : List UInt8) : Act Device JournalError Nat := do
  let checksum := checksumOf epoch kind payload
  let commitResult ← (write g (pos + commitOffset) (leBytes 4 commitWord)).attempt
  let readback ← (read g pos headerLen).attempt
  match commitResult, readback with
  | .error error, .error _ => Act.fail (.commitUnconfirmed pos error)
  | .error error, .ok header =>
      if headerMatchesRecord header epoch kind payload.length checksum true then
        pure recordEnd'
      else Act.fail (.flash error)
  | .ok _, .error error => Act.fail (.commitUnconfirmed pos error)
  | .ok _, .ok header =>
      if !headerMatchesRecord header epoch kind payload.length checksum true then
        Act.fail .verificationFailed
      else pure recordEnd'

def writeRecord (g : Geometry) (arena : FlashArenaRange) (pos : Nat) (epoch : UInt64)
    (kind : RecordKind) (payload : List UInt8) : Act Device JournalError Nat :=
  if u32Max < payload.length then Act.fail .payloadTooLarge
  else
    match recordEnd g pos payload.length with
    | none => Act.fail .payloadTooLarge
    | some recordEnd' =>
        if pos < arena.start ∨ arena.stop < recordEnd' then Act.fail .arenaFull
        else do
          stageRecord g pos epoch kind payload
          commitRecord g pos recordEnd' epoch kind payload

/-- The reads of `confirm_append`: the header, and the payload if it is committed. -/
def confirmRecord (g : Geometry) (pos : Nat) (epoch : UInt64) (kind : RecordKind)
    (payload : List UInt8) : Act Device JournalError CommitResolution := do
  let header ← (read g pos headerLen).mapError .flash
  match confirmRecordHeader header epoch kind payload with
  | .error e => Act.fail e
  | .ok .committed => do
      verifyRecordPayload g pos payload
      pure .committed
  | .ok .notCommitted => pure .notCommitted

/-- What `write_cursor_record` borrows. -/
structure CursorOnFlash where
  flash : Device
  cursor : ArenaCursor

def writeCursorRecord (g : Geometry) (arena : FlashArenaRange) (kind : RecordKind)
    (payload : List UInt8) : Act CursorOnFlash JournalError Unit := fun w =>
  let pos := w.cursor.appendAt
  match recordEnd g pos payload.length with
  | none => (.error .payloadTooLarge, w)
  | some recordEnd' =>
      if pos < arena.start ∨ arena.stop < recordEnd' then (.error .arenaFull, w)
      else
        -- Closed first: only a verified write opens the tail again.
        let closed := { w.cursor with appendAt := arena.stop }
        match writeRecord g arena pos w.cursor.epoch kind payload w.flash with
        | (.ok appendAt, flash) => (.ok (), ⟨flash, { closed with appendAt }⟩)
        | (.error e, flash) => (.error e, ⟨flash, closed⟩)
        | (.stopped powered, flash) => (.stopped powered, ⟨flash, closed⟩)

/-! ## The journal -/

structure FlashJournal where
  flash : Device
  active : Option ArenaCursor
  compaction : Option ArenaCursor

namespace FlashJournal

variable (g : Geometry) (layout : FlashJournalLayout)

def onFlash {α : Type} (f : Act Device JournalError α) : Act FlashJournal JournalError α :=
  Act.zoom FlashJournal.flash (fun j flash => { j with flash }) f

def inactiveIndex (j : FlashJournal) : Side :=
  match j.active with
  | none => .first
  | some cursor => cursor.index.other

def inactiveArena (j : FlashJournal) : FlashArenaRange := layout.arenas j.inactiveIndex

def inactiveSectorCount (j : FlashJournal) : Nat := (j.inactiveArena layout).len / g.eraseSize

def initializeEmpty : Act FlashJournal JournalError Unit := fun j =>
  if j.active.isSome then (.ok (), j)
  else
    let arena := layout.arenas .first
    match (do
      (erase g arena.start arena.stop).mapError .flash
      writeRecord g arena arena.start 0 .arenaCommit [] : Act Device JournalError Nat)
        j.flash with
    | (.ok appendAt, flash) => (.ok (), { j with flash, active := some ⟨.first, 0, appendAt⟩ })
    | (.error e, flash) => (.error e, { j with flash })
    | (.stopped powered, flash) => (.stopped powered, { j with flash })

def append (kind : RecordKind) (payload : List UInt8) : Act FlashJournal JournalError Unit :=
  fun j =>
    if kind = .arenaCommit then (.error .compactionInProgress, j)
    else if j.compaction.isSome then (.error .compactionInProgress, j)
    else
      match j.active with
      | none => (.error .uninitialized, j)
      | some cursor =>
          let r := writeCursorRecord g (layout.arenas cursor.index) kind payload
            ⟨j.flash, cursor⟩
          (r.1, { j with flash := r.2.flash, active := some r.2.cursor })

def confirmAppend (pos : Nat) (kind : RecordKind) (payload : List UInt8) :
    Act FlashJournal JournalError CommitResolution := fun j =>
  if j.compaction.isSome then (.error .compactionInProgress, j)
  else
    match j.active with
    | none => (.error .uninitialized, j)
    | some cursor =>
        match checkRecordBounds g (layout.arenas cursor.index) pos payload.length with
        | some e => (.error e, j)
        | none =>
            onFlash (confirmRecord g pos cursor.epoch kind payload) j

def eraseInactiveSector (sector : Nat) : Act FlashJournal JournalError Unit := fun j =>
  if j.compaction.isSome then (.error .compactionInProgress, j)
  else
    let arena := j.inactiveArena layout
    let start := arena.start + sector * g.eraseSize
    if usizeMax < start + g.eraseSize then (.error .outOfBounds, j)
    else if arena.stop < start + g.eraseSize then (.error .outOfBounds, j)
    else onFlash ((erase g start (start + g.eraseSize)).mapError .flash) j

def nextEpoch (j : FlashJournal) : UInt64 :=
  match j.active with
  | none => 0
  | some cursor => cursor.epoch + 1

def beginCompaction : Act FlashJournal JournalError Unit := fun j =>
  if j.compaction.isSome then (.error .compactionInProgress, j)
  else
    (.ok (), { j with
      compaction := some ⟨j.inactiveIndex, j.nextEpoch, (j.inactiveArena layout).start⟩ })

def appendCompacted (kind : RecordKind) (payload : List UInt8) :
    Act FlashJournal JournalError Unit := fun j =>
  if kind = .arenaCommit then (.error .compactionInProgress, j)
  else
    match j.compaction with
    | none => (.error .noCompaction, j)
    | some cursor =>
        let r := writeCursorRecord g (layout.arenas cursor.index) kind payload
          ⟨j.flash, cursor⟩
        (r.1, { j with flash := r.2.flash, compaction := some r.2.cursor })

/-- The active cursor moved to the end of its arena, where nothing can be appended. -/
def closeActive (active : Option ArenaCursor) : Option ArenaCursor :=
  active.map fun cursor => { cursor with appendAt := (layout.arenas cursor.index).stop }

def commitCompaction : Act FlashJournal JournalError Unit := fun j =>
  match j.compaction with
  | none => (.error .noCompaction, j)
  | some cursor =>
      let r := writeCursorRecord g (layout.arenas cursor.index) .arenaCommit []
        ⟨j.flash, cursor⟩
      match r.1 with
      | .ok () => (.ok (), ⟨r.2.flash, some r.2.cursor, none⟩)
      | .error e => (.error e, ⟨r.2.flash, closeActive layout j.active, some r.2.cursor⟩)
      | .stopped powered =>
          (.stopped powered, ⟨r.2.flash, closeActive layout j.active, some r.2.cursor⟩)

def confirmCompactionCommit (pos : Nat) : Act FlashJournal JournalError CommitResolution :=
  fun j =>
    match j.compaction with
    | none => (.error .noCompaction, j)
    | some cursor =>
        match checkRecordBounds g (layout.arenas cursor.index) pos 0 with
        | some e => (.error e, j)
        | none =>
            match (read g pos headerLen).mapError JournalError.flash j.flash with
            | (.error e, flash) => (.error e, { j with flash })
            | (.stopped powered, flash) => (.stopped powered, { j with flash })
            | (.ok header, flash) =>
                match confirmRecordHeader header cursor.epoch .arenaCommit [] with
                | .error e => (.error e, { j with flash })
                | .ok .notCommitted => (.ok .notCommitted, { j with flash })
                | .ok .committed =>
                    match recordEnd g pos 0 with
                    | none => (.error .payloadTooLarge, { j with flash })
                    | some appendAt =>
                        (.ok .committed, ⟨flash, some { cursor with appendAt }, none⟩)

def abortCompaction (j : FlashJournal) : FlashJournal := { j with compaction := none }

end FlashJournal

end Prns.Ports.Journal
