import Mathlib.Algebra.GroupWithZero.Nat
import Mathlib.Data.List.Basic

/-!
# Outgoing resources and their chains

Model of the sending side of resources: the rows of `table/core.rs`, the chains of
`assembly/core.rs`, and the operations of `send.rs` and of the packet dispatch that add,
seal, advertise, prove, cancel and retire rows.

A link carries one resource at a time. The next segment of a split transfer may wait
behind the row that is on the wire; it is advertised when the proof of its predecessor
arrives. Segments after the first repeat the hash that the first one minted, which the
chain of the link keeps.

What tables, seals and interfaces make of an operation is given to it as an argument. Hashes
are salted and taken to be fresh, so that a row which was just built is the one that its
hash finds. The settlement of a request, which is its receipt's, is left out.
-/

namespace Prns.Ports.OutgoingResources

abbrev LinkId : Type := Nat
abbrev ResourceHash : Type := Nat
abbrev CommandId : Type := Nat
abbrev RequestId : Type := Nat

def u64Max : Nat := 2 ^ 64 - 1
def partRequestMaxRetries : Nat := 16
def maxAdvertisementRetries : Nat := 4
def awaitingProofRetries : Nat := 3
def metadataPrefixLen : Nat := 3
def maxEfficientSize : Nat := 1024 * 1024 - 1

inductive TrackLane where
  | live
  | staged
  deriving DecidableEq, Repr

inductive ResourceCorrelation where
  | request (id : RequestId)
  | response (id : RequestId)
  | unsolicited
  deriving DecidableEq, Repr

/-- The status of a row, with the pending lane of one that is being built. -/
inductive OutgoingResourceStatus where
  | building (lane : TrackLane)
  | staged
  | stagedSealing
  | stagedSealed
  | advertised
  | transferring
  | awaitingProof
  deriving DecidableEq, Repr

def OutgoingResourceStatus.isStaged : OutgoingResourceStatus → Bool
  | .staged => true
  | .stagedSealing => true
  | .stagedSealed => true
  | .building _ => false
  | .advertised => false
  | .transferring => false
  | .awaitingProof => false

def OutgoingResourceStatus.isBuilding : OutgoingResourceStatus → Bool
  | .building _ => true
  | .staged => false
  | .stagedSealing => false
  | .stagedSealed => false
  | .advertised => false
  | .transferring => false
  | .awaitingProof => false

def OutgoingResourceStatus.isOffWire (status : OutgoingResourceStatus) : Bool :=
  status.isBuilding || status.isStaged

/-- Behind the row on the wire: staged, or being built for the staged lane. -/
def OutgoingResourceStatus.isWaiting (status : OutgoingResourceStatus) : Bool :=
  status.isStaged || status == .building .staged

structure ResourceSegment where
  index : Nat
  totalSegments : Nat
  totalDataBytes : Nat
  deriving DecidableEq, Repr

/-- A row of the table. `data` is what the segment carries, and `offset` the place of that
in the bytes of a static response. -/
structure Row where
  link : LinkId
  hash : Option ResourceHash
  originalHash : ResourceHash
  segmentIndex : Nat
  totalSegments : Nat
  status : OutgoingResourceStatus
  retriesLeft : Nat
  command : CommandId
  correlation : ResourceCorrelation
  offset : Nat
  data : List UInt8
  deriving DecidableEq, Repr

/-- The first row that `p` selects, with its index. -/
def firstRow (p : Row → Bool) : List Row → Option (Nat × Row)
  | [] => none
  | row :: rows =>
      if p row then some (0, row)
      else (firstRow p rows).map fun found => (found.1 + 1, found.2)

/-- The row with the lowest segment among those that `p` selects. -/
def lowestRow (p : Row → Bool) : List Row → Option (Nat × Row)
  | [] => none
  | row :: rows =>
      match lowestRow p rows with
      | none => if p row then some (0, row) else none
      | some (i, best) =>
          if p row && decide (row.segmentIndex ≤ best.segmentIndex) then some (0, row)
          else some (i + 1, best)

inductive BuildOutgoingResourceError where
  | dataTooLarge
  | metadataTooLarge
  | sduTooSmall
  | sealTooShort
  | hashmapBufferTooShort
  | bufferShapeMismatch
  | preparedDigestInputMismatch
  | saltRerollsExhausted
  deriving DecidableEq, Repr

inductive TrackOutgoingResourceError where
  | tableFull
  | linkBusy
  | build (error : BuildOutgoingResourceError)
  deriving DecidableEq, Repr

inductive SendResourceRejection where
  | noSuchLink
  | linkNotActive
  | linkBusy
  | tableFull
  | build (error : BuildOutgoingResourceError)
  | metadataMisplaced
  deriving DecidableEq, Repr

inductive SendResourceFailure where
  | rejected (rejection : SendResourceRejection)
  | writeFailed
  | rejectedByPeer
  | sequencing
  | timeout
  | linkClosed
  | predecessorFailed
  deriving DecidableEq, Repr

def trackedResourceFailure : TrackOutgoingResourceError → SendResourceFailure
  | .tableFull => .rejected .tableFull
  | .linkBusy => .rejected .linkBusy
  | .build error => .rejected (.build error)

inductive RespondFailure where
  | writeFailed
  | resource (failure : SendResourceFailure)
  deriving DecidableEq, Repr

inductive Settlement where
  | respond (result : Option RespondFailure)
  | sendResource (result : Option SendResourceFailure)
  | sendRequest (failure : SendResourceFailure)
  deriving DecidableEq, Repr

def resourceFailureSettlement (correlation : ResourceCorrelation)
    (failure : SendResourceFailure) : Settlement :=
  match correlation with
  | .request _ => .sendRequest failure
  | .response _ => .respond (some (.resource failure))
  | .unsolicited => .sendResource (some failure)

structure StaticResponseContinuation where
  command : CommandId
  request : RequestId
  bytes : List UInt8
  nextOffset : Nat
  nextSegmentIndex : Nat
  totalSegments : Nat
  totalDataBytes : Nat
  metadataPackedLen : Nat
  segmentStreamBytes : Nat
  deriving DecidableEq, Repr

/-- A row of the outgoing assemblies. -/
structure Chain where
  link : LinkId
  originalHash : ResourceHash
  continuation : Option StaticResponseContinuation
  deriving DecidableEq, Repr

inductive ActiveLinkLookup where
  | active
  | inactive
  | absent
  deriving DecidableEq, Repr

/-- What an advertisement says, and what it stands for. -/
structure Advertisement where
  link : LinkId
  command : CommandId
  hash : ResourceHash
  originalHash : ResourceHash
  segmentIndex : Nat
  totalSegments : Nat
  correlation : ResourceCorrelation
  offset : Nat
  data : List UInt8
  deriving DecidableEq, Repr

/-- What can be seen of the engine: the static responses that it was given, the
advertisements that it wrote, and the settlements. -/
inductive Entry where
  | responded (command : CommandId) (bytes : List UInt8)
  | advertised (advertisement : Advertisement)
  | settled (command : CommandId) (settlement : Settlement)
  deriving DecidableEq, Repr

/-- The storage layout. -/
structure Layout where
  transferCapacity : Nat
  assemblyCapacity : Nat
  supportsStaticContinuations : Bool

structure World where
  rows : List Row
  chains : List Chain
  links : LinkId → ActiveLinkLookup
  /-- The commands that were issued so far. -/
  issued : List CommandId
  log : List Entry

def World.settle (w : World) (command : CommandId) (settlement : Settlement) : World :=
  { w with log := w.log ++ [.settled command settlement] }

def World.push (w : World) (row : Row) : World := { w with rows := w.rows ++ [row] }

def World.erase (w : World) (i : Nat) : World := { w with rows := w.rows.eraseIdx i }

def World.set (w : World) (i : Nat) (row : Row) : World := { w with rows := w.rows.set i row }

def Row.advertisement (row : Row) (hash : ResourceHash) : Advertisement :=
  ⟨row.link, row.command, hash, row.originalHash, row.segmentIndex, row.totalSegments,
    row.correlation, row.offset, row.data⟩

/-- `emit_resource_advertisement`, when it writes. -/
def World.advertise (w : World) (row : Row) (hash : ResourceHash) : World :=
  { w with log := w.log ++ [.advertised (row.advertisement hash)] }

def World.chain (w : World) (link : LinkId) : Option Chain :=
  w.chains.find? fun chain => chain.link == link

def World.clear (w : World) (link : LinkId) : World :=
  { w with chains := w.chains.filter fun chain => chain.link != link }

/-- `begin`: the chain of the link is replaced. -/
def World.begin (layout : Layout) (w : World) (link : LinkId) (hash : ResourceHash) : World :=
  let w := w.clear link
  if w.chains.length < layout.assemblyCapacity then
    { w with chains := w.chains ++ [⟨link, hash, none⟩] }
  else w

/-- `set_static_continuation`, on the chain of the link if it has one. -/
def World.setStaticContinuation (w : World) (link : LinkId)
    (continuation : StaticResponseContinuation) : World :=
  { w with chains := w.chains.map fun chain =>
      if chain.link == link then { chain with continuation := some continuation } else chain }

def World.staticContinuation (w : World) (link : LinkId) : Option StaticResponseContinuation :=
  (w.chain link).bind Chain.continuation

def World.lookup (w : World) (link : LinkId) (hash : ResourceHash) : Option (Nat × Row) :=
  firstRow (fun row => row.link == link && row.hash == some hash) w.rows

def World.stagedIndex (w : World) (link : LinkId) : Option (Nat × Row) :=
  lowestRow (fun row => row.link == link && row.status.isWaiting) w.rows

def World.nextUnsealedStagedIndex (w : World) (link : LinkId) : Option (Nat × Row) :=
  lowestRow (fun row => row.link == link && row.status == .staged) w.rows

def laneFor (rows : List Row) (link : LinkId) (segment : ResourceSegment) :
    Except TrackOutgoingResourceError TrackLane :=
  match rows.filter fun row => row.link == link with
  | [] => .ok .live
  | [newest] =>
      if 1 < newest.totalSegments ∧ newest.segmentIndex + 1 = segment.index ∧
          segment.totalSegments = newest.totalSegments then .ok .staged
      else .error .linkBusy
  | _ :: _ :: _ => .error .linkBusy

/-- `settle_advertised_resource`. -/
def World.settleAdvertisedResource (w : World) (command : CommandId)
    (correlation : ResourceCorrelation) (result : Option SendResourceFailure) : World :=
  match correlation with
  | .request _ => w
  | .response _ => w.settle command (.respond (result.map .resource))
  | .unsolicited => w.settle command (.sendResource result)

/-- The loop of `fail_staged_continuation`. -/
def World.failStaged (link : LinkId) : Nat → World → World
  | 0, w => w
  | turns + 1, w =>
      match w.stagedIndex link with
      | none => w
      | some (i, row) =>
          World.failStaged link turns ((w.erase i).settle row.command
            (resourceFailureSettlement row.correlation .predecessorFailed))

/-- `fail_staged_continuation`: every turn removes a row. -/
def World.failStagedContinuation (w : World) (link : LinkId) : World :=
  w.failStaged link w.rows.length

def World.cancelOutgoingResource (w : World) (link : LinkId) (hash : ResourceHash)
    (failure : SendResourceFailure) : World :=
  match w.lookup link hash with
  | none => w
  | some (i, row) =>
      (((w.erase i).clear link).settleAdvertisedResource row.command row.correlation
        (some failure)).failStagedContinuation link

/-- `record_staged_seal`. -/
def Row.recordStagedSeal (row : Row) (hash : ResourceHash) : Row :=
  { row with
    hash := some hash
    status := .stagedSealed
    originalHash := if row.segmentIndex = 1 then hash else row.originalHash }

def World.failStagedSeal (w : World) (i : Nat) (row : Row) (error : BuildOutgoingResourceError) :
    World :=
  ((w.erase i).settle row.command
    (resourceFailureSettlement row.correlation (.rejected (.build error)))).failStagedContinuation
      row.link

def World.sealStagedIndex (w : World) (i : Nat) (row : Row)
    (verdict : Except BuildOutgoingResourceError ResourceHash) : World :=
  match w.links row.link with
  | .inactive => w
  | .absent => w
  | .active =>
      match verdict with
      | .ok hash => w.set i (row.recordStagedSeal hash)
      | .error error => w.failStagedSeal i row error

def World.sealStagedContinuation (w : World) (link : LinkId)
    (verdict : Except BuildOutgoingResourceError ResourceHash) : World :=
  match w.stagedIndex link with
  | none => w
  | some (i, row) => if row.status = .staged then w.sealStagedIndex i row verdict else w

def World.requestResourceSeal (w : World) (link : LinkId) : World :=
  match w.nextUnsealedStagedIndex link with
  | none => w
  | some (i, row) =>
      if 1 < row.segmentIndex ∧ !(w.rows.any fun sibling => sibling.link == link &&
          sibling.segmentIndex + 1 == row.segmentIndex && sibling.status == .awaitingProof) then w
      else
        match w.links link with
        | .inactive => w
        | .absent => w
        | .active => w.set i { row with status := .stagedSealing }

/-- What the seal and the interface make of a promotion. -/
structure Promotion where
  verdict : Except BuildOutgoingResourceError ResourceHash
  wrote : Bool
  deriving DecidableEq

/-- The end of `promote_staged_resource`, for the sealed row. -/
def World.promoteSealed (layout : Layout) (w : World) (i : Nat) (row : Row) (hash : ResourceHash)
    (wrote : Bool) : World :=
  let w :=
    if row.segmentIndex = 1 ∧ 1 < row.totalSegments ∧ (w.chain row.link).isNone then
      w.begin layout row.link hash
    else w
  if 1 < row.segmentIndex ∧ (w.chain row.link).isNone then w.failStagedContinuation row.link
  else
    let row :=
      { row with
        originalHash :=
          if 1 < row.segmentIndex then
            ((w.chain row.link).map Chain.originalHash).getD row.originalHash
          else row.originalHash
        status := .advertised
        retriesLeft := if wrote then maxAdvertisementRetries else row.retriesLeft }
    match w.links row.link with
    | .inactive => w.failStagedContinuation row.link
    | .absent => w.failStagedContinuation row.link
    | .active =>
        if wrote then (w.set i row).advertise row hash
        else (w.erase i).settle row.command (resourceFailureSettlement row.correlation .writeFailed)

def World.promoteStagedResource (layout : Layout) (w : World) (link : LinkId)
    (promotion : Promotion) : World :=
  if w.rows.any fun row => row.link == link && !row.status.isWaiting then w
  else
    match w.stagedIndex link with
    | none => w
    | some (_, row) =>
        let w := if row.status = .staged then w.sealStagedContinuation link promotion.verdict else w
        match w.stagedIndex link with
        | none => w
        | some (i, row) =>
            if row.status = .stagedSealed then
              match row.hash with
              | none => w.failStagedContinuation link
              | some hash => w.promoteSealed layout i row hash promotion.wrote
            else w

/-! ## Sending a segment -/

inductive ResourceMetadata where
  | none
  | packed (packedLen : Nat)
  | sentInFirstSegment (packedLen : Nat)
  deriving DecidableEq, Repr

def ResourceMetadata.blockLen : ResourceMetadata → Nat
  | .none => 0
  | .packed packedLen => metadataPrefixLen + packedLen
  | .sentInFirstSegment packedLen => metadataPrefixLen + packedLen

def ResourceMetadata.placedIn : ResourceMetadata → Nat → Bool
  | .none, _ => true
  | .packed _, index => index == 1
  | .sentInFirstSegment _, index => decide (1 < index)

/-- A command that sends a segment. `candidateWins` says that a compressed candidate is
shorter than the stream. -/
structure ResourceSend where
  id : CommandId
  link : LinkId
  offset : Nat
  data : List UInt8
  metadata : ResourceMetadata
  candidateWins : Bool
  correlation : ResourceCorrelation
  deriving DecidableEq, Repr

/-- What the table, the seal and the interface make of a segment. -/
structure Landing where
  tracked : Except TrackOutgoingResourceError ResourceHash
  wrote : Bool
  deriving DecidableEq

def ResourceCorrelation.isRequest : ResourceCorrelation → Bool
  | .request _ => true
  | .response _ => false
  | .unsolicited => false

def World.validateOutgoingResourceSend (w : World) (send : ResourceSend)
    (segment : ResourceSegment) : Except SendResourceFailure TrackLane :=
  if segment.index = 0 ∨ segment.totalSegments = 0 ∨ segment.totalSegments < segment.index then
    .error .sequencing
  else if send.correlation.isRequest ∧ segment.totalSegments ≠ 1 then .error .sequencing
  else if u64Max < segment.totalDataBytes + send.metadata.blockLen then
    .error (.rejected (.build .dataTooLarge))
  else if !send.metadata.placedIn segment.index then .error (.rejected .metadataMisplaced)
  else
    match w.links send.link with
    | .inactive => .error (.rejected .linkNotActive)
    | .absent => .error (.rejected .noSuchLink)
    | .active =>
        match laneFor w.rows send.link segment with
        | .error error => .error (trackedResourceFailure error)
        | .ok lane =>
            if 1 < segment.index ∧ lane = .live ∧ (w.chain send.link).isNone then
              .error .predecessorFailed
            else .ok lane

/-- The row of a segment that was just tracked. -/
def ResourceSend.row (send : ResourceSend) (segment : ResourceSegment) (hash : Option ResourceHash)
    (originalHash : ResourceHash) (status : OutgoingResourceStatus) : Row :=
  ⟨send.link, hash, originalHash, segment.index, segment.totalSegments, status, 0, send.id,
    send.correlation, send.offset, send.data⟩

/-- The segment is raw in the table, to be sealed later. -/
def rawStages (send : ResourceSend) (lane : TrackLane) (external : Bool) : Bool :=
  (lane == .staged || external) && !send.candidateWins

/-- `ingest_send_resource_segment_enveloped`; `external` is the seal lane. -/
def World.ingestSendResourceSegment (layout : Layout) (w : World) (send : ResourceSend)
    (segment : ResourceSegment) (external : Bool) (landing : Landing) : World :=
  match w.validateOutgoingResourceSend send segment with
  | .error failure => w.settle send.id (resourceFailureSettlement send.correlation failure)
  | .ok lane =>
      match landing.tracked with
      | .error error =>
          w.settle send.id
            (resourceFailureSettlement send.correlation (trackedResourceFailure error))
      | .ok hash =>
          let chainOriginal :=
            if 1 < segment.index then (w.chain send.link).map Chain.originalHash else none
          if rawStages send lane external then
            w.push (send.row segment none (chainOriginal.getD 0) .staged)
          else
            let original := chainOriginal.getD hash
            match lane with
            | .staged => w.push (send.row segment (some hash) original .stagedSealed)
            | .live =>
                let w :=
                  if 1 < segment.totalSegments ∧ segment.index = 1 then
                    w.begin layout send.link hash
                  else w
                let row := send.row segment (some hash) original .advertised
                if landing.wrote then
                  (w.push { row with retriesLeft := maxAdvertisementRetries }).advertise row hash
                else
                  -- The row is removed again.
                  w.settle send.id (resourceFailureSettlement send.correlation .writeFailed)

/-- `request_resource_build`: a row is reserved. -/
def World.requestResourceBuild (w : World) (send : ResourceSend) (segment : ResourceSegment)
    (reserved : Except TrackOutgoingResourceError Unit) : World :=
  match w.validateOutgoingResourceSend send segment with
  | .error failure => w.settle send.id (resourceFailureSettlement send.correlation failure)
  | .ok lane =>
      match reserved with
      | .error error =>
          w.settle send.id
            (resourceFailureSettlement send.correlation (trackedResourceFailure error))
      | .ok () => w.push (send.row segment none 0 (.building lane))

def World.reservedBuild (w : World) (link : LinkId) (command : CommandId) : Option (Nat × Row) :=
  firstRow (fun row => row.link == link && row.command == command && row.status.isBuilding) w.rows

/-- `resume_landed_resource_build`, for a build of the live lane. -/
def World.landLiveBuild (layout : Layout) (w : World) (i : Nat) (row : Row) (hash : ResourceHash)
    (wrote : Bool) : World :=
  let w :=
    if row.segmentIndex = 1 ∧ 1 < row.totalSegments then w.begin layout row.link hash else w
  let row :=
    { row with
      hash := some hash
      originalHash :=
        if 1 < row.segmentIndex then ((w.chain row.link).map Chain.originalHash).getD hash
        else hash
      status := .advertised
      retriesLeft := if wrote then maxAdvertisementRetries else 0 }
  match w.links row.link with
  | .inactive =>
      (w.erase i).settle row.command (resourceFailureSettlement row.correlation .writeFailed)
  | .absent =>
      (w.erase i).settle row.command (resourceFailureSettlement row.correlation .writeFailed)
  | .active =>
      if wrote then (w.set i row).advertise row hash
      else (w.erase i).settle row.command (resourceFailureSettlement row.correlation .writeFailed)

def World.resumeResourceBuild (layout : Layout) (w : World) (link : LinkId) (command : CommandId)
    (built : Except BuildOutgoingResourceError ResourceHash) (promotion : Promotion) : World :=
  match w.reservedBuild link command with
  | none => w
  | some (i, row) =>
      match built with
      | .error error =>
          let failed := (w.erase i).settle row.command
            (resourceFailureSettlement row.correlation (.rejected (.build error)))
          if row.status = .building .live then failed.failStagedContinuation link else failed
      | .ok hash =>
          if row.status = .building .live then w.landLiveBuild layout i row hash promotion.wrote
          else
            (w.set i { row with
              hash := some hash
              originalHash := hash
              status := .stagedSealed
              retriesLeft := 0 }).promoteStagedResource layout link promotion

end Prns.Ports.OutgoingResources
