import Prns.Ports.OutgoingResources

/-!
# Static responses

A response from static storage that needs more than one segment is cut by the engine: what
is left of it waits in the chain of its link as its continuation, and the proof of one
segment sends the next. Model of `ingest_send_static_response_into` and
`continue_static_response_into` in `send.rs`, of the packets and deadlines that move rows,
and of the runs of all of them.
-/

namespace Prns.Ports.OutgoingResources

/-! ## Static responses -/

def staticResponseSegmentBytes : Nat := 256 * 1024
def resourceNonceLen : Nat := 4
def responseWireOverhead : Nat := 1 + 2 + 16
def staticFileMetadataBytes : Nat := 6 + 2 + 255

def sealedTransferBytes (streamLen : Nat) : Nat :=
  16 + ((streamLen + resourceNonceLen) / 16 + 1) * 16 + 32

/-- The loop of `static_response_stream_capacity`. -/
def shrinkStream (transferCapacity : Nat) : Nat → Nat
  | 0 => 0
  | streamBytes + 1 =>
      if transferCapacity < sealedTransferBytes (streamBytes + 1) then
        shrinkStream transferCapacity streamBytes
      else streamBytes + 1

def staticResponseStreamCapacity (transferCapacity : Nat) : Nat :=
  shrinkStream transferCapacity
    (min (min staticResponseSegmentBytes maxEfficientSize) (transferCapacity - 48))

def packedBinaryHeaderLen (byteLen : Nat) : Option Nat :=
  if byteLen ≤ 0xFF then some 2
  else if byteLen ≤ 0xFFFF then some 3
  else if byteLen ≤ 0xFFFFFFFF then some 5
  else none

/-- `write_file_metadata`: the length of the packed name, if it fits the buffer. -/
def fileMetadataLen (nameLen : Nat) : Option Nat :=
  match packedBinaryHeaderLen nameLen with
  | none => none
  | some headerLen =>
      if 6 + headerLen + nameLen ≤ staticFileMetadataBytes then some (6 + headerLen + nameLen)
      else none

inductive RespondPayload where
  | packed
  | staticBytes (data : List UInt8)
  | staticFile (nameLen : Nat) (data : List UInt8)
  deriving DecidableEq, Repr

def RespondPayload.bytes : RespondPayload → List UInt8
  | .packed => []
  | .staticBytes data => data
  | .staticFile _ data => data

structure Respond where
  link : LinkId
  request : RequestId
  payload : RespondPayload
  deriving DecidableEq, Repr

/-- The first segment of a static response. -/
def Respond.firstSend (respond : Respond) (id : CommandId) (metadata : ResourceMetadata)
    (firstBytes : Nat) : ResourceSend :=
  ⟨id, respond.link, 0, respond.payload.bytes.take firstBytes, metadata, false,
    .response respond.request⟩

/-- How a static response is cut. -/
structure Cut where
  metadata : ResourceMetadata
  segmentStreamBytes : Nat
  firstBytes : Nat
  totalSegments : Nat
  totalDataBytes : Nat
  deriving DecidableEq, Repr

/-- The first half of `ingest_send_static_response_into`: how the response is cut, or why it
fails before anything is sent. -/
def Respond.cut (layout : Layout) (respond : Respond) : Except RespondFailure Cut :=
  let framing : Option (Nat × ResourceMetadata) :=
    match respond.payload with
    | .packed => none
    | .staticBytes data =>
        (packedBinaryHeaderLen data.length).map fun headerLen =>
          (responseWireOverhead + headerLen, .none)
    | .staticFile nameLen _ => (fileMetadataLen nameLen).map fun packedLen => (0, .packed packedLen)
  match framing with
  | none => .error .writeFailed
  | some (envelopeLen, metadata) =>
      let data := respond.payload.bytes
      let segmentStreamBytes := staticResponseStreamCapacity layout.transferCapacity
      let firstOverhead := envelopeLen + metadata.blockLen
      if segmentStreamBytes ≤ firstOverhead then
        .error (.resource (.rejected (.build .dataTooLarge)))
      else
        let firstBytes := min data.length (segmentStreamBytes - firstOverhead)
        let remaining := data.length - firstBytes
        let totalSegments := (remaining + segmentStreamBytes - 1) / segmentStreamBytes + 1
        if u64Max < totalSegments then .error .writeFailed
        else if 1 < totalSegments ∧ !layout.supportsStaticContinuations then
          .error (.resource (.rejected (.build .dataTooLarge)))
        else if u64Max < envelopeLen + data.length then .error .writeFailed
        else .ok ⟨metadata, segmentStreamBytes, firstBytes, totalSegments,
          envelopeLen + data.length⟩

/-- What is left of a static response after its first segment. -/
def Respond.continuation (respond : Respond) (id : CommandId) (cut : Cut) :
    StaticResponseContinuation :=
  ⟨id, respond.request, respond.payload.bytes, cut.firstBytes, 2, cut.totalSegments,
    cut.totalDataBytes,
    match cut.metadata with
    | .packed packedLen => packedLen
    | .none => 0
    | .sentInFirstSegment _ => 0,
    cut.segmentStreamBytes⟩

/-- `ingest_send_static_response_into`. -/
def World.ingestSendStaticResponse (layout : Layout) (w : World) (id : CommandId)
    (respond : Respond) (landing : Landing) : World :=
  match respond.cut layout with
  | .error failure => w.settle id (.respond (some failure))
  | .ok cut =>
      let sent := w.ingestSendResourceSegment layout
        (respond.firstSend id cut.metadata cut.firstBytes)
        ⟨1, cut.totalSegments, cut.totalDataBytes⟩ false landing
      if 1 < cut.totalSegments then
        sent.setStaticContinuation respond.link (respond.continuation id cut)
      else sent

def StaticResponseContinuation.send (continuation : StaticResponseContinuation) (link : LinkId)
    (stop : Nat) : ResourceSend :=
  ⟨continuation.command, link, continuation.nextOffset,
    (continuation.bytes.drop continuation.nextOffset).take (stop - continuation.nextOffset),
    if continuation.metadataPackedLen = 0 then .none
    else .sentInFirstSegment continuation.metadataPackedLen,
    false, .response continuation.request⟩

/-- `continue_static_response_into`. -/
def World.continueStaticResponse (layout : Layout) (w : World) (link : LinkId)
    (landing : Landing) : World :=
  match w.staticContinuation link with
  | none => w
  | some continuation =>
      let stop := min (continuation.nextOffset + continuation.segmentStreamBytes)
        continuation.bytes.length
      if stop ≤ continuation.nextOffset ∨
          continuation.totalSegments < continuation.nextSegmentIndex then
        (w.clear link).settle continuation.command (.respond (some (.resource .sequencing)))
      else
        let sent := w.ingestSendResourceSegment layout (continuation.send link stop)
          ⟨continuation.nextSegmentIndex, continuation.totalSegments,
            continuation.totalDataBytes⟩ false landing
        if sent.rows.isEmpty then sent.clear link
        else
          sent.setStaticContinuation link { continuation with
            nextOffset := stop
            nextSegmentIndex := continuation.nextSegmentIndex + 1 }

/-- A proof that is the expected one: `ingest_resource_proof` and its dispatch. -/
def World.ingestResourceProof (layout : Layout) (w : World) (link : LinkId) (hash : ResourceHash)
    (landing : Landing) (promotion : Promotion) : World :=
  match w.lookup link hash with
  | none => w
  | some (i, row) =>
      if row.status.isOffWire then w
      else if row.totalSegments ≤ row.segmentIndex then
        (((w.erase i).clear link).settleAdvertisedResource row.command row.correlation
          none).promoteStagedResource layout link promotion
      else if (w.staticContinuation link).isSome then
        (w.erase i).continueStaticResponse layout link landing
      else
        ((w.erase i).settleAdvertisedResource row.command row.correlation
          none).promoteStagedResource layout link promotion

/-- A cancel of the receiver: `ingest_resource_receiver_cancel` and its dispatch. -/
def World.ingestResourceReceiverCancel (w : World) (link : LinkId) (hash : ResourceHash) : World :=
  match w.lookup link hash with
  | none => w
  | some (i, row) =>
      if row.status.isOffWire then w
      else
        (((w.erase i).clear link).settleAdvertisedResource row.command row.correlation
          (some .rejectedByPeer)).failStagedContinuation link

/-- `serve_resource_request`: `broken` says that the request breaks the sequence, and
`allSent` that every part has been sent. -/
def World.serveResourceRequest (w : World) (link : LinkId) (hash : ResourceHash)
    (broken allSent : Bool) : World :=
  match w.lookup link hash with
  | none => w
  | some (i, row) =>
      if row.status.isOffWire then w
      else
        match w.links link with
        | .inactive => w
        | .absent => w
        | .active =>
            if broken then w.cancelOutgoingResource link hash .sequencing
            else if allSent then
              w.set i { row with status := .awaitingProof, retriesLeft := awaitingProofRetries }
            else if row.status = .advertised then
              w.set i { row with status := .transferring, retriesLeft := partRequestMaxRetries }
            else w

/-- `retry_or_cancel_outgoing_resource`. -/
def World.retryOrCancelOutgoingResource (w : World) (i : Nat) (wrote : Bool) : World :=
  match w.rows[i]? with
  | none => w
  | some row =>
      match row.hash with
      | none => w
      | some hash =>
          match w.links row.link with
          | .inactive => w.cancelOutgoingResource row.link hash .timeout
          | .absent => w.cancelOutgoingResource row.link hash .timeout
          | .active =>
              match row.status with
              | .building _ => w
              | .staged => w.failStagedContinuation row.link
              | .stagedSealing => w.failStagedContinuation row.link
              | .stagedSealed => w.failStagedContinuation row.link
              | .advertised =>
                  if row.retriesLeft = 0 then w.cancelOutgoingResource row.link hash .timeout
                  else
                    let w := if wrote then w.advertise row hash else w
                    w.set i { row with retriesLeft := row.retriesLeft - 1 }
              | .transferring => w.cancelOutgoingResource row.link hash .timeout
              | .awaitingProof =>
                  if row.retriesLeft = 0 then w.cancelOutgoingResource row.link hash .timeout
                  else w.set i { row with retriesLeft := row.retriesLeft - 1 }

/-- The loop over the rows of a link that closes. -/
def World.popForLink (link : LinkId) : Nat → World → World
  | 0, w => w
  | turns + 1, w =>
      match firstRow (fun row => row.link == link) w.rows with
      | none => w
      | some (i, row) =>
          let popped := w.erase i
          World.popForLink link turns
            (if row.status.isOffWire then
              popped.settle row.command (resourceFailureSettlement row.correlation .linkClosed)
            else
              popped.settleAdvertisedResource row.command row.correlation (some .linkClosed))

/-- `close_link`, as far as outgoing resources go. -/
def World.closeLink (w : World) (link : LinkId) : World :=
  let w := (w.popForLink link w.rows.length).clear link
  { w with links := fun other => if other = link then .absent else w.links other }

/-- `claim_resource_response`: the upload of a request is over when its response arrives. -/
def World.claimResourceResponse (w : World) (link : LinkId) (command : CommandId)
    (request : RequestId) : World :=
  { w with rows := w.rows.filter fun row =>
      !(row.link == link && row.command == command && row.correlation == .request request) }

/-! ## Events -/

/-- How an external seal ends. Some failures are settled without a promotion. -/
inductive SealLanding where
  | sealed (hash : ResourceHash)
  | failed (error : BuildOutgoingResourceError) (promotes : Bool)
  | unavailable (verdict : Except BuildOutgoingResourceError ResourceHash)

/-- `resume_resource_seal`, for the row that the seal was requested for. -/
def World.resumeResourceSeal (layout : Layout) (w : World) (i : Nat) (landing : SealLanding)
    (promotion : Promotion) : World :=
  match w.rows[i]? with
  | none => w
  | some row =>
      if row.status = .stagedSealing then
        match landing with
        | .sealed hash =>
            (w.set i (row.recordStagedSeal hash)).promoteStagedResource layout row.link promotion
        | .failed error promotes =>
            let failed := w.failStagedSeal i row error
            if promotes then failed.promoteStagedResource layout row.link promotion else failed
        | .unavailable verdict =>
            let staged := { row with status := .staged }
            ((w.set i staged).sealStagedIndex i staged verdict).promoteStagedResource layout
              row.link promotion
      else w

inductive Event where
  | send (send : ResourceSend) (segment : ResourceSegment) (external : Bool) (landing : Landing)
  | requestBuild (send : ResourceSend) (segment : ResourceSegment)
      (reserved : Except TrackOutgoingResourceError Unit)
  | resumeBuild (link : LinkId) (command : CommandId)
      (built : Except BuildOutgoingResourceError ResourceHash) (promotion : Promotion)
  | respond (id : CommandId) (respond : Respond) (landing : Landing)
  | serve (link : LinkId) (hash : ResourceHash) (broken allSent : Bool)
  | sealContinuation (link : LinkId) (verdict : Except BuildOutgoingResourceError ResourceHash)
  | requestSeal (link : LinkId)
  | resumeSeal (i : Nat) (landing : SealLanding) (promotion : Promotion)
  | proof (link : LinkId) (hash : ResourceHash) (landing : Landing) (promotion : Promotion)
  | receiverCancel (link : LinkId) (hash : ResourceHash)
  | due (i : Nat) (wrote : Bool)
  | claim (link : LinkId) (command : CommandId) (request : RequestId)
  | activate (link : LinkId)
  | close (link : LinkId)

def World.issue (w : World) (id : CommandId) : World := { w with issued := id :: w.issued }

def World.step (layout : Layout) (w : World) : Event → World
  | .send send segment external landing =>
      (w.issue send.id).ingestSendResourceSegment layout send segment external landing
  | .requestBuild send segment reserved =>
      (w.issue send.id).requestResourceBuild send segment reserved
  | .resumeBuild link command built promotion =>
      w.resumeResourceBuild layout link command built promotion
  | .respond id respond landing =>
      let given := { w.issue id with log := w.log ++ [Entry.responded id respond.payload.bytes] }
      given.ingestSendStaticResponse layout id respond landing
  | .serve link hash broken allSent => w.serveResourceRequest link hash broken allSent
  | .sealContinuation link verdict => w.sealStagedContinuation link verdict
  | .requestSeal link => w.requestResourceSeal link
  | .resumeSeal i landing promotion => w.resumeResourceSeal layout i landing promotion
  | .proof link hash landing promotion => w.ingestResourceProof layout link hash landing promotion
  | .receiverCancel link hash => w.ingestResourceReceiverCancel link hash
  | .due i wrote => w.retryOrCancelOutgoingResource i wrote
  | .claim link command request => w.claimResourceResponse link command request
  | .activate link =>
      { w with links := fun other => if other = link then .active else w.links other }
  | .close link => w.closeLink link

/-- Commands have identities of their own. -/
def World.fresh (w : World) : Event → Bool
  | .send send _ _ _ => !w.issued.contains send.id
  | .requestBuild send _ _ => !w.issued.contains send.id
  | .respond id _ _ => !w.issued.contains id
  | _ => true

def World.empty : World := ⟨[], [], fun _ => .absent, [], []⟩

def World.run (layout : Layout) (w : World) : List Event → World
  | [] => w
  | event :: events => (w.step layout event).run layout events

/-- All steps of the run meet a condition. -/
def allAlong (layout : Layout) (p : World → Event → Bool) (w : World) : List Event → Bool
  | [] => true
  | event :: events => p w event && allAlong layout p (w.step layout event) events

end Prns.Ports.OutgoingResources
