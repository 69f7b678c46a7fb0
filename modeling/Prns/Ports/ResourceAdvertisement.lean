import Prns.Ports.OutgoingResources
import Prns.Verified.Bytes

/-!
# Resource advertisements and their buffer

An outgoing segment is announced by an advertisement, a MessagePack map of eleven
entries that is written into a buffer of fixed length and then sealed into one link
packet (`advertisement.rs` and `emit_resource_advertisement`). The number of part names
that ride in it is fixed from a constant overhead of 134 bytes for everything else.

The other entries need up to 135 bytes and more: the counters have MessagePack's minimal
widths, and a request id, a segment of many parts, and a segment index and a segment
count of two bytes each exceed the overhead together.
-/

namespace Prns.Ports.Advertising

open Verified
open OutgoingResources (ResourceSegment ResourceSend ResourceMetadata
  ResourceCorrelation RequestId ResourceHash BuildOutgoingResourceError SendResourceFailure
  TrackLane World metadataPrefixLen)

def truncatedHashByteLen : Nat := 16
def headerMinLen : Nat := 2 + truncatedHashByteLen + 1
def headerMaxLen : Nat := 2 + truncatedHashByteLen * 2 + 1
def ifacMinLen : Nat := 1
def broadcastMtu : Nat := 500
def blockLen : Nat := 16
def ivLen : Nat := 16
def macLen : Nat := 32
def tokenOverhead : Nat := ivLen + macLen
def usizeMax : Nat := 2 ^ 64 - 1

/-- `link_mdu`. The source underflows for an MTU that does not hold one block. -/
def linkMdu (mtu : Nat) : Nat :=
  ((mtu - ifacMinLen - headerMinLen - tokenOverhead) / 16) * 16 - 1

/-- `LINK_MDU`: the length of the advertisement buffer. -/
def baseLinkMdu : Nat := linkMdu broadcastMtu

def linkDataFrameCeiling (plaintextLen : Nat) : Nat :=
  headerMinLen + ifacMinLen + tokenOverhead + ((plaintextLen / 16) + 1) * 16

def sealedLen (plaintextLen : Nat) : Nat := ivLen + (plaintextLen / blockLen + 1) * blockLen + macLen

def mapHashLen : Nat := 4
def resourceNonceLen : Nat := 4
def advertisementOverhead : Nat := 134
def hashmapMaxLen : Nat := (baseLinkMdu - advertisementOverhead) / mapHashLen
def maxEfficientSize : Nat := 1024 * 1024 - 1
def metadataMaxSize : Nat := 16 * 1024 * 1024 - 1

def resourceSdu (mtu : Nat) : Nat := mtu - headerMaxLen - ifacMinLen

/-- IV, padded stream nonce and stream, MAC. -/
def sealedTransferBytes (streamLen : Nat) : Nat :=
  16 + ((streamLen + resourceNonceLen) / 16 + 1) * 16 + 32

/-- Byte arrays of a fixed length. -/
abbrev Bytes (n : Nat) : Type := { bytes : List UInt8 // bytes.length = n }

structure ResourceFlags where
  encrypted : Bool
  compressed : Bool
  split : Bool
  isRequest : Bool
  isResponse : Bool
  hasMetadata : Bool
  deriving DecidableEq, Repr

def ResourceFlags.toByte (flags : ResourceFlags) : Nat :=
  flags.hasMetadata.toNat <<< 5 ||| flags.isResponse.toNat <<< 4 ||| flags.isRequest.toNat <<< 3 |||
    flags.split.toNat <<< 2 ||| flags.compressed.toNat <<< 1 ||| flags.encrypted.toNat

structure ResourceAdvertisement where
  transferBytes : Nat
  dataBytes : Nat
  partCount : Nat
  hash : Bytes 32
  saltNonce : Bytes 4
  originalHash : Bytes 32
  segmentIndex : Nat
  totalSegments : Nat
  requestId : Option (Bytes 16)
  flags : ResourceFlags
  hashmap : List UInt8
  deriving DecidableEq

inductive ResourceAdvertisementError where
  | hashmapTooLong
  | hashmapRagged
  | bufferTooShort
  | malformed
  deriving DecidableEq, Repr

/-- A one-character key. -/
def putKey (cap : Nat) (buf : List UInt8) (key : Char) : Option (List UInt8) :=
  put cap buf [0xA1, UInt8.ofNat key.toNat]

def putUint (cap : Nat) (buf : List UInt8) (value : Nat) : Option (List UInt8) :=
  if value ≤ 0x7F then put cap buf [UInt8.ofNat value]
  else if value ≤ 0xFF then put cap buf [0xCC, UInt8.ofNat value]
  else if value ≤ 0xFFFF then do
    let buf ← put cap buf [0xCD]
    put cap buf (beBytes 2 value)
  else if value ≤ 0xFFFFFFFF then do
    let buf ← put cap buf [0xCE]
    put cap buf (beBytes 4 value)
  else do
    let buf ← put cap buf [0xCF]
    put cap buf (beBytes 8 value)

def putBin (cap : Nat) (buf bytes : List UInt8) : Option (List UInt8) :=
  if bytes.length ≤ 0xFF then do
    let buf ← put cap buf [0xC4, UInt8.ofNat bytes.length]
    put cap buf bytes
  else if bytes.length ≤ 0xFFFF then do
    let buf ← put cap buf [0xC5]
    let buf ← put cap buf (beBytes 2 bytes.length)
    put cap buf bytes
  else none

namespace ResourceAdvertisement

def putRequestId (cap : Nat) (buf : List UInt8) : Option (Bytes 16) → Option (List UInt8)
  | none => put cap buf [0xC0]
  | some id => putBin cap buf id.val

def writeFields (a : ResourceAdvertisement) (cap : Nat) : Option (List UInt8) := do
  let buf ← put cap [] [0x8B]
  let buf ← putKey cap buf 't'
  let buf ← putUint cap buf a.transferBytes
  let buf ← putKey cap buf 'd'
  let buf ← putUint cap buf a.dataBytes
  let buf ← putKey cap buf 'n'
  let buf ← putUint cap buf a.partCount
  let buf ← putKey cap buf 'h'
  let buf ← putBin cap buf a.hash.val
  let buf ← putKey cap buf 'r'
  let buf ← putBin cap buf a.saltNonce.val
  let buf ← putKey cap buf 'o'
  let buf ← putBin cap buf a.originalHash.val
  let buf ← putKey cap buf 'i'
  let buf ← putUint cap buf a.segmentIndex
  let buf ← putKey cap buf 'l'
  let buf ← putUint cap buf a.totalSegments
  let buf ← putKey cap buf 'q'
  let buf ← putRequestId cap buf a.requestId
  let buf ← putKey cap buf 'f'
  let buf ← putUint cap buf a.flags.toByte
  let buf ← putKey cap buf 'm'
  putBin cap buf a.hashmap

def write (a : ResourceAdvertisement) (cap : Nat) :
    Except ResourceAdvertisementError (List UInt8) :=
  if a.hashmap.length > hashmapMaxLen * mapHashLen then .error .hashmapTooLong
  else if a.hashmap.length % mapHashLen ≠ 0 then .error .hashmapRagged
  else
    match a.writeFields cap with
    | none => .error .bufferTooShort
    | some bytes => .ok bytes

end ResourceAdvertisement

/-! ## What is written -/

def uintBytes (value : Nat) : List UInt8 :=
  if value ≤ 0x7F then [UInt8.ofNat value]
  else if value ≤ 0xFF then [0xCC, UInt8.ofNat value]
  else if value ≤ 0xFFFF then [0xCD] ++ beBytes 2 value
  else if value ≤ 0xFFFFFFFF then [0xCE] ++ beBytes 4 value
  else [0xCF] ++ beBytes 8 value

def binBytes (bytes : List UInt8) : List UInt8 :=
  if bytes.length ≤ 0xFF then [0xC4, UInt8.ofNat bytes.length] ++ bytes
  else [0xC5] ++ (beBytes 2 bytes.length ++ bytes)

/-- The width of a counter. -/
def uintLen (value : Nat) : Nat :=
  if value ≤ 0x7F then 1
  else if value ≤ 0xFF then 2
  else if value ≤ 0xFFFF then 3
  else if value ≤ 0xFFFFFFFF then 5
  else 9

theorem length_uintBytes (value : Nat) : (uintBytes value).length = uintLen value := by
  unfold uintBytes uintLen
  split <;> [rfl; skip]
  split <;> [rfl; skip]
  split <;> [simp; skip]
  split <;> simp

theorem putUint_eq (cap : Nat) (buf : List UInt8) (value : Nat) :
    putUint cap buf value = put cap buf (uintBytes value) := by
  unfold putUint uintBytes
  split <;> [rfl; skip]
  split <;> [rfl; skip]
  split <;> [exact put_put _ _ _ _; skip]
  split <;> exact put_put _ _ _ _

variable {bytes : List UInt8}

theorem putBin_eq (cap : Nat) (buf : List UInt8) (h : bytes.length ≤ 0xFFFF) :
    putBin cap buf bytes = put cap buf (binBytes bytes) := by
  rw [putBin, binBytes]
  by_cases hshort : bytes.length ≤ 0xFF
  · rw [if_pos hshort, if_pos hshort]
    exact put_put _ _ _ _
  · rw [if_neg hshort, if_neg hshort, if_pos h]
    show ((put cap buf [0xC5]).bind fun buf =>
      (put cap buf (beBytes 2 bytes.length)).bind fun buf => put cap buf bytes) = _
    simp only [put_put]

theorem length_binBytes_le (bytes : List UInt8) : (binBytes bytes).length ≤ 3 + bytes.length := by
  rw [binBytes]
  split <;> simp <;> omega

theorem length_binBytes_short (h : bytes.length ≤ 0xFF) :
    (binBytes bytes).length = 2 + bytes.length := by
  rw [binBytes, if_pos h]
  simp
  omega

theorem uintLen_toByte (flags : ResourceFlags) : uintLen flags.toByte = 1 := by
  obtain ⟨encrypted, compressed, split, isRequest, isResponse, hasMetadata⟩ := flags
  cases encrypted <;> cases compressed <;> cases split <;> cases isRequest <;>
    cases isResponse <;> cases hasMetadata <;> rfl

namespace ResourceAdvertisement

def requestIdBytes : Option (Bytes 16) → List UInt8
  | none => [0xC0]
  | some id => binBytes id.val

theorem putRequestId_eq (cap : Nat) (buf : List UInt8) (requestId : Option (Bytes 16)) :
    putRequestId cap buf requestId = put cap buf (requestIdBytes requestId) := by
  cases requestId with
  | none => rfl
  | some id => exact putBin_eq cap buf (by rw [id.property]; decide)

def encoded (a : ResourceAdvertisement) : List UInt8 :=
  [0x8B] ++ ([0xA1, 0x74] ++ (uintBytes a.transferBytes ++ ([0xA1, 0x64] ++
    (uintBytes a.dataBytes ++ ([0xA1, 0x6E] ++ (uintBytes a.partCount ++ ([0xA1, 0x68] ++
    (binBytes a.hash.val ++ ([0xA1, 0x72] ++ (binBytes a.saltNonce.val ++ ([0xA1, 0x6F] ++
    (binBytes a.originalHash.val ++ ([0xA1, 0x69] ++ (uintBytes a.segmentIndex ++ ([0xA1, 0x6C] ++
    (uintBytes a.totalSegments ++ ([0xA1, 0x71] ++ (requestIdBytes a.requestId ++ ([0xA1, 0x66] ++
    (uintBytes a.flags.toByte ++ ([0xA1, 0x6D] ++ binBytes a.hashmap)))))))))))))))))))))

theorem writeFields_eq (a : ResourceAdvertisement) (cap : Nat) (h : a.hashmap.length ≤ 0xFFFF) :
    a.writeFields cap = put cap [] a.encoded := by
  have hhash : a.hash.val.length ≤ 0xFFFF := by rw [a.hash.property]; decide
  have hsalt : a.saltNonce.val.length ≤ 0xFFFF := by rw [a.saltNonce.property]; decide
  have horiginal : a.originalHash.val.length ≤ 0xFFFF := by rw [a.originalHash.property]; decide
  rw [writeFields]
  simp only [putKey, putUint_eq, putBin_eq _ _ hhash, putBin_eq _ _ hsalt,
    putBin_eq _ _ horiginal, putBin_eq _ _ h, putRequestId_eq, Option.bind_eq_bind, put_put]
  rfl

theorem length_encoded (a : ResourceAdvertisement) :
    a.encoded.length = 98 + uintLen a.transferBytes + uintLen a.dataBytes + uintLen a.partCount +
      uintLen a.segmentIndex + uintLen a.totalSegments + (requestIdBytes a.requestId).length +
      (binBytes a.hashmap).length := by
  have hhash : (binBytes a.hash.val).length = 34 := by
    rw [length_binBytes_short (by rw [a.hash.property]; decide), a.hash.property]
  have hsalt : (binBytes a.saltNonce.val).length = 6 := by
    rw [length_binBytes_short (by rw [a.saltNonce.property]; decide), a.saltNonce.property]
  have horiginal : (binBytes a.originalHash.val).length = 34 := by
    rw [length_binBytes_short (by rw [a.originalHash.property]; decide), a.originalHash.property]
  simp only [encoded, List.length_append, length_uintBytes, uintLen_toByte, hhash, hsalt,
    horiginal, List.length_cons, List.length_nil]
  generalize uintLen a.transferBytes = t, uintLen a.dataBytes = d, uintLen a.partCount = n,
    uintLen a.segmentIndex = i, uintLen a.totalSegments = l,
    (requestIdBytes a.requestId).length = q, (binBytes a.hashmap).length = m
  grind

theorem length_requestIdBytes (requestId : Option (Bytes 16)) :
    (requestIdBytes requestId).length = if requestId.isSome then 18 else 1 := by
  cases requestId with
  | none => rfl
  | some id =>
    show (binBytes id.val).length = 18
    rw [length_binBytes_short (by rw [id.property]; decide), id.property]

end ResourceAdvertisement

/-! ## The segments that the send path accepts -/

structure ResourceBufferShape where
  transferBytes : Nat
  partCount : Nat
  bufferBytes : Nat
  deriving DecidableEq, Repr

inductive ResourceBufferShapeError where
  | emptyTransfer
  | sduTooSmall
  | sizeOverflow
  deriving DecidableEq, Repr

/-- A name and a flag for each part. -/
def checkedResourceBufferBytes (transferBytes partCount : Nat) : Option Nat :=
  if partCount * (mapHashLen + 1) ≤ usizeMax ∧
      transferBytes + partCount * (mapHashLen + 1) ≤ usizeMax then
    some (transferBytes + partCount * (mapHashLen + 1))
  else
    none

def divCeil (n d : Nat) : Nat := (n + d - 1) / d

def ResourceBufferShape.tryForTransfer (transferBytes sdu : Nat) :
    Except ResourceBufferShapeError ResourceBufferShape :=
  if transferBytes = 0 then .error .emptyTransfer
  else if sdu = 0 then .error .sduTooSmall
  else
    let partCount := divCeil transferBytes sdu
    match checkedResourceBufferBytes transferBytes partCount with
    | none => .error .sizeOverflow
    | some bufferBytes => .ok ⟨transferBytes, partCount, bufferBytes⟩

def ResourceBufferShapeError.build : ResourceBufferShapeError → BuildOutgoingResourceError
  | .emptyTransfer => .sealTooShort
  | .sduTooSmall => .sduTooSmall
  | .sizeOverflow => .dataTooLarge

structure ResourceBody where
  data : List UInt8
  compressedCandidate : Option (List UInt8)
  metadata : ResourceMetadata
  deriving DecidableEq, Repr

/-- The bytes of the metadata block that this segment carries. -/
def metadataBytes : ResourceMetadata → Nat
  | .none => 0
  | .packed packedLen => metadataPrefixLen + packedLen
  | .sentInFirstSegment _ => 0

def winningCandidate (candidate : Option (List UInt8)) (uncompressedLen : Nat) :
    Option (List UInt8) :=
  candidate.filter fun candidate => candidate.length < uncompressedLen

def metadataTooLarge : ResourceMetadata → Bool
  | .none => false
  | .packed packedLen => metadataMaxSize < packedLen
  | .sentInFirstSegment packedLen => metadataMaxSize < packedLen

def uncompressedStreamLen (envelopeLen : Nat) (body : ResourceBody) :
    Except BuildOutgoingResourceError Nat :=
  if metadataTooLarge body.metadata then .error .metadataTooLarge
  else if metadataBytes body.metadata + envelopeLen + body.data.length ≤ maxEfficientSize then
    .ok (metadataBytes body.metadata + envelopeLen + body.data.length)
  else .error .dataTooLarge

def shapeForStream (streamLen sdu : Nat) : Except BuildOutgoingResourceError ResourceBufferShape :=
  match ResourceBufferShape.tryForTransfer (sealedTransferBytes streamLen) sdu with
  | .error error => .error error.build
  | .ok shape => .ok shape

def outgoingResourceBufferShape (envelopeLen : Nat) (body : ResourceBody) (sdu : Nat) :
    Except BuildOutgoingResourceError ResourceBufferShape :=
  match uncompressedStreamLen envelopeLen body with
  | .error error => .error error
  | .ok uncompressedLen =>
    match winningCandidate body.compressedCandidate uncompressedLen with
    | none => shapeForStream uncompressedLen sdu
    | some candidate => shapeForStream candidate.length sdu

/-- The checks of `stage_raw`. -/
def stageRaw (transferCapacity streamLen sdu : Nat) :
    Except BuildOutgoingResourceError ResourceBufferShape :=
  if maxEfficientSize < streamLen then .error .dataTooLarge
  else if transferCapacity < sealedTransferBytes streamLen then .error .sealTooShort
  else shapeForStream streamLen sdu

/-- The buffers of a segment in `ingest_send_resource_segment_enveloped`, raw or built. -/
def segmentShape (transferCapacity : Nat) (lane : TrackLane) (external : Bool) (envelopeLen : Nat)
    (body : ResourceBody) (sdu : Nat) : Except BuildOutgoingResourceError ResourceBufferShape :=
  let stagedStreamBytes := metadataBytes body.metadata + envelopeLen + body.data.length
  if (lane == .staged || external) &&
      (winningCandidate body.compressedCandidate stagedStreamBytes).isNone then
    stageRaw transferCapacity stagedStreamBytes sdu
  else
    outgoingResourceBufferShape envelopeLen body sdu

/-- What the seal of a segment yields besides its lengths. -/
structure Minted where
  hash : Bytes 32
  saltNonce : Bytes 4
  originalHash : Bytes 32
  compressed : Bool
  names : List (Bytes 4)

/-- `names_flat`. -/
def namesFlat (names : List (Bytes 4)) : List UInt8 := names.flatMap Subtype.val

theorem length_namesFlat (names : List (Bytes 4)) : (namesFlat names).length = names.length * 4 := by
  induction names with
  | nil => rfl
  | cons name names ih =>
    have hcons : namesFlat (name :: names) = name.val ++ namesFlat names := rfl
    rw [hcons, List.length_append, ih, name.property, List.length_cons]
    omega

def correlationRequestId (requestBytes : RequestId → Bytes 16) :
    ResourceCorrelation → Option (Bytes 16)
  | .unsolicited => none
  | .request id => some (requestBytes id)
  | .response id => some (requestBytes id)

def isResponse : ResourceCorrelation → Bool
  | .unsolicited => false
  | .request _ => false
  | .response _ => true

def travels : ResourceMetadata → Bool
  | .none => false
  | .packed _ => true
  | .sentInFirstSegment _ => true

/-- The advertisement of a segment. The engine names request ids by numbers; `requestBytes`
gives their bytes. -/
def advertisementFor (requestBytes : RequestId → Bytes 16) (send : ResourceSend)
    (segment : ResourceSegment) (shape : ResourceBufferShape) (minted : Minted) :
    ResourceAdvertisement :=
  let names := namesFlat (minted.names.take shape.partCount)
  { transferBytes := shape.transferBytes
    dataBytes := segment.totalDataBytes + send.metadata.blockLen
    partCount := shape.partCount
    hash := minted.hash
    saltNonce := minted.saltNonce
    originalHash := minted.originalHash
    segmentIndex := segment.index
    totalSegments := segment.totalSegments
    requestId := correlationRequestId requestBytes send.correlation
    flags :=
      { encrypted := true
        compressed := minted.compressed
        split := decide (segment.totalSegments > 1)
        isRequest := send.correlation.isRequest
        isResponse := isResponse send.correlation
        hasMetadata := travels send.metadata }
    hashmap := names.take (min names.length (hashmapMaxLen * mapHashLen)) }

inductive LinkDataError where
  | payloadTooLong
  | bufferTooShort
  deriving DecidableEq, Repr

/-- `write_link_packet`: the length of the packet in a slot of `slotLen` bytes. -/
def writeLinkPacket (mtu : Nat) (plaintext : List UInt8) (slotLen : Nat) :
    Except LinkDataError Nat :=
  if plaintext.length > linkMdu mtu then .error .payloadTooLong
  else if slotLen < headerMinLen then .error .bufferTooShort
  else if slotLen - headerMinLen < sealedLen plaintext.length then .error .bufferTooShort
  else .ok (headerMinLen + sealedLen plaintext.length)

/-- The fill of `emit_resource_advertisement`. -/
def emitResourceAdvertisement (mtu : Nat) (a : ResourceAdvertisement) (slotLen : Nat) : Option Nat :=
  match a.write baseLinkMdu with
  | .error _ => none
  | .ok plaintext =>
    match writeLinkPacket mtu plaintext slotLen with
    | .error _ => none
    | .ok wireBytes => some wireBytes

/-- A segment that the send path accepts on a link of the given MTU: it passes the
validation, and its buffers have a shape. -/
def Accepted (w : World) (transferCapacity : Nat) (send : ResourceSend) (segment : ResourceSegment)
    (candidate : Option (List UInt8)) (envelopeLen : Nat) (external : Bool) (mtu : Nat)
    (shape : ResourceBufferShape) : Prop :=
  ∃ lane, w.validateOutgoingResourceSend send segment = .ok lane ∧
    segmentShape transferCapacity lane external envelopeLen
      { data := send.data, compressedCandidate := candidate, metadata := send.metadata }
      (resourceSdu mtu) = .ok shape

/-! ## The buffer suffices or not -/

variable {shape : ResourceBufferShape} {body : ResourceBody}

theorem shapeForStream_ok {streamLen sdu : Nat} (h : shapeForStream streamLen sdu = .ok shape) :
    shape.transferBytes = sealedTransferBytes streamLen ∧ sdu ≠ 0 ∧
      shape.partCount = divCeil (sealedTransferBytes streamLen) sdu := by
  rw [shapeForStream] at h
  cases hshape : ResourceBufferShape.tryForTransfer (sealedTransferBytes streamLen) sdu with
  | error error =>
    rw [hshape] at h
    cases h
  | ok found =>
    rw [hshape] at h
    cases h
    unfold ResourceBufferShape.tryForTransfer at hshape
    split at hshape <;> [cases hshape; skip]
    split at hshape <;> [cases hshape; skip]
    rename_i hsdu
    dsimp only at hshape
    split at hshape <;> cases hshape
    exact ⟨rfl, hsdu, rfl⟩

theorem outgoingResourceBufferShape_ok {envelopeLen sdu : Nat}
    (h : outgoingResourceBufferShape envelopeLen body sdu = .ok shape) :
    ∃ len, uncompressedStreamLen envelopeLen body = .ok len ∧ shapeForStream
      ((winningCandidate body.compressedCandidate len).elim len List.length) sdu = .ok shape := by
  unfold outgoingResourceBufferShape at h
  cases hlen : uncompressedStreamLen envelopeLen body with
  | error error =>
    rw [hlen] at h
    cases h
  | ok len =>
    rw [hlen] at h
    refine ⟨len, rfl, ?_⟩
    cases hwinner : winningCandidate body.compressedCandidate len <;> simpa [hwinner] using h

theorem exists_streamLen {transferCapacity envelopeLen sdu : Nat} {lane : TrackLane}
    {external : Bool}
    (h : segmentShape transferCapacity lane external envelopeLen body sdu = .ok shape) :
    ∃ streamLen ≤ maxEfficientSize, shape.transferBytes = sealedTransferBytes streamLen := by
  unfold segmentShape at h
  dsimp only at h
  split at h
  · unfold stageRaw at h
    split at h <;> [cases h; skip]
    split at h <;> [cases h; skip]
    exact ⟨_, by omega, (shapeForStream_ok h).1⟩
  obtain ⟨len, hlen, hshape⟩ := outgoingResourceBufferShape_ok h
  refine ⟨_, ?_, (shapeForStream_ok hshape).1⟩
  have hle : len ≤ maxEfficientSize := by
    unfold uncompressedStreamLen at hlen
    split_ifs at hlen with hmetadata hlarge
    cases hlen
    exact hlarge
  cases hwinner : winningCandidate body.compressedCandidate len with
  | none => exact hle
  | some candidate =>
    rw [winningCandidate, Option.filter_eq_some_iff] at hwinner
    exact Nat.le_trans (Nat.le_of_lt (of_decide_eq_true hwinner.2)) hle

theorem uintLen_transferBytes {streamLen : Nat} (h : streamLen ≤ maxEfficientSize) :
    uintLen (sealedTransferBytes streamLen) ≤ 5 := by
  have hsmall : sealedTransferBytes streamLen ≤ 0xFFFFFFFF := by
    unfold sealedTransferBytes resourceNonceLen maxEfficientSize at *
    omega
  unfold uintLen
  split <;> [omega; skip]
  split <;> [omega; skip]
  split <;> omega

theorem uintLen_le (value : Nat) : uintLen value ≤ 9 := by
  unfold uintLen
  split <;> [omega; skip]
  split <;> [omega; skip]
  split <;> [omega; skip]
  split <;> omega

/-- The segment has few parts, or its counters leave room for the request id. -/
def CountersFit (a : ResourceAdvertisement) : Prop :=
  a.partCount ≤ 69 ∨
    uintLen a.dataBytes + uintLen a.partCount + uintLen a.segmentIndex +
      uintLen a.totalSegments ≤ if a.requestId.isSome then 11 else 28

instance (a : ResourceAdvertisement) : Decidable (CountersFit a) := by
  unfold CountersFit
  infer_instance

section

variable {a : ResourceAdvertisement}

theorem length_encoded_le (htransfer : uintLen a.transferBytes ≤ 5)
    (hmap : a.hashmap.length = min (a.partCount * 4) (hashmapMaxLen * mapHashLen))
    (hfit : CountersFit a) : a.encoded.length ≤ baseLinkMdu := by
  have hbin := length_binBytes_le a.hashmap
  have hmax : hashmapMaxLen * mapHashLen = 296 := by decide
  have hbuffer : baseLinkMdu = 431 := by decide
  have hid : (ResourceAdvertisement.requestIdBytes a.requestId).length ≤ 18 := by
    rw [ResourceAdvertisement.length_requestIdBytes]
    split <;> omega
  have hdata := uintLen_le a.dataBytes
  have hindex := uintLen_le a.segmentIndex
  have htotal := uintLen_le a.totalSegments
  rw [a.length_encoded, hbuffer]
  rcases hfit with hfew | hcounters
  · have hone : uintLen a.partCount = 1 := if_pos (by omega)
    omega
  rw [ResourceAdvertisement.length_requestIdBytes]
  by_cases hsome : a.requestId.isSome = true
  · rw [if_pos hsome] at hcounters ⊢
    omega
  · rw [if_neg hsome] at hcounters ⊢
    omega

theorem write_ok (hlen : a.encoded.length ≤ baseLinkMdu)
    (hmap : a.hashmap.length ≤ hashmapMaxLen * mapHashLen)
    (hragged : a.hashmap.length % mapHashLen = 0) : a.write baseLinkMdu = .ok a.encoded := by
  have hmax : hashmapMaxLen * mapHashLen = 296 := by decide
  rw [ResourceAdvertisement.write, if_neg (Nat.not_lt.mpr hmap), if_neg (fun hne => hne hragged),
    a.writeFields_eq _ (by omega), put_nil_of_le hlen]

theorem writeLinkPacket_ok {mtu slotLen : Nat} {plaintext : List UInt8}
    (hlen : plaintext.length ≤ baseLinkMdu) (hmtu : broadcastMtu ≤ mtu)
    (hslot : linkDataFrameCeiling baseLinkMdu ≤ slotLen) :
    writeLinkPacket mtu plaintext slotLen = .ok (headerMinLen + sealedLen plaintext.length) := by
  have hceiling : linkDataFrameCeiling baseLinkMdu = 500 := by decide
  have hbuffer : baseLinkMdu = 431 := by decide
  have hheader : headerMinLen = 19 := rfl
  have hseal : sealedLen plaintext.length ≤ 480 := by
    unfold sealedLen ivLen blockLen macLen
    omega
  have hmdu : baseLinkMdu ≤ linkMdu mtu := by
    unfold baseLinkMdu linkMdu
    omega
  rw [writeLinkPacket, if_neg (by omega), if_neg (by omega), if_neg (by omega)]

end

def idleWorld : World :=
  { rows := [], chains := [⟨7, 5, none⟩], links := fun _ => .active, issued := [], log := [] }

/-- A segment of 150000 bytes of a response. -/
def longSegment : ResourceSend :=
  { id := 1, link := 7, offset := 0, data := List.replicate 150000 0, metadata := .none
    candidateWins := false, correlation := .response 3 }

def segmentOf (index totalSegments : Nat) : ResourceSegment :=
  { index := index, totalSegments := totalSegments, totalDataBytes := 209715200 }

def longShape : ResourceBufferShape :=
  { transferBytes := 150064, partCount := 324, bufferBytes := 151684 }

def zeros (n : Nat) : Bytes n := ⟨List.replicate n 0, List.length_replicate⟩

def zeros16 : RequestId → Bytes 16 := fun _ => zeros 16

def plainMinted (parts : Nat) : Minted :=
  { hash := zeros 32, saltNonce := zeros 4, originalHash := zeros 32, compressed := false
    names := List.replicate parts (zeros 4) }

theorem longShape_eq {data : List UInt8} (h : data.length = 150000) :
    segmentShape 1048640 .live false 0
      { data := data, compressedCandidate := none, metadata := .none }
      (resourceSdu broadcastMtu) = .ok longShape := by
  unfold segmentShape stageRaw outgoingResourceBufferShape uncompressedStreamLen
  simp only [h]
  decide

theorem longSegment_accepted {index totalSegments : Nat}
    (h : idleWorld.validateOutgoingResourceSend longSegment (segmentOf index totalSegments) =
      .ok .live) :
    Accepted idleWorld 1048640 longSegment (segmentOf index totalSegments) none 0 false broadcastMtu
      longShape :=
  ⟨.live, h, longShape_eq (by rw [longSegment, List.length_replicate])⟩

end Prns.Ports.Advertising
