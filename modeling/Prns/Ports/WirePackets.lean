import Mathlib.Data.FinEnum

/-!
# Packets on the wire

Model of `wire/header.rs`, with `flags.rs` and `context.rs`, of `PacketHash` in `dedup/core.rs`
and of the header that `maybe_forward` sends on. A header is one byte of flags, the hops, a
transport id if bit 6 of the flags is set, the address and the context byte. A relay rewrites
the hops, the transport id and the upper flags; the hash of a packet is over the rest.

The one `WireError`, a short buffer, is `none`. The reverse route that a relay remembers and
the longer life of the route that it used are left out.
-/

namespace Prns.Ports.Wire

def truncatedHashByteLen : Nat := 16
def headerMinLen : Nat := 2 + truncatedHashByteLen + 1

/-- A `TransportId` or a `WireAddress`. -/
abbrev TruncatedHash := { bytes : List UInt8 // bytes.length = truncatedHashByteLen }

inductive IfacFlag where
  | «open» | authenticated
  deriving DecidableEq

inductive ContextFlag where
  | unset | set
  deriving DecidableEq

inductive PropagationType where
  | broadcast | transport
  deriving DecidableEq

inductive DestinationType where
  | single | group | plain | link
  deriving DecidableEq

inductive PacketType where
  | data | announce | linkRequest | proof
  deriving DecidableEq

def oneBit {α : Type} (clear set : α) (bits : UInt8) : α :=
  if bits &&& 0b1 = 0b0 then clear else set

def twoBits {α : Type} (first second third fourth : α) (bits : UInt8) : α :=
  if bits &&& 0b11 = 0b00 then first
  else if bits &&& 0b11 = 0b01 then second
  else if bits &&& 0b11 = 0b10 then third
  else fourth

def IfacFlag.fromBits : UInt8 → IfacFlag := oneBit .open .authenticated
def ContextFlag.fromBits : UInt8 → ContextFlag := oneBit .unset .set
def PropagationType.fromBits : UInt8 → PropagationType := oneBit .broadcast .transport
def DestinationType.fromBits : UInt8 → DestinationType := twoBits .single .group .plain .link
def PacketType.fromBits : UInt8 → PacketType := twoBits .data .announce .linkRequest .proof

inductive WireContext where
  | none | resource | resourceAdvertisement | resourceRequest | resourceHashUpdate
  | resourceProof | resourceInitiatorCancel | resourceReceiverCancel | cacheRequest | request
  | response | pathResponse | command | commandStatus | channel | keepAlive | linkIdentify
  | linkClose | linkProof | linkRtt | linkRequestProof
  | unknown (byte : UInt8)
  deriving DecidableEq

namespace WireContext

/-- The contexts that have a name, with their bytes. -/
def named : List (UInt8 × WireContext) :=
  [(0x00, .none), (0x01, .resource), (0x02, .resourceAdvertisement), (0x03, .resourceRequest),
    (0x04, .resourceHashUpdate), (0x05, .resourceProof), (0x06, .resourceInitiatorCancel),
    (0x07, .resourceReceiverCancel), (0x08, .cacheRequest), (0x09, .request), (0x0A, .response),
    (0x0B, .pathResponse), (0x0C, .command), (0x0D, .commandStatus), (0x0E, .channel),
    (0xFA, .keepAlive), (0xFB, .linkIdentify), (0xFC, .linkClose), (0xFD, .linkProof),
    (0xFE, .linkRtt), (0xFF, .linkRequestProof)]

def fromByte (byte : UInt8) : WireContext := (named.lookup byte).getD (.unknown byte)

def toByte : WireContext → UInt8
  | .unknown byte => byte
  | context => ((named.find? (·.2 = context)).map Prod.fst).getD 0

theorem toByte_fromByte : ∀ byte, (fromByte byte).toByte = byte := by
  decide +kernel

end WireContext

/-- The fields of a header that are in its first byte. -/
structure Flags where
  ifacFlag : IfacFlag
  contextFlag : ContextFlag
  propagation : PropagationType
  destinationType : DestinationType
  packetType : PacketType
  deriving DecidableEq

structure WirePacketHeader extends Flags where
  hops : UInt8
  transportId : Option TruncatedHash
  address : TruncatedHash
  context : WireContext

def hashedFlagBits : UInt8 := 0b0000_1111
def type2Bit : UInt8 := 0b0100_0000

namespace Flags

def ofByte (byte : UInt8) : Flags where
  ifacFlag := .fromBits (byte >>> 7)
  contextFlag := .fromBits (byte >>> 5)
  propagation := .fromBits (byte >>> 4)
  destinationType := .fromBits (byte >>> 2)
  packetType := .fromBits byte

def hashed (flags : Flags) : UInt8 :=
  (UInt8.ofNat flags.destinationType.ctorIdx <<< 2) ||| UInt8.ofNat flags.packetType.ctorIdx

def toByte (flags : Flags) (type2 : Bool) : UInt8 :=
  let headerTypeBit : UInt8 := if type2 then 1 else 0
  (UInt8.ofNat flags.ifacFlag.ctorIdx <<< 7) ||| (headerTypeBit <<< 6)
    ||| (UInt8.ofNat flags.contextFlag.ctorIdx <<< 5)
    ||| (UInt8.ofNat flags.propagation.ctorIdx <<< 4)
    ||| (UInt8.ofNat flags.destinationType.ctorIdx <<< 2)
    ||| UInt8.ofNat flags.packetType.ctorIdx

theorem toByte_spec (flags : Flags) (type2 : Bool) :
    ofByte (flags.toByte type2) = flags ∧
      ((flags.toByte type2 >>> 6) &&& 0b1 = 0b1 ↔ type2 = true) ∧
      (flags.toByte type2 &&& type2Bit = type2Bit ↔ type2 = true) ∧
      flags.toByte type2 &&& hashedFlagBits = flags.hashed := by
  obtain ⟨ifac, context, propagation, destination, type⟩ := flags
  cases ifac <;> cases context <;> cases propagation <;> cases destination <;> cases type <;>
    cases type2 <;> decide

theorem toByte_ofByte : ∀ byte : UInt8,
    (ofByte byte).toByte (decide ((byte >>> 6) &&& 0b1 = 0b1)) = byte := by
  decide +kernel

end Flags

def splitFirstChunk (bytes : List UInt8) : Option (TruncatedHash × List UInt8) :=
  if h : truncatedHashByteLen ≤ bytes.length then
    some (⟨bytes.take truncatedHashByteLen, List.length_take_of_le h⟩,
      bytes.drop truncatedHashByteLen)
  else none

theorem splitFirstChunk_append (hash : TruncatedHash) (rest : List UInt8) :
    splitFirstChunk (hash.val ++ rest) = some (hash, rest) := by
  rw [splitFirstChunk, dif_pos (by simp [hash.2])]
  simp [List.take_left' hash.2, List.drop_left' hash.2]

theorem eq_of_splitFirstChunk {bytes rest : List UInt8} {hash : TruncatedHash}
    (h : splitFirstChunk bytes = some (hash, rest)) : bytes = hash.val ++ rest := by
  rw [splitFirstChunk] at h
  split_ifs at h
  cases h
  exact (List.take_append_drop _ bytes).symm

namespace WirePacketHeader

def splitTransportId (flags : UInt8) (rest : List UInt8) :
    Option (Option TruncatedHash × List UInt8) :=
  if (flags >>> 6) &&& 0b1 = 0b1 then (splitFirstChunk rest).map (Prod.map some id)
  else some (none, rest)

def parse : List UInt8 → Option (WirePacketHeader × List UInt8)
  | flags :: hops :: rest => do
    let (transportId, rest) ← splitTransportId flags rest
    let (address, rest) ← splitFirstChunk rest
    let context ← rest.head?
    return ({ Flags.ofByte flags with hops, transportId, address, context := .fromByte context },
      rest.tail)
  | _ => none

variable (header : WirePacketHeader)

def wireLen : Nat :=
  headerMinLen + if header.transportId.isSome then truncatedHashByteLen else 0

/-- What `write` puts into the buffer. -/
def bytes : List UInt8 :=
  header.toByte header.transportId.isSome :: header.hops ::
    (header.transportId.elim [] Subtype.val ++ (header.address.val ++ [header.context.toByte]))

def write (bufLen : Nat) : Option (List UInt8) :=
  if bufLen < header.wireLen then none else some header.bytes

/-- The context is one that `parse` can make. -/
def Canonical : Prop := .fromByte header.context.toByte = header.context

variable {header} {payload : List UInt8}

theorem parse_bytes (hcontext : header.Canonical) (payload : List UInt8) :
    parse (header.bytes ++ payload) = some (header, payload) := by
  obtain ⟨flags, hops, id, address, context⟩ := header
  obtain ⟨hflags, htype, -⟩ := flags.toByte_spec id.isSome
  rw [Canonical] at hcontext
  simp only [bytes, List.cons_append, parse, splitTransportId, htype, hflags]
  cases id <;> simp [splitFirstChunk_append, hcontext]

theorem eq_of_parse {bytes : List UInt8} (h : parse bytes = some (header, payload)) :
    bytes = header.bytes ++ payload ∧ header.Canonical := by
  obtain _ | ⟨flags, _ | ⟨hops, rest⟩⟩ := bytes
  · cases h
  · cases h
  simp only [parse, splitTransportId, Option.bind_eq_bind, Option.bind_eq_some_iff] at h
  obtain ⟨⟨id, behindId⟩, hid, ⟨address, behind⟩, haddress, context, hcontext, ⟨⟩⟩ := h
  have hflags := Flags.toByte_ofByte flags
  have hrest : rest = id.elim [] Subtype.val ++ behindId ∧
      decide ((flags >>> 6) &&& 0b1 = 0b1) = id.isSome := by
    split_ifs at hid with htype
    · obtain ⟨⟨hash, tail⟩, hsplit, ⟨⟩⟩ := Option.map_eq_some_iff.mp hid
      exact ⟨eq_of_splitFirstChunk hsplit, by simpa⟩
    · cases hid
      exact ⟨rfl, by simpa⟩
  rw [hrest.2] at hflags
  obtain ⟨tail, rfl⟩ := List.head?_eq_some_iff.mp hcontext
  rw [hrest.1, show behindId = _ from eq_of_splitFirstChunk haddress]
  simp [bytes, hflags, Canonical, WireContext.toByte_fromByte]

/-- **Headers round trip**: what parses is written back byte for byte, and what is written
parses to the header, if its context is one that `parse` can make. -/
theorem header_round_trip :
    (∀ bytes (header : WirePacketHeader) payload, parse bytes = some (header, payload) →
      ∀ bufLen, header.wireLen ≤ bufLen →
        ∃ written, header.write bufLen = some written ∧ written ++ payload = bytes) ∧
    ∀ (header : WirePacketHeader) bufLen written payload, header.Canonical →
      header.write bufLen = some written → parse (written ++ payload) = some (header, payload) := by
  constructor
  · intro bytes header payload h bufLen hlen
    rw [write, if_neg (Nat.not_lt.mpr hlen)]
    exact ⟨_, rfl, (eq_of_parse h).1.symm⟩
  · intro header bufLen written payload hcontext h
    rw [write] at h
    split_ifs at h
    cases h
    exact parse_bytes hcontext payload

end WirePacketHeader

open WirePacketHeader

section

abbrev PacketHash := { bytes : List UInt8 // bytes.length = 32 }

variable (sha256 : List UInt8 → PacketHash) {wire final payload : List UInt8}
  {header : WirePacketHeader}

def PacketHash.ofWirePacket : List UInt8 → Option PacketHash
  | [] => none
  | flags :: rest =>
    -- `rest` begins with the hops
    let hashableFrom := if flags &&& type2Bit = type2Bit then 1 + truncatedHashByteLen else 1
    if hashableFrom ≤ rest.length then
      some (sha256 ((flags &&& hashedFlagBits) :: rest.drop hashableFrom))
    else none

/-- `of_fields`, of the fields of a header. -/
def PacketHash.ofFields (header : WirePacketHeader) (payload : List UInt8) : PacketHash :=
  sha256 (header.hashed :: (header.address.val ++ header.context.toByte :: payload))

theorem ofWirePacket_of_parse (h : parse wire = some (header, payload)) :
    PacketHash.ofWirePacket sha256 wire = some (.ofFields sha256 header payload) := by
  obtain ⟨rfl, -⟩ := eq_of_parse h
  obtain ⟨flags, hops, id, address, context⟩ := header
  obtain ⟨-, -, htype, hbits⟩ := flags.toByte_spec id.isSome
  simp only [bytes, List.cons_append, PacketHash.ofWirePacket, htype, hbits, PacketHash.ofFields]
  cases id with
  | none => simp
  | some id => simp [id.2, Nat.add_comm 1, List.drop_left' id.2]

inductive NextHop where
  | direct
  | via (transportId : TruncatedHash)

structure ForwardingRoute (I : Type) where
  hops : Nat
  nextHop : NextHop
  receivingInterface : I

/-- A relay as a packet arrives at it. -/
structure Relay (I : Type) where
  forwardingRouteFor : TruncatedHash → Option (ForwardingRoute I)
  localHopCountOverride : Option UInt8
  isLocalClient : I → Bool
  sourceInterface : I
  receivedHops : UInt8
  bufLen : Nat

def PacketToForward.toWire (header : WirePacketHeader) (payload : List UInt8) (bufLen : Nat) :
    Option (List UInt8) := do
  let written ← header.write bufLen
  if bufLen < header.wireLen + payload.length then none else some (written ++ payload)

namespace Relay

variable {I : Type} (relay : Relay I)

def hopsAcrossLocalBoundary (outboundInterface : I) : UInt8 :=
  let crossesLocalBoundary :=
    relay.isLocalClient relay.sourceInterface && !relay.isLocalClient outboundInterface
  match relay.localHopCountOverride, crossesLocalBoundary with
  | some hops, true => hops
  | _, _ => relay.receivedHops

/-- The header that goes out, and the interface. -/
def maybeForward (header : WirePacketHeader) : Option (WirePacketHeader × I) :=
  if header.destinationType ≠ .single ∨ header.packetType ≠ .data then none
  else
    (relay.forwardingRouteFor header.address).bind fun route =>
      let hops := relay.hopsAcrossLocalBoundary route.receivingInterface
      if 1 < route.hops then
        match route.nextHop with
        | .via next => some ({ header with hops, transportId := some next }, route.receivingInterface)
        | .direct => none
      else some
        ({ header with ifacFlag := .open, contextFlag := .unset, propagation := .broadcast, hops
                       transportId := none }, route.receivingInterface)

def forward (wire : List UInt8) : Option (List UInt8) := do
  let (header, payload) ← parse wire
  let (forwarded, _) ← relay.maybeForward header
  PacketToForward.toWire forwarded payload relay.bufLen

end Relay

/-- The fields that name the packet. -/
def identity (header : WirePacketHeader) :
    DestinationType × PacketType × TruncatedHash × WireContext :=
  (header.destinationType, header.packetType, header.address, header.context)

variable {I : Type}

theorem identity_maybeForward {relay : Relay I} {forwarded : WirePacketHeader × I}
    (h : relay.maybeForward header = some forwarded) :
    identity forwarded.1 = identity header := by
  unfold Relay.maybeForward at h
  split_ifs at h
  obtain ⟨route, -, h⟩ := Option.bind_eq_some_iff.mp h
  dsimp only at h
  split_ifs at h
  · split at h
    · cases h
      rfl
    · cases h
  · cases h
    rfl

theorem parse_forward {relay : Relay I} (hparse : parse wire = some (header, payload))
    (h : relay.forward wire = some final) :
    ∃ header', parse final = some (header', payload) ∧ identity header' = identity header := by
  simp only [Relay.forward, hparse, PacketToForward.toWire, write, Option.bind_eq_bind,
    Option.bind_some, Option.bind_eq_some_iff] at h
  obtain ⟨⟨forwarded, _⟩, hforward, written, hwritten, h⟩ := h
  split_ifs at hwritten h
  cases hwritten
  cases h
  have hsame := identity_maybeForward hforward
  refine ⟨forwarded, parse_bytes ?_ payload, hsame⟩
  rw [Canonical, show forwarded.context = header.context from congrArg (·.2.2.2) hsame]
  exact (eq_of_parse hparse).2

/-- **A packet keeps its identity along its path**: however many relays forward it, and whatever
they know, its destination, types, context and payload are those it was sent with. So is its
hash, which each of them takes of the fields and the receiver of a proof of the bytes. -/
theorem relayed_packet_keeps_identity (path : List (Relay I)) (wire final : List UInt8)
    (header : WirePacketHeader) (payload : List UInt8)
    (hparse : parse wire = some (header, payload))
    (hpath : path.foldlM (fun wire relay => relay.forward wire) wire = some final) :
    (∃ header', parse final = some (header', payload) ∧ identity header' = identity header ∧
      PacketHash.ofFields sha256 header' payload = PacketHash.ofFields sha256 header payload) ∧
    PacketHash.ofWirePacket sha256 final = PacketHash.ofWirePacket sha256 wire := by
  have hend : ∃ header', parse final = some (header', payload) ∧
      identity header' = identity header := by
    induction path generalizing wire header with
    | nil =>
      cases hpath
      exact ⟨header, hparse, rfl⟩
    | cons relay path ih =>
      obtain ⟨next, hnext, hrest⟩ := Option.bind_eq_some_iff.mp hpath
      obtain ⟨header', hparse', hsame⟩ := parse_forward hparse hnext
      obtain ⟨last, hlast, hsame'⟩ := ih next header' hparse' hrest
      exact ⟨last, hlast, hsame'.trans hsame⟩
  obtain ⟨header', hparse', hsame⟩ := hend
  have hhash : PacketHash.ofFields sha256 header' payload =
      PacketHash.ofFields sha256 header payload := by
    simp only [identity, Prod.mk.injEq] at hsame
    simp only [PacketHash.ofFields, Flags.hashed, hsame]
  refine ⟨⟨header', hparse', hsame, hhash⟩, ?_⟩
  rw [ofWirePacket_of_parse sha256 hparse', ofWirePacket_of_parse sha256 hparse, hhash]

/-- A relay two hops before the destination puts its next hop into the header. -/
theorem relayed_packet_keeps_identity_via :
    PacketHash.ofWirePacket (fun _ => ⟨List.replicate 32 0, rfl⟩)
        ([0x40, 8] ++ List.replicate 16 1 ++ List.replicate 17 0) =
      PacketHash.ofWirePacket (fun _ => ⟨List.replicate 32 0, rfl⟩)
        ([0x00, 7] ++ List.replicate 17 0) :=
  (relayed_packet_keeps_identity _
    [({ forwardingRouteFor := fun _ => some ⟨2, .via ⟨List.replicate 16 1, rfl⟩, ()⟩
        localHopCountOverride := none
        isLocalClient := fun _ => false
        sourceInterface := ()
        receivedHops := 8
        bufLen := 500 } : Relay Unit)]
    _ _ _ [] rfl rfl).2

end

end Prns.Ports.Wire
