import Prns.Verified.Bytes

/-!
# Sealed snapshots

Model of `persistence/envelope.rs` and `persistence/timebase.rs`: the frame every
snapshot travels in (magic, version, region tag, payload length, payload, CRC-32)
and the clock snapshot in it. The CRC is the portable one; the accelerated one is
tested against it in the source.
-/

namespace Prns.Ports.Persistence

open Verified

def crcBit (crc : UInt32) : UInt32 :=
  (crc >>> 1) ^^^ (0xEDB88320 &&& (0 - (crc &&& 1)))

def crcByte (crc : UInt32) (byte : UInt8) : UInt32 :=
  Nat.repeat crcBit 8 (crc ^^^ byte.toUInt32)

def crc32 (bytes : List UInt8) : UInt32 := ~~~ bytes.foldl crcByte 0xFFFFFFFF

/-! ## The envelope -/

inductive SnapshotRegion where
  | timebase
  | routingTable
  | tunnels
  | selfRatchets
  | destinationIdentities
  | remoteControlControllerGrants
  | remoteControlTargetAccesses
  deriving DecidableEq, Repr

def SnapshotRegion.tag : SnapshotRegion → UInt8
  | .timebase => 0x01
  | .routingTable => 0x02
  | .tunnels => 0x03
  | .selfRatchets => 0x04
  | .destinationIdentities => 0x05
  | .remoteControlControllerGrants => 0x06
  | .remoteControlTargetAccesses => 0x07

def snapshotMagic : List UInt8 := [0x50, 0x52, 0x4E, 0x53]

def snapshotVersion : UInt8 := 1

def snapshotHeaderLen : Nat := 10

def snapshotOverheadLen : Nat := snapshotHeaderLen + 4

inductive SnapshotOpenError where
  | truncated
  | badMagic
  | unsupportedVersion (found : UInt8)
  | wrongRegion (found : UInt8)
  | checksumMismatch
  deriving DecidableEq, Repr

/-- The header and the payload, which the checksum covers. -/
def snapshotBody (region : SnapshotRegion) (payload : List UInt8) : List UInt8 :=
  snapshotMagic ++ [snapshotVersion, region.tag] ++ leBytes 4 payload.length ++ payload

/-- The bytes written to a buffer of `outLen` bytes, or `none` if it is too short. -/
def sealSnapshot (region : SnapshotRegion) (payload : List UInt8) (outLen : Nat) :
    Option (List UInt8) :=
  if outLen < snapshotOverheadLen + payload.length then none
  else
    let body := snapshotBody region payload
    some (body ++ leBytes 4 (crc32 body).toNat)

def openSnapshot (region : SnapshotRegion) (bytes : List UInt8) :
    Except SnapshotOpenError (List UInt8) :=
  if bytes.length < snapshotOverheadLen then .error .truncated
  else if bytes.take 4 ≠ snapshotMagic then .error .badMagic
  else if bytes.getD 4 0 ≠ snapshotVersion then .error (.unsupportedVersion (bytes.getD 4 0))
  else if bytes.getD 5 0 ≠ region.tag then .error (.wrongRegion (bytes.getD 5 0))
  else
    let payloadLen := ofLeBytes ((bytes.drop 6).take 4)
    if bytes.length < snapshotOverheadLen + payloadLen then .error .truncated
    else
      let checksumAt := snapshotHeaderLen + payloadLen
      let found := UInt32.ofNat (ofLeBytes ((bytes.drop checksumAt).take 4))
      if found ≠ crc32 (bytes.take checksumAt) then .error .checksumMismatch
      else .ok ((bytes.take checksumAt).drop snapshotHeaderLen)

theorem length_snapshotBody (region : SnapshotRegion) (payload : List UInt8) :
    (snapshotBody region payload).length = snapshotHeaderLen + payload.length := by
  simp [snapshotBody, snapshotMagic, snapshotHeaderLen]
  omega

theorem openSnapshot_seal (region : SnapshotRegion) {payload rest : List UInt8}
    (h : payload.length < 2 ^ 32) :
    openSnapshot region (snapshotBody region payload ++
      leBytes 4 (crc32 (snapshotBody region payload)).toNat ++ rest) = .ok payload := by
  have hbody := length_snapshotBody region payload
  have hpayload : (snapshotBody region payload).drop snapshotHeaderLen = payload := rfl
  obtain ⟨bytes, hbytes⟩ : ∃ bytes, bytes = snapshotBody region payload ++
    leBytes 4 (crc32 (snapshotBody region payload)).toNat ++ rest := ⟨_, rfl⟩
  have hfront : bytes.take 4 = snapshotMagic ∧ bytes.getD 4 0 = snapshotVersion ∧
      bytes.getD 5 0 = region.tag ∧ (bytes.drop 6).take 4 = leBytes 4 payload.length := by
    rw [hbytes]
    exact ⟨rfl, rfl, rfl, rfl⟩
  have htake : bytes.take (snapshotHeaderLen + payload.length) = snapshotBody region payload := by
    rw [hbytes, List.append_assoc, ← hbody, List.take_left]
  have hcrc : (bytes.drop (snapshotHeaderLen + payload.length)).take 4 =
      leBytes 4 (crc32 (snapshotBody region payload)).toNat := by
    rw [hbytes, List.append_assoc, ← hbody, List.drop_left]
    exact List.take_left' (length_leBytes 4 _)
  have htotal : snapshotOverheadLen + payload.length ≤ bytes.length := by
    rw [hbytes, List.length_append, List.length_append, hbody, length_leBytes]
    unfold snapshotOverheadLen
    omega
  obtain ⟨hmagic, hversion, hregion, hlen⟩ := hfront
  rw [← hbytes]
  unfold openSnapshot
  simp only [hmagic, hversion, hregion, hlen]
  rw [ofLeBytes_leBytes (by omega), htake, hcrc, hpayload, ofLeBytes_leBytes (UInt32.toNat_lt _),
    UInt32.ofNat_toNat, if_neg (by omega), if_neg (fun hne => hne rfl),
    if_neg (fun hne => hne rfl), if_neg (fun hne => hne rfl), if_neg (by omega),
    if_neg (fun hne => hne rfl)]

inductive SnapshotReadError where
  | envelope (e : SnapshotOpenError)
  | malformedPayload
  deriving DecidableEq, Repr

def timebasePayloadLen : Nat := 8

def timebaseSnapshotLen : Nat := snapshotOverheadLen + timebasePayloadLen

def writeTimebaseSnapshot (highWater : UInt64) (outLen : Nat) : Option (List UInt8) :=
  sealSnapshot .timebase (leBytes 8 highWater.toNat) outLen

def readTimebaseSnapshot (bytes : List UInt8) : Except SnapshotReadError UInt64 :=
  match openSnapshot .timebase bytes with
  | .error e => .error (.envelope e)
  | .ok payload =>
      if payload.length ≠ timebasePayloadLen then .error .malformedPayload
      else .ok (UInt64.ofNat (ofLeBytes payload))

theorem readTimebaseSnapshot_write {highWater : UInt64} {outLen : Nat}
    {written : List UInt8} (h : writeTimebaseSnapshot highWater outLen = some written)
    (rest : List UInt8) : readTimebaseSnapshot (written ++ rest) = .ok highWater := by
  unfold writeTimebaseSnapshot sealSnapshot at h
  split at h
  · exact nomatch h
  injection h with h
  rw [← h, readTimebaseSnapshot, openSnapshot_seal .timebase (by rw [length_leBytes]; decide)]
  simp only
  rw [if_neg (by rw [length_leBytes]; decide), ofLeBytes_leBytes (UInt64.toNat_lt _),
    UInt64.ofNat_toNat]

end Prns.Ports.Persistence
