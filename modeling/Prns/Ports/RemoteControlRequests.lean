import Mathlib.Data.List.Basic
import Prns.Verified.Bytes

/-!
# Remote control requests

Model of the request kinds and request sets of `remote_control/message.rs` and of the
authorities, grants and accesses of `remote_control/core.rs`. A request set is a bitmap
with the number of its kinds beside it. The fields of the structure say that the two
agree and that no bit stands for anything but a kind, so the sets are exactly the values
the source can build.
-/

namespace Prns.Ports.RemoteControl

open Verified.ByteBits

inductive RemoteControlRequestKind where
  | describe
  | announceSelf
  | inventoryInterfaces
  | setInterfacePower
  | sleepRadios
  | wakeRadios
  | setInterfaceMode
  | setInterfaceGroup
  | inventoryInterfacePeers
  | inventoryInterfaceConfig
  | setInterfaceLoRaProfile
  | describeBuild
  | setInterfaceWifiStation
  | inventoryControllers
  | authorizeController
  | revokeController
  | describePower
  | setSystemPower
  | setGnssPower
  | setDisplayVisibility
  | setDisplayAutoOff
  | setStationUplink
  | setEspRadioMode
  | stageWifiCredentials
  | activateWifiCredentials
  | confirmWifiCredentials
  | cancelWifiCredentials
  | inspectWifiTransaction
  | inventoryInterfaceDiscoveryGroups
  | replaceInterfaceDiscoveryGroups
  | appMessage
  | watchInterfaces
  | setNodeName
  | describeNodeName
  | inspectRadio
  | configureRadio
  deriving DecidableEq, Repr

namespace RemoteControlRequestKind

def wireValue : RemoteControlRequestKind → UInt8
  | .describe => 0x01
  | .announceSelf => 0x02
  | .inventoryInterfaces => 0x03
  | .setInterfacePower => 0x04
  | .sleepRadios => 0x05
  | .wakeRadios => 0x06
  | .setInterfaceMode => 0x07
  | .setInterfaceGroup => 0x08
  | .inventoryInterfacePeers => 0x09
  | .inventoryInterfaceConfig => 0x0A
  | .setInterfaceLoRaProfile => 0x0B
  | .describeBuild => 0x0C
  | .setInterfaceWifiStation => 0x0D
  | .inventoryControllers => 0x0E
  | .authorizeController => 0x0F
  | .revokeController => 0x10
  | .describePower => 0x11
  | .setSystemPower => 0x12
  | .setGnssPower => 0x13
  | .setDisplayVisibility => 0x14
  | .setDisplayAutoOff => 0x15
  | .setStationUplink => 0x16
  | .setEspRadioMode => 0x17
  | .stageWifiCredentials => 0x18
  | .activateWifiCredentials => 0x19
  | .confirmWifiCredentials => 0x1A
  | .cancelWifiCredentials => 0x1B
  | .inspectWifiTransaction => 0x1C
  | .inventoryInterfaceDiscoveryGroups => 0x1D
  | .replaceInterfaceDiscoveryGroups => 0x1E
  | .appMessage => 0x1F
  | .watchInterfaces => 0x20
  | .setNodeName => 0x21
  | .describeNodeName => 0x22
  | .inspectRadio => 0x23
  | .configureRadio => 0x24

/-- Every kind, in the order of the declaration. -/
def all : List RemoteControlRequestKind :=
  [.describe, .announceSelf, .inventoryInterfaces, .setInterfacePower, .sleepRadios, .wakeRadios,
    .setInterfaceMode, .setInterfaceGroup, .inventoryInterfacePeers, .inventoryInterfaceConfig,
    .setInterfaceLoRaProfile, .describeBuild, .setInterfaceWifiStation, .inventoryControllers,
    .authorizeController, .revokeController, .describePower, .setSystemPower, .setGnssPower,
    .setDisplayVisibility, .setDisplayAutoOff, .setStationUplink, .setEspRadioMode,
    .stageWifiCredentials, .activateWifiCredentials, .confirmWifiCredentials,
    .cancelWifiCredentials, .inspectWifiTransaction, .inventoryInterfaceDiscoveryGroups,
    .replaceInterfaceDiscoveryGroups, .appMessage, .watchInterfaces, .setNodeName,
    .describeNodeName, .inspectRadio, .configureRadio]

def fromWire (value : UInt8) : Option RemoteControlRequestKind :=
  all.find? fun kind => kind.wireValue == value

def requiresAdministrator : RemoteControlRequestKind → Bool
  | .inventoryControllers | .authorizeController | .revokeController => true
  | _ => false

variable (kind : RemoteControlRequestKind)

theorem fromWire_wireValue :
    fromWire kind.wireValue = some kind := by
  cases kind <;> rfl

theorem wireValue_inj {a b : RemoteControlRequestKind} (h : a.wireValue = b.wireValue) : a = b := by
  have hfrom := fromWire_wireValue a
  rw [h, fromWire_wireValue] at hfrom
  exact (Option.some.inj hfrom).symm

theorem mem_all : kind ∈ all := by
  cases kind <;> decide

theorem nodup_all : all.Nodup := by decide

theorem wireValue_lt : kind.wireValue.toNat < 40 := by
  cases kind <;> decide

end RemoteControlRequestKind

/-! ## Bitmaps -/

/-- `REQUEST_KIND_BITMAP_LEN`. -/
def requestKindBitmapLen : Nat := 5

/-- Bit `i` of a bitmap, counted from the lowest bit of the first byte. -/
def bitAt (bits : List UInt8) (i : Nat) : Bool := bit (bits.getD (i / 8) 0) (i % 8)

def requestKindPosition (kind : RemoteControlRequestKind) : Nat × UInt8 :=
  ((kind.wireValue >>> 3).toNat, (1 : UInt8) <<< (kind.wireValue &&& 0x07))

def supportsIn (bits : List UInt8) (kind : RemoteControlRequestKind) : Bool :=
  (bits[(requestKindPosition kind).1]?).any fun byte => byte &&& (requestKindPosition kind).2 != 0

def countOnes (byte : UInt8) : Nat := (List.range 8).countP (bit byte)

theorem bit_shift_one :
    ∀ j < 8, ∀ i < 8, bit ((1 : UInt8) <<< UInt8.ofNat j) i = decide (i = j) := by
  decide

theorem bit_zero (i : Nat) : bit 0 i = false := BitVec.getLsbD_zero

theorem and_mask_ne_zero (byte : UInt8) {j : Nat} (hj : j < 8) :
    (byte &&& ((1 : UInt8) <<< UInt8.ofNat j) != 0) = bit byte j := by
  cases hbit : bit byte j with
  | true =>
    rw [bne_iff_ne]
    intro hzero
    have hand := bit_and byte ((1 : UInt8) <<< UInt8.ofNat j) j
    rw [hzero, bit_zero, hbit, bit_shift_one j hj j hj] at hand
    simp at hand
  | false =>
    have hzero : byte &&& ((1 : UInt8) <<< UInt8.ofNat j) = 0 := by
      apply bit_ext
      intro i hi
      rw [bit_and, bit_shift_one j hj i hi, bit_zero]
      by_cases h : i = j
      · rw [h, hbit, Bool.false_and]
      · rw [decide_eq_false h, Bool.and_false]
    rw [hzero]
    rfl

theorem requestKindPosition_eq (kind : RemoteControlRequestKind) : requestKindPosition kind =
      (kind.wireValue.toNat / 8, (1 : UInt8) <<< UInt8.ofNat (kind.wireValue.toNat % 8)) := by
  cases kind <;> decide

theorem supportsIn_eq_bitAt (bits : List UInt8) (kind : RemoteControlRequestKind) :
    supportsIn bits kind = bitAt bits kind.wireValue.toNat := by
  rw [supportsIn, requestKindPosition_eq, bitAt, List.getD_eq_getElem?_getD]
  cases bits[kind.wireValue.toNat / 8]? with
  | none => exact (bit_zero _).symm
  | some byte => exact and_mask_ne_zero byte (Nat.mod_lt _ (by decide))

variable {bits : List UInt8}

theorem bitAt_modify {k : Nat} (hk : k / 8 < bits.length) (i : Nat) :
    bitAt (bits.modify (k / 8) (· ||| (1 : UInt8) <<< UInt8.ofNat (k % 8))) i =
      (bitAt bits i || decide (i = k)) := by
  rw [bitAt, bitAt, List.getD_eq_getElem?_getD, List.getD_eq_getElem?_getD, List.getElem?_modify]
  by_cases hbyte : k / 8 = i / 8
  · have hlt : i / 8 < bits.length := hbyte ▸ hk
    simp only [if_pos hbyte, List.getElem?_eq_getElem hlt]
    show bit (bits[i / 8] ||| (1 : UInt8) <<< UInt8.ofNat (k % 8)) (i % 8) = _
    rw [bit_or, bit_shift_one (k % 8) (Nat.mod_lt _ (by decide)) (i % 8) (Nat.mod_lt _ (by decide))]
    have hsame : decide (i % 8 = k % 8) = decide (i = k) := decide_eq_decide.mpr (by omega)
    rw [hsame]
    rfl
  · have hne : i ≠ k := fun h => hbyte (by rw [h])
    simp only [if_neg hbyte, decide_eq_false hne, Bool.or_false]
    rw [id_map']

theorem bitAt_zipWith_and {left right : List UInt8} (h : left.length = right.length) (i : Nat) :
    bitAt (List.zipWith (· &&& ·) left right) i = (bitAt left i && bitAt right i) := by
  rw [bitAt, bitAt, bitAt, ← bit_and]
  congr 1
  rw [List.getD_eq_getElem?_getD, List.getD_eq_getElem?_getD, List.getD_eq_getElem?_getD,
    List.getElem?_zipWith]
  by_cases hlt : i / 8 < left.length
  · rw [List.getElem?_eq_getElem hlt, List.getElem?_eq_getElem (h ▸ hlt)]
    rfl
  · rw [List.getElem?_eq_none (by omega), List.getElem?_eq_none (by omega)]
    rfl

theorem sum_countOnes (bits : List UInt8) :
    (bits.map countOnes).sum = (List.range (8 * bits.length)).countP (bitAt bits) := by
  induction bits with
  | nil => rfl
  | cons byte bits ih =>
    have hhead : (List.range 8).countP (bitAt (byte :: bits)) = countOnes byte := by
      apply List.countP_congr
      intro i hi
      rw [bitAt, Nat.div_eq_of_lt (List.mem_range.mp hi), Nat.mod_eq_of_lt (List.mem_range.mp hi)]
      rfl
    have htail : ∀ i, bitAt (byte :: bits) (8 + i) = bitAt bits i := by
      intro i
      rw [bitAt, bitAt, show (8 + i) / 8 = i / 8 + 1 by omega, Nat.add_mod_left]
      rfl
    rw [List.map_cons, List.sum_cons, ih, List.length_cons,
      show 8 * (bits.length + 1) = 8 + 8 * bits.length by omega, List.range_add,
      List.countP_append, hhead, List.countP_map]
    congr 2
    funext i
    exact (htail i).symm

/-- Every bit that is set is the bit of a kind. -/
def OnlyKinds (bits : List UInt8) : Prop :=
  ∀ i < 40, bitAt bits i = true → ∃ kind : RemoteControlRequestKind, kind.wireValue.toNat = i

open RemoteControlRequestKind

theorem map_wireValue_all :
    all.map (fun kind => kind.wireValue.toNat) = List.range' 1 36 := by
  decide

theorem countP_kinds (h : OnlyKinds bits) : (List.range 40).countP (bitAt bits) =
      all.countP (supportsIn bits) := by
  have hclear : ∀ i < 40, (∀ kind : RemoteControlRequestKind, kind.wireValue.toNat ≠ i) →
      bitAt bits i = false := by
    intro i hi hnone
    rw [← Bool.not_eq_true]
    intro hset
    obtain ⟨kind, hkind⟩ := h i hi hset
    exact hnone kind hkind
  have hno : ∀ i ∈ [0, 37, 38, 39], bitAt bits i = false := by
    intro i hi
    refine hclear i (by grind) fun kind => ?_
    cases kind <;> revert i <;> decide
  have hsplit : List.range 40 = [0] ++ List.range' 1 36 ++ [37, 38, 39] := by decide
  have hmid : (List.range' 1 36).countP (bitAt bits) =
      all.countP (supportsIn bits) := by
    rw [← map_wireValue_all, List.countP_map]
    congr 1
    funext kind
    exact (supportsIn_eq_bitAt bits kind).symm
  rw [hsplit, List.countP_append, List.countP_append, hmid]
  simp [hno]

structure RemoteControlRequestSet where
  bits : List UInt8
  len : Nat
  length_bits : bits.length = requestKindBitmapLen
  only_kinds : OnlyKinds bits
  len_eq : len = RemoteControlRequestKind.all.countP (supportsIn bits)
  deriving DecidableEq

namespace RemoteControlRequestSet

variable (s : RemoteControlRequestSet)

def supports (kind : RemoteControlRequestKind) : Bool := supportsIn s.bits kind

def isEmpty : Bool := s.len == 0

def iter : List RemoteControlRequestKind := RemoteControlRequestKind.all.filter s.supports

theorem length_iter : s.iter.length = s.len := by
  rw [iter, s.len_eq, List.countP_eq_length_filter]
  rfl

theorem mem_iter (kind : RemoteControlRequestKind) : kind ∈ s.iter ↔ s.supports kind = true := by
  rw [iter, List.mem_filter]
  exact ⟨fun h => h.2, fun h => ⟨mem_all kind, h⟩⟩

theorem len_le : s.len ≤ 36 := by
  rw [s.len_eq]
  exact Nat.le_trans List.countP_le_length (by decide)

theorem bitAt_of_le (h : bits.length = requestKindBitmapLen) {i : Nat}
    (hi : 40 ≤ i) : bitAt bits i = false := by
  have hnone : bits.length ≤ i / 8 := by
    rw [h, requestKindBitmapLen]
    omega
  rw [bitAt, List.getD_eq_getElem?_getD, List.getElem?_eq_none hnone]
  exact bit_zero _

theorem ext_supports {s t : RemoteControlRequestSet}
    (h : ∀ kind, s.supports kind = t.supports kind) : s = t := by
  have hbit : ∀ i, bitAt s.bits i = bitAt t.bits i := by
    intro i
    by_cases hi : i < 40
    · by_cases hkind : ∃ kind : RemoteControlRequestKind, kind.wireValue.toNat = i
      · obtain ⟨kind, rfl⟩ := hkind
        rw [← supportsIn_eq_bitAt, ← supportsIn_eq_bitAt]
        exact h kind
      have hclear : ∀ u : RemoteControlRequestSet, bitAt u.bits i = false := by
        intro u
        rw [← Bool.not_eq_true]
        intro hset
        exact hkind (u.only_kinds i hi hset)
      rw [hclear s, hclear t]
    · rw [bitAt_of_le s.length_bits (by omega), bitAt_of_le t.length_bits (by omega)]
  have hbits : s.bits = t.bits := by
    apply List.ext_getElem (s.length_bits.trans t.length_bits.symm)
    intro n hs ht
    apply bit_ext
    intro j hj
    have hat := hbit (8 * n + j)
    rw [bitAt, bitAt, show (8 * n + j) / 8 = n by omega, show (8 * n + j) % 8 = j by omega,
      List.getD_eq_getElem?_getD, List.getD_eq_getElem?_getD, List.getElem?_eq_getElem hs,
      List.getElem?_eq_getElem ht] at hat
    exact hat
  cases s
  cases t
  simp_all

def empty : RemoteControlRequestSet where
  bits := List.replicate 5 0
  len := 0
  length_bits := rfl
  only_kinds := by
    have hclear : ∀ i < 40, bitAt (List.replicate 5 0) i = false := by decide
    intro i hi hset
    rw [hclear i hi] at hset
    cases hset
  len_eq := by decide

/-- The bitmap with the bit of a kind set. -/
def insertedBits (bits : List UInt8) (kind : RemoteControlRequestKind) : List UInt8 :=
  bits.modify (requestKindPosition kind).1 (· ||| (requestKindPosition kind).2)

theorem bitAt_insertedBits (h : bits.length = requestKindBitmapLen)
    (kind : RemoteControlRequestKind) (i : Nat) :
    bitAt (insertedBits bits kind) i = (bitAt bits i || decide (i = kind.wireValue.toNat)) := by
  have hlt := kind.wireValue_lt
  rw [insertedBits, requestKindPosition_eq]
  apply bitAt_modify
  rw [h, requestKindBitmapLen]
  omega

theorem supportsIn_insertedBits (h : bits.length = requestKindBitmapLen)
    (kind other : RemoteControlRequestKind) :
    supportsIn (insertedBits bits kind) other =
      (supportsIn bits other || decide (other = kind)) := by
  have hsame : decide (other.wireValue.toNat = kind.wireValue.toNat) = decide (other = kind) :=
    decide_eq_decide.mpr ⟨fun heq => wireValue_inj (UInt8.toNat_inj.mp heq), fun heq => by rw [heq]⟩
  rw [supportsIn_eq_bitAt, bitAt_insertedBits h, hsame, supportsIn_eq_bitAt]

variable {kind : RemoteControlRequestKind}

theorem countP_insert {l : List RemoteControlRequestKind} (hnodup : l.Nodup) (hmem : kind ∈ l)
    {p : RemoteControlRequestKind → Bool} (hp : p kind = false) :
    l.countP (fun other => p other || decide (other = kind)) = l.countP p + 1 := by
  induction l with
  | nil => cases hmem
  | cons a l ih =>
    by_cases ha : a = kind
    · subst ha
      have hrest : l.countP (fun other => p other || decide (other = a)) = l.countP p :=
        List.countP_congr fun other hother => by grind
      simp [hrest, hp]
    · grind

theorem countP_insertedBits (h : bits.length = requestKindBitmapLen)
    (hnew : supportsIn bits kind = false) :
    all.countP (supportsIn (insertedBits bits kind)) = all.countP (supportsIn bits) + 1 := by
  rw [← countP_insert nodup_all (mem_all kind) hnew]
  apply List.countP_congr
  intro other _
  rw [supportsIn_insertedBits h]

/-- Whether the kind was new, and the set with it. -/
def insert (kind : RemoteControlRequestKind) : Bool × RemoteControlRequestSet :=
  if hin : s.supports kind = true then (false, s)
  else if s.len = 255 then (false, s)
  else
    (true,
      { bits := insertedBits s.bits kind
        len := s.len + 1
        length_bits := by rw [insertedBits, List.length_modify, s.length_bits]
        only_kinds := by
          intro i hi hset
          rw [bitAt_insertedBits s.length_bits, Bool.or_eq_true, decide_eq_true_eq] at hset
          exact hset.elim (s.only_kinds i hi) fun hnew => ⟨kind, hnew.symm⟩
        len_eq := by
          rw [countP_insertedBits s.length_bits (Bool.not_eq_true _ ▸ hin), s.len_eq] })

theorem supports_insert (kind other : RemoteControlRequestKind) :
    (s.insert kind).2.supports other = (s.supports other || decide (other = kind)) := by
  have hlen := s.len_le
  unfold insert
  by_cases hin : s.supports kind = true
  · grind
  · rw [dif_neg hin, if_neg (by omega)]
    exact supportsIn_insertedBits s.length_bits kind other

/-- `saturating_add` on a byte. -/
def saturatingCount (bits : List UInt8) : Nat :=
  bits.foldl (fun len byte => min 255 (len + countOnes byte)) 0

theorem foldl_saturating (bits : List UInt8) {len : Nat}
    (h : len + (bits.map countOnes).sum ≤ 255) :
    bits.foldl (fun len byte => min 255 (len + countOnes byte)) len =
      len + (bits.map countOnes).sum := by
  induction bits generalizing len with
  | nil => rfl
  | cons byte bits ih =>
    rw [List.map_cons, List.sum_cons] at h ⊢
    rw [List.foldl_cons, Nat.min_eq_right (by omega), ih (by omega)]
    omega

theorem saturatingCount_eq (h : bits.length = requestKindBitmapLen) (honly : OnlyKinds bits) :
    saturatingCount bits = all.countP (supportsIn bits) := by
  have hsum : (bits.map countOnes).sum = all.countP (supportsIn bits) := by
    rw [sum_countOnes, h]
    exact countP_kinds honly
  have hle : all.countP (supportsIn bits) ≤ 36 :=
    Nat.le_trans List.countP_le_length (by decide)
  rw [saturatingCount, foldl_saturating bits (by omega), hsum, Nat.zero_add]

variable (t : RemoteControlRequestSet)

theorem bitAt_intersected (i : Nat) :
    bitAt (List.zipWith (· &&& ·) s.bits t.bits) i = (bitAt s.bits i && bitAt t.bits i) :=
  bitAt_zipWith_and (s.length_bits.trans t.length_bits.symm) i

theorem length_intersected :
    (List.zipWith (· &&& ·) s.bits t.bits).length = requestKindBitmapLen := by
  rw [List.length_zipWith, s.length_bits, t.length_bits, Nat.min_self]

theorem onlyKinds_intersected : OnlyKinds (List.zipWith (· &&& ·) s.bits t.bits) := by
  intro i hi hset
  rw [bitAt_intersected, Bool.and_eq_true] at hset
  exact s.only_kinds i hi hset.1

def intersection (other : RemoteControlRequestSet) : RemoteControlRequestSet where
  bits := List.zipWith (· &&& ·) s.bits other.bits
  len := saturatingCount (List.zipWith (· &&& ·) s.bits other.bits)
  length_bits := s.length_intersected other
  only_kinds := s.onlyKinds_intersected other
  len_eq := saturatingCount_eq (s.length_intersected other) (s.onlyKinds_intersected other)

theorem supports_intersection (kind : RemoteControlRequestKind) :
    (s.intersection t).supports kind = (s.supports kind && t.supports kind) := by
  show supportsIn (List.zipWith (· &&& ·) s.bits t.bits) kind =
    (supportsIn s.bits kind && supportsIn t.bits kind)
  rw [supportsIn_eq_bitAt, supportsIn_eq_bitAt, supportsIn_eq_bitAt, bitAt_intersected]

/-- The administrator request of a set that is not allowed to have one. -/
def administratorRequest : Option RemoteControlRequestKind :=
  s.iter.find? fun kind => kind.requiresAdministrator

theorem administratorRequest_none (h : s.administratorRequest = none)
    (hkind : s.supports kind = true) : kind.requiresAdministrator = false := by
  rw [administratorRequest, List.find?_eq_none] at h
  exact Bool.not_eq_true _ ▸ h kind ((s.mem_iter kind).mpr hkind)

end RemoteControlRequestSet

/-- A byte array of fixed length. -/
abbrev Bytes (n : Nat) : Type := { bytes : List UInt8 // bytes.length = n }

structure IdentityPublicKeys where
  encryption : Bytes 32
  signing : Bytes 32
  deriving DecidableEq

/-- `public_key_bytes`: the encryption key, then the signing key. -/
def IdentityPublicKeys.publicKeyBytes (keys : IdentityPublicKeys) : List UInt8 :=
  keys.encryption.val ++ keys.signing.val

abbrev IdentityHash : Type := Bytes 16

structure RemoteControlControllerIdentity where
  publicKeys : IdentityPublicKeys
  deriving DecidableEq

structure RemoteControlTargetIdentity where
  publicKeys : IdentityPublicKeys
  deriving DecidableEq

/-! ## Authorities and permissions -/

inductive RemoteControlControllerAuthority where
  | operator
  | administrator
  deriving DecidableEq, Repr

def RemoteControlControllerAuthority.wireValue : RemoteControlControllerAuthority → UInt8
  | .operator => 0x01
  | .administrator => 0x02

/-- The error of `RemoteControlControllerGrant`, `RemoteControlTargetAccess` and
`RemoteControlPairingPermissions` alike. -/
inductive PermissionsError where
  | noPermittedRequests
  | administratorRequestRequiresAuthority (request : RemoteControlRequestKind)
  deriving DecidableEq, Repr

/-- The checks of the three constructors. -/
def permissionsError (authority : RemoteControlControllerAuthority)
    (permittedRequests : RemoteControlRequestSet) : Option PermissionsError :=
  if permittedRequests.isEmpty then some .noPermittedRequests
  else if authority = .operator then
    permittedRequests.administratorRequest.map .administratorRequestRequiresAuthority
  else none

/-- An authority together with requests that it may be given. -/
structure RemoteControlPairingPermissions where
  authority : RemoteControlControllerAuthority
  permittedRequests : RemoteControlRequestSet
  checked : permissionsError authority permittedRequests = none
  deriving DecidableEq

def RemoteControlPairingPermissions.new (authority : RemoteControlControllerAuthority)
    (permittedRequests : RemoteControlRequestSet) :
    Except PermissionsError RemoteControlPairingPermissions :=
  match h : permissionsError authority permittedRequests with
  | some error => .error error
  | none => .ok ⟨authority, permittedRequests, h⟩

variable {permittedRequests : RemoteControlRequestSet}

theorem administratorRequest_of_checked (h : permissionsError .operator permittedRequests = none) :
    permittedRequests.administratorRequest = none := by
  unfold permissionsError at h
  split at h
  · cases h
  · exact Option.map_eq_none_iff.mp h

def effectiveRequests (authority : RemoteControlControllerAuthority)
    (permittedRequests : RemoteControlRequestSet) : RemoteControlRequestSet :=
  if authority = .administrator then
    RemoteControlRequestKind.all.foldl
      (fun requests request =>
        if request.requiresAdministrator then (requests.insert request).2 else requests)
      permittedRequests
  else permittedRequests

def permits (authority : RemoteControlControllerAuthority)
    (permittedRequests : RemoteControlRequestSet) (request : RemoteControlRequestKind) : Bool :=
  if request.requiresAdministrator then authority == .administrator
  else permittedRequests.supports request

theorem supports_foldl_administrator (kinds : List RemoteControlRequestKind)
    (requests : RemoteControlRequestSet) (kind : RemoteControlRequestKind) :
    (kinds.foldl (fun requests request =>
        if request.requiresAdministrator then (requests.insert request).2 else requests)
      requests).supports kind =
      (requests.supports kind || (kind.requiresAdministrator && decide (kind ∈ kinds))) := by
  induction kinds generalizing requests with
  | nil => simp
  | cons head kinds ih =>
    rw [List.foldl_cons, ih]
    by_cases hhead : head.requiresAdministrator = true
    · rw [if_pos hhead, RemoteControlRequestSet.supports_insert]
      grind
    · grind

theorem supports_effectiveRequests {authority : RemoteControlControllerAuthority}
    (h : permissionsError authority permittedRequests = none) (kind : RemoteControlRequestKind) :
    (effectiveRequests authority permittedRequests).supports kind =
      permits authority permittedRequests kind := by
  unfold effectiveRequests permits
  cases authority with
  | administrator =>
    rw [if_pos rfl, supports_foldl_administrator]
    have hmem := mem_all kind
    cases kind.requiresAdministrator <;> simp [hmem]
  | operator =>
    have hnone := administratorRequest_of_checked h
    have hplain (hkind : permittedRequests.supports kind = true) :=
      permittedRequests.administratorRequest_none hnone hkind
    grind

structure RemoteControlControllerGrant where
  controller : RemoteControlControllerIdentity
  authority : RemoteControlControllerAuthority
  permittedRequests : RemoteControlRequestSet
  checked : permissionsError authority permittedRequests = none
  deriving DecidableEq

namespace RemoteControlControllerGrant

def new (controller : RemoteControlControllerIdentity)
    (authority : RemoteControlControllerAuthority) (permittedRequests : RemoteControlRequestSet) :
    Except PermissionsError RemoteControlControllerGrant :=
  match h : permissionsError authority permittedRequests with
  | some error => .error error
  | none => .ok ⟨controller, authority, permittedRequests, h⟩

/-- `RemoteControlControllerGrant::from`. -/
def ofPermissions (controller : RemoteControlControllerIdentity)
    (permissions : RemoteControlPairingPermissions) : RemoteControlControllerGrant :=
  ⟨controller, permissions.authority, permissions.permittedRequests, permissions.checked⟩

def permits (grant : RemoteControlControllerGrant) (request : RemoteControlRequestKind) : Bool :=
  RemoteControl.permits grant.authority grant.permittedRequests request

def effectiveRequests (grant : RemoteControlControllerGrant) : RemoteControlRequestSet :=
  RemoteControl.effectiveRequests grant.authority grant.permittedRequests

end RemoteControlControllerGrant

structure RemoteControlTargetAccess where
  target : RemoteControlTargetIdentity
  authority : RemoteControlControllerAuthority
  permittedRequests : RemoteControlRequestSet
  checked : permissionsError authority permittedRequests = none
  deriving DecidableEq

/-- `RemoteControlTargetAccess::from`. -/
def RemoteControlTargetAccess.ofPermissions (target : RemoteControlTargetIdentity)
    (permissions : RemoteControlPairingPermissions) : RemoteControlTargetAccess :=
  ⟨target, permissions.authority, permissions.permittedRequests, permissions.checked⟩

end Prns.Ports.RemoteControl
