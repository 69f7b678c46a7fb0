import Prns.Verified.Bytes
import Prns.Verified.SlottedFlash

/-!
# Records of the flash identity vault

A slot of the vault has 256 bytes: a commit word, the length of the label and the label,
and then either a secret with its complement or a blob with its length in front. Unused
bytes are erased. A record is read back from its slot as it was written.

Labels are byte strings here. `parse_slot` reads one as UTF-8 before it checks its
characters, and refuses it either way if it has a byte that is not a label byte.
-/

namespace Prns.Ports.IdentityVault

open Verified
open Verified.NorFlash (FlashError)
open Verified.SlottedFlash (Table framed commitWord)

def maxIdentityLabelLen : Nat := 64

inductive IdentityLabelError where
  | empty
  | tooLong
  | leadingNonAlphanumeric
  | invalidCharacter
  deriving DecidableEq, Repr

def isAsciiAlphanumeric (byte : UInt8) : Bool :=
  (0x30 ≤ byte && byte ≤ 0x39) || (0x41 ≤ byte && byte ≤ 0x5A) || (0x61 ≤ byte && byte ≤ 0x7A)

def isLabelByte (byte : UInt8) : Bool :=
  isAsciiAlphanumeric byte || byte == 0x5F || byte == 0x2D || byte == 0x2E

/-- What `IdentityLabel::new` finds wrong with a label. -/
def labelError (bytes : List UInt8) : Option IdentityLabelError :=
  match bytes with
  | [] => some .empty
  | first :: _ =>
    if maxIdentityLabelLen < bytes.length then some .tooLong
    else if !isAsciiAlphanumeric first then some .leadingNonAlphanumeric
    else if bytes.any (fun byte => !isLabelByte byte) then some .invalidCharacter
    else none

structure IdentityLabel where
  bytes : List UInt8
  lawful : labelError bytes = none
  deriving DecidableEq

def IdentityLabel.new (bytes : List UInt8) : Except IdentityLabelError IdentityLabel :=
  match h : labelError bytes with
  | none => .ok ⟨bytes, h⟩
  | some e => .error e

variable (label : IdentityLabel)

theorem IdentityLabel.new_bytes : IdentityLabel.new label.bytes = .ok label := by
  unfold IdentityLabel.new
  split
  · rfl
  · next e h => rw [label.lawful] at h; cases h

theorem IdentityLabel.length_le : label.bytes.length ≤ maxIdentityLabelLen := by
  have h := label.lawful
  unfold labelError at h
  split at h
  · cases h
  · split at h
    · cases h
    · omega

theorem IdentityLabel.length_ne_zero : label.bytes.length ≠ 0 := by
  intro hzero
  have h := label.lawful
  rw [List.length_eq_zero_iff.mp hzero] at h
  cases h

def slotLen : Nat := 256

def secretLen : Nat := 64

def commitLen : Nat := 4

def labelOffset : Nat := commitLen + 1

def secretOffset : Nat := labelOffset + maxIdentityLabelLen

def secretInverseOffset : Nat := secretOffset + secretLen

def stateEmpty : UInt8 := 0xFF

def stateOccupied : UInt8 := 0xA5

def stateBlob : UInt8 := 0x3C

def blobOffset : Nat := secretOffset + 2

def flashVaultBlobCap : Nat := slotLen - blobOffset

inductive RecordPayload where
  | identity (secret : Vector UInt8 64)
  | blob (bytes : List UInt8) (fits : bytes.length ≤ flashVaultBlobCap)
  deriving DecidableEq

structure Record where
  label : IdentityLabel
  payload : RecordPayload
  deriving DecidableEq

inductive FlashVaultError where
  | flash (error : FlashError)
  | storeFull
  | misaligned
  | outOfBounds
  | corrupt
  | blobTooLong (blobLen : Nat)
  | blobOutgrewBuffer (blobLen bufferLen : Nat)
  deriving DecidableEq

def erasedBytes (n : Nat) : List UInt8 := List.replicate n 0xFF

@[simp] theorem length_erasedBytes (n : Nat) : (erasedBytes n).length = n := List.length_replicate

def RecordPayload.state : RecordPayload → UInt8
  | .identity _ => stateOccupied
  | .blob _ _ => stateBlob

def RecordPayload.encode : RecordPayload → List UInt8
  | .identity secret => secret.toList ++ secret.toList.map (~~~ ·)
  | .blob bytes _ => leBytes 2 bytes.length ++ bytes

/-- The slot behind its commit word. -/
def Record.body (record : Record) : List UInt8 :=
  UInt8.ofNat record.label.bytes.length ::
    (record.label.bytes ++ erasedBytes (maxIdentityLabelLen - record.label.bytes.length) ++
      (record.payload.encode ++
        erasedBytes (slotLen - secretOffset - record.payload.encode.length)))

def parsePayload (buffer : List UInt8) : Except FlashVaultError RecordPayload :=
  if byteAt buffer 0 = stateOccupied then
    let secret : Vector UInt8 64 := Vector.ofFn fun i => byteAt buffer (secretOffset + i)
    if (secret.toList.zip (field buffer secretInverseOffset secretLen)).any
        (fun pair => pair.1 != ~~~ pair.2) then .error .corrupt
    else .ok (.identity secret)
  else if byteAt buffer 0 = stateBlob then
    let len := ofLeBytes (field buffer secretOffset 2)
    if h : len ≤ flashVaultBlobCap then
      .ok (.blob (field buffer blobOffset len) (Nat.le_trans (List.length_take_le ..) h))
    else .error .corrupt
  else .error .corrupt

def parseSlot (buffer : List UInt8) : Except FlashVaultError Record :=
  let labelLen := (byteAt buffer commitLen).toNat
  if labelLen = 0 ∨ maxIdentityLabelLen < labelLen then .error .corrupt
  else
    match IdentityLabel.new (field buffer labelOffset labelLen) with
    | .error _ => .error .corrupt
    | .ok label => (parsePayload buffer).map fun payload => ⟨label, payload⟩

/-- What `read_slot` makes of the bytes of a slot. -/
def decodeSlot (buffer : List UInt8) : Except FlashVaultError (Option Record) :=
  if byteAt buffer 0 = stateEmpty then .ok none
  else if byteAt buffer 0 = stateOccupied ∨ byteAt buffer 0 = stateBlob then
    (parseSlot buffer).map some
  else .error .corrupt

/-! ## Round trip -/

theorem RecordPayload.length_encode_le (payload : RecordPayload) :
    payload.encode.length ≤ slotLen - secretOffset := by
  cases payload with
  | identity secret =>
    simp only [encode, List.length_append, List.length_map, Vector.length_toList]
    decide
  | blob bytes fits =>
    rw [encode, List.length_append, length_leBytes]
    have hcap : flashVaultBlobCap = slotLen - secretOffset - 2 := rfl
    have hroom : 2 ≤ slotLen - secretOffset := by decide
    omega

theorem Record.length_body (record : Record) : record.body.length = slotLen - commitLen := by
  have hlabel := record.label.length_le
  have hpayload := record.payload.length_encode_le
  have hslot : slotLen - commitLen = 1 + (maxIdentityLabelLen + (slotLen - secretOffset)) := rfl
  simp only [Record.body, List.length_cons, List.length_append, length_erasedBytes]
  omega

variable {front back : List UInt8}

open RecordPayload

theorem parsePayload_encode (payload : RecordPayload) (hfront : front.length = secretOffset)
    (hstate : byteAt (front ++ (payload.encode ++ back)) 0 = payload.state) :
    parsePayload (front ++ (payload.encode ++ back)) = .ok payload := by
  cases payload with
  | identity secret =>
    have hsecret : (Vector.ofFn fun i : Fin 64 =>
        byteAt (front ++ ((identity secret).encode ++ back)) (secretOffset + i)) = secret := by
      apply Vector.ext
      intro i hi
      rw [Vector.getElem_ofFn, byteAt, List.getD_append_right _ _ _ _ (by omega), hfront,
        Nat.add_sub_cancel_left, encode, List.append_assoc,
        List.getD_append _ _ _ _ (by simpa using hi), List.getD_eq_getElem _ _ (by simpa using hi)]
      exact Vector.getElem_toList _
    have hinverse : field (front ++ ((identity secret).encode ++ back))
        secretInverseOffset secretLen = secret.toList.map (~~~ ·) := by
      rw [encode, List.append_assoc, ← List.append_assoc front]
      apply field_middle
      · rw [List.length_append, hfront, Vector.length_toList]
        rfl
      · rw [List.length_map, Vector.length_toList]
        rfl
    have hcomplement : (secret.toList.zip (secret.toList.map (~~~ ·))).any
        (fun pair => pair.1 != ~~~ pair.2) = false := by
      rw [← List.map_prod_left_eq_zip, List.any_map, List.any_eq_false]
      intro byte _
      simp
    rw [state] at hstate
    rw [parsePayload, if_pos hstate]
    dsimp only
    rw [hsecret, hinverse, hcomplement]
    rfl
  | blob bytes fits =>
    have hsmall : bytes.length < 256 ^ 2 := Nat.lt_of_le_of_lt fits (by decide)
    have hlen : ofLeBytes (field (front ++ ((blob bytes fits).encode ++ back))
        secretOffset 2) = bytes.length := by
      rw [encode, List.append_assoc, field_middle hfront (length_leBytes ..),
        ofLeBytes_leBytes hsmall]
    have hbytes : field (front ++ ((blob bytes fits).encode ++ back)) blobOffset
        bytes.length = bytes := by
      rw [encode, List.append_assoc, ← List.append_assoc front]
      apply field_middle
      · rw [List.length_append, hfront, length_leBytes]
        rfl
      · rfl
    rw [state] at hstate
    rw [parsePayload, if_neg (by rw [hstate]; decide), if_pos hstate]
    rw [dif_pos (by rw [hlen]; exact fits)]
    congr 2
    rw [hlen, hbytes]

/-- Where the slots of a vault lie. -/
def slotTable (offset : Nat) : Table where
  base := offset
  size := slotLen
  rest := commitLen - 1
  fits := by decide

theorem decodeSlot_framed (offset : Nat) (record : Record) :
    decodeSlot (framed (slotTable offset) record.payload.state record.body) =
      .ok (some record) := by
  have hlabel := record.label.length_le
  have hcap : maxIdentityLabelLen = 64 := rfl
  have hword : (commitWord (slotTable offset) record.payload.state).length = commitLen := rfl
  have hlen : (UInt8.ofNat record.label.bytes.length).toNat = record.label.bytes.length := by
    rw [UInt8.toNat_ofNat']
    omega
  generalize hbuffer : framed (slotTable offset) record.payload.state record.body = buffer
  have hstate : byteAt buffer 0 = record.payload.state := by
    rw [← hbuffer]
    rfl
  have hcount : byteAt buffer commitLen = UInt8.ofNat record.label.bytes.length := by
    rw [← hbuffer]
    exact byteAt_middle hword
  have hfield : field buffer labelOffset record.label.bytes.length = record.label.bytes := by
    rw [← hbuffer, framed, Record.body, ← List.singleton_append, ← List.append_assoc,
      List.append_assoc record.label.bytes]
    apply field_middle
    · rfl
    · rfl
  have hpayload : parsePayload buffer = .ok record.payload := by
    rw [← hbuffer, framed, Record.body, ← List.cons_append, ← List.append_assoc] at hstate ⊢
    refine parsePayload_encode record.payload ?_ hstate
    rw [List.length_append, hword, List.length_cons, List.length_append, length_erasedBytes]
    show commitLen + (record.label.bytes.length + (64 - record.label.bytes.length) + 1) =
      commitLen + 1 + 64
    omega
  have hparse : parseSlot buffer = .ok record := by
    unfold parseSlot
    rw [hcount, hlen]
    have hne := record.label.length_ne_zero
    rw [if_neg (by omega), hfield, record.label.new_bytes, hpayload]
    rfl
  have hoccupied : record.payload.state ≠ stateEmpty ∧
      (record.payload.state = stateOccupied ∨ record.payload.state = stateBlob) := by
    cases record.payload with
    | identity secret => exact ⟨show stateOccupied ≠ stateEmpty by decide, Or.inl rfl⟩
    | blob bytes fits => exact ⟨show stateBlob ≠ stateEmpty by decide, Or.inr rfl⟩
  unfold decodeSlot
  rw [hstate, if_neg hoccupied.1, if_pos hoccupied.2, hparse]
  rfl

end Prns.Ports.IdentityVault
