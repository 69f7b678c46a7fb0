import Mathlib.Tactic
import Prns.Ports.MessagePack

/-!
# Decoding an encoded MessagePack value

The decoder of `MessagePack.lean` run on the bytes of the encoder, behind which anything
may follow. Its answer depends only on the size of the value, which is measured here
without the decoder: within the limits it is the value with its integers in canonical
form, and beyond any of them it is the limit error.
-/

namespace Prns.Ports.MessagePack

open Verified

/-- What the decode limits bound. A value on its own has depth zero. -/
structure Size where
  depth : Nat
  values : Nat
  containerLength : Nat
  blobLength : Nat

namespace Size

/-- A value that contains no other. -/
def leaf (blobLength : Nat) : Size := ⟨0, 1, 0, blobLength⟩

def none : Size := ⟨0, 0, 0, 0⟩

/-- The values of `s`, one level deeper, in front of those of `t`. -/
def inFront (s t : Size) : Size :=
  ⟨max (s.depth + 1) t.depth, s.values + t.values, max s.containerLength t.containerLength,
    max s.blobLength t.blobLength⟩

/-- A container of the given length around its elements. -/
def container (length : Nat) (s : Size) : Size :=
  ⟨s.depth, s.values + 1, max length s.containerLength, s.blobLength⟩

/-- No measure exceeds its limit. -/
def Within (limits : MessagePackDecodeLimits) (s : Size) : Prop :=
  s.depth ≤ limits.maximumDepth ∧ s.values ≤ limits.maximumValues ∧
    s.containerLength ≤ limits.maximumContainerLength ∧ s.blobLength ≤ limits.maximumBlobLength

/-- The elements of a container fit behind `values` values with `room` levels left. -/
def Fits (limits : MessagePackDecodeLimits) (room values : Nat) (s : Size) : Prop :=
  s.depth ≤ room ∧ values + s.values ≤ limits.maximumValues ∧
    s.containerLength ≤ limits.maximumContainerLength ∧ s.blobLength ≤ limits.maximumBlobLength

instance (limits : MessagePackDecodeLimits) (s : Size) : Decidable (s.Within limits) :=
  inferInstanceAs (Decidable (_ ∧ _))

instance (limits : MessagePackDecodeLimits) (room values : Nat) (s : Size) :
    Decidable (s.Fits limits room values) :=
  inferInstanceAs (Decidable (_ ∧ _))

end Size

mutual

def size : MessagePackValue → Size
  | .nil | .boolean _ | .signed _ | .unsigned _ | .float _ => .leaf 0
  | .string value => .leaf value.utf8ByteSize
  | .binary value => .leaf value.length
  | .array values => .container values.length (sizes values)
  | .map entries => .container entries.length (entrySizes entries)

def sizes : List MessagePackValue → Size
  | [] => .none
  | value :: values => (size value).inFront (sizes values)

def entrySizes : List (MessagePackValue × MessagePackValue) → Size
  | [] => .none
  | (key, value) :: entries => (size key).inFront ((size value).inFront (entrySizes entries))

end

mutual

/-- Non-negative integers are held as unsigned. -/
def Canonical : MessagePackValue → Prop
  | .signed value => value < 0
  | .array values => CanonicalAll values
  | .map entries => CanonicalEntries entries
  | _ => True

def CanonicalAll : List MessagePackValue → Prop
  | [] => True
  | value :: values => Canonical value ∧ CanonicalAll values

def CanonicalEntries : List (MessagePackValue × MessagePackValue) → Prop
  | [] => True
  | (key, value) :: entries => Canonical key ∧ Canonical value ∧ CanonicalEntries entries

end

mutual

/-- The value with every non-negative integer held as unsigned. -/
def canonical : MessagePackValue → MessagePackValue
  | .signed value => if value < 0 then .signed value else .unsigned value.toUInt64
  | .array values => .array (canonicalAll values)
  | .map entries => .map (canonicalEntries entries)
  | .nil => .nil
  | .boolean value => .boolean value
  | .unsigned value => .unsigned value
  | .float bits => .float bits
  | .string value => .string value
  | .binary value => .binary value

def canonicalAll : List MessagePackValue → List MessagePackValue
  | [] => []
  | value :: values => canonical value :: canonicalAll values

def canonicalEntries :
    List (MessagePackValue × MessagePackValue) → List (MessagePackValue × MessagePackValue)
  | [] => []
  | (key, value) :: entries => (canonical key, canonical value) :: canonicalEntries entries

end

mutual

theorem canonical_of_canonical :
    ∀ value : MessagePackValue, Canonical value → canonical value = value
  | .nil, _ | .boolean _, _ | .unsigned _, _ | .float _, _ | .string _, _ | .binary _, _ => by
    simp only [canonical]
  | .signed value, h => by
    rw [Canonical] at h
    rw [canonical, if_pos h]
  | .array values, h => by
    rw [Canonical] at h
    rw [canonical, canonicalAll_of_canonical values h]
  | .map entries, h => by
    rw [Canonical] at h
    rw [canonical, canonicalEntries_of_canonical entries h]

theorem canonicalAll_of_canonical :
    ∀ values : List MessagePackValue, CanonicalAll values → canonicalAll values = values
  | [], _ => by rw [canonicalAll]
  | value :: values, h => by
    rw [CanonicalAll] at h
    rw [canonicalAll, canonical_of_canonical value h.1, canonicalAll_of_canonical values h.2]

theorem canonicalEntries_of_canonical :
    ∀ entries : List (MessagePackValue × MessagePackValue), CanonicalEntries entries →
      canonicalEntries entries = entries
  | [], _ => by rw [canonicalEntries]
  | (key, value) :: entries, h => by
    rw [CanonicalEntries] at h
    rw [canonicalEntries, canonical_of_canonical key h.1, canonical_of_canonical value h.2.1,
      canonicalEntries_of_canonical entries h.2.2]

end

theorem readBytes_append (bytes rest : List UInt8) :
    readBytes bytes.length (bytes ++ rest) = some (bytes, rest) := by
  rw [readBytes, if_neg (by simp only [List.length_append]; omega), List.take_left, List.drop_left]

variable {width : Nat}

theorem readUint_beBytes {value : Nat} (h : value < 256 ^ width) (rest : List UInt8) :
    readUint width (beBytes width value ++ rest) = some (value, rest) := by
  have hread := readBytes_append (beBytes width value) rest
  rw [length_beBytes] at hread
  rw [readUint, hread, Option.map_some]
  show some (ofBeBytes (beBytes width value), rest) = _
  rw [ofBeBytes_beBytes h]

variable {length : Nat}

theorem fromUtf8_toList (value : String) : fromUtf8 value.toByteArray.data.toList = some value := by
  unfold fromUtf8 String.fromUTF8?
  simp [value.isValidUTF8, String.fromUTF8]

theorem signExtend_emod (hwidth : 0 < width) {value : Int} (hlow : -2 ^ (8 * width - 1) ≤ value)
    (hneg : value < 0) : signExtend width (value % 2 ^ (8 * width)).toNat = Int64.ofInt value := by
  have hdouble : (2 : Int) ^ (8 * width) = 2 * 2 ^ (8 * width - 1) := by
    rw [← pow_succ']
    congr 1
    omega
  have hmod : value % 2 ^ (8 * width) = value + 2 ^ (8 * width) := by
    rw [← Int.add_emod_right, Int.emod_eq_of_lt (by omega) (by omega)]
  have hcast : ((value + 2 ^ (8 * width)).toNat : Int) = value + 2 ^ (8 * width) :=
    Int.toNat_of_nonneg (by omega)
  have hbig : ¬ (value + 2 ^ (8 * width)).toNat < 2 ^ (8 * width - 1) := by
    intro h
    have h' : ((value + 2 ^ (8 * width)).toNat : Int) < 2 ^ (8 * width - 1) := by exact_mod_cast h
    omega
  rw [hmod, signExtend, if_neg hbig, hcast, Int.add_sub_cancel]

theorem readSigned_twosComplement (hwidth : 0 < width) {value : Int64}
    (hlow : -2 ^ (8 * width - 1) ≤ value.toInt) (hneg : value < 0) (rest : List UInt8) :
    readSigned width (twosComplement width value.toInt ++ rest) = some (.negative value, rest) := by
  have hint : value.toInt < 0 := Int64.lt_iff_toInt_lt.mp hneg
  have hfits : (value.toInt % 2 ^ (8 * width)).toNat < 256 ^ width := by
    have hlt : value.toInt % 2 ^ (8 * width) < 2 ^ (8 * width) :=
      Int.emod_lt_of_pos _ (by positivity)
    have hpow : (256 : Int) ^ width = 2 ^ (8 * width) := by
      rw [pow_mul]
      norm_num
    zify
    rw [Int.toNat_of_nonneg (Int.emod_nonneg _ (by positivity)), hpow]
    exact hlt
  rw [readSigned, twosComplement, readUint_beBytes hfits, Option.map_some]
  show some (signedInteger (signExtend width _), rest) = _
  rw [signExtend_emod hwidth hlow hint, Int64.ofInt_toInt, signedInteger, if_pos hneg]

theorem ofNat_toInt {value : Int64} (h : 0 ≤ value.toInt) :
    UInt64.ofNat value.toInt.toNat = value.toUInt64 := by
  apply UInt64.toNat_inj.mp
  rw [Int64.toNat_toUInt64_of_le (Int64.le_iff_toInt_le.mpr h), UInt64.toNat_ofNat',
    Int64.toNatClampNeg]
  have hlt := value.toInt_lt
  omega

theorem fromU8_fixPos : ∀ n < 128, Marker.fromU8 (UInt8.ofNat n) = .fixPos (UInt8.ofNat n) := by
  decide

theorem fromU8_fixMap :
    ∀ n < 16, Marker.fromU8 (UInt8.ofNat (0x80 + n)) = .fixMap (UInt8.ofNat n) := by
  decide

theorem fromU8_fixArray :
    ∀ n < 16, Marker.fromU8 (UInt8.ofNat (0x90 + n)) = .fixArray (UInt8.ofNat n) := by
  decide

theorem fromU8_fixStr :
    ∀ n < 32, Marker.fromU8 (UInt8.ofNat (0xa0 + n)) = .fixStr (UInt8.ofNat n) := by
  decide

theorem fromU8_fixNeg :
    ∀ k : Nat, k < 32 → twosComplement 1 (-(k : Int) - 1) = [UInt8.ofNat (255 - k)] ∧
      Marker.fromU8 (UInt8.ofNat (255 - k)) = .fixNeg (UInt8.ofNat (255 - k)).toInt8 ∧
      (UInt8.ofNat (255 - k)).toInt8.toInt64 = Int64.ofInt (-(k : Int) - 1) := by
  decide

variable {bytes rest : List UInt8} {α : Type}

section

variable (widen : UInt32 → UInt64) (limits : MessagePackDecodeLimits)

abbrev Decoded : Type := Except MessagePackOwnedError (MessagePackValue × List UInt8 × Nat)

/-- The bytes start with a marker from which the decoder goes on as `next`. -/
def Opens (bytes : List UInt8) (next : Step MessagePackValue → Nat → Decoded) : Prop :=
  ∃ marker rest, readMarker bytes = some (marker, rest) ∧
    ∀ step values, decodeMarked widen limits step marker rest values = next step values

variable {widen limits}

theorem decodeValue_of_opens {next : Step MessagePackValue → Nat → Decoded}
    (h : Opens widen limits bytes next) (room values : Nat) :
    decodeValue widen limits room bytes values = if 0 < room ∧ values < limits.maximumValues then
        next (decodeValue widen limits (room - 1)) (values + 1)
      else .error .limitExceeded := by
  obtain ⟨marker, rest, hmarker, hnext⟩ := h
  cases room with
  | zero => rfl
  | succ room =>
    simp only [decodeValue, hmarker, hnext, Nat.add_sub_cancel]
    split_ifs <;> first | rfl | omega

variable {byte : UInt8} {marker : Marker}

theorem opens_byte (marker : Marker) {next : Step MessagePackValue → Nat → Decoded}
    (hmarker : Marker.fromU8 byte = marker)
    (hnext : ∀ step values, decodeMarked widen limits step marker rest values = next step values) :
    Opens widen limits (byte :: rest) next :=
  ⟨marker, rest, by rw [readMarker, hmarker], hnext⟩

theorem opens_answered {found : α} (marker : Marker)
    (read : Marker → List UInt8 → Option (Option α × List UInt8))
    (next : Step MessagePackValue → Nat → α → List UInt8 → Decoded)
    (hread : read marker bytes = some (some found, rest))
    (hmarker : Marker.fromU8 byte = marker := by decide +kernel)
    (hmarked : ∀ step bytes values, decodeMarked widen limits step marker bytes values =
      answered (read marker bytes) (next step values) := by intros; rfl) :
    Opens widen limits (byte :: bytes) fun step values => next step values found rest := by
  apply opens_byte marker hmarker
  intro step values
  rw [hmarked, hread]
  rfl

theorem mine_readUnsigned {value : Nat} (h : value < 256 ^ width) (rest : List UInt8) :
    mine (readUnsigned width (beBytes width value ++ rest)) =
      some (some (.nonnegative (UInt64.ofNat value)), rest) := by
  rw [readUnsigned, readUint_beBytes h]
  rfl

theorem mine_readSigned (hwidth : 0 < width) {value : Int64}
    (hlow : -2 ^ (8 * width - 1) ≤ value.toInt) (hneg : value < 0) (rest : List UInt8) :
    mine (readSigned width (twosComplement width value.toInt ++ rest)) =
      some (some (.negative value), rest) := by
  rw [readSigned_twosComplement hwidth hlow hneg]
  rfl

theorem opens_uint {value : Nat} (h : value < 2 ^ 64) (rest : List UInt8) :
    Opens widen limits (writeUint value ++ rest) fun _ values =>
      decodeInteger values (.nonnegative (UInt64.ofNat value)) rest := by
  unfold writeUint
  split_ifs with h7 h8 h16 h32
  · have hbyte : (UInt8.ofNat value).toUInt64 = UInt64.ofNat value := by
      apply UInt64.toNat_inj.mp
      simp only [UInt8.toNat_toUInt64, UInt8.toNat_ofNat', UInt64.toNat_ofNat']
      omega
    rw [← hbyte]
    exact opens_answered (.fixPos (UInt8.ofNat value)) readInteger (fun _ => decodeInteger) rfl
      (fromU8_fixPos value h7)
  · exact opens_answered .u8 readInteger (fun _ => decodeInteger) (mine_readUnsigned h8 rest)
  · exact opens_answered .u16 readInteger (fun _ => decodeInteger) (mine_readUnsigned h16 rest)
  · exact opens_answered .u32 readInteger (fun _ => decodeInteger) (mine_readUnsigned h32 rest)
  · exact opens_answered .u64 readInteger (fun _ => decodeInteger) (mine_readUnsigned h rest)

theorem opens_sint {value : Int64} (hneg : value < 0) (rest : List UInt8) :
    Opens widen limits (writeSint value.toInt ++ rest) fun _ values =>
      decodeInteger values (.negative value) rest := by
  have hint : value.toInt < 0 := Int64.lt_iff_toInt_lt.mp hneg
  have hlow := value.le_toInt
  unfold writeSint
  split_ifs with h0 h5 h8 h16 h32
  · omega
  · obtain ⟨k, hk, hvalue⟩ : ∃ k : Nat, k < 32 ∧ value.toInt = -(k : Int) - 1 :=
      ⟨(-value.toInt - 1).toNat, by omega, by omega⟩
    obtain ⟨hbytes, hmarker, hread⟩ := fromU8_fixNeg k hk
    rw [hvalue, hbytes, ← Int64.ofInt_toInt value, hvalue, ← hread]
    exact opens_answered (.fixNeg (UInt8.ofNat (255 - k)).toInt8) readInteger
      (fun _ => decodeInteger) rfl hmarker
  · exact opens_answered .i8 readInteger (fun _ => decodeInteger)
      (mine_readSigned (by decide) h8 hneg rest)
  · exact opens_answered .i16 readInteger (fun _ => decodeInteger)
      (mine_readSigned (by decide) h16 hneg rest)
  · exact opens_answered .i32 readInteger (fun _ => decodeInteger)
      (mine_readSigned (by decide) h32 hneg rest)
  · exact opens_answered .i64 readInteger (fun _ => decodeInteger)
      (mine_readSigned (by decide) hlow hneg rest)

theorem opens_float (bits : UInt64) (rest : List UInt8) :
    Opens widen limits (0xcb :: beBytes 8 bits.toNat ++ rest) fun _ values =>
      decodeFloat values bits rest := by
  refine opens_answered .f64 (readFloat widen) (fun _ => decodeFloat) ?_
  show mine ((readUint 8 (beBytes 8 bits.toNat ++ rest)).map _) = _
  rw [readUint_beBytes bits.toNat_lt]
  simp only [Option.map_some, mine, UInt64.ofNat_toNat]

/-! ### Lengths -/

theorem mine_readUint (h : length < 256 ^ width) (rest : List UInt8) :
    mine (readUint width (beBytes width length ++ rest)) = some (some length, rest) := by
  rw [readUint_beBytes h]
  rfl

theorem mine_length32 (h : length ≤ u32Max) (rest : List UInt8) :
    mine (length32 (beBytes 4 length ++ rest)) = some (some length, rest) := by
  have hfits : ¬usizeMax < length := by unfold usizeMax u32Max at *; omega
  rw [length32, readUint_beBytes (by unfold u32Max at h; omega), Option.bind_some]
  exact congrArg mine (if_neg hfits)

theorem mine_small (h : length < 256) (rest : List UInt8) :
    mine (some ((UInt8.ofNat length).toNat, rest)) = some (some length, rest) := by
  rw [UInt8.toNat_ofNat', Nat.mod_eq_of_lt h]
  rfl

theorem opens_array (h : length ≤ u32Max) (rest : List UInt8) :
    Opens widen limits (writeArrayLen length ++ rest) fun step values =>
      decodeArray limits step values length rest := by
  unfold writeArrayLen
  split_ifs with h4 h16
  · exact opens_answered (.fixArray (UInt8.ofNat length)) arrayLength (decodeArray limits)
      (mine_small (by omega) rest) (fromU8_fixArray length h4)
  · exact opens_answered .array16 arrayLength (decodeArray limits) (mine_readUint h16 rest)
  · exact opens_answered .array32 arrayLength (decodeArray limits) (mine_length32 h rest)

theorem opens_map (h : length ≤ u32Max) (rest : List UInt8) :
    Opens widen limits (writeMapLen length ++ rest) fun step values =>
      decodeMap limits step values length rest := by
  unfold writeMapLen
  split_ifs with h4 h16
  · exact opens_answered (.fixMap (UInt8.ofNat length)) mapLength (decodeMap limits)
      (mine_small (by omega) rest) (fromU8_fixMap length h4)
  · exact opens_answered .map16 mapLength (decodeMap limits) (mine_readUint h16 rest)
  · exact opens_answered .map32 mapLength (decodeMap limits) (mine_length32 h rest)

theorem readString_of_length {value : String}
    (h : stringLength marker bytes =
      some (some value.utf8ByteSize, value.toByteArray.data.toList ++ rest)) :
    readString marker bytes = some (some value, rest) := by
  have hread := readBytes_append value.toByteArray.data.toList rest
  rw [show value.toByteArray.data.toList.length = value.utf8ByteSize from rfl] at hread
  rw [readString, h, Option.bind_some]
  show (readBytes value.utf8ByteSize _).map _ = _
  rw [hread, Option.map_some]
  show some (fromUtf8 value.toByteArray.data.toList, rest) = _
  rw [fromUtf8_toList]

theorem opens_str {value : String} (h : value.utf8ByteSize ≤ u32Max) (rest : List UInt8) :
    Opens widen limits (writeStrLen value.utf8ByteSize ++ (value.toByteArray.data.toList ++ rest))
      fun _ values => decodeString limits values value rest := by
  unfold writeStrLen
  split_ifs with h5 h8 h16
  · exact opens_answered (.fixStr (UInt8.ofNat value.utf8ByteSize)) readString
      (fun _ => decodeString limits) (readString_of_length (mine_small (by omega) _))
      (fromU8_fixStr _ h5)
  · exact opens_answered .str8 readString (fun _ => decodeString limits)
      (readString_of_length (mine_readUint h8 _))
  · exact opens_answered .str16 readString (fun _ => decodeString limits)
      (readString_of_length (mine_readUint h16 _))
  · exact opens_answered .str32 readString (fun _ => decodeString limits)
      (readString_of_length (mine_length32 h _))

theorem readBinary_of_length {value : List UInt8}
    (h : binaryLength marker bytes = some (some value.length, value ++ rest)) :
    readBinary marker bytes = some (some value, rest) := by
  rw [readBinary, h, Option.bind_some]
  show mine (readBytes value.length _) = _
  rw [readBytes_append]
  rfl

theorem opens_bin {value : List UInt8} (h : value.length ≤ u32Max) (rest : List UInt8) :
    Opens widen limits (writeBinLen value.length ++ (value ++ rest))
      fun _ values => decodeBinary limits values value rest := by
  unfold writeBinLen
  split_ifs with h8 h16
  · exact opens_answered .bin8 readBinary (fun _ => decodeBinary limits)
      (readBinary_of_length (mine_readUint h8 _))
  · exact opens_answered .bin16 readBinary (fun _ => decodeBinary limits)
      (readBinary_of_length (mine_readUint h16 _))
  · exact opens_answered .bin32 readBinary (fun _ => decodeBinary limits)
      (readBinary_of_length (mine_length32 h _))

end

/-! ## Whole values -/

variable {head : List UInt8} {first second : Except MessagePackOwnedError (List UInt8)}

theorem framed_ok {body : Except MessagePackOwnedError (List UInt8)}
    (h : framed length head body = .ok bytes) :
    length ≤ u32Max ∧ ∃ content, body = .ok content ∧ bytes = head ++ content := by
  unfold framed at h
  split_ifs at h with hlong
  cases body <;> cases h
  exact ⟨by omega, _, rfl, rfl⟩

theorem joined_ok (h : joined first second = .ok bytes) :
    ∃ front back, first = .ok front ∧ second = .ok back ∧ bytes = front ++ back := by
  unfold joined at h
  cases first <;> cases second <;> cases h
  exact ⟨_, _, rfl, rfl, rfl⟩

variable {value : MessagePackValue}

section

variable {widen : UInt32 → UInt64} {limits : MessagePackDecodeLimits}

/-- The answer for a value of the given size: the value if it fits, else the limit error. -/
def verdict {α : Type} (fits : Prop) [Decidable fits] (value : α) (rest : List UInt8)
    (values : Nat) : Except MessagePackOwnedError (α × List UInt8 × Nat) :=
  if fits then .ok (value, rest, values) else .error .limitExceeded

/-- A value fits where it would as the only element of a container. -/
def Size.FitsAlone (limits : MessagePackDecodeLimits) (room values : Nat) (s : Size) : Prop :=
  (s.inFront .none).Fits limits room values

instance (limits : MessagePackDecodeLimits) (room values : Nat) (s : Size) :
    Decidable (s.FitsAlone limits room values) :=
  inferInstanceAs (Decidable (Size.Fits _ _ _ _))

theorem Size.fitsAlone_iff (room values : Nat) (s : Size) :
    s.FitsAlone limits room values ↔ s.depth < room ∧ values + s.values ≤ limits.maximumValues ∧
      s.containerLength ≤ limits.maximumContainerLength ∧
      s.blobLength ≤ limits.maximumBlobLength := by
  simp only [FitsAlone, Fits, inFront, none]
  omega

theorem Size.fits_inFront (room values : Nat) (s t : Size) : (s.inFront t).Fits limits room values ↔
      s.FitsAlone limits room values ∧ t.Fits limits room (values + s.values) := by
  rw [fitsAlone_iff]
  simp only [Fits, inFront]
  omega

variable {values : Nat} {room : Nat} {p q : Prop} {middle : List UInt8} {s : Size}

open Size

theorem Size.fits_none (h : values ≤ limits.maximumValues) : none.Fits limits room values := by
  simp only [Fits, none]
  omega

theorem Size.fitsAlone_container (room values length : Nat) (s : Size) :
    (container length s).FitsAlone limits room values ↔
      (0 < room ∧ values < limits.maximumValues) ∧ length ≤ limits.maximumContainerLength ∧
        s.Fits limits (room - 1) (values + 1) := by
  rw [fitsAlone_iff]
  simp only [Fits, container]
  omega

theorem decodeValue_leaf (h : Opens widen limits bytes fun _ values =>
      if limits.maximumBlobLength < length then .error .limitExceeded
      else .ok (value, rest, values))
    (room values : Nat) :
    decodeValue widen limits room bytes values =
      verdict ((leaf length).FitsAlone limits room values) value rest (values + 1) := by
  rw [decodeValue_of_opens h, verdict]
  simp only [fitsAlone_iff, leaf]
  split_ifs <;> first | rfl | omega

theorem decodeValue_scalar (h : Opens widen limits bytes fun _ values => .ok (value, rest, values))
    (room values : Nat) :
    decodeValue widen limits room bytes values =
      verdict ((leaf 0).FitsAlone limits room values) value rest (values + 1) := by
  apply decodeValue_leaf
  simpa only [Nat.not_lt_zero, if_false] using h

theorem verdict_congr [Decidable p] [Decidable q] (h : p ↔ q) (value : α) (rest : List UInt8)
    {values' : Nat} (hvalues : values = values') :
    verdict p value rest values = verdict q value rest values' := by
  subst hvalues
  unfold verdict
  simp only [h]

theorem decodeMany_succ {step : Step α} {between after : Nat} {value : α} {others : List α}
    [Decidable p] [Decidable q] (hfirst : step bytes values = verdict p value middle between)
    (hothers : p → decodeMany step length middle between = verdict q others rest after) :
    decodeMany step (length + 1) bytes values = verdict (p ∧ q) (value :: others) rest after := by
  rw [decodeMany, hfirst]
  by_cases hp : p
  · rw [verdict, if_pos hp]
    simp only [hothers hp, verdict]
    by_cases hq : q <;> simp [hp, hq]
  · simp [verdict, hp]

theorem decodeEntry_eq {step : Step MessagePackValue} {between after : Nat} {key : MessagePackValue}
    [Decidable p] [Decidable q] (hkey : step bytes values = verdict p key middle between)
    (hvalue : p → step middle between = verdict q value rest after) :
    decodeEntry step bytes values = verdict (p ∧ q) (key, value) rest after := by
  rw [decodeEntry, hkey]
  by_cases hp : p
  · rw [verdict, if_pos hp]
    simp only [hvalue hp, verdict]
    by_cases hq : q <;> simp [hp, hq]
  · simp [verdict, hp]

/-- The container around elements whose verdict is known, where the decoder gets to them. -/
theorem decodeContainer {make : α → MessagePackValue} {content : α} {room after : Nat}
    {many : Except MessagePackOwnedError (α × List UInt8 × Nat)}
    (hmany : values + 1 ≤ limits.maximumValues →
      many = verdict (s.Fits limits (room - 1) (values + 1)) content rest after)
    (hdecode : decodeValue widen limits room bytes values =
      if 0 < room ∧ values < limits.maximumValues then
        if limits.maximumContainerLength < length then .error .limitExceeded
        else contained make many
      else .error .limitExceeded) :
    decodeValue widen limits room bytes values =
      verdict ((container length s).FitsAlone limits room values) (make content) rest after := by
  rw [hdecode, verdict]
  simp only [fitsAlone_container]
  split_ifs with hopen hlength hfits hfits
  · omega
  · rfl
  · rw [hmany hopen.2, verdict, if_pos hfits.2.2, contained]
  · rw [hmany hopen.2, verdict, if_neg (fun h => hfits ⟨hopen, Nat.le_of_not_lt hlength, h⟩),
      contained]
  · rename_i hfits
    exact absurd hfits.1 hopen
  · rfl

theorem Size.FitsAlone.values_le (h : s.FitsAlone limits room values) :
    values + s.values ≤ limits.maximumValues :=
  ((fitsAlone_iff room values s).mp h).2.1

theorem countBehind (values length : Nat) (s : Size) :
    values + 1 + s.values = values + (container length s).values := by
  simp only [container]
  omega

-- The three statements follow the three functions of the encoder.  The loops start behind
-- values that were all admitted, which an empty container needs to fit.
mutual

theorem decodeValue_encode : ∀ (value : MessagePackValue) {bytes : List UInt8},
    encodeValue value = .ok bytes → ∀ (rest : List UInt8) (room values : Nat),
      decodeValue widen limits room (bytes ++ rest) values =
        verdict ((size value).FitsAlone limits room values) (canonical value) rest
          (values + (size value).values)
  | .nil, bytes, h, rest, room, values => by
    rw [encodeValue] at h
    cases h
    rw [size, canonical]
    exact decodeValue_scalar (opens_byte .null (by decide +kernel) (fun _ _ => rfl)) room values
  | .boolean value, bytes, h, rest, room, values => by
    rw [encodeValue] at h
    cases h
    rw [size, canonical]
    cases value with
    | false =>
      exact decodeValue_scalar (opens_byte .false (by decide +kernel) (fun _ _ => rfl)) room values
    | true =>
      exact decodeValue_scalar (opens_byte .true (by decide +kernel) (fun _ _ => rfl)) room values
  | .signed value, bytes, h, rest, room, values => by
    rw [encodeValue] at h
    cases h
    rw [size, canonical]
    by_cases hneg : value < 0
    · rw [if_pos hneg]
      exact decodeValue_scalar (opens_sint hneg rest) room values
    have hint : 0 ≤ value.toInt := by
      rw [Int64.lt_iff_toInt_lt] at hneg
      exact Int.not_lt.mp hneg
    rw [if_neg hneg, writeSint, if_pos hint]
    rw [← ofNat_toInt hint]
    exact decodeValue_scalar (opens_uint (by have := value.toInt_lt; omega) rest) room values
  | .unsigned value, bytes, h, rest, room, values => by
    rw [encodeValue] at h
    cases h
    rw [size, canonical]
    have hopens : Opens widen limits (writeUint value.toNat ++ rest) fun _ values =>
        decodeInteger values (.nonnegative (UInt64.ofNat value.toNat)) rest :=
      opens_uint value.toNat_lt rest
    rw [UInt64.ofNat_toNat] at hopens
    exact decodeValue_scalar hopens room values
  | .float bits, bytes, h, rest, room, values => by
    rw [encodeValue] at h
    cases h
    rw [size, canonical]
    exact decodeValue_scalar (opens_float bits rest) room values
  | .string value, bytes, h, rest, room, values => by
    rw [encodeValue] at h
    obtain ⟨hlength, content, hcontent, hbytes⟩ := framed_ok h
    cases hcontent
    rw [size, canonical, hbytes, List.append_assoc]
    exact decodeValue_leaf (opens_str hlength rest) room values
  | .binary value, bytes, h, rest, room, values => by
    rw [encodeValue] at h
    obtain ⟨hlength, content, hcontent, hbytes⟩ := framed_ok h
    cases hcontent
    rw [size, canonical, hbytes, List.append_assoc]
    exact decodeValue_leaf (opens_bin hlength rest) room values
  | .array elements, bytes, h, rest, room, values => by
    rw [encodeValue] at h
    obtain ⟨hlength, content, hcontent, hbytes⟩ := framed_ok h
    rw [size, canonical, hbytes, List.append_assoc]
    have hafter := countBehind values elements.length (sizes elements)
    exact decodeContainer
      (fun hvalues => (decodeMany_encode elements hcontent rest (room - 1) (values + 1)
        hvalues).trans (verdict_congr Iff.rfl _ _ hafter))
      (decodeValue_of_opens (opens_array hlength _) room values)
  | .map entries, bytes, h, rest, room, values => by
    rw [encodeValue] at h
    obtain ⟨hlength, content, hcontent, hbytes⟩ := framed_ok h
    rw [size, canonical, hbytes, List.append_assoc]
    have hafter := countBehind values entries.length (entrySizes entries)
    exact decodeContainer
      (fun hvalues => (decodeEntries_encode entries hcontent rest (room - 1) (values + 1)
        hvalues).trans (verdict_congr Iff.rfl _ _ hafter))
      (decodeValue_of_opens (opens_map hlength _) room values)

theorem decodeMany_encode : ∀ (elements : List MessagePackValue) {bytes : List UInt8},
    encodeValues elements = .ok bytes → ∀ (rest : List UInt8) (room values : Nat),
      values ≤ limits.maximumValues →
      decodeMany (decodeValue widen limits room) elements.length (bytes ++ rest) values =
        verdict ((sizes elements).Fits limits room values) (canonicalAll elements) rest
          (values + (sizes elements).values)
  | [], bytes, h, rest, room, values, hvalues => by
    rw [encodeValues] at h
    cases h
    rw [sizes, canonicalAll, verdict, if_pos (fits_none hvalues)]
    rfl
  | value :: elements, bytes, h, rest, room, values, hvalues => by
    rw [encodeValues] at h
    obtain ⟨front, back, hfront, hback, hbytes⟩ := joined_ok h
    rw [sizes, canonicalAll, hbytes, List.append_assoc, List.length_cons]
    rw [decodeMany_succ (decodeValue_encode value hfront (back ++ rest) room values)
      (fun hfits => decodeMany_encode elements hback rest room _ hfits.values_le)]
    exact verdict_congr (fits_inFront room values _ _).symm _ _ (Nat.add_assoc _ _ _)

theorem decodeEntries_encode :
    ∀ (entries : List (MessagePackValue × MessagePackValue)) {bytes : List UInt8},
    encodeEntries entries = .ok bytes → ∀ (rest : List UInt8) (room values : Nat),
      values ≤ limits.maximumValues →
      decodeMany (decodeEntry (decodeValue widen limits room)) entries.length (bytes ++ rest)
          values =
        verdict ((entrySizes entries).Fits limits room values) (canonicalEntries entries) rest
          (values + (entrySizes entries).values)
  | [], bytes, h, rest, room, values, hvalues => by
    rw [encodeEntries] at h
    cases h
    rw [entrySizes, canonicalEntries, verdict, if_pos (fits_none hvalues)]
    rfl
  | (key, value) :: entries, bytes, h, rest, room, values, hvalues => by
    rw [encodeEntries] at h
    obtain ⟨front, others, hfront, hothers, hbytes⟩ := joined_ok h
    obtain ⟨middle, back, hmiddle, hback, rfl⟩ := joined_ok hothers
    rw [entrySizes, canonicalEntries, hbytes, List.append_assoc, List.append_assoc,
      List.length_cons]
    have hentry := decodeEntry_eq
      (decodeValue_encode key hfront (middle ++ (back ++ rest)) room values)
      (fun _ => decodeValue_encode value hmiddle (back ++ rest) room _)
    rw [decodeMany_succ hentry
      (fun hfits => decodeEntries_encode entries hback rest room _ hfits.2.values_le)]
    apply verdict_congr
    · rw [fits_inFront, fits_inFront, and_assoc]
    · simp only [inFront]
      omega

end

end

/-- Every length of the value fits the widest length field. -/
def Size.Written (s : Size) : Prop := s.containerLength ≤ u32Max ∧ s.blobLength ≤ u32Max

theorem framed_iff {body : Except MessagePackOwnedError (List UInt8)} :
    (∃ bytes, framed length head body = .ok bytes) ↔
      length ≤ u32Max ∧ ∃ content, body = .ok content := by
  constructor
  · rintro ⟨bytes, h⟩
    obtain ⟨hlength, content, hcontent, -⟩ := framed_ok h
    exact ⟨hlength, content, hcontent⟩
  · rintro ⟨hlength, content, rfl⟩
    exact ⟨head ++ content, by rw [framed, if_neg (Nat.not_lt.mpr hlength)]; rfl⟩

theorem joined_iff :
    (∃ bytes, joined first second = .ok bytes) ↔
      (∃ front, first = .ok front) ∧ ∃ back, second = .ok back := by
  constructor
  · rintro ⟨bytes, h⟩
    obtain ⟨front, back, hfront, hback, -⟩ := joined_ok h
    exact ⟨⟨front, hfront⟩, back, hback⟩
  · rintro ⟨⟨front, rfl⟩, back, rfl⟩
    exact ⟨front ++ back, rfl⟩

theorem Size.written_inFront (s t : Size) : (s.inFront t).Written ↔ s.Written ∧ t.Written := by
  simp only [Written, inFront]
  omega

theorem Size.written_container (length : Nat) (s : Size) :
    (container length s).Written ↔ length ≤ u32Max ∧ s.Written := by
  simp only [Written, container]
  omega

theorem Size.written_leaf (length : Nat) : (leaf length).Written ↔ length ≤ u32Max := by
  simp only [Written, leaf]
  omega

theorem Size.written_none : none.Written := ⟨Nat.zero_le _, Nat.zero_le _⟩

mutual

theorem encodeValue_iff : ∀ value : MessagePackValue,
    (∃ bytes, encodeValue value = .ok bytes) ↔ (size value).Written
  | .nil | .boolean _ | .signed _ | .unsigned _ | .float _ => by
    simp [encodeValue, size, Size.written_leaf]
  | .string _ | .binary _ => by
    simp [encodeValue, size, framed_iff, Size.written_leaf]
  | .array elements => by
    rw [encodeValue, size, framed_iff, Size.written_container, encodeValues_iff elements]
  | .map entries => by
    rw [encodeValue, size, framed_iff, Size.written_container, encodeEntries_iff entries]

theorem encodeValues_iff : ∀ elements : List MessagePackValue,
    (∃ bytes, encodeValues elements = .ok bytes) ↔ (sizes elements).Written
  | [] => by
    rw [encodeValues, sizes]
    exact ⟨fun _ => Size.written_none, fun _ => ⟨[], rfl⟩⟩
  | value :: elements => by
    rw [encodeValues, sizes, joined_iff, Size.written_inFront, encodeValue_iff value,
      encodeValues_iff elements]

theorem encodeEntries_iff : ∀ entries : List (MessagePackValue × MessagePackValue),
    (∃ bytes, encodeEntries entries = .ok bytes) ↔ (entrySizes entries).Written
  | [] => by
    rw [encodeEntries, entrySizes]
    exact ⟨fun _ => Size.written_none, fun _ => ⟨[], rfl⟩⟩
  | (key, value) :: entries => by
    rw [encodeEntries, entrySizes, joined_iff, joined_iff, Size.written_inFront,
      Size.written_inFront, encodeValue_iff key, encodeValue_iff value,
      encodeEntries_iff entries]

end

theorem decodeOwned_encode (widen : UInt32 → UInt64) (limits : MessagePackDecodeLimits)
    (h : encodeOwned value = .ok bytes) :
    decodeOwned widen limits bytes =
      if (size value).Within limits then .ok (canonical value) else .error .limitExceeded := by
  have hdecode : decodeValue widen limits (limits.maximumDepth + 1) (bytes ++ []) 0 = _ :=
    decodeValue_encode value h [] (limits.maximumDepth + 1) 0
  have hfits : (size value).FitsAlone limits (limits.maximumDepth + 1) 0 ↔
      (size value).Within limits := by
    rw [Size.fitsAlone_iff, Size.Within]
    omega
  rw [List.append_nil, verdict] at hdecode
  rw [decodeOwned, hdecode]
  simp only [hfits]
  split_ifs <;> rfl

/-- A value has an encoding unless a length exceeds the widest length field. Decoding the
encoding gives the value back, if it is in canonical form and within the limits, and gives
the limit error exactly if one of its measures exceeds its limit. -/
theorem owned_round_trip (widen : UInt32 → UInt64) (limits : MessagePackDecodeLimits)
    (value : MessagePackValue) :
    ((∃ bytes, encodeOwned value = .ok bytes) ↔
      (size value).containerLength ≤ u32Max ∧ (size value).blobLength ≤ u32Max) ∧
    ∀ bytes, encodeOwned value = .ok bytes → (Canonical value → (size value).Within limits →
        decodeOwned widen limits bytes = .ok value) ∧
      (decodeOwned widen limits bytes = .error .limitExceeded ↔
        limits.maximumDepth < (size value).depth ∨ limits.maximumValues < (size value).values ∨
        limits.maximumContainerLength < (size value).containerLength ∨
        limits.maximumBlobLength < (size value).blobLength) := by
  refine ⟨encodeValue_iff value, fun bytes h => ?_⟩
  rw [decodeOwned_encode widen limits h]
  constructor
  · intro hcanonical hwithin
    rw [if_pos hwithin, canonical_of_canonical value hcanonical]
  · split_ifs with hwithin <;> unfold Size.Within at hwithin
    · exact ⟨nofun, fun _ => by omega⟩
    · exact ⟨fun _ => by omega, fun _ => rfl⟩

/-- A map of two kinds of integers and a blob, decoded under the default limits. -/
theorem owned_round_trip_nested : decodeOwned (fun _ => 0) .default
        [0x81, 0xa1, 0x6b, 0x93, 0xff, 0xcd, 0x01, 0x00, 0xc4, 0x01, 0x07] =
      .ok (.map [(.string "k", .array [.signed (-1), .unsigned 256, .binary [7]])]) := by
  apply ((owned_round_trip (fun _ => 0) .default _).2 _ _).1
  · simp only [Canonical, CanonicalEntries, CanonicalAll]
    decide
  · decide
  · decide

end Prns.Ports.MessagePack
