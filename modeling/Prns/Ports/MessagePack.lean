import Prns.Verified.Bytes
import Mathlib.Algebra.Group.Int.Defs

/-!
# MessagePack values

Model of `message_pack/owned.rs` and of the reader in `message_pack/decoder.rs`. A value
is a marker byte, for some markers a big-endian length or number, and for strings, byte
blobs and containers the content. The decoder bounds the nesting, the number of values,
the length of containers and the length of blobs.

The writers are those of the `rmp` crate, taken as the standard shortest encodings. A
float is its 64 bits.
-/

namespace Prns.Ports.MessagePack

open Verified

inductive MessagePackValue where
  | nil
  | boolean (value : Bool)
  | signed (value : Int64)
  | unsigned (value : UInt64)
  | float (bits : UInt64)
  | string (value : String)
  | binary (value : List UInt8)
  | array (values : List MessagePackValue)
  | map (entries : List (MessagePackValue × MessagePackValue))

structure MessagePackDecodeLimits where
  maximumDepth : Nat
  maximumValues : Nat
  maximumContainerLength : Nat
  maximumBlobLength : Nat

def MessagePackDecodeLimits.default : MessagePackDecodeLimits :=
  ⟨16, 4096, 4096, 16 * 1024 * 1024⟩

inductive MessagePackOwnedError where
  | decode
  | encode
  | limitExceeded
  | unsupportedMarker
  | trailingData
  deriving DecidableEq, Repr

/-! ## Markers -/

inductive Marker where
  | fixPos (value : UInt8)
  | fixMap (length : UInt8)
  | fixArray (length : UInt8)
  | fixStr (length : UInt8)
  | null
  | reserved
  | false
  | true
  | bin8
  | bin16
  | bin32
  | ext8
  | ext16
  | ext32
  | f32
  | f64
  | u8
  | u16
  | u32
  | u64
  | i8
  | i16
  | i32
  | i64
  | fixExt1
  | fixExt2
  | fixExt4
  | fixExt8
  | fixExt16
  | str8
  | str16
  | str32
  | array16
  | array32
  | map16
  | map32
  | fixNeg (value : Int8)
  deriving DecidableEq, Repr

/-- The markers from `0xc0` to `0xdf`, in order. -/
def namedMarkers : List Marker :=
  [.null, .reserved, .false, .true, .bin8, .bin16, .bin32, .ext8, .ext16, .ext32, .f32, .f64,
    .u8, .u16, .u32, .u64, .i8, .i16, .i32, .i64, .fixExt1, .fixExt2, .fixExt4, .fixExt8,
    .fixExt16, .str8, .str16, .str32, .array16, .array32, .map16, .map32]

def Marker.fromU8 (value : UInt8) : Marker :=
  if value < 0x80 then .fixPos value
  else if value < 0x90 then .fixMap (value &&& 0x0f)
  else if value < 0xa0 then .fixArray (value &&& 0x0f)
  else if value < 0xc0 then .fixStr (value &&& 0x1f)
  else if value < 0xe0 then namedMarkers.getD (value.toNat - 0xc0) .reserved
  else .fixNeg value.toInt8

/-! ## Reading

A reader is the bytes that are left; `none` is the source's decode error. -/

def usizeMax : Nat := 2 ^ 64 - 1

def readBytes (length : Nat) (bytes : List UInt8) : Option (List UInt8 × List UInt8) :=
  if bytes.length < length then none else some (bytes.take length, bytes.drop length)

/-- `u8`, `u16`, `u32` and `u64` by their width in bytes. -/
def readUint (width : Nat) (bytes : List UInt8) : Option (Nat × List UInt8) :=
  (readBytes width bytes).map fun (value, rest) => (ofBeBytes value, rest)

def length32 (bytes : List UInt8) : Option (Nat × List UInt8) :=
  (readUint 4 bytes).bind fun (length, rest) =>
    if usizeMax < length then none else some (length, rest)

def readMarker : List UInt8 → Option (Marker × List UInt8)
  | [] => none
  | value :: rest => some (.fromU8 value, rest)

/-- The answer of a method for a marker it does not know. -/
def notMine {α : Type} (bytes : List UInt8) : Option (Option α × List UInt8) := some (none, bytes)

/-- The answer of a method for a marker it knows. -/
def mine {α : Type} (read : Option (α × List UInt8)) : Option (Option α × List UInt8) :=
  read.map fun (value, rest) => (some value, rest)

def arrayLength (marker : Marker) (bytes : List UInt8) : Option (Option Nat × List UInt8) :=
  match marker with
  | .fixArray length => mine (some (length.toNat, bytes))
  | .array16 => mine (readUint 2 bytes)
  | .array32 => mine (length32 bytes)
  | _ => notMine bytes

def mapLength (marker : Marker) (bytes : List UInt8) : Option (Option Nat × List UInt8) :=
  match marker with
  | .fixMap length => mine (some (length.toNat, bytes))
  | .map16 => mine (readUint 2 bytes)
  | .map32 => mine (length32 bytes)
  | _ => notMine bytes

def stringLength (marker : Marker) (bytes : List UInt8) : Option (Option Nat × List UInt8) :=
  match marker with
  | .fixStr length => mine (some (length.toNat, bytes))
  | .str8 => mine (readUint 1 bytes)
  | .str16 => mine (readUint 2 bytes)
  | .str32 => mine (length32 bytes)
  | _ => notMine bytes

/-- `str::from_utf8`, if the bytes are UTF-8. -/
def fromUtf8 (bytes : List UInt8) : Option String := String.fromUTF8? ⟨bytes.toArray⟩

def readString (marker : Marker) (bytes : List UInt8) : Option (Option String × List UInt8) :=
  (stringLength marker bytes).bind fun
    | (none, rest) => notMine rest
    | (some length, rest) =>
        (readBytes length rest).map fun (value, rest) => (fromUtf8 value, rest)

def binaryLength (marker : Marker) (bytes : List UInt8) : Option (Option Nat × List UInt8) :=
  match marker with
  | .bin8 => mine (readUint 1 bytes)
  | .bin16 => mine (readUint 2 bytes)
  | .bin32 => mine (length32 bytes)
  | _ => notMine bytes

def readBinary (marker : Marker) (bytes : List UInt8) :
    Option (Option (List UInt8) × List UInt8) :=
  (binaryLength marker bytes).bind fun
    | (none, rest) => notMine rest
    | (some length, rest) => mine (readBytes length rest)

inductive MessagePackInteger where
  | negative (value : Int64)
  | nonnegative (value : UInt64)
  deriving DecidableEq, Repr

def signedInteger (value : Int64) : MessagePackInteger :=
  if value < 0 then .negative value else .nonnegative value.toUInt64

/-- The value of `width` bytes read as two's complement. -/
def signExtend (width value : Nat) : Int64 :=
  Int64.ofInt (if value < 2 ^ (8 * width - 1) then value else value - 2 ^ (8 * width))

def readUnsigned (width : Nat) (bytes : List UInt8) : Option (MessagePackInteger × List UInt8) :=
  (readUint width bytes).map fun (value, rest) => (.nonnegative (UInt64.ofNat value), rest)

def readSigned (width : Nat) (bytes : List UInt8) : Option (MessagePackInteger × List UInt8) :=
  (readUint width bytes).map fun (value, rest) => (signedInteger (signExtend width value), rest)

def readInteger (marker : Marker) (bytes : List UInt8) :
    Option (Option MessagePackInteger × List UInt8) :=
  match marker with
  | .fixPos value => mine (some (.nonnegative value.toUInt64, bytes))
  | .fixNeg value => mine (some (.negative value.toInt64, bytes))
  | .u8 => mine (readUnsigned 1 bytes)
  | .u16 => mine (readUnsigned 2 bytes)
  | .u32 => mine (readUnsigned 4 bytes)
  | .u64 => mine (readUnsigned 8 bytes)
  | .i8 => mine (readSigned 1 bytes)
  | .i16 => mine (readSigned 2 bytes)
  | .i32 => mine (readSigned 4 bytes)
  | .i64 => mine (readSigned 8 bytes)
  | _ => notMine bytes

/-- `widen` is the conversion of the bits of an `f32` to those of an `f64`. -/
def readFloat (widen : UInt32 → UInt64) (marker : Marker) (bytes : List UInt8) :
    Option (Option UInt64 × List UInt8) :=
  match marker with
  | .f32 => mine ((readUint 4 bytes).map fun (bits, rest) => (widen (UInt32.ofNat bits), rest))
  | .f64 => mine ((readUint 8 bytes).map fun (bits, rest) => (UInt64.ofNat bits, rest))
  | _ => notMine bytes

/-! ## Decoding -/

section

/-- A decoding step: the bytes and the number of values so far, and both behind it. -/
abbrev Step (α : Type) : Type :=
  List UInt8 → Nat → Except MessagePackOwnedError (α × List UInt8 × Nat)

variable (widen : UInt32 → UInt64) (limits : MessagePackDecodeLimits)

/-- The two error mappings behind every reader call. -/
def answered {α β : Type} (read : Option (Option α × List UInt8))
    (k : α → List UInt8 → Except MessagePackOwnedError β) : Except MessagePackOwnedError β :=
  match read with
  | none => .error .decode
  | some (none, _) => .error .unsupportedMarker
  | some (some value, rest) => k value rest

/-- The loop over the elements of a container. -/
def decodeMany {α : Type} (step : Step α) : Nat → Step (List α)
  | 0, bytes, values => .ok ([], bytes, values)
  | length + 1, bytes, values =>
      match step bytes values with
      | .error e => .error e
      | .ok (value, bytes, values) =>
          match decodeMany step length bytes values with
          | .error e => .error e
          | .ok (rest, bytes, values) => .ok (value :: rest, bytes, values)

def decodeEntry (step : Step MessagePackValue) : Step (MessagePackValue × MessagePackValue) :=
  fun bytes values =>
    match step bytes values with
    | .error e => .error e
    | .ok (key, bytes, values) =>
        match step bytes values with
        | .error e => .error e
        | .ok (value, bytes, values) => .ok ((key, value), bytes, values)

def decodeInteger (values : Nat) (integer : MessagePackInteger) (rest : List UInt8) :
    Except MessagePackOwnedError (MessagePackValue × List UInt8 × Nat) :=
  match integer with
  | .negative value => .ok (.signed value, rest, values)
  | .nonnegative value => .ok (.unsigned value, rest, values)

def decodeFloat (values : Nat) (bits : UInt64) (rest : List UInt8) :
    Except MessagePackOwnedError (MessagePackValue × List UInt8 × Nat) :=
  .ok (.float bits, rest, values)

def decodeString (values : Nat) (value : String) (rest : List UInt8) :
    Except MessagePackOwnedError (MessagePackValue × List UInt8 × Nat) :=
  if limits.maximumBlobLength < value.utf8ByteSize then .error .limitExceeded
  else .ok (.string value, rest, values)

def decodeBinary (values : Nat) (value : List UInt8) (rest : List UInt8) :
    Except MessagePackOwnedError (MessagePackValue × List UInt8 × Nat) :=
  if limits.maximumBlobLength < value.length then .error .limitExceeded
  else .ok (.binary value, rest, values)

/-- A container around its elements, if they were decoded. -/
def contained {α : Type} (make : α → MessagePackValue)
    (elements : Except MessagePackOwnedError (α × List UInt8 × Nat)) :
    Except MessagePackOwnedError (MessagePackValue × List UInt8 × Nat) :=
  match elements with
  | .error e => .error e
  | .ok (elements, rest, values) => .ok (make elements, rest, values)

def decodeArray (step : Step MessagePackValue) (values length : Nat) (rest : List UInt8) :
    Except MessagePackOwnedError (MessagePackValue × List UInt8 × Nat) :=
  if limits.maximumContainerLength < length then .error .limitExceeded
  else contained .array (decodeMany step length rest values)

def decodeMap (step : Step MessagePackValue) (values length : Nat) (rest : List UInt8) :
    Except MessagePackOwnedError (MessagePackValue × List UInt8 × Nat) :=
  if limits.maximumContainerLength < length then .error .limitExceeded
  else contained .map (decodeMany (decodeEntry step) length rest values)

/-- The `match` of `decode_value` on the marker; `step` decodes a value one level deeper. -/
def decodeMarked (step : Step MessagePackValue) (marker : Marker) : Step MessagePackValue :=
  fun bytes values =>
    match marker with
    | .null => .ok (.nil, bytes, values)
    | .false => .ok (.boolean false, bytes, values)
    | .true => .ok (.boolean true, bytes, values)
    | .fixPos _ | .fixNeg _ | .u8 | .u16 | .u32 | .u64 | .i8 | .i16 | .i32 | .i64 =>
        answered (readInteger marker bytes) (decodeInteger values)
    | .f32 | .f64 => answered (readFloat widen marker bytes) (decodeFloat values)
    | .fixStr _ | .str8 | .str16 | .str32 =>
        answered (readString marker bytes) (decodeString limits values)
    | .bin8 | .bin16 | .bin32 =>
        answered (readBinary marker bytes) (decodeBinary limits values)
    | .fixArray _ | .array16 | .array32 =>
        answered (arrayLength marker bytes) (decodeArray limits step values)
    | .fixMap _ | .map16 | .map32 =>
        answered (mapLength marker bytes) (decodeMap limits step values)
    | _ => .error .unsupportedMarker

/-- `decode_value`. The first argument is `maximum_depth + 1 - depth`, which is zero
exactly where the source finds `depth > maximum_depth`. -/
def decodeValue : Nat → Step MessagePackValue
  | 0 => fun _ _ => .error .limitExceeded
  | room + 1 => fun bytes values =>
      if limits.maximumValues ≤ values then .error .limitExceeded
      else
        match readMarker bytes with
        | none => .error .decode
        | some (marker, rest) =>
            decodeMarked widen limits (decodeValue room) marker rest (values + 1)

def decodeOwned (bytes : List UInt8) : Except MessagePackOwnedError MessagePackValue :=
  match decodeValue widen limits (limits.maximumDepth + 1) bytes 0 with
  | .error e => .error e
  | .ok (value, rest, _) => if rest.isEmpty then .ok value else .error .trailingData

end

def u32Max : Nat := 2 ^ 32 - 1

def writeUint (value : Nat) : List UInt8 :=
  if value < 128 then [UInt8.ofNat value]
  else if value < 256 then 0xcc :: beBytes 1 value
  else if value < 65536 then 0xcd :: beBytes 2 value
  else if value < 4294967296 then 0xce :: beBytes 4 value
  else 0xcf :: beBytes 8 value

/-- The two's complement of `width` bytes. -/
def twosComplement (width : Nat) (value : Int) : List UInt8 :=
  beBytes width (value % 2 ^ (8 * width)).toNat

def writeSint (value : Int) : List UInt8 :=
  if 0 ≤ value then writeUint value.toNat
  else if -32 ≤ value then twosComplement 1 value
  else if -128 ≤ value then 0xd0 :: twosComplement 1 value
  else if -32768 ≤ value then 0xd1 :: twosComplement 2 value
  else if -2147483648 ≤ value then 0xd2 :: twosComplement 4 value
  else 0xd3 :: twosComplement 8 value

def writeStrLen (length : Nat) : List UInt8 :=
  if length < 32 then [UInt8.ofNat (0xa0 + length)]
  else if length < 256 then 0xd9 :: beBytes 1 length
  else if length < 65536 then 0xda :: beBytes 2 length
  else 0xdb :: beBytes 4 length

def writeBinLen (length : Nat) : List UInt8 :=
  if length < 256 then 0xc4 :: beBytes 1 length
  else if length < 65536 then 0xc5 :: beBytes 2 length
  else 0xc6 :: beBytes 4 length

def writeArrayLen (length : Nat) : List UInt8 :=
  if length < 16 then [UInt8.ofNat (0x90 + length)]
  else if length < 65536 then 0xdc :: beBytes 2 length
  else 0xdd :: beBytes 4 length

def writeMapLen (length : Nat) : List UInt8 :=
  if length < 16 then [UInt8.ofNat (0x80 + length)]
  else if length < 65536 then 0xde :: beBytes 2 length
  else 0xdf :: beBytes 4 length

/-- A length that a writer takes, in front of what it is the length of. -/
def framed (length : Nat) (head : List UInt8) (body : Except MessagePackOwnedError (List UInt8)) :
    Except MessagePackOwnedError (List UInt8) :=
  if u32Max < length then .error .encode else body.map (head ++ ·)

def joined (first second : Except MessagePackOwnedError (List UInt8)) :
    Except MessagePackOwnedError (List UInt8) :=
  match first with
  | .error e => .error e
  | .ok bytes => second.map (bytes ++ ·)

mutual

def encodeValue : MessagePackValue → Except MessagePackOwnedError (List UInt8)
  | .nil => .ok [0xc0]
  | .boolean value => .ok [if value then 0xc3 else 0xc2]
  | .signed value => .ok (writeSint value.toInt)
  | .unsigned value => .ok (writeUint value.toNat)
  | .float bits => .ok (0xcb :: beBytes 8 bits.toNat)
  | .string value =>
      framed value.utf8ByteSize (writeStrLen value.utf8ByteSize)
        (.ok value.toByteArray.data.toList)
  | .binary value => framed value.length (writeBinLen value.length) (.ok value)
  | .array values => framed values.length (writeArrayLen values.length) (encodeValues values)
  | .map entries => framed entries.length (writeMapLen entries.length) (encodeEntries entries)

def encodeValues : List MessagePackValue → Except MessagePackOwnedError (List UInt8)
  | [] => .ok []
  | value :: values => joined (encodeValue value) (encodeValues values)

def encodeEntries :
    List (MessagePackValue × MessagePackValue) → Except MessagePackOwnedError (List UInt8)
  | [] => .ok []
  | (key, value) :: entries =>
      joined (encodeValue key) (joined (encodeValue value) (encodeEntries entries))

end

def encodeOwned (value : MessagePackValue) : Except MessagePackOwnedError (List UInt8) :=
  encodeValue value

end Prns.Ports.MessagePack
