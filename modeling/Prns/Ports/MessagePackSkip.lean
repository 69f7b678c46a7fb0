import Mathlib.Data.List.Infix
import Prns.Ports.MessagePack

/-!
# Skipping a MessagePack value

Model of `skip_value` in `message_pack/decoder.rs`, which passes over a value that the
reader does not know, and its agreement with the decoder of `owned.rs`. What the decoder
accepts, skipping passes over up to the same byte. Skipping accepts more, the extension
values and strings that are not UTF-8, and it bounds neither the number of values nor their
lengths but by the bytes that are there.
-/

namespace Prns.Ports.MessagePack

open Verified

def skip (length : Nat) (bytes : List UInt8) : Option (List UInt8) :=
  (readBytes length bytes).map Prod.snd

/-- `checked_add(1)` and `checked_mul(2)` of a length. -/
def checked (f : Nat → Nat) (length : Option (Nat × List UInt8)) : Option (Nat × List UInt8) :=
  length.bind fun (length, rest) => if usizeMax < f length then none else some (f length, rest)

/-- A blob behind its length. -/
def skipBlob (length : Option (Nat × List UInt8)) : Option (List UInt8) :=
  length.bind fun (length, rest) => skip length rest

/-- The loop of `skip_sequence`; `step` reads the marker of an element and skips it. -/
def skipSequence (step : List UInt8 → Option (List UInt8)) : Nat → List UInt8 → Option (List UInt8)
  | 0, bytes => some bytes
  | length + 1, bytes => (step bytes).bind (skipSequence step length)

/-- A container behind the number of its values. -/
def skipContainer (step : List UInt8 → Option (List UInt8)) (length : Option (Nat × List UInt8)) :
    Option (List UInt8) :=
  length.bind fun (length, rest) => skipSequence step length rest

/-- The `match` of `skip_value` on the marker. -/
def skipMarked (step : List UInt8 → Option (List UInt8)) (marker : Marker) (bytes : List UInt8) :
    Option (List UInt8) :=
  match marker with
  | .false | .true | .null | .fixPos _ | .fixNeg _ => some bytes
  | .u8 | .i8 => skip 1 bytes
  | .u16 | .i16 => skip 2 bytes
  | .u32 | .i32 | .f32 => skip 4 bytes
  | .u64 | .i64 | .f64 => skip 8 bytes
  | .fixStr length => skip length.toNat bytes
  | .str8 | .bin8 => skipBlob (readUint 1 bytes)
  | .str16 | .bin16 => skipBlob (readUint 2 bytes)
  | .str32 | .bin32 => skipBlob (length32 bytes)
  | .fixArray length => skipSequence step length.toNat bytes
  | .array16 => skipContainer step (readUint 2 bytes)
  | .array32 => skipContainer step (length32 bytes)
  | .fixMap length => skipSequence step (length.toNat * 2) bytes
  | .map16 => skipContainer step (checked (· * 2) (readUint 2 bytes))
  | .map32 => skipContainer step (checked (· * 2) (length32 bytes))
  | .fixExt1 => skip 2 bytes
  | .fixExt2 => skip 3 bytes
  | .fixExt4 => skip 5 bytes
  | .fixExt8 => skip 9 bytes
  | .fixExt16 => skip 17 bytes
  | .ext8 => skipBlob (checked (· + 1) (readUint 1 bytes))
  | .ext16 => skipBlob (checked (· + 1) (readUint 2 bytes))
  | .ext32 => skipBlob (checked (· + 1) (length32 bytes))
  | .reserved => none

/-- A marker and what `skip` does with it. -/
def afterMarker (skip : Marker → List UInt8 → Option (List UInt8)) (bytes : List UInt8) :
    Option (List UInt8) :=
  (readMarker bytes).bind fun (marker, rest) => skip marker rest

/-- `skip_value`. As in `decodeValue`, the first argument is `maximum_depth + 1 - depth`. -/
def skipValue : Nat → Marker → List UInt8 → Option (List UInt8)
  | 0 => fun _ _ => none
  | room + 1 => skipMarked (afterMarker (skipValue room))

/-! ## Skipping and decoding -/

variable {width value : Nat}

theorem readUint_lt {bytes rest : List UInt8} (h : readUint width bytes = some (value, rest)) :
    value < 256 ^ width := by
  simp only [readUint, readBytes, Option.map_eq_some_iff, Option.ite_none_left_eq_some] at h
  obtain ⟨⟨taken, after⟩, ⟨hlength, htaken⟩, hvalue⟩ := h
  cases htaken
  cases hvalue
  have htake : (bytes.take width).length = width := by simp; omega
  simpa [htake] using ofBeBytes_lt (bytes.take width)

theorem answered_ok {α β : Type} {read : Option (Option α × List UInt8)}
    {k : α → List UInt8 → Except MessagePackOwnedError β} {result : β}
    (h : answered read k = .ok result) :
    ∃ value rest, read = some (some value, rest) ∧ k value rest = .ok result := by
  match read, h with
  | some (some value, rest), h => exact ⟨value, rest, rfl, h⟩

variable {α : Type} {rest : List UInt8}

theorem contained_ok {make : α → MessagePackValue}
    {elements : Except MessagePackOwnedError (α × List UInt8 × Nat)} {value : MessagePackValue}
    {count : Nat} (h : contained make elements = .ok (value, rest, count)) :
    ∃ values, elements = .ok (values, rest, count) := by
  match elements, h with
  | .ok (values, after, total), h =>
    cases h
    exact ⟨values, rfl⟩

theorem mine_eq_some {read : Option (α × List UInt8)} {value : α} :
    mine read = some (some value, rest) ↔ read = some (value, rest) := by
  cases read <;> simp [mine, Prod.ext_iff]

variable {step : List UInt8 → Option (List UInt8)}

section

variable {marker : Marker} {bytes : List UInt8}

theorem skip_of_readUint (h : readUint width bytes = some (value, rest)) :
    skip width bytes = some rest := by
  obtain ⟨read, hread, heq⟩ := Option.map_eq_some_iff.mp h
  rw [skip, hread]
  exact congrArg some (congrArg Prod.snd heq)

theorem skip_of_number {width : Nat} {value : α} {f : Nat × List UInt8 → α × List UInt8}
    (h : mine ((readUint width bytes).map f) = some (some value, rest))
    (hf : ∀ read, (f read).2 = read.2) : skip width bytes = some rest := by
  obtain ⟨read, hread, heq⟩ := Option.map_eq_some_iff.mp (mine_eq_some.mp h)
  rw [skip_of_readUint hread]
  exact congrArg some ((hf read).symm.trans (congrArg Prod.snd heq))

theorem skipMarked_of_readInteger {value : MessagePackInteger}
    (h : readInteger marker bytes = some (some value, rest)) :
    skipMarked step marker bytes = some rest := by
  cases marker with
  | fixPos | fixNeg =>
    cases mine_eq_some.mp h
    rfl
  | u8 | u16 | u32 | u64 | i8 | i16 | i32 | i64 => exact skip_of_number h fun _ => rfl
  | _ => cases h

variable {length : Nat} {decode : Step MessagePackValue}

theorem skipMarked_of_blobLength
    (h : stringLength marker bytes = some (some length, rest) ∨
      binaryLength marker bytes = some (some length, rest)) :
    skipMarked step marker bytes = skip length rest := by
  cases marker with
  | fixStr =>
    rcases h with h | h
    · cases mine_eq_some.mp h
      rfl
    · cases h
  | str8 | str16 | str32 | bin8 | bin16 | bin32 =>
    rcases h with h | h
    all_goals first | cases h | exact congrArg skipBlob (mine_eq_some.mp h)
  | _ => rcases h with h | h <;> cases h

theorem skip_of_read {length : Option (Option Nat × List UInt8)}
    {f : List UInt8 × List UInt8 → Option α × List UInt8} {value : α}
    (h : (length.bind fun
      | (none, rest) => notMine rest
      | (some length, rest) => (readBytes length rest).map f) = some (some value, rest))
    (hf : ∀ read, (f read).2 = read.2) :
    ∃ n after, length = some (some n, after) ∧ skip n after = some rest := by
  obtain ⟨⟨n, after⟩, hlength, h⟩ := Option.bind_eq_some_iff.mp h
  cases n with
  | none => cases h
  | some n =>
    obtain ⟨read, hread, heq⟩ := Option.map_eq_some_iff.mp h
    refine ⟨n, after, hlength, ?_⟩
    rw [skip, hread]
    exact congrArg some ((hf read).symm.trans (congrArg Prod.snd heq))

theorem skipMarked_of_arrayLength (h : arrayLength marker bytes = some (some length, rest)) :
    skipMarked step marker bytes = skipSequence step length rest := by
  cases marker with
  | fixArray =>
    cases mine_eq_some.mp h
    rfl
  | array16 | array32 => exact congrArg (skipContainer step) (mine_eq_some.mp h)
  | _ => cases h

theorem skipContainer_doubled {read : Option (Nat × List UInt8)} (h : read = some (length, rest))
    (hlt : length < 256 ^ 4) :
    skipContainer step (checked (· * 2) read) = skipSequence step (length * 2) rest := by
  have hfits : ¬usizeMax < length * 2 := by
    unfold usizeMax
    omega
  simp [skipContainer, checked, h, hfits]

theorem skipMarked_of_mapLength (h : mapLength marker bytes = some (some length, rest)) :
    skipMarked step marker bytes = skipSequence step (length * 2) rest := by
  cases marker with
  | fixMap =>
    cases mine_eq_some.mp h
    rfl
  | map16 =>
    have hlength := mine_eq_some.mp h
    exact skipContainer_doubled hlength (Nat.lt_trans (readUint_lt hlength) (by decide))
  | map32 =>
    have hlength := mine_eq_some.mp h
    refine skipContainer_doubled hlength ?_
    simp only [length32, Option.bind_eq_some_iff, Option.ite_none_left_eq_some] at hlength
    obtain ⟨read, hread, -, heq⟩ := hlength
    cases heq
    exact readUint_lt hread
  | _ => cases h

/-- What `decode` accepts, `step` skips. -/
def Follows {α : Type} (step : List UInt8 → Option (List UInt8)) (decode : Step α) : Prop :=
  ∀ ⦃bytes values value rest count⦄,
    decode bytes values = .ok (value, rest, count) → step bytes = some rest

theorem Follows.sequence {decode : Step α} (hstep : Follows step decode) (length : Nat) :
    Follows (skipSequence step length) (decodeMany decode length) := by
  induction length with
  | zero =>
    intro bytes values elements rest count h
    cases h
    rfl
  | succ length ih =>
    intro bytes values elements rest count h
    rw [decodeMany] at h
    cases hfirst : decode bytes values with
    | error e => simp [hfirst] at h
    | ok first =>
      cases hrest : decodeMany decode length first.2.1 first.2.2 with
      | error e => simp [hfirst, hrest] at h
      | ok others =>
        simp only [hfirst, hrest] at h
        cases h
        rw [skipSequence, hstep hfirst]
        exact ih hrest

theorem skipSequence_twice (length : Nat) (bytes : List UInt8) :
    skipSequence (skipSequence step 2) length bytes = skipSequence step (length * 2) bytes := by
  induction length generalizing bytes with
  | zero => rfl
  | succ length ih =>
    rw [skipSequence, funext ih, Nat.succ_mul]
    simp [skipSequence, Option.bind_assoc]

theorem Follows.entry (hstep : Follows step decode) :
    Follows (skipSequence step 2) (decodeEntry decode) := by
  intro bytes values entry rest count h
  rw [decodeEntry] at h
  cases hkey : decode bytes values with
  | error e => simp [hkey] at h
  | ok key =>
    cases hvalue : decode key.2.1 key.2.2 with
    | error e => simp [hkey, hvalue] at h
    | ok value =>
      simp only [hkey, hvalue] at h
      cases h
      simp [skipSequence, hstep hkey, hstep hvalue]

theorem Follows.marked {widen : UInt32 → UInt64} {limits : MessagePackDecodeLimits}
    (hstep : Follows step decode) (marker : Marker) :
    Follows (skipMarked step marker) (decodeMarked widen limits decode marker) := by
  intro bytes values value rest count h
  delta decodeMarked at h
  cases marker <;> dsimp only at h
  case null | false | true =>
    cases h
    rfl
  case fixPos | fixNeg | u8 | u16 | u32 | u64 | i8 | i16 | i32 | i64 =>
    obtain ⟨integer, after, hread, hinteger⟩ := answered_ok h
    rw [skipMarked_of_readInteger hread]
    cases integer <;> cases hinteger <;> rfl
  case f32 | f64 =>
    obtain ⟨bits, after, hread, hbits⟩ := answered_ok h
    cases hbits
    exact skip_of_number hread fun _ => rfl
  case fixStr | str8 | str16 | str32 | bin8 | bin16 | bin32 =>
    obtain ⟨blob, after, hread, hblob⟩ := answered_ok h
    simp only [decodeString, decodeBinary] at hblob
    split at hblob <;> cases hblob
    obtain ⟨length, blob, hlength, hskip⟩ := skip_of_read hread fun _ => rfl
    rw [skipMarked_of_blobLength (by first | exact .inl hlength | exact .inr hlength), hskip]
  case fixArray | array16 | array32 =>
    obtain ⟨length, after, hread, hk⟩ := answered_ok h
    simp only [decodeArray] at hk
    split at hk <;> [cases hk; skip]
    rw [skipMarked_of_arrayLength hread]
    obtain ⟨elements, helements⟩ := contained_ok hk
    exact hstep.sequence length helements
  case fixMap | map16 | map32 =>
    obtain ⟨length, after, hread, hk⟩ := answered_ok h
    simp only [decodeMap] at hk
    split at hk <;> [cases hk; skip]
    rw [skipMarked_of_mapLength hread, ← skipSequence_twice]
    obtain ⟨entries, hentries⟩ := contained_ok hk
    exact hstep.entry.sequence length hentries
  all_goals cases h

theorem skipValue_follows (widen : UInt32 → UInt64) (limits : MessagePackDecodeLimits)
    {room skipRoom : Nat} (hroom : room ≤ skipRoom) :
    Follows (afterMarker (skipValue skipRoom)) (decodeValue widen limits room) := by
  induction room generalizing skipRoom with
  | zero => exact nofun
  | succ room ih =>
    intro bytes values value rest count h
    cases skipRoom with
    | zero => cases hroom
    | succ skipRoom =>
      simp only [decodeValue] at h
      split at h <;> [cases h; skip]
      cases bytes with
      | nil => cases h
      | cons first bytes => exact (ih (Nat.le_of_succ_le_succ hroom)).marked _ h

end

/-! ## The bytes that are skipped -/

/-- A success of `step` leaves a part of the bytes. -/
def Leaves (step : List UInt8 → Option (List UInt8)) : Prop :=
  ∀ ⦃bytes rest⦄, step bytes = some rest → rest <:+ bytes

section

theorem skip_leaves (length : Nat) : Leaves (skip length) := by
  intro bytes rest h
  simp only [skip, readBytes, Option.map_eq_some_iff, Option.ite_none_left_eq_some] at h
  obtain ⟨read, ⟨-, hread⟩, rfl⟩ := h
  cases hread
  exact bytes.drop_suffix length

theorem Leaves.sequence (hstep : Leaves step) (length : Nat) :
    Leaves (skipSequence step length) := by
  induction length with
  | zero =>
    intro bytes rest h
    cases h
    exact List.suffix_rfl
  | succ length ih =>
    intro bytes rest h
    obtain ⟨after, hfirst, hrest⟩ := Option.bind_eq_some_iff.mp h
    exact (ih hrest).trans (hstep hfirst)

/-- What a read of a length leaves, and what is skipped behind it. -/
def LengthLeaves (read : List UInt8 → Option (Nat × List UInt8)) : Prop :=
  ∀ ⦃bytes length rest⦄, read bytes = some (length, rest) → rest <:+ bytes

theorem readUint_leaves (width : Nat) : LengthLeaves (readUint width) := by
  intro bytes length rest h
  exact skip_leaves width (skip_of_readUint h)

theorem length32_leaves : LengthLeaves length32 := by
  intro bytes length rest h
  simp only [length32, Option.bind_eq_some_iff, Option.ite_none_left_eq_some] at h
  obtain ⟨read, hread, -, heq⟩ := h
  cases heq
  exact readUint_leaves 4 hread

variable {read : List UInt8 → Option (Nat × List UInt8)}

theorem LengthLeaves.checked (hread : LengthLeaves read) (f : Nat → Nat) :
    LengthLeaves fun bytes => checked f (read bytes) := by
  intro bytes length rest h
  simp only [MessagePack.checked, Option.bind_eq_some_iff, Option.ite_none_left_eq_some] at h
  obtain ⟨found, hfound, -, heq⟩ := h
  cases heq
  exact hread hfound

theorem LengthLeaves.behind (hread : LengthLeaves read)
    {pass : Nat → List UInt8 → Option (List UInt8)} (hpass : ∀ length, Leaves (pass length)) :
    Leaves fun bytes => (read bytes).bind fun (length, rest) => pass length rest := by
  intro bytes rest h
  obtain ⟨⟨length, after⟩, hlength, hrest⟩ := Option.bind_eq_some_iff.mp h
  exact (hpass length hrest).trans (hread hlength)

theorem Leaves.marked (hstep : Leaves step) (marker : Marker) :
    Leaves (skipMarked step marker) := by
  cases marker with
  | false | true | null | fixPos | fixNeg =>
    intro bytes rest h
    cases h
    exact List.suffix_rfl
  | u8 | i8 | u16 | i16 | u32 | i32 | f32 | u64 | i64 | f64 | fixStr | fixExt1 | fixExt2 | fixExt4
    | fixExt8 | fixExt16 => exact skip_leaves _
  | str8 | bin8 | str16 | bin16 => exact (readUint_leaves _).behind skip_leaves
  | str32 | bin32 => exact length32_leaves.behind skip_leaves
  | fixArray | fixMap => exact hstep.sequence _
  | array16 => exact (readUint_leaves 2).behind hstep.sequence
  | array32 => exact length32_leaves.behind hstep.sequence
  | map16 => exact ((readUint_leaves 2).checked _).behind hstep.sequence
  | map32 => exact (length32_leaves.checked _).behind hstep.sequence
  | ext8 | ext16 => exact ((readUint_leaves _).checked _).behind skip_leaves
  | ext32 => exact (length32_leaves.checked _).behind skip_leaves
  | reserved => exact nofun

theorem skipValue_leaves (room : Nat) (marker : Marker) : Leaves (skipValue room marker) := by
  induction room generalizing marker with
  | zero => exact nofun
  | succ room ih =>
    have hstep : Leaves (afterMarker (skipValue room)) := by
      intro bytes rest h
      cases bytes with
      | nil => cases h
      | cons first bytes => exact (ih _ h).trans (List.suffix_cons first bytes)
    exact hstep.marked marker

end

/-- Skipping agrees with decoding, and keeps to the bytes: a value that the decoder accepts,
under whatever limits and with whatever budget left, is skipped up to the byte where the
decoder stops, if skipping may go as deep; and for any marker and any bytes, skipping fails
or leaves an end of the bytes. -/
theorem skip_value_agrees_with_decode (widen : UInt32 → UInt64) (limits : MessagePackDecodeLimits)
    (room : Nat) :
    (∀ skipRoom bytes values value rest count, room ≤ skipRoom →
      decodeValue widen limits room bytes values = .ok (value, rest, count) →
      ∃ marker after, readMarker bytes = some (marker, after) ∧
        skipValue skipRoom marker after = some rest) ∧
    ∀ marker bytes, skipValue room marker bytes = none ∨
      ∃ rest, skipValue room marker bytes = some rest ∧ rest <:+ bytes := by
  refine ⟨fun skipRoom bytes values value rest count hroom h => ?_, fun marker bytes => ?_⟩
  · obtain ⟨read, hread, hskip⟩ :=
      Option.bind_eq_some_iff.mp (skipValue_follows widen limits hroom h)
    exact ⟨read.1, read.2, hread, hskip⟩
  · cases h : skipValue room marker bytes with
    | none => exact .inl rfl
    | some rest => exact .inr ⟨rest, rfl, skipValue_leaves room marker h⟩

/-- A map with an array of a float and a blob, decoded with two levels to spare. -/
theorem skip_value_agrees_with_decode_map :
    ∃ marker after,
      readMarker [0x81, 0x00, 0x92, 0xca, 0, 0, 0, 0, 0xc4, 1, 0x61, 0xc0] = some (marker, after) ∧
        skipValue 5 marker after = some [0xc0] :=
  (skip_value_agrees_with_decode (fun _ => 0) .default 3).1 5 _ 0
    (.map [(.unsigned 0, .array [.float 0, .binary [0x61]])]) [0xc0] 5 (by decide) rfl

/-- The depth that the reader of a path table gives to skipping is less than the decoder's:
five arrays in one another are decoded and not skipped. -/
theorem skip_value_shallower : (∃ value count, decodeValue (fun _ => 0) .default (16 + 1)
      [0x91, 0x91, 0x91, 0x91, 0x91, 0xc0] 0 = .ok (value, [], count)) ∧
      ∀ marker after, readMarker [0x91, 0x91, 0x91, 0x91, 0x91, 0xc0] = some (marker, after) →
        skipValue (4 + 1) marker after = none := by
  refine ⟨⟨_, _, rfl⟩, fun marker after h => ?_⟩
  cases h
  rfl

end Prns.Ports.MessagePack
