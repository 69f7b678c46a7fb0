import Prns.Ports.ResourceAdvertisement
import Prns.Ports.ResourceHashmap

/-!
# Building an outgoing resource

A build (`build_outgoing.rs`) seals the stream of a segment into a transfer buffer and
names the parts in a second buffer, under another salt when names collide. Both buffers
are reserved before, in a shape that is computed from lengths alone, and `track_built`
refuses a build of another shape. The seal, the names and the digests are given functions.
-/

namespace Prns.Ports.ResourceBuild

open Verified Advertising ResourcePull
open OutgoingResources (BuildOutgoingResourceError ResourceHash metadataPrefixLen)

def saltRerollCap : Nat := 8

/-- `digests` yields the hash of a stream under a salt, and the expected proof. -/
structure Crypto where
  sealStream : List UInt8 → List UInt8
  length_sealStream : ∀ plaintext, (sealStream plaintext).length = sealedLen plaintext.length
  mapHash : Bytes 4 → List UInt8 → MapHash
  digests : List UInt8 → Bytes 4 → ResourceHash × Nat

/-- The metadata of the body has only lengths; `packed` are its bytes. -/
structure Inputs where
  envelope : List UInt8
  body : ResourceBody
  packed : List UInt8
  packed_length : ∀ len, body.metadata = .packed len → packed.length = len
  sdu : Nat

structure Regions where
  transfer : List UInt8
  hashmap : List MapHash

structure BuiltResource where
  sealedTransferBytes : Nat
  partCount : Nat
  hash : ResourceHash
  saltNonce : Bytes 4
  expectedProof : Nat
  compressed : Bool
  hasMetadata : Bool
  uncompressedDataBytes : Nat

/-- Metadata that travels here has its length in three bytes before it. -/
def Inputs.uncompressedStream (inputs : Inputs) : List UInt8 :=
  (match inputs.body.metadata with
    | .packed _ => (beBytes 4 inputs.packed.length).tail ++ inputs.packed
    | _ => []) ++ inputs.envelope ++ inputs.body.data

def overwrite {α : Type} (payload region : List α) : List α :=
  payload ++ region.drop payload.length

/-- `build_outgoing_resource_enveloped`. The first nonce is the stream's, the others are
salts. The names of an attempt that collided are overwritten or given up with the row. -/
def build (crypto : Crypto) (inputs : Inputs) (nonce : Nat → Bytes 4) (regions : Regions) :
    Except BuildOutgoingResourceError BuiltResource × Regions :=
  match uncompressedStreamLen inputs.envelope.length inputs.body with
  | .error error => (.error error, regions)
  | .ok streamLen =>
    if inputs.sdu = 0 then (.error .sduTooSmall, regions)
    else
      let winner := winningCandidate inputs.body.compressedCandidate streamLen
      let plaintext := (nonce 0).val ++ winner.getD inputs.uncompressedStream
      if regions.transfer.length < sealedLen plaintext.length then (.error .sealTooShort, regions)
      else
        let sealed := crypto.sealStream plaintext
        let transfer := overwrite sealed regions.transfer
        let partCount := divCeil sealed.length inputs.sdu
        if regions.hashmap.length * mapHashLen < partCount * mapHashLen then
          (.error .hashmapBufferTooShort, { regions with transfer })
        else
          let attempt (i : Nat) : Option (Bytes 4 × List MapHash) :=
            (writeHashmapWithoutCollision (crypto.mapHash (nonce (i + 1))) sealed inputs.sdu).map
              (nonce (i + 1), ·)
          match (List.range saltRerollCap).findSome? attempt with
          | none => (.error .saltRerollsExhausted, { regions with transfer })
          | some (salt, names) =>
              let digests := crypto.digests inputs.uncompressedStream salt
              (.ok ⟨sealed.length, partCount, digests.1, salt, digests.2, winner.isSome,
                decide (inputs.body.metadata ≠ .none), streamLen⟩,
                ⟨transfer, overwrite names regions.hashmap⟩)

/-- What `track_built` makes of the outcome of a build. -/
def trackBuilt (shape : ResourceBufferShape) :
    Except BuildOutgoingResourceError BuiltResource → Except BuildOutgoingResourceError ResourceHash
  | .ok built =>
      if built.sealedTransferBytes = shape.transferBytes ∧ built.partCount = shape.partCount then
        .ok built.hash
      else .error .bufferShapeMismatch
  | .error error => .error error

/-- A buffer keeps its length, and everything from position `n` on. -/
def Within {α : Type} (n : Nat) (old new : List α) : Prop :=
  new.length = old.length ∧ new.drop n = old.drop n

theorem within_overwrite {α : Type} {payload region : List α} {n : Nat}
    (hpayload : payload.length ≤ n) (hn : n ≤ region.length) :
    Within n region (overwrite payload region) := by
  constructor
  · simp [overwrite]
    omega
  · simp [overwrite, List.drop_append, List.drop_eq_nil_of_le hpayload, hpayload]

/-- In buffers that hold the estimated shape a build changes nothing behind it, and each
attempt names as many parts as the shape has. It fills the shape exactly and is tracked,
unless eight salts collide. -/
theorem build_fills_shape (crypto : Crypto) (inputs : Inputs) (nonce : Nat → Bytes 4)
    (regions : Regions) (shape : ResourceBufferShape)
    (hshape : outgoingResourceBufferShape inputs.envelope.length inputs.body inputs.sdu = .ok shape)
    (htransfer : shape.transferBytes ≤ regions.transfer.length)
    (hhashmap : shape.partCount ≤ regions.hashmap.length) :
    let run := build crypto inputs nonce regions
    let sealed := run.2.transfer.take shape.transferBytes
    Within shape.transferBytes regions.transfer run.2.transfer ∧
    Within shape.partCount regions.hashmap run.2.hashmap ∧
    (chunks sealed inputs.sdu).length = shape.partCount ∧
    ((∃ built names, run.1 = .ok built ∧ trackBuilt shape run.1 = .ok built.hash ∧
        built.sealedTransferBytes = shape.transferBytes ∧ built.partCount = shape.partCount ∧
        names.length = shape.partCount ∧ names <+: run.2.hashmap ∧
        writeHashmapWithoutCollision (crypto.mapHash built.saltNonce) sealed inputs.sdu =
          some names) ∨
      run.1 = .error .saltRerollsExhausted) := by
  obtain ⟨streamLen, hlen, hstream⟩ := outgoingResourceBufferShape_ok hshape
  obtain ⟨hbytes, hsdu, hparts⟩ := shapeForStream_ok hstream
  have huncompressed : inputs.uncompressedStream.length = streamLen := by
    unfold uncompressedStreamLen at hlen
    split_ifs at hlen
    cases hlen
    cases hmetadata : inputs.body.metadata <;>
      simp [Inputs.uncompressedStream, hmetadata, metadataBytes, metadataPrefixLen, Nat.add_assoc]
    exact inputs.packed_length _ hmetadata
  have hplain : sealedLen ((nonce 0).val ++ (winningCandidate inputs.body.compressedCandidate
      streamLen).getD inputs.uncompressedStream).length = shape.transferBytes := by
    rw [hbytes, List.length_append, (nonce 0).property, Nat.add_comm, ← huncompressed]
    cases winningCandidate inputs.body.compressedCandidate inputs.uncompressedStream.length <;> rfl
  rw [build, hlen]
  simp only [if_neg hsdu, hplain, if_neg (Nat.not_lt.mpr htransfer)]
  have hsealed := (crypto.length_sealStream _).trans hplain
  generalize crypto.sealStream _ = sealed at hsealed ⊢
  rw [← hbytes, ← hsealed] at hparts
  rw [← hparts, if_neg (Nat.not_lt.mpr (Nat.mul_le_mul_right _ hhashmap))]
  have hchunks : (chunks sealed inputs.sdu).length = shape.partCount := by
    rw [hparts, chunks, List.length_map, List.length_range, divCeil]
  have htake : (overwrite sealed regions.transfer).take shape.transferBytes = sealed :=
    List.take_left' hsealed
  have hwithin := within_overwrite (Nat.le_of_eq hsealed) htransfer
  split
  · rw [htake]
    exact ⟨hwithin, ⟨rfl, rfl⟩, hchunks, Or.inr rfl⟩
  next salt names hfound =>
  obtain ⟨i, -, hattempt⟩ := List.exists_of_findSome?_eq_some hfound
  obtain ⟨written, hwritten, hpair⟩ := Option.map_eq_some_iff.mp hattempt
  cases hpair
  have hnames := (guarded_writeHashmap hwritten).2.trans hchunks
  rw [htake]
  refine ⟨hwithin, within_overwrite (Nat.le_of_eq hnames) hhashmap, hchunks,
    Or.inl ⟨_, names, rfl, ?_, hsealed, rfl, hnames, List.prefix_append _ _, hwritten⟩⟩
  simp [trackBuilt, hsealed]

/-- A seal and names of zeros. -/
def blankCrypto : Crypto :=
  ⟨fun plaintext => List.replicate (sealedLen plaintext.length) 0, fun _ => List.length_replicate,
    fun _ _ => 0, fun _ _ => (0, 0)⟩

def shortInputs : Inputs := ⟨[], ⟨[1, 2], none, .none⟩, [], nofun, 500⟩

theorem build_fills_shape_short :
    let run := build blankCrypto shortInputs (fun _ => ⟨[0, 0, 0, 0], rfl⟩)
      ⟨List.replicate 64 1, [1, 1]⟩
    Within 1 [1, 1] run.2.hashmap ∧ (chunks (run.2.transfer.take 64) 500).length = 1 :=
  (build_fills_shape blankCrypto shortInputs _ ⟨List.replicate 64 1, [1, 1]⟩ ⟨64, 1, 69⟩ rfl
    (by decide) (by decide)).2.imp_right And.left

end Prns.Ports.ResourceBuild
