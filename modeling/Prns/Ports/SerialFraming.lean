import Prns.Verified.Machine
import Prns.Verified.ByteLanes

/-!
# RNS serial framing

A payload travels as `FLAG`, the payload with every `FLAG` and `ESC` byte
escaped, and `FLAG`. The scanner is a two-bit byte machine over a frame sink.
It has a byte path (`feedOneInto`) and a bulk path (`nextFrameInto`) that copies
the run up to the next special byte in one piece.

This file is the model of `interfaces/framing/mod.rs` and
`interfaces/framing/rns_serial_framing.rs`. Both sinks of the source are one
structure with a limit; the three builds of `find_special` are one function of
the build.
-/

namespace Prns.Ports.SerialFraming

open Verified.ByteLanes

inductive FrameSinkError where
  | full
  deriving DecidableEq, Repr

/-- The two sinks of the source: a growing byte vector, and a `FrameBuffer`
whose `FRAME_CAP` is a hard ceiling. -/
inductive SinkLimit where
  | vec
  | frameBuffer (frameCap : Nat)
  deriving DecidableEq, Repr

structure FrameSink where
  limit : SinkLimit
  bytes : List UInt8
  deriving DecidableEq, Repr

def usizeMax : Nat := 2 ^ 64 - 1

namespace FrameSink

def clear (sink : FrameSink) : FrameSink := { sink with bytes := [] }

def frameLen (sink : FrameSink) : Nat := sink.bytes.length

def freeCapacity (sink : FrameSink) : Nat :=
  match sink.limit with
  | .vec => usizeMax - sink.bytes.length
  | .frameBuffer frameCap => frameCap - sink.bytes.length

/-- All or nothing: a rejected byte leaves the sink as it was. -/
def push (sink : FrameSink) (byte : UInt8) : Except FrameSinkError FrameSink :=
  match sink.limit with
  | .vec => .ok { sink with bytes := sink.bytes ++ [byte] }
  | .frameBuffer frameCap =>
      if frameCap ≤ sink.bytes.length then .error .full
      else .ok { sink with bytes := sink.bytes ++ [byte] }

/-- All or nothing: a rejected run appends none of its bytes. -/
def extendFromSlice (sink : FrameSink) (run : List UInt8) :
    Except FrameSinkError FrameSink :=
  match sink.limit with
  | .vec => .ok { sink with bytes := sink.bytes ++ run }
  | .frameBuffer frameCap =>
      if frameCap - sink.bytes.length < run.length then .error .full
      else .ok { sink with bytes := sink.bytes ++ run }

end FrameSink

/-- A sink of this limit holds `n` bytes. -/
def SinkLimit.fits : SinkLimit → Nat → Prop
  | .vec, _ => True
  | .frameBuffer frameCap, n => n ≤ frameCap

theorem SinkLimit.fits.mono {limit : SinkLimit} {m n : Nat} (h : limit.fits n)
    (hmn : m ≤ n) : limit.fits m := by
  cases limit with
  | vec => trivial
  | frameBuffer frameCap => exact Nat.le_trans hmn h

theorem push_of_fits (sink : FrameSink) (b : UInt8) (h : sink.limit.fits (sink.bytes.length + 1)) :
    sink.push b = .ok { sink with bytes := sink.bytes ++ [b] } := by
  obtain ⟨limit, bytes⟩ := sink
  cases limit with
  | vec => rfl
  | frameBuffer frameCap =>
    have hlt : bytes.length + 1 ≤ frameCap := h
    simp only [FrameSink.push]
    rw [if_neg (by omega)]

def flag : UInt8 := 0x7E
def esc : UInt8 := 0x7D
def escMask : UInt8 := 0x20

/-- The bytes the encoder escapes and the bulk path stops at. -/
def isSpecial (byte : UInt8) : Bool := byte == flag || byte == esc

/-- The three compilations of `find_special`: with `std` the search is
`memchr2`, without it a word search over 16-byte or 8-byte chunks. -/
inductive SearchBuild where
  | std
  | bare64
  | bare32
  deriving DecidableEq, Repr

/-- `as_chunks`: `count` chunks of width `width`, and what remains. -/
def asChunks (width : Nat) : Nat → List UInt8 → List (List UInt8) × List UInt8
  | 0, bytes => ([], bytes)
  | count + 1, bytes =>
      (bytes.take width :: (asChunks width count (bytes.drop width)).1,
        (asChunks width count (bytes.drop width)).2)

def onesWord : UInt64 := 0x0101010101010101
def highsWord : UInt64 := 0x8080808080808080
def flagRep : UInt64 := flag.toUInt64 * onesWord
def escRep : UInt64 := esc.toUInt64 * onesWord

/-- The zero-byte marks of the word's two exclusive-or images. -/
def wordMarks (word : UInt64) : UInt64 :=
  let f := word ^^^ flagRep
  let e := word ^^^ escRep
  (((f - onesWord) &&& ~~~f) ||| ((e - onesWord) &&& ~~~e)) &&& highsWord

/-- `u64::trailing_zeros`, which is 64 for zero. -/
def trailingZeros (word : UInt64) : Nat :=
  (List.range 64).findIdx (fun i => word.toNat.testBit i)

/-- One 16-byte chunk: the low word first, then the high one. -/
def findInChunk16 (chunk : List UInt8) : Option Nat :=
  let word := fromLeBytes chunk
  let lowMarks := wordMarks (UInt64.ofNat word)
  if lowMarks ≠ 0 then some (trailingZeros lowMarks / 8)
  else
    let highMarks := wordMarks (UInt64.ofNat (word / 2 ^ 64))
    if highMarks ≠ 0 then some (8 + trailingZeros highMarks / 8) else none

/-- One 8-byte chunk. -/
def findInChunk8 (chunk : List UInt8) : Option Nat :=
  let marks := wordMarks (UInt64.ofNat (fromLeBytes chunk))
  if marks ≠ 0 then some (trailingZeros marks / 8) else none

/-- The loop over the enumerated chunks. -/
def findInChunks (width : Nat) (findInChunk : List UInt8 → Option Nat) :
    Nat → List (List UInt8) → Option Nat
  | _, [] => none
  | chunkIndex, chunk :: chunks =>
      match findInChunk chunk with
      | some at' => some (chunkIndex * width + at')
      | none => findInChunks width findInChunk (chunkIndex + 1) chunks

/-- The word search: whole chunks first, then the remainder byte by byte. -/
def findSpecialWords (width : Nat) (findInChunk : List UInt8 → Option Nat)
    (haystack : List UInt8) : Option Nat :=
  let split := asChunks width (haystack.length / width) haystack
  match findInChunks width findInChunk 0 split.1 with
  | some at' => some at'
  | none =>
      (split.2.findIdx? isSpecial).map (split.1.length * width + ·)

/-- `memchr2` is the crate's documented first-match search for two bytes. -/
def findSpecial (build : SearchBuild) (haystack : List UInt8) : Option Nat :=
  match build with
  | .std => haystack.findIdx? isSpecial
  | .bare64 => findSpecialWords 16 findInChunk16 haystack
  | .bare32 => findSpecialWords 8 findInChunk8 haystack

inductive EncodeError where
  | outputTooSmall
  deriving DecidableEq, Repr

def maxEncodedLen (payloadLen : Nat) : Nat := 2 + 2 * payloadLen

/-- The output buffer after `written` has been stored at its front. -/
def overlay (written output : List UInt8) : List UInt8 :=
  written ++ output.drop written.length

/-- The encoder's loop: a plain run, then one escaped byte, until the input has
no special byte left. `written` is the part of `output` stored so far. -/
def encodeLoop (build : SearchBuild) (output : List UInt8)
    (written rest : List UInt8) : Except EncodeError (List UInt8) × List UInt8 :=
  let split := findSpecial build rest
  let run := rest.take (split.getD rest.length)
  if output.length < written.length + run.length then
    (.error .outputTooSmall, overlay written output)
  else
    match split with
    | none => (.ok (written ++ run), overlay (written ++ run) output)
    | some pos =>
        if output.length < (written ++ run).length + 2 then
          (.error .outputTooSmall, overlay (written ++ run) output)
        else if h : pos < rest.length then
          encodeLoop build output
            (written ++ run ++ [esc, rest[pos] ^^^ escMask]) (rest.drop (pos + 1))
        else (.error .outputTooSmall, overlay (written ++ run) output)
  termination_by rest.length
  decreasing_by simp only [List.length_drop]; omega

/-- `encode`: the result, and the output buffer as the call leaves it. -/
def encode (build : SearchBuild) (input output : List UInt8) :
    Except EncodeError Nat × List UInt8 :=
  if output.isEmpty then (.error .outputTooSmall, output)
  else
    match encodeLoop build output [flag] input with
    | (.error e, buffer) => (.error e, buffer)
    | (.ok written, buffer) =>
        if output.length ≤ written.length then (.error .outputTooSmall, buffer)
        else (.ok (written.length + 1), overlay (written ++ [flag]) output)

inductive DecodeError where
  | frameTooBig
  deriving DecidableEq, Repr

structure RnsSerialScanner where
  inFrame : Bool
  sawEscape : Bool
  deriving DecidableEq, Repr

def RnsSerialScanner.new : RnsSerialScanner := ⟨false, false⟩

/-- A scanner and the sink it scans into. -/
structure RnsSerialDecoder where
  scanner : RnsSerialScanner
  buffer : FrameSink
  deriving DecidableEq, Repr

namespace RnsSerialDecoder

/-- The scanner reset and the sink cleared, as after an oversize frame. -/
def reset (d : RnsSerialDecoder) : RnsSerialDecoder :=
  ⟨RnsSerialScanner.new, d.buffer.clear⟩

/-- The payload byte an escaped wire byte stands for. -/
def unescape (byte : UInt8) : UInt8 :=
  if byte = flag ^^^ escMask then flag
  else if byte = esc ^^^ escMask then esc
  else byte

/-- The scanner's byte path. A byte other than `FLAG` with no frame open opens
one: the bytes of a frame joined in the middle close at the next `FLAG`. -/
def feedOneInto (d : RnsSerialDecoder) (byte : UInt8) :
    Except DecodeError Bool × RnsSerialDecoder :=
  if byte = flag then
    if d.scanner.inFrame then (.ok true, ⟨⟨false, false⟩, d.buffer⟩)
    else (.ok false, ⟨⟨true, false⟩, d.buffer.clear⟩)
  else
    let opened : RnsSerialDecoder :=
      if d.scanner.inFrame then d else ⟨⟨true, false⟩, d.buffer.clear⟩
    if byte = esc then
      (.ok false, { opened with scanner := { opened.scanner with sawEscape := true } })
    else
      let payloadByte := if opened.scanner.sawEscape then unescape byte else byte
      match opened.buffer.push payloadByte with
      | .error _ => (.error .frameTooBig, opened.reset)
      | .ok buffer =>
          (.ok false, ⟨{ opened.scanner with sawEscape := false }, buffer⟩)

/-- Where the plain run at `offset` ends: the next special byte, or the end of
the chunk. -/
def runEnd (build : SearchBuild) (input : List UInt8) (offset : Nat) : Nat :=
  match findSpecial build (input.drop offset) with
  | some at' => offset + at'
  | none => input.length

/-- The scanner's bulk path: the next complete frame at or after `offset`.
Returns the result, the offset behind the consumed bytes and the decoder. -/
def nextFrameInto (build : SearchBuild) (input : List UInt8) (offset : Nat)
    (d : RnsSerialDecoder) :
    Except DecodeError (Option Nat) × Nat × RnsSerialDecoder :=
  if h : offset < input.length then
    if hrun : d.scanner.inFrame = true ∧ d.scanner.sawEscape = false ∧
        runEnd build input offset - offset ≠ 0 then
      let stop := runEnd build input offset
      match d.buffer.extendFromSlice ((input.drop offset).take (stop - offset)) with
      | .ok buffer => nextFrameInto build input stop { d with buffer := buffer }
      | .error _ =>
          (.error .frameTooBig, offset + (d.buffer.freeCapacity + 1), d.reset)
    else
      match d.feedOneInto input[offset] with
      | (.error e, d') => (.error e, offset + 1, d')
      | (.ok true, d') => (.ok (some d'.buffer.frameLen), offset + 1, d')
      | (.ok false, d') => nextFrameInto build input (offset + 1) d'
  else (.ok none, offset, d)
  termination_by input.length - offset
  decreasing_by all_goals omega

end RnsSerialDecoder

end Prns.Ports.SerialFraming
