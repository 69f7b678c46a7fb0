import Prns.Ports.SerialFraming

/-!
# KISS framing

Model of `interfaces/framing/kiss_framing.rs`. A frame is `FEND`, a command byte, the
payload with every `FEND` and `FESC` escaped, and `FEND`. `KissDecoder` yields data
frames only and forgets the port nibble of the command; a `FEND` that does not close a
data frame opens or reopens one. `KissCommandDecoder` yields every command; the
`FEND` that closes a frame opens the next one as well, and what the frame held is
cleared when the next byte arrives.

The rest of the input stands for the source's offset into it.
-/

namespace Prns.Ports.KissFraming

open Verified.Machine
open SerialFraming (FrameSink FrameSinkError SinkLimit overlay)

def fend : UInt8 := 0xC0
def fesc : UInt8 := 0xDB
def tfend : UInt8 := 0xDC
def tfesc : UInt8 := 0xDD

def cmdData : UInt8 := 0x00

/-- No command is this byte: `byte & 0x0F` cannot be, and a command decoder that reads it
stays where it is. -/
def cmdUnknown : UInt8 := 0xFE

inductive EncodeError where
  | outputTooSmall
  deriving DecidableEq, Repr

def maxEncodedLen (payloadLen : Nat) : Nat := 3 + 2 * payloadLen

/-- The loop over the input. `written` is the part of `output` stored so far. -/
def encodeLoop (output : List UInt8) :
    List UInt8 → List UInt8 → Except EncodeError (List UInt8) × List UInt8
  | written, [] => (.ok written, overlay written output)
  | written, byte :: rest =>
      if byte = fend then
        if output.length < written.length + 2 then
          (.error .outputTooSmall, overlay written output)
        else encodeLoop output (written ++ [fesc, tfend]) rest
      else if byte = fesc then
        if output.length < written.length + 2 then
          (.error .outputTooSmall, overlay written output)
        else encodeLoop output (written ++ [fesc, tfesc]) rest
      else
        if output.length < written.length + 1 then
          (.error .outputTooSmall, overlay written output)
        else encodeLoop output (written ++ [byte]) rest

/-- The result, and the output buffer as the call leaves it. -/
def encodeWithCommand (command : UInt8) (input output : List UInt8) :
    Except EncodeError Nat × List UInt8 :=
  if output.length < 2 then (.error .outputTooSmall, output)
  else
    match encodeLoop output [fend, command] input with
    | (.error e, buffer) => (.error e, buffer)
    | (.ok written, buffer) =>
        if output.length ≤ written.length then (.error .outputTooSmall, buffer)
        else (.ok (written.length + 1), overlay (written ++ [fend]) output)

def encode (input output : List UInt8) : Except EncodeError Nat × List UInt8 :=
  encodeWithCommand cmdData input output

inductive DecodeError where
  | frameTooBig
  deriving DecidableEq, Repr

structure KissScanner where
  inFrame : Bool
  command : UInt8
  sawEscape : Bool
  deriving DecidableEq, Repr

def KissScanner.new : KissScanner := ⟨false, cmdUnknown, false⟩

/-- The payload byte behind an escape. A byte that escapes nothing is kept. -/
def unescape (byte : UInt8) : UInt8 :=
  if byte = tfend then fend else if byte = tfesc then fesc else byte

/-- A scanner and the sink it scans into. -/
structure KissDecoder where
  scanner : KissScanner
  buffer : FrameSink
  deriving DecidableEq, Repr

namespace KissDecoder

def new (limit : SinkLimit) : KissDecoder := ⟨KissScanner.new, ⟨limit, []⟩⟩

def feedOneInto (d : KissDecoder) (byte : UInt8) : Except DecodeError Bool × KissDecoder :=
  if d.scanner.inFrame = true ∧ byte = fend ∧ d.scanner.command = cmdData then
    (.ok true, { d with scanner := ⟨false, d.scanner.command, false⟩ })
  else if byte = fend then
    -- Any other FEND opens or reopens a frame.
    (.ok false, ⟨⟨true, cmdUnknown, false⟩, d.buffer.clear⟩)
  else if d.scanner.inFrame = false then (.ok false, d)
  else if d.scanner.command = cmdUnknown ∧ d.buffer.frameLen = 0 then
    (.ok false, { d with scanner := { d.scanner with command := byte &&& 0x0F } })
  else if d.scanner.command ≠ cmdData then (.ok false, d)
  else if byte = fesc then
    (.ok false, { d with scanner := { d.scanner with sawEscape := true } })
  else
    match d.buffer.push (if d.scanner.sawEscape then unescape byte else byte) with
    | .error _ => (.error .frameTooBig, ⟨KissScanner.new, d.buffer.clear⟩)
    | .ok buffer => (.ok false, ⟨{ d.scanner with sawEscape := false }, buffer⟩)

def feed (d : KissDecoder) (byte : UInt8) :
    Except DecodeError (Option (List UInt8)) × KissDecoder :=
  match d.feedOneInto byte with
  | (.error e, d') => (.error e, d')
  | (.ok true, d') => (.ok (some d'.buffer.bytes), d')
  | (.ok false, d') => (.ok none, d')

/-- The scanner's loop: up to the next frame, whose length it returns. -/
def nextFrameInto : List UInt8 → KissDecoder →
    Except DecodeError (Option Nat) × List UInt8 × KissDecoder
  | [], d => (.ok none, [], d)
  | byte :: rest, d =>
      match d.feedOneInto byte with
      | (.error e, d') => (.error e, rest, d')
      | (.ok true, d') => (.ok (some d'.buffer.frameLen), rest, d')
      | (.ok false, d') => nextFrameInto rest d'

def feedSliceNext (input : List UInt8) (d : KissDecoder) :
    Except DecodeError (Option (List UInt8)) × List UInt8 × KissDecoder :=
  match nextFrameInto input d with
  | (.error e, rest, d') => (.error e, rest, d')
  | (.ok (some _), rest, d') => (.ok (some d'.buffer.bytes), rest, d')
  | (.ok none, rest, d') => (.ok none, rest, d')

/-- The frames a chunk hands to the callback, with the errors that the loop drops. -/
def feedSlice (d : KissDecoder) (chunk : List UInt8) :
    List (Except DecodeError (List UInt8)) × KissDecoder :=
  drain feedSliceNext d chunk

end KissDecoder

structure KissCommandDecoder where
  buffer : FrameSink
  inFrame : Bool
  command : UInt8
  sawEscape : Bool
  /-- A frame was yielded and the reopened one is not cleared yet. -/
  yielded : Bool
  deriving DecidableEq, Repr

namespace KissCommandDecoder

def new (frameCap : Nat) : KissCommandDecoder :=
  ⟨⟨.frameBuffer frameCap, []⟩, false, cmdUnknown, false, false⟩

def reset (d : KissCommandDecoder) : KissCommandDecoder :=
  ⟨d.buffer.clear, false, cmdUnknown, false, false⟩

/-- The deferred clearing of the reopened frame. -/
def settle (d : KissCommandDecoder) : KissCommandDecoder :=
  if d.yielded then
    { d with yielded := false, buffer := d.buffer.clear, command := cmdUnknown,
             sawEscape := false }
  else d

def feedSettled (d : KissCommandDecoder) (byte : UInt8) :
    Except DecodeError Bool × KissCommandDecoder :=
  if byte = fend then
    if d.inFrame = true ∧ d.command ≠ cmdUnknown then
      (.ok true, { d with yielded := true, inFrame := true })
    else
      (.ok false, { d with inFrame := true, command := cmdUnknown, sawEscape := false,
                           buffer := d.buffer.clear })
  else if d.inFrame = false then (.ok false, d)
  else if d.command = cmdUnknown ∧ d.buffer.frameLen = 0 then
    (.ok false, { d with command := byte })
  else if byte = fesc then (.ok false, { d with sawEscape := true })
  else
    match d.buffer.push (if d.sawEscape then unescape byte else byte) with
    | .error _ => (.error .frameTooBig, d.reset)
    | .ok buffer => (.ok false, { d with sawEscape := false, buffer := buffer })

def feedOne (d : KissCommandDecoder) (byte : UInt8) :
    Except DecodeError Bool × KissCommandDecoder :=
  feedSettled d.settle byte

def feed (d : KissCommandDecoder) (byte : UInt8) :
    Except DecodeError (Option (UInt8 × List UInt8)) × KissCommandDecoder :=
  match d.feedOne byte with
  | (.error e, d') => (.error e, d')
  | (.ok true, d') => (.ok (some (d'.command, d'.buffer.bytes)), d')
  | (.ok false, d') => (.ok none, d')

/-- The loop over the input is a loop over `feed`. -/
def feedSliceNext (input : List UInt8) (d : KissCommandDecoder) :
    Except DecodeError (Option (UInt8 × List UInt8)) × List UInt8 × KissCommandDecoder :=
  nextAnswer feed input d

/-- The commands a chunk hands to the callback, with the errors that the loop drops. -/
def feedSlice (d : KissCommandDecoder) (chunk : List UInt8) :
    List (Except DecodeError (UInt8 × List UInt8)) × KissCommandDecoder :=
  drain feedSliceNext d chunk

end KissCommandDecoder

end Prns.Ports.KissFraming
