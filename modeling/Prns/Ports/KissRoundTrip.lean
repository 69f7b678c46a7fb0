import Prns.Ports.KissFraming

/-!
# KISS frames through the decoders

The encoder is measured against the frame format it writes (`frameOf`), and both
decoders against the same format. The opening and the closing byte are the same, so a
data decoder that has a frame open takes the opener of the next one for its close, and
sees none of its payload; but the close of that one then opens, and from there on every
frame is read. A command decoder is between two frames as soon as one was closed, and
one more `FEND` there changes nothing.
-/

namespace Prns.Ports.KissFraming

open Verified.Machine
open SerialFraming (FrameSink SinkLimit overlay)

/-- One payload byte on the wire. -/
def stuffByte (byte : UInt8) : List UInt8 :=
  if byte = fend then [fesc, tfend] else if byte = fesc then [fesc, tfesc] else [byte]

def stuff (payload : List UInt8) : List UInt8 := payload.flatMap stuffByte

/-- The wire image of a command with its payload. -/
def frameOf (command : UInt8) (payload : List UInt8) : List UInt8 :=
  fend :: command :: stuff payload ++ [fend]

theorem stuff_cons (b : UInt8) (bs : List UInt8) : stuff (b :: bs) = stuffByte b ++ stuff bs := rfl

theorem stuffByte_cases (b : UInt8) : (stuffByte b = [b] ∧ b ≠ fend ∧ b ≠ fesc) ∨
      ∃ e, stuffByte b = [fesc, e] ∧ unescape e = b ∧ e ≠ fend ∧ e ≠ fesc := by
  unfold stuffByte
  split_ifs with hfend hfesc
  · exact Or.inr ⟨tfend, rfl, by rw [hfend]; decide⟩
  · exact Or.inr ⟨tfesc, rfl, by rw [hfesc]; decide⟩
  · exact Or.inl ⟨rfl, hfend, hfesc⟩

theorem stuffByte_length (b : UInt8) :
    (stuffByte b).length = if b = fend ∨ b = fesc then 2 else 1 := by
  unfold stuffByte
  split_ifs <;> simp_all

theorem fend_notMem_stuff (payload : List UInt8) : ∀ b ∈ stuff payload, b ≠ fend := by
  intro b hb
  obtain ⟨p, -, hmem⟩ := List.mem_flatMap.mp hb
  rcases stuffByte_cases p with ⟨hplain, hne, -⟩ | ⟨e, hescaped, -, hne, -⟩
  · simp_all
  · simp only [hescaped, List.mem_cons, List.not_mem_nil, or_false] at hmem
    rcases hmem with rfl | rfl
    · decide
    · exact hne

theorem frameOf_length (command : UInt8) (payload : List UInt8) :
    (frameOf command payload).length = (stuff payload).length + 3 := by
  simp [frameOf]

theorem frameOf_length_le (command : UInt8) (payload : List UInt8) :
    (frameOf command payload).length ≤ maxEncodedLen payload.length := by
  have hstuff : (stuff payload).length ≤ 2 * payload.length := by
    induction payload with
    | nil => exact Nat.le_refl _
    | cons b bs ih =>
      have hbyte := stuffByte_length b
      rw [stuff_cons, List.length_append, List.length_cons]
      split at hbyte <;> omega
  rw [frameOf_length, maxEncodedLen]
  omega

theorem encodeLoop_spec (output written rest : List UInt8)
    (hwritten : written.length ≤ output.length) :
    if written.length + (stuff rest).length ≤ output.length then
      encodeLoop output written rest =
        (.ok (written ++ stuff rest), overlay (written ++ stuff rest) output)
    else (encodeLoop output written rest).1 = .error .outputTooSmall := by
  induction rest generalizing written with
  | nil => simp [encodeLoop, stuff, hwritten]
  | cons byte rest ih =>
    -- Every branch stores the stuffed byte if it fits and gives up if not.
    have hstep : encodeLoop output written (byte :: rest) =
        if output.length < written.length + (stuffByte byte).length then
          (.error .outputTooSmall, overlay written output)
        else encodeLoop output (written ++ stuffByte byte) rest := by
      rw [encodeLoop]
      unfold stuffByte
      split
      · rfl
      · split <;> rfl
    rw [hstep, stuff_cons, List.length_append]
    by_cases hbyte : output.length < written.length + (stuffByte byte).length
    · rw [if_pos hbyte, if_neg (by omega)]
    · have hrest := ih (written ++ stuffByte byte) (by rw [List.length_append]; omega)
      rw [List.length_append, Nat.add_assoc, List.append_assoc] at hrest
      rw [if_neg hbyte]
      exact hrest

theorem encodeWithCommand_eq (command : UInt8) (input output : List UInt8) :
    if (frameOf command input).length ≤ output.length then
      encodeWithCommand command input output =
        (.ok (frameOf command input).length, overlay (frameOf command input) output)
    else (encodeWithCommand command input output).1 = .error .outputTooSmall := by
  have hlen := frameOf_length command input
  unfold encodeWithCommand
  by_cases hshort : output.length < 2
  · rw [if_neg (by omega), if_pos hshort]
  have hloop := encodeLoop_spec output [fend, command] input (Nat.le_of_not_lt hshort)
  rw [if_neg hshort]
  generalize encodeLoop output [fend, command] input = looped at hloop ⊢
  split at hloop
  · have hwritten : ([fend, command] ++ stuff input).length = (stuff input).length + 2 := by
      simp
    simp only [hloop, hwritten, hlen]
    split_ifs <;> first | rfl | omega
  · obtain ⟨answer, buffer⟩ := looped
    rw [if_neg (by simp_all; omega)]
    simp_all

/-- Bytes a caller may send: what the encoder stored in an output of any size it was
content with. -/
def Encoded (command : UInt8) (payload wire : List UInt8) : Prop :=
  ∃ output n buffer, encodeWithCommand command payload output = (.ok n, buffer) ∧
    wire = buffer.take n

variable {command : UInt8}

theorem Encoded.eq_frameOf {payload wire : List UInt8}
    (h : Encoded command payload wire) : wire = frameOf command payload := by
  obtain ⟨output, n, buffer, hok, rfl⟩ := h
  have hspec := encodeWithCommand_eq command payload output
  split at hspec
  · rw [hok] at hspec
    injection hspec with hn hbuffer
    injection hn with hn
    rw [hn, hbuffer, overlay, List.take_left]
  · rw [hok] at hspec
    exact nomatch hspec

theorem encoded_frameOf (command : UInt8) (payload : List UInt8) :
    Encoded command payload (frameOf command payload) := by
  have hspec := encodeWithCommand_eq command payload
    (List.replicate (maxEncodedLen payload.length) 0)
  rw [List.length_replicate, if_pos (frameOf_length_le command payload)] at hspec
  refine ⟨_, _, _, hspec, ?_⟩
  rw [overlay, List.take_left]

instance (limit : SinkLimit) (n : Nat) : Decidable (limit.fits n) :=
  match limit with
  | .vec => .isTrue trivial
  | .frameBuffer frameCap => Nat.decLe n frameCap

theorem push_eq (limit : SinkLimit) (bytes : List UInt8) (b : UInt8) :
    FrameSink.push ⟨limit, bytes⟩ b =
      if limit.fits (bytes.length + 1) then .ok ⟨limit, bytes ++ [b]⟩ else .error .full := by
  cases limit with
  | vec => rfl
  | frameBuffer frameCap =>
    have hfits : (SinkLimit.frameBuffer frameCap).fits (bytes.length + 1) ↔
        ¬ frameCap ≤ bytes.length := Nat.not_le.symm
    simp only [FrameSink.push, hfits, ite_not]

theorem fits_zero (limit : SinkLimit) : limit.fits ([] : List UInt8).length := by
  cases limit with
  | vec => trivial
  | frameBuffer frameCap => exact Nat.zero_le _

/-- What a frame comes to in a sink of this limit. -/
def outcome {α : Type} (limit : SinkLimit) (payload : List UInt8) (item : α) :
    Except DecodeError α :=
  if limit.fits payload.length then .ok item else .error .frameTooBig

/-! ## Inside a frame

What both decoders do between the command and the closing delimiter. -/

/-- `inside sawEscape bytes` is a decoder in a frame, and `out` one that gave it up. -/
structure Reads {σ ε : Type} (step : σ → UInt8 → List (Except DecodeError ε) × σ)
    (limit : SinkLimit) (inside : Bool → List UInt8 → σ) (out : σ) : Prop where
  data : ∀ sawEscape bytes b, b ≠ fend → step (inside sawEscape bytes) b =
    if b = fesc then ([], inside true bytes)
    else if limit.fits (bytes.length + 1) then
      ([], inside false (bytes ++ [if sawEscape then unescape b else b]))
    else ([.error .frameTooBig], out)
  dropped : ∀ b, b ≠ fend → step out b = ([], out)

variable {limit : SinkLimit}

section

variable {σ ε : Type} {step : σ → UInt8 → List (Except DecodeError ε) × σ}
  {inside : Bool → List UInt8 → σ} {out : σ}

theorem run_dropped (hstep : ∀ b, b ≠ fend → step out b = ([], out)) (bytes : List UInt8)
    (hbytes : ∀ b ∈ bytes, b ≠ fend) : run step out bytes = ([], out) := by
  induction bytes with
  | nil => rfl
  | cons b bytes ih =>
    rw [run_cons, hstep b (hbytes b (List.mem_cons_self ..)),
      ih fun c hc => hbytes c (List.mem_cons_of_mem _ hc)]
    rfl

theorem Reads.run_stuffByte (h : Reads step limit inside out) (bytes : List UInt8) (b : UInt8) :
    run step (inside false bytes) (stuffByte b) =
      if limit.fits (bytes.length + 1) then ([], inside false (bytes ++ [b]))
      else ([.error .frameTooBig], out) := by
  rcases stuffByte_cases b with ⟨hplain, hfend, hfesc⟩ | ⟨e, hescaped, hun, hfend, hfesc⟩
  · simp only [hplain, run_cons, h.data _ _ _ hfend, hfesc, if_false]
    split <;> rfl
  · simp only [hescaped, run_cons, h.data _ _ _ (show fesc ≠ fend by decide), h.data _ _ _ hfend,
      hfesc, hun, if_true, if_false]
    split <;> rfl

theorem Reads.run_stuff (h : Reads step limit inside out) (bytes payload : List UInt8)
    (hbytes : limit.fits bytes.length) :
    run step (inside false bytes) (stuff payload) =
      if limit.fits (bytes.length + payload.length) then ([], inside false (bytes ++ payload))
      else ([.error .frameTooBig], out) := by
  induction payload generalizing bytes with
  | nil =>
    rw [List.length_nil, Nat.add_zero, if_pos hbytes, List.append_nil]
    rfl
  | cons b payload ih =>
    rw [stuff_cons, run_append, h.run_stuffByte]
    by_cases hb : limit.fits (bytes.length + 1)
    · have hrest := ih (bytes ++ [b]) (by simpa using hb)
      rw [List.length_append, List.length_singleton, Nat.add_right_comm, Nat.add_assoc,
        List.append_assoc] at hrest
      rw [if_pos hb, List.length_cons]
      exact hrest
    · have hnot : ¬ limit.fits (bytes.length + (b :: payload).length) := fun hfits =>
        hb (hfits.mono (by rw [List.length_cons]; omega))
      rw [if_neg hb, if_neg hnot]
      rw [run_dropped h.dropped _ (fend_notMem_stuff payload)]
      rfl

end

/-! ## The data decoder -/

namespace KissDecoder

def feedStep : KissDecoder → UInt8 → List (Except DecodeError (List UInt8)) × KissDecoder :=
  decoderStep feed

theorem feedSliceNext_eq : feedSliceNext = nextAnswer feed := by
  funext input d
  induction input generalizing d with
  | nil => rfl
  | cons b rest ih =>
    rw [nextAnswer, feed, feedSliceNext, nextFrameInto]
    rcases d.feedOneInto b with ⟨e | _ | _, d'⟩
    · rfl
    · exact ih d'
    · rfl

theorem feedSlice_eq_run (d : KissDecoder) (chunk : List UInt8) :
    d.feedSlice chunk = run feedStep d chunk := by
  rw [feedSlice, feedSliceNext_eq]
  exact drain_eq_run d chunk

/-- The decoder behind an opening `FEND`. -/
def opened (limit : SinkLimit) : KissDecoder := ⟨⟨true, cmdUnknown, false⟩, ⟨limit, []⟩⟩

/-- The decoder inside a data frame, outside an escape. -/
def reading (limit : SinkLimit) (bytes : List UInt8) : KissDecoder :=
  ⟨⟨true, cmdData, false⟩, ⟨limit, bytes⟩⟩

/-- No data frame is open, so the next `FEND` opens one. -/
def Ready (d : KissDecoder) : Prop :=
  ¬ (d.scanner.inFrame = true ∧ d.scanner.command = cmdData)

variable {d : KissDecoder}

theorem ready_of_out (h : d.scanner.inFrame = false) : d.Ready := by
  simp [Ready, h]

theorem ready_opened (limit : SinkLimit) : (opened limit).Ready := by
  simp [Ready, opened, show cmdUnknown ≠ cmdData by decide]

theorem feedStep_fend (h : d.Ready) : d.feedStep fend = ([], opened d.buffer.limit) := by
  unfold Ready at h
  simp [feedStep, decoderStep, feed, feedOneInto, h, answerEvents, opened, FrameSink.clear]

theorem feedStep_command (limit : SinkLimit) :
    (opened limit).feedStep cmdData = ([], reading limit []) := rfl

theorem feedStep_dropped (h : d.scanner.inFrame = false) (b : UInt8)
    (hfend : b ≠ fend) : d.feedStep b = ([], d) := by
  simp [feedStep, decoderStep, feed, feedOneInto, hfend, h, answerEvents]

theorem reads (limit : SinkLimit) :
    Reads feedStep limit (fun sawEscape bytes => ⟨⟨true, cmdData, sawEscape⟩, ⟨limit, bytes⟩⟩)
      (new limit) where
  data sawEscape bytes b hfend := by
    have hdata : cmdData ≠ cmdUnknown := by decide
    simp only [feedStep, decoderStep, feed, feedOneInto, hfend, hdata, false_and, and_false,
      if_false, Bool.true_eq_false, ne_eq, not_true_eq_false, push_eq]
    split_ifs <;> rfl
  dropped := feedStep_dropped rfl

theorem run_frame_ready (h : d.Ready) (payload : List UInt8) :
    ∃ d', run feedStep d (frameOf cmdData payload) =
        ([outcome d.buffer.limit payload payload], d') ∧
      d'.Ready ∧ d'.buffer.limit = d.buffer.limit := by
  generalize hlimit : d.buffer.limit = limit
  have hbody := (reads limit).run_stuff [] payload (fits_zero limit)
  rw [List.length_nil, Nat.zero_add, List.nil_append] at hbody
  rw [frameOf, List.cons_append, List.cons_append, run_cons, feedStep_fend h, hlimit, run_cons,
    feedStep_command, run_append, reading, hbody, outcome]
  by_cases hfits : limit.fits payload.length
  · rw [if_pos hfits, if_pos hfits]
    exact ⟨⟨⟨false, cmdData, false⟩, ⟨limit, payload⟩⟩, rfl, ready_of_out rfl, rfl⟩
  · -- Given up inside the frame, the decoder takes its close for an opener.
    rw [if_neg hfits, if_neg hfits]
    exact ⟨opened limit, rfl, ready_opened limit, rfl⟩

theorem run_frame_open (h : ¬ d.Ready) (payload : List UInt8) :
    run feedStep d (frameOf cmdData payload) = ([.ok d.buffer.bytes], opened d.buffer.limit) := by
  obtain ⟨hin, hcommand⟩ := not_not.mp h
  have hclose : d.feedStep fend =
      ([.ok d.buffer.bytes], ⟨⟨false, d.scanner.command, false⟩, d.buffer⟩) := by
    rw [feedStep, decoderStep, feed, feedOneInto, if_pos ⟨hin, rfl, hcommand⟩]
    rfl
  have hdropped : ∀ b ∈ cmdData :: stuff payload, b ≠ fend := by
    intro b hb
    rcases List.mem_cons.mp hb with rfl | hb
    · decide
    · exact fend_notMem_stuff payload b hb
  rw [frameOf, List.cons_append, run_cons, hclose, run_append,
    run_dropped (feedStep_dropped rfl) _ hdropped, run_cons, feedStep_fend (ready_of_out rfl)]
  rfl

theorem run_frames_ready (payloads : List (List UInt8)) (h : d.Ready) :
    (run feedStep d (payloads.map (frameOf cmdData)).flatten).1 =
      payloads.map fun payload => outcome d.buffer.limit payload payload := by
  induction payloads generalizing d with
  | nil => rfl
  | cons payload payloads ih =>
    obtain ⟨d', hframe, hready, hlimit⟩ := run_frame_ready h payload
    rw [List.map_cons, List.flatten_cons, run_append, hframe, ih hready, hlimit]
    rfl

end KissDecoder

open KissDecoder

theorem forall₂_encoded_eq {payloads wires : List (List UInt8)}
    (h : List.Forall₂ (Encoded cmdData) payloads wires) :
    wires = payloads.map (frameOf cmdData) := by
  induction h with
  | nil => rfl
  | cons hwire _ ih => rw [hwire.eq_frameOf, ih, List.map_cons]

/-- Data frames are delivered. Encoded frames of payloads that fit the sink, cut into
chunks in any way and fed to a fresh decoder, deliver exactly the payloads; and from any
state of the scanner and any content of the sink, two encoded frames deliver the second
payload, if it fits, behind exactly one other event. -/
theorem kissFrames_delivered : (∀ (limit : SinkLimit) (payloads wires chunks : List (List UInt8)),
      List.Forall₂ (Encoded cmdData) payloads wires →
      (∀ payload ∈ payloads, limit.fits payload.length) →
      chunks.flatten = wires.flatten →
      (run feedSlice (new limit) chunks).1 = payloads.map Except.ok) ∧
    ∀ (d : KissDecoder) (first second firstWire secondWire : List UInt8)
      (chunks : List (List UInt8)),
      Encoded cmdData first firstWire → Encoded cmdData second secondWire →
      d.buffer.limit.fits second.length →
      chunks.flatten = firstWire ++ secondWire →
      ∃ past, (run feedSlice d chunks).1 = [past, .ok second] := by
  constructor
  · intro limit payloads wires chunks hwires hfits hcut
    rw [run_chunks _ _ feedSlice_eq_run, hcut, forall₂_encoded_eq hwires,
      run_frames_ready payloads (d := new limit) (ready_of_out rfl)]
    apply List.map_congr_left
    intro payload hmem
    exact if_pos (hfits payload hmem)
  · intro d first second firstWire secondWire chunks hfirst hsecond hfits hcut
    -- whatever went before, one frame later the decoder is ready
    obtain ⟨past, d', hpast, hready, hlimit⟩ : ∃ past d',
        run feedStep d (frameOf cmdData first) = ([past], d') ∧ d'.Ready ∧
          d'.buffer.limit = d.buffer.limit := by
      by_cases h : d.Ready
      · exact ⟨_, run_frame_ready h first⟩
      · exact ⟨_, _, run_frame_open h first, ready_opened _, rfl⟩
    obtain ⟨d'', hframe, -, -⟩ := run_frame_ready hready second
    refine ⟨past, ?_⟩
    rw [run_chunks _ _ feedSlice_eq_run, hcut, hfirst.eq_frameOf, hsecond.eq_frameOf, run_append,
      hpast, hframe, hlimit, outcome, if_pos hfits]
    rfl

/-- A decoder in the middle of a data frame behind an escape, over a full sink. -/
theorem kissFrames_delivered_stuck :
    ∃ past, (run feedSlice ⟨⟨true, cmdData, true⟩, ⟨.frameBuffer 2, [1, 2]⟩⟩
        [frameOf cmdData [7, 8, 9], frameOf cmdData [fend]]).1 = [past, .ok [fend]] :=
  kissFrames_delivered.2 ⟨⟨true, cmdData, true⟩, ⟨.frameBuffer 2, [1, 2]⟩⟩ [7, 8, 9] [fend] _ _ _
    (encoded_frameOf _ _) (encoded_frameOf _ _) (by decide) (by simp)

/-! ## The command decoder -/

namespace KissCommandDecoder

def feedStep : KissCommandDecoder → UInt8 →
    List (Except DecodeError (UInt8 × List UInt8)) × KissCommandDecoder :=
  decoderStep feed

theorem feedSlice_eq_run (d : KissCommandDecoder) (chunk : List UInt8) :
    d.feedSlice chunk = run feedStep d chunk :=
  drain_eq_run d chunk

/-- The decoder behind an opening `FEND`. -/
def opened (limit : SinkLimit) : KissCommandDecoder :=
  ⟨⟨limit, []⟩, true, cmdUnknown, false, false⟩

/-- The decoder inside the frame of a command, outside an escape. -/
def reading (limit : SinkLimit) (command : UInt8) (bytes : List UInt8) : KissCommandDecoder :=
  ⟨⟨limit, bytes⟩, true, command, false, false⟩

/-- The decoder that gave a frame up. -/
def idle (limit : SinkLimit) : KissCommandDecoder :=
  ⟨⟨limit, []⟩, false, cmdUnknown, false, false⟩

theorem feedOne_settle (d : KissCommandDecoder) (byte : UInt8) :
    d.feedStep byte = d.settle.feedStep byte := by
  have hsettled : d.settle.settle = d.settle := by
    obtain ⟨buffer, inFrame, command, sawEscape, yielded⟩ := d
    cases yielded <;> rfl
  rw [feedStep, decoderStep, decoderStep, feed, feed, feedOne, feedOne, hsettled]

theorem feedStep_command (limit : SinkLimit) (hfend : command ≠ fend) :
    (opened limit).feedStep command = ([], reading limit command []) := by
  simp [feedStep, decoderStep, feed, feedOne, settle, feedSettled, opened, reading, hfend,
    FrameSink.frameLen, answerEvents]

theorem feedStep_fend_opened (limit : SinkLimit) :
    (opened limit).feedStep fend = ([], opened limit) := rfl

theorem feedStep_fend_idle (limit : SinkLimit) :
    (idle limit).feedStep fend = ([], opened limit) := rfl

theorem reads (limit : SinkLimit) (hcommand : command ≠ cmdUnknown) :
    Reads feedStep limit (fun sawEscape bytes => ⟨⟨limit, bytes⟩, true, command, sawEscape, false⟩)
      (idle limit) where
  data sawEscape bytes b hfend := by
    simp only [feedStep, decoderStep, feed, feedOne, settle, feedSettled, hfend, hcommand,
      false_and, if_false, Bool.true_eq_false, Bool.false_eq_true, push_eq]
    split_ifs <;> rfl
  dropped b hfend := by
    rw [feedStep, decoderStep, feed, feedOne, show (idle limit).settle = idle limit from rfl,
      feedSettled, if_neg hfend, if_pos (show (idle limit).inFrame = false from rfl)]
    rfl

theorem run_body (limit : SinkLimit) (payload : List UInt8)
    (hfend : command ≠ fend) (hcommand : command ≠ cmdUnknown) :
    ∃ d, run feedStep (opened limit) (command :: stuff payload ++ [fend]) =
        ([outcome limit payload (command, payload)], d) ∧ d.settle = opened limit := by
  have hbody := (reads limit hcommand).run_stuff [] payload (fits_zero limit)
  rw [List.length_nil, Nat.zero_add, List.nil_append] at hbody
  rw [List.cons_append, run_cons, feedStep_command _ hfend, run_append, reading, hbody, outcome]
  by_cases hfits : limit.fits payload.length
  · have hclose : feedStep ⟨⟨limit, payload⟩, true, command, false, false⟩ fend =
        ([.ok (command, payload)], ⟨⟨limit, payload⟩, true, command, false, true⟩) := by
      simp [feedStep, decoderStep, feed, feedOne, settle, feedSettled, hcommand, answerEvents]
    rw [if_pos hfits, if_pos hfits, run_cons, hclose]
    exact ⟨_, rfl, rfl⟩
  · rw [if_neg hfits, if_neg hfits, run_cons, feedStep_fend_idle]
    exact ⟨_, rfl, rfl⟩

/-- Between two frames one more `FEND` changes nothing. -/
theorem run_frame_between {d : KissCommandDecoder} {limit : SinkLimit}
    (h : d.settle = opened limit) (shared : Bool) (payload : List UInt8)
    (hfend : command ≠ fend) (hcommand : command ≠ cmdUnknown) :
    ∃ d', run feedStep d
          (if shared then (frameOf command payload).tail else frameOf command payload) =
        ([outcome limit payload (command, payload)], d') ∧ d'.settle = opened limit := by
  have hsettle (b : UInt8) (bytes : List UInt8) :
      run feedStep d (b :: bytes) = run feedStep (opened limit) (b :: bytes) := by
    rw [run_cons, feedOne_settle, h, run_cons]
  obtain ⟨d', hbody, hd'⟩ := run_body limit payload hfend hcommand
  refine ⟨d', ?_, hd'⟩
  cases shared with
  | true =>
    show run feedStep d (command :: (stuff payload ++ [fend])) = _
    rw [hsettle]
    exact hbody
  | false =>
    show run feedStep d (fend :: (command :: stuff payload ++ [fend])) = _
    rw [hsettle, run_cons, feedStep_fend_opened, hbody]
    rfl

end KissCommandDecoder

/-- Encoded command frames in a row. Neighbours have their own delimiters, two between
them, or share one. -/
inductive CommandStream : List (UInt8 × List UInt8) → List UInt8 → Prop where
  | nil : CommandStream [] []
  | apart {command : UInt8} {payload wire stream : List UInt8}
      {frames : List (UInt8 × List UInt8)} (hwire : Encoded command payload wire)
      (h : CommandStream frames stream) :
      CommandStream ((command, payload) :: frames) (wire ++ stream)
  | shared {command : UInt8} {payload wire stream : List UInt8}
      {frames : List (UInt8 × List UInt8)} (hwire : Encoded command payload wire)
      (h : CommandStream frames stream) :
      CommandStream ((command, payload) :: frames) (wire ++ stream.tail)

namespace KissCommandDecoder

variable {d : KissCommandDecoder}

theorem run_frame_stream {payload wire stream : List UInt8}
    {answers : List (Except DecodeError (UInt8 × List UInt8))}
    (hwire : Encoded command payload wire) (hcommand : command ≠ fend ∧ command ≠ cmdUnknown)
    (shared : Bool) (hd : d.settle = opened limit)
    (hrest : ∀ {d'}, d'.settle = opened limit → (run feedStep d' stream).1 = answers) :
    (run feedStep d (if shared then (wire ++ stream).tail else wire ++ stream)).1 =
      outcome limit payload (command, payload) :: answers := by
  obtain ⟨d', hframe, hd'⟩ := run_frame_between hd shared payload hcommand.1 hcommand.2
  have hsplit : (if shared then (wire ++ stream).tail else wire ++ stream) =
      (if shared then (frameOf command payload).tail else frameOf command payload) ++ stream := by
    rw [hwire.eq_frameOf]
    cases shared <;> rfl
  rw [hsplit, run_append, hframe, hrest hd']
  rfl

variable {frames : List (UInt8 × List UInt8)} {stream : List UInt8}

theorem run_stream (h : CommandStream frames stream)
    (hcommands : ∀ frame ∈ frames, frame.1 ≠ fend ∧ frame.1 ≠ cmdUnknown) (shared : Bool)
    (hd : d.settle = opened limit) :
    (run feedStep d (if shared then stream.tail else stream)).1 =
      frames.map fun frame => outcome limit frame.2 frame := by
  induction h generalizing d shared with
  | nil => cases shared <;> rfl
  | apart hwire h ih =>
    obtain ⟨hcommand, hrest⟩ := List.forall_mem_cons.mp hcommands
    exact run_frame_stream hwire hcommand shared hd fun hd' => ih hrest false hd'
  | shared hwire h ih =>
    obtain ⟨hcommand, hrest⟩ := List.forall_mem_cons.mp hcommands
    exact run_frame_stream hwire hcommand shared hd fun hd' => ih hrest true hd'

theorem run_stream_new (h : CommandStream frames stream)
    (hcommands : ∀ frame ∈ frames, frame.1 ≠ fend ∧ frame.1 ≠ cmdUnknown) (frameCap : Nat) :
    (run feedStep (new frameCap) stream).1 =
      frames.map fun frame => outcome (.frameBuffer frameCap) frame.2 frame := by
  have hopened := run_stream h hcommands true
    (show (opened (.frameBuffer frameCap)).settle = opened (.frameBuffer frameCap) from rfl)
  have hstarts : frames = [] ∧ stream = [] ∨ stream = fend :: stream.tail := by
    cases h with
    | nil => exact Or.inl ⟨rfl, rfl⟩
    | apart hwire _ | shared hwire _ =>
      rw [hwire.eq_frameOf]
      exact Or.inr rfl
  rcases hstarts with ⟨hframes, hstream⟩ | hstream
  · rw [hframes, hstream]
    rfl
  · rw [hstream, run_cons, show (new frameCap).feedStep fend =
      ([], opened (.frameBuffer frameCap)) from feedStep_fend_idle _]
    exact hopened

/-- Commands are delivered. Encoded command frames, with one or two delimiters between
neighbours, cut into chunks in any way and fed to a fresh decoder, yield exactly the
commands with their payloads, in order; only a payload over the decoder's cap is
reported as too big instead, which costs no other frame. -/
theorem kissCommands_delivered (frameCap : Nat) (frames : List (UInt8 × List UInt8))
    (stream : List UInt8) (chunks : List (List UInt8)) (h : CommandStream frames stream)
    (hcommands : ∀ frame ∈ frames, frame.1 ≠ fend ∧ frame.1 ≠ cmdUnknown)
    (hcut : chunks.flatten = stream) :
    (run feedSlice (new frameCap) chunks).1 = frames.map fun frame =>
      if frame.2.length ≤ frameCap then .ok frame else .error .frameTooBig := by
  rw [run_chunks _ _ feedSlice_eq_run, hcut, run_stream_new h hcommands frameCap]
  rfl

/-- Three commands, the first two with a shared delimiter. -/
theorem kissCommands_delivered_three : (run feedSlice (new 2)
        [[fend, 0x08, 0x46], [fend, 0x50, 1, fesc], [tfend, 2, fend, fend, 0x48, fend]]).1 =
      [.ok (0x08, [0x46]), .error .frameTooBig, .ok (0x48, [])] :=
  kissCommands_delivered 2 [(0x08, [0x46]), (0x50, [1, fend, 2]), (0x48, [])] _ _
    (.shared (encoded_frameOf _ _) (.apart (encoded_frameOf _ _)
      (.apart (encoded_frameOf _ _) .nil))) (by decide) (by decide)

/-- A payload over the cap is not yielded. -/
theorem kissCommands_over_cap : CommandStream [(0x01, [1, 2])] (frameOf 0x01 [1, 2]) ∧
      (run feedSlice (new 1) [frameOf 0x01 [1, 2]]).1 = [.error .frameTooBig] := by
  have hstream : CommandStream [(0x01, [1, 2])] (frameOf 0x01 [1, 2] ++ []) :=
    .apart (encoded_frameOf 0x01 [1, 2]) .nil
  exact ⟨hstream, by decide⟩

end KissCommandDecoder

end Prns.Ports.KissFraming
