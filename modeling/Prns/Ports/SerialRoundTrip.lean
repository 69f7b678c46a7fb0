import Prns.Ports.SerialBulk

/-!
# Encoding and decoding a serial frame

`encode` is measured against the frame format it writes (`frameOf`), and the
byte machine against the same format. A decoder that starts in the middle of
anything reads the first delimiter either as an opening or as the close of what
it had; in the second case the payload that follows opens its frame itself.
-/

namespace Prns.Ports.SerialFraming

open Verified.Machine

/-- One payload byte on the wire. -/
def stuffByte (byte : UInt8) : List UInt8 :=
  if isSpecial byte then [esc, byte ^^^ escMask] else [byte]

def stuff (payload : List UInt8) : List UInt8 := payload.flatMap stuffByte

@[simp] theorem stuff_nil : stuff [] = [] := rfl

/-- The wire image of a payload. -/
def frameOf (payload : List UInt8) : List UInt8 := flag :: stuff payload ++ [flag]

theorem stuff_cons (b : UInt8) (bs : List UInt8) : stuff (b :: bs) = stuffByte b ++ stuff bs := rfl

theorem stuff_append (xs ys : List UInt8) : stuff (xs ++ ys) = stuff xs ++ stuff ys := by
  simp [stuff]

theorem stuff_plain (bs : List UInt8) (h : ∀ b ∈ bs, isSpecial b = false) : stuff bs = bs := by
  induction bs with
  | nil => rfl
  | cons b bs ih =>
    have hb : isSpecial b = false := h b (by simp)
    have hbs : stuff bs = bs := ih (fun c hc => h c (by simp [hc]))
    simp [stuff_cons, stuffByte, hb, hbs]

theorem stuffByte_length_le (b : UInt8) : (stuffByte b).length ≤ 2 := by
  unfold stuffByte
  split <;> simp

theorem stuff_length_le (bs : List UInt8) : (stuff bs).length ≤ 2 * bs.length := by
  induction bs with
  | nil => simp
  | cons b bs ih =>
    have hb := stuffByte_length_le b
    rw [stuff_cons, List.length_append, List.length_cons]
    omega

variable (payload : List UInt8)

theorem frameOf_length : (frameOf payload).length = (stuff payload).length + 2 := by
  simp [frameOf]

theorem frameOf_length_le : (frameOf payload).length ≤ maxEncodedLen payload.length := by
  have h := stuff_length_le payload
  rw [frameOf_length, maxEncodedLen]
  omega

/-! ## The encoder writes the format -/

theorem stuff_at_special (rest : List UInt8) (pos : Nat) (h : pos < rest.length)
    (hspecial : isSpecial rest[pos] = true) (hplain : ∀ b ∈ rest.take pos, isSpecial b = false) :
    stuff rest = rest.take pos ++ [esc, rest[pos] ^^^ escMask] ++ stuff (rest.drop (pos + 1)) := by
  have hcut : rest = rest.take pos ++ rest[pos] :: rest.drop (pos + 1) := by
    rw [← List.drop_eq_getElem_cons h, List.take_append_drop]
  have hbyte : stuffByte rest[pos] = [esc, rest[pos] ^^^ escMask] := by
    rw [stuffByte, if_pos hspecial]
  calc stuff rest = stuff (rest.take pos ++ rest[pos] :: rest.drop (pos + 1)) := by
        rw [← hcut]
    _ = rest.take pos ++ (stuffByte rest[pos] ++ stuff (rest.drop (pos + 1))) := by
        rw [stuff_append, stuff_plain _ hplain, stuff_cons]
    _ = _ := by rw [hbyte, List.append_assoc]

theorem encodeLoop_spec (build : SearchBuild) (output written rest : List UInt8) :
    if written.length + (stuff rest).length ≤ output.length then
      encodeLoop build output written rest =
        (.ok (written ++ stuff rest), overlay (written ++ stuff rest) output)
    else (encodeLoop build output written rest).1 = .error .outputTooSmall := by
  induction hlen : rest.length using Nat.strongRecOn generalizing written rest with
  | ind n ih =>
  cases hfind : findSpecial build rest with
  | none =>
    have hplain : stuff rest = rest := stuff_plain rest (findSpecial_none hfind)
    rw [encodeLoop, hplain]
    simp only [hfind, Option.getD_none, List.take_length]
    split
    · rw [if_neg (by omega)]
    · rw [if_pos (by omega)]
  | some pos =>
    obtain ⟨hpos, hspecial, hplain⟩ := findSpecial_some hfind
    have hstuff := stuff_at_special rest pos hpos hspecial hplain
    have htake : (rest.take pos).length = pos := by
      rw [List.length_take]
      omega
    have hrest := ih (rest.drop (pos + 1)).length (by rw [List.length_drop]; omega)
      (written ++ rest.take pos ++ [esc, rest[pos] ^^^ escMask])
      (rest.drop (pos + 1)) rfl
    have hsum : (stuff rest).length = pos + 2 + (stuff (rest.drop (pos + 1))).length := by
      rw [hstuff]
      simp [htake]
      omega
    have hwritten : (written ++ rest.take pos ++
        [esc, rest[pos] ^^^ escMask]).length = written.length + pos + 2 := by
      simp [htake, Nat.add_assoc]
    rw [encodeLoop]
    simp only [hfind, Option.getD_some, htake, List.length_append, hpos, dif_pos]
    by_cases hfits : written.length + (stuff rest).length ≤ output.length
    · rw [if_pos (by omega)] at hrest
      rw [if_pos hfits, if_neg (by omega), if_neg (by omega), hrest, hstuff]
      simp only [List.append_assoc]
    rw [if_neg (by omega)] at hrest
    rw [if_neg hfits]
    split
    · rfl
    · split
      · rfl
      · exact hrest

theorem encode_eq (build : SearchBuild) (input output : List UInt8) :
    if (frameOf input).length ≤ output.length then
      encode build input output = (.ok (frameOf input).length, overlay (frameOf input) output)
    else (encode build input output).1 = .error .outputTooSmall := by
  have hloop := encodeLoop_spec build output [flag] input
  have hlen := frameOf_length input
  cases houtput : output with
  | nil =>
    rfl
  | cons o os =>
    rw [← houtput]
    have hne : output.isEmpty = false := by rw [houtput]; rfl
    by_cases hbody : [flag].length + (stuff input).length ≤ output.length
    · rw [if_pos hbody] at hloop
      simp only [encode, hne, hloop, Bool.false_eq_true, if_false]
      have hwritten : ([flag] ++ stuff input).length = (stuff input).length + 1 := by
        simp
      by_cases hclose : output.length ≤ ([flag] ++ stuff input).length
      · rw [if_neg (by omega), if_pos hclose]
      · rw [if_pos (by omega), if_neg hclose, hwritten, hlen]
        rfl
    · rw [if_neg hbody] at hloop
      rw [List.length_singleton] at hbody
      rw [if_neg (by omega)]
      simp only [encode, hne, Bool.false_eq_true, if_false]
      generalize encodeLoop build output [flag] input = looped at hloop
      obtain ⟨answer, buffer⟩ := looped
      simp only at hloop
      rw [hloop]

/-- Bytes a caller may send: what `encode` stored in an output of any size it
was content with. -/
def Encoded (build : SearchBuild) (payload wire : List UInt8) : Prop :=
  ∃ output n buffer, encode build payload output = (.ok n, buffer) ∧
    wire = buffer.take n

variable {build : SearchBuild}

theorem Encoded.eq_frameOf {payload wire : List UInt8} (h : Encoded build payload wire) :
    wire = frameOf payload := by
  obtain ⟨output, n, buffer, hok, rfl⟩ := h
  have hspec := encode_eq build payload output
  split at hspec
  · rw [hok] at hspec
    injection hspec with hn hbuffer
    injection hn with hn
    rw [hn, hbuffer, overlay, List.take_left]
  · rw [hok] at hspec
    cases hspec

theorem encoded_frameOf (build : SearchBuild) (payload : List UInt8) :
    Encoded build payload (frameOf payload) := by
  have hok := encode_eq build payload (List.replicate (maxEncodedLen payload.length) 0)
  rw [if_pos (by rw [List.length_replicate]; exact frameOf_length_le payload)] at hok
  refine ⟨_, _, _, hok, ?_⟩
  rw [overlay, List.take_left]

/-! ## The decoder reads the format -/

namespace RnsSerialDecoder

/-- The decoder inside a frame, outside an escape. -/
def reading (buffer : FrameSink) : RnsSerialDecoder := ⟨⟨true, false⟩, buffer⟩

theorem run_stuffByte (buffer : FrameSink) (b : UInt8)
    (hfits : buffer.limit.fits (buffer.bytes.length + 1)) :
    run feedStep (reading buffer) (stuffByte b) =
      ([], reading { buffer with bytes := buffer.bytes ++ [b] }) := by
  have hpush := push_of_fits buffer b hfits
  cases hb : isSpecial b with
  | false =>
    have hstep := feedStep_plain (reading buffer) b rfl rfl hb
    simp only [reading] at hstep
    simp [stuffByte, hb, run_cons, reading, hstep, hpush]
  | true =>
    obtain ⟨hun, hflag, hesc⟩ :
        unescape (b ^^^ escMask) = b ∧ b ^^^ escMask ≠ flag ∧ b ^^^ escMask ≠ esc := by
      rcases (by simpa [isSpecial] using hb : b = flag ∨ b = esc) with rfl | rfl <;> decide
    have hescFlag : esc ≠ flag := by decide
    simp [stuffByte, hb, run_cons, reading, feedStep, feed, feedOneInto, hescFlag,
      hflag, hesc, hun, hpush, answerEvents]

theorem run_stuff (buffer : FrameSink) (payload : List UInt8)
    (hfits : buffer.limit.fits (buffer.bytes.length + payload.length)) :
    run feedStep (reading buffer) (stuff payload) =
      ([], reading { buffer with bytes := buffer.bytes ++ payload }) := by
  induction payload generalizing buffer with
  | nil => simp
  | cons b payload ih =>
    rw [List.length_cons] at hfits
    have hbyte := run_stuffByte buffer b (hfits.mono (by omega))
    have hrest := ih { buffer with bytes := buffer.bytes ++ [b] } (by
      simp only [List.length_append, List.length_singleton]
      exact hfits.mono (by omega))
    rw [stuff_cons, run_append, hbyte, hrest]
    simp

variable (d : RnsSerialDecoder)

theorem feedStep_opens (b : UInt8) (hout : d.scanner.inFrame = false)
    (hb : b ≠ flag) : d.feedStep b = (reading d.buffer.clear).feedStep b := by
  obtain ⟨⟨inFrame, sawEscape⟩, buffer⟩ := d
  subst hout
  simp [feedStep, feed, feedOneInto, reading, hb]

theorem stuff_head (hne : payload ≠ []) : ∃ b bs, stuff payload = b :: bs ∧ b ≠ flag := by
  cases payload with
  | nil => exact absurd rfl hne
  | cons p ps =>
    cases hp : isSpecial p with
    | false =>
      exact ⟨p, stuff ps, by simp [stuff_cons, stuffByte, hp], (isSpecial_eq_false.mp hp).1⟩
    | true =>
      exact ⟨esc, (p ^^^ escMask) :: stuff ps, by simp [stuff_cons, stuffByte, hp], by decide⟩

/-- What the decoder is after a delivered frame. -/
def delivered (limit : SinkLimit) (payload : List UInt8) : RnsSerialDecoder :=
  ⟨⟨false, false⟩, ⟨limit, payload⟩⟩

theorem run_body (limit : SinkLimit) (payload : List UInt8) (hfits : limit.fits payload.length) :
    run feedStep (reading ⟨limit, []⟩) (stuff payload ++ [flag]) =
      ([.frame payload], delivered limit payload) := by
  have hbody := run_stuff ⟨limit, []⟩ payload (by simpa using hfits)
  rw [run_append, hbody]
  simp [run_cons, reading, delivered, feedStep, feed, feedOneInto, answerEvents]

theorem run_frameOf_idle (payload : List UInt8)
    (hout : d.scanner.inFrame = false) (hfits : d.buffer.limit.fits payload.length) :
    run feedStep d (frameOf payload) = ([.frame payload], delivered d.buffer.limit payload) := by
  have hopen : d.feedStep flag = ([], reading d.buffer.clear) := by
    simp [feedStep, feed, feedOneInto, hout, reading, answerEvents]
  rw [frameOf, List.cons_append, run_cons, hopen]
  simp only [FrameSink.clear, run_body _ _ hfits, List.nil_append]

theorem run_frameOf_open (payload : List UInt8) (hin : d.scanner.inFrame = true)
    (hne : payload ≠ []) (hfits : d.buffer.limit.fits payload.length) :
    run feedStep d (frameOf payload) = ([.frame d.buffer.bytes, .frame payload],
        delivered d.buffer.limit payload) := by
  have hclose : d.feedStep flag = ([.frame d.buffer.bytes], ⟨⟨false, false⟩, d.buffer⟩) := by
    simp [feedStep, feed, feedOneInto, hin, answerEvents]
  have hbody : run feedStep ⟨⟨false, false⟩, d.buffer⟩ (stuff payload ++ [flag]) =
      ([.frame payload], delivered d.buffer.limit payload) := by
    -- the first byte opens a frame
    obtain ⟨b, bs, hstuff, hb⟩ := stuff_head payload hne
    have hread := run_body d.buffer.limit payload hfits
    rw [hstuff, List.cons_append, run_cons] at hread ⊢
    rwa [feedStep_opens _ b rfl hb]
  rw [frameOf, List.cons_append, run_cons, hclose]
  simp only [hbody, List.singleton_append]

theorem run_frames_idle (payloads : List (List UInt8)) (d : RnsSerialDecoder)
    (hout : d.scanner.inFrame = false) (hfits : ∀ p ∈ payloads, d.buffer.limit.fits p.length) :
    (run feedStep d (payloads.map frameOf).flatten).1 = payloads.map FrameEvent.frame := by
  induction payloads generalizing d with
  | nil => rfl
  | cons p payloads ih =>
    have hp := run_frameOf_idle d p hout (hfits p (by simp))
    have hrest := ih (delivered d.buffer.limit p) rfl (fun q hq => hfits q (by simp [hq]))
    rw [List.map_cons, List.flatten_cons, run_append, hp]
    simp only [hrest, List.singleton_append, List.map_cons]

theorem run_frames (payloads : List (List UInt8)) (d : RnsSerialDecoder)
    (hne : ∀ p ∈ payloads, p ≠ []) (hfits : ∀ p ∈ payloads, d.buffer.limit.fits p.length) :
    ∃ spurious : List FrameEvent, spurious.length ≤ 1 ∧
      (d.scanner.inFrame = false → spurious = []) ∧
      (run feedStep d (payloads.map frameOf).flatten).1 =
        spurious ++ payloads.map FrameEvent.frame := by
  cases hin : d.scanner.inFrame with
  | false => exact ⟨[], by simp, fun _ => rfl, run_frames_idle payloads d hin hfits⟩
  | true =>
    cases payloads with
    | nil => exact ⟨[], by simp, fun _ => rfl, rfl⟩
    | cons p payloads =>
      have hp := run_frameOf_open d p hin (hne p (by simp)) (hfits p (by simp))
      have hrest := run_frames_idle payloads (delivered d.buffer.limit p) rfl
        (fun q hq => hfits q (by simp [hq]))
      refine ⟨[.frame d.buffer.bytes], by simp, fun h => by simp at h, ?_⟩
      rw [List.map_cons, List.flatten_cons, run_append, hp]
      simp only [hrest, List.cons_append, List.nil_append, List.map_cons]

end RnsSerialDecoder

open RnsSerialDecoder

theorem forall₂_encoded_eq {payloads wires : List (List UInt8)}
    (h : List.Forall₂ (Encoded build) payloads wires) : wires = payloads.map frameOf := by
  induction h with
  | nil => rfl
  | cons hw _ ih => rw [hw.eq_frameOf, ih, List.map_cons]

/-- Round trip from any state. Whatever the scanner and the sink hold, feeding
the encoded frames of non-empty payloads that fit the sink delivers the payloads
in order and unchanged, behind at most one event of the old state; through the
byte path, and through the bulk path however the bytes are cut into chunks. -/
theorem encoded_frames_delivered (build : SearchBuild) (d : RnsSerialDecoder)
    (payloads wires : List (List UInt8))
    (hwires : List.Forall₂ (Encoded build) payloads wires)
    (hne : ∀ p ∈ payloads, p ≠ [])
    (hfits : ∀ p ∈ payloads, d.buffer.limit.fits p.length) :
    ∃ spurious : List FrameEvent, spurious.length ≤ 1 ∧
      (d.scanner.inFrame = false → spurious = []) ∧
      (run feedStep d wires.flatten).1 = spurious ++ payloads.map FrameEvent.frame ∧
      ∀ (decoderBuild : SearchBuild) (chunks : List (List UInt8)), chunks.flatten = wires.flatten →
        (run (feedSlice decoderBuild) d chunks).1 = spurious ++ payloads.map FrameEvent.frame := by
  rw [forall₂_encoded_eq hwires]
  obtain ⟨spurious, hone, hidle, hrun⟩ := run_frames payloads d hne hfits
  refine ⟨spurious, hone, hidle, hrun, ?_⟩
  intro decoderBuild chunks hcut
  rw [run_chunks _ _ (feedSlice_eq_run decoderBuild), hcut, hrun]

/-- A decoder stuck in an escape inside an overfull frame, and two frames of
special bytes. -/
theorem encoded_frames_delivered_stuck : ∃ spurious : List FrameEvent, spurious.length ≤ 1 ∧
      (true = false → spurious = []) ∧
      (run feedStep ⟨⟨true, true⟩, ⟨.frameBuffer 2, [1, 2, 3]⟩⟩
          [flag, esc, 0x5E, flag, flag, 7, esc, 0x5D, flag]).1 =
        spurious ++ [.frame [flag], .frame [7, esc]] ∧
      ∀ (decoderBuild : SearchBuild) (chunks : List (List UInt8)),
        chunks.flatten = [flag, esc, 0x5E, flag, flag, 7, esc, 0x5D, flag] →
        (run (feedSlice decoderBuild) ⟨⟨true, true⟩, ⟨.frameBuffer 2, [1, 2, 3]⟩⟩ chunks).1 =
          spurious ++ [.frame [flag], .frame [7, esc]] :=
  encoded_frames_delivered .bare64 ⟨⟨true, true⟩, ⟨.frameBuffer 2, [1, 2, 3]⟩⟩
    [[flag], [7, esc]] [frameOf [flag], frameOf [7, esc]]
    (.cons (encoded_frameOf _ _) (.cons (encoded_frameOf _ _) .nil))
    (by decide) (by simp [SinkLimit.fits])

end Prns.Ports.SerialFraming
