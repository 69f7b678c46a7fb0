import Prns.Ports.SerialSearch

/-!
# The bulk path is the byte path

`nextFrameInto` copies whole runs and abandons an oversize frame by arithmetic
on the offset. Each of its calls is shown to do what feeding the consumed bytes
one at a time does (`feedSliceNext_bulkCall`); the loop of `feed_slice` over a chunk
is then a run of the byte machine, and so is any sequence of chunks.
-/

namespace Prns.Ports.SerialFraming

open Verified.Machine
open FrameSink

/-- What a decoder hands up: a closed frame, or an oversize one given up. -/
inductive FrameEvent where
  | frame (payload : List UInt8)
  | tooBig
  deriving DecidableEq, Repr

namespace RnsSerialDecoder

/-- `feed`: one byte, and the frame it closes if it closes one. -/
def feed (d : RnsSerialDecoder) (byte : UInt8) :
    Except DecodeError (Option (List UInt8)) × RnsSerialDecoder :=
  match d.feedOneInto byte with
  | (.error e, d') => (.error e, d')
  | (.ok true, d') => (.ok (some d'.buffer.bytes), d')
  | (.ok false, d') => (.ok none, d')

/-- `feed_slice_next`: the bulk path with the sink's content as the frame. -/
def feedSliceNext (build : SearchBuild) (input : List UInt8) (offset : Nat)
    (d : RnsSerialDecoder) :
    Except DecodeError (Option (List UInt8)) × Nat × RnsSerialDecoder :=
  match nextFrameInto build input offset d with
  | (.error e, offset', d') => (.error e, offset', d')
  | (.ok (some _), offset', d') => (.ok (some d'.buffer.bytes), offset', d')
  | (.ok none, offset', d') => (.ok none, offset', d')

/-- The events one answer stands for. -/
def answerEvents : Except DecodeError (Option (List UInt8)) → List FrameEvent
  | .ok (some payload) => [.frame payload]
  | .ok none => []
  | .error .frameTooBig => [.tooBig]

/-- The byte machine: `feed` as a step that emits events. -/
def feedStep (d : RnsSerialDecoder) (byte : UInt8) :
    List FrameEvent × RnsSerialDecoder :=
  (answerEvents (d.feed byte).1, (d.feed byte).2)

/-! ## Plain runs -/

theorem isSpecial_eq_false {b : UInt8} : isSpecial b = false ↔ b ≠ flag ∧ b ≠ esc := by
  simp [isSpecial]

theorem feedStep_plain (d : RnsSerialDecoder) (b : UInt8) (hin : d.scanner.inFrame = true)
    (hesc : d.scanner.sawEscape = false) (hb : isSpecial b = false) :
    d.feedStep b = match d.buffer.push b with
      | .error _ => ([.tooBig], d.reset)
      | .ok buffer => ([], { d with buffer := buffer }) := by
  obtain ⟨⟨inFrame, sawEscape⟩, buffer⟩ := d
  subst hin hesc
  obtain ⟨hflag, hescb⟩ := isSpecial_eq_false.mp hb
  cases hpush : buffer.push b with
  | error e => simp [feedStep, feed, feedOneInto, hflag, hescb, hpush, answerEvents]
  | ok buffer' => simp [feedStep, feed, feedOneInto, hflag, hescb, hpush, answerEvents]

variable (sink : FrameSink)

theorem extendFromSlice_nil : sink.extendFromSlice [] = .ok sink := by
  obtain ⟨limit, bytes⟩ := sink
  cases limit <;> simp [extendFromSlice]

theorem extendFromSlice_cons (b : UInt8) (bs : List UInt8) :
    sink.extendFromSlice (b :: bs) = match sink.push b with
      | .error e => .error e
      | .ok sink' => sink'.extendFromSlice bs := by
  obtain ⟨limit, bytes⟩ := sink
  cases limit with
  | vec => simp [extendFromSlice, push]
  | frameBuffer frameCap =>
    by_cases hfull : frameCap ≤ bytes.length
    · simp [extendFromSlice, push, hfull]
    by_cases hfit : frameCap - bytes.length < bs.length + 1
    · have hfit' : frameCap - (bytes.length + 1) < bs.length := by omega
      simp [extendFromSlice, push, hfull, hfit, hfit']
    · have hfit' : ¬ frameCap - (bytes.length + 1) < bs.length := by omega
      simp [extendFromSlice, push, hfull, hfit, hfit']

/-- A run the sink takes whole goes in silently, byte by byte. -/
theorem run_plain_ok (bs : List UInt8) : ∀ (d : RnsSerialDecoder) (buffer : FrameSink),
      d.scanner.inFrame = true → d.scanner.sawEscape = false →
      (∀ b ∈ bs, isSpecial b = false) →
      d.buffer.extendFromSlice bs = .ok buffer →
      run feedStep d bs = ([], { d with buffer := buffer }) := by
  induction bs with
  | nil =>
    intro d buffer _ _ _ hext
    rw [extendFromSlice_nil] at hext
    cases hext
    rfl
  | cons b bs ih =>
    intro d buffer hin hesc hplain hext
    have hstep := feedStep_plain d b hin hesc (hplain b (by simp))
    rw [extendFromSlice_cons] at hext
    cases hpush : d.buffer.push b with
    | error e =>
      rw [hpush] at hext
      cases hext
    | ok buffer' =>
      rw [hpush] at hext hstep
      have htail := ih { d with buffer := buffer' } buffer hin hesc
        (fun c hc => hplain c (by simp [hc])) hext
      rw [run_cons, hstep, htail]
      rfl

theorem push_freeCapacity (b : UInt8) (frameCap : Nat)
    (hlimit : sink.limit = .frameBuffer frameCap) :
    (sink.freeCapacity = 0 ∧ sink.push b = .error .full) ∨
      ∃ sink', sink.push b = .ok sink' ∧ sink'.limit = .frameBuffer frameCap ∧
        sink.freeCapacity = sink'.freeCapacity + 1 ∧ sink'.clear = sink.clear := by
  obtain ⟨limit, bytes⟩ := sink
  subst hlimit
  by_cases hfull : frameCap ≤ bytes.length
  · left
    simp [push, freeCapacity, hfull]
  right
  refine ⟨⟨.frameBuffer frameCap, bytes ++ [b]⟩, ?_, rfl, ?_, rfl⟩
  · simp [push, hfull]
  · simp only [freeCapacity, List.length_append, List.length_singleton]
    omega

theorem extendFromSlice_error_limit (bs : List UInt8)
    (e : FrameSinkError) (h : sink.extendFromSlice bs = .error e) :
    ∃ frameCap, sink.limit = .frameBuffer frameCap ∧ sink.freeCapacity < bs.length := by
  obtain ⟨limit, bytes⟩ := sink
  cases limit with
  | vec => simp [extendFromSlice] at h
  | frameBuffer frameCap =>
    refine ⟨frameCap, rfl, ?_⟩
    by_contra hge
    simp only [freeCapacity] at hge
    simp [extendFromSlice, hge] at h

/-- A run the sink refuses is given up at the first byte past the free places:
exactly where the bulk path moves its offset. -/
theorem run_plain_error (bs : List UInt8) : ∀ (d : RnsSerialDecoder) (frameCap : Nat),
      d.scanner.inFrame = true → d.scanner.sawEscape = false →
      (∀ b ∈ bs, isSpecial b = false) →
      d.buffer.limit = .frameBuffer frameCap →
      d.buffer.freeCapacity < bs.length →
      run feedStep d (bs.take (d.buffer.freeCapacity + 1)) = ([.tooBig], d.reset) := by
  induction bs with
  | nil =>
    intro d frameCap _ _ _ _ hlen
    simp at hlen
  | cons b bs ih =>
    intro d frameCap hin hesc hplain hlimit hlen
    have hstep := feedStep_plain d b hin hesc (hplain b (by simp))
    rcases push_freeCapacity d.buffer b frameCap hlimit with
      ⟨hfree, hpush⟩ | ⟨buffer, hpush, hlimit', hfree, hclear⟩
    · rw [hpush] at hstep
      rw [hfree, List.take_succ_cons, List.take_zero, run_cons, hstep]
      rfl
    rw [hpush] at hstep
    have htail := ih { d with buffer := buffer } frameCap hin hesc
      (fun c hc => hplain c (by simp [hc])) hlimit' (by
        simp only [List.length_cons] at hlen
        simp only
        omega)
    rw [hfree, List.take_succ_cons, run_cons, hstep, htail]
    simp [reset, hclear]

/-! ## One bulk call -/

/-- Everything the callers of one bulk call need: it moves forward, stays in the
chunk, does what feeding the consumed bytes does, and answers "no frame yet" only
at the end of the chunk. -/
structure BulkCall (input : List UInt8) (offset : Nat) (d : RnsSerialDecoder)
    (r : Except DecodeError (Option (List UInt8)) × Nat × RnsSerialDecoder) :
    Prop where
  forward : offset ≤ r.2.1
  progress : offset < input.length → offset < r.2.1
  inside : offset ≤ input.length → r.2.1 ≤ input.length
  fed : run feedStep d ((input.drop offset).take (r.2.1 - offset)) =
    (answerEvents r.1, r.2.2)
  exhausted : offset ≤ input.length → r.1 = .ok none → r.2.1 = input.length

variable {input : List UInt8}

theorem BulkCall.after_silent {offset mid : Nat} {d dm : RnsSerialDecoder}
    {r : Except DecodeError (Option (List UInt8)) × Nat × RnsSerialDecoder} (hlt : offset < mid)
    (hmid : mid ≤ input.length)
    (hrun : run feedStep d ((input.drop offset).take (mid - offset)) = ([], dm))
    (hcall : BulkCall input mid dm r) : BulkCall input offset d r := by
  have hforward := hcall.forward
  refine
    { forward := by omega
      progress := fun _ => by omega
      inside := fun _ => hcall.inside hmid
      fed := ?_
      exhausted := fun _ hnone => hcall.exhausted hmid hnone }
  have hsplit : (input.drop offset).take (r.2.1 - offset) =
      (input.drop offset).take (mid - offset) ++ (input.drop mid).take (r.2.1 - mid) := by
    have hlen : r.2.1 - offset = (mid - offset) + (r.2.1 - mid) := by omega
    rw [hlen, List.take_add, List.drop_drop]
    congr 3
    omega
  rw [hsplit, run_append, hrun, hcall.fed]
  rfl

theorem BulkCall.answers {offset n : Nat} {d d' : RnsSerialDecoder}
    {answer : Except DecodeError (Option (List UInt8))} (hpos : 0 < n)
    (hn : offset + n ≤ input.length) (hanswer : answer ≠ .ok none)
    (hfed : run feedStep d ((input.drop offset).take n) = (answerEvents answer, d')) :
    BulkCall input offset d (answer, offset + n, d') where
  forward := Nat.le_add_right ..
  progress _ := Nat.lt_add_of_pos_right hpos
  inside _ := hn
  fed := by rw [Nat.add_sub_cancel_left, hfed]
  exhausted _ hnone := absurd hnone hanswer

variable (build : SearchBuild)

theorem runEnd_bounds (input : List UInt8) (offset : Nat) (h : offset < input.length) :
    runEnd build input offset ≤ input.length ∧
      ∀ b ∈ (input.drop offset).take (runEnd build input offset - offset), isSpecial b = false := by
  unfold runEnd
  cases hfind : findSpecial build (input.drop offset) with
  | none =>
    refine ⟨Nat.le_refl _, ?_⟩
    intro b hb
    exact findSpecial_none hfind b (List.mem_of_mem_take hb)
  | some pos =>
    obtain ⟨hpos, _, hplain⟩ := findSpecial_some hfind
    rw [List.length_drop] at hpos
    refine ⟨by simp only; omega, ?_⟩
    intro b hb
    have hlen : offset + pos - offset = pos := by omega
    simp only [hlen] at hb
    exact hplain b hb

variable {build}

theorem feedSliceNext_byte {input : List UInt8} {offset : Nat} {d d' : RnsSerialDecoder}
    {answer : Except DecodeError Bool} (h : offset < input.length)
    (hrun : ¬ (d.scanner.inFrame = true ∧ d.scanner.sawEscape = false ∧
      runEnd build input offset - offset ≠ 0))
    (hfeed : d.feedOneInto input[offset] = (answer, d')) :
    feedSliceNext build input offset d = match answer with
      | .error e => (.error e, offset + 1, d')
      | .ok true => (.ok (some d'.buffer.bytes), offset + 1, d')
      | .ok false => feedSliceNext build input (offset + 1) d' := by
  unfold feedSliceNext
  rw [nextFrameInto]
  rcases answer with e | closes
  · simp [h, hrun, hfeed]
  · cases closes <;> simp [h, hrun, hfeed]

variable (build)

theorem feedSliceNext_bulkCall (input : List UInt8) (offset : Nat)
    (d : RnsSerialDecoder) : BulkCall input offset d (feedSliceNext build input offset d) := by
  induction hleft : input.length - offset using Nat.strongRecOn generalizing offset d with
  | ind left ih =>
  by_cases h : offset < input.length
  · by_cases hrun : d.scanner.inFrame = true ∧ d.scanner.sawEscape = false ∧
        runEnd build input offset - offset ≠ 0
    · obtain ⟨hstop, hplain⟩ := runEnd_bounds build input offset h
      cases hext : d.buffer.extendFromSlice
          ((input.drop offset).take (runEnd build input offset - offset)) with
      | ok buffer =>
        -- the whole run is copied and the loop goes on behind it
        have hsilent := run_plain_ok _ d buffer hrun.1 hrun.2.1 hplain hext
        have hunfold : feedSliceNext build input offset d =
            feedSliceNext build input (runEnd build input offset) { d with buffer := buffer } := by
          unfold feedSliceNext
          rw [nextFrameInto]
          simp [h, hrun, hext]
        rw [hunfold]
        exact BulkCall.after_silent (by omega) hstop hsilent (ih _ (by omega) _ _ rfl)
      | error e =>
        -- the frame is given up one byte past the sink's free places
        obtain ⟨frameCap, hlimit, hfree⟩ := extendFromSlice_error_limit _ _ _ hext
        have hgive := run_plain_error _ d frameCap hrun.1 hrun.2.1 hplain hlimit hfree
        have hunfold : feedSliceNext build input offset d =
            (.error .frameTooBig, offset + (d.buffer.freeCapacity + 1), d.reset) := by
          unfold feedSliceNext
          rw [nextFrameInto]
          simp [h, hrun, hext]
        rw [List.length_take, List.length_drop] at hfree
        rw [List.take_take, Nat.min_eq_left (by omega)] at hgive
        rw [hunfold]
        exact .answers (Nat.succ_pos _) (by omega) (by simp) hgive
    · cases hfeed : d.feedOneInto input[offset] with
      | mk answer d' =>
      have hbyte : run feedStep d ((input.drop offset).take 1) =
          (answerEvents (d.feed input[offset]).1, d') := by
        rw [List.drop_eq_getElem_cons h, List.take_succ_cons, List.take_zero, run_cons, run_nil]
        simp only [feedStep, feed, hfeed, List.append_nil]
        split <;> simp_all
      rw [feed, hfeed] at hbyte
      rw [feedSliceNext_byte h hrun hfeed]
      cases answer with
      | error e => exact .answers Nat.one_pos h (by simp) hbyte
      | ok closes =>
        cases closes with
        | true => exact .answers Nat.one_pos h (by simp) hbyte
        | false =>
          rw [← Nat.add_sub_cancel_left (n := offset) (m := 1)] at hbyte
          exact BulkCall.after_silent (Nat.lt_succ_self _) h hbyte (ih _ (by omega) _ _ rfl)
  · have hunfold : feedSliceNext build input offset d = (.ok none, offset, d) := by
      unfold feedSliceNext
      rw [nextFrameInto]
      simp [h]
    rw [hunfold]
    refine
      { forward := Nat.le_refl _
        progress := fun hlt => absurd hlt h
        inside := fun hle => hle
        fed := ?_
        exhausted := fun hle _ => by simp only; omega }
    simp [answerEvents]

/-- The loop of `feed_slice` from `offset` on. The give-ups it drops are
recorded next to the frames it hands to its callback. -/
def feedSliceFrom (build : SearchBuild) (input : List UInt8) (offset : Nat)
    (d : RnsSerialDecoder) : List FrameEvent × RnsSerialDecoder :=
  if h : offset < input.length then
    match hnext : feedSliceNext build input offset d with
    | (.ok none, _, d') => ([], d')
    | (.ok (some payload), offset', d') =>
        let rest := feedSliceFrom build input offset' d'
        (.frame payload :: rest.1, rest.2)
    | (.error .frameTooBig, offset', d') =>
        let rest := feedSliceFrom build input offset' d'
        (.tooBig :: rest.1, rest.2)
  else ([], d)
  termination_by input.length - offset
  decreasing_by
    all_goals
      have hprogress := (feedSliceNext_bulkCall build input offset d).progress h
      rw [hnext] at hprogress
      simp only at hprogress
      omega

/-- `feed_slice`: one chunk through the bulk path. -/
def feedSlice (build : SearchBuild) (d : RnsSerialDecoder) (chunk : List UInt8) :
    List FrameEvent × RnsSerialDecoder :=
  feedSliceFrom build chunk 0 d

theorem feedSliceFrom_step (input : List UInt8)
    (offset : Nat) (d : RnsSerialDecoder) (h : offset < input.length) :
    feedSliceFrom build input offset d = let r := feedSliceNext build input offset d
      let rest := feedSliceFrom build input r.2.1 r.2.2
      (answerEvents r.1 ++ rest.1, rest.2) := by
  have hcall := feedSliceNext_bulkCall build input offset d
  rw [feedSliceFrom, dif_pos h]
  split
  case h_1 offset' d' hnext =>
      -- "no frame yet" ends the chunk, so the loop would not go on either
      rw [hnext] at hcall
      have hend : offset' = input.length := hcall.exhausted (by omega) rfl
      have hstop : feedSliceFrom build input input.length d' = ([], d') := by
        rw [feedSliceFrom]
        simp
      simp only [hnext, hend, hstop, answerEvents, List.append_nil]
  case h_2 payload offset' d' hnext =>
      simp only [hnext, answerEvents, List.singleton_append]
  case h_3 offset' d' hnext =>
      simp only [hnext, answerEvents, List.singleton_append]

/-- The loop over the rest of a chunk is the byte machine's run over it. -/
theorem feedSliceFrom_eq_run (input : List UInt8) (offset : Nat) (d : RnsSerialDecoder) :
    feedSliceFrom build input offset d = run feedStep d (input.drop offset) := by
  induction hleft : input.length - offset using Nat.strongRecOn generalizing offset d with
  | ind left ih =>
  by_cases h : offset < input.length
  · have hcall := feedSliceNext_bulkCall build input offset d
    rw [feedSliceFrom_step build input offset d h]
    generalize feedSliceNext build input offset d = r at hcall ⊢
    have hprogress := hcall.progress h
    have hsplit : input.drop offset =
        (input.drop offset).take (r.2.1 - offset) ++ input.drop r.2.1 := by
      have hdrop : input.drop r.2.1 = (input.drop offset).drop (r.2.1 - offset) := by
        rw [List.drop_drop]
        congr 1
        omega
      rw [hdrop, List.take_append_drop]
    rw [hsplit, run_append, hcall.fed]
    simp only [ih _ (by omega) r.2.1 r.2.2 rfl]
  · rw [feedSliceFrom, dif_neg h, List.drop_eq_nil_of_le (by omega), run_nil]

theorem feedSlice_eq_run (d : RnsSerialDecoder)
    (chunk : List UInt8) : feedSlice build d chunk = run feedStep d chunk := by
  rw [feedSlice, feedSliceFrom_eq_run, List.drop_zero]

/-- For every build, sink, starting state and cut of a stream into chunks, the
bulk path yields the frames and give-ups of the byte path, in order, and ends in
the same state. -/
theorem feedSlice_chunks_eq_feed (build : SearchBuild) (d : RnsSerialDecoder)
    (chunks : List (List UInt8)) :
    run (feedSlice build) d chunks = run feedStep d chunks.flatten :=
  run_chunks _ _ (feedSlice_eq_run build) d chunks

end RnsSerialDecoder

end Prns.Ports.SerialFraming
