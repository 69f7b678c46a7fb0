import Prns.Ports.FlashJournalArena

/-!
# Writing a record to an erased tail

Whatever stops `write_record`, the cells of the record are as before, or its header
is started and its commit word is not, or the record is complete; and nothing else
has changed. If it returns, the record is complete.
-/

namespace Prns.Ports.Journal

open Verified
open Verified.NorFlash
open Persistence

section

variable {g : Geometry} {layout : FlashJournalLayout} {scratchLen : Nat}

/-! ## Payload -/

variable {d : Device}

theorem ensures_writeChunk (g : Geometry) {remaining : List UInt8} {payloadAt take writeLen : Nat}
    (htake : take ≤ remaining.length) (hle : take ≤ writeLen)
    (hmax : writeLen ≤ ioChunkLen) (h : Erased d.cells payloadAt (payloadAt + writeLen)) :
    Act.Ensures (write g payloadAt ((remaining.take take ++
        List.replicate (ioChunkLen - take) 0xFF).take writeLen)) d
      (fun _ d' => d'.cells = program d.cells payloadAt (remaining.take take) ∧ d'.clean = d.clean)
      (fun d' => (∃ n, d'.cells = program d.cells payloadAt (remaining.take n)) ∧
        d'.clean = d.clean) := by
  have hlen : (remaining.take take).length = take := List.length_take_of_le htake
  rw [List.take_append, List.take_of_length_le (by omega), hlen, List.take_replicate,
    Nat.min_eq_left (by omega)]
  have hbytes : (remaining.take take ++ List.replicate (writeLen - take) 0xFF).length =
      writeLen := by
    rw [List.length_append, List.length_take, List.length_replicate]
    omega
  refine (ensures_write g (by rw [hbytes]; exact h)).mono ?_ ?_
  · rintro - d' ⟨hcells, hclean⟩
    exact ⟨by rw [hcells, program_padding], hclean⟩
  · rintro d' ⟨⟨k, hcells⟩, hclean⟩
    refine ⟨⟨min k take, ?_⟩, hclean⟩
    rw [hcells, List.take_append, List.take_replicate, program_padding, List.take_take]

theorem ensures_writePayload (hs : Sound g layout scratchLen) (remaining : List UInt8)
    (payloadAt room : Nat) (hroom : remaining.length ≤ room)
    (hmod : room % g.writeSize = 0) (h : Erased d.cells payloadAt (payloadAt + room)) :
    Act.Ensures (writePayload g payloadAt remaining) d
      (fun _ d' => d'.cells = program d.cells payloadAt remaining ∧ d'.clean = d.clean)
      (fun d' => (∃ n, d'.cells = program d.cells payloadAt (remaining.take n)) ∧
        d'.clean = d.clean) := by
  have hchunk : ioChunkLen % g.writeSize = 0 := by
    apply Nat.mod_eq_zero_of_dvd
    exact (Nat.dvd_of_mod_eq_zero hs.header_write).trans ⟨8, rfl⟩
  induction hn : remaining.length using Nat.strong_induction_on generalizing remaining payloadAt
    room d with
  | _ n ih =>
    rw [writePayload]
    by_cases hempty : remaining = []
    · rw [dif_pos hempty, hempty]
      exact Act.ensures_pure ⟨program_nil.symm, rfl⟩
    rw [dif_neg hempty]
    simp only
    have hkeep : (∃ n, d.cells = program d.cells payloadAt (remaining.take n)) ∧
        d.clean = d.clean := ⟨⟨0, program_nil.symm⟩, rfl⟩
    generalize htake : min remaining.length ioChunkLen = take
    generalize hlen : (if take = remaining.length then alignUp take g.writeSize
      else some take) = found
    cases found with
    | none => exact Act.ensures_fail hkeep
    | some writeLen =>
      -- A chunk that is not the last is not padded; the last fits in what is left.
      have hwrite : take ≤ writeLen ∧ writeLen ≤ ioChunkLen ∧ writeLen ≤ room ∧
          (take ≠ remaining.length → writeLen = take ∧ take = ioChunkLen) := by
        by_cases hlast : take = remaining.length
        · rw [if_pos hlast] at hlen
          obtain ⟨hle, -, hleast⟩ := alignUp_spec hs.write_pos hlen
          exact ⟨hle, hleast _ (by omega) hchunk, hleast _ (by omega) hmod,
            fun hne => absurd hlast hne⟩
        · rw [if_neg hlast] at hlen
          injection hlen with hlen
          omega
      obtain ⟨hle, hmax, hfit, hnext⟩ := hwrite
      refine (ensures_writeChunk g (by omega) hle hmax h.mono).mapError.bind ?_
      rintro - d' ⟨hcells, hclean⟩
      by_cases hlast : take = remaining.length
      · rw [hlast, List.take_length] at hcells
        rw [hlast, List.drop_length, writePayload, dif_pos rfl]
        exact Act.ensures_pure ⟨hcells, hclean⟩
      obtain ⟨hlen', hfull⟩ := hnext hlast
      have hfront : (remaining.take take).length = take := List.length_take_of_le (by omega)
      have hrest : Erased d'.cells (payloadAt + writeLen)
          (payloadAt + writeLen + (room - ioChunkLen)) := by
        rw [hcells]
        refine (h.mono (by omega) (Nat.le_add_right payloadAt writeLen)).of_sameOutside
          program_outside (Or.inr (by omega))
      have hroom' : (room - ioChunkLen) % g.writeSize = 0 := by
        apply Nat.mod_eq_zero_of_dvd
        exact Nat.dvd_sub (Nat.dvd_of_mod_eq_zero hmod) (Nat.dvd_of_mod_eq_zero hchunk)
      have hjoin (back : List UInt8) : program (program d.cells payloadAt (remaining.take take))
            (payloadAt + take) back =
          program d.cells payloadAt (remaining.take take ++ back) := by
        have happend := program_append d.cells payloadAt (remaining.take take) back
        rw [hfront] at happend
        exact happend
      refine (ih _ ?_ (remaining.drop take) (payloadAt + writeLen)
        (room - ioChunkLen) ?_ hroom' hrest rfl).mono ?_ ?_
      · rw [List.length_drop]
        unfold ioChunkLen at hfull
        omega
      · rw [List.length_drop]
        omega
      · rintro - d'' ⟨hcells', hclean'⟩
        refine ⟨?_, hclean'.trans hclean⟩
        rw [hcells', hcells, hlen', hjoin, List.take_append_drop]
      · rintro d'' ⟨⟨k, hcells'⟩, hclean'⟩
        refine ⟨⟨take + k, ?_⟩, hclean'.trans hclean⟩
        rw [hcells', hcells, hlen', hjoin, List.take_add]

theorem reads_verifyChunks (g : Geometry) (payloadAt : Nat) (remaining : List UInt8) :
    Reads (verifyChunks g payloadAt remaining) := by
  induction hn : remaining.length using Nat.strong_induction_on generalizing remaining payloadAt
    with
  | _ n ih =>
    rw [verifyChunks]
    by_cases hempty : remaining = []
    · rw [dif_pos hempty]
      exact reads_pure ()
    rw [dif_neg hempty]
    have hpos := List.length_pos_iff.mpr hempty
    simp only
    cases alignUp (remaining.take ioChunkLen).length g.readSize with
    | none => exact reads_fail _
    | some readLen =>
      apply ((reads_read g payloadAt readLen).mapError _).bind
      intro bytes
      split
      · exact reads_fail _
      · refine ih _ ?_ (payloadAt + readLen) (remaining.drop ioChunkLen) rfl
        rw [List.length_drop]
        unfold ioChunkLen
        omega

/-! ## The record up to its commit word -/

/-- The header as it is first written. -/
def openHeader (r : Record) : List UInt8 :=
  (recordHeader r.epoch r.kind r.payload.length (checksumOf r.epoch r.kind r.payload)
    false).take commitOffset

/-- The cells with everything of the record but its commit word. -/
def staged (cells : Image) (pos : Nat) (r : Record) : Image :=
  program (program cells pos (openHeader r)) (pos + headerLen) r.payload

theorem length_openHeader (r : Record) : (openHeader r).length = commitOffset := rfl

/-- The header of a record was started and its commit word was not finished. -/
def Torn (cells : Image) (pos : Nat) : Prop := cells pos = 0x50 ∧ cells (pos + 31) = 0xFF

variable {cells cells' : Image} {pos next : Nat} {r : Record}

theorem torn_program_take (h : Erased cells pos (pos + headerLen)) (n : Nat) :
    Torn (program cells pos ((openHeader r).take (n + 1))) pos := by
  unfold headerLen at h
  constructor
  · rw [program, if_pos (Nat.le_refl _), h pos Nat.le.refl (by omega), erased_and, Nat.sub_self]
    rfl
  rw [program_outside (pos + 31), h (pos + 31) (by omega) (by omega)]
  right
  have hlen := List.length_take_le' (n + 1) (openHeader r)
  rw [length_openHeader] at hlen
  unfold commitOffset at hlen
  omega

theorem torn_openHeader (h : Erased cells pos (pos + headerLen)) :
    Torn (program cells pos (openHeader r)) pos := by
  have hall : (openHeader r).take (27 + 1) = openHeader r :=
    List.take_of_length_le (Nat.le_of_eq (length_openHeader r))
  have htorn := torn_program_take (r := r) h 27
  rwa [hall] at htorn

theorem Torn.program (h : Torn cells pos) (bytes : List UInt8) :
    Torn (NorFlash.program cells (pos + headerLen) bytes) pos := by
  unfold headerLen
  constructor
  · rw [program_outside pos (by omega), h.1]
  · rw [program_outside (pos + 31) (by omega), h.2]

theorem torn_staged (h : Erased cells pos (pos + headerLen)) : Torn (staged cells pos r) pos :=
  (torn_openHeader h).program r.payload

theorem payload_room (hs : Sound g layout scratchLen)
    (hend : recordEnd g pos r.payload.length = some next) :
    r.payload.length ≤ next - (pos + headerLen) ∧ (next - (pos + headerLen)) % g.writeSize = 0 := by
  obtain ⟨padded, hpadded, rfl, -⟩ := recordEnd_eq_some hend
  obtain ⟨hle, hmod, -⟩ := alignUp_spec hs.io_pos hpadded
  rw [Nat.add_sub_cancel_left]
  exact ⟨hle, Nat.mod_eq_zero_of_dvd (hs.write_dvd_io.trans (Nat.dvd_of_mod_eq_zero hmod))⟩

theorem program_record_outside (cells : Image) (pos : Nat) (r : Record) (n : Nat) :
    SameOutside cells (program (program cells pos (openHeader r)) (pos + headerLen)
      (r.payload.take n)) pos (pos + headerLen + r.payload.length) := by
  have htake := List.length_take_le' n r.payload
  refine (program_outside.mono ?_).trans (program_outside.mono ?_ ?_)
  · rw [length_openHeader]
    unfold commitOffset headerLen
    omega
  · omega
  · omega

theorem staged_outside (cells : Image) (pos : Nat) (r : Record) :
    SameOutside cells (staged cells pos r) pos (pos + headerLen + r.payload.length) := by
  have hout := program_record_outside cells pos r r.payload.length
  rwa [List.take_length] at hout

/-- Nothing changed but the bytes of a record. -/
abbrev RecordOnly (r : Record) (pos : Nat) (d d' : Device) : Prop :=
  SameOutside d.cells d'.cells pos (pos + headerLen + r.payload.length) ∧ d'.clean = d.clean

theorem ensures_stageRecord (hs : Sound g layout scratchLen)
    (hend : recordEnd g pos r.payload.length = some next) (h : Erased d.cells pos next) :
    Act.Ensures (stageRecord g pos r.epoch r.kind r.payload) d
      (fun _ d' => d'.cells = staged d.cells pos r ∧ d'.clean = d.clean)
      (fun d' => (d'.cells = d.cells ∨ Torn d'.cells pos) ∧ RecordOnly r pos d d') := by
  have hnext := lt_recordEnd hend
  have hheader : Erased d.cells pos (pos + headerLen) := h.mono hnext
  obtain ⟨hlen, hmod⟩ := payload_room hs hend
  have hall := staged_outside d.cells pos r
  unfold stageRecord
  have hfirst : Erased d.cells pos (pos + (openHeader r).length) :=
    h.mono (by rw [length_openHeader]; unfold commitOffset headerLen at *; omega)
  refine ((ensures_write g hfirst).mono (fun _ _ hq => hq) ?_).mapError.bind ?_
  · rintro d' ⟨⟨n, hcells⟩, hclean⟩
    rw [RecordOnly, hcells]
    refine ⟨?_, program_outside.mono ?_, hclean⟩
    · cases n with
      | zero => exact Or.inl program_nil
      | succ n => exact Or.inr (torn_program_take hheader n)
    have htake := List.length_take_le' n (openHeader r)
    rw [length_openHeader] at htake
    unfold commitOffset headerLen at *
    omega
  rintro - d1 ⟨hcells1, hclean1⟩
  have hrest : Erased d1.cells (pos + headerLen)
      (pos + headerLen + (next - (pos + headerLen))) := by
    rw [hcells1]
    refine (h.mono (by omega) (Nat.le_add_right pos headerLen)).of_sameOutside
      program_outside (Or.inr ?_)
    rw [length_openHeader]
    exact Nat.add_le_add_left (by decide) pos
  have htorn1 : Torn d1.cells pos := by
    rw [hcells1]
    exact torn_openHeader hheader
  refine ((ensures_writePayload hs r.payload (pos + headerLen) _ hlen hmod hrest).mono
    (fun _ _ hq => hq) ?_).bind ?_
  · rintro d' ⟨⟨n, hcells⟩, hclean⟩
    refine ⟨Or.inr ?_, ?_, hclean.trans hclean1⟩
    · rw [hcells]
      exact htorn1.program _
    · rw [hcells, hcells1]
      exact program_record_outside d.cells pos r n
  rintro - d2 ⟨hcells2, hclean2⟩
  rw [hcells1] at hcells2
  have hkeep : ∀ d' : Device, d'.cells = d2.cells ∧ d'.clean = d2.clean →
      (d'.cells = d.cells ∨ Torn d'.cells pos) ∧ RecordOnly r pos d d' := by
    rintro d' ⟨hcells, hclean⟩
    rw [RecordOnly, hcells, hclean, hcells2]
    exact ⟨Or.inr (torn_staged hheader), hall, hclean2.trans hclean1⟩
  refine (((reads_read g pos headerLen).ensures d2).mono (fun _ _ hq => hq) hkeep).mapError.bind ?_
  rintro header d3 ⟨hcells3, hclean3⟩
  split
  · exact Act.ensures_fail (hkeep d3 ⟨hcells3, hclean3⟩)
  refine ((reads_verifyChunks g (pos + headerLen) r.payload).ensures d3).mono ?_ ?_
  · rintro - d4 ⟨hcells4, hclean4⟩
    exact ⟨(hcells4.trans hcells3).trans hcells2,
      ((hclean4.trans hclean3).trans hclean2).trans hclean1⟩
  · rintro d4 ⟨hcells4, hclean4⟩
    exact hkeep d4 ⟨hcells4.trans hcells3, hclean4.trans hclean3⟩

/-! ## The commit word -/

theorem erased_commit (h : Erased cells pos (pos + headerLen)) :
    Erased (staged cells pos r) (pos + commitOffset)
      (pos + commitOffset + (leBytes 4 commitWord).length) := by
  intro x hx hlt
  rw [length_leBytes] at hlt
  unfold commitOffset at hx hlt
  unfold headerLen at h
  rw [staged, program_outside x (Or.inl (by unfold headerLen; omega)),
    program_outside x (Or.inr (by rw [length_openHeader]; unfold commitOffset; omega)),
    h x (by omega) (by omega)]

theorem complete_commit (hlen : Erased cells pos (pos + headerLen + r.payload.length)) :
    Complete (program (staged cells pos r) (pos + commitOffset) (leBytes 4 commitWord)) pos r := by
  have hword : (leBytes 4 commitWord).length = 4 := rfl
  have hheader : slice (staged cells pos r) pos commitOffset = openHeader r := by
    have hstaged : slice (staged cells pos r) pos commitOffset =
        slice (program cells pos (openHeader r)) pos commitOffset :=
      slice_congr (fun x hx hlt => program_outside x
        (Or.inl (by unfold commitOffset headerLen at *; omega)))
    rw [hstaged]
    exact slice_program (hlen.mono (by rw [length_openHeader]; unfold commitOffset headerLen; omega))
  constructor
  · rw [show headerLen = commitOffset + 4 from rfl, slice_add,
      slice_congr (fun x hx hlt => program_outside x (Or.inl hlt)), hheader]
    congr 1
    exact slice_program (erased_commit (hlen.mono (Nat.le_add_right ..)))
  have hpayload : Erased (program cells pos (openHeader r)) (pos + headerLen)
      (pos + headerLen + r.payload.length) := by
    refine (hlen.mono Nat.le.refl (Nat.le_add_right pos headerLen)).of_sameOutside
      program_outside (Or.inr ?_)
    rw [length_openHeader]
    exact Nat.add_le_add_left (by decide) pos
  rw [slice_congr (fun x hx hlt => program_outside x
    (Or.inr (by rw [hword]; unfold commitOffset headerLen at *; omega)))]
  exact slice_program hpayload

/-- What an unfinished write of a record leaves of it. -/
def Left (cells cells' : Image) (pos : Nat) (r : Record) : Prop :=
  cells' = cells ∨ Torn cells' pos ∨ Complete cells' pos r

theorem left_commit (hroom : pos + headerLen + r.payload.length ≤ next)
    (h : Erased cells pos next) (n : Nat) :
    Left cells (program (staged cells pos r) (pos + commitOffset)
      ((leBytes 4 commitWord).take n)) pos r := by
  right
  by_cases hn : n < 4
  · left
    have htorn : Torn (staged cells pos r) pos := torn_staged h.mono
    have hlen : ((leBytes 4 commitWord).take n).length ≤ 3 := by
      have := List.length_take_le n (leBytes 4 commitWord)
      omega
    unfold commitOffset
    constructor
    · rw [program_outside pos (by omega), htorn.1]
    · rw [program_outside (pos + 31) (by omega), htorn.2]
  · right
    rw [List.take_of_length_le (by rw [length_leBytes]; omega)]
    exact complete_commit (h.mono hroom)

theorem commit_outside (n : Nat) :
    SameOutside cells (program (staged cells pos r) (pos + commitOffset)
      ((leBytes 4 commitWord).take n)) pos (pos + headerLen + r.payload.length) := by
  have hlen := List.length_take_le' n (leBytes 4 commitWord)
  rw [length_leBytes] at hlen
  refine (staged_outside cells pos r).trans (program_outside.mono ?_ (Nat.le_add_right ..))
  unfold commitOffset headerLen
  omega

theorem complete_of_header (hroom : pos + headerLen + r.payload.length ≤ next)
    (h : Erased cells pos next) (n : Nat)
    (hheader : slice (program (staged cells pos r) (pos + commitOffset)
      ((leBytes 4 commitWord).take n)) pos headerLen =
      recordHeader r.epoch r.kind r.payload.length (checksumOf r.epoch r.kind r.payload) true) :
    Complete (program (staged cells pos r) (pos + commitOffset)
      ((leBytes 4 commitWord).take n)) pos r := by
  refine ⟨hheader, Eq.trans ?_ (complete_commit (h.mono hroom)).payload⟩
  have hlen := List.length_take_le' n (leBytes 4 commitWord)
  have hword : (leBytes 4 commitWord).length = 4 := rfl
  apply slice_congr
  intro x hx hlt
  unfold headerLen at hx
  unfold commitOffset
  rw [program_outside x (Or.inr (by omega)), program_outside x (Or.inr (by omega))]

/-- The state after the commit word, or a part of it, was written. -/
def CommitWritten (cells : Image) (clean : Bool) (pos : Nat) (r : Record) (d : Device) : Prop :=
  (∃ n, d.cells = program (staged cells pos r) (pos + commitOffset)
    ((leBytes 4 commitWord).take n)) ∧ d.clean = clean

theorem ensures_commitRecord (hcells : d.cells = staged cells pos r)
    (h : Erased cells pos (pos + headerLen)) :
    Act.Ensures (commitRecord g pos next r.epoch r.kind r.payload) d
      (fun appendAt d' => appendAt = next ∧ CommitWritten cells d.clean pos r d' ∧
        slice d'.cells pos headerLen = recordHeader r.epoch r.kind r.payload.length
          (checksumOf r.epoch r.kind r.payload) true)
      (CommitWritten cells d.clean pos r) := by
  have hfree := erased_commit (r := r) h
  rw [← hcells] at hfree
  have hwrite : Act.Ensures (write g (pos + commitOffset) (leBytes 4 commitWord)) d
      (fun _ => CommitWritten cells d.clean pos r) (CommitWritten cells d.clean pos r) := by
    refine (ensures_write g hfree).mono ?_ ?_
    · rintro - d' ⟨hcells', hclean⟩
      exact ⟨⟨4, by rw [hcells', hcells]; rfl⟩, hclean⟩
    · rintro d' ⟨⟨n, hcells'⟩, hclean⟩
      exact ⟨⟨n, by rw [hcells', hcells]⟩, hclean⟩
  unfold commitRecord
  have hattempt : Act.Ensures (write g (pos + commitOffset) (leBytes 4 commitWord)).attempt d
      (fun _ => CommitWritten cells d.clean pos r) (CommitWritten cells d.clean pos r)
      (ε := JournalError) := by
    refine hwrite.attempt.mono ?_ (fun _ hx => hx)
    intro result d' hresult
    cases result with
    | ok u => exact hresult
    | error e => exact hresult
  refine hattempt.bind ?_
  intro commitResult d1 hwritten
  have hsame (d' : Device) (hd : d'.cells = d1.cells ∧ d'.clean = d1.clean) :
      CommitWritten cells d.clean pos r d' := by
    unfold CommitWritten
    rw [hd.1, hd.2]
    exact hwritten
  have hreadback : Act.Ensures (read g pos headerLen).attempt d1
      (fun readback d' => CommitWritten cells d.clean pos r d' ∧
        ∀ header, readback = .ok header → header = slice d'.cells pos headerLen)
      (CommitWritten cells d.clean pos r) (ε := JournalError) := by
    refine (ensures_read g pos headerLen d1).attempt.mono ?_ hsame
    intro result d' hresult
    cases result with
    | ok header =>
      refine ⟨hsame d' hresult.2, ?_⟩
      rintro header' ⟨⟩
      rw [hresult.1, hresult.2.1]
    | error e => exact ⟨hsame d' hresult, nofun⟩
  refine hreadback.bind ?_
  rintro readback d2 ⟨hwritten2, hheader⟩
  cases readback with
  | error e => cases commitResult <;> exact Act.ensures_fail hwritten2
  | ok header =>
    have hmatches (hmatch : header = recordHeader r.epoch r.kind r.payload.length
        (checksumOf r.epoch r.kind r.payload) true) := hheader header rfl ▸ hmatch
    cases commitResult <;> simp only <;> split
    · next hmatch =>
        exact Act.ensures_pure ⟨rfl, hwritten2, hmatches (of_decide_eq_true hmatch)⟩
    · exact Act.ensures_fail hwritten2
    · exact Act.ensures_fail hwritten2
    · next hmatch =>
        rw [Bool.not_eq_true', Bool.not_eq_false] at hmatch
        exact Act.ensures_pure ⟨rfl, hwritten2, hmatches (of_decide_eq_true hmatch)⟩

theorem ensures_writeRecord (arena : FlashArenaRange) (hs : Sound g layout scratchLen)
    (hend : recordEnd g pos r.payload.length = some next) (h : Erased d.cells pos next) :
    Act.Ensures (writeRecord g arena pos r.epoch r.kind r.payload) d
      (fun appendAt d' => appendAt = next ∧ Complete d'.cells pos r ∧ RecordOnly r pos d d')
      (fun d' => Left d.cells d'.cells pos r ∧ RecordOnly r pos d d') := by
  have hnext := lt_recordEnd hend
  have hroom := payload_le_recordEnd hs.io_pos hend
  have hkeep : Left d.cells d.cells pos r ∧ RecordOnly r pos d d := ⟨Or.inl rfl, .refl, rfl⟩
  unfold writeRecord
  split
  · exact Act.ensures_fail hkeep
  rw [hend]
  simp only
  split
  · exact Act.ensures_fail hkeep
  refine ((ensures_stageRecord hs hend h).mono (fun _ _ hq => hq) ?_).bind ?_
  · rintro d' ⟨hleft, hout, hclean⟩
    exact ⟨hleft.imp_right Or.inl, hout, hclean⟩
  rintro - d1 ⟨hcells1, hclean1⟩
  refine (ensures_commitRecord hcells1 (h.mono hnext)).mono ?_ ?_
  · rintro appendAt d' ⟨happend, ⟨⟨n, hcells⟩, hclean⟩, hheader⟩
    rw [hcells] at hheader
    rw [RecordOnly, hcells]
    exact ⟨happend, complete_of_header hroom h n hheader, commit_outside n, hclean.trans hclean1⟩
  · rintro d' ⟨⟨n, hcells⟩, hclean⟩
    rw [RecordOnly, hcells]
    exact ⟨left_commit hroom h n, commit_outside n, hclean.trans hclean1⟩

/-- The record fits between the cursor and the end of the arena. -/
def accepts (g : Geometry) (arena : FlashArenaRange) (cursor : ArenaCursor) (len : Nat) : Bool :=
  match recordEnd g cursor.appendAt len with
  | none => false
  | some recordEnd' =>
      decide (arena.start ≤ cursor.appendAt) && decide (recordEnd' ≤ arena.stop)

variable {arena : FlashArenaRange} {cursor : ArenaCursor}

theorem accepts_iff {len : Nat} : accepts g arena cursor len = true ↔
      ∃ next, recordEnd g cursor.appendAt len = some next ∧
        arena.start ≤ cursor.appendAt ∧ next ≤ arena.stop := by
  unfold accepts
  cases recordEnd g cursor.appendAt len with
  | none => exact ⟨nofun, nofun⟩
  | some next => simp

theorem writeCursorRecord_refused (kind : RecordKind) (payload : List UInt8) {w : CursorOnFlash}
    (h : accepts g arena w.cursor payload.length = false) :
    ∃ e, writeCursorRecord g arena kind payload w = (.error e, w) := by
  unfold accepts at h
  unfold writeCursorRecord
  cases hend : recordEnd g w.cursor.appendAt payload.length with
  | none => simp [hend]
  | some next =>
    simp only [hend, Bool.and_eq_false_iff, decide_eq_false_iff_not] at h
    simp only [hend]
    rw [if_pos (by omega)]
    exact ⟨_, rfl⟩

theorem accepts_closed {len : Nat} (h : cursor.appendAt = arena.stop) :
    accepts g arena cursor len = false := by
  by_contra hne
  rw [Bool.not_eq_false] at hne
  obtain ⟨next, hend, -, hle⟩ := accepts_iff.mp hne
  have hlt := lt_recordEnd hend
  unfold headerLen at hlt
  omega

end

end Prns.Ports.Journal
