import Prns.Ports.FlashJournalCrash

/-!
# Resolving an unconfirmed commit

After an append or a commit that did not return, the owner asks the journal whether
the record is on the flash. The answer is taken from the header and the payload at
one position; `open` takes it from a scan of the arena. The two agree because an
interrupted write leaves the record untouched, torn or complete, and both tell these
three apart.
-/

namespace Prns.Ports.Journal

open Verified
open Verified.NorFlash

variable {g : Geometry} {layout : FlashJournalLayout} {scratchLen : Nat}

section

variable {side : Side} {cells : Image} {d : Device} {pos : Nat} {r : Record}

/-! ## Reading a record back -/

theorem exists_alignUp {value alignment : Nat} (hpos : 0 < alignment)
    (h : value + alignment ≤ usizeMax) : ∃ padded, alignUp value alignment = some padded := by
  unfold alignUp checkedAdd
  split_ifs
  · exact ⟨_, rfl⟩
  · exact ⟨_, rfl⟩
  · omega

theorem verifyChunks_quiet (hs : Sound g layout scratchLen) (remaining : List UInt8)
    (payloadAt room : Nat) (hpos : payloadAt % g.readSize = 0) (hroom : remaining.length ≤ room)
    (hmod : room % g.readSize = 0) (hcap : payloadAt + room ≤ g.capacity)
    (hbytes : slice d.cells payloadAt remaining.length = remaining)
    (herased : Erased d.cells (payloadAt + remaining.length) (payloadAt + room)) :
    verifyChunks g payloadAt remaining d.quiet = (.ok (), d.quiet) := by
  have hread : g.readSize ≤ headerLen :=
    Nat.le_of_dvd (by decide) (Nat.dvd_of_mod_eq_zero hs.header_read)
  have hchunk : ioChunkLen % g.readSize = 0 := by
    apply Nat.mod_eq_zero_of_dvd
    exact (Nat.dvd_of_mod_eq_zero hs.header_read).trans ⟨8, rfl⟩
  induction hn : remaining.length using Nat.strong_induction_on generalizing remaining payloadAt
    room with
  | _ n ih =>
    by_cases hempty : remaining = []
    · rw [verifyChunks, dif_pos hempty]
      rfl
    obtain ⟨chunk, hchunkEq⟩ : ∃ chunk, remaining.take ioChunkLen = chunk := ⟨_, rfl⟩
    have htake : chunk.length = min ioChunkLen remaining.length := by
      rw [← hchunkEq, List.length_take]
    obtain ⟨readLen, hlen⟩ : ∃ readLen, alignUp chunk.length g.readSize = some readLen :=
      exists_alignUp hs.read_pos (by unfold usizeMax headerLen ioChunkLen at *; omega)
    obtain ⟨hle, hreadMod, hleast⟩ := alignUp_spec hs.read_pos hlen
    have hmax : readLen ≤ ioChunkLen := hleast _ (by omega) hchunk
    have hfit : readLen ≤ room := hleast _ (by omega) hmod
    have hok : check g g.readSize payloadAt readLen = none := by
      rw [check, if_neg (by omega), if_neg (by omega)]
    have hback : Erased d.cells (payloadAt + chunk.length) (payloadAt + readLen) := by
      intro x hx hlt
      exact herased x (by omega) (by omega)
    -- the chunk reads back as its bytes and erased cells
    have hfront : (slice d.cells payloadAt readLen).take chunk.length = chunk := by
      rw [take_slice hle, ← take_slice (show _ ≤ remaining.length by omega), hbytes, htake,
        ← List.take_eq_take_min, hchunkEq]
    have hpadding : ((slice d.cells payloadAt readLen).drop chunk.length).any (· != 0xFF) =
        false := by
      have hall := slice_all_iff.mpr (hback.mono (Nat.le_of_eq
        (Nat.add_sub_of_le (Nat.add_le_add_left hle payloadAt))))
      rw [Nat.add_sub_add_left] at hall
      rw [drop_slice hle, List.any_eq_not_all_not]
      simp only [bne, Bool.not_not, hall, Bool.not_true]
    rw [verifyChunks, dif_neg hempty]
    simp only [hchunkEq, hlen]
    rw [Act.bind_ok (Act.mapError_ok (read_quiet hok d)), hpadding,
      if_neg (not_or.mpr ⟨not_not_intro hfront, Bool.false_ne_true⟩)]
    by_cases hlast : remaining.length ≤ ioChunkLen
    · rw [List.drop_of_length_le hlast, verifyChunks, dif_pos rfl]
      rfl
    have hfull : readLen = ioChunkLen := by omega
    have hrest : slice d.cells (payloadAt + ioChunkLen) (remaining.length - ioChunkLen) =
        remaining.drop ioChunkLen := by
      rw [← drop_slice (by omega), hbytes]
    rw [hfull]
    apply ih (remaining.length - ioChunkLen) (by unfold ioChunkLen; omega)
      (remaining.drop ioChunkLen) (payloadAt + ioChunkLen) (room - ioChunkLen) <;>
      try simp only [List.length_drop]
    · simp [Nat.add_mod, hpos, hchunk]
    · omega
    · apply Nat.mod_eq_zero_of_dvd
      exact Nat.dvd_sub (Nat.dvd_of_mod_eq_zero hmod) (Nat.dvd_of_mod_eq_zero hchunk)
    · omega
    · exact hrest
    · exact herased.mono

theorem confirmRecordHeader_complete (h : Complete cells pos r) :
    confirmRecordHeader (slice cells pos headerLen) r.epoch r.kind r.payload = .ok .committed := by
  have hword : (slice cells pos headerLen).drop commitOffset = leBytes 4 commitWord := by
    rw [h.header]
    rfl
  have hchecksum : recordChecksum ((slice cells pos headerLen).take checksumPrefixLen)
      r.payload = checksumOf r.epoch r.kind r.payload := by
    rw [h.header]
    rfl
  have hmatch : headerMatchesRecord (slice cells pos headerLen) r.epoch r.kind
      r.payload.length (checksumOf r.epoch r.kind r.payload) true = true :=
    decide_eq_true h.header
  rw [confirmRecordHeader, if_neg (not_not_intro hword)]
  simp only
  rw [hchecksum, hmatch]
  rfl

theorem confirmRecordHeader_open (epoch : UInt64) (kind : RecordKind) (payload : List UInt8)
    (h : cells (pos + 31) = 0xFF) :
    confirmRecordHeader (slice cells pos headerLen) epoch kind payload = .ok .notCommitted := by
  have hword : (slice cells pos headerLen).drop commitOffset ≠ leBytes 4 commitWord := by
    intro hword
    have hlast : ((slice cells pos headerLen).drop commitOffset)[3]? = some 0xFF := by
      rw [List.getElem?_drop, getElem?_slice (by decide)]
      exact congrArg some h
    rw [hword] at hlast
    exact absurd hlast (by decide)
  rw [confirmRecordHeader, if_pos hword]

variable {entries : List Entry}

theorem confirmRecord_landed (hs : Sound g layout scratchLen) {next : Nat}
    (h : Landed g layout scratchLen side d.cells entries pos r next) :
    confirmRecord g pos r.epoch r.kind r.payload d.quiet = (.ok .committed, d.quiet) := by
  have hpos := h.log.aligned hs (hs.aligned side)
  obtain ⟨hroom, -, -, hstop⟩ := step_record h.record
  have hcap := hs.capacity side
  have hheader := hs.header_read
  obtain ⟨wide, hwide, hnext, -⟩ := recordEnd_eq_some h.bounds
  obtain ⟨hle, hmod, -⟩ := alignUp_spec hs.io_pos hwide
  have hwideMod : wide % g.readSize = 0 :=
    Nat.mod_eq_zero_of_dvd (hs.read_dvd_io.trans (Nat.dvd_of_mod_eq_zero hmod))
  have hpayloadAt : (pos + headerLen) % g.readSize = 0 := by
    rw [Nat.add_mod, hpos, hheader]
    exact Nat.zero_mod _
  have hverify : verifyRecordPayload g pos r.payload d.quiet = (.ok (), d.quiet) :=
    verifyChunks_quiet hs r.payload (pos + headerLen) wide hpayloadAt hle hwideMod (by omega)
      h.complete.payload h.padding.mono
  rw [confirmRecord, Act.bind_ok (Act.mapError_ok (read_quiet (hs.check_header hpos hroom) d)),
    confirmRecordHeader_complete h.complete]
  simp only
  rw [Act.bind_ok hverify]
  rfl

theorem confirmRecord_open (epoch : UInt64) (kind : RecordKind) (payload : List UInt8)
    (hok : check g g.readSize pos headerLen = none) (h : d.cells (pos + 31) = 0xFF) :
    confirmRecord g pos epoch kind payload d.quiet = (.ok .notCommitted, d.quiet) := by
  rw [confirmRecord, Act.bind_ok (Act.mapError_ok (read_quiet hok d)),
    confirmRecordHeader_open epoch kind payload h]
  rfl

/-- A fresh `open` of a journal whose arena in use ends without a warning. -/
theorem reopen_kept (hs : Sound g layout scratchLen) {epoch : UInt64}
    (hparsed : Parsed g (layout.arenas side) scratchLen d.cells entries pos false)
    (hepoch : (tally none entries).committedEpoch = some epoch)
    (hwarning : (tally none entries).warning = none)
    (hidle : Idle g layout scratchLen d.cells side.other (Yields (some (side, epoch)))) :
    ∃ o, openFlash g layout scratchLen d.quiet = (.ok o, d.quiet) ∧
      o.active = some ⟨side, epoch, pos⟩ ∧
      o.replayed = (tally (some epoch) entries).replayed := by
  obtain ⟨entries', pos', corrupt', hall, ⟨hentries, hpos, hcorrupt⟩, hyields⟩ :=
    exists_parses (A := fun entries' pos' corrupt' =>
      entries' = entries ∧ pos' = pos ∧ corrupt' = false) side
      ⟨_, _, _, hparsed, rfl, rfl, rfl⟩ hidle
  have hstate : stateOf (entries' side) (pos' side) (corrupt' side) = ⟨some epoch, pos, none⟩ := by
    rw [hentries, hpos, hcorrupt, stateOf_clean, hepoch, hwarning]
  have hselected : selectedOf entries' pos' corrupt' = some side :=
    selectedOf_eq_some.mpr ⟨epoch, by rw [hstate], hyields⟩
  obtain ⟨hactive, hreplayed⟩ := openedOf_some layout hselected (by rw [hstate])
  refine ⟨_, openFlash_quiet hs hall, ?_, ?_⟩
  · rw [hactive, hstate]
    simp only
    rw [if_pos trivial, hpos]
  · rw [hreplayed, hentries, hcorrupt]
    exact restored_clean hepoch hwarning _

end

/-! ## Appends -/

variable {outcome : Outcome JournalError Unit} {j' : FlashJournal} {j : FlashJournal} {l : Ledger}
  {cursor : ArenaCursor} {kind : RecordKind} {payload : List UInt8}

/-- What a fresh `open` reports when the record of an append landed, and when it did
not. -/
def AppendResolved (g : Geometry) (layout : FlashJournalLayout) (l : Ledger)
    (cursor : ArenaCursor) (r : Record) (o : Opened) : CommitResolution → Prop
  | .committed => o.replayed = l.acked ++ [r] ∧
      ∃ next, recordEnd g cursor.appendAt r.payload.length = some next ∧
        o.active = some { cursor with appendAt := next }
  | .notCommitted => o.replayed = l.acked ∧
      (o.active = some cursor ∨
        o.active = some { cursor with appendAt := (layout.arenas cursor.index).stop })

theorem append_resolved (hs : Sound g layout scratchLen) (h : JournalInv g layout scratchLen j l)
    (hfits : Fits g scratchLen payload) (hactive : j.active = some cursor)
    (hkind : kind ≠ .arenaCommit) (hcompaction : j.compaction = none)
    (haccepts : accepts g (layout.arenas cursor.index) cursor payload.length = true)
    (hrun : j.append g layout kind payload = (outcome, j')) :
    j'.compaction = none ∧
    ∃ o resolution, openFlash g layout scratchLen j'.flash.quiet = (.ok o, j'.flash.quiet) ∧
      confirmRecord g cursor.appendAt cursor.epoch kind payload j'.flash.quiet =
        (.ok resolution, j'.flash.quiet) ∧
      AppendResolved g layout l cursor ⟨cursor.epoch, kind, payload⟩ o resolution ∧
      (returned outcome = true ∧ resolution = .committed ∧ j'.active = o.active ∨
        returned outcome = false ∧ j'.active =
          some { cursor with appendAt := (layout.arenas cursor.index).stop }) := by
  obtain ⟨hledger, entries, htail, hepoch, hwarning, hreplay, -, hidle⟩ := h.tail hactive haccepts
  rw [hledger, Ledger.target, hledger] at hidle
  have hlanded := tally_append (r := ⟨cursor.epoch, kind, payload⟩) hkind entries
  rw [hepoch, hwarning, hreplay] at hlanded
  have hok := htail.check_header hs haccepts
  have hwrite := (ensures_writeCursorRecord_tail hs (w := ⟨j.flash, cursor⟩)
    (r := ⟨cursor.epoch, kind, payload⟩) htail rfl haccepts hfits
    (fun hcommit => absurd hcommit hkind)).cases
  rw [append_eq hactive hkind hcompaction] at hrun
  generalize writeCursorRecord g (layout.arenas cursor.index) kind payload
    ⟨j.flash, cursor⟩ = result at hwrite hrun
  obtain ⟨houtcome, hj⟩ := Prod.mk.inj hrun
  subst houtcome hj
  -- The record landed, or it is still as it was or torn.
  have hyes {next : Nat} (hland : Landed g layout scratchLen cursor.index result.2.flash.cells
      entries cursor.appendAt ⟨cursor.epoch, kind, payload⟩ next)
      (hother : OtherSame layout cursor.index j.flash.cells result.2.flash.cells) :
      ∃ o, openFlash g layout scratchLen result.2.flash.quiet = (.ok o, result.2.flash.quiet) ∧
        confirmRecord g cursor.appendAt cursor.epoch kind payload result.2.flash.quiet =
          (.ok .committed, result.2.flash.quiet) ∧
        o.active = some { cursor with appendAt := next } ∧
        AppendResolved g layout l cursor ⟨cursor.epoch, kind, payload⟩ o .committed := by
    obtain ⟨o, hopen, hoactive, hreplayed⟩ := reopen_kept hs (hland.tail hs).parsed hlanded.1
      hlanded.2.1 (hidle.congr hs hother)
    have hconfirm := confirmRecord_landed hs hland
    exact ⟨o, hopen, hconfirm, hoactive, hreplayed.trans hlanded.2.2, next, hland.bounds, hoactive⟩
  have hno {pos : Nat} (hparsed : Parsed g (layout.arenas cursor.index) scratchLen
      result.2.flash.cells entries pos false)
      (hother : OtherSame layout cursor.index j.flash.cells result.2.flash.cells) :
      ∃ o, openFlash g layout scratchLen result.2.flash.quiet = (.ok o, result.2.flash.quiet) ∧
        o.active = some { cursor with appendAt := pos } ∧ o.replayed = l.acked := by
    obtain ⟨o, hopen, hoactive, hreplayed⟩ := reopen_kept hs hparsed hepoch hwarning
      (hidle.congr hs hother)
    exact ⟨o, hopen, hoactive, hreplayed.trans hreplay⟩
  refine ⟨rfl, ?_⟩
  rcases hwrite with ⟨a, hok', next', hcursor, hland, hother, -⟩ |
    ⟨hnot, hcursor, hunfinished, hother, -⟩
  · obtain ⟨o, hopen, hconfirm, hoactive, hresolved⟩ := hyes hland hother
    refine ⟨o, .committed, hopen, hconfirm, hresolved, Or.inl ?_⟩
    rw [hok', hcursor]
    exact ⟨rfl, rfl, hoactive.symm⟩
  have hclosed : returned result.1 = false ∧ some result.2.cursor =
      some { cursor with appendAt := (layout.arenas cursor.index).stop } :=
    ⟨returned_eq_false hnot, congrArg some hcursor⟩
  rcases hunfinished with hsame | ⟨hopened, hparsed⟩ | ⟨next', hland⟩
  · obtain ⟨o, hopen, hoactive, hreplayed⟩ := hno (by rw [hsame]; exact htail.parsed) hother
    refine ⟨o, .notCommitted, hopen, confirmRecord_open _ _ _ hok ?_,
      ⟨hreplayed, Or.inl hoactive⟩, Or.inr hclosed⟩
    rw [hsame]
    exact htail.commit_erased haccepts
  · obtain ⟨o, hopen, hoactive, hreplayed⟩ := hno hparsed hother
    exact ⟨o, .notCommitted, hopen, confirmRecord_open _ _ _ hok hopened,
      ⟨hreplayed, Or.inr hoactive⟩, Or.inr hclosed⟩
  · obtain ⟨o, hopen, hconfirm, -, hresolved⟩ := hyes hland hother
    exact ⟨o, .committed, hopen, hconfirm, hresolved, Or.inr hclosed⟩

/-- What the header of a commit says and what a fresh `open` makes of it. -/
def CommitResolved (g : Geometry) (layout : FlashJournalLayout) (scratchLen : Nat) (l : Ledger)
    (cursor : ArenaCursor) (flash : Device) (o : Opened) (resolution : CommitResolution) : Prop :=
  openFlash g layout scratchLen flash.quiet = (.ok o, flash.quiet) ∧
    confirmRecordHeader (slice flash.cells cursor.appendAt headerLen) cursor.epoch
      .arenaCommit [] = .ok resolution ∧
    (resolution = .committed ∧ (∃ next, recordEnd g cursor.appendAt 0 = some next ∧
        o.active = some { cursor with appendAt := next }) ∨
      resolution = .notCommitted ∧ o.place = l.active)

theorem commit_resolved (hs : Sound g layout scratchLen) (h : JournalInv g layout scratchLen j l)
    (hcompaction : j.compaction = some cursor)
    (haccepts : accepts g (layout.arenas cursor.index) cursor 0 = true)
    (hrun : j.commitCompaction g layout = (outcome, j')) (hnot : returned outcome = false) :
    j'.active = FlashJournal.closeActive layout j.active ∧
    j'.compaction = some { cursor with appendAt := (layout.arenas cursor.index).stop } ∧
    ∃ o resolution, CommitResolved g layout scratchLen l cursor j'.flash o resolution := by
  obtain ⟨hindex, hepoch, -, -, hplain, htail⟩ := h.compaction_tail hcompaction haccepts
  obtain ⟨flash, hother, -, hcases⟩ := commitCompaction_cases hs h hcompaction haccepts
  rcases hcases with ⟨next, hrun', -⟩ | ⟨outcome', -, hrun', hunfinished⟩ <;>
    cases hrun'.symm.trans hrun
  · exact nomatch hnot
  refine ⟨rfl, by rw [hindex], ?_⟩
  have hkept := h.flash.kept.congr hs hother
  -- Without a complete commit record the arena in use is the one there was.
  have hno (hidle : Idle g layout scratchLen flash.cells l.target (Yields l.active))
      (hopen : flash.cells (cursor.appendAt + 31) = 0xFF) :
      ∃ o resolution, CommitResolved g layout scratchLen l cursor flash o resolution := by
    have hinv : FlashInv g layout scratchLen flash.cells { l with commitAt := none } :=
      ⟨hkept, Or.inl hidle⟩
    obtain ⟨o, hopened, hrecovered, -⟩ := hinv.reopens hs
    refine ⟨o, .notCommitted, hopened, confirmRecordHeader_open _ _ _ hopen, Or.inr ⟨rfl, ?_⟩⟩
    rcases hrecovered with hold | ⟨pos, hpos, -⟩
    · exact hold.1
    · exact nomatch hpos
  rcases hunfinished with hsame | ⟨hopen, hparsed⟩ | ⟨next, hland⟩
  · rw [hindex] at haccepts
    apply hno
    · rw [hsame]
      exact idle_of_plain hplain htail.parsed
    · rw [hsame]
      exact htail.commit_erased haccepts
  · exact hno (idle_of_plain hplain hparsed) hopen
  obtain ⟨hstate, hwarning⟩ := tally_committed_state hplain
  obtain ⟨o, hopened, hactive, -⟩ := reopen_kept hs (hland.tail hs).parsed hstate hwarning
    hkept.yields
  have hheader := confirmRecordHeader_complete hland.complete
  rw [← hindex, ← hepoch] at hactive
  refine ⟨o, .committed, hopened, ?_, Or.inl ⟨rfl, next, hland.bounds, hactive⟩⟩
  rw [hepoch]
  exact hheader

/-! ## The answers -/

/-- Confirming the append of a record at the cursor against a fresh `open`: it answers
on a quiet flash, and any answer is the one that `open` implies and moves nothing. -/
def AppendTruth (g : Geometry) (layout : FlashJournalLayout) (scratchLen : Nat) (l : Ledger)
    (cursor : ArenaCursor) (kind : RecordKind) (payload : List UInt8) (j' : FlashJournal)
    (o : Opened) : Prop :=
  openFlash g layout scratchLen j'.flash.quiet = (.ok o, j'.flash.quiet) ∧
  (∃ answer, (FlashJournal.confirmAppend g layout cursor.appendAt kind payload
    { j' with flash := j'.flash.quiet }).1 = .ok answer) ∧
  ∀ faults answer j'', FlashJournal.confirmAppend g layout cursor.appendAt kind payload
      { j' with flash := facing j'.flash faults } = (.ok answer, j'') →
    (answer = .committed ↔ o.replayed = l.acked ++ [⟨cursor.epoch, kind, payload⟩]) ∧
    (answer = .notCommitted ↔ o.replayed = l.acked) ∧ j''.active = j'.active

/-- Confirming a compaction commit at the cursor against a fresh `open`: it answers on
a quiet flash, and any answer is the one that `open` implies; a commit that is there
leaves the cursor of `open`, one that is not leaves the old arena closed. -/
def CommitTruth (g : Geometry) (layout : FlashJournalLayout) (scratchLen : Nat) (l : Ledger)
    (cursor : ArenaCursor) (active : Option ArenaCursor) (j' : FlashJournal) (o : Opened) :
    Prop :=
  openFlash g layout scratchLen j'.flash.quiet = (.ok o, j'.flash.quiet) ∧
  (∃ answer, (FlashJournal.confirmCompactionCommit g layout cursor.appendAt
    { j' with flash := j'.flash.quiet }).1 = .ok answer) ∧
  ∀ faults answer j'', FlashJournal.confirmCompactionCommit g layout cursor.appendAt
      { j' with flash := facing j'.flash faults } = (.ok answer, j'') →
    (answer = .committed ↔ o.place = some (cursor.index, cursor.epoch)) ∧
    (answer = .committed → j''.active = o.active) ∧
    (answer = .notCommitted → o.place = l.active ∧
      j''.active = FlashJournal.closeActive layout active)

theorem append_truth (hs : Sound g layout scratchLen) (h : JournalInv g layout scratchLen j l)
    (hactive : j.active = some cursor) (hcompaction : j.compaction = none)
    (hkind : kind ≠ .arenaCommit)
    (haccepts : accepts g (layout.arenas cursor.index) cursor payload.length = true)
    (hfits : Fits g scratchLen payload) (hrun : j.append g layout kind payload = (outcome, j')) :
    ∃ o, AppendTruth g layout scratchLen l cursor kind payload j' o ∧
      (returned outcome = true → j'.active = o.active) ∧
      (returned outcome = false → j'.active =
        some { cursor with appendAt := (layout.arenas cursor.index).stop }) := by
  obtain ⟨hcompaction', o, resolution, hopen, hconfirm, hresolved, hcursor⟩ :=
    append_resolved hs h hfits hactive hkind hcompaction haccepts hrun
  obtain ⟨-, entries, htail, -⟩ := h.tail hactive haccepts
  have hplace : ∃ appendAt, j'.active = some { cursor with appendAt } := by
    rcases hcursor with ⟨-, hcommitted, hmoved⟩ | ⟨-, hclosed⟩
    · rw [hcommitted] at hresolved
      obtain ⟨-, next', -, hoactive⟩ := hresolved
      exact ⟨next', hmoved.trans hoactive⟩
    · exact ⟨_, hclosed⟩
  obtain ⟨appendAt, hplace⟩ := hplace
  -- confirming an append that was accepted goes to the record
  have hbounds := htail.bounds hs haccepts
  have heq (flash : Device) : FlashJournal.confirmAppend g layout cursor.appendAt kind payload
      { j' with flash } =
        ((confirmRecord g cursor.appendAt cursor.epoch kind payload flash).1,
          { j' with
            flash := (confirmRecord g cursor.appendAt cursor.epoch kind payload flash).2 }) := by
    simp only [FlashJournal.confirmAppend, hcompaction', hplace, hbounds]
    rfl
  refine ⟨o, ⟨hopen, ⟨resolution, ?_⟩, ?_⟩, ?_, ?_⟩
  · rw [heq]
    exact congrArg Prod.fst hconfirm
  · intro faults answer j'' hanswer
    rw [heq] at hanswer
    obtain ⟨hanswer, hj⟩ := Prod.mk.inj hanswer
    have hquiet := (reads_confirmRecord g cursor.appendAt cursor.epoch kind payload).quiet
      _ answer hanswer
    cases (Prod.mk.inj (hquiet.symm.trans hconfirm)).1
    rw [← hj]
    cases resolution <;> simp [hresolved.1]
  · grind
  · grind

theorem commit_truth (hs : Sound g layout scratchLen) (h : JournalInv g layout scratchLen j l)
    (hcompaction : j.compaction = some cursor)
    (haccepts : accepts g (layout.arenas cursor.index) cursor 0 = true)
    (hrun : j.commitCompaction g layout = (outcome, j')) (hnot : returned outcome = false) :
    ∃ o, CommitTruth g layout scratchLen l cursor j.active j' o := by
  obtain ⟨hactive', hcompaction', o, resolution, hopen, hheader, hresolved⟩ :=
    commit_resolved hs h hcompaction haccepts hrun hnot
  obtain ⟨hindex, -, -, -, -, htail⟩ := h.compaction_tail hcompaction haccepts
  rw [← hindex] at htail
  have hok := htail.check_header hs haccepts
  have hbounds := htail.bounds hs haccepts
  obtain ⟨next, hend, -⟩ := accepts_iff.mp haccepts
  -- The new arena is the other one, so it is not the arena there was.
  have hother : l.active ≠ some (cursor.index, cursor.epoch) := by
    rw [hindex, Ledger.target]
    cases l.active with
    | none => simp
    | some active =>
      obtain ⟨side, epoch⟩ := active
      cases side <;> simp [Side.other]
  refine ⟨o, hopen, ⟨resolution, ?_⟩, ?_⟩
  · simp only [FlashJournal.confirmCompactionCommit, hcompaction', hbounds,
      Act.mapError_ok (read_quiet hok j'.flash), hheader]
    cases resolution with
    | notCommitted => rfl
    | committed => simp only [hend]
  · intro faults answer j'' hanswer
    -- the answer is what the header says, and a commit moves the cursor behind its record
    obtain ⟨rfl, hyes, hno⟩ : answer = resolution ∧
        (resolution = .committed → j''.active = some { cursor with appendAt := next }) ∧
        (resolution = .notCommitted → j''.active = j'.active) := by
      obtain ⟨flash, -, -, hcases⟩ := confirmCompactionCommit_cases (g := g)
        (j := { j' with flash := facing j'.flash faults }) layout hcompaction' cursor.appendAt
      rcases hcases with ⟨outcome, hrun', hnot⟩ | ⟨hheader', hrun'⟩ |
        ⟨next', hend', hheader', hrun'⟩ <;> cases hrun'.symm.trans hanswer
      · exact absurd rfl (hnot answer)
      · cases hheader'.symm.trans hheader
        exact ⟨rfl, by simp, fun _ => rfl⟩
      · cases hheader'.symm.trans hheader
        cases hend.symm.trans hend'
        exact ⟨rfl, fun _ => rfl, by simp⟩
    rcases hresolved with ⟨rfl, next', hend', hoactive⟩ | ⟨rfl, hplace⟩
    · cases hend.symm.trans hend'
      rw [Opened.place, hoactive]
      exact ⟨⟨fun _ => rfl, fun _ => rfl⟩, fun _ => hyes rfl, by simp⟩
    · rw [hplace]
      exact ⟨⟨by simp, fun heq => absurd heq hother⟩, by simp,
        fun _ => ⟨rfl, (hno rfl).trans hactive'⟩⟩

/-- Unconfirmed commits are resolved truthfully. After an append or a compaction
commit that ran into anything, confirming says committed exactly if a fresh `open`
would replay the record, respectively select the new arena. A confirmed compaction
commit leaves the cursor that `open` would compute; confirming an append leaves the
cursor as it is, which is at the end of the arena unless the append returned. -/
theorem confirm_truthful (hvalid : validate g layout scratchLen = none)
    (hread : g.eraseSize % g.readSize = 0) (j : FlashJournal) (l : Ledger)
    (h : Reachable g layout scratchLen ⟨.on j, l⟩) :
    (∀ (cursor : ArenaCursor) (kind : RecordKind) (payload : List UInt8) (faults : List Fault)
      (outcome : Outcome JournalError Unit) (j' : FlashJournal),
      j.active = some cursor → j.compaction = none → kind ≠ .arenaCommit →
      accepts g (layout.arenas cursor.index) cursor payload.length = true →
      Fits g scratchLen payload →
      FlashJournal.append g layout kind payload { j with flash := facing j.flash faults } =
        (outcome, j') →
      ∃ o, AppendTruth g layout scratchLen l cursor kind payload j' o ∧
        (returned outcome = true → j'.active = o.active) ∧
        (returned outcome = false → j'.active =
          some { cursor with appendAt := (layout.arenas cursor.index).stop })) ∧
    ∀ (cursor : ArenaCursor) (faults : List Fault) (outcome : Outcome JournalError Unit)
      (j' : FlashJournal),
      j.compaction = some cursor → accepts g (layout.arenas cursor.index) cursor 0 = true →
      FlashJournal.commitCompaction g layout { j with flash := facing j.flash faults } =
        (outcome, j') → returned outcome = false →
      ∃ o, CommitTruth g layout scratchLen l cursor j.active j' o := by
  have hs := sound_of_validate hvalid hread
  have hinv : JournalInv g layout scratchLen j l := h.inv hs
  have hfacing (faults : List Fault) : JournalInv g layout scratchLen
      { j with flash := facing j.flash faults } l := hinv.same_cells rfl rfl
  constructor
  · intro cursor kind payload faults outcome j' hactive hcompaction hkind haccepts hfits hrun
    exact append_truth hs (hfacing faults) hactive hcompaction hkind haccepts hfits hrun
  · intro cursor faults outcome j' hcompaction haccepts hrun hnot
    have htruth := commit_truth hs (hfacing faults) hcompaction haccepts hrun hnot
    exact htruth

/-- The commit word reaches the flash, but its write reports an error and the header
cannot be read back. -/
def appendFaults : List Fault := [.none, .none, .none, .none, .fail 4, .fail 0]

def unconfirmedAppend : Outcome JournalError Unit × FlashJournal :=
  FlashJournal.append sampleGeometry sampleLayout .nodeName [7]
    { freshJournal.1 with flash := facing freshJournal.1.flash appendFaults }

/-- The record is confirmed, but the cursor stays at the end of the arena, where a
fresh `open` would append behind the record. -/
theorem confirmAppend_keeps_closed : unconfirmedAppend.1 = .error (.commitUnconfirmed 288 .other) ∧
    (FlashJournal.confirmAppend sampleGeometry sampleLayout 288 .nodeName [7]
      { unconfirmedAppend.2 with flash := unconfirmedAppend.2.flash.quiet }).1 =
        .ok .committed ∧
    (FlashJournal.confirmAppend sampleGeometry sampleLayout 288 .nodeName [7]
      { unconfirmedAppend.2 with flash := unconfirmedAppend.2.flash.quiet }).2.active =
        some ⟨.first, 0, 384⟩ ∧
    (openFlash sampleGeometry sampleLayout 8 unconfirmedAppend.2.flash.quiet).1 =
      .ok ⟨some ⟨.first, 0, 324⟩, ⟨some 0, 1, none⟩, [⟨0, .nodeName, [7]⟩]⟩ := by
  decide +kernel

/-- A journal with one record compacted and not committed. -/
def compactedJournal : FlashJournal × Ledger :=
  performAll sampleGeometry sampleLayout freshJournal
    [(.eraseInactiveSector 0, []), (.beginCompaction, []), (.appendCompacted .nodeName [8], [])]

/-- Half of the commit word reaches the flash. -/
def commitFaults : List Fault := [.none, .none, .fail 2, .fail 0]

def unconfirmedCommit : Outcome JournalError Unit × FlashJournal :=
  FlashJournal.commitCompaction sampleGeometry sampleLayout
    { compactedJournal.1 with flash := facing compactedJournal.1.flash commitFaults }

theorem confirm_truthful_unconfirmed :
    (∃ o, AppendTruth sampleGeometry sampleLayout 8 freshJournal.2 ⟨.first, 0, 288⟩ .nodeName [7]
        unconfirmedAppend.2 o ∧
      (returned unconfirmedAppend.1 = true → unconfirmedAppend.2.active = o.active) ∧
      (returned unconfirmedAppend.1 = false → unconfirmedAppend.2.active = some ⟨.first, 0, 384⟩)) ∧
    ∃ o, CommitTruth sampleGeometry sampleLayout 8 compactedJournal.2 ⟨.second, 1, 420⟩
      compactedJournal.1.active unconfirmedCommit.2 o :=
  ⟨(confirm_truthful (by decide) (by decide) _ _ reachable_fresh).1
      ⟨.first, 0, 288⟩ .nodeName [7] appendFaults _ _ fresh_evaluates.2.1.1 fresh_evaluates.2.1.2
      (by decide) (by decide) (by decide) rfl,
    (confirm_truthful (by decide) (by decide) _ _
      (reachable_fresh.performAll (by decide +kernel))).2
      ⟨.second, 1, 420⟩ commitFaults _ _ (by decide +kernel) (by decide) rfl
      (by decide +kernel)⟩

end Prns.Ports.Journal
