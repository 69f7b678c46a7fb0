import Prns.Ports.FlashJournalWorld

/-!
# The invariant of the journal

One arena is kept: it parses to the records of the ledger, and if it can be
appended to, its tail is erased. The other is the target of compactions: it parses
to nothing that `open` would prefer, unless the commit record of an unfinished
compaction is complete, and then it holds exactly what was compacted.
-/

namespace Prns.Ports.Journal

open Verified
open Verified.NorFlash

/-- Records that a compaction writes before it commits. -/
def Plain (epoch : UInt64) (records : List Record) : Prop :=
  ∀ r ∈ records, r.epoch = epoch ∧ r.kind ≠ .arenaCommit

theorem plain_nil (epoch : UInt64) : Plain epoch [] := nofun

variable {epoch : UInt64} {records : List Record}

theorem Plain.snoc (h : Plain epoch records) {r : Record} (hepoch : r.epoch = epoch)
    (hkind : r.kind ≠ .arenaCommit) : Plain epoch (records ++ [r]) := by
  intro x hx
  rcases List.mem_append.mp hx with hold | hnew
  · exact h x hold
  · rw [List.mem_singleton.mp hnew]
    exact ⟨hepoch, hkind⟩

theorem tally_plain (h : Plain epoch records) :
    tally (some epoch) (records.map .known) = ⟨none, none, records⟩ := by
  induction records using List.reverseRecOn with
  | nil => rfl
  | append_singleton records r ih =>
    have hlast := h r (List.mem_append_right records (List.mem_singleton_self r))
    have hplain : Plain epoch records := fun x hx => h x (List.mem_append_left [r] hx)
    rw [List.map_append, List.map_singleton, tally_snoc, ih hplain,
      Scan.push_replay hlast.2 (by rw [hlast.1])]

theorem stateOf_clean (entries : List Entry) (pos : Nat) : stateOf entries pos false =
      ⟨(tally none entries).committedEpoch, pos, (tally none entries).warning⟩ := rfl

/-! ## An arena that can be appended to -/

variable {side : Side} {entries : List Entry} {pos next : Nat} {r : Record}

section

variable {g : Geometry} {layout : FlashJournalLayout} {scratchLen : Nat} {cells cells' : Image}

/-- A log up to `pos` and an erased tail behind it. -/
structure Tail (g : Geometry) (layout : FlashJournalLayout) (scratchLen : Nat) (side : Side)
    (cells : Image) (entries : List Entry) (pos : Nat) : Prop where
  log : Log g (layout.arenas side) scratchLen cells (layout.arenas side).start entries pos
  erased : Erased cells pos (layout.arenas side).stop

theorem Tail.parsed (h : Tail g layout scratchLen side cells entries pos) :
    Parsed g (layout.arenas side) scratchLen cells entries pos false :=
  ⟨pos, h.log, step_erased h.erased⟩

variable (hs : Sound g layout scratchLen)

include hs

theorem Tail.congr (h : Tail g layout scratchLen side cells entries pos)
    (hcells : ∀ x, (layout.arenas side).start ≤ x → x < (layout.arenas side).stop →
      cells' x = cells x) : Tail g layout scratchLen side cells' entries pos := by
  have hle := h.log.le
  have hstop := h.log.stop_le (Nat.le_of_lt (hs.nonempty side))
  refine ⟨h.log.congr hs.io_pos ?_, ?_⟩
  · intro x hx hlt
    exact hcells x hx (by omega)
  · intro x hx hlt
    rw [hcells x (by omega) hlt]
    exact h.erased x hx hlt

theorem Tail.log_of_sameOutside (h : Tail g layout scratchLen side cells entries pos)
    (hout : SameOutside cells cells' pos next) :
    Log g (layout.arenas side) scratchLen cells' (layout.arenas side).start entries pos :=
  h.log.congr hs.io_pos (fun x _ hlt => hout x (Or.inl hlt))

omit hs in
/-- The record `r` at `pos` is in the log, and behind its last byte all is erased. -/
structure Landed (g : Geometry) (layout : FlashJournalLayout) (scratchLen : Nat) (side : Side)
    (cells : Image) (entries : List Entry) (pos : Nat) (r : Record) (next : Nat) : Prop where
  log : Log g (layout.arenas side) scratchLen cells (layout.arenas side).start entries pos
  bounds : recordEnd g pos r.payload.length = some next
  complete : Complete cells pos r
  record : step g (layout.arenas side) scratchLen cells pos = .record (.known r) next
  padding : Erased cells (pos + headerLen + r.payload.length) (layout.arenas side).stop

theorem Landed.tail (h : Landed g layout scratchLen side cells entries pos r next) :
    Tail g layout scratchLen side cells (entries ++ [.known r]) next :=
  ⟨h.log.append (.cons h.record (.nil next)),
    h.padding.mono Nat.le.refl (payload_le_recordEnd hs.io_pos h.bounds)⟩

theorem Landed.congr (h : Landed g layout scratchLen side cells entries pos r next)
    (hcells : ∀ x, (layout.arenas side).start ≤ x → x < (layout.arenas side).stop →
      cells' x = cells x) : Landed g layout scratchLen side cells' entries pos r next := by
  have hle := h.log.le
  have hrecord := step_record h.record
  have hroom := payload_le_recordEnd hs.io_pos h.bounds
  refine ⟨h.log.congr hs.io_pos ?_, h.bounds, h.complete.congr ?_, ?_, ?_⟩
  · intro x hx hlt
    exact hcells x hx (by omega)
  · intro x hx hlt
    exact hcells x (by omega) (by omega)
  · rw [← h.record]
    apply step_congr hs.io_pos
    intro x hx hlt
    exact hcells x (by omega) hlt
  · intro x hx hlt
    rw [hcells x (by omega) hlt]
    exact h.padding x hx hlt

theorem Tail.extend (h : Tail g layout scratchLen side cells entries pos)
    (hend : recordEnd g pos r.payload.length = some next) (hstop : next ≤ (layout.arenas side).stop)
    (hfits : Fits g scratchLen r.payload) (hkind : r.kind = .arenaCommit → r.payload = [])
    (hcomplete : Complete cells' pos r)
    (hout : SameOutside cells cells' pos (pos + headerLen + r.payload.length)) :
    Landed g layout scratchLen side cells' entries pos r next := by
  have hlen : r.payload.length ≤ u32Max := by
    obtain ⟨padded, hpadded, -, hmax⟩ := recordEnd_eq_some hend
    have := (alignUp_spec hs.io_pos hpadded).1
    omega
  refine ⟨h.log_of_sameOutside hs hout, hend, hcomplete,
    step_complete hs hcomplete hend hstop hfits hlen hkind, ?_⟩
  exact (h.erased.mono).of_sameOutside hout (Or.inr Nat.le.refl)

theorem Tail.torn (h : Tail g layout scratchLen side cells entries pos)
    (hend : recordEnd g pos r.payload.length = some next) (hstop : next ≤ (layout.arenas side).stop)
    (htorn : Torn cells' pos)
    (hout : SameOutside cells cells' pos (pos + headerLen + r.payload.length)) :
    Parsed g (layout.arenas side) scratchLen cells' entries (layout.arenas side).stop false := by
  have hnext := lt_recordEnd hend
  refine ⟨pos, h.log_of_sameOutside hs hout, step_torn (by omega) ?_ htorn.2⟩
  rw [htorn.1]
  decide

theorem Sound.apart {start stop : Nat} (hstart : (layout.arenas side).start ≤ start)
    (hstop : stop ≤ (layout.arenas side).stop) (hout : SameOutside cells cells' start stop)
    (x : Nat) (hx : (layout.arenas side.other).start ≤ x)
    (hlt : x < (layout.arenas side.other).stop) : cells' x = cells x := by
  have hdisjoint := hs.disjoint side
  exact hout x (by omega)

/-! A tail with room for a record. -/

section

variable {cursor : ArenaCursor} {len : Nat}
  (h : Tail g layout scratchLen side cells entries cursor.appendAt)
  (haccepts : accepts g (layout.arenas side) cursor len = true)
include h haccepts

omit hs in
theorem Tail.commit_erased : cells (cursor.appendAt + 31) = 0xFF := by
  obtain ⟨next, hend, -, hstop⟩ := accepts_iff.mp haccepts
  have hroom := lt_recordEnd hend
  unfold headerLen at hroom
  exact h.erased _ (by omega) (by omega)

theorem Tail.check_header : check g g.readSize cursor.appendAt headerLen = none := by
  obtain ⟨next, hend, -, hstop⟩ := accepts_iff.mp haccepts
  exact hs.check_header (h.log.aligned hs (hs.aligned side))
    (Nat.le_trans (lt_recordEnd hend) hstop)

theorem Tail.bounds : checkRecordBounds g (layout.arenas side) cursor.appendAt len = none := by
  obtain ⟨next, hend, hstart, hstop⟩ := accepts_iff.mp haccepts
  have hpos := h.log.aligned hs (hs.aligned side)
  simp only [checkRecordBounds, hend]
  rw [if_neg (by omega)]

end

end

section

variable {g : Geometry} {layout : FlashJournalLayout} {scratchLen : Nat}

/-- What is in the arena when the write of `r` did not return: nothing new, a torn
record that closes it, or the record. -/
def Unfinished (g : Geometry) (layout : FlashJournalLayout) (scratchLen : Nat) (side : Side)
    (cells cells' : Image) (entries : List Entry) (pos : Nat) (r : Record) : Prop :=
  cells' = cells ∨
    (cells' (pos + 31) = 0xFF ∧
      Parsed g (layout.arenas side) scratchLen cells' entries (layout.arenas side).stop false) ∨
    ∃ next, Landed g layout scratchLen side cells' entries pos r next

def OtherSame (layout : FlashJournalLayout) (side : Side) (cells cells' : Image) : Prop :=
  ∀ x, (layout.arenas side.other).start ≤ x → x < (layout.arenas side.other).stop →
    cells' x = cells x

theorem ensures_writeRecord_tail (hs : Sound g layout scratchLen) {d : Device}
    (h : Tail g layout scratchLen side d.cells entries pos)
    (hend : recordEnd g pos r.payload.length = some next) (hstop : next ≤ (layout.arenas side).stop)
    (hfits : Fits g scratchLen r.payload) (hkind : r.kind = .arenaCommit → r.payload = []) :
    Act.Ensures (writeRecord g (layout.arenas side) pos r.epoch r.kind r.payload) d
      (fun appendAt d' => appendAt = next ∧
        Landed g layout scratchLen side d'.cells entries pos r next ∧
        OtherSame layout side d.cells d'.cells ∧ d'.clean = d.clean)
      (fun d' => Unfinished g layout scratchLen side d.cells d'.cells entries pos r ∧
        OtherSame layout side d.cells d'.cells ∧ d'.clean = d.clean) := by
  have hle := h.log.le
  have hroom := Nat.le_trans (payload_le_recordEnd hs.io_pos hend) hstop
  refine (ensures_writeRecord _ hs hend (h.erased.mono hstop)).mono ?_ ?_
  · rintro appendAt d' ⟨happend, hcomplete, hout, hclean⟩
    exact ⟨happend, h.extend hs hend hstop hfits hkind hcomplete hout,
      hs.apart hle hroom hout, hclean⟩
  rintro d' ⟨hleft, hout, hclean⟩
  refine ⟨?_, hs.apart hle hroom hout, hclean⟩
  rcases hleft with hsame | htorn | hcomplete
  · exact Or.inl hsame
  · exact Or.inr (Or.inl ⟨htorn.2, h.torn hs hend hstop htorn hout⟩)
  · exact Or.inr (Or.inr ⟨next, h.extend hs hend hstop hfits hkind hcomplete hout⟩)

theorem ensures_writeCursorRecord_tail (hs : Sound g layout scratchLen) {w : CursorOnFlash}
    (h : Tail g layout scratchLen side w.flash.cells entries w.cursor.appendAt)
    (hepoch : w.cursor.epoch = r.epoch)
    (haccepts : accepts g (layout.arenas side) w.cursor r.payload.length = true)
    (hfits : Fits g scratchLen r.payload) (hkind : r.kind = .arenaCommit → r.payload = []) :
    Act.Ensures (writeCursorRecord g (layout.arenas side) r.kind r.payload) w
      (fun _ w' => ∃ next, w'.cursor = { w.cursor with appendAt := next } ∧
        Landed g layout scratchLen side w'.flash.cells entries w.cursor.appendAt r next ∧
        OtherSame layout side w.flash.cells w'.flash.cells ∧ w'.flash.clean = w.flash.clean)
      (fun w' => w'.cursor = { w.cursor with appendAt := (layout.arenas side).stop } ∧
        Unfinished g layout scratchLen side w.flash.cells w'.flash.cells entries
          w.cursor.appendAt r ∧
        OtherSame layout side w.flash.cells w'.flash.cells ∧
        w'.flash.clean = w.flash.clean) := by
  obtain ⟨next, hend, hstart, hstop⟩ := accepts_iff.mp haccepts
  have hwrite := ensures_writeRecord_tail hs h hend hstop hfits hkind
  unfold Act.Ensures at hwrite
  rw [Act.Ensures, writeCursorRecord]
  rw [hend]
  simp only
  rw [if_neg (by omega), hepoch]
  generalize writeRecord g (layout.arenas side) w.cursor.appendAt r.epoch r.kind r.payload
    w.flash = result at hwrite ⊢
  obtain ⟨outcome, flash⟩ := result
  cases outcome with
  | ok appendAt =>
    obtain ⟨rfl, hrest⟩ := hwrite
    exact ⟨appendAt, rfl, hrest⟩
  | error e => exact ⟨rfl, hwrite⟩
  | stopped powered => exact ⟨rfl, hwrite⟩

end

/-! ## The two arenas -/

section

variable (g : Geometry) (layout : FlashJournalLayout) (scratchLen : Nat)

/-- `open` prefers `side` at `epoch` to an arena at `other`. -/
def Outranks (side : Side) (epoch : UInt64) : Option UInt64 → Prop
  | none => True
  | some other =>
      match side with
      | .first => epochIsNewer other epoch = false
      | .second => epochIsNewer epoch other = true

/-- The target of compactions does not compete with the arena in use. -/
def Yields (active : Option (Side × UInt64)) (epoch : Option UInt64) : Prop :=
  match active with
  | none => epoch = none
  | some (side, current) => Outranks side current epoch

/-- The kept arena holds the records of the ledger. -/
def Keeps (cells : Image) (side : Side) (epoch : UInt64) (acked : List Record)
    (inFlight : Option Record) : Prop :=
  ∃ entries pos corrupt,
    Parsed g (layout.arenas side) scratchLen cells entries pos corrupt ∧
    (stateOf entries pos corrupt).epoch = some epoch ∧
    ((stateOf entries pos corrupt).warning = none →
      Erased cells pos (layout.arenas side).stop) ∧
    (restored entries pos corrupt = acked ∨
      ∃ r, inFlight = some r ∧ restored entries pos corrupt = acked ++ [r])

/-- The arena parses, and its epoch is as `P` says. -/
def Idle (cells : Image) (side : Side) (P : Option UInt64 → Prop) : Prop :=
  ∃ entries pos corrupt,
    Parsed g (layout.arenas side) scratchLen cells entries pos corrupt ∧
    P (stateOf entries pos corrupt).epoch

/-- The commit record of a compaction. -/
def commitRecordOf (epoch : UInt64) : Record := ⟨epoch, .arenaCommit, []⟩

/-- The arena holds a whole compaction: its records and the commit record at
`pos`. -/
def Committed (cells : Image) (side : Side) (epoch : UInt64) (records : List Record)
    (pos : Nat) : Prop :=
  Plain epoch records ∧ ∃ next, Landed g layout scratchLen side cells (records.map .known)
    pos (commitRecordOf epoch) next

/-- The arena that compactions do not write. -/
def Kept (cells : Image) (l : Ledger) : Prop :=
  match l.active with
  | none => Idle g layout scratchLen cells .second (· = none) ∧ l.acked = [] ∧ l.inFlight = none
  | some (side, epoch) => Keeps g layout scratchLen cells side epoch l.acked l.inFlight

/-- What the flash holds, by the ledger. -/
structure FlashInv (cells : Image) (l : Ledger) : Prop where
  kept : Kept g layout scratchLen cells l
  target : Idle g layout scratchLen cells l.target (Yields l.active) ∨
    ∃ pos, l.commitAt = some pos ∧
      Committed g layout scratchLen cells l.target l.nextEpoch l.attempt pos

/-- The active cursor is at the end of its arena or at the tail of the ledger's
records. -/
def ActiveInv (j : FlashJournal) (l : Ledger) : Prop :=
  match j.active with
  | none => l.active = none
  | some cursor =>
      l.active = some (cursor.index, cursor.epoch) ∧
      (cursor.appendAt = (layout.arenas cursor.index).stop ∨
        ∃ entries, Tail g layout scratchLen cursor.index j.flash.cells entries cursor.appendAt ∧
          (tally none entries).committedEpoch = some cursor.epoch ∧
          (tally none entries).warning = none ∧
          (tally (some cursor.epoch) entries).replayed = l.acked ∧
          l.inFlight = none ∧
          Idle g layout scratchLen j.flash.cells l.target (Yields l.active))

/-- The compaction cursor is at the end of its arena or at the tail of what was
compacted. Without a compaction the sectors counted in the ledger are erased. -/
def CompactionInv (j : FlashJournal) (l : Ledger) : Prop :=
  match j.compaction with
  | none =>
      Erased j.flash.cells (layout.arenas l.target).start
        ((layout.arenas l.target).start + l.erased * g.eraseSize) ∧
      (layout.arenas l.target).start + l.erased * g.eraseSize ≤ (layout.arenas l.target).stop
  | some cursor =>
      cursor.index = l.target ∧ cursor.epoch = l.nextEpoch ∧ l.erased = 0 ∧
      ((l.commitAt = none ∧ Plain l.nextEpoch l.attempt ∧
        Tail g layout scratchLen l.target j.flash.cells (l.attempt.map .known)
          cursor.appendAt) ∨
      (cursor.appendAt = (layout.arenas l.target).stop ∧
        ∀ pos, l.commitAt = some pos →
          (∃ next, recordEnd g pos 0 = some next ∧ next ≤ (layout.arenas l.target).stop) ∧
          (layout.arenas l.target).start ≤ pos ∧ pos % g.readSize = 0 ∧
          (j.flash.cells (pos + 31) = 0xFF ∨
            Committed g layout scratchLen j.flash.cells l.target l.nextEpoch l.attempt pos)))

structure JournalInv (j : FlashJournal) (l : Ledger) : Prop where
  clean : j.flash.clean = true
  flash : FlashInv g layout scratchLen j.flash.cells l
  active : ActiveInv g layout scratchLen j l
  compaction : CompactionInv g layout scratchLen j l

def Inv (s : State) : Prop :=
  match s.world with
  | .off d => d.clean = true ∧ FlashInv g layout scratchLen d.cells s.ledger
  | .on j => JournalInv g layout scratchLen j s.ledger

end

end Prns.Ports.Journal
