import Prns.Ports.FlashJournalSteps

/-!
# Compaction keeps the invariant

Erasing, writing and committing the target arena, under any faults. Until the
commit record is complete the target does not compete with the kept arena: its
first cell is erased, or its records have no commit among them. A complete commit
record puts the target in use, and the arena kept so far is outranked by it, also
when the epoch wraps.
-/

namespace Prns.Ports.Journal

open Verified
open Verified.NorFlash
open FlashJournal

section

variable {g : Geometry} {layout : FlashJournalLayout} {scratchLen : Nat}
  {j : FlashJournal} {l : Ledger} {pos : Nat}

/-! ## Erasing -/

variable {sector n : Nat} {cells : Image} {records : List Record} (hs : Sound g layout scratchLen)
include hs

theorem erased_start_of_erase (h : JournalInv g layout scratchLen j l)
    (hcompaction : j.compaction = none) (hallowed : sector ≤ l.erased) :
    eraseCells j.flash.cells ((layout.arenas l.target).start + sector * g.eraseSize) n =
        j.flash.cells ∨
      eraseCells j.flash.cells ((layout.arenas l.target).start + sector * g.eraseSize) n
        (layout.arenas l.target).start = 0xFF := by
  have hinv := h.compaction
  rw [CompactionInv, hcompaction] at hinv
  by_cases hn : n ≤ (layout.arenas l.target).start + sector * g.eraseSize
  · left
    funext x
    exact eraseCells_outside x (by omega)
  right
  cases sector with
  | zero =>
    rw [Nat.zero_mul, Nat.add_zero] at hn ⊢
    exact eraseCells_erased _ Nat.le.refl (by omega)
  | succ sector =>
    have hpos : 0 < l.erased * g.eraseSize := Nat.mul_pos (by omega) hs.erase_pos
    exact (hinv.1.mono).eraseCells
      (layout.arenas l.target).start Nat.le.refl (Nat.lt_add_of_pos_right hpos)

theorem erase_inv (h : JournalInv g layout scratchLen j l) (hcompaction : j.compaction = none)
    (erased : Nat) {flash : Device} (hallowed : sector ≤ l.erased)
    (hbound : (layout.arenas l.target).start + sector * g.eraseSize + g.eraseSize ≤
      (layout.arenas l.target).stop)
    (hn : n ≤ (layout.arenas l.target).start + sector * g.eraseSize + g.eraseSize)
    (hcells : flash.cells = eraseCells j.flash.cells
      ((layout.arenas l.target).start + sector * g.eraseSize) n)
    (hclean : flash.clean = j.flash.clean)
    (herased : Erased flash.cells (layout.arenas l.target).start
        ((layout.arenas l.target).start + erased * g.eraseSize) ∧
      (layout.arenas l.target).start + erased * g.eraseSize ≤ (layout.arenas l.target).stop) :
    JournalInv g layout scratchLen { j with flash } { l with erased } := by
  have hother : OtherSame layout l.target j.flash.cells flash.cells := by
    rw [hcells]
    exact hs.apart (Nat.le_add_right ..) (Nat.le_trans hn hbound) eraseCells_outside
  have hstart := erased_start_of_erase hs h hcompaction (n := n) hallowed
  rw [← hcells] at hstart
  have hidle (hsame : ¬ flash.cells = j.flash.cells) :
      Idle g layout scratchLen flash.cells l.target (Yields l.active) :=
    idle_of_erased_start (hstart.resolve_left hsame)
  refine h.of_target hs hclean hother ?_ (Or.inl ⟨rfl, ?_⟩) ?_
  · by_cases hsame : flash.cells = j.flash.cells
    · rw [hsame]
      exact h.flash.target
    · exact Or.inl (hidle hsame)
  · intro hold
    by_cases hsame : flash.cells = j.flash.cells
    · rw [hsame]
      exact hold
    · exact hidle hsame
  · rw [hcompaction]
    exact herased

theorem eraseInactiveSector_inv
    (h : JournalInv g layout scratchLen j l) {sector : Nat} (hallowed : sector ≤ l.erased) :
    JournalInv g layout scratchLen (j.eraseInactiveSector g layout sector).2
      (l.after g layout (.eraseInactiveSector sector) j (j.eraseInactiveSector g layout sector).2
        (returned (j.eraseInactiveSector g layout sector).1)) := by
  have hindex := (inactiveIndex_eq h.active).1
  unfold Ledger.after eraseInactiveSector inactiveArena
  rw [hindex]
  simp only
  have hnew : (layout.arenas l.target).start + (sector + 1) * g.eraseSize =
      (layout.arenas l.target).start + sector * g.eraseSize + g.eraseSize := by
    rw [Nat.add_mul, Nat.one_mul, Nat.add_assoc]
  have hold := Nat.mul_le_mul_right g.eraseSize hallowed
  generalize hstart : (layout.arenas l.target).start + sector * g.eraseSize = start at hnew ⊢
  by_cases hcompaction : j.compaction.isSome = true
  · rw [if_pos hcompaction]
    exact h
  rw [if_neg hcompaction]
  rw [Option.not_isSome_iff_eq_none] at hcompaction
  split
  · exact h
  split
  · exact h
  next hbound =>
    have hcompactionInv := h.compaction
    rw [CompactionInv, hcompaction] at hcompactionInv
    have herase := (ensures_erase g start (start + g.eraseSize) j.flash).mapError
      (m := JournalError.flash) |>.cases
    unfold onFlash Act.zoom
    subst start
    rcases herase with ⟨a, hok, hcells, hclean⟩ | ⟨hnot, ⟨n, hn, hcells⟩, hclean⟩
    · rw [if_pos (by rw [hok]; rfl)]
      refine erase_inv hs h hcompaction _ hallowed (by omega) Nat.le.refl hcells hclean ?_
      rw [hcells]
      rcases Nat.le_total l.erased (sector + 1) with hle | hle
      · rw [Nat.max_eq_right hle, hnew]
        refine ⟨?_, by omega⟩
        intro x hx hlt
        by_cases hin : (layout.arenas l.target).start + sector * g.eraseSize ≤ x
        · exact eraseCells_erased x hin hlt
        · exact hcompactionInv.1.eraseCells x hx (by omega)
      · rw [Nat.max_eq_left hle]
        exact ⟨hcompactionInv.1.eraseCells, hcompactionInv.2⟩
    · rw [returned_eq_false hnot, if_neg Bool.false_ne_true]
      refine erase_inv hs h hcompaction l.erased hallowed (by omega) (by omega)
        hcells hclean ⟨?_, hcompactionInv.2⟩
      rw [hcells]
      exact hcompactionInv.1.eraseCells

theorem sectors_cover (side : Side) :
    (layout.arenas side).start + (layout.arenas side).len / g.eraseSize * g.eraseSize =
      (layout.arenas side).stop := by
  have hne := hs.nonempty side
  obtain ⟨hstart, hstop⟩ := hs.sectors side
  have hdvd : g.eraseSize ∣ (layout.arenas side).len :=
    Nat.dvd_sub (Nat.dvd_of_mod_eq_zero hstop) (Nat.dvd_of_mod_eq_zero hstart)
  rw [Nat.div_mul_cancel hdvd, FlashArenaRange.len]
  omega

theorem beginCompaction_inv (h : JournalInv g layout scratchLen j l)
    (hallowed : l.erased = j.inactiveSectorCount g layout) :
    JournalInv g layout scratchLen (j.beginCompaction layout).2
      (l.after g layout .beginCompaction j (j.beginCompaction layout).2
        (returned (j.beginCompaction layout).1)) := by
  obtain ⟨hindex, hepoch⟩ := inactiveIndex_eq h.active
  unfold Ledger.after beginCompaction inactiveArena
  unfold inactiveSectorCount inactiveArena at hallowed
  rw [hindex] at hallowed ⊢
  by_cases hcompaction : j.compaction.isSome = true
  · rw [if_pos hcompaction]
    exact h
  rw [if_neg hcompaction]
  rw [Option.not_isSome_iff_eq_none] at hcompaction
  have hinv := h.compaction
  rw [CompactionInv, hcompaction, hallowed, sectors_cover hs l.target] at hinv
  have hstart : j.flash.cells (layout.arenas l.target).start = 0xFF :=
    hinv.1 _ Nat.le.refl (hs.nonempty l.target)
  refine h.of_target hs rfl (fun _ _ _ => rfl)
    (Or.inl (idle_of_erased_start hstart)) (Or.inl ⟨rfl, id⟩) ?_
  exact ⟨rfl, hepoch, rfl, Or.inl ⟨rfl, plain_nil _, .nil _, hinv.1⟩⟩

omit hs

variable {cursor : ArenaCursor}

theorem JournalInv.compaction_tail (h : JournalInv g layout scratchLen j l)
    {len : Nat} (hcompaction : j.compaction = some cursor)
    (haccepts : accepts g (layout.arenas cursor.index) cursor len = true) :
    cursor.index = l.target ∧ cursor.epoch = l.nextEpoch ∧ l.erased = 0 ∧
      l.commitAt = none ∧ Plain l.nextEpoch l.attempt ∧
      Tail g layout scratchLen l.target j.flash.cells (l.attempt.map .known) cursor.appendAt := by
  have hinv := h.compaction
  rw [CompactionInv, hcompaction] at hinv
  obtain ⟨hindex, hepoch, herased, hcursor⟩ := hinv
  refine ⟨hindex, hepoch, herased, hcursor.resolve_right fun hclosed => ?_⟩
  rw [hindex, accepts_closed hclosed.1] at haccepts
  cases haccepts

variable {kind : RecordKind} {payload : List UInt8}

theorem appendCompacted_inv (hs : Sound g layout scratchLen)
    (h : JournalInv g layout scratchLen j l) (hfits : Fits g scratchLen payload) :
    JournalInv g layout scratchLen (j.appendCompacted g layout kind payload).2
      (l.after g layout (.appendCompacted kind payload) j
        (j.appendCompacted g layout kind payload).2
        (returned (j.appendCompacted g layout kind payload).1)) := by
  by_cases hrefused : ∀ cursor, j.compaction = some cursor → kind = .arenaCommit ∨
      accepts g (layout.arenas cursor.index) cursor payload.length = false
  · have hsame : ∃ e, j.appendCompacted g layout kind payload = (.error e, j) := by
      unfold appendCompacted
      by_cases hkind : kind = .arenaCommit
      · rw [if_pos hkind]
        exact ⟨_, rfl⟩
      rw [if_neg hkind]
      cases hcompaction : j.compaction with
      | none => exact ⟨_, rfl⟩
      | some cursor =>
        obtain ⟨e, he⟩ := writeCursorRecord_refused kind payload (w := ⟨j.flash, cursor⟩)
          ((hrefused cursor hcompaction).resolve_left hkind)
        refine ⟨e, ?_⟩
        simp only
        rw [he, ← hcompaction]
    obtain ⟨e, he⟩ := hsame
    rw [he]
    exact h
  push Not at hrefused
  obtain ⟨cursor, hcompaction, hkind, haccepts⟩ := hrefused
  rw [ne_eq, Bool.not_eq_false] at haccepts
  obtain ⟨hindex, hepoch, herased, hcommitAt, hplain, htail⟩ :=
    h.compaction_tail hcompaction haccepts
  have hwrite := (ensures_writeCursorRecord_tail hs (w := ⟨j.flash, cursor⟩)
    (r := ⟨l.nextEpoch, kind, payload⟩) htail hepoch (by rw [← hindex]; exact haccepts) hfits
    (fun hcommit => absurd hcommit hkind)).cases
  have hlanded : Plain l.nextEpoch (l.attempt ++ [⟨l.nextEpoch, kind, payload⟩]) :=
    hplain.snoc rfl hkind
  have hmap : (l.attempt ++ [(⟨l.nextEpoch, kind, payload⟩ : Record)]).map Entry.known =
      l.attempt.map .known ++ [.known ⟨l.nextEpoch, kind, payload⟩] := by
    rw [List.map_append, List.map_singleton]
  rw [appendCompacted, if_neg hkind, hcompaction]
  simp only [Ledger.after, hindex]
  generalize writeCursorRecord g (layout.arenas l.target) kind payload
    ⟨j.flash, cursor⟩ = result at hwrite ⊢
  rcases hwrite with ⟨a, hok, next, hcursor, hland, hother, hclean⟩ |
    ⟨hnot, hcursor, hunfinished, hother, hclean⟩
  · rw [if_pos (by rw [hok]; rfl), hcursor]
    have htail' := hland.tail hs
    rw [← hmap] at htail'
    have hidle : Idle g layout scratchLen result.2.flash.cells l.target (Yields l.active) :=
      idle_of_plain hlanded htail'.parsed
    exact h.of_target hs hclean hother (Or.inl hidle) (Or.inl ⟨rfl, fun _ => hidle⟩)
      ⟨hindex, hepoch, herased, Or.inl ⟨hcommitAt, hlanded, htail'⟩⟩
  · rw [returned_eq_false hnot, if_neg Bool.false_ne_true, hcursor]
    have hidle : Idle g layout scratchLen result.2.flash.cells l.target (Yields l.active) := by
      rcases hunfinished with hsame | ⟨-, hparsed⟩ | ⟨next, hland⟩
      · rw [hsame]
        exact idle_of_plain hplain htail.parsed
      · exact idle_of_plain hplain hparsed
      · have htail' := hland.tail hs
        rw [← hmap] at htail'
        exact idle_of_plain hlanded htail'.parsed
    refine h.of_target hs hclean hother (Or.inl hidle)
      (Or.inl ⟨rfl, fun _ => hidle⟩) ⟨hindex, hepoch, herased, Or.inr ⟨rfl, ?_⟩⟩
    intro pos hpos
    rw [hcommitAt] at hpos
    exact nomatch hpos

/-! ## Committing -/

theorem outranks_next (side : Side) (epoch : UInt64) : Outranks side (epoch + 1) (some epoch) := by
  cases side with
  | first =>
    show epochIsNewer epoch (epoch + 1) = false
    have hsub : ¬ (epoch - (epoch + (1 : UInt64)) < (1 : UInt64) <<< 63) := by
      rw [UInt64.lt_iff_toNat_lt, UInt64.toNat_sub, UInt64.toNat_add,
        show ((1 : UInt64) <<< 63).toNat = 2 ^ 63 from rfl,
        show (1 : UInt64).toNat = 1 from rfl]
      omega
    rw [epochIsNewer, decide_eq_false hsub, Bool.and_false]
  | second =>
    show epochIsNewer (epoch + 1) epoch = true
    have hone : epoch + (1 : UInt64) - epoch = 1 := by
      rw [UInt64.add_comm, UInt64.add_sub_cancel]
    rw [epochIsNewer, hone]
    rfl

/-- The arena kept so far yields to the one that was compacted into. -/
theorem Kept.yields (h : Kept g layout scratchLen cells l) :
    Idle g layout scratchLen cells l.target.other (Yields (some (l.target, l.nextEpoch))) := by
  unfold Kept at h
  unfold Ledger.target Ledger.nextEpoch
  cases hactive : l.active with
  | none =>
    rw [hactive] at h
    obtain ⟨entries, pos, corrupt, hparsed, hepoch⟩ := h.1
    refine ⟨entries, pos, corrupt, hparsed, ?_⟩
    rw [hepoch]
    exact yields_none _
  | some active =>
    rw [hactive] at h
    obtain ⟨side, epoch⟩ := active
    obtain ⟨entries, pos, corrupt, hparsed, hepoch, -, -⟩ := h
    simp only [Side.other_other]
    refine ⟨entries, pos, corrupt, hparsed, ?_⟩
    rw [hepoch]
    exact outranks_next side.other epoch

variable {epoch : UInt64}

theorem tally_committed (h : Plain epoch records) :
    tally (some epoch) (records.map .known ++ [.known (commitRecordOf epoch)]) =
      ⟨some epoch, none, records⟩ := by
  rw [tally_snoc, tally_plain h, Scan.push_commit rfl]
  rfl

theorem tally_committed_state (h : Plain epoch records) :
    (tally none (records.map .known ++ [.known (commitRecordOf epoch)])).committedEpoch =
        some epoch ∧
      (tally none (records.map .known ++ [.known (commitRecordOf epoch)])).warning = none := by
  have hstate := tally_epoch (some epoch) (records.map .known ++ [.known (commitRecordOf epoch)])
  rw [tally_committed h] at hstate
  exact ⟨hstate.1.symm, hstate.2.symm⟩

/-- A journal on the arena that was compacted into. -/
theorem inUse_inv (hs : Sound g layout scratchLen) {flash : Device} {next : Nat}
    (hclean : flash.clean = true) (hkept : Kept g layout scratchLen flash.cells l)
    (hplain : Plain l.nextEpoch l.attempt)
    (htail : Tail g layout scratchLen l.target flash.cells
      (l.attempt.map .known ++ [.known (commitRecordOf l.nextEpoch)]) next) :
    JournalInv g layout scratchLen ⟨flash, some ⟨l.target, l.nextEpoch, next⟩, none⟩
      (.inUse (some (l.target, l.nextEpoch)) l.attempt) := by
  obtain ⟨hepoch, hwarning⟩ := tally_committed_state hplain
  have hreplay : (tally (some l.nextEpoch) (l.attempt.map .known ++
      [.known (commitRecordOf l.nextEpoch)])).replayed = l.attempt := by
    rw [tally_committed hplain]
  refine ⟨hclean, ⟨?_, Or.inl hkept.yields⟩, ⟨rfl, Or.inr ?_⟩, ?_⟩
  · exact keeps_of_parsed htail.parsed htail.erased hepoch hwarning (Or.inl hreplay)
  · exact ⟨_, htail, hepoch, hwarning, hreplay, rfl, hkept.yields⟩
  have hne := hs.nonempty l.target.other
  refine ⟨?_, ?_⟩
  · show Erased flash.cells _ (_ + 0 * g.eraseSize)
    rw [Nat.zero_mul]
    exact erased_self
  · show _ + 0 * g.eraseSize ≤ _
    rw [Nat.zero_mul]
    exact Nat.le_of_lt hne

theorem commitCompaction_not_returned {w : CursorOnFlash}
    {outcome : Outcome JournalError Unit} (hcompaction : j.compaction = some cursor)
    (hwrite : writeCursorRecord g (layout.arenas cursor.index) .arenaCommit []
      ⟨j.flash, cursor⟩ = (outcome, w)) (hnot : ∀ a, outcome ≠ .ok a) :
    returned (j.commitCompaction g layout).1 = false ∧ (j.commitCompaction g layout).2 =
        ⟨w.flash, closeActive layout j.active, some w.cursor⟩ := by
  rw [commitCompaction, hcompaction]
  simp only
  rw [hwrite]
  cases outcome with
  | ok a => exact absurd rfl (hnot a)
  | error e => exact ⟨rfl, rfl⟩
  | stopped powered => exact ⟨rfl, rfl⟩

theorem fits_nil : Fits g scratchLen [] :=
  ⟨0, by rw [alignUp, List.length_nil, Nat.zero_mod, if_pos rfl], Nat.zero_le _⟩

theorem commitCompaction_cases (hs : Sound g layout scratchLen)
    (h : JournalInv g layout scratchLen j l) (hcompaction : j.compaction = some cursor)
    (haccepts : accepts g (layout.arenas cursor.index) cursor 0 = true) :
    ∃ flash : Device, OtherSame layout l.target j.flash.cells flash.cells ∧
      flash.clean = j.flash.clean ∧
      ((∃ next, j.commitCompaction g layout =
          (.ok (), ⟨flash, some { cursor with appendAt := next }, none⟩) ∧
        Landed g layout scratchLen l.target flash.cells (l.attempt.map .known) cursor.appendAt
          (commitRecordOf l.nextEpoch) next) ∨
      ∃ outcome, returned outcome = false ∧
        j.commitCompaction g layout = (outcome, ⟨flash, closeActive layout j.active,
          some { cursor with appendAt := (layout.arenas l.target).stop }⟩) ∧
        Unfinished g layout scratchLen l.target j.flash.cells flash.cells
          (l.attempt.map .known) cursor.appendAt (commitRecordOf l.nextEpoch)) := by
  obtain ⟨hindex, hepoch, -, -, -, htail⟩ := h.compaction_tail hcompaction haccepts
  rw [hindex] at haccepts
  have hwrite := (ensures_writeCursorRecord_tail hs (w := ⟨j.flash, cursor⟩)
    (r := commitRecordOf l.nextEpoch) htail hepoch haccepts fits_nil (fun _ => rfl)).cases
  generalize hresult : writeCursorRecord g (layout.arenas l.target)
    (commitRecordOf l.nextEpoch).kind (commitRecordOf l.nextEpoch).payload
    ⟨j.flash, cursor⟩ = result at hwrite
  obtain ⟨outcome, w⟩ := result
  rw [← hindex] at hresult
  rcases hwrite with ⟨a, hok, next, hcursor, hland, hother, hclean⟩ |
    ⟨hnot, hcursor, hunfinished, hother, hclean⟩
  · simp only at hok hcursor
    subst hok
    refine ⟨w.flash, hother, hclean, Or.inl ⟨next, ?_, hland⟩⟩
    have hwritten : writeCursorRecord g (layout.arenas cursor.index) .arenaCommit []
      ⟨j.flash, cursor⟩ = (.ok (), w) := hresult
    simp only [commitCompaction, hcompaction, hwritten, hcursor]
  · obtain ⟨hret, hrun⟩ := commitCompaction_not_returned hcompaction hresult hnot
    refine ⟨w.flash, hother, hclean, Or.inr ⟨_, hret, ?_, hunfinished⟩⟩
    rw [← hcursor, ← hrun]

theorem commitCompaction_inv (hs : Sound g layout scratchLen)
    (h : JournalInv g layout scratchLen j l) :
    JournalInv g layout scratchLen (j.commitCompaction g layout).2
      (l.after g layout .commitCompaction j (j.commitCompaction g layout).2
        (returned (j.commitCompaction g layout).1)) := by
  simp only [Ledger.after]
  cases hcompaction : j.compaction with
  | none =>
    have hrun : j.commitCompaction g layout = (.error .noCompaction, j) := by
      rw [commitCompaction, hcompaction]
    rw [hrun]
    exact h
  | some cursor =>
    simp only
    cases haccepts : accepts g (layout.arenas cursor.index) cursor 0 with
    | false =>
      obtain ⟨e, he⟩ := writeCursorRecord_refused .arenaCommit [] (w := ⟨j.flash, cursor⟩) haccepts
      obtain ⟨hret, hrun⟩ := commitCompaction_not_returned hcompaction he nofun
      rw [hret, hrun, if_neg Bool.false_ne_true, if_neg Bool.false_ne_true]
      have hold := h.compaction
      rw [CompactionInv, hcompaction] at hold
      exact h.of_target hs rfl (fun _ _ _ => rfl) h.flash.target (Or.inr rfl) hold
    | true =>
      obtain ⟨hindex, hepoch, herased, -, hplain, htail⟩ := h.compaction_tail hcompaction haccepts
      have haligned := htail.log.aligned hs (hs.aligned l.target)
      obtain ⟨flash, hother, hclean, hcases⟩ := commitCompaction_cases hs h hcompaction haccepts
      rw [hindex] at haccepts
      rcases hcases with ⟨next, hrun, hland⟩ | ⟨outcome, hret, hrun, hunfinished⟩
      · rw [hrun, show returned (Outcome.ok () : Outcome JournalError Unit) = true from rfl,
          if_pos rfl, hindex, hepoch]
        exact inUse_inv hs (hclean.trans h.clean) (h.flash.kept.congr hs hother) hplain
          (hland.tail hs)
      rw [hrun, hret, if_neg Bool.false_ne_true, if_pos rfl]
      obtain ⟨next, hend, hstart, hstop⟩ := accepts_iff.mp haccepts
      refine h.of_target hs hclean hother ?_ (Or.inr rfl)
        ⟨hindex, hepoch, herased, Or.inr ⟨rfl, ?_⟩⟩
      · rcases hunfinished with hsame | ⟨-, hparsed⟩ | ⟨next, hland⟩
        · rw [hsame]
          exact Or.inl (idle_of_plain hplain htail.parsed)
        · exact Or.inl (idle_of_plain hplain hparsed)
        · exact Or.inr ⟨cursor.appendAt, rfl, hplain, next, hland⟩
      · rintro pos ⟨⟩
        refine ⟨⟨next, hend, hstop⟩, hstart, haligned, ?_⟩
        rcases hunfinished with hsame | ⟨hopen, -⟩ | ⟨next, hland⟩
        · left
          rw [hsame]
          exact htail.commit_erased haccepts
        · exact Or.inl hopen
        · exact Or.inr ⟨hplain, next, hland⟩

/-! ## Confirming -/

theorem confirmRecordHeader_committed {header : List UInt8}
    (h : confirmRecordHeader header epoch kind payload = .ok .committed) :
    header = recordHeader epoch kind payload.length
      (recordChecksum (header.take checksumPrefixLen) payload) true := by
  simp only [confirmRecordHeader] at h
  split at h
  · exact nomatch h
  split at h
  · exact nomatch h
  · next hmatch =>
      rw [Bool.not_eq_true, Bool.not_eq_false'] at hmatch
      exact of_decide_eq_true hmatch

theorem confirmCompactionCommit_cases
    (layout : FlashJournalLayout) (hcompaction : j.compaction = some cursor) (pos : Nat) :
    ∃ flash : Device, flash.cells = j.flash.cells ∧ flash.clean = j.flash.clean ∧
      ((∃ outcome, j.confirmCompactionCommit g layout pos = (outcome, { j with flash }) ∧
          ∀ resolution, outcome ≠ .ok resolution) ∨
        (confirmRecordHeader (slice j.flash.cells pos headerLen) cursor.epoch .arenaCommit [] =
            .ok .notCommitted ∧
          j.confirmCompactionCommit g layout pos = (.ok .notCommitted, { j with flash })) ∨
        ∃ next, recordEnd g pos 0 = some next ∧
          confirmRecordHeader (slice j.flash.cells pos headerLen) cursor.epoch .arenaCommit [] =
            .ok .committed ∧
          j.confirmCompactionCommit g layout pos =
            (.ok .committed, ⟨flash, some { cursor with appendAt := next }, none⟩)) := by
  rw [confirmCompactionCommit, hcompaction]
  simp only
  cases checkRecordBounds g (layout.arenas cursor.index) pos 0 with
  | some e => exact ⟨j.flash, rfl, rfl, Or.inl ⟨.error e, by rw [← hcompaction], by simp⟩⟩
  | none =>
    have hread := (ensures_read g pos headerLen j.flash).mapError (m := JournalError.flash)
    unfold Act.Ensures at hread
    generalize Act.mapError JournalError.flash (read g pos headerLen) j.flash = result at hread ⊢
    obtain ⟨outcome, flash⟩ := result
    cases outcome with
    | error e => exact ⟨flash, hread.1, hread.2, Or.inl ⟨_, rfl, by simp⟩⟩
    | stopped powered => exact ⟨flash, hread.1, hread.2, Or.inl ⟨_, rfl, by simp⟩⟩
    | ok header =>
      obtain ⟨hheader, hcells, hclean⟩ := hread
      refine ⟨flash, hcells, hclean, ?_⟩
      rw [← hheader]
      simp only
      cases hconfirm : confirmRecordHeader header cursor.epoch .arenaCommit [] with
      | error e => exact Or.inl ⟨_, rfl, by simp⟩
      | ok resolution =>
        cases resolution with
        | notCommitted => exact Or.inr (Or.inl ⟨rfl, rfl⟩)
        | committed =>
          cases hend : recordEnd g pos 0 with
          | none => exact Or.inl ⟨_, rfl, by simp⟩
          | some next => exact Or.inr (Or.inr ⟨next, rfl, rfl, rfl⟩)

theorem Committed.next (hs : Sound g layout scratchLen)
    (h : Committed g layout scratchLen j.flash.cells l.target l.nextEpoch l.attempt pos)
    {next : Nat} (hend : recordEnd g pos 0 = some next) :
    Plain l.nextEpoch l.attempt ∧ Tail g layout scratchLen l.target j.flash.cells
        (l.attempt.map .known ++ [.known (commitRecordOf l.nextEpoch)]) next := by
  obtain ⟨hplain, next', hland⟩ := h
  have hnext : next = next' := Option.some.inj (hend.symm.trans hland.bounds)
  rw [hnext]
  exact ⟨hplain, hland.tail hs⟩

theorem not_erased_of_header {payloadLen : Nat} {checksum : UInt32}
    (h : slice cells pos headerLen = recordHeader epoch kind payloadLen checksum true) :
    cells (pos + 31) ≠ 0xFF := by
  intro herased
  have hlast : (slice cells pos headerLen)[31]? = some 0xFF := by
    rw [getElem?_slice (by decide), herased]
  rw [h] at hlast
  exact absurd hlast (by simp [recordHeader, magic, leBytes, commitWord])

variable (hs : Sound g layout scratchLen)
include hs

theorem confirmCompactionCommit_inv (h : JournalInv g layout scratchLen j l)
    (hallowed : l.commitAt = some pos) (ret : Bool) :
    JournalInv g layout scratchLen (j.confirmCompactionCommit g layout pos).2
      (l.after g layout (.confirmCompactionCommit pos) j
        (j.confirmCompactionCommit g layout pos).2 ret) := by
  simp only [Ledger.after]
  cases hcompaction : j.compaction with
  | none =>
    rw [confirmCompactionCommit, hcompaction]
    exact h
  | some cursor =>
    have hinv := h.compaction
    rw [CompactionInv, hcompaction] at hinv
    obtain ⟨hindex, hepoch, herased, hcursor⟩ := hinv
    have hclosed := hcursor.resolve_left fun hopen => by
      rw [hopen.1] at hallowed
      cases hallowed
    obtain ⟨-, -, -, hlanded⟩ := hclosed.2 pos hallowed
    obtain ⟨flash, hcells, hclean, hcases⟩ :=
      confirmCompactionCommit_cases (g := g) layout hcompaction pos
    have hkeep : JournalInv g layout scratchLen { j with flash }
        (if ({ j with flash } : FlashJournal).compaction = none then
          .inUse (some (cursor.index, cursor.epoch)) l.attempt else l) := by
      rw [hcompaction, if_neg (Option.some_ne_none cursor), ← hcompaction]
      exact h.same_cells hcells hclean
    rcases hcases with ⟨outcome, hrun, -⟩ | ⟨-, hrun⟩ | ⟨next, hend, hconfirm, hrun⟩
    · rw [hrun]
      exact hkeep
    · rw [hrun]
      exact hkeep
    rw [hrun]
    simp only
    rw [if_pos trivial, hindex, hepoch]
    have hcommitted := hlanded.resolve_left
      (not_erased_of_header (confirmRecordHeader_committed hconfirm))
    obtain ⟨hplain, htail⟩ := hcommitted.next hs hend
    rw [← hcells] at htail
    refine inUse_inv hs (hclean.trans h.clean) ?_ hplain htail
    rw [hcells]
    exact h.flash.kept

/-! ## Initialising -/

theorem ensures_initialize (side : Side) (epoch : UInt64) (d : Device) :
    Act.Ensures (do
        (erase g (layout.arenas side).start (layout.arenas side).stop).mapError .flash
        writeRecord g (layout.arenas side) (layout.arenas side).start epoch .arenaCommit [] :
        Act Device JournalError Nat) d
      (fun appendAt d' => Landed g layout scratchLen side d'.cells []
          (layout.arenas side).start (commitRecordOf epoch) appendAt ∧
        OtherSame layout side d.cells d'.cells ∧ d'.clean = d.clean)
      (fun d' => (d'.cells = d.cells ∨ Idle g layout scratchLen d'.cells side (Yields none) ∨
          Committed g layout scratchLen d'.cells side epoch [] (layout.arenas side).start) ∧
        OtherSame layout side d.cells d'.cells ∧ d'.clean = d.clean) := by
  have hne := hs.nonempty side
  have hother (n : Nat) (hn : n ≤ (layout.arenas side).stop) : OtherSame layout side d.cells
      (eraseCells d.cells (layout.arenas side).start n) :=
    hs.apart Nat.le.refl hn eraseCells_outside
  have herase : Act.Ensures (erase g (layout.arenas side).start (layout.arenas side).stop) d
      (fun _ d' => d'.cells = eraseCells d.cells (layout.arenas side).start
        (layout.arenas side).stop ∧ d'.clean = d.clean)
      (fun d' => (d'.cells = d.cells ∨ Idle g layout scratchLen d'.cells side (Yields none) ∨
          Committed g layout scratchLen d'.cells side epoch [] (layout.arenas side).start) ∧
        OtherSame layout side d.cells d'.cells ∧ d'.clean = d.clean) := by
    refine (ensures_erase g _ _ d).mono (fun _ _ hdone => hdone) ?_
    intro d' hpart
    obtain ⟨⟨n, hn, hcells⟩, hclean⟩ := hpart
    rw [Nat.max_eq_right (Nat.le_of_lt hne)] at hn
    refine ⟨?_, by rw [hcells]; exact hother n hn, hclean⟩
    by_cases hstart : n ≤ (layout.arenas side).start
    · left
      rw [hcells]
      funext x
      exact eraseCells_outside x (by omega)
    right
    left
    apply idle_of_erased_start
    rw [hcells]
    exact eraseCells_erased _ Nat.le.refl (by omega)
  apply herase.mapError.bind
  intro _ d' hdone
  obtain ⟨hcells, hclean⟩ := hdone
  have htail : Tail g layout scratchLen side d'.cells [] (layout.arenas side).start := by
    refine ⟨.nil _, ?_⟩
    rw [hcells]
    exact fun x hx hlt => eraseCells_erased x hx hlt
  have hsame : OtherSame layout side d.cells d'.cells := by
    rw [hcells]
    exact hother _ Nat.le.refl
  have hidle : Idle g layout scratchLen d'.cells side (Yields none) :=
    idle_of_plain (plain_nil epoch) htail.parsed
  by_cases hroom : ∀ next, recordEnd g (layout.arenas side).start ([] : List UInt8).length =
      some next → (layout.arenas side).stop < next
  · -- without room it is refused before anything is written
    unfold Act.Ensures writeRecord
    cases hend : recordEnd g (layout.arenas side).start ([] : List UInt8).length with
    | none => exact ⟨Or.inr (Or.inl hidle), hsame, hclean⟩
    | some next =>
      simp only
      rw [if_pos (Or.inr (hroom next hend))]
      exact ⟨Or.inr (Or.inl hidle), hsame, hclean⟩
  · push Not at hroom
    obtain ⟨next, hend, hstop⟩ := hroom
    refine (ensures_writeRecord_tail hs (r := commitRecordOf epoch) htail hend hstop fits_nil
      (fun _ => rfl)).mono ?_ ?_
    · rintro appendAt d'' ⟨rfl, hland, hother', hclean'⟩
      exact ⟨hland, fun x hx hlt => (hother' x hx hlt).trans (hsame x hx hlt), hclean'.trans hclean⟩
    rintro d'' ⟨hunfinished, hother', hclean'⟩
    refine ⟨Or.inr ?_, fun x hx hlt => (hother' x hx hlt).trans (hsame x hx hlt),
      hclean'.trans hclean⟩
    rcases hunfinished with hsame' | ⟨-, hparsed⟩ | ⟨next, hland⟩
    · left
      rw [hsame']
      exact hidle
    · exact Or.inl (idle_of_plain (plain_nil epoch) hparsed)
    · exact Or.inr ⟨nofun, next, hland⟩

theorem initializeEmpty_inv (h : JournalInv g layout scratchLen j l)
    (hallowed : j.compaction = none ∧ l.attempt = []) :
    JournalInv g layout scratchLen (j.initializeEmpty g layout).2
      (l.after g layout .initializeEmpty j (j.initializeEmpty g layout).2
        (returned (j.initializeEmpty g layout).1)) := by
  simp only [Ledger.after]
  by_cases hsome : j.active.isSome = true
  · rw [initializeEmpty, if_pos hsome, if_pos hsome]
    exact h
  rw [if_neg hsome]
  rw [Option.not_isSome_iff_eq_none] at hsome
  have hactive : l.active = none := by
    have hinv := h.active
    rw [ActiveInv, hsome] at hinv
    exact hinv
  have htarget : l.target = .first := by rw [Ledger.target, hactive]
  have hepoch : l.nextEpoch = 0 := by rw [Ledger.nextEpoch, hactive]
  have hinit := ensures_initialize hs .first 0 j.flash
  unfold Act.Ensures at hinit
  generalize hrun : j.initializeEmpty g layout = run
  rw [initializeEmpty, if_neg (by rw [hsome]; decide)] at hrun
  simp only at hrun
  generalize (do
      (erase g (layout.arenas .first).start (layout.arenas .first).stop).mapError .flash
      writeRecord g (layout.arenas .first) (layout.arenas .first).start 0 .arenaCommit [] :
      Act Device JournalError Nat) j.flash = result at hinit hrun
  obtain ⟨outcome, flash⟩ := result
  cases outcome with
  | ok appendAt =>
    obtain ⟨hland, hother, hclean⟩ := hinit
    subst hrun
    rw [returned, if_pos rfl, hallowed.1]
    have htail := hland.tail hs
    rw [← htarget, ← hepoch] at htail
    rw [← htarget] at hother
    have hinUse := inUse_inv hs (hclean.trans h.clean) (h.flash.kept.congr hs hother)
      (by rw [hallowed.2]; exact plain_nil _) (by rw [hallowed.2]; exact htail)
    rw [hallowed.2, htarget, hepoch] at hinUse
    exact hinUse
  | error _ | stopped _ =>
    obtain ⟨hleft, hother, hclean⟩ := hinit
    rw [← htarget] at hother
    subst hrun
    rw [if_neg (by exact Bool.false_ne_true)]
    refine h.of_target hs hclean hother ?_ (Or.inr ?_) ?_
    · rw [htarget, hactive, hepoch]
      rcases hleft with hsame | hidle | hcommitted
      · rw [hsame]
        rcases h.flash.target with hidle | ⟨pos, -, hplain, next, hland⟩
        · rw [htarget, hactive] at hidle
          exact Or.inl hidle
        right
        rw [htarget, hepoch, hallowed.2] at hland
        have hstart : (layout.arenas .first).start = pos := by
          cases hland.log
          rfl
        rw [← hstart] at hland
        exact ⟨_, rfl, plain_nil _, next, hland⟩
      · exact Or.inl hidle
      · exact Or.inr ⟨_, rfl, hcommitted⟩
    · rw [hsome]
      rfl
    · rw [CompactionInv]
      rw [hallowed.1]
      simp only [Nat.zero_mul, Nat.add_zero]
      exact ⟨erased_self, Nat.le_of_lt (hs.nonempty _)⟩

end

end Prns.Ports.Journal
