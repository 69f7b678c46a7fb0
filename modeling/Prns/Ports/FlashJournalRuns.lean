import Prns.Ports.FlashJournalCompaction

/-!
# Runs of the journal

Opening keeps the invariant, so every state of every run has it. What a flash
replays when it is opened again follows from the invariant alone: the records the
ledger counts on, with the one append that was in flight or without it, or the
records of a compaction whose commit record is complete.
-/

namespace Prns.Ports.Journal

open Verified
open Verified.NorFlash

variable {side : Side} {entries : Side → List Entry} {pos : Side → Nat} {corrupt : Side → Bool}

theorem selectActive_eq_some (state : Side → ArenaState) :
    selectActive (state .first) (state .second) = some side ↔
      ∃ epoch, (state side).epoch = some epoch ∧ Outranks side epoch (state side.other).epoch := by
  unfold selectActive
  cases side <;> cases hfirst : (state .first).epoch <;> cases hsecond : (state .second).epoch <;>
    simp [Side.other, Outranks, hfirst, hsecond]

theorem selectActive_eq_none (state : Side → ArenaState) :
    selectActive (state .first) (state .second) = none ↔ ∀ s, (state s).epoch = none := by
  have hsides : (∀ s, (state s).epoch = none) ↔
      (state .first).epoch = none ∧ (state .second).epoch = none :=
    ⟨fun h => ⟨h .first, h .second⟩, fun h s => by cases s; exacts [h.1, h.2]⟩
  rw [hsides, selectActive]
  cases (state .first).epoch <;> cases (state .second).epoch <;> simp
  split_ifs <;> simp

theorem selectedOf_eq_some : selectedOf entries pos corrupt = some side ↔
      ∃ epoch, (stateOf (entries side) (pos side) (corrupt side)).epoch = some epoch ∧
        Outranks side epoch
          (stateOf (entries side.other) (pos side.other) (corrupt side.other)).epoch :=
  selectActive_eq_some fun s => stateOf (entries s) (pos s) (corrupt s)

theorem selectedOf_eq_none : selectedOf entries pos corrupt = none ↔
      ∀ s, (stateOf (entries s) (pos s) (corrupt s)).epoch = none :=
  selectActive_eq_none fun s => stateOf (entries s) (pos s) (corrupt s)

/-! ## What opening leaves -/

variable {s : State} {g : Geometry} {layout : FlashJournalLayout} {scratchLen : Nat} {l : Ledger}

section

variable {cells : Image} {d : Device}

theorem replayed_epoch (epoch : UInt64) (entries : List Entry) :
    ∀ r ∈ (tally (some epoch) entries).replayed, r.epoch = epoch := by
  induction entries using List.reverseRecOn with
  | nil => exact nofun
  | append_singleton entries entry ih =>
    rw [tally_snoc]
    cases entry with
    | known r =>
      by_cases hkind : r.kind = .arenaCommit
      · rw [Scan.push_commit hkind]
        exact ih
      by_cases hepoch : some epoch = some r.epoch
      · rw [Scan.push_replay hkind hepoch]
        intro x hx
        rcases List.mem_append.mp hx with hold | hnew
        · exact ih x hold
        · rw [List.mem_singleton.mp hnew]
          exact (Option.some.inj hepoch).symm
      · rw [Scan.push_skip hkind hepoch]
        exact ih
    | foreign schema kind epoch => exact ih

theorem exists_parses {A B : List Entry → Nat → Bool → Prop} (side : Side)
    (h : ∃ entries pos corrupt,
      Parsed g (layout.arenas side) scratchLen cells entries pos corrupt ∧ A entries pos corrupt)
    (h' : ∃ entries pos corrupt,
      Parsed g (layout.arenas side.other) scratchLen cells entries pos corrupt ∧
        B entries pos corrupt) :
    ∃ (entries : Side → List Entry) (pos : Side → Nat) (corrupt : Side → Bool),
      (∀ s, Parsed g (layout.arenas s) scratchLen cells (entries s) (pos s) (corrupt s)) ∧
      A (entries side) (pos side) (corrupt side) ∧
      B (entries side.other) (pos side.other) (corrupt side.other) := by
  obtain ⟨entries, pos, corrupt, hparsed, hA⟩ := h
  obtain ⟨entries', pos', corrupt', hparsed', hB⟩ := h'
  cases side with
  | first =>
    refine ⟨perSide entries entries', perSide pos pos', perSide corrupt corrupt', ?_, hA, hB⟩
    intro s
    cases s with
    | first => exact hparsed
    | second => exact hparsed'
  | second =>
    refine ⟨perSide entries' entries, perSide pos' pos, perSide corrupt' corrupt, ?_, hA, hB⟩
    intro s
    cases s with
    | first => exact hparsed'
    | second => exact hparsed

/-- The arena an opened journal is on. -/
def Opened.place (o : Opened) : Option (Side × UInt64) :=
  o.active.map fun cursor => (cursor.index, cursor.epoch)

theorem openedOf_none (layout : FlashJournalLayout) (h : selectedOf entries pos corrupt = none) :
    (openedOf layout entries pos corrupt).active = none ∧
      (openedOf layout entries pos corrupt).replayed = [] := by
  rw [openedOf, h]
  exact ⟨rfl, rfl⟩

theorem openedOf_some (layout : FlashJournalLayout) {epoch : UInt64}
    (h : selectedOf entries pos corrupt = some side)
    (hepoch : (stateOf (entries side) (pos side) (corrupt side)).epoch = some epoch) :
    (openedOf layout entries pos corrupt).active = some ⟨side, epoch,
        if (stateOf (entries side) (pos side) (corrupt side)).warning = none then pos side
        else (layout.arenas side).stop⟩ ∧
      (openedOf layout entries pos corrupt).replayed =
        restored (entries side) (pos side) (corrupt side) := by
  rw [openedOf, h]
  refine ⟨?_, rfl⟩
  simp only [openedWith, Option.map_some, cursorAt, hepoch, Option.getD_some]
  cases corrupt side <;> rfl

theorem Parsed.tail {entries : List Entry} {pos : Nat} {corrupt : Bool}
    (h : Parsed g (layout.arenas side) scratchLen cells entries pos corrupt)
    (hwarning : (stateOf entries pos corrupt).warning = none)
    (herased : Erased cells pos (layout.arenas side).stop) :
    corrupt = false ∧ (pos = (layout.arenas side).stop ∨
      Tail g layout scratchLen side cells entries pos) := by
  obtain ⟨stop, hlog, hstep⟩ := h
  constructor
  · cases corrupt with
    | false => rfl
    | true => exact nomatch hwarning
  rcases step_finish hstep with hpos | hpos
  · right
    rw [← hpos] at hlog
    exact ⟨hlog, herased⟩
  · exact Or.inl hpos

variable (hs : Sound g layout scratchLen)

include hs

theorem openedOf_inv (hclean : d.clean = true)
    (hparsed : ∀ s, Parsed g (layout.arenas s) scratchLen d.cells (entries s) (pos s) (corrupt s))
    (herased : ∀ s, selectedOf entries pos corrupt = some s →
      (stateOf (entries s) (pos s) (corrupt s)).warning = none →
      Erased d.cells (pos s) (layout.arenas s).stop) :
    JournalInv g layout scratchLen ⟨d, (openedOf layout entries pos corrupt).active, none⟩
      (.opened (openedOf layout entries pos corrupt)) := by
  have hcompaction (active : Option ArenaCursor) (l : Ledger) (h : l.erased = 0) :
      CompactionInv g layout scratchLen ⟨d, active, none⟩ l := by
    rw [CompactionInv]
    rw [h, Nat.zero_mul, Nat.add_zero]
    exact ⟨erased_self, Nat.le_of_lt (hs.nonempty _)⟩
  cases hselected : selectedOf entries pos corrupt with
  | none =>
    obtain ⟨hactive, hreplayed⟩ := openedOf_none layout hselected
    have hepochs := selectedOf_eq_none.mp hselected
    rw [Ledger.opened, hactive, hreplayed]
    refine ⟨hclean, ⟨⟨⟨_, _, _, hparsed .second, hepochs .second⟩, rfl, rfl⟩, Or.inl ?_⟩, rfl,
      hcompaction _ _ rfl⟩
    exact ⟨_, _, _, hparsed .first, hepochs .first⟩
  | some side =>
    obtain ⟨epoch, hepoch, houtranks⟩ := selectedOf_eq_some.mp hselected
    obtain ⟨hactive, hreplayed⟩ := openedOf_some layout hselected hepoch
    rw [Ledger.opened, hactive, hreplayed]
    have hidle : Idle g layout scratchLen d.cells side.other (Yields (some (side, epoch))) :=
      ⟨_, _, _, hparsed side.other, houtranks⟩
    refine ⟨hclean, ⟨?_, Or.inl hidle⟩, ⟨rfl, ?_⟩, hcompaction _ _ rfl⟩
    · exact ⟨_, _, _, hparsed side, hepoch, herased side hselected, Or.inl rfl⟩
    by_cases hwarning : (stateOf (entries side) (pos side) (corrupt side)).warning = none
    · rw [if_pos hwarning]
      obtain ⟨hcorrupt, hends⟩ := (hparsed side).tail hwarning (herased side hselected hwarning)
      refine hends.imp_right fun htail => ?_
      rw [hcorrupt] at hepoch hwarning ⊢
      exact ⟨_, htail, hepoch, hwarning, (restored_clean hepoch hwarning _).symm, rfl, hidle⟩
    · exact Or.inl (if_neg hwarning)

/-! ## What a flash replays -/

omit hs in
/-- What opening a flash again reports, by the ledger: the arena in use with its
records and possibly the append that was in flight, or, if its commit record is
complete, the arena that was compacted into. -/
def Recovered (cells : Image) (l : Ledger) (o : Opened) : Prop :=
  (o.place = l.active ∧ (o.replayed = l.acked ∨
      ∃ r, l.inFlight = some r ∧ o.replayed = l.acked ++ [r])) ∨
    ∃ pos, l.commitAt = some pos ∧ Complete cells pos (commitRecordOf l.nextEpoch) ∧
      o.place = some (l.target, l.nextEpoch) ∧ o.replayed = l.attempt

theorem FlashInv.parses (h : FlashInv g layout scratchLen cells l) :
    ∃ (entries : Side → List Entry) (pos : Side → Nat) (corrupt : Side → Bool),
      (∀ s, Parsed g (layout.arenas s) scratchLen cells (entries s) (pos s) (corrupt s)) ∧
      (∀ s, selectedOf entries pos corrupt = some s →
        (stateOf (entries s) (pos s) (corrupt s)).warning = none →
        Erased cells (pos s) (layout.arenas s).stop) ∧
      Recovered cells l (openedOf layout entries pos corrupt) := by
  rcases h.target with hidle | ⟨commitAt, hcommitAt, hplain, next, hland⟩
  · have hkept := h.kept
    rw [Kept] at hkept
    cases hactive : l.active with
    | none =>
      rw [hactive] at hkept hidle
      rw [Ledger.target, hactive] at hidle
      obtain ⟨hsecond, hacked, hflight⟩ := hkept
      obtain ⟨entries, pos, corrupt, hparsed, hfirst, hsecond⟩ := exists_parses .first hidle hsecond
      have hnone : selectedOf entries pos corrupt = none := by
        rw [selectedOf_eq_none]
        intro s
        cases s with
        | first => exact hfirst
        | second => exact hsecond
      obtain ⟨hopened, hreplayed⟩ := openedOf_none layout hnone
      refine ⟨entries, pos, corrupt, hparsed, ?_, Or.inl ⟨?_, Or.inl ?_⟩⟩
      · rw [hnone]
        simp
      · rw [Opened.place, hopened, hactive]
        rfl
      · rw [hreplayed, hacked]
    | some active =>
      obtain ⟨side, epoch⟩ := active
      rw [hactive] at hkept hidle
      rw [Ledger.target, hactive] at hidle
      obtain ⟨entries, pos, corrupt, hparsed, ⟨hepoch, herased, hrestored⟩, hyields⟩ :=
        exists_parses side hkept hidle
      have hselected : selectedOf entries pos corrupt = some side :=
        selectedOf_eq_some.mpr ⟨epoch, hepoch, hyields⟩
      obtain ⟨hopened, hreplayed⟩ := openedOf_some layout hselected hepoch
      refine ⟨entries, pos, corrupt, hparsed, ?_, Or.inl ⟨?_, ?_⟩⟩
      · intro s hside
        rw [hselected] at hside
        injection hside with hside
        rw [← hside]
        exact herased
      · rw [Opened.place, hopened, hactive]
        rfl
      · rw [hreplayed]
        exact hrestored
  · obtain ⟨hepoch, hwarning⟩ := tally_committed_state hplain
    obtain ⟨entries, pos, corrupt, hparsed, ⟨hentries, hpos, hcorrupt⟩, hyields⟩ :=
      exists_parses (A := fun entries pos corrupt =>
        entries = l.attempt.map .known ++ [.known (commitRecordOf l.nextEpoch)] ∧
          pos = next ∧ corrupt = false) l.target
        ⟨_, _, _, (hland.tail hs).parsed, rfl, rfl, rfl⟩ h.kept.yields
    have hstate : (stateOf (entries l.target) (pos l.target) (corrupt l.target)).epoch =
        some l.nextEpoch := by
      rw [hentries, hcorrupt]
      exact hepoch
    have hselected : selectedOf entries pos corrupt = some l.target :=
      selectedOf_eq_some.mpr ⟨_, hstate, hyields⟩
    obtain ⟨hopened, hreplayed⟩ := openedOf_some layout hselected hstate
    refine ⟨entries, pos, corrupt, hparsed, ?_,
      Or.inr ⟨commitAt, hcommitAt, hland.complete, ?_, ?_⟩⟩
    · intro s hside _
      rw [hselected] at hside
      injection hside with hside
      rw [← hside, hpos]
      exact (hland.tail hs).erased
    · rw [Opened.place, hopened]
      rfl
    · rw [hreplayed, hentries, hcorrupt, restored_clean hepoch hwarning, tally_committed hplain]

theorem FlashInv.reopens (h : FlashInv g layout scratchLen d.cells l) :
    ∃ o, openFlash g layout scratchLen d.quiet = (.ok o, d.quiet) ∧ Recovered d.cells l o ∧
      ∀ r ∈ o.replayed, o.place.map Prod.snd = some r.epoch := by
  obtain ⟨entries, pos, corrupt, hparsed, -, hrecovered⟩ := h.parses hs
  refine ⟨_, openFlash_quiet hs hparsed, hrecovered, ?_⟩
  cases hselected : selectedOf entries pos corrupt with
  | none =>
    rw [(openedOf_none layout hselected).2]
    exact nofun
  | some side =>
    obtain ⟨epoch, hepoch, -⟩ := selectedOf_eq_some.mp hselected
    obtain ⟨hactive, hreplayed⟩ := openedOf_some layout hselected hepoch
    rw [Opened.place, hactive, hreplayed]
    intro r hr
    unfold restored at hr
    split at hr
    · rw [hepoch] at hr
      rw [replayed_epoch _ _ r hr]
      rfl
    · cases hr

theorem FlashInv.opened (hclean : d.clean = true) (h : FlashInv g layout scratchLen d.cells l)
    {faults : List Fault} {d' : Device} {o : Opened}
    (hopen : openFlash g layout scratchLen (facing d faults) = (.ok o, d')) :
    JournalInv g layout scratchLen ⟨d', o.active, none⟩ (.opened o) := by
  -- what `open` returns is a matter of the cells
  have hreads := reads_openFlash g layout scratchLen
  have hquiet : openFlash g layout scratchLen d.quiet = (.ok o, d.quiet) :=
    hreads.quiet (facing d faults) o (by rw [hopen])
  obtain ⟨hcells, hclean'⟩ : d'.cells = d.cells ∧ d'.clean = d.clean := by
    have hkeeps := hreads.keeps (facing d faults)
    rwa [hopen] at hkeeps
  rw [← hcells] at h
  obtain ⟨entries, pos, corrupt, hparsed, herased, -⟩ := h.parses hs
  have hopened := openFlash_quiet hs hparsed
  rw [quiet_eq hcells hclean', hquiet] at hopened
  injection hopened with hopened
  injection hopened with hopened
  rw [hopened]
  exact openedOf_inv hs (hclean'.trans hclean) hparsed herased

theorem exists_parses_of_open {o : Opened}
    (h : openFlash g layout scratchLen d.quiet = (.ok o, d.quiet)) :
    ∃ (entries : Side → List Entry) (pos : Side → Nat) (corrupt : Side → Bool),
      ∀ s, Parsed g (layout.arenas s) scratchLen d.cells (entries s) (pos s) (corrupt s) := by
  have hok : (openFlash g layout scratchLen d.quiet).1 = .ok o := by rw [h]
  rw [openFlash, hs.validated] at hok
  obtain ⟨first, d', hfirst, hok⟩ := Act.of_bind_ok hok
  have hquiet := (reads_scanLoop g (layout.arenas .first) scratchLen none
    (layout.arenas .first).start ⟨none, none, []⟩).quiet d.quiet first
    (by rw [← scanArena, hfirst])
  have hd' : d' = d.quiet := congrArg Prod.snd (hfirst.symm.trans hquiet)
  obtain ⟨second, d'', hsecond, -⟩ := Act.of_bind_ok hok
  rw [hd'] at hsecond
  obtain ⟨entries, pos, corrupt, hfirst⟩ := exists_parsed hs .first (by rw [hfirst])
  obtain ⟨entries', pos', corrupt', hsecond⟩ := exists_parsed hs .second (by rw [hsecond])
  refine ⟨perSide entries entries', perSide pos pos', perSide corrupt corrupt', ?_⟩
  intro s
  cases s with
  | first => exact hfirst
  | second => exact hsecond

theorem Start.inv (h : Start g layout scratchLen s) : Inv g layout scratchLen s := by
  obtain ⟨d, o, rfl, hclean, hopen, herased⟩ := h
  obtain ⟨entries, pos, corrupt, hparsed⟩ := exists_parses_of_open hs hopen
  rw [openFlash_quiet hs hparsed] at hopen
  injection hopen with hopen
  injection hopen with hopen
  rw [← hopen] at herased ⊢
  refine ⟨hclean, (openedOf_inv hs hclean hparsed ?_).flash⟩
  intro s hselected hwarning
  obtain ⟨epoch, hepoch, -⟩ := selectedOf_eq_some.mp hselected
  have herased' := herased _ (openedOf_some layout hselected hepoch).1
  rw [if_pos hwarning] at herased'
  exact herased'

end

section

variable {j : FlashJournal}

theorem reads_confirmRecord (g : Geometry) (pos : Nat) (epoch : UInt64) (kind : RecordKind)
    (payload : List UInt8) : Reads (confirmRecord g pos epoch kind payload) := by
  apply ((reads_read g pos headerLen).mapError _).bind
  intro header
  cases confirmRecordHeader header epoch kind payload with
  | error e => exact reads_fail e
  | ok resolution =>
    cases resolution with
    | committed =>
      apply (reads_verifyChunks g (pos + headerLen) payload).bind
      intro _
      exact reads_pure _
    | notCommitted => exact reads_pure _

variable (hs : Sound g layout scratchLen)
include hs

theorem abortCompaction_inv (h : JournalInv g layout scratchLen j l) :
    JournalInv g layout scratchLen j.abortCompaction l := by
  refine ⟨h.clean, h.flash, h.active, ?_⟩
  have hinv := h.compaction
  unfold CompactionInv at hinv ⊢
  cases hcompaction : j.compaction with
  | none =>
    rw [hcompaction] at hinv
    exact hinv
  | some cursor =>
    rw [hcompaction] at hinv
    rw [hinv.2.2.1, Nat.zero_mul, Nat.add_zero]
    exact ⟨erased_self, Nat.le_of_lt (hs.nonempty _)⟩

theorem call_inv (h : JournalInv g layout scratchLen j l)
    (call : Call) (hallowed : Allowed g layout scratchLen l j call) :
    JournalInv g layout scratchLen (call.run g layout j).2
      (l.after g layout call j (call.run g layout j).2 (returned (call.run g layout j).1)) := by
  cases call with
  | initializeEmpty => exact initializeEmpty_inv hs h hallowed
  | append kind payload => exact append_inv hs h hallowed
  | confirmAppend pos kind payload =>
    -- confirming an append only reads
    show JournalInv g layout scratchLen (j.confirmAppend g layout pos kind payload).2 l
    unfold FlashJournal.confirmAppend
    repeat' split
    · exact h
    · exact h
    · exact h
    · next cursor _ _ _ =>
        have hkeeps := (reads_confirmRecord g pos cursor.epoch kind payload).keeps j.flash
        exact h.same_cells hkeeps.1 hkeeps.2
  | eraseInactiveSector sector => exact eraseInactiveSector_inv hs h hallowed
  | beginCompaction => exact beginCompaction_inv hs h hallowed
  | appendCompacted kind payload => exact appendCompacted_inv hs h hallowed
  | commitCompaction => exact commitCompaction_inv hs h
  | confirmCompactionCommit pos => exact confirmCompactionCommit_inv hs h hallowed _
  | abortCompaction => exact abortCompaction_inv hs h

theorem Move.inv {s s' : State} (h : Inv g layout scratchLen s)
    (hmove : Move g layout scratchLen s s') : Inv g layout scratchLen s' := by
  cases hmove with
  | call j l call faults hallowed r hrun =>
    have hfacing : JournalInv g layout scratchLen
        { j with flash := facing j.flash faults } l := JournalInv.same_cells h rfl rfl
    -- what a call may do and what the owner learns of it do not depend on the faults
    have hinv := call_inv hs hfacing call (by cases call <;> exact hallowed)
    rw [hrun] at hinv
    obtain ⟨outcome, j'⟩ := r
    rcases outcome with a | e | powered
    · cases call <;> exact hinv
    · cases call <;> exact hinv
    · cases powered with
      | true => cases call <;> exact hinv
      | false => cases call <;> exact ⟨hinv.clean, hinv.flash⟩
  | powerLoss j l => exact ⟨h.clean, h.flash⟩
  | opened d d' l faults o hopen => exact h.2.opened hs h.1 hopen
  | notOpened d d' l faults outcome hfail hopen =>
    have hkeeps := (reads_openFlash g layout scratchLen).keeps (facing d faults)
    rw [hopen] at hkeeps
    refine ⟨hkeeps.2.trans h.1, ?_⟩
    rw [show d'.cells = d.cells from hkeeps.1]
    exact h.2

theorem Reachable.inv (h : Reachable g layout scratchLen s) : Inv g layout scratchLen s := by
  induction h with
  | start hstart => exact hstart.inv hs
  | step _ hmove ih => exact hmove.inv hs ih

omit hs

theorem Inv.clean (h : Inv g layout scratchLen s) : s.world.flash.clean = true := by
  obtain ⟨world, l⟩ := s
  cases world with
  | off d => exact h.1
  | on j => exact JournalInv.clean h

theorem Inv.flash (h : Inv g layout scratchLen s) :
    FlashInv g layout scratchLen s.world.flash.cells s.ledger := by
  obtain ⟨world, l⟩ := s
  cases world with
  | off d => exact h.2
  | on j => exact JournalInv.flash h

end

end Prns.Ports.Journal
