import Prns.Ports.FlashJournalInvariant

/-!
# Every call keeps the invariant

One lemma per call, whatever faults it runs into. An append changes the kept
arena at its tail and a compaction changes the target; the other arena is a frame
in both cases.
-/

namespace Prns.Ports.Journal

open Verified
open Verified.NorFlash
open Ledger

variable {epoch : UInt64} {acked : List Record} {inFlight : Option Record} {records : List Record}
  {pos : Nat} {flash : Device} {l' : Ledger} {g : Geometry} {layout : FlashJournalLayout}
  {scratchLen : Nat} {side : Side} {cells : Image}

section

variable {cells' : Image}

def SameIn (layout : FlashJournalLayout) (side : Side) (cells cells' : Image) : Prop :=
  ∀ x, (layout.arenas side).start ≤ x → x < (layout.arenas side).stop → cells' x = cells x

variable (hs : Sound g layout scratchLen)

include hs

theorem Idle.congr {P : Option UInt64 → Prop} (h : Idle g layout scratchLen cells side P)
    (hsame : SameIn layout side cells cells') : Idle g layout scratchLen cells' side P := by
  obtain ⟨entries, pos, corrupt, hparsed, hP⟩ := h
  exact ⟨entries, pos, corrupt, hparsed.congr hs hsame, hP⟩

theorem Keeps.congr (h : Keeps g layout scratchLen cells side epoch acked inFlight)
    (hsame : SameIn layout side cells cells') :
    Keeps g layout scratchLen cells' side epoch acked inFlight := by
  obtain ⟨entries, pos, corrupt, hparsed, hepoch, herased, hrestored⟩ := h
  have hle := hparsed.start_le (hs.nonempty side)
  refine ⟨entries, pos, corrupt, hparsed.congr hs hsame, hepoch, ?_, hrestored⟩
  intro hwarning x hx hlt
  rw [hsame x (by omega) hlt]
  exact herased hwarning x hx hlt

theorem Committed.congr (h : Committed g layout scratchLen cells side epoch records pos)
    (hsame : SameIn layout side cells cells') :
    Committed g layout scratchLen cells' side epoch records pos := by
  obtain ⟨hplain, next, hlanded⟩ := h
  exact ⟨hplain, next, hlanded.congr hs hsame⟩

theorem Kept.congr {l : Ledger} (h : Kept g layout scratchLen cells l)
    (hsame : SameIn layout l.target.other cells cells') : Kept g layout scratchLen cells' l := by
  unfold Kept target at *
  cases hactive : l.active with
  | none =>
    rw [hactive] at h hsame
    exact ⟨h.1.congr hs hsame, h.2⟩
  | some active =>
    rw [hactive] at h hsame
    simp only [Side.other_other] at hsame
    exact h.congr hs hsame

end

section

variable {entries : List Entry} {r : Record}

theorem tally_append (hkind : r.kind ≠ .arenaCommit) (entries : List Entry) :
    (tally none (entries ++ [.known r])).committedEpoch = (tally none entries).committedEpoch ∧
    (tally none (entries ++ [.known r])).warning = (tally none entries).warning ∧
    (tally (some r.epoch) (entries ++ [.known r])).replayed =
      (tally (some r.epoch) entries).replayed ++ [r] := by
  rw [tally_snoc, tally_snoc, Scan.push_skip hkind (Option.some_ne_none r.epoch).symm,
    Scan.push_replay hkind rfl]
  exact ⟨rfl, rfl, rfl⟩

theorem restored_clean (hepoch : (tally none entries).committedEpoch = some epoch)
    (hwarning : (tally none entries).warning = none) (pos : Nat) :
    restored entries pos false = (tally (some epoch) entries).replayed := by
  rw [restored, stateOf_clean, if_pos hwarning]
  rw [hepoch]

theorem keeps_of_parsed (h : Parsed g (layout.arenas side) scratchLen cells entries pos false)
    (herased : Erased cells pos (layout.arenas side).stop)
    (hepoch : (tally none entries).committedEpoch = some epoch)
    (hwarning : (tally none entries).warning = none)
    (hreplay : (tally (some epoch) entries).replayed = acked ∨
      ∃ r, inFlight = some r ∧ (tally (some epoch) entries).replayed = acked ++ [r]) :
    Keeps g layout scratchLen cells side epoch acked inFlight := by
  refine ⟨entries, pos, false, h, hepoch, fun _ => herased, ?_⟩
  rw [restored_clean hepoch hwarning]
  exact hreplay

end

variable {j : FlashJournal} {l : Ledger}

section

theorem returned_eq_false {ε α : Type} {o : Outcome ε α} (h : ∀ a, o ≠ .ok a) :
    returned o = false := by
  cases o with
  | ok a => exact absurd rfl (h a)
  | error e => rfl
  | stopped powered => rfl

theorem append_refused (kind : RecordKind) (payload : List UInt8)
    (h : ∀ cursor, j.active = some cursor → kind = .arenaCommit ∨ j.compaction.isSome = true ∨
      accepts g (layout.arenas cursor.index) cursor payload.length = false) :
    ∃ e, j.append g layout kind payload = (.error e, j) := by
  unfold FlashJournal.append
  by_cases hkind : kind = .arenaCommit
  · rw [if_pos hkind]
    exact ⟨_, rfl⟩
  rw [if_neg hkind]
  by_cases hcompaction : j.compaction.isSome = true
  · rw [if_pos hcompaction]
    exact ⟨_, rfl⟩
  rw [if_neg hcompaction]
  cases hactive : j.active with
  | none => exact ⟨_, rfl⟩
  | some cursor =>
    have haccepts := ((h cursor hactive).resolve_left hkind).resolve_left hcompaction
    obtain ⟨e, he⟩ := writeCursorRecord_refused kind payload (w := ⟨j.flash, cursor⟩) haccepts
    refine ⟨e, ?_⟩
    simp only
    rw [he, ← hactive]

variable {cursor : ArenaCursor} {kind : RecordKind} {payload : List UInt8}

theorem append_eq (hactive : j.active = some cursor) (hkind : kind ≠ .arenaCommit)
    (hcompaction : j.compaction = none) :
    j.append g layout kind payload =
      let result := writeCursorRecord g (layout.arenas cursor.index) kind payload ⟨j.flash, cursor⟩
      (result.1, ⟨result.2.flash, some result.2.cursor, none⟩) := by
  rw [FlashJournal.append, if_neg hkind, hcompaction, if_neg (by decide), hactive]

theorem JournalInv.tail (h : JournalInv g layout scratchLen j l) {len : Nat}
    (hactive : j.active = some cursor)
    (haccepts : accepts g (layout.arenas cursor.index) cursor len = true) :
    l.active = some (cursor.index, cursor.epoch) ∧
    ∃ entries, Tail g layout scratchLen cursor.index j.flash.cells entries cursor.appendAt ∧
      (tally none entries).committedEpoch = some cursor.epoch ∧
      (tally none entries).warning = none ∧
      (tally (some cursor.epoch) entries).replayed = l.acked ∧
      l.inFlight = none ∧
      Idle g layout scratchLen j.flash.cells l.target (Yields l.active) := by
  have hinv := h.active
  rw [ActiveInv, hactive] at hinv
  refine ⟨hinv.1, hinv.2.resolve_left fun hclosed => ?_⟩
  rw [accepts_closed hclosed] at haccepts
  exact nomatch haccepts

/-- The kept arena changed and the ledger with it; nothing else did. -/
theorem JournalInv.of_kept (hs : Sound g layout scratchLen) (h : JournalInv g layout scratchLen j l)
    (cursor : ArenaCursor) (hcompaction : j.compaction = none)
    (hledger : l.active = some (cursor.index, cursor.epoch))
    (hl : l'.active = l.active ∧ l'.attempt = l.attempt ∧ l'.commitAt = l.commitAt ∧
      l'.erased = l.erased) (hclean : flash.clean = j.flash.clean)
    (hother : OtherSame layout cursor.index j.flash.cells flash.cells)
    (hkeeps : Keeps g layout scratchLen flash.cells cursor.index cursor.epoch l'.acked l'.inFlight)
    (hactive : cursor.appendAt = (layout.arenas cursor.index).stop ∨
      ∃ entries, Tail g layout scratchLen cursor.index flash.cells entries cursor.appendAt ∧
        (tally none entries).committedEpoch = some cursor.epoch ∧
        (tally none entries).warning = none ∧
        (tally (some cursor.epoch) entries).replayed = l'.acked ∧ l'.inFlight = none ∧
        Idle g layout scratchLen j.flash.cells l.target (Yields l.active)) :
    JournalInv g layout scratchLen ⟨flash, some cursor, none⟩ l' := by
  obtain ⟨hlactive, hattempt, hcommitAt, herased⟩ := hl
  have htarget : l'.target = l.target := by rw [target, target, hlactive]
  have hnext : l'.nextEpoch = l.nextEpoch := by
    rw [nextEpoch, nextEpoch, hlactive]
  have hsame : SameIn layout l.target j.flash.cells flash.cells := by
    rw [target, hledger]
    exact hother
  refine ⟨hclean.trans h.clean, ⟨?_, ?_⟩, ⟨hlactive.trans hledger, ?_⟩, ?_⟩
  · rw [Kept, hlactive, hledger]
    exact hkeeps
  · rw [htarget, hlactive, hcommitAt, hnext, hattempt]
    rcases h.flash.target with hidle | ⟨pos, hpos, hcommitted⟩
    · exact Or.inl (hidle.congr hs hsame)
    · exact Or.inr ⟨pos, hpos, hcommitted.congr hs hsame⟩
  · refine hactive.imp_right ?_
    rintro ⟨entries, htail, hepoch, hwarning, hreplay, hflight, hidle⟩
    refine ⟨entries, htail, hepoch, hwarning, hreplay, hflight, ?_⟩
    rw [htarget, hlactive]
    exact hidle.congr hs hsame
  · show Erased flash.cells _ _ ∧ _
    rw [htarget, herased]
    have hinv := h.compaction
    rw [CompactionInv, hcompaction] at hinv
    refine ⟨fun x hx hlt => ?_, hinv.2⟩
    rw [hsame x hx (Nat.lt_of_lt_of_le hlt hinv.2)]
    exact hinv.1 x hx hlt

theorem append_inv (hs : Sound g layout scratchLen) (h : JournalInv g layout scratchLen j l)
    (hfits : Fits g scratchLen payload) :
    JournalInv g layout scratchLen (j.append g layout kind payload).2
      (l.after g layout (.append kind payload) j (j.append g layout kind payload).2
        (returned (j.append g layout kind payload).1)) := by
  unfold after
  cases hactive : j.active with
  | none =>
    obtain ⟨e, he⟩ := append_refused kind payload (g := g) (j := j)
      (fun cursor hcursor => by rw [hactive] at hcursor; cases hcursor)
    rw [he]
    exact h
  | some cursor =>
    simp only
    split
    · next hrefused =>
        obtain ⟨e, he⟩ := append_refused kind payload (j := j) (fun cursor' hcursor => by
          rw [hactive] at hcursor
          injection hcursor with hcursor
          rw [← hcursor]
          exact hrefused)
        rw [he]
        exact h
    · next haccepted =>
        simp only [not_or, Bool.not_eq_true, Bool.not_eq_false,
          Option.isSome_eq_false_iff, Option.isNone_iff_eq_none] at haccepted
        obtain ⟨hkind, hcompaction, haccepts⟩ := haccepted
        obtain ⟨hledger, entries, htail, hepoch, hwarning, hreplay, hflight, hidle⟩ :=
          h.tail hactive haccepts
        have hlanded := tally_append (r := ⟨cursor.epoch, kind, payload⟩) hkind entries
        rw [hepoch, hwarning, hreplay] at hlanded
        rw [append_eq hactive hkind hcompaction]
        have hwrite := (ensures_writeCursorRecord_tail hs (w := ⟨j.flash, cursor⟩)
          (r := ⟨cursor.epoch, kind, payload⟩) htail rfl haccepts hfits
          (fun hcommit => absurd hcommit hkind)).cases
        simp only
        generalize writeCursorRecord g (layout.arenas cursor.index) kind payload
          ⟨j.flash, cursor⟩ = result at hwrite ⊢
        rcases hwrite with ⟨a, hok, next, hcursor, hland, hother, hclean⟩ |
          ⟨hnot, hcursor, hunfinished, hother, hclean⟩
        · rw [if_pos (by rw [hok]; rfl), hcursor]
          refine h.of_kept hs { cursor with appendAt := next } hcompaction hledger
            ⟨rfl, rfl, rfl, rfl⟩ hclean hother ?_ (Or.inr ?_)
          · exact keeps_of_parsed (hland.tail hs).parsed (hland.tail hs).erased hlanded.1 hlanded.2.1
              (Or.inl hlanded.2.2)
          · exact ⟨_, hland.tail hs, hlanded.1, hlanded.2.1, hlanded.2.2, hflight, hidle⟩
        · rw [returned_eq_false hnot, if_neg Bool.false_ne_true, hcursor]
          refine h.of_kept hs { cursor with appendAt := (layout.arenas cursor.index).stop }
            hcompaction hledger ⟨rfl, rfl, rfl, rfl⟩ hclean hother ?_ (Or.inl rfl)
          rcases hunfinished with hsame | ⟨-, hparsed⟩ | ⟨next, hland⟩
          · rw [hsame]
            exact keeps_of_parsed htail.parsed htail.erased hepoch hwarning (Or.inl hreplay)
          · exact keeps_of_parsed hparsed erased_self hepoch hwarning (Or.inl hreplay)
          · exact keeps_of_parsed (hland.tail hs).parsed (hland.tail hs).erased hlanded.1 hlanded.2.1
              (Or.inr ⟨_, rfl, hlanded.2.2⟩)

end

section

theorem yields_none (active : Option (Side × UInt64)) : Yields active none := by
  cases active with
  | none => rfl
  | some active => exact trivial

variable {active : Option (Side × UInt64)}

theorem idle_of_plain (hplain : Plain epoch records)
    (h : Parsed g (layout.arenas side) scratchLen cells (records.map .known) pos false) :
    Idle g layout scratchLen cells side (Yields active) := by
  refine ⟨_, pos, false, h, ?_⟩
  have hepoch := (tally_epoch (some epoch) (records.map .known)).1
  rw [tally_plain hplain] at hepoch
  rw [stateOf_clean, ← hepoch]
  exact yields_none active

theorem idle_of_erased_start (h : cells (layout.arenas side).start = 0xFF) :
    Idle g layout scratchLen cells side (Yields active) := by
  obtain ⟨pos, corrupt, hparsed⟩ := parsed_of_erased_start (g := g) h
  refine ⟨[], pos, corrupt, hparsed, ?_⟩
  cases corrupt <;> exact yields_none active

theorem inactiveIndex_eq (h : ActiveInv g layout scratchLen j l) :
    j.inactiveIndex = l.target ∧ j.nextEpoch = l.nextEpoch := by
  unfold ActiveInv at h
  unfold FlashJournal.inactiveIndex target FlashJournal.nextEpoch nextEpoch
  cases hactive : j.active with
  | none =>
    rw [hactive] at h
    rw [h]
    exact ⟨rfl, rfl⟩
  | some cursor =>
    rw [hactive] at h
    rw [h.1]
    exact ⟨rfl, rfl⟩

theorem JournalInv.of_target (hs : Sound g layout scratchLen)
    (h : JournalInv g layout scratchLen j l) {active compaction : Option ArenaCursor}
    (hclean : flash.clean = j.flash.clean)
    (hother : OtherSame layout l.target j.flash.cells flash.cells)
    (htarget : Idle g layout scratchLen flash.cells l.target (Yields l.active) ∨
      ∃ pos, l'.commitAt = some pos ∧
        Committed g layout scratchLen flash.cells l.target l.nextEpoch l'.attempt pos)
    (hactive : active = j.active ∧
        (Idle g layout scratchLen j.flash.cells l.target (Yields l.active) →
          Idle g layout scratchLen flash.cells l.target (Yields l.active)) ∨
      active = FlashJournal.closeActive layout j.active)
    (hcompaction : CompactionInv g layout scratchLen ⟨flash, active, compaction⟩ l')
    (hl : l'.active = l.active ∧ l'.acked = l.acked ∧ l'.inFlight = l.inFlight := by
      exact ⟨rfl, rfl, rfl⟩) : JournalInv g layout scratchLen ⟨flash, active, compaction⟩ l' := by
  obtain ⟨hlactive, hacked, hflight⟩ := hl
  have hside : l'.target = l.target := by rw [target, target, hlactive]
  have hnext : l'.nextEpoch = l.nextEpoch := by
    rw [nextEpoch, nextEpoch, hlactive]
  refine ⟨hclean.trans h.clean, ⟨?_, ?_⟩, ?_, hcompaction⟩
  · have hkept := h.flash.kept.congr hs hother
    unfold Kept at hkept ⊢
    rw [hlactive, hacked, hflight]
    exact hkept
  · rw [hside, hlactive, hnext]
    exact htarget
  have hold := h.active
  unfold ActiveInv at hold ⊢
  rcases hactive with ⟨rfl, hidle⟩ | rfl
  · cases hcase : j.active with
    | none =>
      rw [hcase] at hold
      exact hlactive.trans hold
    | some cursor =>
      rw [hcase] at hold
      refine ⟨hlactive.trans hold.1, hold.2.imp_right ?_⟩
      rintro ⟨entries, htail, hepoch, hwarning, hreplay, hnone, hyields⟩
      have hsame : SameIn layout cursor.index j.flash.cells flash.cells := by
        have htarget' : l.target.other = cursor.index := by
          rw [target, hold.1, Side.other_other]
        rw [← htarget']
        exact hother
      refine ⟨entries, htail.congr hs hsame, hepoch, hwarning, hreplay.trans hacked.symm,
        hflight.trans hnone, ?_⟩
      rw [hside, hlactive]
      exact hidle hyields
  · cases hcase : j.active with
    | none =>
      rw [hcase] at hold
      exact hlactive.trans hold
    | some cursor =>
      rw [hcase] at hold
      exact ⟨hlactive.trans hold.1, Or.inl rfl⟩

theorem JournalInv.same_cells (h : JournalInv g layout scratchLen j l)
    (hcells : flash.cells = j.flash.cells) (hclean : flash.clean = j.flash.clean) :
    JournalInv g layout scratchLen { j with flash } l := by
  refine ⟨hclean.trans h.clean, ?_, ?_, ?_⟩
  · rw [hcells]
    exact h.flash
  · have hactive := h.active
    unfold ActiveInv at hactive ⊢
    rw [hcells]
    exact hactive
  · have hcompaction := h.compaction
    unfold CompactionInv at hcompaction ⊢
    rw [hcells]
    exact hcompaction

end

end Prns.Ports.Journal
