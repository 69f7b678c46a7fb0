import Prns.Ports.FlashJournalConfirm

/-!
# The room for a record

`active_can_fit` answers before an append whether its record fits. It pads the record to
the write granularity, and the append pads it to the greater of the two granularities. The
answers agree if a sector can be read as a whole: the room that is left then has no end
that is shorter than a read.
-/

namespace Prns.Ports.Journal

open Verified
open Verified.NorFlash

/-- `flash_journal_record_storage_len`. -/
def recordStorageLen (payloadLen alignment : Nat) : Nat :=
  let remainder := payloadLen % alignment
  let padded := if remainder = 0 then payloadLen else payloadLen + alignment - remainder
  headerLen + padded

namespace FlashJournal

variable (g : Geometry) (layout : FlashJournalLayout)

def activeRemainingBytes (j : FlashJournal) : Option Nat :=
  j.active.map fun cursor => (layout.arenas cursor.index).stop - cursor.appendAt

def activeCanFit (j : FlashJournal) (payloadLen reserveBytes : Nat) : Bool :=
  let required := min usizeMax (recordStorageLen payloadLen g.writeSize + reserveBytes)
  (j.activeRemainingBytes layout).any (required ≤ ·)

end FlashJournal

variable {g : Geometry} {layout : FlashJournalLayout} {scratchLen : Nat}

section

variable {α β : Type} {f : Act Device JournalError α}

def NotFull (f : Act Device JournalError α) : Prop := ∀ d, (f d).1 ≠ .error .arenaFull

theorem NotFull.bind {k : α → Act Device JournalError β} (hf : NotFull f)
    (hk : ∀ a, NotFull (k a)) : NotFull (f >>= k) := by
  intro d h
  rw [Act.bind_apply, Act.andThen] at h
  split at h
  · exact hk _ _ h
  · next e d' hrun =>
      cases h
      exact hf d (by rw [hrun])
  · cases h

variable {f : Act Device FlashError α}

theorem notFull_flash : NotFull (f.mapError .flash) := by
  intro d h
  rw [Act.mapError] at h
  split at h <;> cases h

theorem notFull_attempt : NotFull (f.attempt : Act Device JournalError _) := by
  intro d h
  rw [Act.attempt] at h
  split at h <;> cases h

end

theorem notFull_writePayload (payloadAt : Nat) (remaining : List UInt8) :
    NotFull (writePayload g payloadAt remaining) := by
  fun_induction writePayload g payloadAt remaining with
  | case1 => exact nofun
  | case2 => exact nofun
  | case3 _ _ _ _ _ _ _ _ ih => exact notFull_flash.bind fun _ => ih

theorem notFull_verifyChunks (payloadAt : Nat) (remaining : List UInt8) :
    NotFull (verifyChunks g payloadAt remaining) := by
  fun_induction verifyChunks g payloadAt remaining with
  | case1 => exact nofun
  | case2 => exact nofun
  | case3 _ _ _ _ _ _ ih =>
    refine notFull_flash.bind fun bytes => ?_
    split
    · exact nofun
    · exact ih

variable {arena : FlashArenaRange}

theorem notFull_writeRecord {pos next : Nat} (epoch : UInt64) (kind : RecordKind)
    (payload : List UInt8) (hend : recordEnd g pos payload.length = some next)
    (hfits : ¬(pos < arena.start ∨ arena.stop < next)) :
    NotFull (writeRecord g arena pos epoch kind payload) := by
  unfold writeRecord
  split
  · exact nofun
  simp only [hend]
  rw [if_neg hfits]
  refine NotFull.bind ?_ fun _ => ?_
  · refine notFull_flash.bind fun _ => (notFull_writePayload _ _).bind fun _ =>
      notFull_flash.bind fun header => ?_
    split
    · exact nofun
    · exact notFull_verifyChunks _ _
  · refine notFull_attempt.bind fun commitResult => notFull_attempt.bind fun readback => ?_
    repeat' split
    all_goals exact nofun

theorem writeCursorRecord_full_iff {w : CursorOnFlash} {next : Nat} (kind : RecordKind)
    (payload : List UInt8) (hend : recordEnd g w.cursor.appendAt payload.length = some next) :
    (writeCursorRecord g arena kind payload w).1 = .error .arenaFull ↔
      accepts g arena w.cursor payload.length = false := by
  simp only [writeCursorRecord, accepts, hend]
  by_cases hfits : w.cursor.appendAt < arena.start ∨ arena.stop < next
  · rw [if_pos hfits]
    simp
    omega
  have hnot := notFull_writeRecord w.cursor.epoch kind payload hend hfits w.flash
  have haccepts : arena.start ≤ w.cursor.appendAt ∧ next ≤ arena.stop := by omega
  rw [if_neg hfits]
  simp only [haccepts, decide_true, Bool.and_self, Bool.true_eq_false, iff_false]
  intro h
  split at h <;> cases h
  next hrun => exact hnot (by rw [hrun])

/-! ## The two paddings -/

theorem recordStorageLen_eq {len alignment padded : Nat} (hpos : 0 < alignment)
    (h : alignUp len alignment = some padded) :
    recordStorageLen len alignment = headerLen + padded := by
  have hlt := Nat.mod_lt len hpos
  unfold alignUp checkedAdd at h
  unfold recordStorageLen
  split_ifs at h with hrem
  · cases h
    simp [hrem]
  · cases h
    simp only [if_neg hrem]
    omega

theorem fits_iff_accepts (hs : Sound g layout scratchLen) {cursor : ArenaCursor} {len next : Nat}
    (hstop : arena.stop % g.readSize = 0) (hpos : cursor.appendAt % g.readSize = 0)
    (hstart : arena.start ≤ cursor.appendAt) (hle : cursor.appendAt ≤ arena.stop)
    (hend : recordEnd g cursor.appendAt len = some next) :
    min usizeMax (recordStorageLen len g.writeSize) ≤ arena.stop - cursor.appendAt ↔
      accepts g arena cursor len = true := by
  obtain ⟨wide, hwide, rfl, hwideMax⟩ := recordEnd_eq_some hend
  obtain ⟨hlen, hmod, hleast⟩ := alignUp_spec hs.io_pos hwide
  have hwrite := Nat.le_of_dvd (by decide) (Nat.dvd_of_mod_eq_zero hs.header_write)
  obtain ⟨narrow, hnarrow⟩ : ∃ narrow, alignUp len g.writeSize = some narrow :=
    exists_alignUp hs.write_pos (by unfold usizeMax u32Max headerLen at *; omega)
  obtain ⟨hlen', hmod', hleast'⟩ := alignUp_spec hs.write_pos hnarrow
  have hle' := hleast' wide hlen
    (Nat.mod_eq_zero_of_dvd (hs.write_dvd_io.trans (Nat.dvd_of_mod_eq_zero hmod)))
  have haccepts : accepts g arena cursor len = true ↔
      cursor.appendAt + headerLen + wide ≤ arena.stop := by simp [accepts, hend, hstart]
  rw [haccepts, recordStorageLen_eq hs.write_pos hnarrow,
    Nat.min_eq_right (by unfold usizeMax u32Max at *; omega)]
  refine ⟨fun hroom => ?_, fun hroom => by omega⟩
  by_cases hio : g.readSize ≤ g.writeSize
  · have := hleast narrow hlen' (by rwa [ioAlignment, Nat.max_eq_left hio])
    omega
  -- the room that is left is whole reads
  have hdvd := Nat.dvd_sub (Nat.dvd_sub (Nat.dvd_of_mod_eq_zero hstop)
    (Nat.dvd_of_mod_eq_zero hpos)) (Nat.dvd_of_mod_eq_zero hs.header_read)
  have hmultiple : (arena.stop - cursor.appendAt - headerLen) % ioAlignment g = 0 := by
    rw [ioAlignment, Nat.max_eq_right (by omega)]
    exact Nat.mod_eq_zero_of_dvd hdvd
  have := hleast _ (by omega) hmultiple
  omega

/-- Arenas of 70 bytes, which reads of four bytes do not divide. -/
def oddGeometry : Geometry := ⟨4, 1, 2, 256⟩

def oddLayout : FlashJournalLayout := ⟨perSide 144 146, perSide ⟨0, 70⟩ ⟨72, 142⟩⟩

def oddJournal : FlashJournal :=
  (FlashJournal.initializeEmpty oddGeometry oddLayout ⟨blankFlash, none, none⟩).2

end Prns.Ports.Journal
