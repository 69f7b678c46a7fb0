import Prns.Ports.FlashJournalScan

/-!
# Arenas and opening

An arena as a scan finds it: its records, the append position and whether the scan
ended at something corrupt. `open` scans both arenas, selects one and replays it;
without faults all of that is a function of what the two arenas hold
(`openFlash_quiet`).

The three ways an interrupted write can leave the record it was at are erased, torn
and complete; a turn of the scan tells them apart by the first and the last byte of
the header.
-/

namespace Prns.Ports.Journal

open Verified
open Verified.NorFlash
open Persistence

/-- The records of an arena, the append position a scan reports, and whether the
scan ended at something corrupt. -/
def Parsed (g : Geometry) (arena : FlashArenaRange) (scratchLen : Nat) (cells : Image)
    (entries : List Entry) (pos : Nat) (corrupt : Bool) : Prop :=
  ∃ stop, Log g arena scratchLen cells arena.start entries stop ∧
    step g arena scratchLen cells stop = .finish pos corrupt

def stateOf (entries : List Entry) (pos : Nat) (corrupt : Bool) : ArenaState :=
  ((tally none entries).finish pos corrupt).1

section

variable {g : Geometry} {layout : FlashJournalLayout} {scratchLen : Nat} {side : Side}
  {cells cells' : Image} {entries : List Entry} {pos : Nat} {corrupt : Bool}

section

variable {start stop : Nat} (hs : Sound g layout scratchLen) (hstart : start % g.readSize = 0)
include hs hstart

theorem Log.aligned (h : Log g (layout.arenas side) scratchLen cells start entries stop) :
    stop % g.readSize = 0 := by
  induction h with
  | nil pos => exact hstart
  | cons hstep _ ih => exact ih (hs.recordEnd_aligned hstart (step_record hstep).2.1)

theorem scanLoop_log (replayEpoch : Option UInt64) (d : Device)
    (h : Log g (layout.arenas side) scratchLen d.cells start entries stop) (s : Scan) :
    scanLoop g (layout.arenas side) scratchLen replayEpoch start s d.quiet =
      scanLoop g (layout.arenas side) scratchLen replayEpoch stop
        (entries.foldl (Scan.push replayEpoch) s) d.quiet := by
  induction h generalizing s with
  | nil pos => rfl
  | cons hstep _ ih =>
    rw [scanLoop_quiet hs replayEpoch hstart, hstep]
    exact ih (hs.recordEnd_aligned hstart (step_record hstep).2.1) (s.push replayEpoch _)

end

variable {d : Device} {r : Record}

theorem Parsed.scan (hs : Sound g layout scratchLen)
    (h : Parsed g (layout.arenas side) scratchLen d.cells entries pos corrupt)
    (replayEpoch : Option UInt64) :
    scanArena g (layout.arenas side) scratchLen replayEpoch d.quiet =
      (.ok (stateOf entries pos corrupt, (tally replayEpoch entries).replayed), d.quiet) := by
  obtain ⟨stop, hlog, hstep⟩ := h
  obtain ⟨hepoch, hwarning⟩ := tally_epoch replayEpoch entries
  rw [scanArena, scanLoop_log hs (hs.aligned side) replayEpoch d hlog ⟨none, none, []⟩,
    scanLoop_quiet hs replayEpoch (hlog.aligned hs (hs.aligned side)), hstep, ← tally]
  cases corrupt <;> simp [Scan.finish, Scan.stopAt, stateOf, hepoch, hwarning]

theorem exists_parsed (hs : Sound g layout scratchLen) (side : Side) {replayEpoch : Option UInt64}
    {result : ArenaState × List Record}
    (h : (scanArena g (layout.arenas side) scratchLen replayEpoch d.quiet).1 = .ok result) :
    ∃ entries pos corrupt,
      Parsed g (layout.arenas side) scratchLen d.cells entries pos corrupt := by
  obtain ⟨entries, stop, hlog, hend⟩ :=
    exists_log g (layout.arenas side) scratchLen d.cells (layout.arenas side).start
  cases hstep : step g (layout.arenas side) scratchLen d.cells stop with
  | record entry next => exact absurd hstep (hend entry next)
  | finish pos corrupt => exact ⟨entries, pos, corrupt, stop, hlog, hstep⟩
  | refuse e =>
    rw [scanArena, scanLoop_log hs (hs.aligned side) replayEpoch d hlog ⟨none, none, []⟩,
      scanLoop_quiet hs replayEpoch (hlog.aligned hs (hs.aligned side)), hstep] at h
    exact nomatch h

variable {arena : FlashArenaRange}

theorem Parsed.start_le (harena : arena.start < arena.stop)
    (h : Parsed g arena scratchLen cells entries pos corrupt) : arena.start ≤ pos := by
  obtain ⟨stop, hlog, hstep⟩ := h
  have hle := hlog.le
  rcases step_finish hstep with hpos | hpos <;> omega

theorem Parsed.congr (hs : Sound g layout scratchLen)
    (h : Parsed g (layout.arenas side) scratchLen cells entries pos corrupt)
    (hcells : ∀ x, (layout.arenas side).start ≤ x → x < (layout.arenas side).stop →
      cells' x = cells x) :
    Parsed g (layout.arenas side) scratchLen cells' entries pos corrupt := by
  obtain ⟨stop, hlog, hstep⟩ := h
  have hle := hlog.le
  have hstop := hlog.stop_le (Nat.le_of_lt (hs.nonempty side))
  refine ⟨stop, hlog.congr hs.io_pos ?_, ?_⟩
  · intro x hx hlt
    exact hcells x hx (by omega)
  · rw [← hstep]
    apply step_congr hs.io_pos
    intro x hx hlt
    exact hcells x (by omega) hlt

/-! ## Erased, torn and complete records -/

theorem parsed_of_erased_start (h : cells arena.start = 0xFF) :
    ∃ pos corrupt, Parsed g arena scratchLen cells [] pos corrupt := by
  have hstep : ∃ pos corrupt, step g arena scratchLen cells arena.start = .finish pos corrupt := by
    unfold step
    split
    · suffices hmagic : (slice cells arena.start headerLen).take 4 ≠ magic by
        unfold judge
        simp only [if_pos hmagic]
        repeat' split
        all_goals exact ⟨_, _, rfl⟩
      intro hmagic
      have hhead : (slice cells arena.start headerLen)[0]? = some 0xFF := by
        rw [getElem?_slice (by decide), Nat.add_zero, h]
      have htake := congrArg (fun l : List UInt8 => l[0]?) hmagic
      rw [List.getElem?_take_of_lt (by decide), hhead] at htake
      exact absurd htake (by decide)
    · exact ⟨_, _, rfl⟩
  obtain ⟨pos, corrupt, hstep⟩ := hstep
  exact ⟨pos, corrupt, arena.start, .nil _, hstep⟩

theorem step_erased (h : Erased cells pos arena.stop) :
    step g arena scratchLen cells pos = .finish pos false := by
  unfold step
  split
  · next hroom =>
      rw [judge, if_pos (slice_all_iff.mpr (h.mono hroom))]
  · rfl

/-- The last byte of the commit word is not erased. -/
theorem not_committed {headerBytes : List UInt8} (hlen : headerBytes.length = headerLen)
    (h : headerBytes[31]? = some 0xFF) : (parseHeader headerBytes).committed = false := by
  obtain ⟨front, hfront⟩ : ∃ b0 b1 b2, field headerBytes commitOffset headerLen =
      [b0, b1, b2, 0xFF] := by
    have hall : field headerBytes commitOffset headerLen = headerBytes.drop commitOffset := by
      rw [field, List.take_of_length_le (Nat.le_of_eq hlen)]
    rw [hall]
    have hdrop : (headerBytes.drop commitOffset).length = 4 := by
      rw [List.length_drop, hlen]
      rfl
    match hbytes : headerBytes.drop commitOffset, hdrop with
    | [b0, b1, b2, b3], _ =>
      have hlast : (headerBytes.drop commitOffset)[3]? = some 0xFF := by
        rw [List.getElem?_drop]
        exact h
      rw [hbytes] at hlast
      injection hlast with hlast
      exact ⟨b0, b1, b2, by rw [← hlast]⟩
  obtain ⟨b1, b2, hbytes⟩ := hfront
  apply decide_eq_false
  rw [hbytes]
  unfold ofLeBytes ofLeBytes ofLeBytes ofLeBytes ofLeBytes commitWord
  have hff : (0xFF : UInt8).toNat = 255 := rfl
  omega

theorem step_torn (hroom : pos + headerLen ≤ arena.stop)
    (hstarted : cells pos ≠ 0xFF) (hopen : cells (pos + 31) = 0xFF) :
    step g arena scratchLen cells pos = .finish arena.stop false := by
  have hblank : ¬ (slice cells pos headerLen).all (· == 0xFF) = true := by
    intro hall
    exact hstarted (slice_all_iff.mp hall pos Nat.le.refl (by unfold headerLen; omega))
  have hcommit : (parseHeader (slice cells pos headerLen)).committed = false := by
    apply not_committed (length_slice ..)
    rw [getElem?_slice (by decide), hopen]
  rw [step, if_pos hroom, judge, if_neg hblank]
  simp only
  rw [hcommit]
  rfl

theorem parseHeader_recordHeader (epoch : UInt64) (kind : RecordKind) {payloadLen : Nat}
    (h : payloadLen ≤ u32Max) (checksum : UInt32) :
    parseHeader (recordHeader epoch kind payloadLen checksum true) =
      ⟨schemaVersion, kind.toWire, epoch, payloadLen, checksum, true⟩ := by
  unfold u32Max at h
  show RecordHeader.mk (ofLeBytes (leBytes 2 schemaVersion)) (ofLeBytes (leBytes 2 kind.toWire))
    (UInt64.ofNat (ofLeBytes (leBytes 8 epoch.toNat))) (ofLeBytes (leBytes 4 payloadLen))
    (UInt32.ofNat (ofLeBytes (leBytes 4 checksum.toNat)))
    (decide (ofLeBytes (leBytes 4 commitWord) = commitWord)) = _
  rw [ofLeBytes_leBytes (by decide), ofLeBytes_leBytes (by cases kind <;> decide),
    ofLeBytes_leBytes (UInt64.toNat_lt epoch), ofLeBytes_leBytes (by omega),
    ofLeBytes_leBytes (UInt32.toNat_lt checksum), ofLeBytes_leBytes (by decide),
    UInt64.ofNat_toNat, UInt32.ofNat_toNat, decide_eq_true rfl]

theorem fromWire_toWire (kind : RecordKind) : RecordKind.fromWire kind.toWire = some kind := by
  cases kind <;> rfl

/-- The cells hold a whole committed record. -/
structure Complete (cells : Image) (pos : Nat) (r : Record) : Prop where
  header : slice cells pos headerLen =
    recordHeader r.epoch r.kind r.payload.length (checksumOf r.epoch r.kind r.payload) true
  payload : slice cells (pos + headerLen) r.payload.length = r.payload

theorem Complete.congr (h : Complete cells pos r)
    (hcells : ∀ x, pos ≤ x → x < pos + headerLen + r.payload.length → cells' x = cells x) :
    Complete cells' pos r := by
  constructor
  · rw [slice_congr (fun x hx hlt => hcells x hx (by omega))]
    exact h.header
  · rw [slice_congr (fun x hx hlt => hcells x (by omega) hlt)]
    exact h.payload

/-- A payload that `open` can read into its scratch buffer. -/
def Fits (g : Geometry) (scratchLen : Nat) (payload : List UInt8) : Prop :=
  ∃ padded, alignUp payload.length g.readSize = some padded ∧ padded ≤ scratchLen

instance {payload : List UInt8} : Decidable (Fits g scratchLen payload) :=
  decidable_of_iff ((alignUp payload.length g.readSize).any (· ≤ scratchLen) = true)
    (by simp [Fits, Option.any_eq_true])

theorem step_complete {next : Nat} (hs : Sound g layout scratchLen) (h : Complete cells pos r)
    (hend : recordEnd g pos r.payload.length = some next) (hnext : next ≤ arena.stop)
    (hfits : Fits g scratchLen r.payload) (hlen : r.payload.length ≤ u32Max)
    (hkind : r.kind = .arenaCommit → r.payload = []) :
    step g arena scratchLen cells pos = .record (.known r) next := by
  obtain ⟨padded, hpadded, hscratch⟩ := hfits
  have hpad := (alignUp_spec hs.read_pos hpadded).1
  have hroom := lt_recordEnd hend
  have hentry : entryOf ⟨schemaVersion, r.kind.toWire, r.epoch, r.payload.length,
      checksumOf r.epoch r.kind r.payload, true⟩ r.payload = some (.known r) := by
    rw [entryOf, if_neg (fun hne => hne rfl), fromWire_toWire]
    simp only
    rw [if_neg]
    rintro ⟨hcommit, hne⟩
    exact hne (by rw [hkind hcommit]; rfl)
  rw [step, if_pos (by omega), h.header, judge, if_neg (by simp [recordHeader, magic]),
    parseHeader_recordHeader r.epoch r.kind hlen]
  simp only
  rw [hend]
  rw [hpadded]
  simp only
  rw [h.payload, hentry, if_neg (by decide), if_neg (fun hne => hne rfl),
    if_neg (by omega), if_neg (by omega), if_neg (by omega), if_neg (fun hne => hne rfl)]

/-- What `open` replays of an arena. -/
def restored (entries : List Entry) (pos : Nat) (corrupt : Bool) : List Record :=
  if (stateOf entries pos corrupt).warning = none then
    (tally (stateOf entries pos corrupt).epoch entries).replayed
  else []

/-- The arena that `open` selects by what the two arenas hold. -/
def selectedOf (entries : Side → List Entry) (pos : Side → Nat) (corrupt : Side → Bool) :
    Option Side :=
  selectActive (stateOf (entries .first) (pos .first) (corrupt .first))
    (stateOf (entries .second) (pos .second) (corrupt .second))

/-- What `open` reports by what the two arenas hold. -/
def openedOf (layout : FlashJournalLayout) (entries : Side → List Entry) (pos : Side → Nat)
    (corrupt : Side → Bool) : Opened :=
  openedWith layout (fun s => stateOf (entries s) (pos s) (corrupt s))
    (selectedOf entries pos corrupt)
    (match selectedOf entries pos corrupt with
      | none => []
      | some s => restored (entries s) (pos s) (corrupt s))

/-- Without faults `open` reports the records of the arena it selects. -/
theorem openFlash_quiet (hs : Sound g layout scratchLen) {entries : Side → List Entry}
    {pos : Side → Nat} {corrupt : Side → Bool}
    (h : ∀ s, Parsed g (layout.arenas s) scratchLen d.cells (entries s) (pos s) (corrupt s)) :
    openFlash g layout scratchLen d.quiet =
      (.ok (openedOf layout entries pos corrupt), d.quiet) := by
  have hreplay (selected : Option Side) :
      replayActive g layout scratchLen (fun s => stateOf (entries s) (pos s) (corrupt s))
        selected d.quiet =
      (.ok (match selected with
        | none => []
        | some s => restored (entries s) (pos s) (corrupt s)), d.quiet) := by
    cases selected with
    | none => rfl
    | some s =>
      simp only [replayActive, restored]
      split
      · rw [Act.bind_ok ((h s).scan hs _)]
        rfl
      · rfl
  rw [openFlash, hs.validated]
  simp only
  rw [Act.bind_ok ((h .first).scan hs none), Act.bind_ok ((h .second).scan hs none)]
  rw [perSide_eta (fun s => stateOf (entries s) (pos s) (corrupt s)), Act.bind_ok (hreplay _)]
  rfl

end

end Prns.Ports.Journal
