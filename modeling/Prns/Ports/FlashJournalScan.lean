import Prns.Ports.FlashJournal
import Mathlib.Data.List.Induction
import Mathlib.Tactic.IntervalCases

/-!
# What a scan of an arena sees

Without faults one turn of the scan loop is a function of the cells (`step`): it
finds a record, stops, or refuses. A log is a chain of records, and a scan is a
log followed by a stop. The log up to a position depends only on the cells before
it, so programming the tail of an arena extends the log, and a change elsewhere
leaves the scan alone.
-/

namespace Prns.Ports.Journal

open Verified
open Verified.NorFlash
open Persistence

theorem alignUp_spec {value alignment padded : Nat} (hpos : 0 < alignment)
    (h : alignUp value alignment = some padded) :
    value ≤ padded ∧ padded % alignment = 0 ∧ ∀ m, value ≤ m → m % alignment = 0 → padded ≤ m := by
  unfold alignUp checkedAdd at h
  split at h
  · next hrem =>
      cases h
      exact ⟨Nat.le_refl _, hrem, fun m hm _ => hm⟩
  next hrem =>
    rw [Option.ite_none_right_eq_some] at h
    obtain ⟨-, ⟨⟩⟩ := h
    have hlt := Nat.mod_lt value hpos
    have hdiv := Nat.div_add_mod value alignment
    have hnext : value + (alignment - value % alignment) =
        alignment * (value / alignment + 1) := by
      rw [Nat.mul_add]
      omega
    rw [hnext]
    refine ⟨by omega, Nat.mul_mod_right .., fun m hm hmod => ?_⟩
    obtain ⟨k, rfl⟩ := Nat.dvd_of_mod_eq_zero hmod
    apply Nat.mul_le_mul_left
    exact Nat.lt_of_mul_lt_mul_left (a := alignment) (by omega)

/-- What `validate` accepts, and that whole sectors can be read. -/
structure Sound (g : Geometry) (layout : FlashJournalLayout) (scratchLen : Nat) : Prop where
  validated : validate g layout scratchLen = none
  read_pos : 0 < g.readSize
  header_read : headerLen % g.readSize = 0
  read_dvd_io : g.readSize ∣ ioAlignment g
  write_pos : 0 < g.writeSize
  header_write : headerLen % g.writeSize = 0
  write_dvd_io : g.writeSize ∣ ioAlignment g
  erase_pos : 0 < g.eraseSize
  nonempty : ∀ s, (layout.arenas s).start < (layout.arenas s).stop
  aligned : ∀ s, (layout.arenas s).start % g.readSize = 0
  sectors : ∀ s, (layout.arenas s).start % g.eraseSize = 0 ∧
    (layout.arenas s).stop % g.eraseSize = 0
  capacity : ∀ s, (layout.arenas s).stop ≤ g.capacity
  disjoint : ∀ s, (layout.arenas s).stop ≤ (layout.arenas s.other).start ∨
    (layout.arenas s.other).stop ≤ (layout.arenas s).start

variable {g : Geometry}

theorem dvd_ioAlignment (hwrite : g.writeSize ≤ 4) (hheaderw : headerLen % g.writeSize = 0)
    (hheader : headerLen % g.readSize = 0) :
    g.readSize ∣ ioAlignment g ∧ g.writeSize ∣ ioAlignment g := by
  unfold ioAlignment headerLen at *
  have hread : g.readSize ≤ 32 := Nat.le_of_dvd (by omega) (Nat.dvd_of_mod_eq_zero hheader)
  generalize g.readSize = r at *
  generalize g.writeSize = w at *
  interval_cases w <;> interval_cases r <;> revert hheaderw hheader <;> decide

theorem sound_of_validate {layout : FlashJournalLayout} {scratchLen : Nat}
    (h : validate g layout scratchLen = none) (hsector : g.eraseSize % g.readSize = 0) :
    Sound g layout scratchLen := by
  have hvalid := h
  unfold validate at h
  split at h
  · cases h
  next hsizes =>
  split at h
  · cases h
  simp only [Option.orElse_eq_orElse, Option.orElse_eq_or, Option.or_eq_none_iff,
    ite_eq_right_iff, reduceCtorEq, imp_false, Bool.not_eq_true] at h
  obtain ⟨-, -, -, hfirst, hsecond, hover⟩ := h
  have hfacts (s : Side) : (layout.arenas s).start < (layout.arenas s).stop ∧
      (layout.arenas s).start % g.eraseSize = 0 ∧ (layout.arenas s).stop % g.eraseSize = 0 ∧
      (layout.arenas s).stop ≤ g.capacity := by
    unfold validateArena FlashArenaRange.isEmpty at hfirst hsecond
    cases s <;> grind
  rw [overlaps, Bool.and_eq_false_iff, decide_eq_false_iff_not, decide_eq_false_iff_not] at hover
  have hdvd := dvd_ioAlignment (g := g) (by omega) (by omega) (by omega)
  refine
    { validated := hvalid
      read_pos := by omega
      header_read := by omega
      read_dvd_io := hdvd.1
      write_pos := by omega
      header_write := by omega
      write_dvd_io := hdvd.2
      erase_pos := by omega
      nonempty := fun s => (hfacts s).1
      aligned := fun s => ?_
      sectors := fun s => ⟨(hfacts s).2.1, (hfacts s).2.2.1⟩
      capacity := fun s => (hfacts s).2.2.2
      disjoint := fun s => ?_ }
  · exact Nat.mod_eq_zero_of_dvd ((Nat.dvd_of_mod_eq_zero hsector).trans
      (Nat.dvd_of_mod_eq_zero (hfacts s).2.1))
  · cases s <;> simp only [Side.other] <;> omega

variable {pos len recordEnd' : Nat}

variable {cells cells' : Image}

section

variable (g : Geometry) (arena : FlashArenaRange) (scratchLen : Nat)

/-! ## One turn of the loop -/

/-- A record as a scan reads it. -/
inductive Entry where
  | known (r : Record)
  | foreign (schema kind : Nat) (epoch : UInt64)
  deriving DecidableEq, Repr

inductive Step where
  | record (entry : Entry) (next : Nat)
  | finish (pos : Nat) (corrupt : Bool)
  | refuse (e : JournalError)
  deriving DecidableEq, Repr

def entryOf (header : RecordHeader) (payload : List UInt8) : Option Entry :=
  if header.schema ≠ schemaVersion then
    some (.foreign header.schema header.kind header.epoch)
  else
    match RecordKind.fromWire header.kind with
    | none => none
    | some kind =>
        if kind = .arenaCommit ∧ header.payloadLen ≠ 0 then none
        else some (.known ⟨header.epoch, kind, payload⟩)

def Scan.push (replayEpoch : Option UInt64) (s : Scan) : Entry → Scan
  | .foreign schema kind epoch =>
      { s with
        warning := some (.unknownSchema schema)
        committedEpoch :=
          if kind = RecordKind.arenaCommit.toWire then some epoch else s.committedEpoch }
  | .known r =>
      if r.kind = .arenaCommit then { s with committedEpoch := some r.epoch }
      else if replayEpoch = some r.epoch then { s with replayed := s.replayed ++ [r] }
      else s

variable {r : Record} {replayEpoch : Option UInt64}

theorem Scan.push_commit (h : r.kind = .arenaCommit) (replayEpoch : Option UInt64) (s : Scan) :
    s.push replayEpoch (.known r) = { s with committedEpoch := some r.epoch } :=
  if_pos h

theorem Scan.push_replay (h : r.kind ≠ .arenaCommit) (hepoch : replayEpoch = some r.epoch)
    (s : Scan) : s.push replayEpoch (.known r) = { s with replayed := s.replayed ++ [r] } := by
  rw [Scan.push, if_neg h, if_pos hepoch]

theorem Scan.push_skip (h : r.kind ≠ .arenaCommit) (hepoch : replayEpoch ≠ some r.epoch)
    (s : Scan) :
    s.push replayEpoch (.known r) = s := by
  rw [Scan.push, if_neg h, if_neg hepoch]

theorem Scan.take_eq (s : Scan) (replayEpoch : Option UInt64) (header : RecordHeader)
    (payload : List UInt8) :
    s.take replayEpoch header payload = (entryOf header payload).map (Scan.push replayEpoch s) := by
  unfold Scan.take entryOf
  split
  · rfl
  cases RecordKind.fromWire header.kind with
  | none => rfl
  | some kind =>
    by_cases hkind : kind = .arenaCommit
    · by_cases hlen : header.payloadLen = 0 <;> simp [hkind, hlen, Scan.push]
    · by_cases hepoch : replayEpoch = some header.epoch <;> simp [hkind, hepoch, Scan.push]

/-- One turn of the scan loop, from the header at `pos` and the payload after it. -/
def judge (pos : Nat) (headerBytes : List UInt8) (payload : Nat → List UInt8) : Step :=
  if headerBytes.all (· == 0xFF) then .finish pos false
  else
    let header := parseHeader headerBytes
    if !header.committed then .finish arena.stop false
    else if headerBytes.take 4 ≠ magic then .finish arena.stop true
    else
      match recordEnd g pos header.payloadLen with
      | none => .finish arena.stop true
      | some recordEnd' =>
          if arena.stop < recordEnd' then .finish arena.stop true
          else if scratchLen < header.payloadLen then .refuse .scratchTooShort
          else
            match alignUp header.payloadLen g.readSize with
            | none => .refuse .payloadTooLarge
            | some paddedLen =>
                if scratchLen < paddedLen then .refuse .scratchTooShort
                else if recordChecksum (headerBytes.take checksumPrefixLen)
                    (payload header.payloadLen) ≠ header.checksum then
                  .finish arena.stop true
                else
                  match entryOf header (payload header.payloadLen) with
                  | none => .finish arena.stop true
                  | some entry => .record entry recordEnd'

def step (cells : Image) (pos : Nat) : Step :=
  if pos + headerLen ≤ arena.stop then
    judge g arena scratchLen pos (slice cells pos headerLen)
      (slice cells (pos + headerLen))
  else .finish pos false

theorem judge_congr {headerBytes : List UInt8} {payload payload' : Nat → List UInt8}
    (h : ∀ recordEnd', recordEnd g pos (parseHeader headerBytes).payloadLen =
      some recordEnd' → recordEnd' ≤ arena.stop →
      payload' (parseHeader headerBytes).payloadLen =
        payload (parseHeader headerBytes).payloadLen) :
    judge g arena scratchLen pos headerBytes payload' =
      judge g arena scratchLen pos headerBytes payload := by
  unfold judge
  simp only
  cases hend : recordEnd g pos (parseHeader headerBytes).payloadLen with
  | none => rfl
  | some recordEnd' =>
    by_cases hle : recordEnd' ≤ arena.stop
    · rw [h recordEnd' hend hle]
    · simp only [if_pos (Nat.lt_of_not_le hle)]

variable {g arena scratchLen}

theorem step_finish {pos pos' : Nat} {corrupt : Bool}
    (h : step g arena scratchLen cells pos = .finish pos' corrupt) :
    pos' = pos ∨ pos' = arena.stop := by
  unfold step judge at h
  simp only at h
  repeat' split at h
  all_goals cases h
  all_goals first | exact Or.inl rfl | exact Or.inr rfl

variable {next : Nat} {entry : Entry}

theorem step_record (h : step g arena scratchLen cells pos = .record entry next) :
    pos + headerLen ≤ arena.stop ∧
      recordEnd g pos (parseHeader (slice cells pos headerLen)).payloadLen = some next ∧
      pos + headerLen ≤ next ∧ next ≤ arena.stop := by
  unfold step at h
  split at h
  · next hroom =>
      simp only [judge] at h
      repeat' split at h
      all_goals cases h
      have hend : recordEnd g pos _ = some next := ‹_›
      exact ⟨hroom, hend, lt_recordEnd hend, Nat.le_of_not_lt ‹_›⟩
  · cases h

variable (hio : 0 < ioAlignment g)
include hio

theorem payload_le_recordEnd (h : recordEnd g pos len = some recordEnd') :
    pos + headerLen + len ≤ recordEnd' := by
  obtain ⟨padded, hpadded, rfl, -⟩ := recordEnd_eq_some h
  have := (alignUp_spec hio hpadded).1
  omega

theorem step_congr (h : ∀ x, pos ≤ x → x < arena.stop → cells' x = cells x) :
    step g arena scratchLen cells' pos = step g arena scratchLen cells pos := by
  unfold step
  split
  · next hroom =>
      rw [slice_congr (fun x hle hlt => h x hle (by omega))]
      apply judge_congr
      intro recordEnd' hend hle
      have := payload_le_recordEnd hio hend
      exact slice_congr (fun x hx hlt => h x (by omega) (by omega))
  · rfl

theorem step_congr_record (hstep : step g arena scratchLen cells pos = .record entry next)
    (h : ∀ x, pos ≤ x → x < next → cells' x = cells x) :
    step g arena scratchLen cells' pos = .record entry next := by
  obtain ⟨hroom, hend, hnext, -⟩ := step_record hstep
  rw [← hstep]
  unfold step
  rw [if_pos hroom, if_pos hroom, slice_congr (fun x hle hlt => h x hle (by omega))]
  apply judge_congr
  intro recordEnd' hend' hle
  have hin := payload_le_recordEnd hio hend
  exact slice_congr (fun x hx hlt => h x (by omega) (by omega))

end

/-! ## The loop without faults -/

/-- The warning a scan ends with: a corrupt end replaces an earlier one. -/
def Scan.finish (s : Scan) (pos : Nat) (corrupt : Bool) : ArenaState × List Record :=
  (if corrupt then { s with warning := some .corrupt } else s).stopAt pos

section

variable {g : Geometry} {layout : FlashJournalLayout} {scratchLen : Nat} {side : Side}
  (hs : Sound g layout scratchLen)
include hs

theorem Sound.io_pos : 0 < ioAlignment g :=
  Nat.lt_of_lt_of_le hs.read_pos (Nat.le_max_right ..)

theorem Sound.check_header (hpos : pos % g.readSize = 0)
    (hroom : pos + headerLen ≤ (layout.arenas side).stop) :
    check g g.readSize pos headerLen = none := by
  have hcap := hs.capacity side
  have hheader := hs.header_read
  rw [check, if_neg (by omega), if_neg (by omega)]

theorem Sound.check_payload {pos len recordEnd' padded : Nat} (hpos : pos % g.readSize = 0)
    (hend : recordEnd g pos len = some recordEnd') (hle : recordEnd' ≤ (layout.arenas side).stop)
    (hpadded : alignUp len g.readSize = some padded) :
    len ≤ padded ∧ check g g.readSize (pos + headerLen) padded = none := by
  obtain ⟨wide, hwide, rfl, -⟩ := recordEnd_eq_some hend
  obtain ⟨hwlen, hwmod, -⟩ := alignUp_spec hs.io_pos hwide
  obtain ⟨hlen, hmod, hleast⟩ := alignUp_spec hs.read_pos hpadded
  have hcap := hs.capacity side
  have hpw : padded ≤ wide := hleast wide hwlen
    (Nat.mod_eq_zero_of_dvd (hs.read_dvd_io.trans (Nat.dvd_of_mod_eq_zero hwmod)))
  have hstart : (pos + headerLen) % g.readSize = 0 := by
    rw [Nat.add_mod, hpos, hs.header_read, Nat.zero_add, Nat.zero_mod]
  refine ⟨hlen, ?_⟩
  rw [check, if_neg (by omega), if_neg (by omega)]

theorem Sound.recordEnd_aligned (hpos : pos % g.readSize = 0)
    (hend : recordEnd g pos len = some recordEnd') : recordEnd' % g.readSize = 0 := by
  obtain ⟨wide, hwide, rfl, -⟩ := recordEnd_eq_some hend
  obtain ⟨-, hwmod, -⟩ := alignUp_spec hs.io_pos hwide
  apply Nat.mod_eq_zero_of_dvd
  exact Nat.dvd_add (Nat.dvd_add (Nat.dvd_of_mod_eq_zero hpos)
    (Nat.dvd_of_mod_eq_zero hs.header_read))
    (hs.read_dvd_io.trans (Nat.dvd_of_mod_eq_zero hwmod))

omit hs

theorem readScratch_quiet {pos padded : Nat} (h : check g g.readSize pos padded = none)
    (d : Device) :
    readScratch g pos padded d.quiet = (.ok (slice d.cells pos padded), d.quiet) := by
  unfold readScratch
  split
  · exact Act.mapError_ok (read_quiet h d)
  · next hzero =>
      rw [Nat.eq_zero_of_not_pos hzero]
      rfl

/-- Without faults the loop takes the turns of `step`. -/
theorem scanLoop_quiet (hs : Sound g layout scratchLen) (replayEpoch : Option UInt64)
    (hpos : pos % g.readSize = 0) (s : Scan) (d : Device) :
    scanLoop g (layout.arenas side) scratchLen replayEpoch pos s d.quiet =
      match step g (layout.arenas side) scratchLen d.cells pos with
      | .record entry next =>
        scanLoop g (layout.arenas side) scratchLen replayEpoch next
          (s.push replayEpoch entry) d.quiet
      | .finish pos' corrupt => (.ok (s.finish pos' corrupt), d.quiet)
      | .refuse e => (.error e, d.quiet) := by
  rw [scanLoop, step]
  split
  · next hroom =>
      rw [Act.bind_ok (Act.mapError_ok (read_quiet (hs.check_header hpos hroom) d)), judge]
      simp only
      generalize slice d.cells pos headerLen = headerBytes
      split
      · rfl
      split
      · rfl
      split
      · rfl
      generalize hend : recordEnd g pos (parseHeader headerBytes).payloadLen = found
      cases found with
      | none => rfl
      | some recordEnd' =>
        simp only
        split
        · rfl
        next hlong =>
        split
        · rfl
        cases hpadded : alignUp (parseHeader headerBytes).payloadLen g.readSize with
        | none => rfl
        | some padded =>
          simp only
          split
          · rfl
          obtain ⟨hlen, hcheck⟩ := hs.check_payload hpos hend (Nat.le_of_not_lt hlong) hpadded
          rw [Act.bind_ok (readScratch_quiet hcheck d), take_slice hlen, Scan.take_eq]
          split
          · rfl
          cases entryOf (parseHeader headerBytes)
              (slice d.cells (pos + headerLen) (parseHeader headerBytes).payloadLen) <;> rfl
  · rfl

end

theorem reads_readScratch (g : Geometry) (pos padded : Nat) : Reads (readScratch g pos padded) := by
  unfold readScratch
  split
  · exact (reads_read g pos padded).mapError _
  · exact reads_pure []

theorem reads_scanLoop (g : Geometry) (arena : FlashArenaRange) (scratchLen : Nat)
    (replayEpoch : Option UInt64) (pos : Nat) (s : Scan) :
    Reads (scanLoop g arena scratchLen replayEpoch pos s) := by
  induction hmeasure : arena.stop - pos using Nat.strong_induction_on generalizing pos s with
  | _ n ih =>
    rw [scanLoop]
    by_cases hroom : pos + headerLen ≤ arena.stop
    · rw [dif_pos hroom]
      apply ((reads_read g pos headerLen).mapError _).bind
      intro headerBytes
      simp only
      split
      · exact reads_pure _
      split
      · exact reads_pure _
      split
      · exact reads_pure _
      generalize hend : recordEnd g pos (parseHeader headerBytes).payloadLen = found
      cases found with
      | none => exact reads_pure _
      | some recordEnd' =>
        have hlt := lt_recordEnd hend
        simp only
        split
        · exact reads_pure _
        split
        · exact reads_fail _
        cases alignUp (parseHeader headerBytes).payloadLen g.readSize with
        | none => exact reads_fail _
        | some padded =>
          simp only
          split
          · exact reads_fail _
          apply (reads_readScratch g (pos + headerLen) padded).bind
          intro scratch
          split
          · exact reads_pure _
          cases s.take replayEpoch (parseHeader headerBytes)
              (scratch.take (parseHeader headerBytes).payloadLen) with
          | none => exact reads_pure _
          | some s' =>
            apply ih (arena.stop - recordEnd') _ recordEnd' s' rfl
            unfold headerLen at hroom hlt
            omega
    · rw [dif_neg hroom]
      exact reads_pure _

theorem reads_replayActive (g : Geometry) (layout : FlashJournalLayout) (scratchLen : Nat)
    (state : Side → ArenaState) (selected : Option Side) :
    Reads (replayActive g layout scratchLen state selected) := by
  cases selected with
  | none => exact reads_pure []
  | some index =>
    rw [replayActive]
    split
    · exact (reads_scanLoop ..).bind (fun replay => reads_pure replay.2)
    · exact reads_pure []

theorem reads_openFlash (g : Geometry) (layout : FlashJournalLayout) (scratchLen : Nat) :
    Reads (openFlash g layout scratchLen) := by
  unfold openFlash
  cases validate g layout scratchLen with
  | some e => exact reads_fail e
  | none =>
    apply (reads_scanLoop ..).bind
    intro first
    apply (reads_scanLoop ..).bind
    intro second
    apply (reads_replayActive ..).bind
    intro replayed
    exact reads_pure _

section

variable (g : Geometry) (arena : FlashArenaRange) (scratchLen : Nat)

/-- A chain of records from one position to another. -/
inductive Log (cells : Image) : Nat → List Entry → Nat → Prop where
  | nil (pos : Nat) : Log cells pos [] pos
  | cons {pos next stop : Nat} {entry : Entry} {entries : List Entry}
      (hstep : step g arena scratchLen cells pos = .record entry next)
      (hrest : Log cells next entries stop) : Log cells pos (entry :: entries) stop

variable {g arena scratchLen} {stop stop' : Nat} {entries entries' : List Entry}
  (h : Log g arena scratchLen cells pos entries stop)
include h

theorem Log.append (h' : Log g arena scratchLen cells stop entries' stop') :
    Log g arena scratchLen cells pos (entries ++ entries') stop' := by
  induction h with
  | nil pos => exact h'
  | cons hstep _ ih => exact .cons hstep (ih h')

theorem Log.le : pos ≤ stop := by
  induction h with
  | nil pos => exact Nat.le_refl pos
  | cons hstep _ ih =>
    have hrecord := step_record hstep
    omega

theorem Log.stop_le (hpos : pos ≤ arena.stop) : stop ≤ arena.stop := by
  induction h with
  | nil pos => exact hpos
  | cons hstep _ ih => exact ih (step_record hstep).2.2.2

omit h

theorem Log.congr (hio : 0 < ioAlignment g) (h : Log g arena scratchLen cells pos entries stop)
    (hcells : ∀ x, pos ≤ x → x < stop → cells' x = cells x) :
    Log g arena scratchLen cells' pos entries stop := by
  induction h with
  | nil pos => exact .nil pos
  | cons hstep hrest ih =>
    have hrecord := step_record hstep
    have hle := hrest.le
    refine .cons (step_congr_record hio hstep ?_) (ih ?_)
    · intro x hx hlt
      exact hcells x hx (by omega)
    · intro x hx hlt
      exact hcells x (by omega) hlt

theorem exists_log (g : Geometry) (arena : FlashArenaRange) (scratchLen : Nat)
    (cells : Image) (pos : Nat) :
    ∃ entries stop, Log g arena scratchLen cells pos entries stop ∧
      ∀ entry next, step g arena scratchLen cells stop ≠ .record entry next := by
  induction hmeasure : arena.stop - pos using Nat.strong_induction_on generalizing pos with
  | _ n ih =>
    cases hstep : step g arena scratchLen cells pos with
    | record entry next =>
      have hrecord := step_record hstep
      unfold headerLen at hrecord
      obtain ⟨entries, stop, hlog, hend⟩ := ih (arena.stop - next) (by omega) next rfl
      exact ⟨entry :: entries, stop, .cons hstep hlog, hend⟩
    | finish pos' corrupt =>
      exact ⟨[], pos, .nil pos, fun entry next heq => by rw [hstep] at heq; cases heq⟩
    | refuse e =>
      exact ⟨[], pos, .nil pos, fun entry next heq => by rw [hstep] at heq; cases heq⟩

end

/-- What a scan has seen after some records. -/
def tally (replayEpoch : Option UInt64) (entries : List Entry) : Scan :=
  entries.foldl (Scan.push replayEpoch) ⟨none, none, []⟩

theorem tally_snoc (replayEpoch : Option UInt64) (entries : List Entry) (entry : Entry) :
    tally replayEpoch (entries ++ [entry]) =
      (tally replayEpoch entries).push replayEpoch entry := by
  rw [tally, List.foldl_append]
  rfl

theorem tally_epoch (replayEpoch : Option UInt64) (entries : List Entry) :
    (tally replayEpoch entries).committedEpoch = (tally none entries).committedEpoch ∧
      (tally replayEpoch entries).warning = (tally none entries).warning := by
  induction entries using List.reverseRecOn with
  | nil => exact ⟨rfl, rfl⟩
  | append_singleton entries entry ih =>
    rw [tally_snoc, tally_snoc]
    cases entry <;> grind [Scan.push]

end Prns.Ports.Journal
