import Prns.Ports.FlashTimebase

/-!
# The timebase over runs

What the regions hold is a supremum over their slots, with nothing stored below
everything. A write goes to an erased slot, so it lowers no supremum however much of
it reaches the flash; an erase lowers what its region held, which matters only if the
other region does not hold as much. For the high water it does, by the choice of the
region; for the last compaction attempt it does unless every slot of the newer region
was cut off between its snapshot and its budget.
-/

namespace Prns.Ports.Journal

open Verified
open Verified.NorFlash
open Persistence
open Act
open TimebaseScan

/-- A stored instant; nothing stored is below everything. -/
def level : Option UInt64 → WithBot ℕ
  | none => ⊥
  | some value => WithBot.some value.toNat

theorem level_maxMillis (a b : Option UInt64) : level (maxMillis a b) = level a ⊔ level b := by
  cases a <;> cases b <;> simp [maxMillis, level, UInt64.toNat_max]

theorem earlier_eq_false {a b : Option UInt64} : earlier a b = false ↔ level b ≤ level a := by
  cases a <;> cases b <;> simp [earlier, level, UInt64.le_iff_toNat_le]

theorem newest_other_le (states : Side → TimebaseRegionState) :
    level (states (newerTimebaseRegion states).other).newest ≤
      level (states (newerTimebaseRegion states)).newest := by
  unfold newerTimebaseRegion
  split <;> rename_i hfirst hsecond
  · split <;> rename_i h <;> simp only [Side.other, hfirst, hsecond, level, WithBot.coe_le_coe]
    · rcases h with hlt | ⟨heq, -⟩
      · exact Nat.le_of_lt (UInt64.lt_iff_toNat_lt.mp hlt)
      · rw [heq]
    · rw [not_or, UInt64.lt_iff_toNat_lt] at h
      omega
  · split <;> simp [Side.other, hfirst, hsecond]
  · simp [Side.other, hfirst, level]
  · simp [Side.other, hsecond, level]

/-! ## Regions by their slots -/

variable {slot : Nat}

section

variable {g : Geometry} {cells cells' : Image} {region : Nat}

def slotBytes (cells : Image) (region slot : Nat) : List UInt8 :=
  slice cells (region + slot * timebaseSlotLen) timebaseSlotLen

def SlotErased (cells : Image) (region slot : Nat) : Prop :=
  Erased cells (region + slot * timebaseSlotLen)
    (region + slot * timebaseSlotLen + timebaseSlotLen)

/-- Nothing outside a slot changed. -/
def SlotOnly (cells cells' : Image) (region slot : Nat) : Prop :=
  SameOutside cells cells' (region + slot * timebaseSlotLen)
    (region + slot * timebaseSlotLen + timebaseSlotLen)

def slotValue (bytes : List UInt8) : Option UInt64 :=
  match readTimebaseSnapshot bytes with
  | .error _ => none
  | .ok value => some value

def slotAttempt (bytes : List UInt8) : Option UInt64 :=
  match readTimebaseSnapshot bytes with
  | .error _ => none
  | .ok _ => readCompactionBudget (bytes.drop compactionBudgetOffset)

variable {bytes : List UInt8}

theorem readTimebaseSnapshot_erased (hlen : bytes.length = timebaseSlotLen)
    (h : bytes.all (· == 0xFF) = true) : ∃ e, readTimebaseSnapshot bytes = .error e := by
  have hhead : bytes.take 4 ≠ snapshotMagic := by
    intro hmagic
    have hmem : (0x50 : UInt8) ∈ bytes.take 4 := by
      rw [hmagic]
      decide
    have hff := List.all_eq_true.mp h _ (List.mem_of_mem_take hmem)
    exact absurd hff (by decide)
  rw [readTimebaseSnapshot, openSnapshot, if_neg (by rw [hlen]; decide), if_pos hhead]
  exact ⟨_, rfl⟩

/-- The scan of the first `n` slots. -/
def scanUpTo (cells : Image) (region n : Nat) : TimebaseScan :=
  (List.range n).foldl (fun s slot => s.see slot (slotBytes cells region slot)) ⟨none, none, none⟩

def regionState (g : Geometry) (cells : Image) (region : Nat) : TimebaseRegionState :=
  (scanUpTo cells region (slotCount g)).finish g

theorem scanUpTo_succ (cells : Image) (region n : Nat) : scanUpTo cells region (n + 1) =
      (scanUpTo cells region n).see n (slotBytes cells region n) := by
  rw [scanUpTo, List.range_succ, List.foldl_append]
  rfl

theorem see_level (s : TimebaseScan) (slot : Nat) (hlen : bytes.length = timebaseSlotLen) :
    level (s.see slot bytes).newest = level s.newest ⊔ level (slotValue bytes) ∧
      level (s.see slot bytes).lastCompactionAttempt =
        level s.lastCompactionAttempt ⊔ level (slotAttempt bytes) := by
  unfold see slotValue slotAttempt
  by_cases herased : bytes.all (· == 0xFF) = true
  · obtain ⟨e, he⟩ := readTimebaseSnapshot_erased hlen herased
    rw [if_pos herased, he]
    exact ⟨(sup_bot_eq _).symm, (sup_bot_eq _).symm⟩
  · rw [if_neg herased]
    cases readTimebaseSnapshot bytes with
    | error e => exact ⟨(sup_bot_eq _).symm, (sup_bot_eq _).symm⟩
    | ok value => exact ⟨level_maxMillis .., level_maxMillis ..⟩

theorem scanUpTo_level (cells : Image) (region n : Nat) : level (scanUpTo cells region n).newest =
        (Finset.range n).sup (fun slot => level (slotValue (slotBytes cells region slot))) ∧
      level (scanUpTo cells region n).lastCompactionAttempt =
        (Finset.range n).sup (fun slot => level (slotAttempt (slotBytes cells region slot))) := by
  induction n with
  | zero => exact ⟨rfl, rfl⟩
  | succ n ih =>
    obtain ⟨hnewest, hattempt⟩ := see_level (scanUpTo cells region n) n
      (length_slice cells (region + n * timebaseSlotLen) timebaseSlotLen)
    rw [scanUpTo_succ, Finset.range_add_one, Finset.sup_insert, Finset.sup_insert, ← ih.1,
      ← ih.2, sup_comm, sup_comm (level (slotAttempt _))]
    exact ⟨hnewest, hattempt⟩

theorem scanUpTo_lastUsed (cells : Image) (region n : Nat) :
    (∀ slot, slot < n → (∀ last, (scanUpTo cells region n).lastUsed = some last → last < slot) →
      (slotBytes cells region slot).all (· == 0xFF) = true) ∧
    ∀ last, (scanUpTo cells region n).lastUsed = some last → last < n := by
  induction n with
  | zero => exact ⟨nofun, nofun⟩
  | succ n ih =>
    rw [scanUpTo_succ, see]
    generalize readTimebaseSnapshot (slotBytes cells region n) = read
    cases read <;> grind

theorem erased_appendAt (hslots : 0 < slotCount g)
    (h : (regionState g cells region).appendAt = some slot) :
    slot < slotCount g ∧ SlotErased cells region slot := by
  obtain ⟨hbehind, hbound⟩ := scanUpTo_lastUsed cells region (slotCount g)
  unfold regionState finish at h
  obtain ⟨hlt, herased⟩ : slot < slotCount g ∧
      (slotBytes cells region slot).all (· == 0xFF) = true := by
    grind
  exact ⟨hlt, slice_all_iff.mp herased⟩

theorem erased_unused (hslots : 0 < slotCount g)
    (h : (regionState g cells region).anyUsed = false) : SlotErased cells region 0 := by
  have happend : (regionState g cells region).appendAt = some 0 := by
    unfold regionState finish at h ⊢
    grind
  exact (erased_appendAt hslots happend).2

theorem slot_in_region (h : slot < slotCount g) :
    slot * timebaseSlotLen + timebaseSlotLen ≤ g.eraseSize := by
  have hmul := Nat.mul_le_mul_right timebaseSlotLen (Nat.succ_le_of_lt h)
  have hdiv := Nat.div_mul_le_self g.eraseSize timebaseSlotLen
  unfold slotCount at hmul
  rw [Nat.succ_mul] at hmul
  omega

theorem scanUpTo_congr {n : Nat} (hn : n ≤ slotCount g)
    (h : ∀ x, region ≤ x → x < region + g.eraseSize → cells' x = cells x) :
    scanUpTo cells' region n = scanUpTo cells region n := by
  induction n with
  | zero => simp only [scanUpTo, List.range_zero, List.foldl_nil]
  | succ n ih =>
    have hroom := slot_in_region (Nat.lt_of_succ_le hn)
    have hbytes : slotBytes cells' region n = slotBytes cells region n := by
      apply slice_congr
      intro x hx hlt
      exact h x (by omega) (by omega)
    rw [scanUpTo_succ, scanUpTo_succ, ih (Nat.le_of_succ_le hn), hbytes]

theorem regionState_grows (herased : SlotErased cells region slot)
    (hout : SlotOnly cells cells' region slot) :
    level (regionState g cells region).newest ≤ level (regionState g cells' region).newest ∧
      level (regionState g cells region).lastCompactionAttempt ≤
        level (regionState g cells' region).lastCompactionAttempt := by
  have hslot (other : Nat) : level (slotValue (slotBytes cells region other)) ≤
          level (slotValue (slotBytes cells' region other)) ∧
        level (slotAttempt (slotBytes cells region other)) ≤
          level (slotAttempt (slotBytes cells' region other)) := by
    by_cases heq : other = slot
    · obtain ⟨e, he⟩ := readTimebaseSnapshot_erased (length_slice cells _ _)
        (slice_all_iff.mpr herased)
      rw [heq, slotValue, slotAttempt, slotBytes, he]
      exact ⟨bot_le, bot_le⟩
    have hbytes : slotBytes cells' region other = slotBytes cells region other := by
      apply slice_congr
      intro x hx hlt
      apply hout
      unfold timebaseSlotLen at *
      omega
    rw [hbytes]
    exact ⟨le_refl _, le_refl _⟩
  simp only [regionState, finish, scanUpTo_level]
  exact ⟨Finset.sup_mono_fun fun other _ => (hslot other).1,
    Finset.sup_mono_fun fun other _ => (hslot other).2⟩

end

/-! ## Writing a slot -/

section

variable {g : Geometry} {region : Nat}

/-- A whole number of minutes that a budget can encode. -/
def Minutes (attempt : UInt64) : Prop :=
  ∃ minutes, minutes ≤ u32Max ∧ attempt.toNat = minutes * compactionBudgetMinuteMillis

theorem minutes_round {attemptedAt rounded : UInt64}
    (h : roundCompactionAttemptUp attemptedAt = .ok rounded) :
    Minutes rounded ∧ attemptedAt.toNat ≤ rounded.toNat := by
  unfold roundCompactionAttemptUp at h
  simp only at h
  generalize hrounded : attemptedAt.toNat / compactionBudgetMinuteMillis +
    (if attemptedAt.toNat % compactionBudgetMinuteMillis = 0 then 0 else 1) = minutes at h
  have hle : attemptedAt.toNat ≤ minutes * compactionBudgetMinuteMillis := by
    unfold compactionBudgetMinuteMillis at *
    split at hrounded <;> omega
  split at h
  · cases h
  next hmax =>
  cases h
  have hnat : (UInt64.ofNat (minutes * compactionBudgetMinuteMillis)).toNat =
      minutes * compactionBudgetMinuteMillis := by
    rw [UInt64.toNat_ofNat', Nat.mod_eq_of_lt]
    unfold u32Max at hmax
    unfold compactionBudgetMinuteMillis
    omega
  exact ⟨⟨minutes, by omega, hnat⟩, hle.trans_eq hnat.symm⟩

variable {budget : List UInt8}

theorem readCompactionBudget_write {attempt : UInt64} (hminutes : Minutes attempt)
    (h : writeCompactionBudget attempt = some budget) :
    readCompactionBudget budget = some attempt := by
  obtain ⟨minutes, hle, hattempt⟩ := hminutes
  have hdiv : attempt.toNat / compactionBudgetMinuteMillis = minutes := by
    rw [hattempt]
    exact Nat.mul_div_cancel _ (by decide)
  unfold u32Max at hle
  simp only [writeCompactionBudget, hdiv] at h
  rw [if_neg (by unfold u32Max; omega)] at h
  cases h
  have hsum : (leBytes 4 (compactionBudgetChecksum (leBytes 4 minutes)).toNat).take 4 =
      leBytes 4 (compactionBudgetChecksum (leBytes 4 minutes)).toNat :=
    List.take_of_length_le (Nat.le_of_eq (length_leBytes 4 _))
  rw [readCompactionBudget, if_neg (by simp [length_leBytes, compactionBudgetLen, timebaseSlotLen,
    compactionBudgetOffset])]
  rw [List.take_left' (length_leBytes 4 _), List.drop_left' (length_leBytes 4 _), hsum,
    ofLeBytes_leBytes (UInt32.toNat_lt _), UInt32.ofNat_toNat, if_neg (fun hne => hne rfl),
    ofLeBytes_leBytes (by omega), ← hattempt, UInt64.ofNat_toNat]

theorem length_budgetBytes {attempt : Option UInt64} (h : budgetBytes attempt = some budget) :
    budget.length = compactionBudgetLen := by
  cases attempt with
  | none =>
    cases h
    rfl
  | some attempt =>
    simp only [budgetBytes, writeCompactionBudget] at h
    split at h <;> cases h
    rw [List.length_append, length_leBytes, length_leBytes]
    rfl

theorem ensures_writeTimebaseSlot (value : UInt64) (attempt : Option UInt64)
    {d : Device} (h : SlotErased d.cells region slot) :
    Ensures (writeTimebaseSlot g region slot value attempt) d
      (fun _ d' => (SlotOnly d.cells d'.cells region slot ∧ d'.clean = d.clean) ∧
        slotValue (slotBytes d'.cells region slot) = some value ∧
        ∀ a, attempt = some a → Minutes a → slotAttempt (slotBytes d'.cells region slot) = some a)
      (fun d' => SlotOnly d.cells d'.cells region slot ∧ d'.clean = d.clean) := by
  unfold writeTimebaseSlot
  cases hsnapshot : writeTimebaseSnapshot value timebaseSnapshotLen with
  | none => exact ensures_fail ⟨.refl, rfl⟩
  | some snapshot =>
    cases hbudget : budgetBytes attempt with
    | none => exact ensures_fail ⟨.refl, rfl⟩
    | some budget =>
      simp only
      have hfront : snapshot.length = timebaseSnapshotLen := by
        simp only [writeTimebaseSnapshot, sealSnapshot] at hsnapshot
        split at hsnapshot <;> cases hsnapshot
        rw [List.length_append, length_snapshotBody, length_leBytes, length_leBytes]
        rfl
      have hback := length_budgetBytes hbudget
      generalize hbytes : snapshot ++
        List.replicate (compactionBudgetOffset - timebaseSnapshotLen) 0xFF ++ budget = bytes
      have hlen : bytes.length = timebaseSlotLen := by
        rw [← hbytes, List.length_append, List.length_append, List.length_replicate, hfront, hback]
        rfl
      have hread : readTimebaseSnapshot bytes = .ok value := by
        rw [← hbytes, List.append_assoc]
        exact readTimebaseSnapshot_write hsnapshot _
      have hdrop : bytes.drop compactionBudgetOffset = budget := by
        rw [← hbytes]
        apply List.drop_left'
        rw [List.length_append, List.length_replicate, hfront]
        rfl
      rw [SlotErased, ← hlen] at h
      simp only [SlotOnly, slotBytes, ← hlen]
      refine ((ensures_write g h).mono ?_ ?_).mapError
      · rintro - d' ⟨hcells, hclean⟩
        rw [hcells, slice_program h, slotValue, slotAttempt, hread, hdrop]
        refine ⟨⟨program_outside, hclean⟩, rfl, fun a ha hminutes => ?_⟩
        rw [ha] at hbudget
        exact readCompactionBudget_write hminutes hbudget
      · rintro d' ⟨⟨n, hcells⟩, hclean⟩
        rw [hcells]
        have htake := List.length_take_le' n bytes
        exact ⟨program_outside.mono, hclean⟩

end

/-! ## Both regions -/

/-- What the proofs use of a layout: the regions are apart and readable, and a sector
has room for a slot. -/
structure Regions (g : Geometry) (layout : FlashJournalLayout) : Prop where
  slots : 0 < slotCount g
  valid : ∀ s, validateRegion g (layout.timebaseRegions s) = none
  apart : ∀ s, layout.timebaseRegions s + g.eraseSize ≤ layout.timebaseRegions s.other ∨
    layout.timebaseRegions s.other + g.eraseSize ≤ layout.timebaseRegions s
  readable : ∀ s slot, slot < slotCount g →
    check g g.readSize (layout.timebaseRegions s + slot * timebaseSlotLen) timebaseSlotLen = none

theorem regions_of_validate {g : Geometry} {layout : FlashJournalLayout} {scratchLen : Nat}
    (h : validate g layout scratchLen = none) (hread : g.eraseSize % g.readSize = 0)
    (hslot : timebaseSlotLen ≤ g.eraseSize) : Regions g layout := by
  unfold validate at h
  split at h
  · cases h
  next hsizes =>
  split at h
  · cases h
  simp only [Option.orElse_eq_orElse, Option.orElse_eq_or, Option.or_eq_none_iff,
    ite_eq_right_iff, reduceCtorEq, imp_false] at h
  obtain ⟨hfirst, hsecond, hapart, -⟩ := h
  have hvalid (s : Side) : validateRegion g (layout.timebaseRegions s) = none := by
    cases s with
    | first => exact hfirst
    | second => exact hsecond
  have hfacts (s : Side) : layout.timebaseRegions s % g.eraseSize = 0 ∧
      layout.timebaseRegions s + g.eraseSize ≤ g.capacity := by
    have h := hvalid s
    unfold validateRegion checkedAdd at h
    grind
  refine ⟨Nat.div_pos hslot (by decide), hvalid, fun s => ?_, fun s slot hlt => ?_⟩
  · cases s <;> simp only [Side.other] <;> omega
  have hroom := slot_in_region hlt
  have hheader : timebaseSlotLen % g.readSize = 0 := by
    unfold headerLen at hsizes
    unfold timebaseSlotLen
    omega
  have hpos : (layout.timebaseRegions s + slot * timebaseSlotLen) % g.readSize = 0 := by
    apply Nat.mod_eq_zero_of_dvd
    exact Nat.dvd_add ((Nat.dvd_of_mod_eq_zero hread).trans (Nat.dvd_of_mod_eq_zero (hfacts s).1))
      ((Nat.dvd_of_mod_eq_zero hheader).mul_left slot)
  have hcap := (hfacts s).2
  rw [check, if_neg (by omega), if_neg (by omega)]

section

variable {g : Geometry} {layout : FlashJournalLayout} {cells cells' : Image} {d : Device}

def timebaseStates (g : Geometry) (layout : FlashJournalLayout) (cells : Image) (s : Side) :
    TimebaseRegionState :=
  regionState g cells (layout.timebaseRegions s)

/-- The high water that the regions hold. -/
def highOf (g : Geometry) (layout : FlashJournalLayout) (cells : Image) : WithBot ℕ :=
  level (timebaseStates g layout cells .first).newest ⊔
    level (timebaseStates g layout cells .second).newest

/-- The last compaction attempt that the regions hold. -/
def attemptOf (g : Geometry) (layout : FlashJournalLayout) (cells : Image) : WithBot ℕ :=
  level (timebaseStates g layout cells .first).lastCompactionAttempt ⊔
    level (timebaseStates g layout cells .second).lastCompactionAttempt

theorem highOf_eq (side : Side) : highOf g layout cells =
    level (timebaseStates g layout cells side).newest ⊔
      level (timebaseStates g layout cells side.other).newest := by
  cases side with
  | first => rfl
  | second => exact sup_comm _ _

theorem attemptOf_eq (side : Side) : attemptOf g layout cells =
    level (timebaseStates g layout cells side).lastCompactionAttempt ⊔
      level (timebaseStates g layout cells side.other).lastCompactionAttempt := by
  cases side with
  | first => rfl
  | second => exact sup_comm _ _

/-- Neither value went back. -/
def NotBack (g : Geometry) (layout : FlashJournalLayout) (cells cells' : Image) : Prop :=
  highOf g layout cells ≤ highOf g layout cells' ∧
    attemptOf g layout cells ≤ attemptOf g layout cells'

theorem NotBack.refl : NotBack g layout cells cells := ⟨le_refl _, le_refl _⟩

theorem NotBack.trans {cells'' : Image} (h : NotBack g layout cells cells')
    (h' : NotBack g layout cells' cells'') : NotBack g layout cells cells'' :=
  ⟨h.1.trans h'.1, h.2.trans h'.2⟩

/-- A call that finds the newer region full erases the other one, which must not hold
a later compaction attempt. -/
def Settled (g : Geometry) (layout : FlashJournalLayout) (cells : Image) : Prop :=
  (timebaseStates g layout cells
      (newerTimebaseRegion (timebaseStates g layout cells))).appendAt = none →
    earlier
      (timebaseStates g layout cells
        (newerTimebaseRegion (timebaseStates g layout cells))).lastCompactionAttempt
      (timebaseStates g layout cells
        (newerTimebaseRegion (timebaseStates g layout cells)).other).lastCompactionAttempt = false

instance : Decidable (Settled g layout cells) := by
  unfold Settled
  infer_instance

theorem timebaseStates_congr {side : Side}
    (h : ∀ x, layout.timebaseRegions side ≤ x → x < layout.timebaseRegions side + g.eraseSize →
      cells' x = cells x) :
    timebaseStates g layout cells' side = timebaseStates g layout cells side := by
  rw [timebaseStates, timebaseStates, regionState, regionState, scanUpTo_congr Nat.le.refl h]

theorem Regions.frame (hr : Regions g layout) {side : Side} {start stop : Nat}
    (hstart : layout.timebaseRegions side ≤ start)
    (hstop : stop ≤ layout.timebaseRegions side + g.eraseSize)
    (hout : SameOutside cells cells' start stop) :
    timebaseStates g layout cells' side.other = timebaseStates g layout cells side.other := by
  have hapart := hr.apart side
  apply timebaseStates_congr
  intro x hx hlt
  exact hout x (by omega)

theorem notBack_of_newer (hsettled : Settled g layout cells) (hfull : (timebaseStates g layout cells
      (newerTimebaseRegion (timebaseStates g layout cells))).appendAt = none)
    (hsame : timebaseStates g layout cells' (newerTimebaseRegion (timebaseStates g layout cells)) =
      timebaseStates g layout cells (newerTimebaseRegion (timebaseStates g layout cells))) :
    NotBack g layout cells cells' := by
  have hnewest := newest_other_le (timebaseStates g layout cells)
  have hattempt := earlier_eq_false.mp (hsettled hfull)
  generalize newerTimebaseRegion (timebaseStates g layout cells) = side at *
  constructor
  · rw [highOf_eq side, highOf_eq side, hsame, sup_eq_left.mpr hnewest]
    exact le_sup_left
  · rw [attemptOf_eq side, attemptOf_eq side, hsame, sup_eq_left.mpr hattempt]
    exact le_sup_left

theorem notBack_of_slot (hr : Regions g layout) (side : Side)
    (hslot : slot < slotCount g) (herased : SlotErased cells (layout.timebaseRegions side) slot)
    (hout : SlotOnly cells cells' (layout.timebaseRegions side) slot) :
    NotBack g layout cells cells' := by
  have hroom := slot_in_region hslot
  have hother := hr.frame (Nat.le_add_right ..) (by omega) hout
  have hgrows : level (timebaseStates g layout cells side).newest ≤
        level (timebaseStates g layout cells' side).newest ∧
      level (timebaseStates g layout cells side).lastCompactionAttempt ≤
        level (timebaseStates g layout cells' side).lastCompactionAttempt :=
    regionState_grows herased hout
  constructor
  · rw [highOf_eq side, highOf_eq side, hother]
    exact sup_le_sup_right hgrows.1 _
  · rw [attemptOf_eq side, attemptOf_eq side, hother]
    exact sup_le_sup_right hgrows.2 _

/-- The new values are there. -/
def Recorded (g : Geometry) (layout : FlashJournalLayout) (cells : Image) (value : UInt64)
    (attempt : Option UInt64) : Prop :=
  level (some value) ≤ highOf g layout cells ∧
    ∀ a, attempt = some a → Minutes a → level (some a) ≤ attemptOf g layout cells

/-- A call took neither value back. -/
def TimebaseKept (g : Geometry) (layout : FlashJournalLayout) (d d' : Device) : Prop :=
  NotBack g layout d.cells d'.cells ∧ d'.clean = d.clean

/-- A call left a region as it was. -/
def Untouched (g : Geometry) (layout : FlashJournalLayout) (side : Side) (d d' : Device) : Prop :=
  timebaseStates g layout d'.cells side = timebaseStates g layout d.cells side ∧
    d'.clean = d.clean

variable (hr : Regions g layout)
include hr

/-- A slot write lowers nothing, and if it returns the new values are there. -/
theorem ensures_slot (side : Side) (hslot : slot < slotCount g) (value : UInt64)
    (attempt : Option UInt64) (h : SlotErased d.cells (layout.timebaseRegions side) slot) :
    Ensures (writeTimebaseSlot g (layout.timebaseRegions side) slot value attempt) d
      (fun _ d' => (TimebaseKept g layout d d' ∧ Untouched g layout side.other d d') ∧
        Recorded g layout d'.cells value attempt)
      (fun d' => TimebaseKept g layout d d' ∧ Untouched g layout side.other d d') := by
  have hroom := slot_in_region hslot
  have hleft (d' : Device) (hleft : SlotOnly d.cells d'.cells (layout.timebaseRegions side) slot ∧
      d'.clean = d.clean) : TimebaseKept g layout d d' ∧ Untouched g layout side.other d d' :=
    ⟨⟨notBack_of_slot hr side hslot h hleft.1, hleft.2⟩,
      hr.frame (Nat.le_add_right ..) (by omega) hleft.1, hleft.2⟩
  refine (ensures_writeTimebaseSlot value attempt h).mono ?_ hleft
  rintro - d' ⟨hout, hvalue, hattempt⟩
  have hmem := Finset.mem_range.mpr hslot
  refine ⟨hleft d' hout, ?_, fun a ha hminutes => ?_⟩
  · rw [← hvalue, highOf_eq side]
    simp only [timebaseStates, regionState, finish, scanUpTo_level]
    exact le_sup_of_le_left (Finset.le_sup (f := fun slot =>
      level (slotValue (slotBytes d'.cells (layout.timebaseRegions side) slot))) hmem)
  · rw [← hattempt a ha hminutes, attemptOf_eq side]
    simp only [timebaseStates, regionState, finish, scanUpTo_level]
    exact le_sup_of_le_left (Finset.le_sup (f := fun slot =>
      level (slotAttempt (slotBytes d'.cells (layout.timebaseRegions side) slot))) hmem)

theorem ensures_clear (side : Side) :
    Ensures (clearRegion g (layout.timebaseRegions side)
        (timebaseStates g layout d.cells side).anyUsed) d
      (fun _ d' => Untouched g layout side.other d d' ∧
        SlotErased d'.cells (layout.timebaseRegions side) 0)
      (Untouched g layout side.other d) := by
  have hroom := slot_in_region hr.slots
  unfold clearRegion
  cases hused : (timebaseStates g layout d.cells side).anyUsed with
  | false =>
    rw [if_neg Bool.false_ne_true]
    exact ensures_pure ⟨⟨rfl, rfl⟩, erased_unused hr.slots hused⟩
  | true =>
    rw [if_pos rfl]
    refine ((ensures_erase g _ _ d).mono ?_ ?_).mapError
    · rintro - d' ⟨hcells, hclean⟩
      rw [SlotErased, Untouched, hcells]
      exact ⟨⟨hr.frame Nat.le.refl Nat.le.refl eraseCells_outside, hclean⟩, eraseCells_erased.mono⟩
    · rintro d' ⟨⟨n, hn, hcells⟩, hclean⟩
      rw [Untouched, hcells]
      exact ⟨hr.frame Nat.le.refl Nat.le.refl eraseCells_outside.mono, hclean⟩

theorem ensures_writeTimebaseState
    (hsettled : Settled g layout d.cells) (value : UInt64) (attempt : Option UInt64) :
    Ensures (writeTimebaseState g layout (timebaseStates g layout d.cells) value attempt) d
      (fun _ d' => TimebaseKept g layout d d' ∧ Recorded g layout d'.cells value attempt)
      (TimebaseKept g layout d) := by
  unfold writeTimebaseState
  simp only
  cases hfull : (timebaseStates g layout d.cells
      (newerTimebaseRegion (timebaseStates g layout d.cells))).appendAt with
  | some slot =>
    obtain ⟨hslot, herased⟩ := erased_appendAt hr.slots hfull
    exact (ensures_slot hr _ hslot value attempt herased).mono
      (fun _ _ h => ⟨h.1.1, h.2⟩) (fun _ h => h.1)
  | none =>
    -- Whatever happens to the other region, the newer one stays.
    have hkeep (d' : Device) (h : Untouched g layout
        (newerTimebaseRegion (timebaseStates g layout d.cells)).other.other d d') :
        TimebaseKept g layout d d' := by
      rw [Side.other_other] at h
      exact ⟨notBack_of_newer hsettled hfull h.1, h.2⟩
    refine ((ensures_clear hr _).weaken hkeep).bind ?_
    rintro - d1 ⟨⟨hsame, hclean⟩, herased⟩
    have hboth (d' : Device) (h : Untouched g layout
        (newerTimebaseRegion (timebaseStates g layout d.cells)).other.other d1 d') :
        TimebaseKept g layout d d' :=
      hkeep d' ⟨h.1.trans hsame, h.2.trans hclean⟩
    exact (ensures_slot hr _ hr.slots value attempt herased).mono
      (fun _ d' h => ⟨hboth d' h.1.2, h.2⟩) (fun d' h => hboth d' h.2)

omit hr

/-! ## Scanning -/

theorem reads_scanSlots (g : Geometry) (region : Nat) (slots : List Nat) (s : TimebaseScan) :
    Reads (scanSlots g region slots s) := by
  induction slots generalizing s with
  | nil => exact reads_pure s
  | cons slot slots ih =>
    apply ((reads_read g _ _).mapError _).bind
    intro bytes
    exact ih _

theorem reads_scanTimebaseRegion (g : Geometry) (region : Nat) :
    Reads (scanTimebaseRegion g region) := by
  apply (reads_scanSlots g region _ _).bind
  intro s
  exact reads_pure _

theorem scanSlots_quiet (region : Nat) (slots : List Nat) (s : TimebaseScan) (h : ∀ slot ∈ slots,
      check g g.readSize (region + slot * timebaseSlotLen) timebaseSlotLen = none) :
    scanSlots g region slots s d.quiet =
      (.ok (slots.foldl (fun s slot => s.see slot (slotBytes d.cells region slot)) s),
        d.quiet) := by
  induction slots generalizing s with
  | nil => rfl
  | cons slot slots ih =>
    rw [scanSlots, bind_ok (mapError_ok (read_quiet (h slot (List.mem_cons_self ..)) d))]
    exact ih _ fun slot' hslot' => h slot' (List.mem_cons_of_mem _ hslot')

theorem scanTimebaseRegion_quiet (hr : Regions g layout) (side : Side) :
    scanTimebaseRegion g (layout.timebaseRegions side) d.quiet =
      (.ok (timebaseStates g layout d.cells side), d.quiet) := by
  rw [scanTimebaseRegion, bind_ok (scanSlots_quiet _ _ _ fun slot hslot =>
    hr.readable side slot (List.mem_range.mp hslot))]
  rfl

/-- What `inspect` reports of a flash. -/
def timebaseStateOf (g : Geometry) (layout : FlashJournalLayout) (cells : Image) :
    FlashJournalTimebaseState where
  highWater := maxMillis (maxMillis none (timebaseStates g layout cells .first).newest)
    (timebaseStates g layout cells .second).newest
  lastCompactionAttempt :=
    maxMillis (maxMillis none (timebaseStates g layout cells .first).lastCompactionAttempt)
      (timebaseStates g layout cells .second).lastCompactionAttempt

theorem inspectTimebaseState_quiet (hr : Regions g layout) : inspectTimebaseState g layout d.quiet =
      (.ok (timebaseStateOf g layout d.cells), d.quiet) := by
  have hinspect (side : Side) (state : FlashJournalTimebaseState) :
      inspectRegion g (layout.timebaseRegions side) state d.quiet =
        (.ok ⟨maxMillis state.highWater (timebaseStates g layout d.cells side).newest,
          maxMillis state.lastCompactionAttempt
            (timebaseStates g layout d.cells side).lastCompactionAttempt⟩, d.quiet) := by
    rw [inspectRegion, hr.valid side]
    simp only
    rw [bind_ok (scanTimebaseRegion_quiet hr side)]
    rfl
  rw [inspectTimebaseState, bind_ok (hinspect .first _)]
  exact hinspect .second _

theorem timebaseStateOf_level :
    level (timebaseStateOf g layout cells).highWater = highOf g layout cells ∧
      level (timebaseStateOf g layout cells).lastCompactionAttempt = attemptOf g layout cells := by
  simp only [timebaseStateOf, level_maxMillis, highOf, attemptOf]
  rw [show level none = ⊥ from rfl, bot_sup_eq, bot_sup_eq]
  exact ⟨rfl, rfl⟩

/-- A scan of both regions finds what they hold. -/
theorem ensures_scanTimebase (hr : Regions g layout) (d : Device) :
    Ensures (scanTimebase g layout) d
      (fun states d' => states = timebaseStates g layout d.cells ∧ d'.cells = d.cells ∧
        d'.clean = d.clean)
      (TimebaseKept g layout d) := by
  have hreads : Reads (scanTimebase g layout) := by
    apply (reads_scanTimebaseRegion g _).bind
    intro first
    apply (reads_scanTimebaseRegion g _).bind
    intro second
    exact reads_pure _
  have hquiet : scanTimebase g layout d.quiet =
      (.ok (timebaseStates g layout d.cells), d.quiet) := by
    rw [scanTimebase, bind_ok (scanTimebaseRegion_quiet hr .first),
      bind_ok (scanTimebaseRegion_quiet hr .second), perSide_eta]
    rfl
  obtain ⟨hcells, hclean⟩ := hreads.keeps d
  have hanswer := hreads.quiet d
  have hkept : TimebaseKept g layout d (scanTimebase g layout d).2 := by
    rw [TimebaseKept, hcells]
    exact ⟨.refl, hclean⟩
  unfold Ensures
  generalize scanTimebase g layout d = result at *
  obtain ⟨_ | _ | _, d'⟩ := result
  · have hstates := hquiet.symm.trans (hanswer _ rfl)
    injection hstates with hstates
    injection hstates with hstates
    exact ⟨hstates.symm, hcells, hclean⟩
  · exact hkept
  · exact hkept

theorem level_le_of_any {stored : Option UInt64} {value : UInt64}
    (h : stored.any (value ≤ ·) = true) : level (some value) ≤ level stored := by
  cases stored with
  | none => exact nomatch h
  | some stored =>
    exact WithBot.coe_le_coe.mpr (UInt64.le_iff_toNat_le.mp (of_decide_eq_true h))

theorem level_le_getD (stored : Option UInt64) (value fallback : UInt64) :
    level (some value) ≤ level (some ((maxMillis stored (some value)).getD fallback)) := by
  cases stored with
  | none => exact le_refl _
  | some stored =>
    show level (some value) ≤ level (maxMillis (some stored) (some value))
    rw [level_maxMillis]
    exact le_sup_right

theorem TimebaseKept.of_same {d1 d' : Device} (h : TimebaseKept g layout d1 d')
    (hcells : d1.cells = d.cells) (hclean : d1.clean = d.clean) : TimebaseKept g layout d d' := by
  rw [TimebaseKept, ← hcells, ← hclean]
  exact h

theorem ensures_recordTimebase (hr : Regions g layout) (hsettled : Settled g layout d.cells)
    (now : UInt64) :
    Ensures (recordTimebase g layout now) d (fun _ d' => TimebaseKept g layout d d' ∧
        level (some (saturatingAdd now timebaseHeadroomMillis)) ≤ highOf g layout d'.cells)
      (TimebaseKept g layout d) := by
  unfold recordTimebase
  refine (ensures_scanTimebase hr d).bind ?_
  rintro states d1 ⟨rfl, hcells, hclean⟩
  have hkept (d' : Device) (h : TimebaseKept g layout d1 d') : TimebaseKept g layout d d' :=
    h.of_same hcells hclean
  rw [← hcells] at hsettled ⊢
  simp only
  split
  · next hstored =>
      have hle := level_le_of_any hstored
      rw [level_maxMillis] at hle
      exact ensures_pure ⟨hkept d1 ⟨.refl, rfl⟩, hle⟩
  · exact (ensures_writeTimebaseState hr hsettled _ _).mono
      (fun _ d' h => ⟨hkept d' h.1, h.2.1⟩) hkept

theorem ensures_recordCompactionBudget (hr : Regions g layout)
    (hsettled : Settled g layout d.cells) (attemptedAt : UInt64) :
    Ensures (recordCompactionBudget g layout attemptedAt) d
      (fun attempt d' => TimebaseKept g layout d d' ∧ attemptedAt.toNat ≤ attempt.toNat ∧
        level (some attempt) ≤ attemptOf g layout d'.cells ∧
        (level (some (saturatingAdd attemptedAt timebaseHeadroomMillis)) ≤
            highOf g layout d'.cells ∨
          level (some attempt) ≤ attemptOf g layout d.cells))
      (TimebaseKept g layout d) := by
  unfold recordCompactionBudget
  cases hround : roundCompactionAttemptUp attemptedAt with
  | error e => exact ensures_fail ⟨.refl, rfl⟩
  | ok rounded =>
    obtain ⟨hminutes, hle⟩ := minutes_round hround
    refine (ensures_scanTimebase hr d).bind ?_
    rintro states d1 ⟨rfl, hcells, hclean⟩
    have hkept (d' : Device) (h : TimebaseKept g layout d1 d') : TimebaseKept g layout d d' :=
      h.of_same hcells hclean
    rw [← hcells] at hsettled ⊢
    simp only
    split
    · next stored hfound =>
        obtain ⟨hmax, hstored⟩ := Option.filter_eq_some_iff.mp hfound
        have hattempt : level (some stored) ≤ attemptOf g layout d1.cells := by
          rw [← hmax, level_maxMillis]
          exact le_refl _
        have hle' := UInt64.le_iff_toNat_le.mp (of_decide_eq_true hstored)
        exact ensures_pure ⟨hkept d1 ⟨.refl, rfl⟩, hle.trans hle', hattempt, Or.inr hattempt⟩
    · refine ((ensures_writeTimebaseState hr hsettled _ (some rounded)).weaken hkept).bind ?_
      rintro - d' ⟨hkeeps, hhigh, hattempt⟩
      exact ensures_pure ⟨hkept d' hkeeps, hle, hattempt rounded rfl hminutes,
        Or.inl ((level_le_getD ..).trans hhigh)⟩

end

/-! ## Runs -/

section

variable (g : Geometry) (layout : FlashJournalLayout)

/-- One step: a call under some faults on settled regions, or any change elsewhere on
the flash. -/
inductive TimebaseMove (d d' : Device) : Prop where
  | recordTimebase (faults : List Fault) (now : UInt64) (outcome : Outcome JournalError Unit)
      (hsettled : Settled g layout d.cells)
      (hrun : recordTimebase g layout now (facing d faults) = (outcome, d')) :
      TimebaseMove d d'
  | recordCompactionBudget (faults : List Fault) (attemptedAt : UInt64)
      (outcome : Outcome JournalError UInt64) (hsettled : Settled g layout d.cells)
      (hrun : recordCompactionBudget g layout attemptedAt (facing d faults) = (outcome, d')) :
      TimebaseMove d d'
  | elsewhere
      (h : ∀ s x, layout.timebaseRegions s ≤ x → x < layout.timebaseRegions s + g.eraseSize →
        d'.cells x = d.cells x) :
      TimebaseMove d d'

inductive TimebaseRun (d : Device) : Device → Prop where
  | nil : TimebaseRun d d
  | step {d' d'' : Device} (h : TimebaseRun d d') (hmove : TimebaseMove g layout d' d'') :
      TimebaseRun d d''

variable {g layout} {d d' : Device} (hr : Regions g layout)
include hr

theorem TimebaseMove.notBack (h : TimebaseMove g layout d d') :
    NotBack g layout d.cells d'.cells := by
  cases h with
  | recordTimebase faults now outcome hsettled hrun =>
    have hcall := ((ensures_recordTimebase hr (d := facing d faults) hsettled now).mono
      (fun _ _ h => h.1) (fun _ h => h)).state
    rw [hrun] at hcall
    exact hcall.1
  | recordCompactionBudget faults attemptedAt outcome hsettled hrun =>
    have hcall := ((ensures_recordCompactionBudget hr (d := facing d faults) hsettled
      attemptedAt).mono (fun _ _ h => h.1) (fun _ h => h)).state
    rw [hrun] at hcall
    exact hcall.1
  | elsewhere h =>
    have hsame (s : Side) : timebaseStates g layout d'.cells s =
        timebaseStates g layout d.cells s := timebaseStates_congr (h s)
    rw [NotBack, highOf, highOf, attemptOf, attemptOf, hsame .first, hsame .second]
    exact ⟨le_refl _, le_refl _⟩

theorem TimebaseRun.notBack (h : TimebaseRun g layout d d') :
    NotBack g layout d.cells d'.cells := by
  induction h with
  | nil => exact .refl
  | step _ hmove ih => exact ih.trans (hmove.notBack hr)

theorem exists_inspected (d : Device) :
    ∃ state, inspectTimebaseState g layout d.quiet = (.ok state, d.quiet) ∧
      level state.highWater = highOf g layout d.cells ∧
      level state.lastCompactionAttempt = attemptOf g layout d.cells :=
  ⟨_, inspectTimebaseState_quiet hr, timebaseStateOf_level.1, timebaseStateOf_level.2⟩

omit hr

/-- The timebase never goes back, on settled regions. No run lowers the high water or
the last compaction attempt that `inspect` reports; after an acknowledged
`recordTimebase` and any run the high water is at least the instant with its headroom;
after an acknowledged `recordCompactionBudget` and any run the attempt is at least the
one returned, which is not before the attempt given, and the high water is at least its
instant with headroom unless the attempt was stored already. -/
theorem timebase_not_back (scratchLen : Nat) (hvalid : validate g layout scratchLen = none)
    (hread : g.eraseSize % g.readSize = 0) (hslot : timebaseSlotLen ≤ g.eraseSize) :
    (∀ d d', TimebaseRun g layout d d' → ∃ before after,
      inspectTimebaseState g layout d.quiet = (.ok before, d.quiet) ∧
      inspectTimebaseState g layout d'.quiet = (.ok after, d'.quiet) ∧
      level before.highWater ≤ level after.highWater ∧
      level before.lastCompactionAttempt ≤ level after.lastCompactionAttempt) ∧
    (∀ d d1 d' faults now, Settled g layout d.cells →
      recordTimebase g layout now (facing d faults) = (.ok (), d1) →
      TimebaseRun g layout d1 d' → ∃ after,
        inspectTimebaseState g layout d'.quiet = (.ok after, d'.quiet) ∧
        level (some (saturatingAdd now timebaseHeadroomMillis)) ≤ level after.highWater) ∧
    (∀ d d1 d' faults attemptedAt attempt, Settled g layout d.cells →
      recordCompactionBudget g layout attemptedAt (facing d faults) = (.ok attempt, d1) →
      TimebaseRun g layout d1 d' → ∃ before after,
        inspectTimebaseState g layout d.quiet = (.ok before, d.quiet) ∧
        inspectTimebaseState g layout d'.quiet = (.ok after, d'.quiet) ∧
        attemptedAt.toNat ≤ attempt.toNat ∧
        level (some attempt) ≤ level after.lastCompactionAttempt ∧
        (level (some (saturatingAdd attemptedAt timebaseHeadroomMillis)) ≤ level after.highWater ∨
          level (some attempt) ≤ level before.lastCompactionAttempt)) := by
  have hr := regions_of_validate hvalid hread hslot
  refine ⟨fun d d' hrun => ?_, fun d d1 d' faults now hsettled hcall hrun => ?_,
    fun d d1 d' faults attemptedAt attempt hsettled hcall hrun => ?_⟩
  · obtain ⟨before, hbefore, hhigh, hattempt⟩ := exists_inspected hr d
    obtain ⟨after, hafter, hhigh', hattempt'⟩ := exists_inspected hr d'
    obtain ⟨hnotHigh, hnotAttempt⟩ := hrun.notBack hr
    rw [← hhigh, ← hhigh'] at hnotHigh
    rw [← hattempt, ← hattempt'] at hnotAttempt
    exact ⟨before, after, hbefore, hafter, hnotHigh, hnotAttempt⟩
  · obtain ⟨after, hafter, hhigh', -⟩ := exists_inspected hr d'
    have hwritten := ensures_recordTimebase hr (d := facing d faults) hsettled now
    rw [Ensures, hcall] at hwritten
    refine ⟨after, hafter, ?_⟩
    rw [hhigh']
    exact hwritten.2.trans (hrun.notBack hr).1
  · obtain ⟨before, hbefore, -, hattempt⟩ := exists_inspected hr d
    obtain ⟨after, hafter, hhigh', hattempt'⟩ := exists_inspected hr d'
    have hwritten := ensures_recordCompactionBudget hr (d := facing d faults) hsettled attemptedAt
    rw [Ensures, hcall] at hwritten
    obtain ⟨-, hle, hstored, hhigh⟩ := hwritten
    obtain ⟨hnotHigh, hnotAttempt⟩ := hrun.notBack hr
    refine ⟨before, after, hbefore, hafter, hle, ?_, ?_⟩
    · rw [hattempt']
      exact hstored.trans hnotAttempt
    · rw [hhigh', hattempt]
      exact hhigh.imp_left fun h => h.trans hnotHigh

end

def narrowGeometry : Geometry := ⟨1, 4, 64, 256⟩

def narrowLayout : FlashJournalLayout :=
  ⟨perSide 0 64, perSide ⟨128, 192⟩ ⟨192, 256⟩⟩

/-- A budget and then an instant, both acknowledged. -/
def budgetedFlash : Device :=
  (recordCompactionBudget narrowGeometry narrowLayout 60000 blankFlash).2

def timedFlash : Device :=
  (recordTimebase narrowGeometry narrowLayout 100000 (facing budgetedFlash [])).2

/-- The flash after the power went during a later `recordTimebase`, after the four reads
of the scan and some bytes of the operation behind them. -/
def cutTimed (now : UInt64) (bytes : Nat) (d : Device) : Device :=
  (recordTimebase narrowGeometry narrowLayout now
    (facing d [.none, .none, .none, .none, .stop false bytes])).2

theorem timebase_not_back_cut : ∃ after, inspectTimebaseState narrowGeometry narrowLayout
        (cutTimed 200000 24 timedFlash).quiet =
        (.ok after, (cutTimed 200000 24 timedFlash).quiet) ∧
      level (some (saturatingAdd 100000 timebaseHeadroomMillis)) ≤ level after.highWater := by
  have hok : (recordTimebase narrowGeometry narrowLayout 100000
      (facing budgetedFlash [])).1 = .ok () := by
    decide +kernel
  have hcall : recordTimebase narrowGeometry narrowLayout 100000 (facing budgetedFlash []) =
      (.ok (), timedFlash) := by
    rw [timedFlash, ← hok]
  have hcut : TimebaseRun narrowGeometry narrowLayout timedFlash (cutTimed 200000 24 timedFlash) :=
    .step .nil (.recordTimebase [.none, .none, .none, .none, .stop false 24] 200000 _
      (by decide +kernel) Prod.mk.eta.symm)
  exact (timebase_not_back 8 (by decide) (by decide) (by decide)).2.1
    budgetedFlash timedFlash _ [] 100000 (by decide +kernel) hcall hcut

/-- Two writes in a row are cut off behind their snapshot, so the second region is full
without a budget; the next call erases the first region, which has the only one, and is
cut off as well. -/
theorem compactionAttempt_lost :
    (recordCompactionBudget narrowGeometry narrowLayout 60000 blankFlash).1 = .ok 60000 ∧
      (inspectTimebaseState narrowGeometry narrowLayout timedFlash.quiet).1 =
        .ok ⟨some 7300000, some 60000⟩ ∧
      (inspectTimebaseState narrowGeometry narrowLayout
        (cutTimed 400000 64 (cutTimed 300000 24 (cutTimed 200000 24 timedFlash))).quiet).1 =
        .ok ⟨some 7500000, none⟩ := by
  decide +kernel

end Prns.Ports.Journal
