import Prns.Ports.IdentityVault

/-!
# Changing one entry of the identity vault

A change under one label leaves every other label with its answers, and the label itself
with its old or its new ones, as long as it does not have to rewrite the region: an append
may be interrupted anywhere. A rewrite erases the records of all labels before it writes
them back; what it does without a fault is right, and a power loss in it loses them.
-/

namespace Prns.Ports.IdentityVault

open Verified
open Verified.NorFlash (Geometry Image FlashError check)
open Verified.TornFlash (Device Ahead)
open Verified.SlottedFlash (slot Vacant Within Uncommitted framed)
open Act

variable {v : Vault} {cells cells' : Image} {label : IdentityLabel} {i index : Nat}

/-! ## Reading -/

variable {α : Type}

section

/-- The flash does not refuse to read the slot. -/
def Readable (v : Vault) (i : Nat) : Prop :=
  check v.g v.g.readSize (v.table.start i) slotLen = none

/-- What a search for the label sees in a slot. -/
def sees (v : Vault) (cells : Image) (label : IdentityLabel) (i : Nat) :
    Except FlashVaultError (Option Record) :=
  (decodeSlot (slot v.table cells i)).map (Option.filter (·.label = label))

theorem calm_readBuffer (i : Nat) : Calm Device.quiet (readBuffer v i) :=
  (TornFlash.calm_read ..).mapError

theorem calm_readSlot (i : Nat) : Calm Device.quiet (readSlot v i) :=
  (calm_readBuffer i).bind fun _ => calm_ofExcept _

theorem calm_findRecord (label : IdentityLabel) : Calm Device.quiet (findRecord v label) :=
  calm_firstOf (fun i => (calm_readSlot i).bind fun _ => calm_pure _) _

theorem calm_readVacant (i : Nat) : Calm Device.quiet (readVacant v i) :=
  (calm_readBuffer i).bind fun _ => calm_pure _

theorem calm_findVacantSlot : Calm Device.quiet (findVacantSlot v) :=
  calm_firstOf calm_readVacant _

theorem calm_collectRecords (indices : List Nat) (records : List Record) :
    Calm Device.quiet (collectRecords v indices records) := by
  induction indices generalizing records with
  | nil => exact calm_pure records
  | cons index indices ih =>
    refine (calm_readSlot index).bind fun r => ?_
    cases r with
    | none => exact ih records
    | some record => exact (calm_ofExcept _).bind fun records' => ih records'

theorem calm_readRecords : Calm Device.quiet (readRecords v) := calm_collectRecords _ _

/-- A slot is read without faults: the flash refuses, or the bytes are made into `r`. -/
def readOutcome {α : Type} (v : Vault) (i : Nat) (r : Except FlashVaultError α) :
    Outcome FlashVaultError α :=
  match check v.g v.g.readSize (v.table.start i) slotLen with
  | some e => .error (.flash e)
  | none =>
    match r with
    | .ok a => .ok a
    | .error e => .error e

variable {r : Except FlashVaultError α}

theorem readOutcome_eq_ok {a : α} : readOutcome v i r = .ok a ↔ Readable v i ∧ r = .ok a := by
  unfold readOutcome Readable
  cases check v.g v.g.readSize (v.table.start i) slotLen with
  | some e => exact ⟨nofun, nofun⟩
  | none =>
    cases r with
    | ok b => simp
    | error e => simp

theorem readBuffer_eq (i : Nat) (cells : Image) :
    readBuffer v i ⟨cells, []⟩ = (readOutcome v i (.ok (slot v.table cells i)), ⟨cells, []⟩) := by
  unfold readBuffer readOutcome TornFlash.read mapError
  cases check v.g v.g.readSize (v.table.start i) slotLen with
  | some e => rfl
  | none => rfl

theorem readBuffer_bind (i : Nat) (cells : Image) {k : List UInt8 → Act Device FlashVaultError α}
    (hk : k (slot v.table cells i) ⟨cells, []⟩ = (match r with
        | .ok a => .ok a
        | .error e => .error e, ⟨cells, []⟩)) :
    (readBuffer v i >>= k) ⟨cells, []⟩ = (readOutcome v i r, ⟨cells, []⟩) := by
  rw [bind_apply, andThen, readBuffer_eq]
  unfold readOutcome
  cases check v.g v.g.readSize (v.table.start i) slotLen with
  | some e => rfl
  | none => exact hk

theorem readSlot_eq (i : Nat) (cells : Image) : readSlot v i ⟨cells, []⟩ =
      (readOutcome v i (decodeSlot (slot v.table cells i)), ⟨cells, []⟩) := by
  apply readBuffer_bind
  cases decodeSlot (slot v.table cells i) <;> rfl

theorem readMatching_eq (label : IdentityLabel) (i : Nat) (cells : Image) :
    readMatching v label i ⟨cells, []⟩ = (readOutcome v i (sees v cells label i), ⟨cells, []⟩) := by
  rw [readMatching, bind_apply, andThen, readSlot_eq, sees]
  unfold readOutcome
  cases check v.g v.g.readSize (v.table.start i) slotLen with
  | some e => rfl
  | none => cases decodeSlot (slot v.table cells i) <;> rfl

theorem readVacant_eq (i : Nat) (cells : Image) : readVacant v i ⟨cells, []⟩ =
      (readOutcome v i (.ok (if (slot v.table cells i).all (· == 0xFF) then some i else none)),
        ⟨cells, []⟩) :=
  readBuffer_bind i cells rfl

theorem view_congr (h : ∀ i < v.slots, sees v cells' label i = sees v cells label i) :
    view v cells' label = view v cells label := by
  apply firstOf_congr
  intro i hi
  rw [readMatching_eq, readMatching_eq, h i (List.mem_range.mp hi)]
  exact ⟨rfl, rfl, rfl⟩

theorem view_eq {p : Nat → Option Record}
    (h : ∀ i < v.slots, Readable v i ∧ sees v cells label i = .ok (p i)) :
    view v cells label = .ok ((List.range v.slots).findSome? p) := by
  have hrun : ∀ i ∈ List.range v.slots,
      readMatching v label i ⟨cells, []⟩ = (.ok (p i), ⟨cells, []⟩) := by
    intro i hi
    rw [readMatching_eq, readOutcome_eq_ok.mpr (h i (List.mem_range.mp hi))]
  rw [view, findRecord, firstOf_eq hrun]

theorem sees_of_view (h : view v cells label = .ok none) :
    ∀ i < v.slots, Readable v i ∧ sees v cells label i = .ok none := by
  intro i hi
  have hstay : ∀ i ∈ List.range v.slots, (readMatching v label i ⟨cells, []⟩).2 = ⟨cells, []⟩ := by
    intro i _
    rw [readMatching_eq]
  have hrun := (firstOf_cases hstay h).2 rfl i (List.mem_range.mpr hi)
  rw [readMatching_eq] at hrun
  exact readOutcome_eq_ok.mp (Prod.mk.inj hrun).1

theorem vacant_of_findVacantSlot (h : (findVacantSlot v ⟨cells, []⟩).1 = .ok (some index)) :
    index < v.slots ∧ Vacant v.table cells index := by
  have hstay : ∀ i ∈ List.range v.slots, (readVacant v i ⟨cells, []⟩).2 = ⟨cells, []⟩ := by
    intro i _
    rw [readVacant_eq]
  obtain ⟨i, hi, hrun⟩ := (firstOf_cases hstay h).1 index rfl
  rw [readVacant_eq] at hrun
  have hfound := (readOutcome_eq_ok.mp (Prod.mk.inj hrun).1).2
  by_cases hall : (slot v.table cells i).all (· == 0xFF) = true
  · rw [if_pos hall] at hfound
    cases hfound
    exact ⟨List.mem_range.mp hi, SlottedFlash.vacant_iff.mp hall⟩
  · rw [if_neg hall] at hfound
    cases hfound

end

variable {target : Option RecordPayload} {payload : RecordPayload} {record : Record}

/-- From `cells` to `cells'` the label got its target at most, and no other label
changed. -/
def Changed (v : Vault) (label : IdentityLabel) (target : Option RecordPayload)
    (cells cells' : Image) : Prop :=
  (∀ other, other ≠ label → view v cells' other = view v cells other) ∧
    (view v cells' label = view v cells label ∨
      view v cells' label = .ok (target.map fun payload => ⟨label, payload⟩))

theorem Changed.refl : Changed v label target cells cells := ⟨fun _ _ => rfl, Or.inl rfl⟩

theorem decodeSlot_uncommitted (h : Uncommitted v.table cells i) :
    decodeSlot (slot v.table cells i) = .ok none := by
  unfold decodeSlot
  rw [byteAt, List.getD_eq_getElem?_getD, h.unmarked]
  rfl

theorem sees_uncommitted (h : Uncommitted v.table cells i) (label : IdentityLabel) :
    sees v cells label i = .ok none := by
  rw [sees, decodeSlot_uncommitted h]
  rfl

theorem sees_framed (record : Record)
    (h : slot v.table cells i = framed v.table record.payload.state record.body)
    (label : IdentityLabel) :
    sees v cells label i = .ok (if record.label = label then some record else none) := by
  rw [sees, h, decodeSlot_framed]
  by_cases hlabel : record.label = label
  · simp [Except.map, hlabel]
  · simp [Except.map, hlabel]

theorem sees_within (hwithin : Within v.table index cells cells') (hne : i ≠ index)
    (label : IdentityLabel) : sees v cells' label i = sees v cells label i := by
  rw [sees, hwithin.slot hne, sees]

theorem changed_of_framed (hnone : view v cells label = .ok none) (hindex : index < v.slots)
    (hvacant : Vacant v.table cells index) (hwithin : Within v.table index cells cells')
    (hslot : slot v.table cells' index =
      framed v.table payload.state (Record.body ⟨label, payload⟩)) :
    Changed v label (some payload) cells cells' := by
  constructor
  · intro other hother
    apply view_congr
    intro i _
    by_cases hi : i = index
    · rw [hi, sees_framed ⟨label, payload⟩ hslot, if_neg (Ne.symm hother),
        sees_uncommitted hvacant.uncommitted]
    · exact sees_within hwithin hi other
  · refine Or.inr ?_
    have hsees : ∀ i < v.slots, Readable v i ∧ sees v cells' label i =
        .ok (if i = index then some ⟨label, payload⟩ else none) := by
      intro i hi
      obtain ⟨hreadable, hold⟩ := sees_of_view hnone i hi
      refine ⟨hreadable, ?_⟩
      by_cases hi : i = index
      · rw [if_pos hi, hi, sees_framed ⟨label, payload⟩ hslot, if_pos rfl]
      · rw [if_neg hi, sees_within hwithin hi, hold]
    rw [view_eq hsees]
    congr 1
    cases hfind : (List.range v.slots).findSome? fun i =>
        if i = index then some (⟨label, payload⟩ : Record) else none with
    | none =>
      have hmiss := List.findSome?_eq_none_iff.mp hfind index (List.mem_range.mpr hindex)
      rw [if_pos rfl] at hmiss
      cases hmiss
    | some record =>
      obtain ⟨i, -, hhit⟩ := List.exists_of_findSome?_eq_some hfind
      split at hhit
      · exact hhit.symm
      · cases hhit

section

variable {records records' : List Record}

/-- What is asked of the sizes of a flash. -/
structure Contract (g : Geometry) : Prop where
  erases : 0 < g.eraseSize
  aligned : g.writeSize ∣ g.eraseSize

def stored (v : Vault) (cells : Image) (i : Nat) : Option Record :=
  match decodeSlot (slot v.table cells i) with
  | .ok r => r
  | .error _ => none

variable {slots : Nat}

theorem length_of_pushRecord (h : pushRecord slots records record = .ok records') :
    records' = records ++ [record] ∧ records'.length ≤ slots := by
  unfold pushRecord at h
  split at h
  · cases h
    refine ⟨rfl, ?_⟩
    rw [List.length_append, List.length_singleton]
    omega
  · cases h

theorem of_collectRecords {indices : List Nat}
    (h : (collectRecords v indices records ⟨cells, []⟩).1 = .ok records')
    (hlen : records.length ≤ v.slots) :
    (∀ i ∈ indices, Readable v i ∧ decodeSlot (slot v.table cells i) = .ok (stored v cells i)) ∧
      records' = records ++ indices.filterMap (stored v cells) ∧ records'.length ≤ v.slots := by
  induction indices generalizing records with
  | nil =>
    cases h
    exact ⟨nofun, (List.append_nil _).symm, hlen⟩
  | cons i indices ih =>
    obtain ⟨r, d, hread, hrest⟩ := of_bind_ok h
    rw [readSlot_eq] at hread
    obtain ⟨hreadable, hdecode⟩ := readOutcome_eq_ok.mp (Prod.mk.inj hread).1
    obtain rfl : ⟨cells, []⟩ = d := (Prod.mk.inj hread).2
    have hstored : stored v cells i = r := by
      rw [stored, hdecode]
    rw [← hstored] at hdecode
    cases r with
    | none =>
      obtain ⟨hall, hrecords, hlen'⟩ := ih hrest hlen
      refine ⟨List.forall_mem_cons.mpr ⟨⟨hreadable, hdecode⟩, hall⟩, ?_, hlen'⟩
      rw [hrecords, List.filterMap_cons_none hstored]
    | some record =>
      obtain ⟨pushed, d, hpush, hrest⟩ := of_bind_ok hrest
      obtain ⟨hpush', rfl⟩ := of_ofExcept hpush
      obtain ⟨rfl, hpushed⟩ := length_of_pushRecord hpush'
      obtain ⟨hall, hrecords, hlen'⟩ := ih hrest hpushed
      refine ⟨List.forall_mem_cons.mpr ⟨⟨hreadable, hdecode⟩, hall⟩, ?_, hlen'⟩
      rw [hrecords, List.filterMap_cons_some hstored, List.append_assoc, List.singleton_append]

/-- A search among records. -/
def holder (label : IdentityLabel) (records : List Record) : Option Record :=
  records.find? (·.label = label)

theorem holder_filterMap (label : IdentityLabel) (f : Nat → Option Record) (indices : List Nat) :
    holder label (indices.filterMap f) =
      indices.findSome? fun i => (f i).filter (·.label = label) := by
  unfold holder
  induction indices with
  | nil => rfl
  | cons i indices ih =>
    rw [List.findSome?_cons]
    cases hf : f i with
    | none =>
      rw [List.filterMap_cons_none hf, ih]
      rfl
    | some record =>
      rw [List.filterMap_cons_some hf, List.find?_cons, ih, Option.filter_some]
      by_cases hlabel : record.label = label <;> simp [hlabel]

theorem filterMap_getElem? {n : Nat} (hlen : records.length ≤ n) :
    (List.range n).filterMap (fun i => records[i]?) = records := by
  induction records generalizing n with
  | nil => simp
  | cons record records ih =>
    obtain ⟨n, rfl⟩ : ∃ k, n = k + 1 := ⟨n - 1, by rw [List.length_cons] at hlen; omega⟩
    rw [List.range_succ_eq_map, List.filterMap_cons, List.filterMap_map]
    show record :: (List.range n).filterMap (fun i => records[i]?) = record :: records
    rw [ih (Nat.le_of_succ_le_succ hlen)]

theorem view_of_decoded {f : Nat → Option Record}
    (h : ∀ i < v.slots, Readable v i ∧ decodeSlot (slot v.table cells i) = .ok (f i))
    (label : IdentityLabel) :
    view v cells label = .ok (holder label ((List.range v.slots).filterMap f)) := by
  rw [holder_filterMap]
  apply view_eq
  intro i hi
  obtain ⟨hreadable, hdecode⟩ := h i hi
  refine ⟨hreadable, ?_⟩
  rw [sees, hdecode]
  rfl

/-! ### Without faults -/

theorem le_eraseSpan {g : Geometry} (h : 0 < g.eraseSize) (slots : Nat) :
    slots * slotLen ≤ eraseSpan g slots := by
  unfold eraseSpan
  have hlt := Nat.lt_mul_div_succ (slots * slotLen + g.eraseSize - 1) h
  rw [Nat.mul_add, Nat.mul_one, Nat.mul_comm g.eraseSize] at hlt
  omega

theorem of_validate (h : validate v = none) :
    v.g.writeSize ∣ slotLen ∧ v.g.writeSize ∣ commitLen ∧ v.g.eraseSize ∣ v.offset ∧
      v.offset + eraseSpan v.g v.slots ≤ v.g.capacity := by
  unfold validate at h
  split at h
  · cases h
  next haligned =>
  split at h
  · cases h
  · next hcapacity =>
    simp only [not_or, ne_eq, not_not] at haligned
    exact ⟨Nat.dvd_of_mod_eq_zero haligned.2.1, Nat.dvd_of_mod_eq_zero haligned.2.2.2.1,
      Nat.dvd_of_mod_eq_zero haligned.2.2.2.2, Nat.not_lt.mp hcapacity⟩

theorem start_eq (i : Nat) : v.table.start i = v.offset + i * slotLen := rfl

variable (hcontract : Contract v.g)
include hcontract

theorem slot_inside (hi : i < v.slots) :
    v.table.start i + slotLen ≤ v.offset + eraseSpan v.g v.slots := by
  have hspan := le_eraseSpan hcontract.erases v.slots
  have hmul := Nat.mul_le_mul_right slotLen (Nat.succ_le_of_lt hi)
  rw [Nat.succ_mul] at hmul
  rw [start_eq]
  omega

theorem check_writeSlot (hvalid : validate v = none) (hi : i < v.slots) (record : Record) :
    check v.g v.g.writeSize (v.table.start i + v.table.commit) record.body.length = none ∧
      check v.g v.g.writeSize (v.table.start i) v.table.commit = none := by
  obtain ⟨hslot, hcommit, hoffset, hcapacity⟩ := of_validate hvalid
  have hinside := slot_inside hcontract hi
  have hword : v.table.commit = commitLen := rfl
  have hroom : commitLen ≤ slotLen := by decide
  have hstart : v.g.writeSize ∣ v.table.start i :=
    Nat.dvd_add (Nat.dvd_trans hcontract.aligned hoffset) (Nat.dvd_mul_left_of_dvd hslot i)
  rw [record.length_body, hword]
  exact ⟨NorFlash.check_none (Nat.mod_eq_zero_of_dvd (Nat.dvd_add hstart hcommit))
    (Nat.mod_eq_zero_of_dvd (Nat.dvd_sub hslot hcommit)) (by omega),
    NorFlash.check_none (Nat.mod_eq_zero_of_dvd hstart) (Nat.mod_eq_zero_of_dvd hcommit) (by omega)⟩

theorem ensures_writeRecords (hvalid : validate v = none) {d : Device}
    (hfaults : d.faults = []) (hfit : index + records.length ≤ v.slots)
    (hvacant : ∀ i, index ≤ i → i < v.slots → Vacant v.table d.cells i) :
    Ensures (writeRecords v index records) d
      (fun _ d' => (∀ i, i < index → slot v.table d'.cells i = slot v.table d.cells i) ∧
        ∀ i, index ≤ i → i < v.slots →
          decodeSlot (slot v.table d'.cells i) = .ok records[i - index]?)
      (fun _ => False) := by
  induction records generalizing index d with
  | nil =>
    refine ensures_pure ⟨fun _ _ => rfl, fun i hi hslots => ?_⟩
    exact decodeSlot_uncommitted (hvacant i hi hslots).uncommitted
  | cons record records ih =>
    rw [List.length_cons] at hfit
    have hchecks := check_writeSlot hcontract hvalid (show index < v.slots by omega) record
    refine ((SlottedFlash.ensures_writeSlot v.g (hvacant index Nat.le.refl (by omega))
      record.length_body).mapError.weaken ?_).bind ?_
    · rintro d₁ ⟨-, -, hfault | hrefused | hrefused⟩
      · exact hfault hfaults
      · exact hrefused hchecks.1
      · exact hrefused hchecks.2
    rintro ⟨⟩ d₁ ⟨hwithin, hslot, hahead⟩
    refine (ih (hahead.quiet hfaults) (by omega) fun i hi hslots =>
      hwithin.vacant (by omega) (hvacant i (by omega) hslots)).mono ?_ fun _ h => h
    rintro ⟨⟩ d₂ ⟨hbefore, hafter⟩
    refine ⟨fun i hi => ?_, fun i hi hslots => ?_⟩
    · rw [hbefore i (by omega), hwithin.slot (by omega)]
    by_cases heq : i = index
    · rw [heq, hbefore index (Nat.lt_succ_self _), hslot, decodeSlot_framed, Nat.sub_self]
      rfl
    · rw [hafter i (by omega) hslots, show i - index = i - (index + 1) + 1 by omega]
      rfl

theorem ensures_rewrite (hvalid : validate v = none) (hfit : records.length ≤ v.slots) :
    Ensures (rewrite v records) ⟨cells, []⟩
      (fun _ d' => ∀ i < v.slots, decodeSlot (slot v.table d'.cells i) = .ok records[i]?)
      (fun _ => False) := by
  obtain ⟨-, -, hoffset, hcapacity⟩ := of_validate hvalid
  have hcheck : check v.g v.g.eraseSize v.offset
      (v.offset + eraseSpan v.g v.slots - v.offset) = none := by
    rw [Nat.add_sub_cancel_left]
    exact NorFlash.check_none (Nat.mod_eq_zero_of_dvd hoffset) (Nat.mul_mod_left _ _) hcapacity
  refine ((TornFlash.ensures_erase v.g (Nat.le_add_right _ _)
    ⟨cells, []⟩).mapError.weaken ?_).bind ?_
  · rintro d₁ ⟨-, -, hrefused | hfault⟩
    · exact hrefused hcheck
    · exact hfault rfl
  rintro ⟨⟩ d₁ ⟨hcells, hahead⟩
  refine (ensures_writeRecords hcontract hvalid (hahead.quiet rfl) (by omega) ?_).mono ?_
    fun _ h => h
  · intro i _ hi
    have hinside := slot_inside hcontract hi
    rw [hcells]
    exact NorFlash.eraseCells_erased.mono hinside (Nat.le_add_right _ _)
  · rintro ⟨⟩ d₂ ⟨-, hafter⟩ i hi
    exact hafter i (Nat.zero_le i) hi

omit hcontract

/-- The records of one label were changed to the target. -/
def Replaced (label : IdentityLabel) (target : Option RecordPayload)
    (records records' : List Record) : Prop :=
  records'.length ≤ records.length ∧
    (∀ other, other ≠ label → holder other records' = holder other records) ∧
    holder label records' = target.map fun payload => ⟨label, payload⟩

theorem holder_cons_self (record : Record) (records : List Record) :
    holder record.label (record :: records) = some record := by
  simp [holder]

theorem holder_cons_ne (h : record.label ≠ label) (records : List Record) :
    holder label (record :: records) = holder label records := by
  simp [holder, h]

theorem replaced_of_replacePayload (h : replacePayload label payload records = some records') :
    Replaced label (some payload) records records' := by
  induction records generalizing records' with
  | nil => cases h
  | cons record records ih =>
    unfold replacePayload at h
    split at h
    · next hlabel =>
      cases h
      subst hlabel
      refine ⟨Nat.le_refl _, fun other hother => ?_, ?_⟩
      · rw [holder_cons_ne (Ne.symm hother)]
        exact @holder_cons_ne other ⟨record.label, payload⟩ (Ne.symm hother) records
      · exact holder_cons_self ⟨record.label, payload⟩ records
    · next hlabel =>
      obtain ⟨rest, hrest, rfl⟩ := Option.map_eq_some_iff.mp h
      obtain ⟨hlen, hother, hself⟩ := ih hrest
      refine ⟨Nat.succ_le_succ hlen, fun other hne => ?_, ?_⟩
      · by_cases heq : record.label = other
        · subst heq
          rw [holder_cons_self, holder_cons_self]
        · rw [holder_cons_ne heq, holder_cons_ne heq, hother other hne]
      · rw [holder_cons_ne hlabel, hself]

theorem keepOthers_eq {kept kept' : List Record}
    (h : keepOthers slots label records kept = .ok kept') :
    kept' = kept ++ records.filter (·.label ≠ label) := by
  induction records generalizing kept with
  | nil =>
    cases h
    exact (List.append_nil _).symm
  | cons record records ih =>
    unfold keepOthers at h
    split at h
    · next hlabel =>
      rw [ih h, List.filter_cons_of_neg (by simp [hlabel])]
    next hlabel =>
    cases hpush : pushRecord slots kept record with
    | error e =>
      rw [hpush] at h
      cases h
    | ok pushed =>
      rw [hpush] at h
      obtain ⟨rfl, -⟩ := length_of_pushRecord hpush
      rw [ih h, List.filter_cons_of_pos (by simp [hlabel]), List.append_assoc,
        List.singleton_append]

theorem replaced_of_keepOthers (h : keepOthers slots label records [] = .ok records') :
    Replaced label none records records' := by
  obtain rfl : records' = records.filter (·.label ≠ label) := keepOthers_eq h
  refine ⟨List.length_filter_le _ _, fun other hother => ?_, ?_⟩
  · unfold holder
    rw [List.find?_filter]
    congr 1
    funext record
    by_cases heq : record.label = other
    · simp [heq, hother]
    · simp [heq]
  · unfold holder
    rw [List.find?_filter]
    apply List.find?_eq_none.mpr
    intro record _
    simp

theorem ensures_replace {d : Device} (hfaults : d.faults = []) (hcontract : Contract v.g)
    (hvalid : validate v = none) (hread : (readRecords v ⟨d.cells, []⟩).1 = .ok records)
    (hreplaced : Replaced label target records records') :
    Ensures (rewrite v records') d
      (fun _ d' => Changed v label target d.cells d'.cells)
      (fun d' => Changed v label target d.cells d'.cells) := by
  obtain ⟨cells, faults⟩ := d
  subst hfaults
  obtain ⟨hdecoded, hrecords, hlen⟩ := of_collectRecords hread (Nat.zero_le _)
  obtain ⟨hshorter, hothers, hself⟩ := hreplaced
  refine (ensures_rewrite hcontract hvalid (Nat.le_trans hshorter hlen)).mono ?_ fun _ h => h.elim
  rintro ⟨⟩ d' hafter
  have hbefore (other : IdentityLabel) : view v cells other = .ok (holder other records) := by
    rw [hrecords, List.nil_append]
    exact view_of_decoded (fun i hi => hdecoded i (List.mem_range.mpr hi)) other
  have hview (other : IdentityLabel) : view v d'.cells other = .ok (holder other records') := by
    have h := view_of_decoded (fun i hi => ⟨(hdecoded i (List.mem_range.mpr hi)).1, hafter i hi⟩)
      other
    rw [filterMap_getElem? (Nat.le_trans hshorter hlen)] at h
    exact h
  refine ⟨fun other hne => ?_, Or.inr ?_⟩
  · rw [hview, hbefore, hothers other hne]
  · rw [hview, hself]

end

/-! ## Calls -/

section

/-- The label is not stored, or nothing fails. -/
def Safe (v : Vault) (label : IdentityLabel) (d : Device) : Prop :=
  (∀ record, view v d.cells label ≠ .ok (some record)) ∨ (d.faults = [] ∧ Contract v.g)

variable {d : Device}

variable {f : Act Device FlashVaultError α}

theorem ensures_validated {Q : α → Device → Prop} {X : Device → Prop} (hX : X d)
    (h : validate v = none → Ensures f d Q X) : Ensures (validated v f) d Q X := by
  unfold validated
  cases hvalid : validate v with
  | some e => exact ensures_fail hX
  | none => exact h hvalid

theorem ensures_calm (hf : Calm Device.quiet f) (d : Device) :
    Ensures f d
      (fun a d' => d'.cells = d.cells ∧ (f ⟨d.cells, []⟩).1 = .ok a ∧ (d.faults = [] → d' = d))
      (fun d' => d'.cells = d.cells) := by
  have hcells {d' : Device} (h : d'.quiet = d.quiet) : d'.cells = d.cells := by
    have h' := congrArg Device.cells h
    exact h'
  refine (hf.ensures d).mono ?_ fun _ h => hcells h
  rintro a d' ⟨hkeeps, hreturns, hstay⟩
  have hquiet : f ⟨d.cells, []⟩ = (.ok a, d.quiet) := hreturns
  refine ⟨hcells hkeeps, by rw [hquiet], fun hfaults => hstay ?_⟩
  cases d
  cases hfaults
  rfl

theorem changed_of_cells {d' : Device}
    (h : d'.cells = d.cells) : Changed v label target d.cells d'.cells := by
  rw [h]
  exact Changed.refl

theorem Safe.quiet (hsafe : Safe v label d) (hview : view v d.cells label = .ok (some record)) :
    d.faults = [] ∧ Contract v.g :=
  hsafe.resolve_left fun h => h record hview

theorem ensures_storePayload (payload : RecordPayload) (hsafe : Safe v label d) :
    Ensures (storePayload v label payload) d
      (fun _ d' => Changed v label (some payload) d.cells d'.cells)
      (fun d' => Changed v label (some payload) d.cells d'.cells) := by
  refine ensures_validated Changed.refl fun hvalid => ?_
  refine ((ensures_calm (calm_findRecord label) d).weaken fun _ h => changed_of_cells h).bind ?_
  rintro r d₁ ⟨hcells₁, hview, hstay⟩
  cases r with
  | some record =>
    obtain ⟨hfaults, hcontract⟩ := hsafe.quiet hview
    obtain rfl := hstay hfaults
    refine ((ensures_calm calm_readRecords d₁).weaken fun _ h => changed_of_cells h).bind ?_
    rintro records d₂ ⟨-, hread, hstay₂⟩
    obtain rfl := hstay₂ hfaults
    split
    · exact ensures_fail Changed.refl
    · next records' hreplace =>
      exact ensures_replace hfaults hcontract hvalid hread (replaced_of_replacePayload hreplace)
  | none =>
    refine ((ensures_calm calm_findVacantSlot d₁).weaken fun d' h => ?_).bind ?_
    · exact changed_of_cells (h.trans hcells₁)
    rintro found d₂ ⟨hcells₂, hfound, -⟩
    rw [← hcells₁] at hview ⊢
    cases found with
    | none => exact ensures_fail (changed_of_cells hcells₂)
    | some index =>
      obtain ⟨hindex, hvacant⟩ := vacant_of_findVacantSlot hfound
      rw [← hcells₂] at hview hvacant ⊢
      refine ((SlottedFlash.ensures_writeSlot v.g hvacant (Record.length_body _)).mono
        ?_ ?_).mapError
      · rintro ⟨⟩ d' ⟨hwithin, hslot, -⟩
        exact changed_of_framed hview hindex hvacant hwithin hslot
      rintro d' ⟨hwithin, hopen | hslot, -⟩
      · -- the vacant slot took nothing that a search can see
        have hsame (other : IdentityLabel) : view v d'.cells other = view v d₂.cells other := by
          refine view_congr fun i _ => ?_
          by_cases hi : i = index
          · rw [hi, sees_uncommitted hopen, sees_uncommitted hvacant.uncommitted]
          · exact sees_within hwithin hi other
        exact ⟨fun other _ => hsame other, Or.inl (hsame label)⟩
      · exact changed_of_framed hview hindex hvacant hwithin hslot

theorem ensures_remove (hsafe : Safe v label d) : Ensures (remove v label) d
      (fun _ d' => Changed v label none d.cells d'.cells)
      (fun d' => Changed v label none d.cells d'.cells) := by
  refine ensures_validated Changed.refl fun hvalid => ?_
  refine ((ensures_calm calm_readRecords d).weaken fun _ h => changed_of_cells h).bind ?_
  rintro records d₁ ⟨hcells₁, hread, hstay⟩
  obtain ⟨hdecoded, hrecords, -⟩ := of_collectRecords hread (Nat.zero_le _)
  have hview : view v d.cells label = .ok (holder label records) := by
    rw [hrecords, List.nil_append]
    exact view_of_decoded (fun i hi => hdecoded i (List.mem_range.mpr hi)) label
  refine ((ensures_calm (calm_ofExcept _) d₁).weaken fun d' h => ?_).bind ?_
  · exact changed_of_cells (h.trans hcells₁)
  rintro kept d₂ ⟨hcells₂, hkept, hstay₂⟩
  split
  · next hany =>
    obtain ⟨record, hrecord⟩ : ∃ record, holder label records = some record :=
      Option.isSome_iff_exists.mp (List.find?_isSome.mpr (List.any_eq_true.mp hany))
    obtain ⟨hfaults, hcontract⟩ := hsafe.quiet (hview.trans (congrArg _ hrecord))
    obtain rfl := hstay hfaults
    obtain rfl := hstay₂ hfaults
    obtain ⟨hkeep, -⟩ := of_ofExcept (Prod.ext hkept rfl)
    have hrun := ensures_replace hfaults hcontract hvalid hread (replaced_of_keepOthers hkeep)
    exact hrun.bind fun _ _ h => ensures_pure h
  · exact ensures_pure (changed_of_cells (hcells₂.trans hcells₁))

/-- The call changes nothing, or its own label only. -/
def Call.Done (v : Vault) (call : Call) (cells cells' : Image) : Prop :=
  cells' = cells ∨ ∃ new, call.target = some new ∧ Changed v call.label new cells cells'

theorem Call.ensures_run (call : Call) (hsafe : Safe v call.label d) :
    Ensures (call.run v) d (fun _ d' => call.Done v d.cells d'.cells)
      (fun d' => call.Done v d.cells d'.cells) := by
  cases call with
  | store label secret =>
    exact (ensures_storePayload _ hsafe).mono (fun _ _ h => Or.inr ⟨_, rfl, h⟩)
      fun _ h => Or.inr ⟨_, rfl, h⟩
  | storeBlob label blob =>
    show Ensures (IdentityVault.storeBlob v label blob) d _ _
    unfold IdentityVault.storeBlob
    split
    · next hfits =>
      have htarget : Call.target (.storeBlob label blob) = some (some (.blob blob hfits)) :=
        dif_pos hfits
      exact (ensures_storePayload _ hsafe).mono (fun _ _ h => Or.inr ⟨_, htarget, h⟩)
        fun _ h => Or.inr ⟨_, htarget, h⟩
    · exact ensures_fail (Or.inl rfl)
  | remove label =>
    refine ((ensures_remove hsafe).weaken fun _ h => Or.inr ⟨_, rfl, h⟩).bind ?_
    exact fun _ _ h => ensures_pure (Or.inr ⟨_, rfl, h⟩)

def sampleVault : Vault where
  g := ⟨1, 4, 4096, 4096⟩
  offset := 0
  slots := 2

def firstLabel : IdentityLabel := ⟨[0x61], by decide⟩

def secondLabel : IdentityLabel := ⟨[0x62], by decide⟩

/-- The vault after a blob was stored under each of two labels. -/
def sampleCells : Image :=
  ((do
    storeBlob sampleVault firstLabel [1]
    storeBlob sampleVault secondLabel [2]) ⟨fun _ => 0xFF, []⟩).2.cells

/-- Erased flash, and a power loss in the fourth operation. -/
def sampleDevice : Device where
  cells := fun _ => 0xFF
  faults := [.none, .none, .none, .powerLoss ⟨7, fun _ => 0⟩]

end

end Prns.Ports.IdentityVault
