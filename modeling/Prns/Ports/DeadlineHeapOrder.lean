import Prns.Ports.DeadlineHeap
import Prns.Verified.HeapOrder
import Mathlib.Data.List.Perm.Subperm
import Mathlib.Data.List.Nodup
import Mathlib.Data.Nat.Basic

/-!
# The order of the deadline heap

`Inverse` says that the heap and the positions are inverse to each other; it
does not mention deadlines, so an exchange of two places keeps it whatever the
keys are. `Ordered`, of the heap order library, is broken and restored around
one place at a time. This file has one specification for each internal routine
of the heap: the two sifts, `repair`, the entry of a row, the two loops of
`rebuild`, and `remove`.
-/

namespace Prns.Ports.TemporalIndex

open Verified
open Verified.VecOps
open Verified.HeapOrder

theorem asU32_of_lt {n : Nat} (h : n < HeapDeadlineIndex.absent) : asU32 n = n := by
  unfold HeapDeadlineIndex.absent u32Max at h
  unfold asU32
  omega

namespace HeapDeadlineIndex

/-- The key at a place of the heap. -/
def keyAt (deadlineOf : Nat → Option InstantMillis) (idx : HeapDeadlineIndex)
    (position : Nat) : InstantMillis :=
  deadline deadlineOf (idx.rowAt position)

structure Inverse (idx : HeapDeadlineIndex) : Prop where
  small : idx.positions.length ≤ absent
  rowAt_lt : ∀ p, p < idx.heap.length → idx.rowAt p < idx.positions.length
  positionOf_rowAt : ∀ p, p < idx.heap.length → idx.positionOf (idx.rowAt p) = p
  rowAt_positionOf : ∀ row, row < idx.positions.length → idx.positionOf row ≠ absent →
    idx.positionOf row < idx.heap.length ∧ idx.rowAt (idx.positionOf row) = row

variable {idx : HeapDeadlineIndex} {row : Nat}

theorem mem_heap_iff : row ∈ idx.heap ↔ ∃ p, p < idx.heap.length ∧ idx.rowAt p = row := by
  rw [List.mem_iff_getElem]
  constructor
  · rintro ⟨p, hp, hrow⟩
    exact ⟨p, hp, by rw [rowAt, List.getD_eq_getElem _ _ hp, hrow]⟩
  · rintro ⟨p, hp, hrow⟩
    exact ⟨p, hp, by rw [← hrow, rowAt, List.getD_eq_getElem _ _ hp]⟩

theorem Inverse.nodup (h : Inverse idx) : idx.heap.Nodup := by
  rw [List.nodup_iff_injective_get]
  intro p q heq
  have hp := List.getD_eq_getElem idx.heap 0 p.isLt
  have hq := List.getD_eq_getElem idx.heap 0 q.isLt
  have hrow : idx.rowAt p = idx.rowAt q := by
    rw [rowAt, rowAt, hp, hq]
    exact heq
  rw [Fin.ext_iff, ← h.positionOf_rowAt p p.isLt, hrow, h.positionOf_rowAt q q.isLt]

theorem Inverse.length_le (h : Inverse idx) : idx.heap.length ≤ idx.positions.length := by
  have hsub : idx.heap ⊆ List.range idx.positions.length := by
    intro row hrow
    obtain ⟨p, hp, rfl⟩ := mem_heap_iff.mp hrow
    exact List.mem_range.mpr (h.rowAt_lt p hp)
  have hle := (List.subperm_of_subset h.nodup hsub).length_le
  rwa [List.length_range] at hle

theorem Inverse.length_lt (h : Inverse idx) (hrow : row < idx.positions.length)
    (habsent : idx.positionOf row = absent) : idx.heap.length < idx.positions.length := by
  have hle := h.length_le
  have hsmall := h.small
  have hnot : row ∉ idx.heap := by
    intro hmem
    obtain ⟨p, hp, rfl⟩ := mem_heap_iff.mp hmem
    rw [h.positionOf_rowAt p hp] at habsent
    omega
  have hsub : row :: idx.heap ⊆ List.range idx.positions.length := by
    intro r hr
    rcases List.mem_cons.mp hr with rfl | hmem
    · exact List.mem_range.mpr hrow
    · obtain ⟨p, hp, rfl⟩ := mem_heap_iff.mp hmem
      exact List.mem_range.mpr (h.rowAt_lt p hp)
  have hlen := (List.subperm_of_subset (h.nodup.cons hnot) hsub).length_le
  rw [List.length_range, List.length_cons] at hlen
  omega

variable {p : Nat} {idx₁ idx₂ idx₃ : HeapDeadlineIndex}

theorem Inverse.position_lt_absent (h : Inverse idx) (hp : p < idx.heap.length) : p < absent := by
  have hle := h.length_le
  have hsmall := h.small
  omega

variable {a b : Nat}

theorem rowAt_swap (idx : HeapDeadlineIndex) (ha : a < idx.heap.length)
    (hb : b < idx.heap.length) (p : Nat) :
    (idx.swap a b).rowAt p =
      if p = a then idx.rowAt b else if p = b then idx.rowAt a else idx.rowAt p :=
  getD_swapAt idx.heap a b p 0 ha hb

theorem Inverse.positionOf_swap (h : Inverse idx)
    (ha : a < idx.heap.length) (hb : b < idx.heap.length) (row : Nat) :
    (idx.swap a b).positionOf row = if row = idx.rowAt a then b else if row = idx.rowAt b then a
      else idx.positionOf row := by
  have hrowa : (swapAt idx.heap a b 0).getD a 0 = idx.rowAt b := by
    rw [getD_swapAt _ _ _ _ _ ha hb, if_pos rfl, rowAt]
  have hrowb : (swapAt idx.heap a b 0).getD b 0 = idx.rowAt a := by
    rw [getD_swapAt _ _ _ _ _ ha hb, rowAt]
    split
    · rename_i hab
      rw [hab]
    · rw [if_pos rfl]
  have hlta := h.rowAt_lt a ha
  have hltb := h.rowAt_lt b hb
  rw [positionOf]
  simp only [swap, hrowa, hrowb]
  rw [getD_set _ _ _ _ _ (by simpa using hlta), getD_set _ _ _ _ _ hltb,
    asU32_of_lt (h.position_lt_absent ha), asU32_of_lt (h.position_lt_absent hb),
    positionOf]

/-- What reordering the heap keeps. -/
structure Reorders (idx idx' : HeapDeadlineIndex) : Prop where
  inverse : Inverse idx'
  readiness : idx'.readiness = idx.readiness
  heap_length : idx'.heap.length = idx.heap.length
  positions_length : idx'.positions.length = idx.positions.length
  present : ∀ row, idx'.positionOf row = absent ↔ idx.positionOf row = absent

theorem Reorders.refl (h : Inverse idx) : Reorders idx idx := ⟨h, rfl, rfl, rfl, fun _ => Iff.rfl⟩

theorem Reorders.trans (h : Reorders idx₁ idx₂) (h' : Reorders idx₂ idx₃) : Reorders idx₁ idx₃ :=
  ⟨h'.inverse, h'.readiness.trans h.readiness, h'.heap_length.trans h.heap_length,
    h'.positions_length.trans h.positions_length,
    fun row => (h'.present row).trans (h.present row)⟩

theorem Inverse.swap (h : Inverse idx) (ha : a < idx.heap.length) (hb : b < idx.heap.length)
    (hab : a ≠ b) : Reorders idx (idx.swap a b) := by
  have hrow := rowAt_swap idx ha hb
  have hpos := h.positionOf_swap ha hb
  have hlen : (idx.swap a b).positions.length = idx.positions.length := by
    simp [HeapDeadlineIndex.swap]
  have habsa := h.position_lt_absent ha
  have habsb := h.position_lt_absent hb
  have hheap := length_heap_swap idx a b
  obtain ⟨hsmall, hlt, hback, hforth⟩ := h
  refine ⟨⟨?_, ?_, ?_, ?_⟩, rfl, hheap, hlen, ?_⟩
  · rwa [hlen]
  · grind
  · grind
  · grind
  · grind

theorem keyAt_swap (deadlineOf : Nat → Option InstantMillis) (idx : HeapDeadlineIndex)
    (ha : a < idx.heap.length) (hb : b < idx.heap.length) :
    keyAt deadlineOf (idx.swap a b) = swapped (keyAt deadlineOf idx) a b := by
  funext p
  rw [keyAt, rowAt_swap idx ha hb, swapped]
  split
  · rfl
  · split <;> rfl

/-! ## Sifting -/

section

variable {deadlineOf : Nat → Option InstantMillis}

/-- The heap of `idx'` is that of `idx` put in order from `start` on. -/
def SortsFrom (deadlineOf : Nat → Option InstantMillis) (start : Nat)
    (idx idx' : HeapDeadlineIndex) : Prop :=
  Reorders idx idx' ∧ OrderedFrom (keyAt deadlineOf idx') idx'.heap.length start

theorem siftUp_sorts (idx : HeapDeadlineIndex) (position : Nat) (h : Inverse idx)
    (hole : UpHole (keyAt deadlineOf idx) idx.heap.length position)
    (hlt : position < idx.heap.length) :
    SortsFrom deadlineOf 0 idx (siftUp deadlineOf idx position) := by
  induction position using Nat.strongRecOn generalizing idx with
  | ind position ih =>
  rw [siftUp]
  by_cases hpos : 0 < position
  · have hup := parent_lt hpos
    have hparent : (position - 1) / 2 = parent position := rfl
    simp only [hpos, if_true, hparent]
    split
    · rename_i hle
      exact ⟨Reorders.refl h, hole.finish (fun _ => hle)⟩
    rename_i hgt
    have hswap := h.swap (Nat.lt_trans hup hlt) hlt (Nat.ne_of_lt hup)
    have hstep := hole.step hpos hlt (Nat.lt_of_not_le hgt)
    rw [← keyAt_swap deadlineOf idx (Nat.lt_trans hup hlt) hlt, ← hswap.heap_length] at hstep
    obtain ⟨hre, hord⟩ := ih (parent position) hup _ hswap.inverse hstep
      (by rw [hswap.heap_length]; omega)
    exact ⟨hswap.trans hre, hord⟩
  · rw [if_neg hpos]
    exact ⟨Reorders.refl h, hole.finish (fun hp => absurd hp hpos)⟩

theorem earlierChild_spec (deadlineOf : Nat → Option InstantMillis) (idx : HeapDeadlineIndex)
    (position : Nat) (hleft : position * 2 + 1 < idx.heap.length) :
    let child := earlierChild deadlineOf idx (position * 2 + 1)
    child < idx.heap.length ∧ parent child = position ∧ position < child ∧
      ∀ i, 0 < i → i < idx.heap.length → parent i = position →
        keyAt deadlineOf idx child ≤ keyAt deadlineOf idx i := by
  have hl := parent_left position
  have hr := parent_right position
  simp only [earlierChild]
  split
  · rename_i hright
    refine ⟨hright.1, hr, by omega, ?_⟩
    intro i hi hin hpi
    rcases eq_left_or_right hi hpi with rfl | rfl
    · exact Nat.le_of_lt hright.2
    · exact Nat.le_refl _
  · rename_i hright
    refine ⟨hleft, hl, by omega, ?_⟩
    intro i hi hin hpi
    rcases eq_left_or_right hi hpi with rfl | rfl
    · exact Nat.le_refl _
    · exact Nat.le_of_not_lt (fun hlt => hright ⟨hin, hlt⟩)

theorem siftDown_sorts (idx : HeapDeadlineIndex) (start position : Nat) (h : Inverse idx)
    (hole : DownHole (keyAt deadlineOf idx) idx.heap.length start position)
    (hs : start ≤ position) :
    SortsFrom deadlineOf start idx (siftDown deadlineOf idx position) := by
  induction hleft : idx.heap.length - position using Nat.strongRecOn generalizing idx position with
  | ind left ih =>
  rw [siftDown]
  simp only
  split
  · refine ⟨Reorders.refl h, hole.finish ?_⟩
    intro i hi hin hpi
    rcases eq_left_or_right hi hpi with rfl | rfl <;> omega
  obtain ⟨hin, hparent, hdown, hleast⟩ := earlierChild_spec deadlineOf idx position (by omega)
  generalize earlierChild deadlineOf idx (position * 2 + 1) = child at *
  split
  · rename_i hle
    refine ⟨Reorders.refl h, hole.finish ?_⟩
    intro i hi hil hpi
    exact Nat.le_trans hle (hleast i hi hil hpi)
  rename_i hgt
  have hplt : position < idx.heap.length := by omega
  have hswap := h.swap hplt hin (Nat.ne_of_lt hdown)
  have hstep := hole.step hs (by omega) hin hparent hleast (Nat.lt_of_not_le hgt)
  rw [← keyAt_swap deadlineOf idx hplt hin, ← hswap.heap_length] at hstep
  obtain ⟨hre, hord⟩ := ih (idx.heap.length - child) (by omega) _ child
    hswap.inverse hstep (by omega) (by rw [hswap.heap_length])
  exact ⟨hswap.trans hre, hord⟩

theorem repair_sorts (idx : HeapDeadlineIndex) (position : Nat) (h : Inverse idx)
    (hole : Hole (keyAt deadlineOf idx) idx.heap.length position)
    (hlt : position < idx.heap.length) :
    SortsFrom deadlineOf 0 idx (repair deadlineOf idx position) := by
  unfold repair
  split
  · rename_i hup
    exact siftUp_sorts idx position h (hole.up hup.1 hup.2) hlt
  · rename_i hup
    refine siftDown_sorts idx 0 position h (hole.down ?_) (Nat.zero_le _)
    intro hpos
    exact Nat.le_of_not_lt (fun hearlier => hup ⟨hpos, hearlier⟩)

theorem rowAt_pushRow (idx : HeapDeadlineIndex) (row : Nat) (hrow : row < absent) (p : Nat) :
    (idx.pushRow row).rowAt p = if p = idx.heap.length then row else idx.rowAt p := by
  rw [rowAt]
  simp only [pushRow]
  rw [getD_append_singleton, asU32_of_lt hrow, rowAt]

theorem positionOf_pushRow (idx : HeapDeadlineIndex) (row : Nat)
    (hrow : row < idx.positions.length) (hlen : idx.heap.length < absent) (r : Nat) :
    (idx.pushRow row).positionOf r = if r = row then idx.heap.length else idx.positionOf r := by
  rw [positionOf]
  simp only [pushRow]
  rw [getD_set _ _ _ _ _ hrow, asU32_of_lt hlen, positionOf]

theorem Inverse.pushRow (h : Inverse idx) (hrow : row < idx.positions.length)
    (habsent : idx.positionOf row = absent) : Inverse (idx.pushRow row) := by
  have hsmall := h.small
  have hroom := h.length_lt hrow habsent
  have hrowAt := rowAt_pushRow idx row (by omega)
  have hpos := positionOf_pushRow idx row hrow (by omega)
  have hheap : (idx.pushRow row).heap.length = idx.heap.length + 1 := by
    simp [HeapDeadlineIndex.pushRow]
  have hlen : (idx.pushRow row).positions.length = idx.positions.length := by
    simp [HeapDeadlineIndex.pushRow]
  obtain ⟨hsmall, hlt, hback, hforth⟩ := h
  refine ⟨?_, ?_, ?_, ?_⟩
  · rwa [hlen]
  · grind
  · grind
  · grind

theorem pushRow_siftUp_sorts (h : Inverse idx)
    (hrow : row < idx.positions.length) (habsent : idx.positionOf row = absent)
    (hord : Ordered (keyAt deadlineOf idx) idx.heap.length) :
    SortsFrom deadlineOf 0 (idx.pushRow row)
      (siftUp deadlineOf (idx.pushRow row) ((idx.pushRow row).heap.length - 1)) := by
  have hsmall := h.small
  have hheap : (idx.pushRow row).heap.length = idx.heap.length + 1 := by
    simp [HeapDeadlineIndex.pushRow]
  have hkeys : ∀ p, p < idx.heap.length →
      keyAt deadlineOf (idx.pushRow row) p = keyAt deadlineOf idx p := by
    intro p hp
    rw [keyAt, keyAt, rowAt_pushRow idx row (by omega), if_neg (by omega)]
  have hole := hord.append hkeys
  refine siftUp_sorts _ _ (h.pushRow hrow habsent) ?_ (by omega)
  rw [hheap]
  exact hole

/-- An index with no row in the heap yet. -/
def blank (idx : HeapDeadlineIndex) (rowCount : Nat) : HeapDeadlineIndex :=
  { idx with heap := [], positions := List.replicate rowCount absent }

theorem collect_spec (deadlineOf : Nat → Option InstantMillis) (idx : HeapDeadlineIndex)
    (rowCount count : Nat) (hsmall : rowCount ≤ absent) (hcount : count ≤ rowCount) :
    let collected := collect deadlineOf count (idx.blank rowCount)
    Inverse collected ∧ collected.positions.length = rowCount ∧
      ∀ row, collected.positionOf row ≠ absent ↔ row < count ∧ (deadlineOf row).isSome = true := by
  induction count with
  | zero =>
    have hblank (row : Nat) : (idx.blank rowCount).positionOf row = absent := by
      unfold positionOf blank
      rw [List.getD_eq_getElem?_getD, List.getElem?_replicate]
      split <;> rfl
    refine ⟨?_, by simp [collect, blank], ?_⟩
    · refine
        { small := by simpa [collect, blank] using hsmall
          rowAt_lt := fun p hp => by simp [collect, blank] at hp
          positionOf_rowAt := fun p hp => by simp [collect, blank] at hp
          rowAt_positionOf := fun row _ hp => absurd (hblank row) hp }
    · intro row
      exact ⟨fun hp => absurd (hblank row) hp, fun hlt => by omega⟩
  | succ count ih =>
    obtain ⟨hinv, hlen, hpresent⟩ := ih (by omega)
    have habsent : (collect deadlineOf count (idx.blank rowCount)).positionOf count = absent := by
      by_contra hne
      have := ((hpresent count).mp hne).1
      omega
    rw [collect, List.range_succ, List.foldl_append, List.foldl_cons, List.foldl_nil, ← collect]
    generalize collect deadlineOf count (idx.blank rowCount) = collected at *
    have hrow : count < collected.positions.length := by omega
    split
    · rename_i hsome
      have hroom := hinv.length_lt hrow habsent
      have hpos := positionOf_pushRow collected count hrow (by omega)
      refine ⟨hinv.pushRow hrow habsent, by simpa [pushRow] using hlen, ?_⟩
      intro row
      rw [hpos]
      by_cases heq : row = count
      · rw [if_pos heq, heq]
        exact ⟨fun _ => ⟨by omega, hsome⟩, fun _ => by omega⟩
      · rw [if_neg heq, hpresent]
        exact and_congr_left (fun _ => by omega)
    · rename_i hnone
      refine ⟨hinv, hlen, ?_⟩
      intro row
      rw [hpresent]
      refine and_congr_left (fun hsome => ?_)
      by_cases heq : row = count
      · exact absurd (heq ▸ hsome) hnone
      · omega

theorem heapify_sorts (deadlineOf : Nat → Option InstantMillis) (position : Nat)
    (idx : HeapDeadlineIndex) (h : Inverse idx)
    (hord : OrderedFrom (keyAt deadlineOf idx) idx.heap.length position) :
    SortsFrom deadlineOf 0 idx (heapify deadlineOf position idx) := by
  induction position generalizing idx with
  | zero => exact ⟨Reorders.refl h, hord⟩
  | succ position ih =>
    obtain ⟨hre, hord'⟩ := siftDown_sorts idx position position h hord.hole Nat.le.refl
    obtain ⟨hre', hdone⟩ := ih _ hre.inverse hord'
    exact ⟨hre.trans hre', hdone⟩

theorem orderedFrom_half (k : Nat → InstantMillis) (n : Nat) : OrderedFrom k n (n / 2) := by
  intro i hi hin hs
  unfold parent at hs
  omega

/-! ## A row leaves the heap -/

/-- What `remove` keeps and changes. -/
structure Removes (row : Nat) (idx idx' : HeapDeadlineIndex) : Prop where
  inverse : Inverse idx'
  readiness : idx'.readiness = idx.readiness
  positions_length : idx'.positions.length = idx.positions.length
  present : ∀ r, idx'.positionOf r ≠ absent ↔ idx.positionOf r ≠ absent ∧ r ≠ row

theorem Removes.reorders (h : Removes row idx₁ idx₂) (h' : Reorders idx₂ idx₃) :
    Removes row idx₁ idx₃ :=
  ⟨h'.inverse, h'.readiness.trans h.readiness, h'.positions_length.trans h.positions_length,
    fun r => (not_congr (h'.present r)).trans (h.present r)⟩

/-- The last place of the heap is dropped. -/
def cutLast (idx : HeapDeadlineIndex) (row : Nat) : HeapDeadlineIndex :=
  { idx with positions := idx.positions.set row absent, heap := idx.heap.dropLast }

theorem Inverse.cutLast (h : Inverse idx) (hrow : row < idx.positions.length)
    (hlast : idx.positionOf row + 1 = idx.heap.length) : Removes row idx (idx.cutLast row) := by
  have hpos : ∀ r, (idx.cutLast row).positionOf r =
      if r = row then absent else idx.positionOf r := by
    intro r
    exact getD_set idx.positions row r absent absent hrow
  have hheap : (idx.cutLast row).heap.length = idx.heap.length - 1 := by
    simp [HeapDeadlineIndex.cutLast]
  have hlen : (idx.cutLast row).positions.length = idx.positions.length := by
    simp [HeapDeadlineIndex.cutLast]
  have hrowAt : ∀ p, p < idx.heap.length - 1 → (idx.cutLast row).rowAt p = idx.rowAt p := by
    intro p hp
    exact getD_dropLast idx.heap p 0 hp
  obtain ⟨hsmall, hlt, hback, hforth⟩ := h
  refine ⟨⟨?_, ?_, ?_, ?_⟩, rfl, hlen, ?_⟩
  · rwa [hlen]
  · grind
  · grind
  · grind
  · grind

def fillGap (idx : HeapDeadlineIndex) (row : Nat) : HeapDeadlineIndex :=
  let position := idx.positionOf row
  let moved := idx.rowAt (idx.heap.length - 1)
  { idx with
    positions := (idx.positions.set row absent).set moved (asU32 position)
    heap := (idx.heap.set position moved).dropLast }

theorem rowAt_fillGap (idx : HeapDeadlineIndex) (row : Nat)
    (hin : idx.positionOf row < idx.heap.length) (hp : p < idx.heap.length - 1) :
    (idx.fillGap row).rowAt p = if p = idx.positionOf row then idx.rowAt (idx.heap.length - 1)
      else idx.rowAt p := by
  rw [rowAt]
  simp only [fillGap]
  rw [getD_dropLast _ _ _ (by simpa using hp), getD_set _ _ _ _ _ hin, rowAt, rowAt]

theorem Inverse.fillGap (h : Inverse idx) (hrow : row < idx.positions.length)
    (hpresent : idx.positionOf row ≠ absent) (hinner : idx.positionOf row + 1 < idx.heap.length) :
    Removes row idx (idx.fillGap row) := by
  obtain ⟨hin, hself⟩ := h.rowAt_positionOf row hrow hpresent
  have hlast : idx.heap.length - 1 < idx.heap.length := by omega
  have hmovedlt := h.rowAt_lt _ hlast
  have hrowAt := fun p => rowAt_fillGap idx row hin (p := p)
  have hpos : ∀ r, (idx.fillGap row).positionOf r =
      if r = idx.rowAt (idx.heap.length - 1) then idx.positionOf row
      else if r = row then absent else idx.positionOf r := by
    intro r
    rw [positionOf]
    simp only [HeapDeadlineIndex.fillGap]
    rw [getD_set _ _ _ _ _ (by simpa using hmovedlt), getD_set _ _ _ _ _ hrow,
      asU32_of_lt (h.position_lt_absent hin), positionOf, positionOf]
  have hheap : (idx.fillGap row).heap.length = idx.heap.length - 1 := by
    simp [HeapDeadlineIndex.fillGap]
  have hlen : (idx.fillGap row).positions.length = idx.positions.length := by
    simp [HeapDeadlineIndex.fillGap]
  have hlastpos := h.position_lt_absent hlast
  obtain ⟨hsmall, hlt, hback, hforth⟩ := h
  refine ⟨⟨?_, ?_, ?_, ?_⟩, rfl, hlen, ?_⟩
  · rwa [hlen]
  · grind
  · grind
  · grind
  · grind

/-- `remove` takes the row out and puts the heap in order, whatever the row's own
key has become. -/
theorem remove_spec (h : Inverse idx) (hrow : row < idx.positions.length)
    (hole : idx.positionOf row ≠ absent →
      Hole (keyAt deadlineOf idx) idx.heap.length (idx.positionOf row))
    (hord : idx.positionOf row = absent → Ordered (keyAt deadlineOf idx) idx.heap.length) :
    Removes row idx (idx.remove row deadlineOf) ∧
      Ordered (keyAt deadlineOf (idx.remove row deadlineOf))
        (idx.remove row deadlineOf).heap.length := by
  unfold remove
  by_cases habsent : idx.positionOf row = absent
  · rw [if_pos habsent]
    refine ⟨⟨h, rfl, rfl, fun r => ?_⟩, hord habsent⟩
    exact ⟨fun hr => ⟨hr, fun heq => hr (heq ▸ habsent)⟩, fun hr => hr.1⟩
  rw [if_neg habsent]
  have hhole := hole habsent
  obtain ⟨hin, -⟩ := h.rowAt_positionOf row hrow habsent
  by_cases hlast : idx.positionOf row = idx.heap.length - 1
  · rw [if_pos hlast]
    have hsucc : idx.heap.length = idx.positionOf row + 1 := by omega
    refine ⟨h.cutLast hrow hsucc.symm, ?_⟩
    rw [hsucc] at hhole
    have hcut := hhole.cut_last
    show Ordered (keyAt deadlineOf (idx.cutLast row)) (idx.cutLast row).heap.length
    have hheap : (idx.cutLast row).heap.length = idx.positionOf row := by
      simp [cutLast, hsucc]
    rw [hheap]
    refine hcut.congr (fun p hp => ?_)
    rw [keyAt, keyAt]
    congr 1
    exact getD_dropLast idx.heap p 0 (by omega)
  · rw [if_neg hlast]
    have hgap := h.fillGap hrow habsent (by omega)
    have hheap : (idx.fillGap row).heap.length = idx.heap.length - 1 := by
      simp [fillGap]
    have hhole' : Hole (keyAt deadlineOf (idx.fillGap row))
        (idx.fillGap row).heap.length (idx.positionOf row) := by
      rw [hheap]
      refine hhole.replace (by omega) (fun p hp hne => ?_)
      rw [keyAt, keyAt, rowAt_fillGap idx row hin hp, if_neg hne]
    obtain ⟨hre, hordered⟩ := repair_sorts (idx.fillGap row) (idx.positionOf row)
      hgap.inverse hhole' (by omega)
    exact ⟨hgap.reorders hre, hordered⟩

end

end HeapDeadlineIndex

end Prns.Ports.TemporalIndex
