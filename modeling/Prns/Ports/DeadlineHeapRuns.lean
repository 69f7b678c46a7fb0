import Prns.Ports.DeadlineHeapOrder

/-!
# The deadline heap along runs

The invariant of a ready index (`Indexed`) is that the heap is ordered, that heap
and positions are inverse, and that a row is in the heap when it has a deadline.
Every step of a table keeps it, and under it every query answers exactly.
-/

namespace Prns.Ports.TemporalIndex

open Verified
open Verified.VecOps
open Verified.HeapOrder

namespace HeapDeadlineIndex

structure Indexed (rows : Rows) (idx : HeapDeadlineIndex) : Prop where
  inverse : Inverse idx
  length : idx.positions.length = rows.length
  listed : ∀ row, row < rows.length →
    (idx.positionOf row ≠ absent ↔ (deadlineOf rows row).isSome = true)
  ordered : Ordered (keyAt (deadlineOf rows) idx) idx.heap.length

/-- The invariant along runs. An index that is not ready promises nothing. -/
def Inv (rows : Rows) (idx : HeapDeadlineIndex) : Prop :=
  idx.readiness = .ready → Indexed rows idx

variable {rows : Rows} {idx : HeapDeadlineIndex}

theorem Inv.of_not_ready (h : idx.readiness ≠ .ready) : Inv rows idx :=
  fun hready => absurd hready h

theorem inv_invalidate (rows : Rows) (idx : HeapDeadlineIndex) : Inv rows idx.invalidate :=
  Inv.of_not_ready (by simp [invalidate])

theorem inv_useLinearFallback (rows : Rows) (idx : HeapDeadlineIndex) :
    Inv rows idx.useLinearFallback :=
  Inv.of_not_ready (by simp [useLinearFallback])

variable {p : Nat} {removed : Nat}

theorem Indexed.rowAt_some (h : Indexed rows idx) (hp : p < idx.heap.length) :
    idx.rowAt p < rows.length ∧ (deadlineOf rows (idx.rowAt p)).isSome = true := by
  have hlt : idx.rowAt p < rows.length := h.length ▸ h.inverse.rowAt_lt p hp
  refine ⟨hlt, (h.listed _ hlt).mp ?_⟩
  rw [h.inverse.positionOf_rowAt p hp]
  exact Nat.ne_of_lt (h.inverse.position_lt_absent hp)

theorem Indexed.exists_place (h : Indexed rows idx) {row : Nat} {instant : InstantMillis}
    (hrow : deadlineOf rows row = some instant) :
    ∃ p, p < idx.heap.length ∧ idx.rowAt p = row ∧ keyAt (deadlineOf rows) idx p = instant := by
  have hlt := lt_length_of_deadlineOf hrow
  have hpresent := (h.listed row hlt).mpr (by rw [hrow]; rfl)
  obtain ⟨hp, hback⟩ := h.inverse.rowAt_positionOf row (h.length ▸ hlt) hpresent
  refine ⟨_, hp, hback, ?_⟩
  rw [keyAt, hback, deadline, hrow, Option.getD_some]

theorem rebuild_inv (rows : Rows) (idx : HeapDeadlineIndex) :
    Inv rows (idx.rebuild rows.length (deadlineOf rows)) := by
  unfold rebuild
  split
  · exact inv_useLinearFallback rows idx
  intro _
  obtain ⟨hinv, hlen, hpresent⟩ := collect_spec (deadlineOf rows) idx
    rows.length rows.length (by omega) Nat.le.refl
  show Indexed rows
    { heapify (deadlineOf rows)
        ((collect (deadlineOf rows) rows.length (idx.blank rows.length)).heap.length / 2)
        (collect (deadlineOf rows) rows.length (idx.blank rows.length)) with
      readiness := .ready }
  generalize collect (deadlineOf rows) rows.length (idx.blank rows.length) = collected at *
  obtain ⟨hre, hord⟩ := heapify_sorts (deadlineOf rows)
    (collected.heap.length / 2) collected hinv (orderedFrom_half _ _)
  generalize heapify (deadlineOf rows) (collected.heap.length / 2) collected = heaped at *
  refine
    { inverse := ⟨hre.inverse.small, hre.inverse.rowAt_lt,
        hre.inverse.positionOf_rowAt, hre.inverse.rowAt_positionOf⟩
      length := hre.positions_length.trans hlen
      listed := ?_
      ordered := hord }
  intro row hrow
  exact (not_congr (hre.present row)).trans ((hpresent row).trans (and_iff_right hrow))

theorem Indexed.of_sorts {idx' : HeapDeadlineIndex} (hlen : idx.positions.length = rows.length)
    (hlisted : ∀ row, row < rows.length →
      (idx.positionOf row ≠ absent ↔ (deadlineOf rows row).isSome = true))
    (hsorts : SortsFrom (deadlineOf rows) 0 idx idx') : Indexed rows idx' where
  inverse := hsorts.1.inverse
  length := hsorts.1.positions_length.trans hlen
  listed := fun row hrow => (not_congr (hsorts.1.present row)).trans (hlisted row hrow)
  ordered := hsorts.2

/-! ## Every step keeps the invariant -/

/-- A new row without a place. -/
def grown (idx : HeapDeadlineIndex) : HeapDeadlineIndex :=
  { idx with positions := idx.positions ++ [absent] }

theorem positionOf_grown (r : Nat) : idx.grown.positionOf r = idx.positionOf r := by
  unfold positionOf grown
  grind

theorem Inverse.grown (h : Inverse idx) (hroom : idx.positions.length < absent) :
    Inverse idx.grown := by
  have hpos : ∀ r, idx.grown.positionOf r = idx.positionOf r := positionOf_grown
  have hlen : idx.grown.positions.length = idx.positions.length + 1 := by
    simp [HeapDeadlineIndex.grown]
  have hnew : idx.positionOf idx.positions.length = absent := by simp [positionOf]
  have hrow : ∀ p, idx.grown.rowAt p = idx.rowAt p := fun _ => rfl
  have hheap : idx.grown.heap = idx.heap := rfl
  obtain ⟨hsmall, hlt, hback, hforth⟩ := h
  constructor <;> grind

theorem insert_inv (rows : Rows) (idx : HeapDeadlineIndex)
    (deadline : Option InstantMillis) (h : Inv rows idx) :
    Inv (rows ++ [deadline])
      (idx.insert rows.length deadline (deadlineOf (rows ++ [deadline]))) := by
  unfold insert
  split
  · exact inv_invalidate _ _
  rename_i hguard
  obtain ⟨hready, hlen⟩ := not_or.mp hguard
  have hidx := h (not_not.mp hready)
  split
  · exact inv_useLinearFallback _ _
  intro _
  have hlength := hidx.length
  have hnew : idx.grown.positionOf rows.length = absent := by
    rw [positionOf_grown, ← hlength]
    simp [positionOf]
  have hgrown := hidx.inverse.grown (by omega)
  have hgrownlen : idx.grown.positions.length = rows.length + 1 := by simp [grown, hlength]
  have hord : Ordered (keyAt (deadlineOf (rows ++ [deadline])) idx.grown)
      idx.grown.heap.length := by
    refine hidx.ordered.congr (fun p hp => ?_)
    have hlt := (hidx.rowAt_some hp).1
    show HeapDeadlineIndex.deadline _ (idx.rowAt p) = _
    rw [HeapDeadlineIndex.deadline, deadlineOf_push, if_neg (by omega)]
    rfl
  have hlisted : ∀ row, row < (rows ++ [deadline]).length → row ≠ rows.length →
      (idx.grown.positionOf row ≠ absent ↔
        (deadlineOf (rows ++ [deadline]) row).isSome = true) := by
    intro row hrow hne
    rw [List.length_append, List.length_singleton] at hrow
    rw [positionOf_grown, deadlineOf_push, if_neg hne]
    exact hidx.listed row (by omega)
  show Indexed _ (if deadline.isSome then siftUp _ (idx.grown.pushRow rows.length)
    ((idx.grown.pushRow rows.length).heap.length - 1) else idx.grown)
  split
  · rename_i hsome
    have hroom := hgrown.length_lt (by omega) hnew
    have hpos := positionOf_pushRow idx.grown rows.length (by omega) (by omega)
    refine Indexed.of_sorts (by simpa [pushRow] using hgrownlen) ?_
      (pushRow_siftUp_sorts hgrown (by omega) hnew hord)
    intro row hrow
    rw [hpos]
    split
    · rename_i heq
      rw [heq, deadlineOf_push, if_pos rfl]
      exact ⟨fun _ => hsome, fun _ => by omega⟩
    · exact hlisted row hrow ‹_›
  · rename_i hnone
    refine Indexed.of_sorts (by simpa using hgrownlen) ?_ ⟨Reorders.refl hgrown, hord⟩
    intro row hrow
    by_cases heq : row = rows.length
    · simp [heq, hnew, deadlineOf_push, hnone]
    · exact hlisted row hrow heq

section

variable {row : Nat} (deadline : Option InstantMillis)

theorem keyAt_set_of_ne (hrow : row < rows.length) (hne : idx.rowAt p ≠ row) :
    keyAt (deadlineOf (rows.set row deadline)) idx p = keyAt (deadlineOf rows) idx p := by
  rw [keyAt, keyAt, HeapDeadlineIndex.deadline, HeapDeadlineIndex.deadline,
    deadlineOf_set rows row _ deadline hrow, if_neg hne]

variable (h : Indexed rows idx)
include h

theorem Indexed.hole_set (hrow : row < rows.length) (hpresent : idx.positionOf row ≠ absent) :
    Hole (keyAt (deadlineOf (rows.set row deadline)) idx) idx.heap.length (idx.positionOf row) := by
  obtain ⟨hin, -⟩ := h.inverse.rowAt_positionOf row (h.length ▸ hrow) hpresent
  refine h.ordered.hole hin (fun p hp hne => ?_)
  refine keyAt_set_of_ne deadline hrow (fun heq => ?_)
  rw [← heq, h.inverse.positionOf_rowAt p hp] at hne
  exact hne rfl

theorem Indexed.ordered_set (hrow : row < rows.length) (habsent : idx.positionOf row = absent) :
    Ordered (keyAt (deadlineOf (rows.set row deadline)) idx) idx.heap.length := by
  refine h.ordered.congr (fun p hp => ?_)
  refine keyAt_set_of_ne deadline hrow (fun heq => ?_)
  rw [← heq, h.inverse.positionOf_rowAt p hp] at habsent
  have := h.inverse.position_lt_absent hp
  omega

theorem Indexed.remove (hrow : row < rows.length) :
    Indexed (rows.set row none) (idx.remove row (deadlineOf (rows.set row none))) := by
  obtain ⟨hrem, hord⟩ := remove_spec h.inverse (h.length ▸ hrow)
    (h.hole_set none hrow) (h.ordered_set none hrow)
  refine
    { inverse := hrem.inverse
      length := by rw [hrem.positions_length, h.length, List.length_set]
      listed := ?_
      ordered := hord }
  intro r hr
  rw [List.length_set] at hr
  rw [hrem.present, h.listed r hr, deadlineOf_set rows row r none hrow]
  by_cases heq : r = row
  · simp [heq]
  · simp [heq]

omit h

theorem update_inv (h : Inv rows idx) (deadline : Option InstantMillis) (hrow : row < rows.length) :
    Inv (rows.set row deadline) (idx.update row deadline (deadlineOf (rows.set row deadline))) := by
  unfold update
  split
  · exact inv_invalidate _ _
  rename_i hguard
  obtain ⟨hready, -⟩ := not_or.mp hguard
  have hidx := h (not_not.mp hready)
  have hlen : idx.positions.length = (rows.set row deadline).length := by
    rw [hidx.length, List.length_set]
  have hrowlt : row < idx.positions.length := hidx.length ▸ hrow
  -- An index that lists the other rows as before need only be right about this one.
  have hlisted : ∀ idx' : HeapDeadlineIndex, (∀ r, r ≠ row → idx'.positionOf r = idx.positionOf r) →
      (idx'.positionOf row ≠ absent ↔ deadline.isSome = true) →
      ∀ r, r < (rows.set row deadline).length → (idx'.positionOf r ≠ absent ↔
        (deadlineOf (rows.set row deadline) r).isSome = true) := by
    intro idx' hother hself r hr
    rw [List.length_set] at hr
    rw [deadlineOf_set rows row r deadline hrow]
    split
    · rename_i heq
      rw [heq]
      exact hself
    · rw [hother r ‹_›]
      exact hidx.listed r hr
  intro _
  by_cases habsent : idx.positionOf row = absent
  · have hord := hidx.ordered_set deadline hrow habsent
    cases hdeadline : deadline.isSome with
    | true =>
      simp only [habsent, decide_true]
      have hroom := hidx.inverse.length_lt hrowlt habsent
      have hsmall := hidx.inverse.small
      have hpos := positionOf_pushRow idx row hrowlt (by omega)
      refine Indexed.of_sorts (by simpa [pushRow] using hlen) (hlisted _ ?_ ?_)
        (pushRow_siftUp_sorts hidx.inverse hrowlt habsent hord)
      · intro r hne
        rw [hpos, if_neg hne]
      · rw [hpos, if_pos rfl, hdeadline]
        exact iff_of_true (by omega) rfl
    | false =>
      simp only [habsent, decide_true]
      exact Indexed.of_sorts hlen (hlisted idx (fun _ _ => rfl) (by simp [habsent, hdeadline]))
        ⟨Reorders.refl hidx.inverse, hord⟩
  · cases hdeadline : deadline.isSome with
    | true =>
      simp only [habsent, decide_false]
      obtain ⟨hin, -⟩ := hidx.inverse.rowAt_positionOf row hrowlt habsent
      exact Indexed.of_sorts hlen (hlisted idx (fun _ _ => rfl) (by simp [habsent, hdeadline]))
        (repair_sorts idx _ hidx.inverse (hidx.hole_set deadline hrow habsent) hin)
    | false =>
      simp only [habsent, decide_false]
      obtain rfl : deadline = none := by simpa using hdeadline
      exact hidx.remove hrow

end

/-! ## Renumbering the last row -/

section

variable {last : Nat}

theorem rowAt_renumber (h : Inverse idx) (hremoved : removed < idx.positions.length)
    (hlast : last < idx.positions.length) (p : Nat) :
    (idx.renumber removed last).rowAt p =
      if idx.positionOf last ≠ absent ∧ p = idx.positionOf last then removed
      else idx.rowAt p := by
  rw [rowAt]
  simp only [renumber]
  by_cases hpresent : idx.positionOf last = absent
  · simp [hpresent, rowAt]
  · have hin := (h.rowAt_positionOf last hlast hpresent).1
    have hsmall := h.small
    rw [if_pos hpresent, getD_set _ _ _ _ _ hin, asU32_of_lt (by omega), rowAt]
    simp [hpresent]

theorem length_heap_renumber : (idx.renumber removed last).heap.length = idx.heap.length := by
  simp only [renumber]
  split <;> simp

/-- The last row takes the free number `removed`, and the table has one row
less. -/
def shrink (idx : HeapDeadlineIndex) (removed last : Nat) : HeapDeadlineIndex :=
  let renumbered := if removed ≠ last then idx.renumber removed last else idx
  { renumbered with positions := renumbered.positions.dropLast }

/-- The places of an index whose row `removed` is free to be reused. -/
structure Shrinkable (idx : HeapDeadlineIndex) (removed last : Nat) : Prop where
  inverse : Inverse idx
  length : idx.positions.length = last + 1
  removed_le : removed ≤ last
  free : idx.positionOf removed = absent

theorem length_heap_shrink : (idx.shrink removed last).heap.length = idx.heap.length := by
  simp only [shrink]
  split
  · exact length_heap_renumber
  · rfl

variable (h : Shrinkable idx removed last)

include h

theorem Shrinkable.length_positions : (idx.shrink removed last).positions.length = last := by
  have hlen := h.length
  simp only [shrink]
  split <;> simp [renumber, hlen]

theorem Shrinkable.positionOf_shrink {r : Nat} (hr : r < last) :
    (idx.shrink removed last).positionOf r =
      if r = removed then idx.positionOf last else idx.positionOf r := by
  have hlen := h.length
  have hle := h.removed_le
  rw [positionOf]
  simp only [shrink]
  split
  · rw [getD_dropLast _ _ _ (by simp [renumber, hlen]; omega)]
    exact getD_set idx.positions removed r (idx.positionOf last) absent (by omega)
  · rw [getD_dropLast _ _ _ (by omega), if_neg (by omega), positionOf]

theorem Shrinkable.rowAt_shrink (p : Nat) : (idx.shrink removed last).rowAt p =
      if idx.positionOf last ≠ absent ∧ p = idx.positionOf last then removed
      else idx.rowAt p := by
  have hlen := h.length
  have hle := h.removed_le
  by_cases hne : removed ≠ last
  · have hremoved : removed < idx.positions.length := by omega
    have hlast : last < idx.positions.length := by omega
    rw [← rowAt_renumber h.inverse hremoved hlast p]
    simp [shrink, hne, rowAt]
  · have heq : removed = last := not_not.mp hne
    have hfree := h.free
    rw [heq] at hfree
    simp [shrink, heq, hfree, rowAt]

theorem Shrinkable.rowAt_lt (hp : p < idx.heap.length)
    (hother : ¬(idx.positionOf last ≠ absent ∧ p = idx.positionOf last)) :
    idx.rowAt p < last ∧ idx.rowAt p ≠ removed := by
  have hplt := h.inverse.position_lt_absent hp
  obtain ⟨⟨-, hlt, hback, -⟩, hlen, -, hfree⟩ := h
  grind

theorem Shrinkable.inverse_shrink : Inverse (idx.shrink removed last) := by
  have hpos := fun r => h.positionOf_shrink (r := r)
  have hrow := h.rowAt_shrink
  have hother := fun p => h.rowAt_lt (p := p)
  have hheap : (idx.shrink removed last).heap.length = idx.heap.length := length_heap_shrink
  have hlast := h.length_positions
  obtain ⟨⟨hsmall, hlt, hback, hforth⟩, hlen, hle, hfree⟩ := h
  constructor <;> grind

end

/-- The table's removal and the index's: the keys at the heap's places stay what
they were, so the order does too. -/
theorem Indexed.swapRemove (h : Indexed rows idx) (hrow : removed < rows.length) :
    Indexed (VecOps.swapRemove rows removed)
      ((idx.remove removed (deadlineOf rows)).shrink removed (rows.length - 1)) := by
  have hsame : rows.set removed (deadlineOf rows removed) = rows := by
    rw [deadlineOf, List.getD_eq_getElem _ _ hrow, List.set_getElem_self]
  have hhole := h.hole_set (deadlineOf rows removed) hrow
  rw [hsame] at hhole
  obtain ⟨hrem, hord⟩ := remove_spec h.inverse (h.length ▸ hrow) hhole (fun _ => h.ordered)
  generalize idx.remove removed (deadlineOf rows) = without at *
  have hshrink : Shrinkable without removed (rows.length - 1) :=
    { inverse := hrem.inverse
      length := by rw [hrem.positions_length, h.length]; omega
      removed_le := by omega
      free := by
        by_contra hpresent
        exact ((hrem.present removed).mp hpresent).2 rfl }
  have hlisted : ∀ r, r < rows.length → r ≠ removed →
      (without.positionOf r ≠ absent ↔ (deadlineOf rows r).isSome = true) := by
    intro r hr hne
    rw [hrem.present, h.listed r hr]
    exact and_iff_left hne
  refine
    { inverse := hshrink.inverse_shrink
      length := by rw [hshrink.length_positions, length_swapRemove]
      listed := ?_
      ordered := ?_ }
  · intro r hr
    rw [length_swapRemove] at hr
    rw [hshrink.positionOf_shrink hr, deadlineOf_swapRemove rows removed r hrow hr]
    split
    · exact hlisted _ (by omega) (by omega)
    · rename_i hne
      exact hlisted r (by omega) hne
  · rw [length_heap_shrink]
    refine hord.congr (fun p hp => ?_)
    rw [keyAt, keyAt, hshrink.rowAt_shrink, deadline, deadline]
    split
    · -- the renumbered row: its deadline moved with it
      rename_i hmoved
      have hback := (hrem.inverse.rowAt_positionOf (rows.length - 1)
        (by rw [hrem.positions_length, h.length]; omega) hmoved.1).2
      have hne : removed ≠ rows.length - 1 := by
        intro heq
        exact hmoved.1 (heq ▸ hshrink.free)
      rw [deadlineOf_swapRemove rows removed removed hrow (by omega), if_pos rfl, hmoved.2, hback]
    · rename_i hother
      obtain ⟨hlt, hne⟩ := hshrink.rowAt_lt hp hother
      rw [deadlineOf_swapRemove rows removed _ hrow hlt, if_neg hne]

variable (h : Inv rows idx)

include h

theorem swapRemove_inv (hrow : removed < rows.length) :
    Inv (VecOps.swapRemove rows removed)
      (idx.swapRemove removed (rows.length - 1) (deadlineOf rows)) := by
  unfold HeapDeadlineIndex.swapRemove
  split
  · exact inv_invalidate _ _
  · rename_i hguard
    obtain ⟨hready, -⟩ := not_or.mp hguard
    intro _
    exact (h (not_not.mp hready)).swapRemove hrow

/-! ## Exact answers -/

/-- What a query starts from: a ready index of the table, or a linear scan. -/
theorem prepare_cases : (idx.prepare rows.length (deadlineOf rows)).readiness = .linearFallback ∨
      (idx.prepare rows.length (deadlineOf rows)).readiness = .ready ∧
        Indexed rows (idx.prepare rows.length (deadlineOf rows)) := by
  have hrebuild := rebuild_inv rows idx
  have hafter : (idx.rebuild rows.length (deadlineOf rows)).readiness = .linearFallback ∨
      (idx.rebuild rows.length (deadlineOf rows)).readiness = .ready := by
    unfold rebuild
    split
    · exact Or.inl rfl
    · exact Or.inr rfl
  unfold prepare
  split
  · rcases hafter with hfallback | hready
    · exact Or.inl hfallback
    · exact Or.inr ⟨hready, hrebuild hready⟩
  rename_i hkeep
  cases hstate : idx.readiness with
  | ready => exact Or.inr ⟨rfl, h hstate⟩
  | invalid => simp [needsRebuild, hstate] at hkeep
  | linearFallback => exact Or.inl rfl

omit h in
theorem Indexed.root_cases (h : Indexed rows idx) :
    (idx.heap.head? = none ∧ ∀ row, deadlineOf rows row = none) ∨
      ∃ row earliest, idx.heap.head? = some row ∧ row < rows.length ∧
        deadlineOf rows row = some earliest ∧
        ∀ r instant, deadlineOf rows r = some instant → earliest ≤ instant := by
  by_cases hpos : 0 < idx.heap.length
  · right
    obtain ⟨hlt, hsome⟩ := h.rowAt_some hpos
    obtain ⟨earliest, hearliest⟩ := Option.isSome_iff_exists.mp hsome
    refine ⟨idx.rowAt 0, earliest, ?_, hlt, hearliest, fun r instant hr => ?_⟩
    · rw [rowAt, List.getD_eq_getElem _ _ hpos, List.head?_eq_getElem?,
        List.getElem?_eq_getElem hpos]
    · obtain ⟨p, hp, -, hkey⟩ := h.exists_place hr
      have hle := h.ordered.root_le p hp
      rwa [hkey, keyAt, deadline, hearliest, Option.getD_some] at hle
  · refine Or.inl ⟨?_, fun row => Option.eq_none_iff_forall_ne_some.mpr fun instant hrow => ?_⟩
    · rw [List.head?_eq_none_iff, ← List.length_eq_zero_iff]
      omega
    · obtain ⟨p, hp, -⟩ := h.exists_place hrow
      omega

omit h in
theorem none_due (earliest : InstantMillis) {now : InstantMillis}
    (hle : ∀ r instant, deadlineOf rows r = some instant → earliest ≤ instant)
    (hnow : now < earliest) (predicate : Nat → Bool) : IsDueMatch rows now predicate none := by
  intro r hr hdue
  obtain ⟨instant, hinstant, hpast⟩ := isDue_iff.mp hdue
  exact absurd (Nat.le_trans (hle r instant hinstant) hpast) (Nat.not_le_of_lt hnow)

theorem earliestExact_isEarliest :
    IsEarliest rows (idx.earliestExact rows.length (deadlineOf rows)).1 := by
  unfold earliestExact
  rcases prepare_cases h with hfallback | ⟨hready, hidx⟩
  · rw [if_pos hfallback]
    exact linearEarliest_isEarliest rows
  rw [if_neg (by rw [hready]; decide)]
  generalize idx.prepare rows.length (deadlineOf rows) = idx at *
  rcases hidx.root_cases with ⟨hhead, hnone⟩ | ⟨row, earliest, hhead, hlt, hrow, hle⟩
  · simp only [hhead]
    exact hnone
  · simp only [hhead, hrow]
    exact ⟨⟨row, hlt, hrow⟩, hle⟩

theorem eagerEarliestExact_isEarliest :
    IsEarliest rows (idx.eagerEarliestExact rows.length (deadlineOf rows)) := by
  unfold eagerEarliestExact
  split
  · exact linearEarliest_isEarliest rows
  rename_i hguard
  obtain ⟨hready, -⟩ := not_or.mp hguard
  have hidx := h (not_not.mp hready)
  rcases hidx.root_cases with ⟨hhead, hnone⟩ | ⟨row, earliest, hhead, hlt, hrow, hle⟩
  · simp only [hhead]
    exact hnone
  · simp only [hhead, hrow]
    exact ⟨⟨row, hlt, hrow⟩, hle⟩

variable (now : InstantMillis)

theorem firstDueMatching_isDueMatch (predicate : Nat → Bool) :
    IsDueMatch rows now predicate
      (idx.firstDueMatching rows.length now (deadlineOf rows) predicate).1 := by
  unfold firstDueMatching
  rcases prepare_cases h with hfallback | ⟨hready, hidx⟩
  · rw [if_pos hfallback]
    exact linearFirstDue_isDueMatch rows now predicate
  rw [if_neg (by rw [hready]; decide)]
  generalize idx.prepare rows.length (deadlineOf rows) = idx at *
  rcases hidx.root_cases with ⟨hhead, hnone⟩ | ⟨first, earliest, hhead, -, hfirst, hle⟩
  · simp only [hhead]
    exact none_due (now + 1) (by simp [hnone]) (Nat.lt_succ_self _) predicate
  simp only [hhead, hfirst]
  split
  · exact none_due earliest hle ‹_› predicate
  refine find?_isDueMatch rows now predicate idx.heap ?_ ?_
  · intro row hmem
    obtain ⟨p, hp, rfl⟩ := mem_heap_iff.mp hmem
    exact (hidx.rowAt_some hp).1
  · intro row _ hdue
    obtain ⟨instant, hrow, -⟩ := isDue_iff.mp hdue
    obtain ⟨p, hp, hback, -⟩ := hidx.exists_place hrow
    exact mem_heap_iff.mpr ⟨p, hp, hback⟩

theorem eagerFirstDue_isDueMatch : IsDueMatch rows now (fun _ => true)
      (idx.eagerFirstDue rows.length now (deadlineOf rows)) := by
  unfold eagerFirstDue
  split
  · exact linearFirstDue_isDueMatch rows now _
  rename_i hguard
  obtain ⟨hready, -⟩ := not_or.mp hguard
  have hidx := h (not_not.mp hready)
  rcases hidx.root_cases with ⟨hhead, hnone⟩ | ⟨first, earliest, hhead, hlt, hfirst, hle⟩
  · simp only [hhead]
    exact none_due (now + 1) (by simp [hnone]) (Nat.lt_succ_self _) _
  · simp only [hhead, hfirst]
    split
    · exact ⟨hlt, isDue_iff.mpr ⟨earliest, hfirst, ‹_›⟩, rfl⟩
    · exact none_due earliest hle (Nat.lt_of_not_le ‹_›) _

theorem prepare_inv : Inv rows (idx.prepare rows.length (deadlineOf rows)) := by
  rcases prepare_cases h with hfallback | ⟨-, hidx⟩
  · exact Inv.of_not_ready (by rw [hfallback]; decide)
  · exact fun _ => hidx

theorem earliestExact_inv : Inv rows (idx.earliestExact rows.length (deadlineOf rows)).2 := by
  have hprep := prepare_inv h
  unfold earliestExact
  dsimp only
  repeat' split
  all_goals first | exact hprep | exact inv_invalidate _ _

theorem firstDueMatching_inv (predicate : Nat → Bool) :
    Inv rows (idx.firstDueMatching rows.length now (deadlineOf rows) predicate).2 := by
  have hprep := prepare_inv h
  unfold firstDueMatching
  dsimp only
  repeat' split
  all_goals first | exact hprep | exact inv_invalidate _ _

omit h

theorem step_inv (m m' : Mirror HeapDeadlineIndex) (hstep : Step ops m m')
    (h : Inv m.rows m.index) : Inv m'.rows m'.index := by
  cases hstep with
  | insert deadline => exact insert_inv m.rows m.index deadline h
  | update row deadline hrow => exact update_inv h deadline hrow
  | remove row hrow hready => exact fun _ => (h hready).remove hrow
  | swapRemove removed hrow => exact swapRemove_inv h hrow
  | invalidate => exact inv_invalidate _ _
  | rebuild => exact rebuild_inv _ _
  | earliest => exact earliestExact_inv h
  | firstDue now predicate => exact firstDueMatching_inv h now predicate

theorem start_inv (m : Mirror HeapDeadlineIndex) (hstart : Start ops m) : Inv m.rows m.index := by
  cases hstart with
  | fresh =>
    intro _
    refine
      { inverse :=
          { small := by decide
            rowAt_lt := fun p hp => absurd hp (Nat.not_lt_zero p)
            positionOf_rowAt := fun p hp => absurd hp (Nat.not_lt_zero p)
            rowAt_positionOf := fun row hrow => absurd hrow (Nat.not_lt_zero row) }
        length := rfl
        listed := fun row hrow => absurd hrow (Nat.not_lt_zero row)
        ordered := fun i _ hi => absurd hi (Nat.not_lt_zero i) }
  | invalid rows => exact inv_invalidate _ _

/-- Along every run of a table with its deadline heap: while the index is ready
the heap is ordered, heap and positions are inverse and the heap holds exactly
the rows with a deadline; and every query, in whatever state the index is,
answers exactly. -/
theorem deadlineHeap_exact {m : Mirror HeapDeadlineIndex} (h : Reachable ops m) :
    (m.index.readiness = .ready → Ordered (keyAt (deadlineOf m.rows) m.index) m.index.heap.length ∧
      Inverse m.index ∧ m.index.positions.length = m.rows.length ∧
      ∀ row, row < m.rows.length →
        (m.index.positionOf row ≠ absent ↔ (deadlineOf m.rows row).isSome = true)) ∧
    IsEarliest m.rows (m.index.earliestExact m.rows.length (deadlineOf m.rows)).1 ∧
    IsEarliest m.rows (m.index.eagerEarliestExact m.rows.length (deadlineOf m.rows)) ∧
    ∀ now, IsDueMatch m.rows now (fun _ => true)
        (m.index.eagerFirstDue m.rows.length now (deadlineOf m.rows)) ∧
      ∀ predicate, IsDueMatch m.rows now predicate
        (m.index.firstDueMatching m.rows.length now (deadlineOf m.rows) predicate).1 := by
  have hinv : Inv m.rows m.index := Reachable.invariant start_inv step_inv h
  refine ⟨?_, earliestExact_isEarliest hinv, eagerEarliestExact_isEarliest hinv, ?_⟩
  · intro hready
    have hidx := hinv hready
    exact ⟨hidx.ordered, hidx.inverse, hidx.length, hidx.listed⟩
  · intro now
    exact ⟨eagerFirstDue_isDueMatch hinv now, firstDueMatching_isDueMatch hinv now⟩

/-- A table of two rows whose second deadline moves before the first one's. -/
theorem deadlineHeap_exact_moved : IsEarliest [some 7, some 3]
      ((((new.insert 0 (some 7) (deadlineOf [some 7])).insert 1 (some 9)
        (deadlineOf [some 7, some 9])).update 1 (some 3)
          (deadlineOf [some 7, some 3])).earliestExact 2 (deadlineOf [some 7, some 3])).1 :=
  (deadlineHeap_exact ⟨_, Start.fresh,
    ((Relation.ReflTransGen.single (Step.insert ⟨[], new⟩ (some 7))).tail
      (Step.insert _ (some 9))).tail (Step.update _ 1 (some 3) (by decide))⟩).2.1

end HeapDeadlineIndex

end Prns.Ports.TemporalIndex
