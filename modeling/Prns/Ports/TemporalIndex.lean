import Prns.Verified.VecOps

/-!
# Deadline indexes over a table

A table keeps one optional deadline per row. Its rows are pushed at the end and
removed by moving the last row into the gap. An index follows the table: it is
told about every push, every change of a deadline and every removal, and may at
any time be invalidated or rebuilt from the rows.

`routing/temporal_index` has two such indexes. This file holds what they share:
the readiness states, the linear scans both fall back on, what an exact answer
is, and the runs of a table with its index.
-/

namespace Prns.Ports.TemporalIndex

open Verified.VecOps

/-- Milliseconds; a `u64` in the source. -/
abbrev InstantMillis := Nat

def u64Max : Nat := 2 ^ 64 - 1
def u32Max : Nat := 2 ^ 32 - 1

inductive IndexReadiness where
  | ready
  | invalid
  | linearFallback
  deriving DecidableEq, Repr

/-- The deadlines of a table, by row. -/
abbrev Rows := List (Option InstantMillis)

def deadlineOf (rows : Rows) (row : Nat) : Option InstantMillis := rows.getD row none

variable (rows : Rows)

theorem deadlineOf_push (deadline : Option InstantMillis) (row : Nat) :
    deadlineOf (rows ++ [deadline]) row =
      if row = rows.length then deadline else deadlineOf rows row :=
  getD_append_singleton rows row deadline none

theorem deadlineOf_set (row r : Nat) (deadline : Option InstantMillis) (h : row < rows.length) :
    deadlineOf (rows.set row deadline) r = if r = row then deadline else deadlineOf rows r :=
  getD_set rows row r deadline none h

theorem deadlineOf_swapRemove (removed r : Nat)
    (h : removed < rows.length) (hr : r < rows.length - 1) :
    deadlineOf (swapRemove rows removed) r =
      if r = removed then deadlineOf rows (rows.length - 1) else deadlineOf rows r :=
  getD_swapRemove rows removed r none h hr

theorem lt_length_of_deadlineOf {rows : Rows} {row : Nat} {instant : InstantMillis}
    (h : deadlineOf rows row = some instant) : row < rows.length := by
  by_cases hlt : row < rows.length
  · exact hlt
  · rw [deadlineOf, List.getD_eq_default rows none (by omega)] at h
    cases h

/-! ## Exact answers -/

/-- `deadline_of(row).is_some_and(|at| at <= now)`. -/
def isDue (deadline : Nat → Option InstantMillis) (now : InstantMillis) (row : Nat) :
    Bool :=
  (deadline row).any (fun instant => decide (instant ≤ now))

theorem isDue_iff {deadline : Nat → Option InstantMillis} {now : InstantMillis} {row : Nat} :
    isDue deadline now row = true ↔ ∃ instant, deadline row = some instant ∧ instant ≤ now := by
  unfold isDue
  cases deadline row with
  | none => simp
  | some instant => simp

/-- The answer is the least deadline of the table, `none` if it has none. -/
def IsEarliest (rows : Rows) : Option InstantMillis → Prop
  | none => ∀ row, deadlineOf rows row = none
  | some earliest =>
      (∃ row, row < rows.length ∧ deadlineOf rows row = some earliest) ∧
        ∀ row instant, deadlineOf rows row = some instant → earliest ≤ instant

/-- The answer is a row that is due and matches, `none` if there is no such
row. -/
def IsDueMatch (rows : Rows) (now : InstantMillis) (predicate : Nat → Bool) :
    Option Nat → Prop
  | none => ∀ row, row < rows.length → isDue (deadlineOf rows) now row = true →
      predicate row = false
  | some row => row < rows.length ∧ isDue (deadlineOf rows) now row = true ∧
      predicate row = true

/-- `(0..row_count).filter_map(deadline_of).min()`. -/
def linearEarliest (rowCount : Nat) (deadline : Nat → Option InstantMillis) :
    Option InstantMillis :=
  ((List.range rowCount).filterMap deadline).min?

/-- `(0..row_count).find(due and matching)`. -/
def linearFirstDue (rowCount : Nat) (now : InstantMillis)
    (deadline : Nat → Option InstantMillis) (predicate : Nat → Bool) : Option Nat :=
  (List.range rowCount).find? (fun row => isDue deadline now row && predicate row)

theorem min?_isEarliest (listed : List Nat) (hlisted : ∀ row ∈ listed, row < rows.length)
    (hcover : ∀ row instant, deadlineOf rows row = some instant →
      ∃ r ∈ listed, ∃ least, deadlineOf rows r = some least ∧ least ≤ instant) :
    IsEarliest rows (listed.filterMap (deadlineOf rows)).min? := by
  cases hmin : (listed.filterMap (deadlineOf rows)).min? with
  | none =>
    intro row
    rw [List.min?_eq_none_iff] at hmin
    cases hrow : deadlineOf rows row with
    | none => rfl
    | some instant =>
      obtain ⟨r, hr, least, hleast, _⟩ := hcover row instant hrow
      have hmem : least ∈ listed.filterMap (deadlineOf rows) :=
        List.mem_filterMap.mpr ⟨r, hr, hleast⟩
      rw [hmin] at hmem
      exact absurd hmem (by simp)
  | some earliest =>
    obtain ⟨hmem, hle⟩ := List.min?_eq_some_iff.mp hmin
    obtain ⟨row, hrow, hdeadline⟩ := List.mem_filterMap.mp hmem
    refine ⟨⟨row, hlisted row hrow, hdeadline⟩, ?_⟩
    intro other instant hother
    obtain ⟨r, hr, least, hleast, hli⟩ := hcover other instant hother
    exact Nat.le_trans (hle least (List.mem_filterMap.mpr ⟨r, hr, hleast⟩)) hli

theorem find?_isDueMatch (now : InstantMillis) (predicate : Nat → Bool)
    (listed : List Nat) (hlisted : ∀ row ∈ listed, row < rows.length)
    (hcover : ∀ row, row < rows.length → isDue (deadlineOf rows) now row = true → row ∈ listed) :
    IsDueMatch rows now predicate
      (listed.find? (fun row => isDue (deadlineOf rows) now row && predicate row)) := by
  cases hfind : listed.find? (fun row => isDue (deadlineOf rows) now row && predicate row) with
  | none =>
    intro row hrow hdue
    have hnot := List.find?_eq_none.mp hfind row (hcover row hrow hdue)
    simpa [hdue] using hnot
  | some row =>
    have hsat := List.find?_some hfind
    rw [Bool.and_eq_true] at hsat
    exact ⟨hlisted row (List.mem_of_find?_eq_some hfind), hsat.1, hsat.2⟩

theorem linearEarliest_isEarliest :
    IsEarliest rows (linearEarliest rows.length (deadlineOf rows)) := by
  refine min?_isEarliest rows _ (fun row hrow => List.mem_range.mp hrow) ?_
  intro row instant hrow
  exact ⟨row, List.mem_range.mpr (lt_length_of_deadlineOf hrow), instant, hrow, Nat.le_refl _⟩

theorem linearFirstDue_isDueMatch (now : InstantMillis) (predicate : Nat → Bool) :
    IsDueMatch rows now predicate (linearFirstDue rows.length now (deadlineOf rows) predicate) :=
  find?_isDueMatch rows now predicate _ (fun _ hrow => List.mem_range.mp hrow)
    (fun _ hrow _ => List.mem_range.mpr hrow)

/-- The entry points of an index. Those that read deadlines are given the
table's own. -/
structure IndexOps (ι : Type) where
  new : ι
  readiness : ι → IndexReadiness
  invalidate : ι → ι
  rebuild : ι → Nat → (Nat → Option InstantMillis) → ι
  insert : ι → Nat → Option InstantMillis → (Nat → Option InstantMillis) → ι
  remove : ι → Nat → (Nat → Option InstantMillis) → ι
  update : ι → Nat → Option InstantMillis → (Nat → Option InstantMillis) → ι
  swapRemove : ι → Nat → Nat → (Nat → Option InstantMillis) → ι
  earliestExact : ι → Nat → (Nat → Option InstantMillis) → Option InstantMillis × ι
  firstDueMatching : ι → Nat → InstantMillis → (Nat → Option InstantMillis) →
    (Nat → Bool) → Option Nat × ι

/-- A table and the index that follows it. -/
structure Mirror (ι : Type) where
  rows : Rows
  index : ι

/-- What a table does with its index. A push and a change of deadline come
before the index is told, a removal after. -/
inductive Step {ι : Type} (ops : IndexOps ι) : Mirror ι → Mirror ι → Prop
  | insert (m : Mirror ι) (deadline : Option InstantMillis) :
      Step ops m ⟨m.rows ++ [deadline],
        ops.insert m.index m.rows.length deadline
          (deadlineOf (m.rows ++ [deadline]))⟩
  | update (m : Mirror ι) (row : Nat) (deadline : Option InstantMillis)
      (hrow : row < m.rows.length) :
      Step ops m ⟨m.rows.set row deadline,
        ops.update m.index row deadline (deadlineOf (m.rows.set row deadline))⟩
  | remove (m : Mirror ι) (row : Nat) (hrow : row < m.rows.length)
      (hready : ops.readiness m.index = .ready) :
      Step ops m ⟨m.rows.set row none,
        ops.remove m.index row (deadlineOf (m.rows.set row none))⟩
  | swapRemove (m : Mirror ι) (removed : Nat) (hrow : removed < m.rows.length) :
      Step ops m ⟨swapRemove m.rows removed,
        ops.swapRemove m.index removed (m.rows.length - 1) (deadlineOf m.rows)⟩
  | invalidate (m : Mirror ι) : Step ops m ⟨m.rows, ops.invalidate m.index⟩
  | rebuild (m : Mirror ι) :
      Step ops m ⟨m.rows, ops.rebuild m.index m.rows.length (deadlineOf m.rows)⟩
  | earliest (m : Mirror ι) :
      Step ops m ⟨m.rows,
        (ops.earliestExact m.index m.rows.length (deadlineOf m.rows)).2⟩
  | firstDue (m : Mirror ι) (now : InstantMillis) (predicate : Nat → Bool) :
      Step ops m ⟨m.rows,
        (ops.firstDueMatching m.index m.rows.length now (deadlineOf m.rows)
          predicate).2⟩

/-- A fresh index starts with an empty table, an invalid one with any table. -/
inductive Start {ι : Type} (ops : IndexOps ι) : Mirror ι → Prop
  | fresh : Start ops ⟨[], ops.new⟩
  | invalid (rows : Rows) : Start ops ⟨rows, ops.invalidate ops.new⟩

def Reachable {ι : Type} (ops : IndexOps ι) (m : Mirror ι) : Prop :=
  ∃ start, Start ops start ∧ Relation.ReflTransGen (Step ops) start m

theorem Reachable.invariant {ι : Type} {ops : IndexOps ι}
    {Inv : Rows → ι → Prop} (hstart : ∀ m, Start ops m → Inv m.rows m.index)
    (hstep : ∀ m m', Step ops m m' → Inv m.rows m.index → Inv m'.rows m'.index)
    {m : Mirror ι} (h : Reachable ops m) : Inv m.rows m.index := by
  obtain ⟨start, hs, hrun⟩ := h
  induction hrun with
  | refl => exact hstart start hs
  | tail _ hlast ih => exact hstep _ _ hlast ih

end Prns.Ports.TemporalIndex
