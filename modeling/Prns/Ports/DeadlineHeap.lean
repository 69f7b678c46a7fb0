import Prns.Ports.TemporalIndex

/-!
# The deadline heap

`HeapDeadlineIndex` is a binary heap of row numbers ordered by the rows'
deadlines, with the position of every row in the heap kept beside it. The
deadlines themselves stay in the table and are passed to every call.

This file is the model of `routing/temporal_index/deadline_heap.rs`. Both
vectors hold `u32` values, so every store goes through `asU32`. A read outside
a vector, where the source would panic, reads a default here; `DeadlineHeapRuns`
shows the invariant under which the reads are inside.
-/

namespace Prns.Ports.TemporalIndex

open Verified.VecOps

/-- `as u32`. -/
def asU32 (n : Nat) : Nat := n % 2 ^ 32

structure HeapDeadlineIndex where
  readiness : IndexReadiness
  heap : List Nat
  positions : List Nat
  deriving DecidableEq, Repr

namespace HeapDeadlineIndex

/-- The position of a row that is not in the heap. -/
def absent : Nat := u32Max

def new : HeapDeadlineIndex := ⟨.ready, [], []⟩

def rowAt (idx : HeapDeadlineIndex) (position : Nat) : Nat := idx.heap.getD position 0

def positionOf (idx : HeapDeadlineIndex) (row : Nat) : Nat :=
  idx.positions.getD row absent

def invalidate (idx : HeapDeadlineIndex) : HeapDeadlineIndex :=
  { idx with readiness := .invalid }

def useLinearFallback (_ : HeapDeadlineIndex) : HeapDeadlineIndex :=
  ⟨.linearFallback, [], []⟩

def needsRebuild (idx : HeapDeadlineIndex) (rowCount : Nat) : Bool :=
  match idx.readiness with
  | .ready => idx.positions.length != rowCount
  | .invalid => true
  | .linearFallback => false

/-- The key of a row: its deadline, and the end of time for a row without
one. -/
def deadline (deadlineOf : Nat → Option InstantMillis) (row : Nat) : InstantMillis :=
  (deadlineOf row).getD u64Max

def swap (idx : HeapDeadlineIndex) (a b : Nat) : HeapDeadlineIndex :=
  let heap := swapAt idx.heap a b 0
  { idx with
    heap := heap
    positions := (idx.positions.set (heap.getD a 0) (asU32 a)).set
      (heap.getD b 0) (asU32 b) }

@[simp] theorem length_heap_swap (idx : HeapDeadlineIndex) (a b : Nat) :
    (idx.swap a b).heap.length = idx.heap.length := by
  simp [swap]

def siftUp (deadlineOf : Nat → Option InstantMillis) (idx : HeapDeadlineIndex)
    (position : Nat) : HeapDeadlineIndex :=
  if 0 < position then
    let parent := (position - 1) / 2
    if deadline deadlineOf (idx.rowAt parent) ≤
        deadline deadlineOf (idx.rowAt position) then idx
    else siftUp deadlineOf (idx.swap parent position) parent
  else idx
  termination_by position
  decreasing_by omega

/-- The child `sift_down` compares with: the right one only if it is strictly
earlier. -/
def earlierChild (deadlineOf : Nat → Option InstantMillis) (idx : HeapDeadlineIndex)
    (left : Nat) : Nat :=
  let right := left + 1
  if right < idx.heap.length ∧
      deadline deadlineOf (idx.rowAt right) < deadline deadlineOf (idx.rowAt left)
  then right else left

def siftDown (deadlineOf : Nat → Option InstantMillis) (idx : HeapDeadlineIndex)
    (position : Nat) : HeapDeadlineIndex :=
  let left := position * 2 + 1
  if idx.heap.length ≤ left then idx
  else
    let child := earlierChild deadlineOf idx left
    if deadline deadlineOf (idx.rowAt position) ≤
        deadline deadlineOf (idx.rowAt child) then idx
    else siftDown deadlineOf (idx.swap position child) child
  termination_by idx.heap.length - position
  decreasing_by
    rw [length_heap_swap]
    simp only [earlierChild]
    split <;> omega

def repair (deadlineOf : Nat → Option InstantMillis) (idx : HeapDeadlineIndex)
    (position : Nat) : HeapDeadlineIndex :=
  if 0 < position ∧ deadline deadlineOf (idx.rowAt position) <
      deadline deadlineOf (idx.rowAt ((position - 1) / 2))
  then siftUp deadlineOf idx position
  else siftDown deadlineOf idx position

/-- A row enters the heap at its end, not yet in order. -/
def pushRow (idx : HeapDeadlineIndex) (row : Nat) : HeapDeadlineIndex :=
  { idx with
    positions := idx.positions.set row (asU32 idx.heap.length)
    heap := idx.heap ++ [asU32 row] }

/-- The first loop of `rebuild`: the rows with a deadline, in row order. -/
def collect (deadlineOf : Nat → Option InstantMillis) (rowCount : Nat)
    (idx : HeapDeadlineIndex) : HeapDeadlineIndex :=
  (List.range rowCount).foldl
    (fun idx row => if (deadlineOf row).isSome then idx.pushRow row else idx) idx

/-- The second loop of `rebuild`: the inner places from the last to the first. -/
def heapify (deadlineOf : Nat → Option InstantMillis) :
    Nat → HeapDeadlineIndex → HeapDeadlineIndex
  | 0, idx => idx
  | position + 1, idx => heapify deadlineOf position (siftDown deadlineOf idx position)

def rebuild (idx : HeapDeadlineIndex) (rowCount : Nat)
    (deadlineOf : Nat → Option InstantMillis) : HeapDeadlineIndex :=
  if absent < rowCount then idx.useLinearFallback
  else
    let collected := collect deadlineOf rowCount
      { idx with heap := [], positions := List.replicate rowCount absent }
    let ordered := heapify deadlineOf (collected.heap.length / 2) collected
    { ordered with readiness := .ready }

def prepare (idx : HeapDeadlineIndex) (rowCount : Nat)
    (deadlineOf : Nat → Option InstantMillis) : HeapDeadlineIndex :=
  if idx.needsRebuild rowCount then idx.rebuild rowCount deadlineOf else idx

def insert (idx : HeapDeadlineIndex) (row : Nat) (deadline : Option InstantMillis)
    (deadlineOf : Nat → Option InstantMillis) : HeapDeadlineIndex :=
  if idx.readiness ≠ .ready ∨ row ≠ idx.positions.length then idx.invalidate
  else if absent ≤ row then idx.useLinearFallback
  else
    let grown := { idx with positions := idx.positions ++ [absent] }
    if deadline.isSome then
      siftUp deadlineOf (grown.pushRow row) ((grown.pushRow row).heap.length - 1)
    else grown

def remove (idx : HeapDeadlineIndex) (row : Nat)
    (deadlineOf : Nat → Option InstantMillis) : HeapDeadlineIndex :=
  let position := idx.positionOf row
  if position = absent then idx
  else
    let last := idx.heap.length - 1
    let cleared := idx.positions.set row absent
    if position = last then
      { idx with positions := cleared, heap := idx.heap.dropLast }
    else
      let moved := idx.rowAt last
      repair deadlineOf
        { idx with
          positions := cleared.set moved (asU32 position)
          heap := (idx.heap.set position moved).dropLast }
        position

def update (idx : HeapDeadlineIndex) (row : Nat) (deadline : Option InstantMillis)
    (deadlineOf : Nat → Option InstantMillis) : HeapDeadlineIndex :=
  if idx.readiness ≠ .ready ∨ idx.positions.length ≤ row then idx.invalidate
  else
    let position := idx.positionOf row
    match decide (position = absent), deadline.isSome with
    | true, true =>
        siftUp deadlineOf (idx.pushRow row) ((idx.pushRow row).heap.length - 1)
    | false, false => idx.remove row deadlineOf
    | false, true => repair deadlineOf idx position
    | true, false => idx

/-- The row that takes the number of a removed one. -/
def renumber (idx : HeapDeadlineIndex) (removed last : Nat) : HeapDeadlineIndex :=
  let position := idx.positionOf last
  { idx with
    positions := idx.positions.set removed position
    heap := if position ≠ absent then idx.heap.set position (asU32 removed)
      else idx.heap }

def swapRemove (idx : HeapDeadlineIndex) (removed last : Nat)
    (deadlineOf : Nat → Option InstantMillis) : HeapDeadlineIndex :=
  if idx.readiness ≠ .ready ∨ idx.positions.length ≤ last ∨ last < removed then
    idx.invalidate
  else
    let without := idx.remove removed deadlineOf
    let renumbered := if removed ≠ last then without.renumber removed last else without
    { renumbered with positions := renumbered.positions.dropLast }

def earliestExact (idx : HeapDeadlineIndex) (rowCount : Nat)
    (deadlineOf : Nat → Option InstantMillis) :
    Option InstantMillis × HeapDeadlineIndex :=
  let idx := idx.prepare rowCount deadlineOf
  if idx.readiness = .linearFallback then (linearEarliest rowCount deadlineOf, idx)
  else
    match idx.heap.head? with
    | none => (none, idx)
    | some row =>
        match deadlineOf row with
        | some instant => (some instant, idx)
        | none => (linearEarliest rowCount deadlineOf, idx.invalidate)

def eagerEarliestExact (idx : HeapDeadlineIndex) (rowCount : Nat)
    (deadlineOf : Nat → Option InstantMillis) : Option InstantMillis :=
  if idx.readiness ≠ .ready ∨ idx.positions.length ≠ rowCount then
    linearEarliest rowCount deadlineOf
  else
    match idx.heap.head? with
    | none => none
    | some row =>
        match deadlineOf row with
        | some instant => some instant
        | none => linearEarliest rowCount deadlineOf

def eagerFirstDue (idx : HeapDeadlineIndex) (rowCount : Nat) (now : InstantMillis)
    (deadlineOf : Nat → Option InstantMillis) : Option Nat :=
  if idx.readiness ≠ .ready ∨ idx.positions.length ≠ rowCount then
    linearFirstDue rowCount now deadlineOf (fun _ => true)
  else
    match idx.heap.head? with
    | none => none
    | some row =>
        match deadlineOf row with
        | some instant => if instant ≤ now then some row else none
        | none => linearFirstDue rowCount now deadlineOf (fun _ => true)

def firstDueMatching (idx : HeapDeadlineIndex) (rowCount : Nat) (now : InstantMillis)
    (deadlineOf : Nat → Option InstantMillis) (predicate : Nat → Bool) :
    Option Nat × HeapDeadlineIndex :=
  let idx := idx.prepare rowCount deadlineOf
  if idx.readiness = .linearFallback then
    (linearFirstDue rowCount now deadlineOf predicate, idx)
  else
    match idx.heap.head? with
    | none => (none, idx)
    | some first =>
        match deadlineOf first with
        | none => (linearFirstDue rowCount now deadlineOf predicate, idx.invalidate)
        | some firstDeadline =>
            if now < firstDeadline then (none, idx)
            else
              (idx.heap.find?
                (fun row => isDue deadlineOf now row && predicate row), idx)

def firstDue (idx : HeapDeadlineIndex) (rowCount : Nat) (now : InstantMillis)
    (deadlineOf : Nat → Option InstantMillis) : Option Nat × HeapDeadlineIndex :=
  idx.firstDueMatching rowCount now deadlineOf (fun _ => true)

/-- The deadline heap as the index of a table. -/
def ops : IndexOps HeapDeadlineIndex where
  new := new
  readiness := readiness
  invalidate := invalidate
  rebuild := rebuild
  insert := insert
  remove := remove
  update := update
  swapRemove := swapRemove
  earliestExact := earliestExact
  firstDueMatching := firstDueMatching

end HeapDeadlineIndex

end Prns.Ports.TemporalIndex
