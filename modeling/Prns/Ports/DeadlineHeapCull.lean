import Prns.Ports.DeadlineHeapRuns

/-!
# When a heap is culled by a scan

`prefers_linear_cull` counts the due rows of a ready heap. It goes through the heap in preorder
without a stack, skips what is below a row that is not due, and stops as soon as the count is
large enough.
-/

namespace Prns.Ports.TemporalIndex.HeapDeadlineIndex

open Verified.HeapOrder

def linearCullMinCandidates : Nat := 4096
def heapLinearCullDensityDenominator : Nat := 25

def nextAfterSubtree (position len : Nat) : Option Nat :=
  if position = 0 then none
  else if position % 2 = 1 ∧ position + 1 < len then some (position + 1)
  else nextAfterSubtree ((position - 1) / 2) len
termination_by position

/-- The test of the loop; the product saturates. -/
abbrev Dense (rowCount candidates : Nat) : Prop :=
  linearCullMinCandidates ≤ candidates ∧
    rowCount ≤ min (candidates * heapLinearCullDensityDenominator) u64Max

/-- The loop, for at most `fuel` turns. -/
def cullLoop (idx : HeapDeadlineIndex) (rowCount : Nat) (now : InstantMillis)
    (deadlineOf : Nat → Option InstantMillis) :
    Nat → Option Nat → Nat → Option (Bool × HeapDeadlineIndex)
  | 0, _, _ => none
  | _ + 1, none, _ => some (false, idx)
  | fuel + 1, some current, candidates =>
    match deadlineOf (idx.rowAt current) with
    | none => some (true, idx.invalidate)
    | some deadline =>
      if deadline ≤ now then
        if Dense rowCount (candidates + 1) then some (true, idx)
        else cullLoop idx rowCount now deadlineOf fuel
          (if current < idx.heap.length / 2 then some (current * 2 + 1)
            else nextAfterSubtree current idx.heap.length) (candidates + 1)
      else cullLoop idx rowCount now deadlineOf fuel
        (nextAfterSubtree current idx.heap.length) candidates

def prefersLinearCull (idx : HeapDeadlineIndex) (rowCount : Nat) (now : InstantMillis)
    (deadlineOf : Nat → Option InstantMillis) (fuel : Nat) : Option (Bool × HeapDeadlineIndex) :=
  let idx := idx.prepare rowCount deadlineOf
  if idx.readiness ≠ .ready then some (true, idx)
  else cullLoop idx rowCount now deadlineOf fuel (idx.heap.head?.map fun _ => 0) 0

/-! ## The frontier -/

/-- The sum over all places from a position on, in the order of the loop. -/
def ahead (f : Nat → Nat) (n : Nat) : Option Nat → Nat
  | none => 0
  | some p => below f n p + after f n p

variable {f : Nat → Nat} {n p : Nat}

theorem nextAfterSubtree_spec : ahead f n (nextAfterSubtree p n) = after f n p ∧
    ∀ q, nextAfterSubtree p n = some q → q < n := by
  fun_induction nextAfterSubtree p n with
  | case1 => exact ⟨by rw [after, if_pos rfl]; rfl, nofun⟩
  | case2 p hp hnext =>
    refine ⟨?_, fun q hq => by cases hq; exact hnext.2⟩
    rw [ahead, after, if_neg (by omega), if_neg (by omega), after.eq_def f n p, if_neg hp,
      if_pos hnext.1, show (p + 1 - 1) / 2 = (p - 1) / 2 by omega, Nat.zero_add]
  | case3 p hp hnone ih =>
    refine ⟨?_, ih.2⟩
    rw [ih.1, after.eq_def f n p, if_neg hp]
    split
    · rw [below_of_le (by omega), Nat.zero_add]
    · rw [Nat.zero_add]

theorem ahead_descend (hp : p < n) :
    f p + ahead f n (if p < n / 2 then some (p * 2 + 1) else nextAfterSubtree p n) =
      ahead f n (some p) ∧
    ∀ q, (if p < n / 2 then some (p * 2 + 1) else nextAfterSubtree p n) = some q → q < n := by
  rw [ahead, below_of_lt hp]
  split
  · refine ⟨?_, fun q hq => by cases hq; omega⟩
    rw [ahead, after_left]
    omega
  · rw [nextAfterSubtree_spec.1, below_of_le (by omega : n ≤ p * 2 + 1),
      below_of_le (by omega : n ≤ p * 2 + 2)]
    exact ⟨by omega, (@nextAfterSubtree_spec f n p).2⟩

variable {rows : Rows} {idx : HeapDeadlineIndex} {now : InstantMillis}

/-- One for a place whose row is due. -/
def dueAt (rows : Rows) (idx : HeapDeadlineIndex) (now : InstantMillis) (p : Nat) : Nat :=
  if isDue (deadlineOf rows) now (idx.rowAt p) then 1 else 0

theorem dueAt_eq_zero (hlate : now < keyAt (deadlineOf rows) idx p) : dueAt rows idx now p = 0 := by
  rw [keyAt, deadline] at hlate
  rw [dueAt, isDue]
  cases hinstant : deadlineOf rows (idx.rowAt p) with
  | none => rfl
  | some instant => simpa [hinstant] using hlate

theorem Dense.mono {rowCount c c' : Nat} (h : Dense rowCount c) (hle : c ≤ c') :
    Dense rowCount c' := by
  unfold Dense heapLinearCullDensityDenominator at *
  omega

/-- **The frontier.** The count so far and what is due ahead of the loop make up the answer. -/
theorem Indexed.cullLoop_eq (h : Indexed rows idx) {position : Option Nat} {candidates fuel : Nat}
    (hin : ∀ p, position = some p → p < idx.heap.length)
    (hfuel : ahead (fun _ => 1) idx.heap.length position < fuel)
    (hnot : ¬ Dense rows.length candidates) :
    cullLoop idx rows.length now (deadlineOf rows) fuel position candidates =
      some (decide (Dense rows.length
        (candidates + ahead (dueAt rows idx now) idx.heap.length position)), idx) := by
  induction fuel generalizing position candidates with
  | zero => omega
  | succ fuel ih =>
    cases position with
    | none => rw [cullLoop, ahead, Nat.add_zero, decide_eq_false hnot]
    | some p =>
      have hp := hin p rfl
      obtain ⟨instant, hinstant⟩ := Option.isSome_iff_exists.mp (h.rowAt_some hp).2
      rw [cullLoop, hinstant]
      dsimp only
      by_cases hdue : instant ≤ now
      · have hone : dueAt rows idx now p = 1 := by simp [dueAt, isDue, hinstant, hdue]
        obtain ⟨hsum, hnext⟩ := ahead_descend (f := dueAt rows idx now) hp
        rw [← (ahead_descend (f := fun _ => 1) hp).1, Nat.add_comm] at hfuel
        rw [if_pos hdue]
        by_cases hdense : Dense rows.length (candidates + 1)
        · rw [if_pos hdense, decide_eq_true (hdense.mono (by omega))]
        · rw [if_neg hdense, ih hnext (Nat.lt_of_succ_lt_succ hfuel) hdense, ← hsum, hone,
            Nat.add_assoc]
      · have hkey : now < keyAt (deadlineOf rows) idx p := by
          rwa [keyAt, deadline, hinstant, Option.getD_some, ← Nat.not_le]
        obtain ⟨hsum, hnext⟩ := @nextAfterSubtree_spec (dueAt rows idx now) idx.heap.length p
        have hafter := (@nextAfterSubtree_spec (fun _ => 1) idx.heap.length p).1
        rw [ahead, below_of_lt hp] at hfuel
        rw [if_neg hdue, ih hnext (by omega) hnot, hsum, ahead,
          h.ordered.below_eq_zero (fun _ => dueAt_eq_zero) hkey, Nat.zero_add]

theorem ahead_root (f : Nat → Nat) (heap : List Nat) :
    ahead f heap.length (heap.head?.map fun _ => 0) = ((List.range heap.length).map f).sum := by
  rw [← below_zero]
  cases heap with
  | nil => exact (below_of_le (Nat.le_refl 0)).symm
  | cons row heap =>
    show below f _ 0 + after f _ 0 = _
    rw [after, if_pos rfl, Nat.add_zero]

def dueCount (rows : Rows) (now : InstantMillis) : Nat :=
  (List.range rows.length).countP (isDue (deadlineOf rows) now)

theorem Indexed.sum_dueAt (h : Indexed rows idx) :
    ((List.range idx.heap.length).map (dueAt rows idx now)).sum = dueCount rows now := by
  have hsum (l : List Nat) : (l.map (dueAt rows idx now)).sum =
      (l.map idx.rowAt).countP (isDue (deadlineOf rows) now) := by
    induction l with
    | nil => rfl
    | cons p l ih => simp [ih, dueAt, List.countP_cons, Nat.add_comm]
  have hheap : (List.range idx.heap.length).map idx.rowAt = idx.heap := by
    apply List.ext_getElem (by simp)
    intro p hp hp'
    simp [rowAt, hp']
  rw [hsum, hheap, dueCount, List.countP_eq_length_filter, List.countP_eq_length_filter]
  apply List.Perm.length_eq
  rw [List.perm_ext_iff_of_nodup (h.inverse.nodup.filter _) (List.nodup_range.filter _)]
  intro row
  rw [List.mem_filter, List.mem_filter, mem_heap_iff, List.mem_range]
  refine and_congr_left fun hdue => ?_
  obtain ⟨instant, hinstant, -⟩ := isDue_iff.mp hdue
  obtain ⟨p, hp, hrow, -⟩ := h.exists_place hinstant
  exact ⟨fun _ => lt_length_of_deadlineOf hinstant, fun _ => ⟨p, hp, hrow⟩⟩

end Prns.Ports.TemporalIndex.HeapDeadlineIndex
