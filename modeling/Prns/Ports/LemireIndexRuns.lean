import Prns.Ports.LemireIndexProbing

/-!
# Tables with a Lemire index

A table that keeps to its protocol has an index that holds exactly its live rows
after every operation, and no operation of it runs into a loop without end. The
protocol has two halves: what the operation needs of the table (`Allowed`), and
the order in which it calls the index, which is part of the model of the table.
-/

namespace Prns.Ports.Lemire

open Verified
open Verified.VecOps
open Verified.LinearProbe
open Probing

variable {slot : Nat} {S : Nat → Prop} {i : Nat} {removal : By}

section

variable {R K : Type} [IndexKey K] [IndexRow R K] [DecidableEq K]

/-- The index of a table of `len` live rows is a correct map. -/
structure Exact (empty : Nat) (slots : List Nat) (rows : List R) (len : Nat) : Prop where
  /-- A lookup ends, with a live row of that key exactly if there is one. -/
  lookup : ∀ target : K, ∃ answer, Probing.get empty slots target rows = some answer ∧
    match answer with
    | some slot => slot < len ∧ rowKey rows slot = some target
    | none => ∀ slot, slot < len → rowKey rows slot ≠ some target
  /-- Every live row is in a bucket that a probe from its home reaches. -/
  reachable : ∀ slot, slot < len → ∃ pos, pos < slots.length ∧
    slots.getD pos empty = slot ∧
    ∀ q, q < slots.length →
      LinearProbe.dist slots.length (homeOf slots.length rows slot) q <
        LinearProbe.dist slots.length (homeOf slots.length rows slot) pos →
      slots.getD q empty ≠ empty
  /-- No bucket holds anything else. -/
  live : ∀ pos, pos < slots.length → slots.getD pos empty ≠ empty →
    slots.getD pos empty < len
  /-- Some bucket is free. -/
  free : ∃ pos, pos < slots.length ∧ slots.getD pos empty = empty

variable {empty : Nat} {slots : List Nat} {rows : List R} {len : Nat}

theorem Probing.Indexes.get_spec (h : Indexes empty slots rows S) (target : K) :
    ∃ answer, Probing.get empty slots target rows = some answer ∧ match answer with
      | some slot => S slot ∧ rowKey rows slot = some target
      | none => ∀ slot, S slot → rowKey rows slot ≠ some target := by
  obtain ⟨found, hposition, hfound⟩ := position_spec h target
  rw [Probing.get, hposition]
  cases found with
  | none => exact ⟨none, rfl, hfound⟩
  | some pos =>
    obtain ⟨slot, -, hview, hslot, hkey⟩ := hfound
    refine ⟨some slot, ?_, hslot, hkey⟩
    rw [Option.map_some, Option.map_some, (view_eq_some hview).1]

theorem exact_of_indexes (h : Indexes empty slots rows (fun slot => slot < len)) :
    Exact empty slots rows len := by
  refine
    { lookup := h.get_spec
      reachable := ?_
      live := ?_
      free := ?_ }
  · intro slot hslot
    obtain ⟨pos, hpos, hview⟩ := (h.table.holds slot).mp hslot
    refine ⟨pos, hpos, (view_eq_some hview).1, ?_⟩
    intro q hq hlt hempty
    exact h.table.probed pos slot hpos hview q hq hlt (view_eq_none.mpr hempty)
  · intro pos hpos hne
    exact h.table.entry hpos (if_neg hne)
  · obtain ⟨pos, hpos, hfree⟩ := h.exists_free
    exact ⟨pos, hpos, view_eq_none.mp hfree⟩

theorem Exact.get_of_distinct (h : Exact (K := K) empty slots rows len)
    (hdistinct : ∀ i j, i < len → j < len → rowKey rows i = rowKey rows j → i = j)
    (hslot : slot < len) {target : K} (hkey : rowKey rows slot = some target) :
    Probing.get empty slots target rows = some (some slot) := by
  obtain ⟨answer, hget, hanswer⟩ := h.lookup target
  cases answer with
  | none => exact absurd hkey (hanswer slot hslot)
  | some other =>
    have heq := hdistinct other slot hanswer.1 hslot (by rw [hanswer.2, hkey])
    rw [hget, heq]

end

section

variable {R K : Type} [IndexKey K] [IndexRow R K] {empty : Nat} {slots : List Nat}
  {rows rows' : List R} {len i : Nat}

/-- Rows as a removal at `i` leaves them: the last live row in the gap, the others
as before. -/
structure Closes (rows rows' : List R) (len i : Nat) : Prop where
  length_le : rows'.length ≤ rows.length
  long : len - 1 ≤ rows'.length
  moved : i < len - 1 → (rowKey rows' i : Option K) = rowKey rows (len - 1)
  kept : ∀ j, j < len - 1 → j ≠ i → (rowKey rows' j : Option K) = rowKey rows j

theorem Closes.indexes_rename (h : Closes rows rows' len i) (hi : i < len - 1)
    (hidx : Indexes empty slots rows (fun s => s < len ∧ s ≠ i)) {pos : Nat}
    (hpos : pos < slots.length) (hview : view empty slots pos = some (len - 1)) :
    Indexes empty (slots.set pos (stored empty i)) rows' (fun s => s < len - 1) := by
  have hlen := h.length_le
  have hlong := h.long
  have hroom := hidx.room
  have hlast := hidx.small (len - 1) (hidx.table.entry hpos hview)
  have hrenamed := hidx.rename rows' hpos hview (fun hself => hself.2 rfl) (by omega)
    (by omega) (by omega) (h.moved hi)
    (fun s hs hne => ⟨by omega, h.kept s (by omega) hs.2⟩)
  exact hrenamed.congr_set (fun s => by omega)

theorem Closes.indexes_last (h : Closes rows rows' len i) (hi : i = len - 1)
    (hidx : Indexes empty slots rows (fun s => s < len ∧ s ≠ i)) :
    Indexes empty slots rows' (fun s => s < len - 1) := by
  have hlen := h.length_le
  have hlong := h.long
  have hroom := hidx.room
  have hset : Indexes empty slots rows (fun s => s < len - 1) := hidx.congr_set (fun s => by omega)
  exact hset.congr_rows (by omega) (fun s hs => ⟨by omega, h.kept s hs (by omega)⟩)

variable {rows : List R}

omit [IndexKey K] in
theorem rowKey_set (row : R) (h : slot ≠ i) :
    (rowKey (rows.set i row) slot : Option K) = rowKey rows slot := by
  rw [rowKey, rowKey, List.getElem?_set_ne (Ne.symm h)]

omit [IndexKey K] in
theorem closes_swapRemove (h : i < rows.length) :
    Closes (K := K) rows (swapRemove rows i) rows.length i where
  length_le := by rw [length_swapRemove]; omega
  long := by rw [length_swapRemove]
  moved := fun hi => by
    rw [rowKey, rowKey, getElem?_swapRemove rows i i h hi, if_pos rfl]
  kept := fun j hj hne => by
    rw [rowKey, rowKey, getElem?_swapRemove rows i j h hj, if_neg hne]

omit [IndexKey K] in
theorem closes_moveLast {len i : Nat} (hlen : len ≤ rows.length) (h : i < len) :
    Closes (K := K) rows (FixedTable.moveLast rows len i) len i := by
  have hlast : rows[len - 1]? = some rows[len - 1] := List.getElem?_eq_getElem (by omega)
  have hmove : FixedTable.moveLast rows len i = rows.set i rows[len - 1] := by
    rw [FixedTable.moveLast, hlast]
  rw [hmove]
  refine
    { length_le := by rw [List.length_set]
      long := by rw [List.length_set]; omega
      moved := fun _ => ?_
      kept := fun j _ hne => rowKey_set _ hne }
  rw [rowKey, rowKey, List.getElem?_set_self (by omega), hlast]

end

namespace HeapLemireIndex

variable {R K : Type} [IndexKey K] [IndexRow R K] {entries buckets : Nat}

theorem not_exceeds_iff : exceedsTwoThirdsLoad entries buckets = false ↔
      entries ≤ buckets - (buckets + 2) / 3 := by
  simp [exceedsTwoThirdsLoad]

/-- Doubling ends below saturation, with room for the rows. -/
theorem growLoop_spec (entries buckets : Nat) (hentries : entries ≤ maxRows)
    (hmin : minBuckets ≤ buckets) :
    minBuckets ≤ growLoop entries buckets ∧
      exceedsTwoThirdsLoad entries (growLoop entries buckets) = false := by
  induction buckets using growLoop.induct entries with
  | case1 buckets hload hstop =>
    -- a saturated bucket count would hold more than the largest table
    have hbig : usizeMax ≤ buckets := by
      unfold minBuckets at hmin
      omega
    have hfits : exceedsTwoThirdsLoad entries buckets = false := by
      rw [not_exceeds_iff]
      unfold usizeMax at hbig
      unfold maxRows empty at hentries
      omega
    rw [hload] at hfits
    cases hfits
  | case2 buckets hload hgrow ih =>
    rw [growLoop, if_pos hload, if_neg hgrow]
    exact ih (by omega)
  | case3 buckets hload =>
    rw [growLoop, if_neg hload]
    exact ⟨hmin, by simpa using hload⟩

theorem room_of_not_exceeds (hmin : minBuckets ≤ buckets)
    (h : exceedsTwoThirdsLoad entries buckets = false) : entries < buckets := by
  rw [not_exceeds_iff] at h
  unfold minBuckets at hmin
  omega

theorem placeAll_spec (rows : List R) (hmax : rows.length ≤ maxRows) (count slot : Nat)
    (slots : List Nat) (hsum : slot + count = rows.length)
    (h : Indexes empty slots rows (fun s => s < slot)) :
    ∃ slots', placeAll rows count slot slots = some slots' ∧ slots'.length = slots.length ∧
      Indexes empty slots' rows (fun s => s < rows.length) := by
  induction count generalizing slot slots with
  | zero =>
    exact ⟨slots, rfl, rfl, h.congr_set (fun s => by omega)⟩
  | succ count ih =>
    have hmax' : maxRows = empty := rfl
    obtain ⟨placed, hplace, hlen, hplaced⟩ := place_spec h (Nat.lt_irrefl slot)
      (by omega) (by omega)
    obtain ⟨slots', hall, hlen', hdone⟩ := ih (slot + 1) placed (by omega)
      (hplaced.congr_set (fun s => by omega))
    exact ⟨slots', by rw [placeAll, hplace]; exact hall, hlen'.trans hlen, hdone⟩

theorem insert_spec (idx : HeapLemireIndex) (rows : List R) (hslot : slot < rows.length)
    (hmax : rows.length ≤ maxRows) (hmin : minBuckets ≤ idx.slots.length)
    (h : rows.length < idx.slots.length →
      Indexes empty idx.slots rows (fun s => s < rows.length ∧ s ≠ slot)) :
    ∃ idx', idx.insert slot rows = some idx' ∧ minBuckets ≤ idx'.slots.length ∧
      Indexes empty idx'.slots rows (fun s => s < rows.length) := by
  have hmax' : maxRows = empty := rfl
  unfold insert
  cases hload : exceedsTwoThirdsLoad rows.length idx.slots.length with
  | true =>
    obtain ⟨hgrown, hload⟩ := growLoop_spec rows.length (max idx.slots.length minBuckets)
      hmax (by omega)
    have hblank : Indexes empty (List.replicate
        (growLoop rows.length (max idx.slots.length minBuckets)) empty) rows
        (fun s => s < 0) := indexes_replicate (room_of_not_exceeds hgrown hload)
    obtain ⟨slots', hall, hlen, hdone⟩ := placeAll_spec rows hmax rows.length 0 _
      (Nat.zero_add _) hblank
    refine ⟨⟨slots'⟩, ?_, ?_, hdone⟩
    · rw [rebuild, hall]
      rfl
    · rw [hlen, List.length_replicate]
      exact hgrown
  | false =>
    have hidx := h (room_of_not_exceeds hmin hload)
    obtain ⟨slots', hplace, hlen, hplaced⟩ := place_spec hidx (fun hself => hself.2 rfl)
      hslot (by omega)
    refine ⟨⟨slots'⟩, by rw [hplace]; rfl, by rw [hlen]; exact hmin, ?_⟩
    exact hplaced.congr_set (fun s => by omega)

end HeapLemireIndex

/-! ## Runs of a growing table -/

namespace HeapTable

variable {R K : Type} [IndexKey K] [IndexRow R K] [DecidableEq K]

/-- What an operation needs of the table. A row named by its key must be the one
the key finds; the last row, when it is named by its key, must be the only one
with it besides the removed row. -/
def Allowed (t : HeapTable R) : TableOp R → Prop
  | .push _ => t.rows.length < HeapLemireIndex.maxRows
  | .swapRemove removal repointing i =>
      i < t.rows.length ∧
      (removal = .key → ∃ target : K, rowKey t.rows i = some target ∧
        t.index.get target t.rows = some (some i)) ∧
      (repointing = .key → ∀ j, j < t.rows.length → j ≠ i →
        (rowKey t.rows j : Option K) = rowKey t.rows (t.rows.length - 1) →
        j = t.rows.length - 1)
  | .replace removal i _ =>
      i < t.rows.length ∧
      (removal = .key → ∃ target : K, rowKey t.rows i = some target ∧
        t.index.get target t.rows = some (some i))
  | .clear => True

inductive Reachable : HeapTable R → Prop
  | new : Reachable HeapTable.new
  | step {t t' : HeapTable R} (op : TableOp R) (h : Reachable t) (hallowed : t.Allowed op)
      (happly : t.apply op = some t') : Reachable t'

structure Inv (t : HeapTable R) : Prop where
  min_le : HeapLemireIndex.minBuckets ≤ t.index.slots.length
  indexes : Indexes HeapLemireIndex.empty t.index.slots t.rows
    (fun s => s < t.rows.length)

variable {t : HeapTable R}

omit [DecidableEq K] in
theorem Inv.length_le (h : Inv t) : t.rows.length ≤ HeapLemireIndex.maxRows := by
  by_contra hlong
  have hself := (h.indexes.small HeapLemireIndex.empty (Nat.lt_of_not_le hlong)).2
  exact Nat.lt_irrefl _ hself

theorem unindex_spec (h : Inv t) (hi : i < t.rows.length)
    (hkey : removal = .key → ∃ target : K, rowKey t.rows i = some target ∧
      t.index.get target t.rows = some (some i)) :
    ∃ index, t.unindex removal i = some index ∧ index.slots.length = t.index.slots.length ∧
      Indexes HeapLemireIndex.empty index.slots t.rows (fun s => s < t.rows.length ∧ s ≠ i) := by
  cases removal with
  | slot =>
    obtain ⟨slots', hremove, hlen, hidx⟩ := removeSlot_spec h.indexes hi
    refine ⟨⟨slots'⟩, ?_, hlen, hidx⟩
    simp only [unindex, HeapLemireIndex.removeSlot, hremove, Option.map_some]
  | key =>
    obtain ⟨target, htarget, hget⟩ := hkey rfl
    obtain ⟨slots', hremove, hlen, hidx⟩ := remove_spec h.indexes hget
    refine ⟨⟨slots'⟩, ?_, hlen, hidx⟩
    simp only [unindex, htarget, HeapLemireIndex.remove, hremove, Option.map_some]

theorem repointLast_spec {index : HeapLemireIndex} {repointing : By} (hi : i < t.rows.length)
    (hidx : Indexes HeapLemireIndex.empty index.slots t.rows (fun s => s < t.rows.length ∧ s ≠ i))
    (honly : repointing = .key → ∀ j, j < t.rows.length → j ≠ i →
      (rowKey t.rows j : Option K) = rowKey t.rows (t.rows.length - 1) →
      j = t.rows.length - 1) :
    ∃ index', t.repointLast index repointing i = some index' ∧
      index'.slots.length = index.slots.length ∧
      Indexes HeapLemireIndex.empty index'.slots (swapRemove t.rows i)
        (fun s => s < t.rows.length - 1) := by
  have hcloses : Closes (K := K) t.rows (swapRemove t.rows i) t.rows.length i :=
    closes_swapRemove hi
  unfold repointLast
  by_cases hlast : i = t.rows.length - 1
  · rw [if_pos hlast]
    exact ⟨index, rfl, rfl, hcloses.indexes_last hlast hidx⟩
  rw [if_neg hlast]
  have hinner : i < t.rows.length - 1 := by omega
  have hheld : t.rows.length - 1 < t.rows.length ∧ t.rows.length - 1 ≠ i := by omega
  cases repointing with
  | slot =>
    obtain ⟨pos, hfound, hpos, hview⟩ := positionOfSlot_spec hidx hheld
    refine ⟨⟨_⟩, by simp only [HeapLemireIndex.repointSlot, repointSlot, hfound,
      Option.map_some], by simp, hcloses.indexes_rename hinner hidx hpos hview⟩
  | key =>
    obtain ⟨moved, hmoved⟩ := rowKey_of_lt (K := K) hheld.1
    obtain ⟨pos, hpos, hview, hrepoint⟩ := repoint_eq hidx hheld hmoved
      (fun s hs hkey => honly rfl s hs.1 hs.2 (by rw [hkey, hmoved])) i
    refine ⟨⟨_⟩, by
      simp only [hmoved, HeapLemireIndex.repoint, hrepoint, Option.map_some],
      by simp, hcloses.indexes_rename hinner hidx hpos hview⟩

theorem apply_inv (h : Inv t) (op : TableOp R) (hallowed : t.Allowed op) :
    ∃ t', t.apply op = some t' ∧ Inv t' := by
  cases op with
  | push row =>
    have hlt : t.rows.length < HeapLemireIndex.maxRows := hallowed
    have hlen : (t.rows ++ [row]).length = t.rows.length + 1 := by simp
    have hold : (t.rows ++ [row]).length < t.index.slots.length →
        Indexes HeapLemireIndex.empty t.index.slots (t.rows ++ [row])
          (fun s => s < (t.rows ++ [row]).length ∧ s ≠ t.rows.length) := by
      intro hroom
      refine (h.indexes.congr_set (fun s => ?_)).congr_rows hroom ?_
      · omega
      · intro s hs
        exact ⟨by omega, by rw [rowKey, rowKey, List.getElem?_append_left (by omega)]⟩
    obtain ⟨index, hinsert, hmin, hidx⟩ :=
      t.index.insert_spec (t.rows ++ [row]) (by omega) (by omega) h.min_le hold
    refine ⟨⟨t.rows ++ [row], index⟩, ?_, hmin, hidx⟩
    simp [apply, hinsert]
  | swapRemove removal repointing i =>
    obtain ⟨hi, hkey, honly⟩ := hallowed
    obtain ⟨index, hunindex, hlen, hidx⟩ := unindex_spec h hi hkey
    obtain ⟨index', hrepoint, hlen', hidx'⟩ := repointLast_spec hi hidx honly
    refine ⟨⟨VecOps.swapRemove t.rows i, index'⟩, ?_, ?_, ?_⟩
    · simp [apply, hunindex, hrepoint]
    · rw [hlen', hlen]
      exact h.min_le
    · exact hidx'.congr_set (fun s => by rw [length_swapRemove])
  | replace removal i row =>
    obtain ⟨hi, hkey⟩ := hallowed
    obtain ⟨index, hunindex, hlen, hidx⟩ := unindex_spec h hi hkey
    have hold : (t.rows.set i row).length < index.slots.length →
        Indexes HeapLemireIndex.empty index.slots (t.rows.set i row)
          (fun s => s < (t.rows.set i row).length ∧ s ≠ i) := by
      intro hroom
      refine (hidx.congr_set (fun s => by rw [List.length_set])).congr_rows hroom ?_
      intro s hs
      exact ⟨hs.1, rowKey_set row hs.2⟩
    obtain ⟨index', hinsert, hmin, hidx'⟩ :=
      index.insert_spec (t.rows.set i row) (by simpa using hi)
        (by simpa using h.length_le) (by rw [hlen]; exact h.min_le) hold
    refine ⟨⟨t.rows.set i row, index'⟩, ?_, hmin, hidx'⟩
    simp [apply, hunindex, hinsert]
  | clear =>
    refine ⟨⟨[], t.index.clear⟩, rfl, ?_, ?_⟩
    · show _ ≤ (List.replicate t.index.slots.length HeapLemireIndex.empty).length
      rw [List.length_replicate]
      exact h.min_le
    · have hroom : ([] : List R).length < t.index.slots.length := by
        have := h.indexes.pos
        simpa using this
      exact indexes_replicate hroom

theorem Reachable.inv (h : Reachable t) : Inv t := by
  induction h with
  | new =>
    refine ⟨Nat.le_of_eq List.length_replicate.symm, ?_⟩
    exact indexes_replicate (Nat.succ_pos 7)
  | step op _ hallowed happly ih =>
    obtain ⟨t', hsome, hinv⟩ := apply_inv ih op hallowed
    cases happly.symm.trans hsome
    exact hinv

end HeapTable

/-! ## Runs of a table in a fixed array -/

namespace FixedTable

variable {R K : Type} [IndexKey K] [IndexRow R K] [DecidableEq K]

/-- What an operation needs of the table. The last row is always named by its
key. -/
def Allowed (t : FixedTable R) : TableOp R → Prop
  | .push _ => t.len < t.rows.length
  | .swapRemove removal _ i =>
      i < t.len ∧
      (removal = .key → ∃ target : K, rowKey t.rows i = some target ∧
        t.index.get target t.rows = some (some i)) ∧
      ∀ j, j < t.len → j ≠ i →
        (rowKey t.rows j : Option K) = rowKey t.rows (t.len - 1) → j = t.len - 1
  | .replace removal i _ =>
      i < t.len ∧
      (removal = .key → ∃ target : K, rowKey t.rows i = some target ∧
        t.index.get target t.rows = some (some i))
  | .clear => True

/-- A table starts with no live row, fewer rows than buckets, and every row number
below the sentinel. -/
inductive Reachable : FixedTable R → Prop
  | new (rows : List R) (buckets : Nat) (hbuckets : rows.length < buckets)
      (hrows : rows.length ≤ LemireIndex.empty) :
      Reachable ⟨rows, 0, LemireIndex.new buckets⟩
  | step {t t' : FixedTable R} (op : TableOp R) (h : Reachable t) (hallowed : t.Allowed op)
      (happly : t.apply op = some t') : Reachable t'

structure Inv (t : FixedTable R) : Prop where
  len_le : t.len ≤ t.rows.length
  small : t.rows.length ≤ LemireIndex.empty
  indexes : Indexes LemireIndex.empty t.index.slots t.rows (fun s => s < t.len)

variable {t : FixedTable R}

theorem unindex_spec (h : Inv t) (hi : i < t.len)
    (hkey : removal = .key → ∃ target : K, rowKey t.rows i = some target ∧
      t.index.get target t.rows = some (some i)) :
    ∃ index, t.unindex removal i = some index ∧
      Indexes LemireIndex.empty index.slots t.rows (fun s => s < t.len ∧ s ≠ i) := by
  cases removal with
  | slot =>
    obtain ⟨slots', hremove, -, hidx⟩ := removeSlot_spec h.indexes hi
    refine ⟨⟨slots'⟩, ?_, hidx⟩
    simp only [unindex, LemireIndex.removeSlot, hremove, Option.map_some]
  | key =>
    obtain ⟨target, htarget, hget⟩ := hkey rfl
    obtain ⟨slots', hremove, -, hidx⟩ := remove_spec h.indexes hget
    refine ⟨⟨slots'⟩, ?_, hidx⟩
    simp only [unindex, htarget, LemireIndex.remove, hremove, Option.map_some]

variable {index : LemireIndex}

theorem repointLast_spec (hlen : t.len ≤ t.rows.length) (hi : i < t.len)
    (hidx : Indexes LemireIndex.empty index.slots t.rows (fun s => s < t.len ∧ s ≠ i))
    (honly : ∀ j, j < t.len → j ≠ i →
      (rowKey t.rows j : Option K) = rowKey t.rows (t.len - 1) → j = t.len - 1) :
    ∃ index', t.repointLast index i = some index' ∧
      Indexes LemireIndex.empty index'.slots (moveLast t.rows t.len i)
        (fun s => s < t.len - 1) := by
  have hcloses : Closes (K := K) t.rows (moveLast t.rows t.len i) t.len i := closes_moveLast hlen hi
  unfold repointLast
  by_cases hlast : i = t.len - 1
  · rw [if_pos hlast]
    exact ⟨index, rfl, hcloses.indexes_last hlast hidx⟩
  rw [if_neg hlast]
  have hheld : t.len - 1 < t.len ∧ t.len - 1 ≠ i := by omega
  obtain ⟨moved, hmoved⟩ := rowKey_of_lt (K := K) (Nat.lt_of_lt_of_le hheld.1 hlen)
  obtain ⟨pos, hpos, hview, hrepoint⟩ := repoint_eq hidx hheld hmoved
    (fun s hs hkey => honly s hs.1 hs.2 (by rw [hkey, hmoved])) i
  refine ⟨⟨_⟩, ?_, hcloses.indexes_rename (by omega) hidx hpos hview⟩
  simp only [hmoved, LemireIndex.repoint, hrepoint, Option.map_some]

omit [DecidableEq K] in
theorem insert_set_spec (row : R) (hi : i < t.rows.length)
    (hsmall : t.rows.length ≤ LemireIndex.empty)
    (hidx : Indexes LemireIndex.empty index.slots t.rows S) (hout : ¬ S i) :
    ∃ index', index.insert i (t.rows.set i row) = some index' ∧
      Indexes LemireIndex.empty index'.slots (t.rows.set i row) (fun s => s = i ∨ S s) := by
  have hset : Indexes LemireIndex.empty index.slots (t.rows.set i row) S := by
    refine hidx.congr_rows (by rw [List.length_set]; exact hidx.room) ?_
    intro s hs
    have hne : s ≠ i := fun heq => hout (heq ▸ hs)
    exact ⟨by rw [List.length_set]; exact (hidx.small s hs).1, rowKey_set row hne⟩
  obtain ⟨slots', hplace, -, hplaced⟩ := place_spec hset hout
    (by rw [List.length_set]; exact hi) (by omega)
  exact ⟨⟨slots'⟩, by rw [LemireIndex.insert, hplace]; rfl, hplaced⟩

theorem apply_inv (h : Inv t) (op : TableOp R)
    (hallowed : t.Allowed op) : ∃ t', t.apply op = some t' ∧ Inv t' := by
  have hlen := h.len_le
  have hsmall := h.small
  cases op with
  | push row =>
    have hlt : t.len < t.rows.length := hallowed
    obtain ⟨index, hinsert, hidx⟩ := insert_set_spec row hlt hsmall h.indexes (Nat.lt_irrefl _)
    refine ⟨⟨t.rows.set t.len row, t.len + 1, index⟩, ?_, ?_, ?_, ?_⟩
    · simp [apply, hinsert]
    · rw [List.length_set]
      exact hlt
    · rw [List.length_set]
      exact hsmall
    · exact hidx.congr_set (fun s => by simp only; omega)
  | swapRemove removal repointing i =>
    obtain ⟨hi, hkey, honly⟩ := hallowed
    obtain ⟨index, hunindex, hidx⟩ := unindex_spec h hi hkey
    obtain ⟨index', hrepoint, hidx'⟩ := repointLast_spec hlen hi hidx honly
    have hcloses : Closes (K := K) t.rows (moveLast t.rows t.len i) t.len i :=
      closes_moveLast hlen hi
    refine ⟨⟨moveLast t.rows t.len i, t.len - 1, index'⟩, ?_, hcloses.long, ?_, hidx'⟩
    · simp [apply, hunindex, hrepoint]
    · exact Nat.le_trans hcloses.length_le hsmall
  | replace removal i row =>
    obtain ⟨hi, hkey⟩ := hallowed
    obtain ⟨index, hunindex, hidx⟩ := unindex_spec h hi hkey
    obtain ⟨index', hinsert, hidx'⟩ := insert_set_spec row (by omega) hsmall hidx
      (fun hself => hself.2 rfl)
    refine ⟨⟨t.rows.set i row, t.len, index'⟩, ?_, ?_, ?_, ?_⟩
    · simp [apply, hunindex, hinsert]
    · rw [List.length_set]
      exact hlen
    · rw [List.length_set]
      exact hsmall
    · exact hidx'.congr_set (fun s => by simp only; omega)
  | clear =>
    refine ⟨⟨t.rows, 0, t.index.clear⟩, rfl, Nat.zero_le _, hsmall, ?_⟩
    exact indexes_replicate h.indexes.room

theorem Reachable.inv (h : Reachable t) : Inv t := by
  induction h with
  | new rows buckets hbuckets hrows =>
    refine ⟨Nat.zero_le _, hrows, ?_⟩
    exact indexes_replicate hbuckets
  | step op _ hallowed happly ih =>
    obtain ⟨t', hsome, hinv⟩ := apply_inv ih op hallowed
    cases happly.symm.trans hsome
    exact hinv

end FixedTable

/-- Whatever a table of either kind went through, its index is the exact map of its
live rows, and the next operation ends. -/
theorem lemireIndex_exact {R K : Type} [IndexKey K] [IndexRow R K] [DecidableEq K] :
    (∀ t : HeapTable R, t.Reachable →
      Exact HeapLemireIndex.empty t.index.slots t.rows t.rows.length ∧
      ((∀ i j, i < t.rows.length → j < t.rows.length →
          (rowKey t.rows i : Option K) = rowKey t.rows j → i = j) →
        ∀ slot (target : K), slot < t.rows.length → rowKey t.rows slot = some target →
          t.index.get target t.rows = some (some slot)) ∧
      ∀ op, t.Allowed op → ∃ t', t.apply op = some t') ∧
    (∀ t : FixedTable R, t.Reachable → Exact LemireIndex.empty t.index.slots t.rows t.len ∧
      ((∀ i j, i < t.len → j < t.len → (rowKey t.rows i : Option K) = rowKey t.rows j → i = j) →
        ∀ slot (target : K), slot < t.len → rowKey t.rows slot = some target →
          t.index.get target t.rows = some (some slot)) ∧
      ∀ op, t.Allowed op → ∃ t', t.apply op = some t') := by
  constructor
  · intro t ht
    have hexact := exact_of_indexes ht.inv.indexes
    refine ⟨hexact, ?_, ?_⟩
    · intro hdistinct slot target hslot hkey
      exact hexact.get_of_distinct hdistinct hslot hkey
    · intro op hallowed
      obtain ⟨t', happly, -⟩ := HeapTable.apply_inv ht.inv op hallowed
      exact ⟨t', happly⟩
  · intro t ht
    have hexact := exact_of_indexes ht.inv.indexes
    refine ⟨hexact, ?_, ?_⟩
    · intro hdistinct slot target hslot hkey
      exact hexact.get_of_distinct hdistinct hslot hkey
    · intro op hallowed
      obtain ⟨t', happly, -⟩ := FixedTable.apply_inv ht.inv op hallowed
      exact ⟨t', happly⟩

/-- Two interfaces with one home; the first leaves and the second moves. -/
theorem lemireIndex_exact_moved :
    Exact HeapLemireIndex.empty ([0] ++ List.replicate 7 HeapLemireIndex.empty)
      [(⟨#v[2, 0, 0, 0, 0, 0, 0, 0]⟩ : InterfaceId)] 1 := by
  let first : InterfaceId := ⟨#v[1, 0, 0, 0, 0, 0, 0, 0]⟩
  let second : InterfaceId := ⟨#v[2, 0, 0, 0, 0, 0, 0, 0]⟩
  have hone : HeapTable.Reachable (R := InterfaceId)
      ⟨[first], ⟨[0] ++ List.replicate 7 HeapLemireIndex.empty⟩⟩ :=
    .step (.push first) .new (Nat.succ_pos _) (by decide)
  have htwo : HeapTable.Reachable (R := InterfaceId)
      ⟨[first, second], ⟨[0, 1] ++ List.replicate 6 HeapLemireIndex.empty⟩⟩ :=
    .step (.push second) hone (show 1 < 2 ^ 32 - 1 by decide) (by decide)
  have hthree : HeapTable.Reachable (R := InterfaceId)
      ⟨[second], ⟨[0] ++ List.replicate 7 HeapLemireIndex.empty⟩⟩ :=
    .step (.swapRemove .slot .slot 0) htwo ⟨Nat.succ_pos 1, nofun, nofun⟩ (by decide)
  exact (lemireIndex_exact.1 _ hthree).1

end Prns.Ports.Lemire
