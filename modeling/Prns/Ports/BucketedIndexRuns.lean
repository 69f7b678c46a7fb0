import Prns.Ports.BucketedIndex
import Mathlib.Data.Nat.Bitwise
import Mathlib.Data.List.TakeWhile

/-!
# The bucketed index along runs

The invariant of a ready index has two parts. The row list holds the bucket of
every deadline, and the treemap holds one key for each row with a bucket
(`Files`). The second part speaks about any function from rows to buckets, so a
push, an update and a swap removal are a few changes of that function at one row
each.
-/

namespace Prns.Ports.TemporalIndex

open Verified
open Verified.VecOps
open TemporalBucket
open TemporalKey
open TemporalRow

variable {bucket row : Nat}

theorem TemporalKey.new_eq (hrow : row < 2 ^ 32) :
    new bucket row = bucket * 2 ^ 32 + row := by
  rw [new, ← Nat.shiftLeft_add_eq_or_of_lt hrow, Nat.shiftLeft_eq]

theorem TemporalKey.div_new (hrow : row < 2 ^ 32) :
    new bucket row / 2 ^ 32 = bucket := by
  rw [new_eq hrow]
  omega

theorem TemporalKey.mod_new (hrow : row < 2 ^ 32) : new bucket row % 2 ^ 32 = row := by
  rw [new_eq hrow]
  omega

variable {quantumMs : Nat}

theorem TemporalBucket.containing_eq_some {deadline : InstantMillis} :
    containing quantumMs deadline = some bucket ↔
      deadline / quantumMs = bucket ∧ bucket ≤ u32Max := by
  unfold containing
  grind

variable {keys : RoaringTreemap} {key : Nat}

namespace RoaringTreemap

theorem mem_iter : key ∈ keys.iter ↔ key ∈ keys := Finset.mem_sort _

theorem mem_takeWhile_of_pairwise {keys : List Nat} (hsorted : keys.Pairwise (· ≤ ·))
    {bound : Nat} (hmem : key ∈ keys) (hle : key ≤ bound) :
    key ∈ keys.takeWhile (fun k => decide (k ≤ bound)) := by
  induction keys with
  | nil => cases hmem
  | cons first rest ih => grind [List.pairwise_cons, List.takeWhile_cons]

theorem mem_iter_takeWhile {bound : Nat} : key ∈ keys.iter.takeWhile (fun k => decide (k ≤ bound)) ↔
      key ∈ keys ∧ key ≤ bound := by
  constructor
  · intro h
    exact ⟨mem_iter.mp (List.takeWhile_subset _ h), by simpa using List.mem_takeWhile_imp h⟩
  · intro h
    exact mem_takeWhile_of_pairwise (Finset.pairwise_sort _ _) (mem_iter.mpr h.1) h.2

theorem firstBitmap_eq_none (h : keys.firstBitmap = none) (key : Nat) : key ∉ keys := by
  intro hmem
  have hiter := mem_iter.mpr hmem
  unfold firstBitmap at h
  grind

theorem firstBitmap_eq_some {high : Nat} {lows : List Nat}
    (h : keys.firstBitmap = some (high, lows)) :
    (∃ least, least ∈ keys ∧ least / 2 ^ 32 = high ∧ ∀ key ∈ keys, least ≤ key) ∧
      ∀ low, low ∈ lows ↔ ∃ key ∈ keys, key / 2 ^ 32 = high ∧ key % 2 ^ 32 = low := by
  have hsorted : keys.iter.Pairwise (· ≤ ·) := Finset.pairwise_sort _ _
  have hiter : ∀ key, key ∈ keys ↔ key ∈ keys.iter := fun _ => mem_iter.symm
  simp only [hiter]
  unfold firstBitmap at h
  split at h
  · cases h
  rename_i least rest hcons
  cases h
  rw [hcons] at hsorted ⊢
  refine ⟨⟨least, List.mem_cons_self, rfl, by grind [List.pairwise_cons]⟩, fun low => ?_⟩
  simp only [List.mem_map, List.mem_filter, beq_iff_eq, and_assoc]

end RoaringTreemap

namespace HeapTemporalIndex

/-- The treemap holds exactly one key for each row that has a bucket. -/
structure Files (keys : RoaringTreemap) (bucketOf : Nat → Option Nat) : Prop where
  small : ∀ row bucket, bucketOf row = some bucket → row < 2 ^ 32 ∧ bucket ≤ u32Max
  mem : ∀ key, key ∈ keys ↔
    ∃ row bucket, bucketOf row = some bucket ∧ TemporalKey.new bucket row = key

theorem Files.empty : Files ∅ (fun _ => none) where
  small := fun _ _ h => by cases h
  mem := fun key => by simp

variable {bucketOf : Nat → Option Nat}

theorem Files.congr {bucketOf' : Nat → Option Nat} (h : Files keys bucketOf)
    (heq : ∀ row, bucketOf' row = bucketOf row) : Files keys bucketOf' := by
  have hfun : bucketOf' = bucketOf := funext heq
  exact hfun ▸ h

theorem Files.unfile (h : Files keys bucketOf) (row : Nat) :
    Files (unfile keys (bucketOf row) row) (Function.update bucketOf row none) := by
  have hsmall := h.small
  have hmem := h.mem
  cases hbucket : bucketOf row with
  | none =>
    have hsame : Function.update bucketOf row none = bucketOf := by
      rw [← hbucket, Function.update_eq_self]
    rw [hsame]
    exact h
  | some bucket =>
    have hinj : ∀ r b, bucketOf r = some b →
        TemporalKey.new b r = TemporalKey.new bucket row → b = bucket ∧ r = row := by
      intro r b hr heq
      rw [TemporalKey.new_eq (hsmall r b hr).1, TemporalKey.new_eq (hsmall row bucket hbucket).1]
        at heq
      have := (hsmall r b hr).1
      have := (hsmall row bucket hbucket).1
      omega
    constructor
    · grind [Function.update_apply]
    · intro key
      simp only [HeapTemporalIndex.unfile, Finset.mem_erase, hmem]
      grind [Function.update_apply]

theorem Files.refile (h : Files keys bucketOf) (row : Nat) (next : Option Nat)
    (hfree : bucketOf row = none)
    (hsmall : ∀ bucket, next = some bucket → row < 2 ^ 32 ∧ bucket ≤ u32Max) :
    Files (refile keys next row) (Function.update bucketOf row next) := by
  cases next with
  | none =>
    have hsame : Function.update bucketOf row none = bucketOf := by
      rw [← hfree, Function.update_eq_self]
    rw [hsame]
    exact h
  | some bucket =>
    obtain ⟨hsmall', hmem⟩ := h
    constructor
    · grind [Function.update_apply]
    · intro key
      simp only [HeapTemporalIndex.refile, Finset.mem_insert, hmem]
      grind [Function.update_apply]

/-! ## The invariant of a ready index -/

section

variable {rows : Rows} {idx : HeapTemporalIndex}

structure Filed (quantumMs : Nat) (rows : Rows) (idx : HeapTemporalIndex) : Prop where
  length : idx.rowBuckets.length = rows.length
  small : rows.length ≤ 2 ^ 32
  buckets : ∀ row, idx.bucketOf row =
    (deadlineOf rows row).bind (TemporalBucket.containing quantumMs)
  fits : ∀ row instant, deadlineOf rows row = some instant →
    ∃ bucket, TemporalBucket.containing quantumMs instant = some bucket
  files : Files idx.keys idx.bucketOf

/-- The invariant along runs. An index that is not ready promises nothing. -/
def Inv (quantumMs : Nat) (rows : Rows) (idx : HeapTemporalIndex) : Prop :=
  idx.readiness = .ready → Filed quantumMs rows idx

theorem inv_invalidate (quantumMs : Nat) (rows : Rows) (idx : HeapTemporalIndex) :
    Inv quantumMs rows idx.invalidate :=
  fun hready => by cases hready

theorem inv_useLinearFallback (quantumMs : Nat) (rows : Rows)
    (idx : HeapTemporalIndex) : Inv quantumMs rows idx.useLinearFallback :=
  fun hready => by cases hready

variable {deadline : Option InstantMillis}

theorem nextBucket_eq_some {next : Option Nat} (h : nextBucket quantumMs deadline = some next) :
    next = deadline.bind (containing quantumMs) ∧
      (∀ instant, deadline = some instant → ∃ bucket, containing quantumMs instant = some bucket) ∧
      ∀ bucket, next = some bucket → bucket ≤ u32Max := by
  cases deadline with
  | none =>
    cases h
    exact ⟨rfl, nofun, nofun⟩
  | some instant =>
    obtain ⟨bucket, hbucket, rfl⟩ := Option.map_eq_some_iff.mp h
    have hsmall := (containing_eq_some.mp hbucket).2
    simp [hbucket, hsmall]

theorem fromUsize_eq_some {rowId : Nat} (h : fromUsize row = some rowId) :
    rowId = row ∧ row < 2 ^ 32 := by
  unfold fromUsize u32Max at h
  grind

theorem file_eq (row : Nat) (deadline : Option InstantMillis) : idx.file quantumMs row deadline =
      (fromUsize row).bind (fun rowId =>
        (nextBucket quantumMs deadline).map (fun next =>
          { idx with
            keys := refile idx.keys next rowId
            rowBuckets := idx.rowBuckets ++ [next] })) := by
  unfold file nextBucket refile
  cases fromUsize row with
  | none => rfl
  | some rowId => grind

theorem Filed.file (h : Filed quantumMs rows idx) {filed : HeapTemporalIndex}
    (hfile : idx.file quantumMs rows.length deadline = some filed) :
    Filed quantumMs (rows ++ [deadline]) filed := by
  rw [file_eq] at hfile
  obtain ⟨rowId, hrow, hfile⟩ := Option.bind_eq_some_iff.mp hfile
  obtain ⟨next, hnext, rfl⟩ := Option.map_eq_some_iff.mp hfile
  obtain ⟨rfl, hlt⟩ := fromUsize_eq_some hrow
  obtain ⟨hbind, hfits, hsmall⟩ := nextBucket_eq_some hnext
  have hbucketOf : ∀ row, (idx.rowBuckets ++ [next]).getD row none =
      Function.update idx.bucketOf rows.length next row := by
    intro row
    rw [getD_append_singleton, h.length, Function.update_apply]
    rfl
  have hfree : idx.bucketOf rows.length = none := by
    rw [bucketOf, List.getD_eq_default _ _ (by rw [h.length])]
  refine
    { length := by simp [h.length]
      small := by rw [List.length_append, List.length_singleton]; omega
      buckets := ?_
      fits := ?_
      files := (h.files.refile rows.length next hfree
        (fun bucket hb => ⟨hlt, hsmall bucket hb⟩)).congr hbucketOf }
  · intro row
    rw [bucketOf, hbucketOf, deadlineOf_push, Function.update_apply]
    split
    · exact hbind
    · exact h.buckets row
  · intro row instant hdeadline
    rw [deadlineOf_push] at hdeadline
    split at hdeadline
    · exact hfits instant hdeadline
    · exact h.fits row instant hdeadline

theorem rebuildLoop_inv (rows : Rows) (start count : Nat) (idx : HeapTemporalIndex)
    (hsum : start + count = rows.length) (h : Filed quantumMs (rows.take start) idx) :
    Inv quantumMs rows (rebuildLoop quantumMs (deadlineOf rows) (List.range' start count) idx) := by
  induction count generalizing start idx with
  | zero =>
    have hall : rows.take start = rows := by
      rw [List.take_of_length_le (by omega)]
    rw [hall] at h
    exact fun _ => ⟨h.length, h.small, h.buckets, h.fits, h.files⟩
  | succ count ih =>
    rw [List.range'_succ, rebuildLoop]
    cases hfile : idx.file quantumMs start (deadlineOf rows start) with
    | none => exact inv_useLinearFallback _ _ _
    | some filed =>
      have hlt : start < rows.length := by omega
      have hlen : (rows.take start).length = start := by
        rw [List.length_take]
        omega
      have hnext : rows.take (start + 1) = rows.take start ++ [deadlineOf rows start] := by
        rw [List.take_succ_eq_append_getElem hlt, deadlineOf, List.getD_eq_getElem _ _ hlt]
      refine ih (start + 1) filed (by omega) ?_
      rw [hnext]
      exact h.file (by rw [hlen]; exact hfile)

theorem filed_nil (readiness : IndexReadiness) : Filed quantumMs [] ⟨readiness, ∅, []⟩ where
  length := rfl
  small := by simp
  buckets := fun row => rfl
  fits := fun row instant h => by cases h
  files := Files.empty

theorem rebuild_inv (rows : Rows) (idx : HeapTemporalIndex) :
    Inv quantumMs rows (idx.rebuild quantumMs rows.length (deadlineOf rows)) := by
  rw [rebuild, List.range_eq_range']
  exact rebuildLoop_inv rows 0 rows.length _ (Nat.zero_add _) (filed_nil _)

/-! ## Every step keeps the invariant -/

theorem insert_inv (h : Inv quantumMs rows idx) (deadline : Option InstantMillis) :
    Inv quantumMs (rows ++ [deadline]) (idx.insert quantumMs rows.length deadline) := by
  unfold insert
  split
  · exact inv_invalidate _ _ _
  rename_i hguard
  have hready := not_not.mp (not_or.mp hguard).1
  cases hfile : idx.file quantumMs rows.length deadline with
  | none => exact inv_useLinearFallback _ _ _
  | some filed => exact fun _ => (h hready).file hfile

theorem update_inv (h : Inv quantumMs rows idx)
    (deadline : Option InstantMillis) (hrow : row < rows.length) :
    Inv quantumMs (rows.set row deadline) (idx.update quantumMs row deadline) := by
  unfold update
  split
  · exact inv_invalidate _ _ _
  rename_i hguard
  have hidx := h (not_not.mp (not_or.mp hguard).1)
  cases hid : fromUsize row with
  | none => exact inv_useLinearFallback _ _ _
  | some rowId =>
  cases hnext : nextBucket quantumMs deadline with
  | none => exact inv_useLinearFallback _ _ _
  | some next =>
  obtain ⟨rfl, hlt⟩ := fromUsize_eq_some hid
  obtain ⟨hbind, hfits, hsmall⟩ := nextBucket_eq_some hnext
  have hbuckets : ∀ r, Function.update idx.bucketOf rowId next r =
      (deadlineOf (rows.set rowId deadline) r).bind (containing quantumMs) := by
    intro r
    rw [Function.update_apply, deadlineOf_set rows rowId r deadline hrow]
    split
    · exact hbind
    · exact hidx.buckets r
  have hfits' : ∀ r instant, deadlineOf (rows.set rowId deadline) r = some instant →
      ∃ bucket, containing quantumMs instant = some bucket := by
    intro r instant hr
    rw [deadlineOf_set rows rowId r deadline hrow] at hr
    split at hr
    · exact hfits instant hr
    · exact hidx.fits r instant hr
  simp only
  split
  · -- the deadline moved inside its bucket
    rename_i hsame
    rw [← hsame, Function.update_eq_self] at hbuckets
    exact fun _ => ⟨by rw [hidx.length, List.length_set],
      by rw [List.length_set]; exact hidx.small, hbuckets, hfits', hidx.files⟩
  · intro _
    have hbucketOf : ∀ r, (idx.rowBuckets.set rowId next).getD r none =
        Function.update idx.bucketOf rowId next r := by
      intro r
      rw [getD_set _ _ _ _ _ (by rw [hidx.length]; exact hrow), Function.update_apply]
      rfl
    have hfiles := (hidx.files.unfile rowId).refile rowId next
      (Function.update_self ..) (fun bucket hb => ⟨hlt, hsmall bucket hb⟩)
    rw [Function.update_idem] at hfiles
    exact
      { length := by rw [List.length_set, List.length_set, hidx.length]
        small := by rw [List.length_set]; exact hidx.small
        buckets := fun r => (hbucketOf r).trans (hbuckets r)
        fits := hfits'
        files := hfiles.congr hbucketOf }

theorem Filed.bucketOf_of_length_le (h : Filed quantumMs rows idx)
    (hrow : rows.length ≤ row) : idx.bucketOf row = none := by
  rw [bucketOf, List.getD_eq_default _ _ (by rw [h.length]; exact hrow)]

variable {removed : Nat}

theorem Filed.bucketOf_swapRemove (h : Filed quantumMs rows idx)
    (hrow : removed < rows.length) (row : Nat) :
    (deadlineOf (VecOps.swapRemove rows removed) row).bind (containing quantumMs) =
      if row < rows.length - 1 then
        if row = removed then idx.bucketOf (rows.length - 1) else idx.bucketOf row
      else none := by
  split
  · rename_i hlt
    rw [deadlineOf_swapRemove rows removed row hrow hlt]
    split
    · exact (h.buckets _).symm
    · exact (h.buckets _).symm
  · rw [deadlineOf, List.getD_eq_default _ _ (by rw [length_swapRemove]; omega)]
    rfl

theorem Filed.of_swapRemove (h : Filed quantumMs rows idx) (hrow : removed < rows.length)
    {rowBuckets : List (Option Nat)} {readiness : IndexReadiness}
    (hlen : rowBuckets.length = rows.length - 1)
    (hbuckets : ∀ row, row < rows.length - 1 → rowBuckets.getD row none =
      if row = removed then idx.bucketOf (rows.length - 1) else idx.bucketOf row)
    (hfiles : Files keys bucketOf)
    (hsame : ∀ row, bucketOf row = if row < rows.length - 1 then
      if row = removed then idx.bucketOf (rows.length - 1) else idx.bucketOf row
      else none) :
    Filed quantumMs (VecOps.swapRemove rows removed) ⟨readiness, keys, rowBuckets⟩ := by
  have hsmall := h.small
  have hview : ∀ row, rowBuckets.getD row none = bucketOf row := by
    intro row
    rw [hsame]
    split
    · rename_i hlt
      exact hbuckets row hlt
    · exact List.getD_eq_default _ _ (by omega)
  refine
    { length := by rw [length_swapRemove]; exact hlen
      small := by rw [length_swapRemove]; omega
      buckets := ?_
      fits := ?_
      files := hfiles.congr hview }
  · intro row
    rw [h.bucketOf_swapRemove hrow row, ← hsame]
    exact hview row
  intro row instant hdeadline
  have hlt := lt_length_of_deadlineOf hdeadline
  rw [length_swapRemove] at hlt
  rw [deadlineOf_swapRemove rows removed row hrow hlt] at hdeadline
  split at hdeadline
  · exact h.fits _ instant hdeadline
  · exact h.fits _ instant hdeadline

theorem swapRemove_inv (h : Inv quantumMs rows idx) (hrow : removed < rows.length) :
    Inv quantumMs (VecOps.swapRemove rows removed) (idx.swapRemove removed (rows.length - 1)) := by
  unfold HeapTemporalIndex.swapRemove
  split
  · exact inv_invalidate _ _ _
  rename_i hguard
  have hidx := h (not_not.mp (not_or.mp hguard).1)
  have hlen := hidx.length
  cases hid : fromUsize removed with
  | none => exact inv_invalidate _ _ _
  | some removedId =>
  obtain ⟨rfl, hlt⟩ := fromUsize_eq_some hid
  have hwithout := hidx.files.unfile removedId
  simp only
  split
  · rename_i hne
    cases hidlast : fromUsize (rows.length - 1) with
    | none => exact fun hready => by cases hready
    | some lastId =>
    obtain ⟨hlast, -⟩ := fromUsize_eq_some hidlast
    subst hlast
    have hmoved : Function.update idx.bucketOf removedId none (rows.length - 1) =
        idx.bucketOf (rows.length - 1) := Function.update_of_ne (Ne.symm hne) ..
    have hgone := hwithout.unfile (rows.length - 1)
    rw [hmoved] at hgone
    have hback := hgone.refile removedId (idx.bucketOf (rows.length - 1))
      (by rw [Function.update_of_ne hne, Function.update_self])
      (fun bucket hb => ⟨hlt, (hidx.files.small _ bucket hb).2⟩)
    refine fun _ => hidx.of_swapRemove hrow (by simp [hlen]) ?_ hback ?_
    · intro row hr
      rw [getD_dropLast _ _ _ (by simpa [hlen] using hr), getD_set _ _ _ _ _ (by omega)]
      rfl
    · intro row
      have hend : rows.length ≤ row → idx.bucketOf row = none := hidx.bucketOf_of_length_le
      grind [Function.update_apply]
  · refine fun _ => hidx.of_swapRemove hrow (by simp [hlen]) ?_ hwithout ?_
    · intro row hr
      rw [getD_dropLast _ _ _ (by rw [hlen]; exact hr), if_neg (by omega)]
      rfl
    · intro row
      have hend : rows.length ≤ row → idx.bucketOf row = none := hidx.bucketOf_of_length_le
      grind [Function.update_apply]

/-! ## Exact answers -/

theorem rebuildLoop_readiness (deadline : Nat → Option InstantMillis) (listed : List Nat)
    (idx : HeapTemporalIndex) :
    (rebuildLoop quantumMs deadline listed idx).readiness = .linearFallback ∨
      (rebuildLoop quantumMs deadline listed idx).readiness = .ready := by
  induction listed generalizing idx with
  | nil => exact Or.inr rfl
  | cons row listed ih =>
    rw [rebuildLoop]
    split
    · exact Or.inl rfl
    · exact ih _

theorem prepare_readiness (rowCount : Nat) (deadline : Nat → Option InstantMillis) :
    (idx.prepare quantumMs rowCount deadline).readiness = .linearFallback ∨
      (idx.prepare quantumMs rowCount deadline).readiness = .ready := by
  unfold prepare
  split
  · exact rebuildLoop_readiness deadline (List.range rowCount) ⟨.invalid, ∅, []⟩
  rename_i hkeep
  cases hstate : idx.readiness with
  | ready => exact Or.inr rfl
  | invalid => simp [needsRebuild, hstate] at hkeep
  | linearFallback => exact Or.inl rfl

theorem prepare_cases (h : Inv quantumMs rows idx) :
    (idx.prepare quantumMs rows.length (deadlineOf rows)).readiness = .linearFallback ∨
      Filed quantumMs rows (idx.prepare quantumMs rows.length (deadlineOf rows)) ∧
        (idx.prepare quantumMs rows.length (deadlineOf rows)).readiness = .ready := by
  refine (prepare_readiness rows.length (deadlineOf rows)).imp_right fun hready => ⟨?_, hready⟩
  unfold prepare at hready ⊢
  split at hready
  · rw [if_pos ‹_›]
    exact rebuild_inv rows idx hready
  · rw [if_neg ‹_›]
    exact h hready

theorem prepare_inv (h : Inv quantumMs rows idx) :
    Inv quantumMs rows (idx.prepare quantumMs rows.length (deadlineOf rows)) := by
  rcases prepare_cases h with hfallback | ⟨hfiled, -⟩
  · exact fun hready => by rw [hfallback] at hready; cases hready
  · exact fun _ => hfiled

theorem Filed.key_of_deadline (h : Filed quantumMs rows idx)
    {instant : InstantMillis} (hrow : deadlineOf rows row = some instant) :
    TemporalKey.new (instant / quantumMs) row ∈ idx.keys ∧ row < 2 ^ 32 ∧
      instant / quantumMs ≤ u32Max := by
  obtain ⟨bucket, hbucket⟩ := h.fits row instant hrow
  obtain ⟨rfl, hsmall⟩ := containing_eq_some.mp hbucket
  have hof : idx.bucketOf row = some (instant / quantumMs) := by
    rw [h.buckets, hrow, Option.bind_some, hbucket]
  exact ⟨(h.files.mem _).mpr ⟨row, _, hof, rfl⟩, (h.files.small row _ hof).1, hsmall⟩

theorem Filed.deadline_of_key (h : Filed quantumMs rows idx) (hkey : key ∈ idx.keys) :
    ∃ instant, deadlineOf rows (key % 2 ^ 32) = some instant ∧
      instant / quantumMs = key / 2 ^ 32 := by
  obtain ⟨row, bucket, hof, rfl⟩ := (h.files.mem key).mp hkey
  have hlt := (h.files.small row bucket hof).1
  rw [mod_new hlt, div_new hlt]
  rw [h.buckets] at hof
  obtain ⟨instant, hrow, hbucket⟩ := Option.bind_eq_some_iff.mp hof
  exact ⟨instant, hrow, (containing_eq_some.mp hbucket).1⟩

theorem earliestExact_isEarliest (h : Inv quantumMs rows idx) :
    IsEarliest rows (idx.earliestExact quantumMs rows.length (deadlineOf rows)).1 := by
  unfold earliestExact
  rcases prepare_cases h with hfallback | ⟨hfiled, hready⟩
  · rw [if_pos hfallback]
    exact linearEarliest_isEarliest rows
  rw [if_neg (by rw [hready]; decide)]
  generalize idx.prepare quantumMs rows.length (deadlineOf rows) = idx at *
  cases hfirst : idx.keys.firstBitmap with
  | none =>
    intro row
    cases hrow : deadlineOf rows row with
    | none => rfl
    | some instant =>
      exact absurd (hfiled.key_of_deadline hrow).1 (RoaringTreemap.firstBitmap_eq_none hfirst _)
  | some first =>
    obtain ⟨high, lows⟩ := first
    obtain ⟨⟨least, hleast, hhigh, hmin⟩, hlows⟩ := RoaringTreemap.firstBitmap_eq_some hfirst
    refine min?_isEarliest rows lows ?_ ?_
    · intro row hmem
      obtain ⟨key, hkey, -, rfl⟩ := (hlows row).mp hmem
      obtain ⟨instant, hrow, -⟩ := hfiled.deadline_of_key hkey
      exact lt_length_of_deadlineOf hrow
    -- a row of a later bucket is later than the row of the least key
    intro row instant hrow
    obtain ⟨hkey, hlt, -⟩ := hfiled.key_of_deadline hrow
    by_cases hsame : instant / quantumMs = high
    · exact ⟨row, (hlows row).mpr ⟨_, hkey, by rw [div_new hlt, hsame],
        mod_new hlt⟩, instant, hrow, Nat.le_refl _⟩
    obtain ⟨first, hfirstrow, hbucket⟩ := hfiled.deadline_of_key hleast
    have hle : least / 2 ^ 32 ≤ instant / quantumMs := by
      have hdiv := Nat.div_le_div_right (c := 2 ^ 32) (hmin _ hkey)
      rwa [div_new hlt] at hdiv
    refine ⟨least % 2 ^ 32, (hlows _).mpr ⟨least, hleast, hhigh, rfl⟩, first, hfirstrow, ?_⟩
    by_contra hgt
    have hmono := Nat.div_le_div_right (c := quantumMs) (Nat.le_of_lt (Nat.lt_of_not_le hgt))
    rw [hbucket, hhigh] at hmono
    rw [hhigh] at hle
    exact hsame (Nat.le_antisymm hmono hle)

theorem key_le_dueEnd {now instant : Nat} (hpast : instant ≤ now)
    (hrow : row < 2 ^ 32) (hsmall : instant / quantumMs ≤ u32Max) :
    TemporalKey.new (instant / quantumMs) row ≤ dueEnd quantumMs now := by
  have hmono := Nat.div_le_div_right (c := quantumMs) hpast
  rw [TemporalKey.new_eq hrow]
  unfold dueEnd
  split
  · rename_i bucket hbucket
    obtain ⟨rfl, -⟩ := containing_eq_some.mp hbucket
    rw [TemporalKey.new_eq (by unfold u32Max; omega)]
    unfold u32Max
    omega
  · unfold u32Max at hsmall
    unfold u64Max
    omega

variable (h : Inv quantumMs rows idx)
include h

theorem firstDueMatching_isDueMatch (now : InstantMillis) (predicate : Nat → Bool) :
    IsDueMatch rows now predicate
      (idx.firstDueMatching quantumMs rows.length now (deadlineOf rows) predicate).1 := by
  unfold firstDueMatching
  rcases prepare_cases h with hfallback | ⟨hfiled, hready⟩
  · rw [if_pos hfallback]
    exact linearFirstDue_isDueMatch rows now predicate
  rw [if_neg (by rw [hready]; decide)]
  generalize idx.prepare quantumMs rows.length (deadlineOf rows) = idx at *
  refine find?_isDueMatch rows now predicate _ ?_ ?_
  · intro row hmem
    obtain ⟨key, hkey, rfl⟩ := List.mem_map.mp hmem
    obtain ⟨instant, hrow, -⟩ :=
      hfiled.deadline_of_key (RoaringTreemap.mem_iter_takeWhile.mp hkey).1
    exact lt_length_of_deadlineOf hrow
  · intro row _ hdue
    obtain ⟨instant, hrow, hpast⟩ := isDue_iff.mp hdue
    obtain ⟨hkey, hlt, hsmall⟩ := hfiled.key_of_deadline hrow
    exact List.mem_map.mpr ⟨_, RoaringTreemap.mem_iter_takeWhile.mpr
      ⟨hkey, key_le_dueEnd hpast hlt hsmall⟩, mod_new hlt⟩

theorem earliestExact_inv :
    Inv quantumMs rows (idx.earliestExact quantumMs rows.length (deadlineOf rows)).2 := by
  have hprep := prepare_inv h
  unfold earliestExact
  dsimp only
  repeat' split
  all_goals exact hprep

theorem firstDueMatching_inv (now : InstantMillis) (predicate : Nat → Bool) :
    Inv quantumMs rows
      (idx.firstDueMatching quantumMs rows.length now (deadlineOf rows) predicate).2 := by
  have hprep := prepare_inv h
  unfold firstDueMatching
  dsimp only
  split <;> exact hprep

end

theorem step_inv (m m' : Mirror HeapTemporalIndex) (hstep : Step (ops quantumMs) m m')
    (h : Inv quantumMs m.rows m.index) : Inv quantumMs m'.rows m'.index := by
  cases hstep with
  | insert deadline => exact insert_inv h deadline
  | update row deadline hrow => exact update_inv h deadline hrow
  | remove row hrow _ => exact update_inv h none hrow
  | swapRemove removed hrow => exact swapRemove_inv h hrow
  | invalidate => exact inv_invalidate _ _ _
  | rebuild => exact rebuild_inv m.rows m.index
  | earliest => exact earliestExact_inv h
  | firstDue now predicate => exact firstDueMatching_inv h now predicate

theorem start_inv (m : Mirror HeapTemporalIndex) (hstart : Start (ops quantumMs) m) :
    Inv quantumMs m.rows m.index := by
  cases hstart with
  | fresh => exact fun _ => filed_nil _
  | invalid rows => exact inv_invalidate _ _ _

/-- Along every run of a table with its bucketed index, whatever the quantum and
however large the deadlines, both queries answer as a linear scan would. -/
theorem bucketedIndex_exact {quantumMs : Nat} {m : Mirror HeapTemporalIndex}
    (h : Reachable (ops quantumMs) m) :
    IsEarliest m.rows (m.index.earliestExact quantumMs m.rows.length (deadlineOf m.rows)).1 ∧
    ∀ now predicate, IsDueMatch m.rows now predicate
      (m.index.firstDueMatching quantumMs m.rows.length now (deadlineOf m.rows) predicate).1 := by
  have hinv : Inv quantumMs m.rows m.index := Reachable.invariant start_inv step_inv h
  exact ⟨earliestExact_isEarliest hinv, firstDueMatching_isDueMatch hinv⟩

/-- A deadline past the bucket range, then a removal that renumbers its row. -/
theorem bucketedIndex_exact_far : IsEarliest [some (2 ^ 63)]
      ((((new.insert 1 0 (some 5)).insert 1 1 (some (2 ^ 63))).swapRemove 0 1).earliestExact
        1 1 (deadlineOf [some (2 ^ 63)])).1 :=
  (bucketedIndex_exact ⟨_, Start.fresh,
    ((Relation.ReflTransGen.single (Step.insert ⟨[], new⟩ (some 5))).tail
      (Step.insert _ (some (2 ^ 63)))).tail (Step.swapRemove _ 0 (by decide))⟩).1

end HeapTemporalIndex

end Prns.Ports.TemporalIndex
