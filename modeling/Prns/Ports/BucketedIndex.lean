import Prns.Ports.TemporalIndex
import Mathlib.Data.Finset.Sort

/-!
# The bucketed deadline index

`HeapTemporalIndex` files a row under the quantum its deadline falls in. A
filed row is one 64-bit key, the bucket in the high half and the row in the low
half, kept in a roaring treemap. Deadlines whose bucket does not fit 32 bits
cannot be filed; the index then answers by linear scans until the next mutation.

This file is the model of `routing/temporal_index/bucketed.rs`. The treemap is
taken as what its documentation says it is, an ordered set of `u64`.
-/

namespace Prns.Ports.TemporalIndex

open Verified.VecOps

abbrev RoaringTreemap := Finset Nat

namespace RoaringTreemap

/-- `iter`: the keys in ascending order. -/
def iter (keys : RoaringTreemap) : List Nat := keys.sort (· ≤ ·)

/-- `bitmaps().next()`: the least high half, and the low halves under it. -/
def firstBitmap (keys : RoaringTreemap) : Option (Nat × List Nat) :=
  match keys.iter with
  | [] => none
  | least :: _ =>
      some (least / 2 ^ 32,
        (keys.iter.filter (fun key => key / 2 ^ 32 == least / 2 ^ 32)).map
          (fun key => key % 2 ^ 32))

end RoaringTreemap

/-- `TemporalBucket::containing`. -/
def TemporalBucket.containing (quantumMs : Nat) (deadline : InstantMillis) : Option Nat :=
  if deadline / quantumMs ≤ u32Max then some (deadline / quantumMs) else none

/-- `TemporalRow::from_usize`. -/
def TemporalRow.fromUsize (row : Nat) : Option Nat :=
  if row ≤ u32Max then some row else none

/-- `TemporalKey::new`. -/
def TemporalKey.new (bucket row : Nat) : Nat := (bucket <<< 32) ||| row

/-! ## The index -/

structure HeapTemporalIndex where
  readiness : IndexReadiness
  keys : RoaringTreemap
  rowBuckets : List (Option Nat)
  deriving DecidableEq

namespace HeapTemporalIndex

def new : HeapTemporalIndex := ⟨.ready, ∅, []⟩

def bucketOf (idx : HeapTemporalIndex) (row : Nat) : Option Nat :=
  idx.rowBuckets.getD row none

def invalidate (idx : HeapTemporalIndex) : HeapTemporalIndex :=
  { idx with readiness := .invalid }

def needsRebuild (idx : HeapTemporalIndex) (rowCount : Nat) : Bool :=
  match idx.readiness with
  | .ready => idx.rowBuckets.length != rowCount
  | .invalid => true
  | .linearFallback => false

def useLinearFallback (_ : HeapTemporalIndex) : HeapTemporalIndex :=
  ⟨.linearFallback, ∅, []⟩

/-- A row is filed at the end of the row list. `none` is the way out to the
linear fallback: the row number or the bucket does not fit 32 bits. `insert` and
the loop of `rebuild` both do this. -/
def file (quantumMs : Nat) (idx : HeapTemporalIndex) (row : Nat)
    (deadline : Option InstantMillis) : Option HeapTemporalIndex :=
  match TemporalRow.fromUsize row with
  | none => none
  | some rowId =>
      match deadline with
      | some deadline =>
          match TemporalBucket.containing quantumMs deadline with
          | none => none
          | some bucket =>
              some { idx with
                keys := insert (TemporalKey.new bucket rowId) idx.keys
                rowBuckets := idx.rowBuckets ++ [some bucket] }
      | none => some { idx with rowBuckets := idx.rowBuckets ++ [none] }

def rebuildLoop (quantumMs : Nat) (deadlineOf : Nat → Option InstantMillis) :
    List Nat → HeapTemporalIndex → HeapTemporalIndex
  | [], idx => { idx with readiness := .ready }
  | row :: rows, idx =>
      match idx.file quantumMs row (deadlineOf row) with
      | none => idx.useLinearFallback
      | some filed => rebuildLoop quantumMs deadlineOf rows filed

def rebuild (quantumMs : Nat) (_ : HeapTemporalIndex) (rowCount : Nat)
    (deadlineOf : Nat → Option InstantMillis) : HeapTemporalIndex :=
  rebuildLoop quantumMs deadlineOf (List.range rowCount) ⟨.invalid, ∅, []⟩

def prepare (quantumMs : Nat) (idx : HeapTemporalIndex) (rowCount : Nat)
    (deadlineOf : Nat → Option InstantMillis) : HeapTemporalIndex :=
  if idx.needsRebuild rowCount then idx.rebuild quantumMs rowCount deadlineOf else idx

def insert (quantumMs : Nat) (idx : HeapTemporalIndex) (row : Nat)
    (deadline : Option InstantMillis) : HeapTemporalIndex :=
  if idx.readiness ≠ .ready ∨ row ≠ idx.rowBuckets.length then idx.invalidate
  else
    match idx.file quantumMs row deadline with
    | none => idx.useLinearFallback
    | some filed => filed

/-- The key of a filed row leaves the set. -/
def unfile (keys : RoaringTreemap) (bucket : Option Nat) (row : Nat) : RoaringTreemap :=
  match bucket with
  | some bucket => keys.erase (TemporalKey.new bucket row)
  | none => keys

/-- The key of a row enters the set. -/
def refile (keys : RoaringTreemap) (bucket : Option Nat) (row : Nat) : RoaringTreemap :=
  match bucket with
  | some bucket => Insert.insert (TemporalKey.new bucket row) keys
  | none => keys

/-- The bucket of a new deadline; the outer `none` is the linear fallback. -/
def nextBucket (quantumMs : Nat) (deadline : Option InstantMillis) :
    Option (Option Nat) :=
  match deadline with
  | some deadline => (TemporalBucket.containing quantumMs deadline).map some
  | none => some none

def update (quantumMs : Nat) (idx : HeapTemporalIndex) (row : Nat)
    (deadline : Option InstantMillis) : HeapTemporalIndex :=
  if idx.readiness ≠ .ready ∨ idx.rowBuckets.length ≤ row then idx.invalidate
  else
    match TemporalRow.fromUsize row with
    | none => idx.useLinearFallback
    | some rowId =>
        match nextBucket quantumMs deadline with
        | none => idx.useLinearFallback
        | some next =>
            let previous := idx.bucketOf row
            if previous = next then idx
            else
              { idx with
                keys := refile (unfile idx.keys previous rowId) next rowId
                rowBuckets := idx.rowBuckets.set row next }

def swapRemove (idx : HeapTemporalIndex) (removed last : Nat) : HeapTemporalIndex :=
  if idx.readiness ≠ .ready ∨ idx.rowBuckets.length ≤ last ∨ last < removed then
    idx.invalidate
  else
    match TemporalRow.fromUsize removed with
    | none => idx.invalidate
    | some removedId =>
        let without := unfile idx.keys (idx.bucketOf removed) removedId
        if removed ≠ last then
          match TemporalRow.fromUsize last with
          | none => { idx with keys := without, readiness := .invalid }
          | some lastId =>
              let moved := idx.bucketOf last
              { idx with
                keys := refile (unfile without moved lastId) moved removedId
                rowBuckets := (idx.rowBuckets.set removed moved).dropLast }
        else { idx with keys := without, rowBuckets := idx.rowBuckets.dropLast }

def earliestExact (quantumMs : Nat) (idx : HeapTemporalIndex) (rowCount : Nat)
    (deadlineOf : Nat → Option InstantMillis) :
    Option InstantMillis × HeapTemporalIndex :=
  let idx := idx.prepare quantumMs rowCount deadlineOf
  if idx.readiness = .linearFallback then (linearEarliest rowCount deadlineOf, idx)
  else
    match idx.keys.firstBitmap with
    | none => (none, idx)
    | some (_, rows) => ((rows.filterMap deadlineOf).min?, idx)

/-- The last key a row due at `now` can have. -/
def dueEnd (quantumMs : Nat) (now : InstantMillis) : Nat :=
  match TemporalBucket.containing quantumMs now with
  | some bucket => TemporalKey.new bucket u32Max
  | none => u64Max

def firstDueMatching (quantumMs : Nat) (idx : HeapTemporalIndex) (rowCount : Nat)
    (now : InstantMillis) (deadlineOf : Nat → Option InstantMillis)
    (predicate : Nat → Bool) : Option Nat × HeapTemporalIndex :=
  let idx := idx.prepare quantumMs rowCount deadlineOf
  if idx.readiness = .linearFallback then
    (linearFirstDue rowCount now deadlineOf predicate, idx)
  else
    let candidates := (idx.keys.iter.takeWhile
      (fun key => decide (key ≤ dueEnd quantumMs now))).map (fun key => key % 2 ^ 32)
    (candidates.find? (fun row => isDue deadlineOf now row && predicate row), idx)

/-- The bucketed index as the index of a table. It has no removal of its own for
a row that loses its deadline: that is an update. -/
def ops (quantumMs : Nat) : IndexOps HeapTemporalIndex where
  new := new
  readiness := readiness
  invalidate := invalidate
  rebuild := rebuild quantumMs
  insert := fun idx row deadline _ => idx.insert quantumMs row deadline
  remove := fun idx row _ => idx.update quantumMs row none
  update := fun idx row deadline _ => idx.update quantumMs row deadline
  swapRemove := fun idx removed last _ => idx.swapRemove removed last
  earliestExact := earliestExact quantumMs
  firstDueMatching := firstDueMatching quantumMs

end HeapTemporalIndex

end Prns.Ports.TemporalIndex
