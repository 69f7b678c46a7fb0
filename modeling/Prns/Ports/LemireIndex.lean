import Prns.Verified.VecOps

/-!
# The Lemire index

A table keeps its rows in a vector; the index maps a row's key to the row's
number. It is an open-addressed array of row numbers. The home bucket of a key
is its 64-bit hash scaled to the bucket count by a multiplication, and collisions
go to the next bucket.

This file is the model of `lemire_index/core.rs`, `impls/heap.rs` and
`impls/fixed.rs`. The two implementations differ in the width of a slot, in that
only the heap one grows, and in that only the heap one can repoint by slot; what
they share is defined once, over the value that marks an empty bucket.

The probe loops of the source have no bound. Here each has as much fuel as there
are buckets, and an operation whose loop would go on returns `none`.
-/

namespace Prns.Ports.Lemire

open Verified.VecOps

def usizeMax : Nat := 2 ^ 64 - 1

def exceedsTwoThirdsLoad (entries buckets : Nat) : Bool :=
  decide (buckets - (buckets + 2) / 3 < entries)

class IndexKey (K : Type) where
  lemireKey : K → UInt64

class IndexRow (R : Type) (K : outParam Type) where
  indexKey : R → K

/-- A vector of keys is a table of its own. -/
instance {K : Type} [IndexKey K] : IndexRow K K := ⟨id⟩

/-- An interface id is read low byte first: its first byte is the kind of the
interface, which all interfaces of a kind share. -/
structure InterfaceId where
  bytes : Vector UInt8 8
deriving DecidableEq

instance : IndexKey InterfaceId :=
  ⟨fun id => UInt64.ofNat (id.bytes.toList.foldr (fun b acc => b.toNat + 256 * acc) 0)⟩

/-! ## Common to both implementations -/

variable {R K : Type}

namespace Probing

variable [IndexKey K] [IndexRow R K] [DecidableEq K]

/-- `bucket`: the hash scaled to the bucket count. -/
def bucket (buckets : Nat) (key : UInt64) : Nat := (key.toNat * buckets) >>> 64

/-- `rows[slot].index_key()`. -/
def rowKey (rows : List R) (slot : Nat) : Option K := (rows[slot]?).map IndexRow.indexKey

/-- The home bucket of the row with number `slot`. -/
def homeOf (buckets : Nat) (rows : List R) (slot : Nat) : Nat :=
  match rowKey rows slot with
  | some key => bucket buckets (IndexKey.lemireKey key)
  | none => 0

/-- The loop of `position` and `position_of_slot`: the first bucket that is empty
or holds an accepted row. The outer `none` is a loop that has not ended. -/
def probeLoop (empty : Nat) (slots : List Nat) (accepts : Nat → Bool) :
    Nat → Nat → Option (Option Nat)
  | 0, _ => none
  | fuel + 1, pos =>
      let slot := slots.getD pos empty
      if slot = empty then some none
      else if accepts slot then some (some pos)
      else probeLoop empty slots accepts fuel ((pos + 1) % slots.length)

def position (empty : Nat) (slots : List Nat) (target : K) (rows : List R) :
    Option (Option Nat) :=
  probeLoop empty slots (fun slot => decide (rowKey rows slot = some target))
    slots.length (bucket slots.length (IndexKey.lemireKey target))

def positionOfSlot (empty : Nat) (slots : List Nat) (targetSlot : Nat) (rows : List R) :
    Option (Option Nat) :=
  match rowKey rows targetSlot with
  | none => some none
  | some target =>
      probeLoop empty slots (fun slot => decide (slot = targetSlot))
        slots.length (bucket slots.length (IndexKey.lemireKey target))

def get (empty : Nat) (slots : List Nat) (target : K) (rows : List R) :
    Option (Option Nat) :=
  (position empty slots target rows).map (Option.map (fun pos => slots.getD pos empty))

def contains (empty : Nat) (slots : List Nat) (target : K) (rows : List R) :
    Option Bool :=
  (position empty slots target rows).map Option.isSome

/-- The number of a row as it is stored: `as u32` or `as u16`. -/
def stored (empty slot : Nat) : Nat := slot % (empty + 1)

def placeLoop (empty : Nat) (slots : List Nat) (slot : Nat) :
    Nat → Nat → Option (List Nat)
  | 0, _ => none
  | fuel + 1, pos =>
      if slots.getD pos empty = empty then some (slots.set pos (stored empty slot))
      else placeLoop empty slots slot fuel ((pos + 1) % slots.length)

/-- `place`: the first empty bucket from the row's home on. -/
def place (empty : Nat) (slots : List Nat) (slot : Nat) (rows : List R) :
    Option (List Nat) :=
  placeLoop empty slots slot slots.length (homeOf slots.length rows slot)

/-- Whether an entry must stay behind the hole. -/
def blocksMove (hole scan home : Nat) : Bool :=
  if hole ≤ scan then decide (hole < home ∧ home ≤ scan)
  else decide (hole < home ∨ home ≤ scan)

/-- The two loops of `remove_position`. Both move `scan` one bucket on; the outer
one starts anew when an entry has been moved into the hole. -/
def shiftLoop (empty : Nat) (rows : List R) :
    Nat → List Nat → Nat → Nat → Option (List Nat)
  | 0, _, _, _ => none
  | fuel + 1, slots, hole, scan =>
      let scan := (scan + 1) % slots.length
      let slot := slots.getD scan empty
      if slot = empty then some slots
      else if blocksMove hole scan (homeOf slots.length rows slot) then
        shiftLoop empty rows fuel slots hole scan
      else
        shiftLoop empty rows fuel ((slots.set hole slot).set scan empty) scan scan

def removePosition (empty : Nat) (slots : List Nat) (hole : Nat) (rows : List R) :
    Option (List Nat) :=
  shiftLoop empty rows slots.length (slots.set hole empty) hole hole

def remove (empty : Nat) (slots : List Nat) (target : K) (rows : List R) :
    Option (List Nat) :=
  (position empty slots target rows).bind fun found =>
    match found with
    | none => some slots
    | some hole => removePosition empty slots hole rows

def removeSlot (empty : Nat) (slots : List Nat) (slot : Nat) (rows : List R) :
    Option (List Nat) :=
  (positionOfSlot empty slots slot rows).bind fun found =>
    match found with
    | none => some slots
    | some hole => removePosition empty slots hole rows

def repoint (empty : Nat) (slots : List Nat) (target : K) (slot : Nat) (rows : List R) :
    Option (List Nat) :=
  (position empty slots target rows).map fun found =>
    match found with
    | none => slots
    | some pos => slots.set pos (stored empty slot)

def repointSlot (empty : Nat) (slots : List Nat) (previous slot : Nat) (rows : List R) :
    Option (List Nat) :=
  (positionOfSlot empty slots previous rows).map fun found =>
    match found with
    | none => slots
    | some pos => slots.set pos (stored empty slot)

end Probing

/-- `LemireIndex<BUCKETS>`: an array of `u16`. -/
structure LemireIndex where
  slots : List Nat
  deriving DecidableEq, Repr

namespace LemireIndex

variable [IndexKey K] [IndexRow R K] [DecidableEq K]

def empty : Nat := 2 ^ 16 - 1

def new (buckets : Nat) : LemireIndex := ⟨List.replicate buckets empty⟩

def get (idx : LemireIndex) (target : K) (rows : List R) : Option (Option Nat) :=
  Probing.get empty idx.slots target rows

def contains (idx : LemireIndex) (target : K) (rows : List R) : Option Bool :=
  Probing.contains empty idx.slots target rows

def insert (idx : LemireIndex) (slot : Nat) (rows : List R) : Option LemireIndex :=
  (Probing.place empty idx.slots slot rows).map mk

def remove (idx : LemireIndex) (target : K) (rows : List R) : Option LemireIndex :=
  (Probing.remove empty idx.slots target rows).map mk

def removeSlot (idx : LemireIndex) (slot : Nat) (rows : List R) : Option LemireIndex :=
  (Probing.removeSlot empty idx.slots slot rows).map mk

def repoint (idx : LemireIndex) (target : K) (slot : Nat) (rows : List R) :
    Option LemireIndex :=
  (Probing.repoint empty idx.slots target slot rows).map mk

def clear (idx : LemireIndex) : LemireIndex :=
  ⟨List.replicate idx.slots.length empty⟩

end LemireIndex

/-- `HeapLemireIndex`: a vector of `u32`. -/
structure HeapLemireIndex where
  slots : List Nat
  deriving DecidableEq, Repr

namespace HeapLemireIndex

variable [IndexKey K] [IndexRow R K] [DecidableEq K]

def empty : Nat := 2 ^ 32 - 1
def minBuckets : Nat := 8
def maxRows : Nat := empty

def new : HeapLemireIndex := ⟨List.replicate minBuckets empty⟩

def get (idx : HeapLemireIndex) (target : K) (rows : List R) : Option (Option Nat) :=
  Probing.get empty idx.slots target rows

def contains (idx : HeapLemireIndex) (target : K) (rows : List R) : Option Bool :=
  Probing.contains empty idx.slots target rows

/-- The bucket count `rebuild` settles on. Doubling stops when it saturates: the
grown count is never below the old one, so the source's `==` is `≤` here. -/
def growLoop (entries buckets : Nat) : Nat :=
  if exceedsTwoThirdsLoad entries buckets then
    if min (buckets * 2) usizeMax ≤ buckets then buckets
    else growLoop entries (min (buckets * 2) usizeMax)
  else buckets
  termination_by usizeMax - buckets
  decreasing_by omega

/-- The rows placed one after the other, from `slot` on. -/
def placeAll (rows : List R) : Nat → Nat → List Nat → Option (List Nat)
  | 0, _, slots => some slots
  | count + 1, slot, slots =>
      (Probing.place empty slots slot rows).bind (placeAll rows count (slot + 1))

def rebuild (idx : HeapLemireIndex) (rows : List R) : Option HeapLemireIndex :=
  let buckets := growLoop rows.length (max idx.slots.length minBuckets)
  (placeAll rows rows.length 0 (List.replicate buckets empty)).map mk

/-- The caller pushes the row first, so `rows` already holds `slot`. -/
def insert (idx : HeapLemireIndex) (slot : Nat) (rows : List R) : Option HeapLemireIndex :=
  if exceedsTwoThirdsLoad rows.length idx.slots.length then idx.rebuild rows
  else (Probing.place empty idx.slots slot rows).map mk

def remove (idx : HeapLemireIndex) (target : K) (rows : List R) : Option HeapLemireIndex :=
  (Probing.remove empty idx.slots target rows).map mk

def removeSlot (idx : HeapLemireIndex) (slot : Nat) (rows : List R) :
    Option HeapLemireIndex :=
  (Probing.removeSlot empty idx.slots slot rows).map mk

def repoint (idx : HeapLemireIndex) (target : K) (slot : Nat) (rows : List R) :
    Option HeapLemireIndex :=
  (Probing.repoint empty idx.slots target slot rows).map mk

def repointSlot (idx : HeapLemireIndex) (previous slot : Nat) (rows : List R) :
    Option HeapLemireIndex :=
  (Probing.repointSlot empty idx.slots previous slot rows).map mk

def clear (idx : HeapLemireIndex) : HeapLemireIndex :=
  ⟨List.replicate idx.slots.length empty⟩

end HeapLemireIndex

/-- How a table names the row it removes or moves: by number, or by key. -/
inductive By where
  | slot
  | key
  deriving DecidableEq, Repr

/-- What tables do. A removal takes the row out of the index, points the last
row's entry at the gap, and only then moves the last row into it. -/
inductive TableOp (R : Type) where
  | push (row : R)
  | swapRemove (removal repointing : By) (i : Nat)
  | replace (removal : By) (i : Nat) (row : R)
  | clear

/-- A growing table: the index sees exactly its rows. -/
structure HeapTable (R : Type) where
  rows : List R
  index : HeapLemireIndex
deriving DecidableEq

namespace HeapTable

variable [IndexKey K] [IndexRow R K] [DecidableEq K]

def new : HeapTable R := ⟨[], HeapLemireIndex.new⟩

def unindex (t : HeapTable R) (removal : By) (i : Nat) : Option HeapLemireIndex :=
  match removal with
  | .slot => t.index.removeSlot i t.rows
  | .key =>
      match Probing.rowKey t.rows i with
      | some target => t.index.remove target t.rows
      | none => some t.index

def repointLast (t : HeapTable R) (index : HeapLemireIndex) (repointing : By) (i : Nat) :
    Option HeapLemireIndex :=
  let last := t.rows.length - 1
  if i = last then some index
  else
    match repointing with
    | .slot => index.repointSlot last i t.rows
    | .key =>
        match Probing.rowKey t.rows last with
        | some moved => index.repoint moved i t.rows
        | none => some index

def apply (t : HeapTable R) : TableOp R → Option (HeapTable R)
  | .push row => do
      let rows := t.rows ++ [row]
      let index ← t.index.insert t.rows.length rows
      return ⟨rows, index⟩
  | .swapRemove removal repointing i => do
      let index ← t.unindex removal i
      let index ← t.repointLast index repointing i
      return ⟨swapRemove t.rows i, index⟩
  | .replace removal i row => do
      let index ← t.unindex removal i
      let rows := t.rows.set i row
      let index ← index.insert i rows
      return ⟨rows, index⟩
  | .clear => some ⟨[], t.index.clear⟩

end HeapTable

/-- A table in a fixed array: the index sees the whole array, of which the first
`len` rows are live. -/
structure FixedTable (R : Type) where
  rows : List R
  len : Nat
  index : LemireIndex

namespace FixedTable

variable [IndexKey K] [IndexRow R K] [DecidableEq K]

def unindex (t : FixedTable R) (removal : By) (i : Nat) : Option LemireIndex :=
  match removal with
  | .slot => t.index.removeSlot i t.rows
  | .key =>
      match Probing.rowKey t.rows i with
      | some target => t.index.remove target t.rows
      | none => some t.index

def repointLast (t : FixedTable R) (index : LemireIndex) (i : Nat) : Option LemireIndex :=
  let last := t.len - 1
  if i = last then some index
  else
    match Probing.rowKey t.rows last with
    | some moved => index.repoint moved i t.rows
    | none => some index

/-- The array with its last live row copied into the gap. -/
def moveLast (rows : List R) (len i : Nat) : List R :=
  match rows[len - 1]? with
  | some last => rows.set i last
  | none => rows

def apply (t : FixedTable R) : TableOp R → Option (FixedTable R)
  | .push row => do
      let rows := t.rows.set t.len row
      let index ← t.index.insert t.len rows
      return ⟨rows, t.len + 1, index⟩
  | .swapRemove removal _ i => do
      let index ← t.unindex removal i
      let index ← t.repointLast index i
      return ⟨moveLast t.rows t.len i, t.len - 1, index⟩
  | .replace removal i row => do
      let index ← t.unindex removal i
      let rows := t.rows.set i row
      let index ← index.insert i rows
      return ⟨rows, t.len, index⟩
  | .clear => some ⟨t.rows, 0, t.index.clear⟩

end FixedTable

end Prns.Ports.Lemire
