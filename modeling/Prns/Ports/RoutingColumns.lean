import Prns.Ports.BucketedIndexRuns
import Prns.Verified.KeyedRows

/-!
# The columns of the routing table

The routing table is generic in its backends. Three of them keep state that is addressed
by row or by handle: the history of announce identifiers, the store of application data and
the index of route expiries. Each is a structure of operations, with the laws that the
table relies on: a relation between the backend's state and the column it stands for, and
what every operation does to that column.

The heap backends are modelled here, and both expiry indexes.
-/

namespace Prns.Ports.Routing

open Verified
open Verified.VecOps
open TemporalIndex (InstantMillis u64Max HeapTemporalIndex Rows deadlineOf)
open Function

abbrev DestinationHash := Vector UInt8 16

abbrev InterfaceId := Vector UInt8 8

abbrev TransportId := Vector UInt8 16

abbrev DottedNameHash := Vector UInt8 10

abbrev AnnounceId := Vector UInt8 10

abbrev RatchetKey := Vector UInt8 32

abbrev Ed25519Signature := Vector UInt8 64

structure IdentityPublicKeys where
  encryption : Vector UInt8 32
  signing : Vector UInt8 32
  deriving DecidableEq

/-- A slot of the application data store. -/
abbrev AppDataHandle := Nat

/-! ## Histories of announce identifiers -/

structure IdHistoryOps (H : Type) where
  new : H
  history : H → Nat → List AnnounceId
  remember : H → Nat → AnnounceId → H
  swapRemove : H → Nat → Nat → H
  /-- Identifiers that are kept for a destination. -/
  depth : Nat

/-- What `remember` does to the identifiers of a row. -/
def rememberIn (depth : Nat) (ids : List AnnounceId) (id : AnnounceId) : List AnnounceId :=
  if id ∈ ids then ids
  else if ids.length < depth then ids ++ [id]
  else ids.tail ++ [id]

/-- `Holds h column` says that `h` keeps `column`, one list for each row. -/
structure LawfulHistory {H : Type} (ops : IdHistoryOps H) where
  Holds : H → List (List AnnounceId) → Prop
  /-- Rows that the backend has room for. -/
  limit : Nat
  new : Holds ops.new []
  grow : ∀ {h column}, Holds h column → column.length < limit → Holds h (column ++ [[]])
  remember : ∀ {h column i} (id : AnnounceId), Holds h column → i < column.length →
    Holds (ops.remember h i id) (column.set i (rememberIn ops.depth (column.getD i []) id))
  swapRemove : ∀ {h column i}, Holds h column → i < column.length →
    Holds (ops.swapRemove h i (column.length - 1)) (VecOps.swapRemove column i)
  history : ∀ {h column i}, Holds h column → i < column.length →
    ops.history h i = column.getD i []

def maxAnnounceIdsPerDestination : Nat := 64

/-- `HeapAnnounceIdHistory`, its `per_slot`. -/
abbrev HeapAnnounceIdHistory := List (List AnnounceId)

namespace HeapAnnounceIdHistory

/-- `resize_with(len, Vec::new)`, unless it is as long already. -/
def resizeWith (perSlot : HeapAnnounceIdHistory) (len : Nat) : HeapAnnounceIdHistory :=
  perSlot ++ List.replicate (len - perSlot.length) []

def history (perSlot : HeapAnnounceIdHistory) (slot : Nat) : List AnnounceId :=
  perSlot.getD slot []

def remember (perSlot : HeapAnnounceIdHistory) (slot : Nat) (id : AnnounceId) :
    HeapAnnounceIdHistory :=
  let perSlot := resizeWith perSlot (slot + 1)
  perSlot.set slot (rememberIn maxAnnounceIdsPerDestination (perSlot.getD slot []) id)

def swapRemove (perSlot : HeapAnnounceIdHistory) (i last : Nat) : HeapAnnounceIdHistory :=
  (swapAt (resizeWith perSlot (last + 1)) i last []).take last

def ops : IdHistoryOps HeapAnnounceIdHistory where
  new := []
  history := history
  remember := remember
  swapRemove := swapRemove
  depth := maxAnnounceIdsPerDestination

theorem length_resizeWith (perSlot : HeapAnnounceIdHistory) (len : Nat) :
    (resizeWith perSlot len).length = max perSlot.length len := by
  rw [resizeWith, List.length_append, List.length_replicate]
  omega

theorem getD_resizeWith (perSlot : HeapAnnounceIdHistory) (len i : Nat) :
    (resizeWith perSlot len).getD i [] = perSlot.getD i [] := by
  unfold resizeWith
  by_cases hi : i < perSlot.length
  · rw [List.getD_append _ _ _ _ hi]
  · rw [List.getD_append_right _ _ _ _ (Nat.le_of_not_lt hi),
      List.getD_eq_default perSlot _ (Nat.le_of_not_lt hi), List.getD_eq_getElem?_getD,
      List.getElem?_replicate]
    split <;> rfl

/-- The slots that exist are those of the rows, and a row without a slot has no history. -/
def lawful (limit : Nat) : LawfulHistory ops where
  Holds perSlot column :=
    perSlot.length ≤ column.length ∧ ∀ i, column.getD i [] = perSlot.getD i []
  limit := limit
  new := ⟨Nat.le_refl 0, fun _ => rfl⟩
  grow := by
    rintro perSlot column ⟨hlen, hsame⟩ -
    refine ⟨by rw [List.length_append]; omega, fun i => ?_⟩
    rw [getD_append_singleton]
    split
    · next hi => rw [List.getD_eq_default perSlot _ (by omega)]
    · exact hsame i
  remember := by
    rintro perSlot column i id ⟨hlen, hsame⟩ hi
    have hslot : i < (resizeWith perSlot (i + 1)).length := by
      rw [length_resizeWith]
      omega
    constructor
    · show (remember perSlot i id).length ≤ _
      rw [remember, List.length_set, List.length_set, length_resizeWith]
      omega
    intro j
    show _ = (remember perSlot i id).getD j []
    rw [remember, getD_set _ _ _ _ _ hi, getD_set _ _ _ _ _ hslot, getD_resizeWith,
      getD_resizeWith, hsame, hsame]
    rfl
  swapRemove := by
    rintro perSlot column i ⟨hlen, hsame⟩ hi
    have hresized : (resizeWith perSlot (column.length - 1 + 1)).length = column.length := by
      rw [length_resizeWith]
      omega
    have hremove : (swapRemove perSlot i (column.length - 1)).length = column.length - 1 := by
      rw [swapRemove, List.length_take, length_swapAt, hresized]
      omega
    constructor
    · show (swapRemove perSlot i (column.length - 1)).length ≤ _
      rw [hremove, length_swapRemove]
    intro j
    show _ = (swapRemove perSlot i (column.length - 1)).getD j []
    by_cases hj : j < column.length - 1
    · rw [getD_swapRemove _ _ _ _ hi hj, swapRemove, List.getD_eq_getElem?_getD (l := List.take ..),
        List.getElem?_take_of_lt hj, ← List.getD_eq_getElem?_getD,
        getD_swapAt _ _ _ _ _ (by omega) (by omega), getD_resizeWith, getD_resizeWith,
        getD_resizeWith, hsame, hsame, if_neg (by omega : ¬ j = column.length - 1)]
    · rw [List.getD_eq_default _ _ (by rw [length_swapRemove]; omega),
        List.getD_eq_default _ _ (by omega)]
  history := by
    rintro perSlot column i ⟨-, hsame⟩ -
    exact (hsame i).symm

end HeapAnnounceIdHistory

/-! ## Application data -/

inductive AnnounceAppDataError where
  | arenaFull
  | tooManyEntries
  deriving DecidableEq, Repr

structure AppDataOps (D : Type) where
  new : D
  get : D → AppDataHandle → List UInt8
  insert : D → List UInt8 → Except AnnounceAppDataError AppDataHandle × D
  replace : D → AppDataHandle → List UInt8 → Except AnnounceAppDataError Unit × D
  free : D → AppDataHandle → D

/-- `Holds d live` says that the store returns `live` under the handles that are in use. -/
structure LawfulAppData {D : Type} (ops : AppDataOps D) where
  Holds : D → (AppDataHandle → Option (List UInt8)) → Prop
  new : Holds ops.new fun _ => none
  get : ∀ {d live handle bytes}, Holds d live → live handle = some bytes →
    ops.get d handle = bytes
  insert_ok : ∀ {d live bytes handle d'}, Holds d live →
    ops.insert d bytes = (.ok handle, d') →
    live handle = none ∧ Holds d' (Function.update live handle (some bytes))
  insert_error : ∀ {d live bytes e d'}, Holds d live →
    ops.insert d bytes = (.error e, d') → Holds d' live
  replace_ok : ∀ {d live handle old bytes d'}, Holds d live → live handle = some old →
    ops.replace d handle bytes = (.ok (), d') →
    Holds d' (Function.update live handle (some bytes))
  replace_error : ∀ {d live handle old bytes e d'}, Holds d live → live handle = some old →
    ops.replace d handle bytes = (.error e, d') → Holds d' live
  free : ∀ {d live handle old}, Holds d live → live handle = some old →
    Holds (ops.free d handle) (Function.update live handle none)

structure HeapAnnounceAppData where
  entries : List (List UInt8)
  freeSlots : List Nat
  deriving DecidableEq

variable {old : List UInt8} {handle : AppDataHandle} {live : AppDataHandle → Option (List UInt8)}

namespace HeapAnnounceAppData

def get (store : HeapAnnounceAppData) (handle : AppDataHandle) : List UInt8 :=
  store.entries.getD handle []

/-- The free slots are a stack; its top is the head of the list. -/
def insert (store : HeapAnnounceAppData) (bytes : List UInt8) :
    Except AnnounceAppDataError AppDataHandle × HeapAnnounceAppData :=
  match store.freeSlots with
  | slot :: rest => (.ok slot, ⟨store.entries.set slot bytes, rest⟩)
  | [] => (.ok store.entries.length, ⟨store.entries ++ [bytes], []⟩)

def replace (store : HeapAnnounceAppData) (handle : AppDataHandle) (bytes : List UInt8) :
    Except AnnounceAppDataError Unit × HeapAnnounceAppData :=
  (.ok (), { store with entries := store.entries.set handle bytes })

def free (store : HeapAnnounceAppData) (handle : AppDataHandle) : HeapAnnounceAppData :=
  ⟨store.entries.set handle [], handle :: store.freeSlots⟩

def ops : AppDataOps HeapAnnounceAppData where
  new := ⟨[], []⟩
  get := get
  insert := insert
  replace := replace
  free := free

/-- A slot is free or in use, and a free slot stands once in the stack. -/
structure Keeps (store : HeapAnnounceAppData) (live : AppDataHandle → Option (List UInt8)) :
    Prop where
  nodup : store.freeSlots.Nodup
  inside : ∀ slot ∈ store.freeSlots, slot < store.entries.length
  used : ∀ handle bytes, live handle = some bytes ↔
    handle < store.entries.length ∧ handle ∉ store.freeSlots ∧
      store.entries.getD handle [] = bytes

variable {store : HeapAnnounceAppData}

theorem Keeps.set {live : AppDataHandle → Option (List UInt8)} (h : Keeps store live)
    (hlive : live handle = some old) (bytes : List UInt8) :
    Keeps { store with entries := store.entries.set handle bytes }
      (update live handle (some bytes)) where
  nodup := h.nodup
  inside slot hslot := by
    rw [List.length_set]
    exact h.inside slot hslot
  used other data := by
    obtain ⟨hlt, hfree, -⟩ := (h.used handle old).mp hlive
    rw [List.length_set, getD_set _ _ _ _ _ hlt]
    by_cases hother : other = handle
    · subst hother
      simp [hlt, hfree]
    · rw [update_of_ne hother, if_neg hother]
      exact h.used other data

variable {entries : List (List UInt8)} {rest : List Nat} {bytes : List UInt8}

theorem Keeps.reuse {slot : Nat} (h : Keeps ⟨entries, slot :: rest⟩ live) : live slot = none ∧
      Keeps ⟨entries.set slot bytes, rest⟩ (update live slot (some bytes)) := by
  have hlt : slot < entries.length := h.inside slot List.mem_cons_self
  obtain ⟨hfree, hrest⟩ := List.nodup_cons.mp h.nodup
  constructor
  · cases hlive : live slot with
    | none => rfl
    | some data => exact absurd List.mem_cons_self ((h.used slot data).mp hlive).2.1
  refine ⟨hrest, fun other hother => ?_, fun other data => ?_⟩
  · rw [List.length_set]
    exact h.inside other (List.mem_cons_of_mem _ hother)
  rw [List.length_set, getD_set _ _ _ _ _ hlt]
  by_cases hother : other = slot
  · subst hother
    simp [hlt, hfree]
  · rw [update_of_ne hother, if_neg hother, h.used other data]
    simp [hother]

theorem Keeps.extend (h : Keeps ⟨entries, []⟩ live) : live entries.length = none ∧
      Keeps ⟨entries ++ [bytes], []⟩ (update live entries.length (some bytes)) := by
  constructor
  · cases hlive : live entries.length with
    | none => rfl
    | some data => exact absurd ((h.used _ data).mp hlive).1 (Nat.lt_irrefl _)
  refine ⟨List.nodup_nil, nofun, fun other data => ?_⟩
  rw [List.length_append, List.length_singleton, getD_append_singleton]
  by_cases hother : other = entries.length
  · subst hother
    simp
  · rw [update_of_ne hother, if_neg hother, h.used other data]
    have hlt : other < entries.length ↔ other < entries.length + 1 :=
      ⟨Nat.lt_succ_of_lt, fun h => Nat.lt_of_le_of_ne (Nat.le_of_lt_succ h) hother⟩
    rw [hlt]

theorem Keeps.release (h : Keeps store live) (hlive : live handle = some old) :
    Keeps (store.free handle) (update live handle none) := by
  obtain ⟨hlt, hfree, -⟩ := (h.used handle old).mp hlive
  refine ⟨List.nodup_cons.mpr ⟨hfree, h.nodup⟩, fun other hother => ?_, fun other data => ?_⟩
  · rw [free, List.length_set]
    rcases List.mem_cons.mp hother with rfl | hmem
    · exact hlt
    · exact h.inside other hmem
  rw [free, List.length_set, getD_set _ _ _ _ _ hlt]
  by_cases hother : other = handle
  · subst hother
    simp
  · rw [update_of_ne hother, if_neg hother, h.used other data]
    simp [hother]

def lawful : LawfulAppData ops where
  Holds := Keeps
  new := ⟨List.nodup_nil, nofun, fun handle bytes => by simp [ops]⟩
  get := fun h hlive => ((h.used _ _).mp hlive).2.2
  insert_ok := by
    rintro ⟨entries, freeSlots⟩ live bytes handle d' h hinsert
    cases freeSlots with
    | nil =>
      cases hinsert
      exact h.extend
    | cons slot rest =>
      cases hinsert
      exact h.reuse
  insert_error := by
    rintro ⟨entries, freeSlots⟩ live bytes e d' h hinsert
    cases freeSlots <;> cases hinsert
  replace_ok := by
    rintro store live handle old bytes d' h hlive hreplace
    cases hreplace
    exact h.set hlive bytes
  replace_error := by
    rintro store live handle old bytes e d' h hlive hreplace
    cases hreplace
  free := fun h hlive => h.release hlive

end HeapAnnounceAppData

/-! ### The calls of a store

The handles that a store gave out and got back, for any store. -/

inductive StoreCall where
  | issued (handle : AppDataHandle)
  | freed (handle : AppDataHandle)
  deriving DecidableEq, Repr

/-- The handles out after one more call; `none` if a handle is given out twice or returned
without being out. -/
def StoreCall.settle (out : List AppDataHandle) : StoreCall → Option (List AppDataHandle)
  | .issued handle => if handle ∈ out then none else some (handle :: out)
  | .freed handle => if handle ∈ out then some (out.erase handle) else none

/-- The handles that are out after these calls. -/
def outstanding (calls : List StoreCall) : Option (List AppDataHandle) :=
  calls.foldlM StoreCall.settle []

theorem outstanding_snoc {calls : List StoreCall} {out : List AppDataHandle}
    (h : outstanding calls = some out) (call : StoreCall) :
    outstanding (calls ++ [call]) = call.settle out := by
  unfold outstanding at h ⊢
  rw [List.foldlM_append, h]
  simp

/-- A store together with the calls made to it. -/
def AppDataOps.recorded {D : Type} (ops : AppDataOps D) : AppDataOps (D × List StoreCall) where
  new := (ops.new, [])
  get s := ops.get s.1
  insert s bytes :=
    match ops.insert s.1 bytes with
    | (.ok handle, d) => (.ok handle, (d, s.2 ++ [.issued handle]))
    | (.error e, d) => (.error e, (d, s.2))
  replace s handle bytes :=
    ((ops.replace s.1 handle bytes).1, ((ops.replace s.1 handle bytes).2, s.2))
  free s handle := (ops.free s.1 handle, s.2 ++ [.freed handle])

/-- Exactly the handles in use are out. -/
def Accounted (live : AppDataHandle → Option (List UInt8)) (calls : List StoreCall) : Prop :=
  ∃ out, outstanding calls = some out ∧ out.Nodup ∧ ∀ handle, handle ∈ out ↔ (live handle).isSome

section

variable {calls : List StoreCall} (h : Accounted live calls)
include h

theorem Accounted.issued (hfresh : live handle = none) (bytes : List UInt8) :
    Accounted (update live handle (some bytes)) (calls ++ [.issued handle]) := by
  obtain ⟨out, hout, hnodup, hmem⟩ := h
  have hnot : handle ∉ out := by
    rw [hmem, hfresh]
    nofun
  refine ⟨handle :: out, ?_, List.nodup_cons.mpr ⟨hnot, hnodup⟩, fun other => ?_⟩
  · rw [outstanding_snoc hout, StoreCall.settle, if_neg hnot]
  rw [List.mem_cons, hmem]
  by_cases hother : other = handle
  · subst hother
    simp
  · simp [hother]

theorem Accounted.freed (hlive : live handle = some old) :
    Accounted (update live handle none) (calls ++ [.freed handle]) := by
  obtain ⟨out, hout, hnodup, hmem⟩ := h
  have hin : handle ∈ out := by
    rw [hmem, hlive]
    rfl
  refine ⟨out.erase handle, ?_, hnodup.erase handle, fun other => ?_⟩
  · rw [outstanding_snoc hout, StoreCall.settle, if_pos hin]
  rw [hnodup.mem_erase_iff, hmem]
  by_cases hother : other = handle
  · subst hother
    simp
  · simp [hother]

theorem Accounted.congr {live' : AppDataHandle → Option (List UInt8)}
    (hsame : ∀ handle, (live' handle).isSome = (live handle).isSome) : Accounted live' calls := by
  obtain ⟨out, hout, hnodup, hmem⟩ := h
  refine ⟨out, hout, hnodup, fun handle => ?_⟩
  rw [hmem, hsame]

end

/-- A recorded store is a store. -/
def LawfulAppData.recorded {D : Type} {ops : AppDataOps D} (lawful : LawfulAppData ops) :
    LawfulAppData ops.recorded where
  Holds s live := lawful.Holds s.1 live ∧ Accounted live s.2
  new := ⟨lawful.new, [], rfl, List.nodup_nil, fun _ => by simp⟩
  get := fun h hlive => lawful.get h.1 hlive
  insert_ok := by
    rintro ⟨d, calls⟩ live bytes handle d' ⟨hholds, hcalls⟩ hinsert
    unfold AppDataOps.recorded at hinsert
    dsimp only at hinsert
    split at hinsert
    · next heq =>
      cases hinsert
      obtain ⟨hfresh, hholds'⟩ := lawful.insert_ok hholds heq
      exact ⟨hfresh, hholds', hcalls.issued hfresh bytes⟩
    · cases hinsert
  insert_error := by
    rintro ⟨d, calls⟩ live bytes e d' ⟨hholds, hcalls⟩ hinsert
    unfold AppDataOps.recorded at hinsert
    dsimp only at hinsert
    split at hinsert
    · cases hinsert
    · next heq =>
      cases hinsert
      exact ⟨lawful.insert_error hholds heq, hcalls⟩
  replace_ok := by
    rintro ⟨d, calls⟩ live handle old bytes d' ⟨hholds, hcalls⟩ hlive hreplace
    obtain ⟨hresult, rfl⟩ := Prod.mk.inj hreplace
    refine ⟨lawful.replace_ok hholds hlive (Prod.ext hresult rfl), hcalls.congr fun other => ?_⟩
    by_cases hother : other = handle
    · subst hother
      simp [hlive]
    · rw [Function.update_of_ne hother]
  replace_error := by
    rintro ⟨d, calls⟩ live handle old bytes e d' ⟨hholds, hcalls⟩ hlive hreplace
    obtain ⟨hresult, rfl⟩ := Prod.mk.inj hreplace
    exact ⟨lawful.replace_error hholds hlive (Prod.ext hresult rfl), hcalls⟩
  free := fun h hlive => ⟨lawful.free h.1 hlive, h.2.freed hlive⟩

structure ExpiryOps (I : Type) where
  new : I
  indexed : Bool
  invalidate : I → I
  insert : I → Nat → InstantMillis → I
  update : I → Nat → InstantMillis → I
  swapRemove : I → Nat → Nat → I
  prefersLinearCull : I → Nat → InstantMillis → Bool
  earliestExact : I → Nat → (Nat → InstantMillis) → Option InstantMillis × I
  firstExpired : I → Nat → InstantMillis → (Nat → InstantMillis) → Option Nat × I

/-- A query leaves the column as it is or files all rows anew. -/
def Refiled (expiryOf : Nat → InstantMillis) (column column' : List InstantMillis) : Prop :=
  column' = column ∨ column' = (List.range column.length).map expiryOf

/-- `Holds s column` says that `s` has filed `column`, or promises nothing at present. -/
structure LawfulExpiries {I : Type} (ops : ExpiryOps I) where
  Holds : I → List InstantMillis → Prop
  new : Holds ops.new []
  invalidate : ∀ s column, Holds (ops.invalidate s) column
  insert : ∀ {s column} (expiry : InstantMillis), Holds s column →
    Holds (ops.insert s column.length expiry) (column ++ [expiry])
  update : ∀ {s column row} (expiry : InstantMillis), Holds s column → row < column.length →
    Holds (ops.update s row expiry) (column.set row expiry)
  swapRemove : ∀ {s column row}, Holds s column → row < column.length →
    Holds (ops.swapRemove s row (column.length - 1)) (VecOps.swapRemove column row)
  earliestExact : ∀ {s column} (expiryOf : Nat → InstantMillis), Holds s column →
    ∃ column', Refiled expiryOf column column' ∧
      Holds (ops.earliestExact s column.length expiryOf).2 column'
  firstExpired : ∀ {s column} (now : InstantMillis) (expiryOf : Nat → InstantMillis),
    Holds s column →
    (∃ column', Refiled expiryOf column column' ∧
      Holds (ops.firstExpired s column.length now expiryOf).2 column') ∧
    ∀ row, (ops.firstExpired s column.length now expiryOf).1 = some row → row < column.length

/-- `LinearRouteExpiryIndex` keeps nothing. -/
def linearExpiries : ExpiryOps Unit where
  new := ()
  indexed := false
  invalidate _ := ()
  insert _ _ _ := ()
  update _ _ _ := ()
  swapRemove _ _ _ := ()
  prefersLinearCull _ _ _ := true
  earliestExact _ rowCount expiryOf := (((List.range rowCount).map expiryOf).min?, ())
  firstExpired _ rowCount now expiryOf :=
    ((List.range rowCount).find? (fun row => expiryOf row ≤ now), ())

def linearExpiries_lawful : LawfulExpiries linearExpiries where
  Holds _ _ := True
  new := trivial
  invalidate _ _ := trivial
  insert _ _ := trivial
  update _ _ _ := trivial
  swapRemove _ _ := trivial
  earliestExact _ _ := ⟨_, Or.inl rfl, trivial⟩
  firstExpired _ _ _ :=
    ⟨⟨_, Or.inl rfl, trivial⟩,
      fun _ h => List.mem_range.mp (List.mem_of_find?_eq_some h)⟩

/-! ### The roaring index -/

def routeExpiryQuantumMs : Nat := 5 * 60 * 1000

def linearCullMinCandidates : Nat := 4096

def linearCullDensityDenominator : Nat := 4

def dueCandidateCount (index : HeapTemporalIndex) (now : InstantMillis) : Nat :=
  if index.readiness ≠ .ready then u64Max
  else (index.keys.filter (· ≤ HeapTemporalIndex.dueEnd routeExpiryQuantumMs now)).card

def prefersLinearCull (index : HeapTemporalIndex) (rowCount : Nat) (now : InstantMillis) : Bool :=
  let candidates := dueCandidateCount index now
  candidates = u64Max ∨ (linearCullMinCandidates < candidates ∧
    rowCount < min u64Max (candidates * linearCullDensityDenominator))

/-- `RoaringRouteExpiryIndex`. -/
def roaringExpiries : ExpiryOps HeapTemporalIndex where
  new := HeapTemporalIndex.new
  indexed := true
  invalidate := HeapTemporalIndex.invalidate
  insert index row expiry := index.insert routeExpiryQuantumMs row (some expiry)
  update index row expiry := index.update routeExpiryQuantumMs row (some expiry)
  swapRemove := HeapTemporalIndex.swapRemove
  prefersLinearCull := prefersLinearCull
  earliestExact index rowCount expiryOf :=
    index.earliestExact routeExpiryQuantumMs rowCount fun row => some (expiryOf row)
  firstExpired index rowCount now expiryOf :=
    index.firstDueMatching routeExpiryQuantumMs rowCount now (fun row => some (expiryOf row))
      fun _ => true

section

open TemporalIndex TemporalIndex.HeapTemporalIndex

variable {quantumMs : Nat} {idx : HeapTemporalIndex} {column : List InstantMillis}

theorem rebuildLoop_congr {deadline deadline' : Nat → Option InstantMillis} {listed : List Nat}
    (h : ∀ row ∈ listed, deadline' row = deadline row) (idx : HeapTemporalIndex) :
    rebuildLoop quantumMs deadline' listed idx = rebuildLoop quantumMs deadline listed idx := by
  induction listed generalizing idx with
  | nil => rfl
  | cons row listed ih =>
    rw [rebuildLoop, rebuildLoop, h row List.mem_cons_self]
    cases idx.file quantumMs row (deadline row) with
    | none => rfl
    | some filed => exact ih (fun r hr => h r (List.mem_cons_of_mem _ hr)) filed

def deadlines (column : List InstantMillis) : Rows := column.map some

theorem deadlineOf_deadlines {expiryOf : Nat → InstantMillis} {count row : Nat} (h : row < count) :
    deadlineOf (deadlines ((List.range count).map expiryOf)) row = some (expiryOf row) := by
  rw [deadlineOf, deadlines, List.map_map, List.getD_eq_getElem?_getD, List.getElem?_map,
    List.getElem?_range h]
  rfl

/-- A query prepares the index: it files the rows anew, or leaves them. -/
theorem prepare_refiled (h : Inv quantumMs (deadlines column) idx)
    (expiryOf : Nat → InstantMillis) :
    ∃ column', Refiled expiryOf column column' ∧ Inv quantumMs (deadlines column')
      (idx.prepare quantumMs column.length fun row => some (expiryOf row)) := by
  unfold prepare
  by_cases hrebuild : idx.needsRebuild column.length = true
  · rw [if_pos hrebuild]
    refine ⟨_, Or.inr rfl, ?_⟩
    have hinv : Inv quantumMs (deadlines ((List.range column.length).map expiryOf)) _ :=
      rebuild_inv (deadlines ((List.range column.length).map expiryOf)) idx
    have hlen : (deadlines ((List.range column.length).map expiryOf)).length = column.length := by
      simp [deadlines]
    have hloop := @rebuildLoop_congr quantumMs (fun row => some (expiryOf row)) _
      (List.range column.length) (fun row hrow => deadlineOf_deadlines (List.mem_range.mp hrow))
      ⟨.invalid, ∅, []⟩
    rw [hlen, rebuild, hloop] at hinv
    exact hinv
  · rw [if_neg hrebuild]
    exact ⟨column, Or.inl rfl, h⟩

theorem length_deadlines (column : List InstantMillis) :
    (deadlines column).length = column.length := List.length_map _

/-- A row that the index offers is a row of the table, also when the rows have moved on
since they were filed. -/
theorem firstDueMatching_lt (h : Inv quantumMs (deadlines column) idx) (now : InstantMillis)
    (expiryOf : Nat → InstantMillis) {row : Nat}
    (hrow : (idx.firstDueMatching quantumMs column.length now (fun row => some (expiryOf row))
      fun _ => true).1 = some row) : row < column.length := by
  obtain ⟨column', hrefiled, hinv⟩ := prepare_refiled h expiryOf
  have hready := @prepare_readiness quantumMs idx column.length fun row => some (expiryOf row)
  unfold firstDueMatching at hrow
  generalize idx.prepare quantumMs column.length (fun row => some (expiryOf row)) = prepared
    at hrow hinv hready
  rcases hready with hfallback | hready
  · rw [if_pos hfallback] at hrow
    exact List.mem_range.mp (List.mem_of_find?_eq_some hrow)
  rw [if_neg (by rw [hready]; decide)] at hrow
  obtain ⟨key, hkey, rfl⟩ := List.mem_map.mp (List.mem_of_find?_eq_some hrow)
  obtain ⟨instant, hfiled, -⟩ :=
    (hinv hready).deadline_of_key (RoaringTreemap.mem_iter_takeWhile.mp hkey).1
  have hlength : column'.length = column.length := by
    rcases hrefiled with rfl | rfl
    · rfl
    · rw [List.length_map, List.length_range]
  rw [← hlength, ← length_deadlines]
  exact lt_length_of_deadlineOf hfiled

def roaringExpiries_lawful : LawfulExpiries roaringExpiries where
  Holds index column := Inv routeExpiryQuantumMs (deadlines column) index
  new := fun _ => filed_nil _
  invalidate index column := inv_invalidate _ _ _
  insert := by
    intro index column expiry h
    have hinsert := insert_inv h (some expiry)
    rw [length_deadlines] at hinsert
    show Inv _ (deadlines (column ++ [expiry])) _
    rw [deadlines, List.map_append]
    exact hinsert
  update := by
    intro index column row expiry h hrow
    have hupdate := update_inv h (some expiry) (by rw [length_deadlines]; exact hrow)
    show Inv _ (deadlines (column.set row expiry)) _
    rw [deadlines, List.map_set]
    exact hupdate
  swapRemove := by
    intro index column row h hrow
    have hremove := swapRemove_inv h (by rw [length_deadlines]; exact hrow)
    rw [length_deadlines, deadlines, ← KeyedRows.map_swapRemove] at hremove
    exact hremove
  earliestExact := by
    intro index column expiryOf h
    obtain ⟨column', hrefiled, hinv⟩ := prepare_refiled h expiryOf
    refine ⟨column', hrefiled, ?_⟩
    show Inv _ _ (index.earliestExact routeExpiryQuantumMs column.length _).2
    unfold HeapTemporalIndex.earliestExact
    dsimp only
    split
    · exact hinv
    · split
      · exact hinv
      · exact hinv
  firstExpired := by
    intro index column now expiryOf h
    obtain ⟨column', hrefiled, hinv⟩ := prepare_refiled h expiryOf
    refine ⟨⟨column', hrefiled, ?_⟩, fun row => firstDueMatching_lt h now expiryOf⟩
    show Inv _ _ (index.firstDueMatching routeExpiryQuantumMs column.length now _ _).2
    unfold firstDueMatching
    dsimp only
    split
    · exact hinv
    · exact hinv

end

end Prns.Ports.Routing
