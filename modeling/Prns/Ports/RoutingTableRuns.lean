import Prns.Ports.RoutingTableCoherence

/-!
# Runs of the routing table

Any sequence of calls, from an empty table. The table stays coherent throughout, whatever
was inserted, evicted, culled or undone on the way; the data store got every handle back
exactly once, apart from the handles that the rows own; and a lookup returns what the log of
calls and reports says was stored last.
-/

namespace Prns.Ports.Routing

open Verified
open Verified.VecOps
open Verified.KeyedRows
open TemporalIndex (InstantMillis HeapTemporalIndex)

variable {H D I : Type} {b : Backends H D I} {laws : Laws b} {envs : List Surroundings}
  {capacity : Nat} {t : RoutingTable H D I} {rows : List Row}

section

variable {Hash : Type} [DecidableEq Hash] (identityHash : IdentityPublicKeys → Hash)

theorem Shed.stored {result : List RemovedRoute × RoutingTable H D I}
    (h : Shed laws envs capacity rows result) :
    Stored laws envs capacity (forget result.1 (knownOf rows)) result.2 := by
  obtain ⟨rows', hcoherent, -, hknown⟩ := h
  exact ⟨rows', hcoherent, hknown⟩

theorem Stored.silent {known : DestinationHash → Option Known}
    (h : Stored laws envs capacity known t) : Stored laws envs capacity (forget [] known) t := by
  exact h

/-- A call keeps the table coherent, and what it did is what it reported. -/
theorem Coherent.perform (h : Coherent laws envs capacity t rows)
    (hlimit : capacity ≤ laws.history.limit) (hbare : Surroundings.bare ∈ envs) (op : Op Hash)
    (hop : ∀ env ∈ op.surroundings, env ∈ envs) :
    Stored laws envs capacity (op.learn b.history.depth (op.perform b identityHash t).1.stored
        (forget (op.perform b identityHash t).1.removed (knownOf rows)))
      (op.perform b identityHash t).2 := by
  cases op with
  | upsert arrival evidenceId retention env =>
    exact h.upsertRoute hlimit arrival evidenceId retention (hop env List.mem_cons_self) rfl
  | seed persisted evidenceId =>
    show Stored laws envs capacity (Op.learn _ _ (forget [] (knownOf rows)) _) _
    exact h.seedRoute hlimit hbare persisted evidenceId rfl
  | drop destination => exact (h.shed_dropRoute destination).stored
  | dropVia transport => exact Shed.stored h.shed_all
  | dropForIdentity identity => exact Shed.stored h.shed_all
  | cull now env => exact Shed.stored h.shed_all
  | cullIndexed now env =>
    exact (h.shed_cullExpiredIndexed (hop env List.mem_cons_self) now).stored
  | markResponsiveness destination responsiveness =>
    apply Stored.silent
    show Stored laws envs capacity _ (t.markResponsiveness destination responsiveness)
    unfold RoutingTable.markResponsiveness
    exact h.adjust_same destination (fun _ _ => rfl) fun i row hi =>
      ⟨row.expiry, h.setRow_same hi _ fun _ => rfl⟩
  | applyRouteEvidence handle observedAt =>
    exact (h.applyRouteEvidence hbare handle observedAt).silent
  | markUnresponsive handle attemptStartedAt =>
    exact (h.markUnresponsive handle attemptStartedAt).silent
  | noteRelayed destination now =>
    apply Stored.silent
    show Stored laws envs capacity _ (t.noteRelayed b destination now)
    unfold RoutingTable.noteRelayed
    exact h.adjust_same destination (fun _ _ => rfl) fun i row hi =>
      ⟨_, h.setRow_invalidate hbare hi _⟩
  | noteRelayedWithWarmth destination now env =>
    apply Stored.silent
    show Stored laws envs capacity _ (t.noteRelayedWithWarmth b destination now env)
    unfold RoutingTable.noteRelayedWithWarmth
    exact h.adjust_same destination (fun _ _ => rfl) fun i row hi =>
      ⟨_, h.setRow_update (hop env List.mem_cons_self) hi _⟩
  | rebalanceHops destination hops =>
    show Stored laws envs capacity (Op.learn _ _ (forget [] (knownOf rows)) _)
      (t.rebalanceHops destination hops)
    unfold RoutingTable.rebalanceHops
    exact h.adjust destination (Known.rebalance hops) (fun _ _ => rfl) fun i row hi =>
      ⟨row.expiry, h.setRow_same hi _ fun _ => rfl⟩
  | repoint previous current now =>
    show Stored laws envs capacity (Op.learn _ _ (forget [] (knownOf rows)) _) _
    exact h.repointRoutes hbare previous current now
  | soonestExpiry env =>
    exact (h.soonestRouteExpiry (hop env List.mem_cons_self)).silent
  | invalidate => exact Stored.silent ⟨rows, h.invalidate, rfl⟩

theorem Coherent.run (hlimit : capacity ≤ laws.history.limit) (hbare : Surroundings.bare ∈ envs)
    (ops : List (Op Hash)) (hops : ∀ op ∈ ops, ∀ env ∈ op.surroundings, env ∈ envs)
    (h : Coherent laws envs capacity t rows) :
    Stored laws envs capacity
      (knownAfter b.history.depth (knownOf rows) (run b identityHash t ops).1)
      (run b identityHash t ops).2 := by
  induction ops generalizing t rows with
  | nil => exact ⟨rows, h, rfl⟩
  | cons op ops ih =>
    obtain ⟨rows', hcoherent, hknown⟩ :=
      h.perform identityHash hlimit hbare op (hops op List.mem_cons_self)
    have hrest := ih (fun op' hop' => hops op' (List.mem_cons_of_mem _ hop')) hcoherent
    rw [hknown] at hrest
    exact hrest

end

/-- The same backends, and a record of what the data store gave out and got back. -/
def Backends.recorded (b : Backends H D I) : Backends H (D × List StoreCall) I where
  history := b.history
  appData := b.appData.recorded
  expiries := b.expiries

def Laws.recorded (laws : Laws b) : Laws b.recorded where
  history := laws.history
  appData := laws.appData.recorded
  expiries := laws.expiries

theorem Coherent.outstanding {t : RoutingTable H (D × List StoreCall) I}
    (h : Coherent laws.recorded envs capacity t rows) :
    ∃ out, outstanding t.announceAppData.2 = some out ∧ out.Perm (rows.map Row.handle) := by
  obtain ⟨out, hout, hnodup, hmem⟩ := h.appData.2
  refine ⟨out, hout, (List.perm_ext_iff_of_nodup hnodup h.handles).mpr fun handle => ?_⟩
  rw [hmem, Option.isSome_iff_ne_none, ne_eq, payloads, view_eq_none_iff, lookup_eq_none_iff,
    not_not]

/-- The surroundings that a run is given, and no surroundings at all. -/
def seen {Hash : Type} (ops : List (Op Hash)) : List Surroundings :=
  .bare :: ops.flatMap Op.surroundings

/-- After any sequence of calls, the columns are those of one list of rows, without a
destination or a handle twice; the data store has given out exactly the handles of the rows
and got back every other one, once; and lookups return what was stored last. -/
theorem table_stays_coherent (laws : Laws b) {Hash : Type} [DecidableEq Hash]
    (identityHash : IdentityPublicKeys → Hash) (routeCapacity recordCapacity : Nat)
    (hlimit : min routeCapacity recordCapacity ≤ laws.history.limit) (ops : List (Op Hash)) :
    let result := run b.recorded identityHash
      (RoutingTable.empty b.recorded routeCapacity recordCapacity) ops
    let known := knownAfter b.history.depth (fun _ => none) result.1
    (∃ rows, Coherent laws.recorded (seen ops) (min routeCapacity recordCapacity) result.2 rows ∧
      ∃ out, outstanding result.2.announceAppData.2 = some out ∧ out.Perm (rows.map Row.handle)) ∧
    ∀ destination, result.2.storedAnnounceFor b.recorded destination =
        (known destination).map Known.announce ∧
      ∀ env, (result.2.existingRouteFor b.recorded destination env).map
        ExistingRoute.announceIdHistory = (known destination).map Known.ids := by
  intro result known
  have hempty := coherent_empty laws.recorded (seen ops) routeCapacity recordCapacity
  have hops : ∀ op ∈ ops, ∀ env ∈ op.surroundings, env ∈ seen ops := fun op hop env henv =>
    List.mem_cons_of_mem _ (List.mem_flatMap.mpr ⟨op, hop, henv⟩)
  obtain ⟨rows, hcoherent, hknown⟩ :=
    hempty.run identityHash (show _ ≤ laws.recorded.history.limit from hlimit)
      List.mem_cons_self ops hops
  replace hknown : knownOf rows = known := hknown
  refine ⟨⟨rows, hcoherent, hcoherent.outstanding⟩, fun destination => ?_⟩
  rw [← hknown]
  exact ⟨hcoherent.storedAnnounceFor destination, hcoherent.existingRouteFor destination⟩

def heapBackends : Backends HeapAnnounceIdHistory HeapAnnounceAppData HeapTemporalIndex where
  history := HeapAnnounceIdHistory.ops
  appData := HeapAnnounceAppData.ops
  expiries := roaringExpiries

/-- The heap history has room for any number of rows. -/
def heapLaws (limit : Nat) : Laws heapBackends where
  history := HeapAnnounceIdHistory.lawful limit
  appData := HeapAnnounceAppData.lawful
  expiries := roaringExpiries_lawful

def sampleAnnounce (destination : UInt8) (appData : List UInt8) : Announce where
  destination := Vector.replicate 16 destination
  publicKeys := ⟨Vector.replicate 32 destination, Vector.replicate 32 destination⟩
  dottedNameHash := Vector.replicate 10 0
  announceId := Vector.replicate 10 destination
  ratchet := none
  signature := Vector.replicate 64 0
  appData := appData

def sampleArrival (destination : UInt8) (arrivedAt : InstantMillis) (appData : List UInt8) :
    AnnounceArrival where
  announce := sampleAnnounce destination appData
  hops := 1
  arrivedAt := arrivedAt
  receivingInterface := Vector.replicate 8 0
  nextHop := .direct

/-- A table of two rows: the third destination takes the place of the first, which has
expired, the second one is announced again, and the third one is dropped. -/
def sampleOps : List (Op IdentityPublicKeys) :=
  [.upsert (sampleArrival 1 0 [10]) 1 .network .bare,
    .upsert (sampleArrival 2 5 [20]) 2 .network .bare,
    .upsert (sampleArrival 3 3 [30]) 3 .network .bare,
    .upsert (sampleArrival 2 9 [21]) 4 .network .bare,
    .drop (Vector.replicate 16 3)]

theorem table_stays_coherent_sample :
    let result := run heapBackends.recorded id
      (RoutingTable.empty heapBackends.recorded 2 2) sampleOps
    (∃ rows, Coherent (heapLaws 2).recorded (seen sampleOps) 2 result.2 rows ∧
      ∃ out, outstanding result.2.announceAppData.2 = some out ∧ out.Perm (rows.map Row.handle)) ∧
    (result.2.storedAnnounceFor heapBackends.recorded (Vector.replicate 16 2)).map
      (fun stored => stored.announce.appData) = some [21] := by
  have hall := table_stays_coherent (heapLaws 2) id 2 2 (Nat.le_refl 2) sampleOps
  refine ⟨hall.1, ?_⟩
  decide

end Prns.Ports.Routing
