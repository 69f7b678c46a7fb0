import Prns.Ports.RoutingColumns
import Mathlib.Data.List.MinMax

/-!
# The routing table

One route for each destination, in five columns that are stored apart: the routes, the
announce records, the histories of announce identifiers, the application data and the
expiries. A row is pushed to all of them and swap-removed from all of them.

The route and record tables are lists of rows with a capacity; `index_of` is the position
of the destination, which is what the indexes of the backends answer. The other columns
are the backends of `RoutingColumns`. A callback that is told about removed routes is a
list of what it was told.
-/

namespace Prns.Ports.Routing

open Verified
open Verified.VecOps
open TemporalIndex (InstantMillis u64Max)

inductive InterfaceMode where
  | full
  | pointToPoint
  | accessPoint
  | roaming
  | boundary
  | gateway
  | internal
  deriving DecidableEq, Repr

/-- The part of a descriptor that the table reads. -/
structure InterfaceDescriptor where
  mode : InterfaceMode
  gravity : Int
  deriving DecidableEq, Repr

/-- The attached interfaces and the warmth of departed ones. -/
structure Surroundings where
  descriptorFor : InterfaceId → Option InterfaceDescriptor
  warmUntil : InterfaceId → Option InstantMillis

/-- Nothing attached, and no warmth. -/
def Surroundings.bare : Surroundings := ⟨fun _ => none, fun _ => none⟩

def defaultRouteExpiryMillis : Nat := 60 * 60 * 24 * 7 * 1000

def accessPointRouteExpiryMillis : Nat := 60 * 60 * 24 * 1000

def roamingRouteExpiryMillis : Nat := 60 * 60 * 6 * 1000

def routeExpiryMillis : InterfaceMode → Nat
  | .accessPoint => accessPointRouteExpiryMillis
  | .roaming => roamingRouteExpiryMillis
  | .full | .pointToPoint | .boundary | .gateway | .internal => defaultRouteExpiryMillis

def InstantMillis.saturatingAdd (instant : InstantMillis) (duration : Nat) : InstantMillis :=
  min u64Max (instant + duration)

inductive NextHop where
  | direct
  | via (transport : TransportId)
  deriving DecidableEq

inductive RouteResponsiveness where
  | unknown
  | responsive
  | unresponsive
  deriving DecidableEq, Repr

inductive RouteRetention where
  | network
  | ephemeral (expiresAfter : Nat)
  deriving DecidableEq, Repr

def RouteRetention.constrainExpiry (learnedAt networkExpiry : InstantMillis) :
    RouteRetention → InstantMillis
  | .network => networkExpiry
  | .ephemeral expiresAfter =>
    let expiresAt := InstantMillis.saturatingAdd learnedAt expiresAfter
    if expiresAt < networkExpiry then expiresAt else networkExpiry

structure RouteEntry where
  hops : UInt8
  learnedAt : InstantMillis
  lastRouteActivityAt : InstantMillis
  responsiveness : RouteResponsiveness
  receivingInterface : InterfaceId
  nextHop : NextHop
  retention : RouteRetention
  deriving DecidableEq

abbrev RouteEvidenceId := Nat

/-- A row of the route table. -/
structure RouteRow where
  destination : DestinationHash
  evidenceId : RouteEvidenceId
  entry : RouteEntry
  deriving DecidableEq

structure AnnounceRecord where
  publicKeys : IdentityPublicKeys
  dottedNameHash : DottedNameHash
  announceId : AnnounceId
  ratchet : Option RatchetKey
  signature : Ed25519Signature
  maybeAppDataHandle : Option AppDataHandle
  deriving DecidableEq

structure Announce where
  destination : DestinationHash
  publicKeys : IdentityPublicKeys
  dottedNameHash : DottedNameHash
  announceId : AnnounceId
  ratchet : Option RatchetKey
  signature : Ed25519Signature
  appData : List UInt8
  deriving DecidableEq

/-- The record of an announce whose data is stored under a handle. -/
def Announce.record (announce : Announce) (handle : AppDataHandle) : AnnounceRecord where
  publicKeys := announce.publicKeys
  dottedNameHash := announce.dottedNameHash
  announceId := announce.announceId
  ratchet := announce.ratchet
  signature := announce.signature
  maybeAppDataHandle := some handle

structure AnnounceArrival where
  announce : Announce
  hops : UInt8
  arrivedAt : InstantMillis
  receivingInterface : InterfaceId
  nextHop : NextHop
  deriving DecidableEq

/-- The entry of a route that was just announced. -/
def AnnounceArrival.entry (arrival : AnnounceArrival) (retention : RouteRetention) :
    RouteEntry where
  hops := arrival.hops
  learnedAt := arrival.arrivedAt
  lastRouteActivityAt := 0
  responsiveness := .unknown
  receivingInterface := arrival.receivingInterface
  nextHop := arrival.nextHop
  retention := retention

structure StoredAnnounce where
  hops : UInt8
  receivingInterface : InterfaceId
  nextHop : NextHop
  announce : Announce
  deriving DecidableEq

structure ExistingRoute where
  hops : UInt8
  expiresAt : InstantMillis
  announceIdHistory : List AnnounceId
  responsiveness : RouteResponsiveness
  interfaceGravity : Option Int
  deriving DecidableEq

def announceIdWireLen : Nat := 10

inductive AnnounceIdRing where
  | table (ids : List AnnounceId)
  | wire (bytes : List UInt8)

/-- Oldest first; an incomplete identifier at the end of the wire form is ignored. -/
def AnnounceIdRing.ids : AnnounceIdRing → List AnnounceId
  | .table ids => ids
  | .wire bytes =>
    (List.range (bytes.length / announceIdWireLen)).map fun i =>
      Vector.ofFn fun j : Fin 10 => bytes.getD (announceIdWireLen * i + j) 0

structure PersistedRouteRow where
  announce : Announce
  entry : RouteEntry
  announceIdRing : AnnounceIdRing

structure Backends (H D I : Type) where
  history : IdHistoryOps H
  appData : AppDataOps D
  expiries : ExpiryOps I

structure RoutingTable (H D I : Type) where
  routeCapacity : Nat
  recordCapacity : Nat
  routes : List RouteRow
  announceRecords : List AnnounceRecord
  announceIdHistory : H
  announceAppData : D
  routeExpiries : I

inductive RouteRemovalCause where
  | expired
  | evicted
  | interfaceGone
  | dropped
  deriving DecidableEq, Repr

structure RemovedRoute where
  destination : DestinationHash
  receivingInterface : InterfaceId
  cause : RouteRemovalCause
  deriving DecidableEq

inductive DropCause where
  | routingTableFull
  | payloadArenaFull
  deriving DecidableEq, Repr

inductive UpsertRouteOutcome where
  | inserted
  | updated
  | dropped (cause : DropCause)
  deriving DecidableEq, Repr

inductive SeedRouteOutcome where
  | seeded
  | alreadyPresent
  | tableFull
  | appDataArenaFull
  deriving DecidableEq, Repr

structure RouteEvidenceHandle where
  id : RouteEvidenceId
  rowHint : Nat
  deriving DecidableEq, Repr

variable {H D I : Type} (b : Backends H D I)

namespace RoutingTable

def empty (routeCapacity recordCapacity : Nat) : RoutingTable H D I where
  routeCapacity := routeCapacity
  recordCapacity := recordCapacity
  routes := []
  announceRecords := []
  announceIdHistory := b.history.new
  announceAppData := b.appData.new
  routeExpiries := b.expiries.new

variable (t : RoutingTable H D I)

def destinationCapacity : Nat := min t.routeCapacity t.recordCapacity

def indexOf (destination : DestinationHash) : Option Nat :=
  t.routes.findIdx? fun row => row.destination = destination

end RoutingTable

namespace RouteEntry

variable (entry : RouteEntry) (env : Surroundings)

def lastActiveAt : InstantMillis := max entry.learnedAt entry.lastRouteActivityAt

def expiryFromAnchor (anchor : InstantMillis) : InstantMillis :=
  let networkExpiry :=
    match env.descriptorFor entry.receivingInterface with
    | some descriptor => InstantMillis.saturatingAdd anchor (routeExpiryMillis descriptor.mode)
    | none => (env.warmUntil entry.receivingInterface).getD anchor
  entry.retention.constrainExpiry entry.learnedAt networkExpiry

def expiryWithWarmth : InstantMillis := entry.expiryFromAnchor env entry.lastActiveAt

/-- A route that is known to work keeps the clock of its last activity. -/
def gateExpiry : InstantMillis :=
  let unwarmed := { env with warmUntil := fun _ => none }
  match entry.responsiveness with
  | .responsive => entry.expiryFromAnchor unwarmed entry.lastActiveAt
  | .unknown | .unresponsive => entry.expiryFromAnchor unwarmed entry.learnedAt

end RouteEntry

namespace RoutingTable

variable (t : RoutingTable H D I)

/-- A row that does not exist is never asked for. -/
def expiryOfWithWarmth (env : Surroundings) (i : Nat) : InstantMillis :=
  (t.routes[i]?.map fun row => row.entry.expiryWithWarmth env).getD 0

/-! ### Removal -/

def routeRemovalAt (row : Nat) (cause : RouteRemovalCause) : List RemovedRoute :=
  (t.routes[row]?.map fun route =>
    ⟨route.destination, route.entry.receivingInterface, cause⟩).toList

def removeRouteAt (row : Nat) : RoutingTable H D I :=
  let last := t.routes.length - 1
  let freed := t.announceRecords[row]?.bind (·.maybeAppDataHandle)
  { t with
    announceAppData :=
      match freed with
      | some handle => b.appData.free t.announceAppData handle
      | none => t.announceAppData
    routes := swapRemove t.routes row
    announceRecords := swapRemove t.announceRecords row
    announceIdHistory := b.history.swapRemove t.announceIdHistory row last
    routeExpiries := b.expiries.swapRemove t.routeExpiries row last }

def dropRoute (destination : DestinationHash) : List RemovedRoute × RoutingTable H D I :=
  match t.indexOf destination with
  | none => ([], t)
  | some row => (t.routeRemovalAt row .dropped, t.removeRouteAt b row)

/-- The loop over all rows that removes a row where it stands or goes on to the next one.
`rest` counts the rows from `row` on. -/
def sweep (cause : RoutingTable H D I → Nat → Option RouteRemovalCause) :
    (rest row : Nat) → RoutingTable H D I → List RemovedRoute × RoutingTable H D I
  | 0, _, t => ([], t)
  | rest + 1, row, t =>
    match cause t row with
    | none => sweep cause rest (row + 1) t
    | some cause' =>
      let removed := t.routeRemovalAt row cause'
      let (more, t) := sweep cause rest row (t.removeRouteAt b row)
      (removed ++ more, t)

/-- Rows whose route or record is looked at. -/
def dropWhere (condemned : RouteRow → AnnounceRecord → Bool) :
    List RemovedRoute × RoutingTable H D I :=
  sweep b (fun t row =>
    match t.routes[row]?, t.announceRecords[row]? with
    | some route, some record => if condemned route record then some .dropped else none
    | _, _ => none) t.routes.length 0 t

def dropRoutesVia (transport : TransportId) : List RemovedRoute × RoutingTable H D I :=
  t.dropWhere b fun route _ => route.entry.nextHop = .via transport

def dropRoutesForIdentity {Hash : Type} [DecidableEq Hash]
    (identityHash : IdentityPublicKeys → Hash) (identity : Hash) :
    List RemovedRoute × RoutingTable H D I :=
  t.dropWhere b fun _ record => identityHash record.publicKeys = identity

/-- The cause that `remove_expired_route` gives. -/
def expiryCause (env : Surroundings) (row : Nat) : RouteRemovalCause :=
  match t.routes[row]?.bind fun route => env.descriptorFor route.entry.receivingInterface with
  | some _ => .expired
  | none => .interfaceGone

def cullExpiredRoutesWithWarmth (now : InstantMillis) (env : Surroundings) :
    List RemovedRoute × RoutingTable H D I :=
  sweep b (fun t row =>
    if t.expiryOfWithWarmth env row ≤ now then some (t.expiryCause env row) else none)
    t.routes.length 0 t

def cullIndexed (now : InstantMillis) (env : Surroundings) :
    (rounds : Nat) → RoutingTable H D I → List RemovedRoute × RoutingTable H D I
  | 0, t => ([], t)
  | rounds + 1, t =>
    let (first, expiries) := b.expiries.firstExpired t.routeExpiries t.routes.length now
      (t.expiryOfWithWarmth env)
    let t := { t with routeExpiries := expiries }
    match first with
    | none => ([], t)
    | some row =>
      let removed := t.routeRemovalAt row (t.expiryCause env row)
      let (more, t) := cullIndexed now env rounds (t.removeRouteAt b row)
      (removed ++ more, t)

def invalidateRouteExpiries : RoutingTable H D I :=
  { t with routeExpiries := b.expiries.invalidate t.routeExpiries }

/-- One round more than there are rows: the last one finds nothing. -/
def cullExpiredRoutesIndexedWithWarmth (now : InstantMillis) (env : Surroundings) :
    List RemovedRoute × RoutingTable H D I :=
  if ¬ b.expiries.indexed then t.cullExpiredRoutesWithWarmth b now env
  else if b.expiries.prefersLinearCull t.routeExpiries t.routes.length now then
    (t.invalidateRouteExpiries b).cullExpiredRoutesWithWarmth b now env
  else cullIndexed b now env (t.routes.length + 1) t

def soonestRouteExpiryIndexedWithWarmth (env : Surroundings) :
    Option InstantMillis × RoutingTable H D I :=
  let (soonest, expiries) := b.expiries.earliestExact t.routeExpiries t.routes.length
    (t.expiryOfWithWarmth env)
  (soonest, { t with routeExpiries := expiries })

/-! ### Learning -/

/-- The first of the rows that expire soonest goes; `none` if there is none. -/
def evictRouteNearestExpiry (env : Surroundings) :
    Option (List RemovedRoute × RoutingTable H D I) :=
  ((List.range t.routes.length).argmin (t.expiryOfWithWarmth env)).map fun i =>
    (t.routeRemovalAt i .evicted, t.removeRouteAt b i)

/-- The pushes to the two tables. If one of them is full, what was done so far is undone. -/
def pushRow (row : RouteRow) (record : AnnounceRecord) (handle : AppDataHandle) :
    Option Nat × RoutingTable H D I :=
  let release (t : RoutingTable H D I) :=
    { t with announceAppData := b.appData.free t.announceAppData handle }
  if t.routes.length ≥ t.routeCapacity then (none, release t)
  else
    let routesSlot := t.routes.length
    let t := { t with routes := t.routes ++ [row] }
    if t.announceRecords.length ≥ t.recordCapacity then
      (none, release { t with routes := swapRemove t.routes routesSlot })
    else (some routesSlot, { t with announceRecords := t.announceRecords ++ [record] })

/-- Stores the data of an announce, for which a route is given up if need be. -/
def insertAppData (env : Surroundings) (bytes : List UInt8) :
    Option AppDataHandle × List RemovedRoute × RoutingTable H D I :=
  match b.appData.insert t.announceAppData bytes with
  | (.ok handle, d) => (some handle, [], { t with announceAppData := d })
  | (.error _, d) =>
    let t := { t with announceAppData := d }
    match t.evictRouteNearestExpiry b env with
    | none => (none, [], t)
    | some (removed, t) =>
      match b.appData.insert t.announceAppData bytes with
      | (.ok handle, d) => (some handle, removed, { t with announceAppData := d })
      | (.error _, d) => (none, removed, { t with announceAppData := d })

def insertNewRoute (arrival : AnnounceArrival) (evidenceId : RouteEvidenceId)
    (retention : RouteRetention) (env : Surroundings) :
    UpsertRouteOutcome × List RemovedRoute × RoutingTable H D I :=
  if t.routes.length ≥ t.destinationCapacity then (.dropped .routingTableFull, [], t)
  else
    match t.insertAppData b env arrival.announce.appData with
    | (none, removed, t) => (.dropped .payloadArenaFull, removed, t)
    | (some handle, removed, t) =>
      let row := ⟨arrival.announce.destination, evidenceId, arrival.entry retention⟩
      match t.pushRow b row (arrival.announce.record handle) handle with
      | (none, t) => (.dropped .routingTableFull, removed, t)
      | (some slot, t) =>
        let t := { t with
          announceIdHistory :=
            b.history.remember t.announceIdHistory slot arrival.announce.announceId }
        (.inserted, removed, { t with
          routeExpiries := b.expiries.insert t.routeExpiries slot (t.expiryOfWithWarmth env slot) })

def setRow (i : Nat) (entry : RouteEntry) : RoutingTable H D I :=
  { t with routes := t.routes.modify i fun row => { row with entry := entry } }

def setEvidenceId (i : Nat) (evidenceId : RouteEvidenceId) : RoutingTable H D I :=
  { t with routes := t.routes.modify i fun row => { row with evidenceId := evidenceId } }

def refreshExistingRoute (i : Nat) (arrival : AnnounceArrival)
    (replacementEvidenceId : RouteEvidenceId) (retention : RouteRetention)
    (env : Surroundings) : UpsertRouteOutcome × RoutingTable H D I :=
  let pathChanged := t.routes[i]?.any fun row =>
    row.entry.receivingInterface ≠ arrival.receivingInterface ∨
      row.entry.nextHop ≠ arrival.nextHop
  match t.announceRecords[i]?.bind (·.maybeAppDataHandle) with
  | none => (.dropped .payloadArenaFull, t)
  | some handle =>
    match b.appData.replace t.announceAppData handle arrival.announce.appData with
    | (.error _, d) => (.dropped .payloadArenaFull, { t with announceAppData := d })
    | (.ok _, d) =>
      let t := { t with announceAppData := d }
      let t := t.setRow i (arrival.entry retention)
      let t := if pathChanged then t.setEvidenceId i replacementEvidenceId else t
      let t := { t with
        announceRecords := t.announceRecords.set i (arrival.announce.record handle)
        announceIdHistory :=
          b.history.remember t.announceIdHistory i arrival.announce.announceId }
      (.updated, { t with
        routeExpiries := b.expiries.update t.routeExpiries i (t.expiryOfWithWarmth env i) })

/-- A full table is culled, and if that does not help, a route is evicted. -/
def makeRoom (now : InstantMillis) (env : Surroundings) :
    List RemovedRoute × RoutingTable H D I :=
  if t.routes.length ≥ t.destinationCapacity then
    let (culled, t) := t.cullExpiredRoutesWithWarmth b now env
    if t.routes.length ≥ t.destinationCapacity then
      match t.evictRouteNearestExpiry b env with
      | none => (culled, t)
      | some (evicted, t) => (culled ++ evicted, t)
    else (culled, t)
  else ([], t)

def upsertRouteWithRetentionAndWarmth (arrival : AnnounceArrival)
    (replacementEvidenceId : RouteEvidenceId) (retention : RouteRetention)
    (env : Surroundings) : UpsertRouteOutcome × List RemovedRoute × RoutingTable H D I :=
  match t.indexOf arrival.announce.destination with
  | none =>
    let (gone, t) := t.makeRoom b arrival.arrivedAt env
    let (outcome, removed, t) := t.insertNewRoute b arrival replacementEvidenceId retention env
    (outcome, gone ++ removed, t)
  | some i =>
    let (outcome, t) := t.refreshExistingRoute b i arrival replacementEvidenceId retention env
    (outcome, [], t)

def seedRoute (row : PersistedRouteRow) (evidenceId : RouteEvidenceId) :
    SeedRouteOutcome × RoutingTable H D I :=
  if (t.indexOf row.announce.destination).isSome then (.alreadyPresent, t)
  else if t.routes.length ≥ t.destinationCapacity then (.tableFull, t)
  else
    match b.appData.insert t.announceAppData row.announce.appData with
    | (.error _, d) => (.appDataArenaFull, { t with announceAppData := d })
    | (.ok handle, d) =>
      let t := { t with announceAppData := d }
      let entry := { row.entry with retention := .network }
      let route := ⟨row.announce.destination, evidenceId, entry⟩
      match t.pushRow b route (row.announce.record handle) handle with
      | (none, t) => (.tableFull, t)
      | (some slot, t) =>
        let t := { t with
          announceIdHistory := row.announceIdRing.ids.foldl
            (fun history id => b.history.remember history slot id) t.announceIdHistory }
        (.seeded, t.invalidateRouteExpiries b)

/-! ### Updates -/

/-- `u16::MAX` stands for every row that does not fit. -/
def routeEvidenceRowHint (row : Nat) : Nat := if row < 2 ^ 16 then row else 2 ^ 16 - 1

def routeEvidenceScanStart (rowHint len : Nat) : Nat :=
  if rowHint = 2 ^ 16 - 1 then len - 1 else min rowHint (len - 1)

/-- The row of an evidence identifier, searched from the hint downwards. -/
def resolveRouteEvidence (handle : RouteEvidenceHandle) : Option Nat × RouteEvidenceHandle :=
  let len := t.routes.length
  if len = 0 then (none, handle)
  else
    let start := routeEvidenceScanStart handle.rowHint len
    match (List.range (start + 1)).reverse.find? fun row =>
      t.routes[row]?.any fun route => route.evidenceId = handle.id with
    | none => (none, handle)
    | some row => (some row, { handle with rowHint := routeEvidenceRowHint row })

/-- Rewrites the entry that the evidence is about, unless there is nothing to change. -/
def withRouteEvidence (handle : RouteEvidenceHandle) (change : RouteEntry → Option RouteEntry)
    (settle : RoutingTable H D I → RoutingTable H D I) :
    Bool × RouteEvidenceHandle × RoutingTable H D I :=
  match t.resolveRouteEvidence handle with
  | (none, handle) => (false, handle, t)
  | (some i, handle) =>
    match t.routes[i]?.bind fun row => change row.entry with
    | none => (false, handle, t)
    | some entry => (true, handle, settle (t.setRow i entry))

def applyRouteEvidence (handle : RouteEvidenceHandle) (observedAt : InstantMillis) :
    Bool × RouteEvidenceHandle × RoutingTable H D I :=
  t.withRouteEvidence handle (fun entry =>
    let lastRouteActivity := max entry.lastRouteActivityAt observedAt
    if lastRouteActivity ≠ entry.lastRouteActivityAt ∨ entry.responsiveness ≠ .responsive then
      some { entry with
        lastRouteActivityAt := lastRouteActivity
        responsiveness := .responsive }
    else none) (·.invalidateRouteExpiries b)

def markUnresponsiveIfNotActiveSince (handle : RouteEvidenceHandle)
    (attemptStartedAt : InstantMillis) : Bool × RouteEvidenceHandle × RoutingTable H D I :=
  t.withRouteEvidence handle (fun entry =>
    if entry.lastActiveAt > attemptStartedAt ∨ entry.responsiveness = .unresponsive then none
    else some { entry with responsiveness := .unresponsive }) id

/-- Rewrites the entry of a destination, if it has a route. -/
def adjust (destination : DestinationHash) (change : RouteEntry → RouteEntry)
    (settle : Nat → RoutingTable H D I → RoutingTable H D I) : RoutingTable H D I :=
  match t.indexOf destination with
  | none => t
  | some i =>
    match t.routes[i]? with
    | none => t
    | some row => settle i (t.setRow i (change row.entry))

def markResponsiveness (destination : DestinationHash) (responsiveness : RouteResponsiveness) :
    RoutingTable H D I :=
  t.adjust destination (fun entry => { entry with responsiveness := responsiveness })
    fun _ t => t

def rebalanceHops (destination : DestinationHash) (hops : UInt8) : RoutingTable H D I :=
  t.adjust destination (fun entry => { entry with hops := hops }) fun _ t => t

def noteRelayed (destination : DestinationHash) (now : InstantMillis) : RoutingTable H D I :=
  t.adjust destination (fun entry => { entry with lastRouteActivityAt := now })
    fun _ t => t.invalidateRouteExpiries b

def noteRelayedWithWarmth (destination : DestinationHash) (now : InstantMillis)
    (env : Surroundings) : RoutingTable H D I :=
  t.adjust destination (fun entry => { entry with lastRouteActivityAt := now }) fun i t =>
    { t with routeExpiries := b.expiries.update t.routeExpiries i (t.expiryOfWithWarmth env i) }

end RoutingTable

/-- A route over the interface `previous` goes over `current` from now on. -/
def RouteRow.repoint (previous current : InterfaceId) (now : InstantMillis) (row : RouteRow) :
    RouteRow :=
  if row.entry.receivingInterface ≠ previous then row
  else { row with
    entry := { row.entry with receivingInterface := current, lastRouteActivityAt := now } }

namespace RoutingTable

variable (t : RoutingTable H D I)

def repointRoutes (previous current : InterfaceId) (now : InstantMillis) :
    Nat × RoutingTable H D I :=
  let moved := t.routes.countP fun row => row.entry.receivingInterface = previous
  let t := { t with routes := t.routes.map (RouteRow.repoint previous current now) }
  (moved, if moved ≠ 0 then t.invalidateRouteExpiries b else t)

def storedAnnounceFor (destination : DestinationHash) : Option StoredAnnounce := do
  let i ← t.indexOf destination
  let route ← t.routes[i]?
  let record ← t.announceRecords[i]?
  let handle ← record.maybeAppDataHandle
  return {
    hops := route.entry.hops
    receivingInterface := route.entry.receivingInterface
    nextHop := route.entry.nextHop
    announce := {
      destination := route.destination
      publicKeys := record.publicKeys
      dottedNameHash := record.dottedNameHash
      announceId := record.announceId
      ratchet := record.ratchet
      signature := record.signature
      appData := b.appData.get t.announceAppData handle } }

def existingRouteFor (destination : DestinationHash) (env : Surroundings) :
    Option ExistingRoute := do
  let i ← t.indexOf destination
  let route ← t.routes[i]?
  return {
    hops := route.entry.hops
    expiresAt := route.entry.gateExpiry env
    announceIdHistory := b.history.history t.announceIdHistory i
    responsiveness := route.entry.responsiveness
    interfaceGravity :=
      (env.descriptorFor route.entry.receivingInterface).map (·.gravity) }

end RoutingTable

/-- A call of the table. -/
inductive Op (Hash : Type) where
  | upsert (arrival : AnnounceArrival) (replacementEvidenceId : RouteEvidenceId)
      (retention : RouteRetention) (env : Surroundings)
  | seed (row : PersistedRouteRow) (evidenceId : RouteEvidenceId)
  | drop (destination : DestinationHash)
  | dropVia (transport : TransportId)
  | dropForIdentity (identity : Hash)
  | cull (now : InstantMillis) (env : Surroundings)
  | cullIndexed (now : InstantMillis) (env : Surroundings)
  | markResponsiveness (destination : DestinationHash) (responsiveness : RouteResponsiveness)
  | applyRouteEvidence (handle : RouteEvidenceHandle) (observedAt : InstantMillis)
  | markUnresponsive (handle : RouteEvidenceHandle) (attemptStartedAt : InstantMillis)
  | noteRelayed (destination : DestinationHash) (now : InstantMillis)
  | noteRelayedWithWarmth (destination : DestinationHash) (now : InstantMillis)
      (env : Surroundings)
  | rebalanceHops (destination : DestinationHash) (hops : UInt8)
  | repoint (previous current : InterfaceId) (now : InstantMillis)
  | soonestExpiry (env : Surroundings)
  | invalidate

/-- The surroundings that a call is given. -/
def Op.surroundings {Hash : Type} : Op Hash → List Surroundings
  | .upsert _ _ _ env => [env]
  | .cull _ env => [env]
  | .cullIndexed _ env => [env]
  | .noteRelayedWithWarmth _ _ env => [env]
  | .soonestExpiry env => [env]
  | _ => []

/-- What the caller of the table is told, as far as it is about stored announces. -/
structure Report where
  stored : Bool
  removed : List RemovedRoute
  deriving DecidableEq

def UpsertRouteOutcome.stored : UpsertRouteOutcome → Bool
  | .inserted | .updated => true
  | .dropped _ => false

section

variable {Hash : Type} [DecidableEq Hash] (identityHash : IdentityPublicKeys → Hash)

def Op.perform (t : RoutingTable H D I) : Op Hash → Report × RoutingTable H D I
  | .upsert arrival evidenceId retention env =>
    let (outcome, removed, t) :=
      t.upsertRouteWithRetentionAndWarmth b arrival evidenceId retention env
    (⟨outcome.stored, removed⟩, t)
  | .seed row evidenceId =>
    let (outcome, t) := t.seedRoute b row evidenceId
    (⟨outcome = .seeded, []⟩, t)
  | .drop destination =>
    let (removed, t) := t.dropRoute b destination
    (⟨false, removed⟩, t)
  | .dropVia transport =>
    let (removed, t) := t.dropRoutesVia b transport
    (⟨false, removed⟩, t)
  | .dropForIdentity identity =>
    let (removed, t) := t.dropRoutesForIdentity b identityHash identity
    (⟨false, removed⟩, t)
  | .cull now env =>
    let (removed, t) := t.cullExpiredRoutesWithWarmth b now env
    (⟨false, removed⟩, t)
  | .cullIndexed now env =>
    let (removed, t) := t.cullExpiredRoutesIndexedWithWarmth b now env
    (⟨false, removed⟩, t)
  | .markResponsiveness destination responsiveness =>
    (⟨false, []⟩, t.markResponsiveness destination responsiveness)
  | .applyRouteEvidence handle observedAt =>
    (⟨false, []⟩, (t.applyRouteEvidence b handle observedAt).2.2)
  | .markUnresponsive handle attemptStartedAt =>
    (⟨false, []⟩, (t.markUnresponsiveIfNotActiveSince handle attemptStartedAt).2.2)
  | .noteRelayed destination now => (⟨false, []⟩, t.noteRelayed b destination now)
  | .noteRelayedWithWarmth destination now env =>
    (⟨false, []⟩, t.noteRelayedWithWarmth b destination now env)
  | .rebalanceHops destination hops => (⟨false, []⟩, t.rebalanceHops destination hops)
  | .repoint previous current now => (⟨false, []⟩, (t.repointRoutes b previous current now).2)
  | .soonestExpiry env => (⟨false, []⟩, (t.soonestRouteExpiryIndexedWithWarmth b env).2)
  | .invalidate => (⟨false, []⟩, t.invalidateRouteExpiries b)

/-- A sequence of calls, with the report of each. -/
def run (t : RoutingTable H D I) : List (Op Hash) → List (Op Hash × Report) × RoutingTable H D I
  | [] => ([], t)
  | op :: ops =>
    let (report, t) := op.perform b identityHash t
    let (log, t) := run t ops
    ((op, report) :: log, t)

end

end Prns.Ports.Routing
