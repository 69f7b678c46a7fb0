import Prns.Ports.RoutingTable

/-!
# Coherence of the routing table

The five columns of the routing table are one list of rows, seen five times. `Coherent`
says so: the columns are the projections of the rows, no destination stands in two rows, and
no application data handle does. Every call takes a coherent table to a coherent table, and
what it does to the rows is what its caller is told: routes reported as removed are gone,
an announce reported as stored is there, and everything else is as before.

The rows are a partial function from destinations to announces. `Known` is that function as
the caller can compute it from the log of calls and reports, and lookups in the table agree
with it.
-/

namespace Prns.Ports.Routing

open Verified
open Verified.VecOps
open Verified.KeyedRows
open TemporalIndex (InstantMillis u64Max)
open Function
open RoutingTable

/-- A row, with all that the columns keep of it. -/
structure Row where
  evidenceId : RouteEvidenceId
  entry : RouteEntry
  announce : Announce
  handle : AppDataHandle
  ids : List AnnounceId
  expiry : InstantMillis

namespace Row

variable (row : Row)

def destination : DestinationHash := row.announce.destination

def route : RouteRow := ⟨row.destination, row.evidenceId, row.entry⟩

def record : AnnounceRecord := row.announce.record row.handle

def stored : StoredAnnounce :=
  ⟨row.entry.hops, row.entry.receivingInterface, row.entry.nextHop, row.announce⟩

/-- The expiry of the row was computed from its own entry, in surroundings that the table
was given. -/
def Dated (envs : List Surroundings) : Prop :=
  ∃ env ∈ envs, row.expiry = row.entry.expiryWithWarmth env

end Row

/-- The row, filed again. -/
def Row.refiled (env : Surroundings) (row : Row) : Row :=
  { row with expiry := row.entry.expiryWithWarmth env }

/-- The row after its interface got a new name; it is filed anew. -/
def Row.repoint (previous current : InterfaceId) (now : InstantMillis) (row : Row) : Row :=
  if row.entry.receivingInterface ≠ previous then row
  else Row.refiled .bare { row with
    entry := { row.entry with receivingInterface := current, lastRouteActivityAt := now } }

/-- The row of an announce, filed in these surroundings. -/
def AnnounceArrival.row (arrival : AnnounceArrival) (evidenceId : RouteEvidenceId)
    (retention : RouteRetention) (env : Surroundings) (handle : AppDataHandle)
    (ids : List AnnounceId) : Row where
  evidenceId := evidenceId
  entry := arrival.entry retention
  announce := arrival.announce
  handle := handle
  ids := ids
  expiry := (arrival.entry retention).expiryWithWarmth env

/-- The row of a seeded route; the index forgets what it has filed. -/
def PersistedRouteRow.row (persisted : PersistedRouteRow) (depth : Nat)
    (evidenceId : RouteEvidenceId) (handle : AppDataHandle) : Row :=
  Row.refiled .bare
    { evidenceId := evidenceId
      entry := { persisted.entry with retention := .network }
      announce := persisted.announce
      handle := handle
      ids := persisted.announceIdRing.ids.foldl (rememberIn depth) []
      expiry := 0 }

/-- The data that the rows own, by handle. -/
def payloads (rows : List Row) : AppDataHandle → Option (List UInt8) :=
  view Row.handle (fun row => row.announce.appData) rows

structure Laws {H D I : Type} (b : Backends H D I) where
  history : LawfulHistory b.history
  appData : LawfulAppData b.appData
  expiries : LawfulExpiries b.expiries

variable {H D I : Type} {b : Backends H D I}

/-- The columns of the table are the columns of the rows. -/
structure Coherent (laws : Laws b) (envs : List Surroundings) (capacity : Nat)
    (t : RoutingTable H D I) (rows : List Row) : Prop where
  routes : t.routes = rows.map Row.route
  records : t.announceRecords = rows.map Row.record
  history : laws.history.Holds t.announceIdHistory (rows.map Row.ids)
  appData : laws.appData.Holds t.announceAppData (payloads rows)
  expiries : laws.expiries.Holds t.routeExpiries (rows.map Row.expiry)
  dated : ∀ row ∈ rows, row.Dated envs
  destinations : Distinct Row.destination rows
  handles : Distinct Row.handle rows
  room : t.destinationCapacity = capacity
  fits : rows.length ≤ capacity

/-- What is known of a destination: its last announce, and the identifiers of its announces. -/
structure Known where
  announce : StoredAnnounce
  ids : List AnnounceId
  deriving DecidableEq

/-- Routes that were reported as removed. -/
def forget (removed : List RemovedRoute) (known : DestinationHash → Option Known)
    (destination : DestinationHash) : Option Known :=
  if destination ∈ removed.map RemovedRoute.destination then none else known destination

def AnnounceArrival.stored (arrival : AnnounceArrival) : StoredAnnounce :=
  ⟨arrival.hops, arrival.receivingInterface, arrival.nextHop, arrival.announce⟩

def PersistedRouteRow.stored (row : PersistedRouteRow) : StoredAnnounce :=
  ⟨row.entry.hops, row.entry.receivingInterface, row.entry.nextHop, row.announce⟩

def Known.rebalance (hops : UInt8) (known : Known) : Known :=
  { known with announce := { known.announce with hops := hops } }

def Known.repoint (previous current : InterfaceId) (known : Known) : Known :=
  if known.announce.receivingInterface ≠ previous then known
  else { known with announce := { known.announce with receivingInterface := current } }

/-- The announce that a call stored, if it did, and the calls that change hop data later. -/
def Op.learn {Hash : Type} (depth : Nat) (stored : Bool)
    (known : DestinationHash → Option Known) : Op Hash → DestinationHash → Option Known
  | .upsert arrival _ _ _ =>
    if stored then
      let announce := arrival.announce
      let ids := ((known announce.destination).map Known.ids).getD []
      Function.update known announce.destination
        (some ⟨arrival.stored, rememberIn depth ids announce.announceId⟩)
    else known
  | .seed row _ =>
    if stored then
      Function.update known row.announce.destination
        (some ⟨row.stored, row.announceIdRing.ids.foldl (rememberIn depth) []⟩)
    else known
  | .rebalanceHops destination hops =>
    Function.update known destination ((known destination).map (Known.rebalance hops))
  | .repoint previous current _ =>
    fun destination => (known destination).map (Known.repoint previous current)
  | _ => known

/-- What a log says of every destination. -/
def knownAfter {Hash : Type} (depth : Nat) (known : DestinationHash → Option Known) :
    List (Op Hash × Report) → DestinationHash → Option Known
  | [] => known
  | (op, report) :: log =>
    knownAfter depth (op.learn depth report.stored (forget report.removed known)) log

def Row.known (row : Row) : Known := ⟨row.stored, row.ids⟩

/-- What the rows say of a destination. -/
def knownOf (rows : List Row) : DestinationHash → Option Known :=
  view Row.destination Row.known rows

variable {removed : List RemovedRoute}

section

variable {known : DestinationHash → Option Known}

@[simp] theorem forget_nil : forget [] known = known := by
  funext destination
  simp [forget]

theorem forget_append (removed more : List RemovedRoute) :
    forget (removed ++ more) known = forget more (forget removed known) := by
  funext destination
  simp only [forget, List.map_append, List.mem_append]
  grind

theorem forget_none {destination : DestinationHash}
    (h : known destination = none) : forget removed known destination = none := by
  unfold forget
  split
  · rfl
  · exact h

end

section

variable {laws : Laws b} {envs : List Surroundings} {capacity : Nat} {t : RoutingTable H D I}
  {rows : List Row} {row : Row} {i : Nat} {destination : DestinationHash}

theorem coherent_empty (laws : Laws b) (envs : List Surroundings)
    (routeCapacity recordCapacity : Nat) :
    Coherent laws envs (min routeCapacity recordCapacity)
      (empty b routeCapacity recordCapacity) [] where
  routes := rfl
  records := rfl
  history := laws.history.new
  appData := laws.appData.new
  expiries := laws.expiries.new
  dated := nofun
  destinations := List.nodup_nil
  handles := List.nodup_nil
  room := rfl
  fits := Nat.zero_le _

theorem lt_length (hi : rows[i]? = some row) : i < rows.length :=
  (List.getElem?_eq_some_iff.mp hi).1

variable {route : RouteRow}

theorem setRow_eq (hat : t.routes[i]? = some route) (entry : RouteEntry) :
    t.setRow i entry = { t with routes := t.routes.set i { route with entry := entry } } := by
  unfold setRow
  rw [List.modify_eq_set_getElem?, hat]
  rfl

variable {t' : RoutingTable H D I} {expiries : I} {env : Surroundings}
  (h : Coherent laws envs capacity t rows)

include h

variable {routes : List RouteRow} {cause : RoutingTable H D I → Nat → Option RouteRemovalCause}
  {d : D} {bytes : List UInt8} {handle : AppDataHandle} {outcome : UpsertRouteOutcome} {Hash : Type}
  {change : RouteEntry → RouteEntry} {settle : Nat → RoutingTable H D I → RoutingTable H D I}

namespace Coherent

theorem length_eq : t.routes.length = rows.length := by
  rw [h.routes, List.length_map]

theorem route_at (hi : rows[i]? = some row) : t.routes[i]? = some row.route := by
  rw [h.routes, List.getElem?_map, hi]
  rfl

theorem record_at (hi : rows[i]? = some row) : t.announceRecords[i]? = some row.record := by
  rw [h.records, List.getElem?_map, hi]
  rfl

theorem row_of_lt (hi : i < t.routes.length) : ∃ row, rows[i]? = some row := by
  rw [h.length_eq] at hi
  exact ⟨rows[i], List.getElem?_eq_getElem hi⟩

theorem indexOf_eq (destination : DestinationHash) :
    t.indexOf destination = rows.findIdx? fun row => row.destination = destination := by
  unfold indexOf
  rw [h.routes, List.findIdx?_map]
  rfl

theorem absent (hindex : t.indexOf destination = none) : knownOf rows destination = none := by
  rw [knownOf, view_eq_none_iff, lookup_eq_findIdx?, ← h.indexOf_eq, hindex]
  rfl

theorem found (hindex : t.indexOf destination = some i) :
    ∃ row, rows[i]? = some row ∧ row.destination = destination ∧
      knownOf rows destination = some row.known := by
  rw [h.indexOf_eq, List.findIdx?_eq_some_iff_getElem] at hindex
  obtain ⟨hi, hdest, -⟩ := hindex
  have hrow : rows[i]? = some rows[i] := List.getElem?_eq_getElem hi
  have hdest : rows[i].destination = destination := by simpa using hdest
  have hknown : knownOf rows rows[i].destination = some rows[i].known :=
    view_of_getElem? h.destinations hrow
  exact ⟨rows[i], hrow, hdest, hdest ▸ hknown⟩

variable (hi : rows[i]? = some row)
include hi

theorem remove : Coherent laws envs capacity (t.removeRouteAt b i) (swapRemove rows i) := by
  have hlt := lt_length hi
  have hfreed : (t.announceRecords[i]?.bind fun record => record.maybeAppDataHandle) =
      some row.handle := by
    rw [h.record_at hi]
    rfl
  have hview : payloads (swapRemove rows i) = update (payloads rows) row.handle none :=
    view_swapRemove h.handles hi
  have hhistory := laws.history.swapRemove h.history (by rwa [List.length_map])
  have hexpiries := laws.expiries.swapRemove h.expiries (by rwa [List.length_map])
  rw [List.length_map] at hhistory hexpiries
  unfold removeRouteAt
  rw [hfreed, h.length_eq]
  refine ⟨?_, ?_, ?_, ?_, ?_, fun r hr => ?_, h.destinations.swapRemove hi,
    h.handles.swapRemove hi, h.room, ?_⟩
  · rw [map_swapRemove, ← h.routes]
  · rw [map_swapRemove, ← h.records]
  · rwa [map_swapRemove]
  · rw [hview]
    exact laws.appData.free h.appData (view_of_getElem? h.handles hi)
  · rwa [map_swapRemove]
  · exact h.dated r ((swapRemove_perm rows i row hi).mem_iff.mpr (List.mem_cons_of_mem _ hr))
  · rw [length_swapRemove]
    exact Nat.le_trans (Nat.sub_le _ _) h.fits

theorem set {row' : Row} (hdest : row'.destination = row.destination)
    (hhandle : row'.handle = row.handle) (hdated : row'.Dated envs)
    (hroutes : t'.routes = t.routes.set i row'.route)
    (hrecords : t'.announceRecords = t.announceRecords.set i row'.record)
    (hhistory : laws.history.Holds t'.announceIdHistory ((rows.map Row.ids).set i row'.ids))
    (hdata : laws.appData.Holds t'.announceAppData
      (update (payloads rows) row.handle (some row'.announce.appData)))
    (hexpiries : laws.expiries.Holds t'.routeExpiries ((rows.map Row.expiry).set i row'.expiry))
    (hroom : t'.destinationCapacity = t.destinationCapacity) :
    Coherent laws envs capacity t' (rows.set i row') where
  routes := by rw [List.map_set, ← h.routes, hroutes]
  records := by rw [List.map_set, ← h.records, hrecords]
  history := by rwa [List.map_set]
  appData := by
    have hview : payloads (rows.set i row') =
        update (payloads rows) row.handle (some row'.announce.appData) :=
      view_set h.handles hi hhandle
    rwa [hview]
  expiries := by rwa [List.map_set]
  dated := by
    intro r hr
    rcases List.mem_or_eq_of_mem_set hr with hmem | rfl
    · exact h.dated r hmem
    · exact hdated
  destinations := h.destinations.set hi hdest
  handles := h.handles.set hi hhandle
  room := hroom.trans h.room
  fits := by
    rw [List.length_set]
    exact h.fits

/-- A new entry; the index is told about the new expiry. -/
theorem setRow (entry : RouteEntry) (expiry : InstantMillis)
    (hexpiries : laws.expiries.Holds expiries ((rows.map Row.expiry).set i expiry))
    (hdated : Row.Dated { row with entry := entry, expiry := expiry } envs) :
    Coherent laws envs capacity { t.setRow i entry with routeExpiries := expiries }
      (rows.set i { row with entry := entry, expiry := expiry }) := by
  -- The other columns are set to what they hold.
  have hsame {α : Type} (column : Row → α) :
      (rows.map column).set i (column row) = rows.map column := by
    rw [← List.map_set]
    exact map_key_set hi rfl
  have hview : payloads rows row.handle = some row.announce.appData := view_of_getElem? h.handles hi
  have hdata : update (payloads rows) row.handle (some row.announce.appData) =
      payloads rows := by
    rw [← hview, update_eq_self]
  rw [setRow_eq (h.route_at hi)]
  refine h.set hi rfl rfl hdated rfl ?_ ?_ ?_ hexpiries rfl
  · show t.announceRecords = t.announceRecords.set i row.record
    rw [h.records, hsame]
  · rw [hsame]
    exact h.history
  · rw [hdata]
    exact h.appData

omit hi

theorem map (change : Row → Row) (hroutes : routes = rows.map fun row => (change row).route)
    (hannounce : ∀ row, (change row).announce = row.announce)
    (hhandle : ∀ row, (change row).handle = row.handle) (hids : ∀ row, (change row).ids = row.ids)
    (hdated : ∀ row ∈ rows, (change row).Dated envs)
    (hexpiries : laws.expiries.Holds expiries (rows.map fun row => (change row).expiry)) :
    Coherent laws envs capacity { t with routes := routes, routeExpiries := expiries }
      (rows.map change) := by
  have hdest : ∀ row, (change row).destination = row.destination := fun row =>
    congrArg Announce.destination (hannounce row)
  refine ⟨?_, ?_, ?_, ?_, ?_, ?_, h.destinations.map fun row _ => hdest row,
    h.handles.map fun row _ => hhandle row, h.room, ?_⟩
  · rw [List.map_map]
    exact hroutes
  · rw [List.map_map]
    rw [h.records]
    refine List.map_congr_left fun row _ => ?_
    show row.announce.record row.handle = (change row).announce.record (change row).handle
    rw [hannounce, hhandle]
  · have hcolumn : (rows.map change).map Row.ids = rows.map Row.ids := by
      rw [List.map_map]
      exact List.map_congr_left fun row _ => hids row
    rw [hcolumn]
    exact h.history
  · have hview : payloads (rows.map change) = payloads rows := by
      funext handle
      unfold payloads
      rw [view_map change fun row _ => hhandle row]
      exact congrArg (fun field => view Row.handle field rows handle)
        (funext fun row => congrArg Announce.appData (hannounce row))
    rw [hview]
    exact h.appData
  · rw [List.map_map]
    exact hexpiries
  · intro r hr
    obtain ⟨row, hrow, rfl⟩ := List.mem_map.mp hr
    exact hdated row hrow
  · rw [List.length_map]
    exact h.fits

/-- A query of the index may have filed all rows anew. -/
theorem refile (henv : env ∈ envs) {column : List InstantMillis}
    (hrefiled : Refiled (t.expiryOfWithWarmth env) (rows.map Row.expiry) column)
    (hexpiries : laws.expiries.Holds expiries column) :
    ∃ rows', Coherent laws envs capacity { t with routeExpiries := expiries } rows' ∧
      rows'.length = rows.length ∧ knownOf rows' = knownOf rows := by
  rcases hrefiled with rfl | rfl
  · exact ⟨rows, { h with expiries := hexpiries }, rfl, rfl⟩
  have hcolumn : (List.range (rows.map Row.expiry).length).map (t.expiryOfWithWarmth env) =
      rows.map fun row => row.entry.expiryWithWarmth env := by
    apply List.ext_getElem?
    intro i
    rw [List.getElem?_map, List.getElem?_map, List.length_map]
    by_cases hi : i < rows.length
    · have hrow : rows[i]? = some rows[i] := List.getElem?_eq_getElem hi
      rw [List.getElem?_range hi, hrow, Option.map_some, Option.map_some,
        expiryOfWithWarmth, h.route_at hrow]
      rfl
    · rw [List.getElem?_eq_none (by rw [List.length_range]; omega),
        List.getElem?_eq_none (Nat.le_of_not_lt hi)]
      rfl
  rw [hcolumn] at hexpiries
  refine ⟨rows.map (Row.refiled env), ?_, List.length_map _, ?_⟩
  · exact h.map (Row.refiled env) h.routes (fun _ => rfl) (fun _ => rfl) (fun _ => rfl)
      (fun row _ => ⟨env, henv, rfl⟩) hexpiries
  · funext destination
    unfold knownOf
    rw [view_map (g := Row.refiled env) fun _ _ => rfl]
    rfl

omit h in
theorem remember_all (laws : Laws b) {history : H} {column : List (List AnnounceId)}
    (ids : List AnnounceId) {known : List AnnounceId}
    (h : laws.history.Holds history (column ++ [known])) :
    laws.history.Holds
      (ids.foldl (fun history id => b.history.remember history column.length id) history)
      (column ++ [ids.foldl (rememberIn b.history.depth) known]) := by
  induction ids generalizing history known with
  | nil => exact h
  | cons id ids ih =>
    have hlt : column.length < (column ++ [known]).length := by simp
    have hremember := laws.history.remember id h hlt
    have hread : (column ++ [known]).getD column.length [] = known := by simp
    have hset : (column ++ [known]).set column.length (rememberIn b.history.depth known id) =
          column ++ [rememberIn b.history.depth known id] := by simp
    rw [hread, hset] at hremember
    exact ih hremember

end Coherent

/-! ## Calls that remove routes -/

/-- Rows went, and the caller was told which. -/
def Shed (laws : Laws b) (envs : List Surroundings) (capacity : Nat) (rows : List Row)
    (result : List RemovedRoute × RoutingTable H D I) : Prop :=
  ∃ rows', Coherent laws envs capacity result.2 rows' ∧ rows'.length ≤ rows.length ∧
    knownOf rows' = forget result.1 (knownOf rows)

theorem Coherent.shed_none : Shed laws envs capacity rows ([], t) :=
  ⟨rows, h, Nat.le_refl _, forget_nil.symm⟩

omit h in
theorem Shed.after {more : List RemovedRoute} {rows' : List Row}
    (h : Shed laws envs capacity rows' (more, t)) (hlen : rows'.length ≤ rows.length)
    (hknown : knownOf rows' = forget removed (knownOf rows)) :
    Shed laws envs capacity rows (removed ++ more, t) := by
  obtain ⟨rows'', hcoherent, hlen', hknown'⟩ := h
  refine ⟨rows'', hcoherent, Nat.le_trans hlen' hlen, ?_⟩
  rw [forget_append, hknown', hknown]

theorem Coherent.known_remove (hi : rows[i]? = some row) (cause : RouteRemovalCause) :
    knownOf (swapRemove rows i) = forget (t.routeRemovalAt i cause) (knownOf rows) := by
  have hremoved : t.routeRemovalAt i cause =
      [⟨row.destination, row.entry.receivingInterface, cause⟩] := by
    unfold routeRemovalAt
    rw [h.route_at hi]
    rfl
  rw [hremoved]
  refine (view_swapRemove h.destinations hi).trans (funext fun destination => ?_)
  simp [forget, knownOf, update_apply]

omit h in
theorem length_swapRemove_le (rows : List Row) (i : Nat) :
    (swapRemove rows i).length ≤ rows.length := by
  rw [length_swapRemove]
  exact Nat.sub_le _ _

theorem Coherent.shed_one (hi : rows[i]? = some row) (cause : RouteRemovalCause) :
    Shed laws envs capacity rows (t.routeRemovalAt i cause, t.removeRouteAt b i) :=
  ⟨_, h.remove hi, length_swapRemove_le rows i, h.known_remove hi cause⟩

theorem Coherent.shed_dropRoute (destination : DestinationHash) :
    Shed laws envs capacity rows (t.dropRoute b destination) := by
  unfold dropRoute
  split
  · exact h.shed_none
  · next hindex =>
      obtain ⟨row, hi, -⟩ := h.found hindex
      exact h.shed_one hi .dropped

theorem Coherent.shed_sweep {rest : Nat} (hrest : i + rest = rows.length) :
    Shed laws envs capacity rows (sweep b cause rest i t) := by
  induction rest generalizing i t rows with
  | zero => exact h.shed_none
  | succ rest ih =>
    rw [sweep]
    cases hcause : cause t i with
    | none => exact ih h (by omega)
    | some cause' =>
      obtain ⟨row, hi⟩ := h.row_of_lt (i := i) (by rw [h.length_eq]; omega)
      have hlength : i + rest = (swapRemove rows i).length := by
        rw [length_swapRemove]
        omega
      exact (ih (h.remove hi) hlength).after (length_swapRemove_le rows i)
        (h.known_remove hi cause')

theorem Coherent.shed_all :
    Shed laws envs capacity rows (sweep b cause t.routes.length 0 t) :=
  h.shed_sweep (by rw [h.length_eq, Nat.zero_add])

theorem Coherent.invalidate : Coherent laws envs capacity (t.invalidateRouteExpiries b) rows :=
  { h with expiries := laws.expiries.invalidate _ _ }

theorem Coherent.firstExpired (henv : env ∈ envs) (now : InstantMillis) {first : Option Nat}
    (hfirst : b.expiries.firstExpired t.routeExpiries t.routes.length now
      (t.expiryOfWithWarmth env) = (first, expiries)) :
    (∃ rows', Coherent laws envs capacity { t with routeExpiries := expiries } rows' ∧
      rows'.length = rows.length ∧ knownOf rows' = knownOf rows) ∧
    ∀ i, first = some i → i < rows.length := by
  have hlaw := laws.expiries.firstExpired now (t.expiryOfWithWarmth env) h.expiries
  rw [List.length_map, ← h.length_eq, hfirst] at hlaw
  obtain ⟨⟨column, hrefiled, hholds⟩, hbound⟩ := hlaw
  refine ⟨h.refile henv hrefiled hholds, fun i hi => ?_⟩
  rw [← h.length_eq]
  exact hbound i hi

theorem Coherent.shed_cullIndexed (henv : env ∈ envs) (now : InstantMillis) (rounds : Nat) :
    Shed laws envs capacity rows (cullIndexed b now env rounds t) := by
  induction rounds generalizing t rows with
  | zero => exact h.shed_none
  | succ rounds ih =>
    rw [cullIndexed]
    cases hfirst : b.expiries.firstExpired t.routeExpiries t.routes.length now
      (t.expiryOfWithWarmth env) with
    | mk first expiries =>
      obtain ⟨⟨rows', hrefiled, hlen, hknown⟩, hbound⟩ := h.firstExpired henv now hfirst
      cases first with
      | none =>
        exact ⟨rows', hrefiled, Nat.le_of_eq hlen, by rw [hknown, forget_nil]⟩
      | some i =>
        obtain ⟨row, hi⟩ := hrefiled.row_of_lt (i := i) (by
          rw [hrefiled.length_eq, hlen]
          exact hbound i rfl)
        refine (ih (hrefiled.remove hi)).after ?_ ?_
        · rw [← hlen]
          exact length_swapRemove_le rows' i
        · rw [← hknown]
          exact hrefiled.known_remove hi _

theorem Coherent.shed_cullExpiredIndexed (henv : env ∈ envs) (now : InstantMillis) :
    Shed laws envs capacity rows (t.cullExpiredRoutesIndexedWithWarmth b now env) := by
  unfold cullExpiredRoutesIndexedWithWarmth
  split
  · exact h.shed_all
  · split
    · exact h.invalidate.shed_all
    · exact h.shed_cullIndexed henv now _

theorem Coherent.shed_evict {result : List RemovedRoute × RoutingTable H D I}
    (hevict : t.evictRouteNearestExpiry b env = some result) :
    Shed laws envs capacity rows result := by
  unfold evictRouteNearestExpiry at hevict
  obtain ⟨i, hmin, rfl⟩ := Option.map_eq_some_iff.mp hevict
  obtain ⟨row, hi⟩ := h.row_of_lt (List.mem_range.mp (List.argmin_mem hmin))
  exact h.shed_one hi .evicted

theorem Coherent.shed_makeRoom (now : InstantMillis)
    (env : Surroundings) : Shed laws envs capacity rows (t.makeRoom b now env) := by
  unfold makeRoom
  split
  · have hcull : Shed laws envs capacity rows (t.cullExpiredRoutesWithWarmth b now env) :=
      h.shed_all
    generalize t.cullExpiredRoutesWithWarmth b now env = result at hcull ⊢
    dsimp only
    split
    · obtain ⟨rows', hculled, hlen, hknown⟩ := hcull
      split
      · exact ⟨rows', hculled, hlen, hknown⟩
      · exact (hculled.shed_evict ‹_›).after hlen hknown
    · exact hcull
  · exact h.shed_none

/-! ## Calls that store an announce -/

theorem Coherent.setAppData (hdata : laws.appData.Holds d (payloads rows)) :
    Coherent laws envs capacity { t with announceAppData := d } rows :=
  { h with appData := hdata }

/-- Data that no row owns yet. -/
structure Coherent.Holding (laws : Laws b) (envs : List Surroundings) (capacity : Nat)
    (t : RoutingTable H D I) (rows : List Row) (handle : AppDataHandle) (bytes : List UInt8) :
    Prop where
  table : ∃ d, Coherent laws envs capacity { t with announceAppData := d } rows
  fresh : payloads rows handle = none
  data : laws.appData.Holds t.announceAppData
    (Function.update (payloads rows) handle (some bytes))

theorem Coherent.holding (hinsert : b.appData.insert t.announceAppData bytes = (.ok handle, d)) :
    Coherent.Holding laws envs capacity { t with announceAppData := d } rows handle bytes := by
  obtain ⟨hfresh, hdata⟩ := laws.appData.insert_ok h.appData hinsert
  exact ⟨⟨t.announceAppData, h⟩, hfresh, hdata⟩

theorem Coherent.insertAppData {stored : Option AppDataHandle}
    (hresult : t.insertAppData b env bytes = (stored, removed, t')) :
    ∃ rows', rows'.length ≤ rows.length ∧ knownOf rows' = forget removed (knownOf rows) ∧
      match stored with
      | none => Coherent laws envs capacity t' rows'
      | some handle => Coherent.Holding laws envs capacity t' rows' handle bytes := by
  unfold RoutingTable.insertAppData at hresult
  split at hresult
  · next hinsert =>
      cases hresult
      exact ⟨rows, Nat.le_refl _, forget_nil.symm, h.holding hinsert⟩
  next hinsert =>
  have hfailed := h.setAppData (laws.appData.insert_error h.appData hinsert)
  dsimp only at hresult
  split at hresult
  · cases hresult
    exact ⟨rows, Nat.le_refl _, forget_nil.symm, hfailed⟩
  next hevict =>
  obtain ⟨rows', hshed, hlen, hknown⟩ := hfailed.shed_evict hevict
  split at hresult <;> rename_i hagain <;> cases hresult
  · exact ⟨rows', hlen, hknown, hshed.holding hagain⟩
  · exact ⟨rows', hlen, hknown, hshed.setAppData (laws.appData.insert_error hshed.appData hagain)⟩

omit h in
theorem Coherent.Holding.pushRow (h : Coherent.Holding laws envs capacity t rows handle bytes)
    (hroom : rows.length < capacity) (row : RouteRow) (record : AnnounceRecord) :
    t.pushRow b row record handle = (some t.routes.length,
      { t with
        routes := t.routes ++ [row]
        announceRecords := t.announceRecords ++ [record] }) := by
  obtain ⟨d, htable⟩ := h.table
  have hroutes : t.routes.length = rows.length := htable.length_eq
  have hrecords : t.announceRecords.length = rows.length := by
    rw [show t.announceRecords = rows.map Row.record from htable.records, List.length_map]
  have hmin : min t.routeCapacity t.recordCapacity = capacity := htable.room
  unfold RoutingTable.pushRow
  dsimp only
  rw [if_neg (by omega), if_neg (by omega)]

omit h in
theorem Coherent.Holding.push
    (h : Coherent.Holding laws envs capacity t rows row.handle row.announce.appData)
    (hroom : rows.length < capacity) (hlimit : capacity ≤ laws.history.limit)
    (known : List AnnounceId) (hfresh : knownOf rows row.destination = none)
    (hids : row.ids = known.foldl (rememberIn b.history.depth) [])
    (hexpiries : laws.expiries.Holds expiries (rows.map Row.expiry ++ [row.expiry]))
    (hdated : row.Dated envs) :
    Coherent laws envs capacity
      { t with
        routes := t.routes ++ [row.route]
        announceRecords := t.announceRecords ++ [row.record]
        announceIdHistory := known.foldl
          (fun history id => b.history.remember history t.routes.length id) t.announceIdHistory
        routeExpiries := expiries } (rows ++ [row]) := by
  obtain ⟨d, htable⟩ := h.table
  have hnewHandle : lookup Row.handle rows row.handle = none := view_eq_none_iff.mp h.fresh
  have hlength : t.routes.length = rows.length := htable.length_eq
  have hgrow := laws.history.grow htable.history (by
    rw [List.length_map]
    exact Nat.lt_of_lt_of_le hroom hlimit)
  have hall := remember_all laws known hgrow
  rw [List.length_map, ← hlength, ← hids] at hall
  have hview : payloads (rows ++ [row]) =
      update (payloads rows) row.handle (some row.announce.appData) :=
    view_push htable.handles hnewHandle
  refine ⟨?_, ?_, ?_, ?_, ?_, ?_, htable.destinations.push (view_eq_none_iff.mp hfresh),
    htable.handles.push hnewHandle, htable.room, ?_⟩
  · rw [List.map_append, ← htable.routes]
    rfl
  · rw [List.map_append, ← htable.records]
    rfl
  · rwa [List.map_append]
  · rw [hview]
    exact h.data
  · rwa [List.map_append]
  · exact List.forall_mem_append.mpr ⟨htable.dated, List.forall_mem_singleton.mpr hdated⟩
  · rw [List.length_append, List.length_singleton]
    exact hroom

omit h in
theorem Coherent.Holding.known_push
    (h : Coherent.Holding laws envs capacity t rows row.handle row.announce.appData)
    (hfresh : knownOf rows row.destination = none) :
    knownOf (rows ++ [row]) = update (knownOf rows) row.destination (some row.known) := by
  obtain ⟨d, htable⟩ := h.table
  exact view_push htable.destinations (view_eq_none_iff.mp hfresh)

/-- The table is coherent and says what is known. -/
def Stored (laws : Laws b) (envs : List Surroundings) (capacity : Nat)
    (known : DestinationHash → Option Known) (t : RoutingTable H D I) : Prop :=
  ∃ rows, Coherent laws envs capacity t rows ∧ knownOf rows = known

theorem Coherent.insertNewRoute (hlimit : capacity ≤ laws.history.limit) (arrival : AnnounceArrival)
    (evidenceId : RouteEvidenceId) (retention : RouteRetention) (henv : env ∈ envs)
    (hfresh : knownOf rows arrival.announce.destination = none)
    (hresult : t.insertNewRoute b arrival evidenceId retention env = (outcome, removed, t')) :
    Stored laws envs capacity (if outcome.stored then
        update (forget removed (knownOf rows)) arrival.announce.destination
          (some ⟨arrival.stored, rememberIn b.history.depth [] arrival.announce.announceId⟩)
      else forget removed (knownOf rows)) t' := by
  unfold RoutingTable.insertNewRoute at hresult
  rw [h.length_eq, h.room] at hresult
  split at hresult
  · cases hresult
    exact ⟨rows, h, forget_nil.symm⟩
  next hfull =>
  split at hresult
  · next hinsert =>
      obtain ⟨rows', -, hknown, hstored⟩ := h.insertAppData hinsert
      cases hresult
      exact ⟨rows', hstored, hknown⟩
  next handle _ table hinsert =>
    obtain ⟨rows', hlen, hknown, hstored⟩ := h.insertAppData hinsert
    have hroom : rows'.length < capacity := by omega
    dsimp only at hresult hstored
    rw [hstored.pushRow hroom] at hresult
    cases hresult
    have hfresh' : knownOf rows' arrival.announce.destination = none := by
      rw [hknown]
      exact forget_none hfresh
    rw [← hknown]
    obtain ⟨d, htable⟩ := hstored.table
    have hexpiries := laws.expiries.insert ((arrival.entry retention).expiryWithWarmth env)
      htable.expiries
    have hlength : table.routes.length = rows'.length := htable.length_eq
    rw [List.length_map, ← hlength] at hexpiries
    -- the row that is pushed, with its expiry
    generalize hrow : arrival.row evidenceId retention env handle
      (rememberIn b.history.depth [] arrival.announce.announceId) = row
    have hholding : Coherent.Holding laws envs capacity table rows' row.handle
        row.announce.appData := by
      rw [← hrow]
      exact hstored
    rw [RoutingTable.expiryOfWithWarmth, List.getElem?_concat_length]
    subst hrow
    exact ⟨_, hholding.push hroom hlimit [arrival.announce.announceId] hfresh' rfl hexpiries
      ⟨env, henv, rfl⟩, hholding.known_push hfresh'⟩

omit h in
theorem refreshed_eq (hat : t.routes[i]? = some route) (entry : RouteEntry)
    (pathChanged : Bool) (evidenceId : RouteEvidenceId) :
    (if pathChanged then (t.setRow i entry).setEvidenceId i evidenceId else t.setRow i entry) =
      { t with
        routes := t.routes.set i
          ⟨route.destination, if pathChanged then evidenceId else route.evidenceId, entry⟩ } := by
  rw [setRow_eq hat]
  cases pathChanged with
  | false => rfl
  | true =>
    have hlt : i < t.routes.length := (List.getElem?_eq_some_iff.mp hat).1
    simp [setEvidenceId, List.modify_eq_set_getElem?, hlt]

omit h in
theorem expiry_set (env : Surroundings) (h : t.routes = routes.set i route)
    (hi : i < routes.length) :
    t.expiryOfWithWarmth env i = route.entry.expiryWithWarmth env := by
  unfold expiryOfWithWarmth
  rw [h, List.getElem?_set_self hi]
  rfl

theorem Coherent.refreshExistingRoute (hi : rows[i]? = some row) (arrival : AnnounceArrival)
    (hdest : row.destination = arrival.announce.destination) (evidenceId : RouteEvidenceId)
    (retention : RouteRetention) (henv : env ∈ envs)
    (hresult : t.refreshExistingRoute b i arrival evidenceId retention env = (outcome, t')) :
    Stored laws envs capacity (if outcome.stored then
        update (knownOf rows) arrival.announce.destination
          (some ⟨arrival.stored, rememberIn b.history.depth row.ids arrival.announce.announceId⟩)
      else knownOf rows) t' := by
  have hlt := lt_length hi
  have hhandle : (t.announceRecords[i]?.bind fun record => record.maybeAppDataHandle) =
      some row.handle := by
    rw [h.record_at hi]
    rfl
  have hlive : payloads rows row.handle = some row.announce.appData := view_of_getElem? h.handles hi
  unfold RoutingTable.refreshExistingRoute at hresult
  rw [hhandle] at hresult
  dsimp only at hresult
  generalize (t.routes[i]?.any fun row => decide
    (row.entry.receivingInterface ≠ arrival.receivingInterface ∨
      row.entry.nextHop ≠ arrival.nextHop)) = pathChanged at hresult
  cases hreplace : b.appData.replace t.announceAppData row.handle arrival.announce.appData with
  | mk replaced d =>
    rw [hreplace] at hresult
    cases replaced with
    | error e =>
      cases hresult
      exact ⟨rows, h.setAppData (laws.appData.replace_error h.appData hlive hreplace), rfl⟩
    | ok done =>
      have hids : (rows.map Row.ids).getD i [] = row.ids := by
        rw [List.getD_eq_getElem?_getD, List.getElem?_map, hi]
        rfl
      have hhistory := laws.history.remember arrival.announce.announceId h.history
        (by rw [List.length_map]; exact hlt)
      have hexpiries := laws.expiries.update ((arrival.entry retention).expiryWithWarmth env)
        h.expiries (by rw [List.length_map]; exact hlt)
      rw [hids] at hhistory
      dsimp only at hresult
      have hrefreshed := @refreshed_eq H D I { t with announceAppData := d } i row.route
        (h.route_at hi) (arrival.entry retention) pathChanged evidenceId
      rw [hrefreshed] at hresult
      cases hresult
      rw [expiry_set env rfl (by rw [h.length_eq]; exact hlt), ← hdest]
      refine ⟨rows.set i (arrival.row (if pathChanged then evidenceId else row.evidenceId)
        retention env row.handle
        (rememberIn b.history.depth row.ids arrival.announce.announceId)), ?_, ?_⟩
      · refine h.set hi hdest.symm rfl ⟨env, henv, rfl⟩ ?_ rfl hhistory ?_ hexpiries rfl
        · show t.routes.set i ⟨row.destination, _, _⟩ = _
          rw [hdest]
          rfl
        · exact laws.appData.replace_ok h.appData hlive hreplace
      · exact view_set h.destinations hi hdest.symm

theorem Coherent.upsertRoute (hlimit : capacity ≤ laws.history.limit) (arrival : AnnounceArrival)
    (evidenceId : RouteEvidenceId) (retention : RouteRetention) (henv : env ∈ envs)
    (hresult : t.upsertRouteWithRetentionAndWarmth b arrival evidenceId retention env =
      (outcome, removed, t')) :
    Stored laws envs capacity ((Op.upsert arrival evidenceId retention env : Op Hash).learn
      b.history.depth outcome.stored (forget removed (knownOf rows))) t' := by
  unfold upsertRouteWithRetentionAndWarmth at hresult
  unfold Op.learn
  split at hresult
  · next hindex =>
      have hshed := h.shed_makeRoom arrival.arrivedAt env
      generalize t.makeRoom b arrival.arrivedAt env = made at hresult hshed
      obtain ⟨gone, t₁⟩ := made
      obtain ⟨rows', hmade, -, hknown⟩ := hshed
      dsimp only at hresult hmade hknown
      have hfresh (removed : List RemovedRoute) :
          forget removed (knownOf rows) arrival.announce.destination = none :=
        forget_none (h.absent hindex)
      cases hinsert : t₁.insertNewRoute b arrival evidenceId retention env with
      | mk outcome' rest =>
        rw [hinsert] at hresult
        cases hresult
        have hstored := hmade.insertNewRoute hlimit arrival evidenceId retention henv
          (by rw [hknown]; exact hfresh gone) hinsert
        rw [hknown, ← forget_append] at hstored
        simpa only [hfresh, Option.map_none, Option.getD_none] using hstored
  · next i hindex =>
      obtain ⟨row, hi, hdest, hseen⟩ := h.found hindex
      cases hrefresh : t.refreshExistingRoute b i arrival evidenceId retention env with
      | mk outcome' t₁ =>
        rw [hrefresh] at hresult
        cases hresult
        simpa only [forget_nil, hseen, Option.map_some, Option.getD_some, Row.known] using
          h.refreshExistingRoute hi arrival hdest evidenceId retention henv hrefresh

theorem Coherent.seedRoute (hlimit : capacity ≤ laws.history.limit)
    (hbare : Surroundings.bare ∈ envs) (persisted : PersistedRouteRow)
    (evidenceId : RouteEvidenceId) {outcome : SeedRouteOutcome}
    (hresult : t.seedRoute b persisted evidenceId = (outcome, t')) :
    Stored laws envs capacity ((Op.seed persisted evidenceId : Op Hash).learn b.history.depth
      (outcome = .seeded) (knownOf rows)) t' := by
  unfold RoutingTable.seedRoute at hresult
  unfold Op.learn
  split at hresult
  · cases hresult
    exact ⟨rows, h, rfl⟩
  next hindex =>
  rw [h.length_eq, h.room] at hresult
  split at hresult
  · cases hresult
    exact ⟨rows, h, rfl⟩
  next hfull =>
  have hroom : rows.length < capacity := Nat.lt_of_not_le hfull
  have hfresh := h.absent (Option.not_isSome_iff_eq_none.mp hindex)
  split at hresult
  · next hinsert =>
      cases hresult
      exact ⟨rows, h.setAppData (laws.appData.insert_error h.appData hinsert), rfl⟩
  next handle d hinsert =>
    have hholding := h.holding hinsert
    have hrow : Coherent.Holding laws envs capacity { t with announceAppData := d } rows
        (persisted.row b.history.depth evidenceId handle).handle
        (persisted.row b.history.depth evidenceId handle).announce.appData := hholding
    dsimp only at hresult
    rw [hholding.pushRow hroom] at hresult
    cases hresult
    exact ⟨_, hrow.push hroom hlimit persisted.announceIdRing.ids hfresh rfl
      (laws.expiries.invalidate _ _) ⟨.bare, hbare, rfl⟩, hrow.known_push hfresh⟩

/-! ## Calls that change an entry -/

theorem Coherent.setRow_same (hi : rows[i]? = some row) (entry : RouteEntry)
    (hsame : ∀ env, entry.expiryWithWarmth env = row.entry.expiryWithWarmth env) :
    Coherent laws envs capacity (t.setRow i entry)
      (rows.set i { row with entry := entry, expiry := row.expiry }) := by
  have hexpiries : (rows.map Row.expiry).set i row.expiry = rows.map Row.expiry := by
    rw [← List.map_set]
    exact map_key_set hi rfl
  obtain ⟨env, henv, hexpiry⟩ := h.dated row (List.mem_of_getElem? hi)
  refine h.setRow hi entry row.expiry ?_ ⟨env, henv, hexpiry.trans (hsame env).symm⟩
  rw [hexpiries]
  exact h.expiries

theorem Coherent.setRow_invalidate
    (hbare : Surroundings.bare ∈ envs) (hi : rows[i]? = some row) (entry : RouteEntry) :
    Coherent laws envs capacity ((t.setRow i entry).invalidateRouteExpiries b)
      (rows.set i { row with entry := entry, expiry := entry.expiryWithWarmth .bare }) :=
  h.setRow hi entry _ (laws.expiries.invalidate _ _) ⟨.bare, hbare, rfl⟩

theorem Coherent.setRow_update (henv : env ∈ envs) (hi : rows[i]? = some row) (entry : RouteEntry) :
    Coherent laws envs capacity
      { t.setRow i entry with
        routeExpiries := b.expiries.update t.routeExpiries i
          ((t.setRow i entry).expiryOfWithWarmth env i) }
      (rows.set i { row with entry := entry, expiry := entry.expiryWithWarmth env }) := by
  have hlt := lt_length hi
  have hroutes : (t.setRow i entry).routes = t.routes.set i { row.route with entry := entry } := by
    rw [setRow_eq (h.route_at hi)]
  rw [expiry_set env hroutes (by rw [h.length_eq]; exact hlt)]
  refine h.setRow hi entry _ ?_ ⟨env, henv, rfl⟩
  exact laws.expiries.update _ h.expiries (by rw [List.length_map]; exact hlt)

theorem Coherent.adjust (destination : DestinationHash) (seen : Known → Known)
    (hseen : ∀ (row : Row) (expiry : InstantMillis),
      Row.known { row with entry := change row.entry, expiry := expiry } = seen row.known)
    (hsettle : ∀ i row, rows[i]? = some row → ∃ expiry,
      Coherent laws envs capacity (settle i (t.setRow i (change row.entry)))
        (rows.set i { row with entry := change row.entry, expiry := expiry })) :
    Stored laws envs capacity
      (update (knownOf rows) destination ((knownOf rows destination).map seen))
      (t.adjust destination change settle) := by
  unfold RoutingTable.adjust
  split
  · next hindex =>
      have habsent := h.absent hindex
      refine ⟨rows, h, ?_⟩
      rw [habsent, Option.map_none, ← habsent, update_eq_self]
  next i hindex =>
    obtain ⟨row, hi, hdest, hknown⟩ := h.found hindex
    obtain ⟨expiry, hsettled⟩ := hsettle i row hi
    rw [h.route_at hi, hknown, ← hdest]
    refine ⟨_, hsettled, ?_⟩
    rw [Option.map_some, ← hseen row expiry]
    exact view_set h.destinations hi rfl

theorem Coherent.adjust_same (destination : DestinationHash)
    (hseen : ∀ (row : Row) (expiry : InstantMillis),
      Row.known { row with entry := change row.entry, expiry := expiry } = row.known)
    (hsettle : ∀ i row, rows[i]? = some row → ∃ expiry,
      Coherent laws envs capacity (settle i (t.setRow i (change row.entry)))
        (rows.set i { row with entry := change row.entry, expiry := expiry })) :
    Stored laws envs capacity (knownOf rows) (t.adjust destination change settle) := by
  have hadjust := h.adjust destination id hseen hsettle
  rw [Option.map_id, id, update_eq_self] at hadjust
  exact hadjust

theorem Coherent.withRouteEvidence (handle : RouteEvidenceHandle)
    {change : RouteEntry → Option RouteEntry} {settle : RoutingTable H D I → RoutingTable H D I}
    (hsettle : ∀ i row entry, rows[i]? = some row → change row.entry = some entry → ∃ expiry,
      Coherent laws envs capacity (settle (t.setRow i entry))
        (rows.set i { row with entry := entry, expiry := expiry }) ∧
      Row.known { row with entry := entry, expiry := expiry } = row.known) :
    Stored laws envs capacity (knownOf rows) (t.withRouteEvidence handle change settle).2.2 := by
  unfold RoutingTable.withRouteEvidence
  split
  · exact ⟨rows, h, rfl⟩
  split
  · exact ⟨rows, h, rfl⟩
  next entry hentry =>
    obtain ⟨route, hat, hchange⟩ := Option.bind_eq_some_iff.mp hentry
    rw [h.routes, List.getElem?_map] at hat
    obtain ⟨row, hi, rfl⟩ := Option.map_eq_some_iff.mp hat
    obtain ⟨expiry, hcoherent, hsame⟩ := hsettle _ row entry hi hchange
    exact ⟨_, hcoherent, view_set_same h.destinations hi rfl hsame⟩

theorem Coherent.applyRouteEvidence (hbare : Surroundings.bare ∈ envs)
    (handle : RouteEvidenceHandle) (observedAt : InstantMillis) :
    Stored laws envs capacity (knownOf rows) (t.applyRouteEvidence b handle observedAt).2.2 := by
  refine h.withRouteEvidence handle fun i row entry hi hchange => ?_
  refine ⟨_, h.setRow_invalidate hbare hi entry, ?_⟩
  dsimp only at hchange
  split at hchange
  · cases hchange
    rfl
  · cases hchange

theorem Coherent.markUnresponsive
    (handle : RouteEvidenceHandle) (attemptStartedAt : InstantMillis) :
    Stored laws envs capacity (knownOf rows)
      (t.markUnresponsiveIfNotActiveSince handle attemptStartedAt).2.2 := by
  refine h.withRouteEvidence handle fun i row entry hi hchange => ?_
  split at hchange
  · cases hchange
  · cases hchange
    exact ⟨row.expiry, h.setRow_same hi _ fun _ => rfl, rfl⟩

omit h in
theorem Row.route_repoint (previous current : InterfaceId) (now : InstantMillis) (r : Row) :
    (r.repoint previous current now).route = r.route.repoint previous current now := by
  by_cases hother : r.entry.receivingInterface = previous <;>
    simp [Row.repoint, RouteRow.repoint, Row.route, Row.refiled, Row.destination, hother]

omit h in
theorem Row.repoint_cases (previous current : InterfaceId) (now : InstantMillis) (r : Row) :
    (r.repoint previous current now).announce = r.announce ∧
      (r.repoint previous current now).handle = r.handle ∧
      (r.repoint previous current now).ids = r.ids := by
  unfold Row.repoint
  split <;> exact ⟨rfl, rfl, rfl⟩

theorem Coherent.repointRoutes
    (hbare : Surroundings.bare ∈ envs) (previous current : InterfaceId) (now : InstantMillis) :
    Stored laws envs capacity
      (fun destination => (knownOf rows destination).map (Known.repoint previous current))
      (t.repointRoutes b previous current now).2 := by
  have hroutes : t.routes.map (RouteRow.repoint previous current now) =
      rows.map fun row => (row.repoint previous current now).route := by
    rw [h.routes, List.map_map]
    exact List.map_congr_left fun row _ => (row.route_repoint previous current now).symm
  have hdated : ∀ row ∈ rows, (row.repoint previous current now).Dated envs := by
    intro row hrow
    unfold Row.repoint
    split
    · exact h.dated row hrow
    · exact ⟨.bare, hbare, rfl⟩
  have hmoved : ∀ {expiries : I}, laws.expiries.Holds expiries
        (rows.map fun row => (row.repoint previous current now).expiry) →
      Coherent laws envs capacity
        { t with
          routes := t.routes.map (RouteRow.repoint previous current now)
          routeExpiries := expiries } (rows.map (Row.repoint previous current now)) :=
    h.map _ hroutes (fun row => (row.repoint_cases previous current now).1)
      (fun row => (row.repoint_cases previous current now).2.1)
      (fun row => (row.repoint_cases previous current now).2.2) hdated
  refine ⟨rows.map (Row.repoint previous current now), ?_, ?_⟩
  · unfold RoutingTable.repointRoutes
    dsimp only
    split
    · exact hmoved (laws.expiries.invalidate _ _)
    next hnone =>
    -- No row is moved, and the index stays as it is.
    have hstays : ∀ row ∈ rows, (row.repoint previous current now).expiry = row.expiry := by
      intro row hrow
      have hother : row.entry.receivingInterface ≠ previous := by
        have hcount := List.countP_eq_zero.mp (not_not.mp hnone) row.route
          (by rw [h.routes]; exact List.mem_map_of_mem hrow)
        intro heq
        exact hcount (decide_eq_true heq)
      unfold Row.repoint
      rw [if_pos hother]
    refine hmoved ?_
    rw [List.map_congr_left hstays]
    exact h.expiries
  · funext destination
    unfold knownOf
    rw [view_map (Row.repoint previous current now) fun row _ =>
      congrArg Announce.destination (row.repoint_cases previous current now).1]
    unfold view
    rw [Option.map_map]
    refine congrArg (fun field => (lookup Row.destination rows destination).map field)
      (funext fun row => ?_)
    by_cases hother : row.entry.receivingInterface = previous <;>
      simp [Row.repoint, Known.repoint, Row.known, Row.stored, Row.refiled, hother]

theorem Coherent.soonestRouteExpiry (henv : env ∈ envs) :
    Stored laws envs capacity (knownOf rows) (t.soonestRouteExpiryIndexedWithWarmth b env).2 := by
  have hlaw := laws.expiries.earliestExact (t.expiryOfWithWarmth env) h.expiries
  rw [List.length_map, ← h.length_eq] at hlaw
  obtain ⟨column, hrefiled, hholds⟩ := hlaw
  obtain ⟨rows', hcoherent, -, hknown⟩ := h.refile henv hrefiled hholds
  exact ⟨rows', hcoherent, hknown⟩

theorem Coherent.storedAnnounceFor (destination : DestinationHash) :
    t.storedAnnounceFor b destination = (knownOf rows destination).map Known.announce := by
  unfold RoutingTable.storedAnnounceFor
  cases hindex : t.indexOf destination with
  | none =>
    rw [h.absent hindex]
    rfl
  | some i =>
    obtain ⟨row, hi, -, hknown⟩ := h.found hindex
    have hdata : b.appData.get t.announceAppData row.handle = row.announce.appData :=
      laws.appData.get h.appData (view_of_getElem? h.handles hi)
    simp only [Option.bind_eq_bind, Option.bind_some, h.route_at hi, h.record_at hi, hknown,
      Row.record, Announce.record, hdata]
    rfl

theorem Coherent.existingRouteFor (destination : DestinationHash) (env : Surroundings) :
    (t.existingRouteFor b destination env).map ExistingRoute.announceIdHistory =
      (knownOf rows destination).map Known.ids := by
  unfold RoutingTable.existingRouteFor
  cases hindex : t.indexOf destination with
  | none =>
    rw [h.absent hindex]
    rfl
  | some i =>
    obtain ⟨row, hi, -, hknown⟩ := h.found hindex
    have hlt := lt_length hi
    have hids : b.history.history t.announceIdHistory i = row.ids := by
      rw [laws.history.history h.history (by rwa [List.length_map]),
        List.getD_eq_getElem?_getD, List.getElem?_map, hi]
      rfl
    simp only [Option.bind_eq_bind, Option.bind_some, h.route_at hi, hknown, hids]
    rfl

end

end Prns.Ports.Routing
