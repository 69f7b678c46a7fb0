import Prns.Ports.ChannelSend
import Prns.Ports.DeadlineHeapRuns
import Prns.Verified.KeyedRows

/-!
# The channel table and its timers

Model of `links/channel/table`: the growable table with its timeout index, the rule by which
a row's cached earliest timeout absorbs a change of one deadline, and the engine's search for
a send that is due. The hash index over the links is a search for the link, and the columns
of the receiving side, which no timer reads, are left out. An operation on a row or a send
that is not there, which would panic, changes nothing.

`channel_timers_exact` says that the timers never go blind: along every run the caches are
the minima they stand for, and a send that is due is found.
-/

namespace Prns.Ports.Channel

open Verified Verified.VecOps
open TemporalIndex

abbrev LinkId : Type := Nat

structure Row where
  link : LinkId
  send : SendRow
  earliest : Option InstantMillis
  deriving DecidableEq, Repr

def Row.timeouts (row : Row) : List InstantMillis := row.send.outstanding.map Outstanding.timeoutAt

inductive OutstandingTimeoutChange where
  | pushed (new : InstantMillis)
  | rewritten (previous new : InstantMillis)
  | retired (retired : InstantMillis)
  deriving DecidableEq, Repr

/-- `absorb_outstanding_timeout_change`: what the cached earliest timeout is set to, if it
is. -/
def Row.absorb (row : Row) : OutstandingTimeoutChange → Option (Option InstantMillis)
  | .pushed new => if row.earliest.all (new < ·) then some (some new) else none
  | .rewritten previous new =>
      match row.earliest with
      | some current =>
          if new ≤ current then some (some new)
          else if previous = current then some row.timeouts.min?
          else none
      | none => some (some new)
  | .retired retired => if row.earliest = some retired then some row.timeouts.min? else none

structure HeapChannelTable where
  rows : List Row
  timeoutIndex : HeapDeadlineIndex

namespace HeapChannelTable

def new : HeapChannelTable := ⟨[], .new⟩

/-- The column of the cached timeouts. -/
def deadlines (table : HeapChannelTable) : Rows := table.rows.map Row.earliest

def indexOf (table : HeapChannelTable) (link : LinkId) : Option Nat :=
  table.rows.findIdx? (·.link == link)

def ensure (table : HeapChannelTable) (link : LinkId) : Nat × HeapChannelTable :=
  match table.indexOf link with
  | some index => (index, table)
  | none =>
      let rows := table.rows ++ [⟨link, .fresh, none⟩]
      (table.rows.length, ⟨rows, table.timeoutIndex.insert table.rows.length none
        (deadlineOf (rows.map Row.earliest))⟩)

def close (table : HeapChannelTable) (link : LinkId) : HeapChannelTable :=
  match table.indexOf link with
  | none => table
  | some index => ⟨swapRemove table.rows index, table.timeoutIndex.swapRemove index
      (table.rows.length - 1) (deadlineOf table.deadlines)⟩

/-- The sending half of a row is written, but for its deadlines. -/
def edit (table : HeapChannelTable) (index : Nat) (f : SendRow → SendRow) : HeapChannelTable :=
  match table.rows[index]? with
  | none => table
  | some row => { table with rows := table.rows.set index { row with send := f row.send } }

def setNextTxSequence (table : HeapChannelTable) (index : Nat) (sequence : ChannelSequence) :
    HeapChannelTable :=
  table.edit index ({ · with nextTx := sequence })

def setWindow (table : HeapChannelTable) (index : Nat) (window : ChannelWindow) :
    HeapChannelTable :=
  table.edit index ({ · with window := window })

def setOutstandingTries (table : HeapChannelTable) (index sub tries : Nat) : HeapChannelTable :=
  table.edit index fun row =>
    { row with outstanding := row.outstanding.modify sub ({ · with tries := tries }) }

/-- The sends of a row change and its cached timeout absorbs that. If it is set, the index is
told. -/
def absorb (table : HeapChannelTable) (index : Nat) (row : Row) (sends : List Outstanding)
    (change : OutstandingTimeoutChange) : HeapChannelTable :=
  let row := { row with send.outstanding := sends }
  match row.absorb change with
  | none => { table with rows := table.rows.set index row }
  | some earliest =>
      let rows := table.rows.set index { row with earliest := earliest }
      ⟨rows, table.timeoutIndex.update index earliest (deadlineOf (rows.map Row.earliest))⟩

def pushOutstanding (table : HeapChannelTable) (index : Nat) (send : Outstanding) :
    HeapChannelTable :=
  match table.rows[index]? with
  | none => table
  | some row =>
      table.absorb index row (row.send.outstanding ++ [{ send with tries := 0 }])
        (.pushed send.timeoutAt)

def sendAt (table : HeapChannelTable) (index sub : Nat) : Option (Row × Outstanding) := do
  let row ← table.rows[index]?
  let send ← row.send.outstanding[sub]?
  some (row, send)

def setOutstandingTimeoutAt (table : HeapChannelTable) (index sub : Nat)
    (timeoutAt : InstantMillis) : HeapChannelTable :=
  match table.sendAt index sub with
  | none => table
  | some (row, send) =>
      table.absorb index row (row.send.outstanding.set sub { send with timeoutAt := timeoutAt })
        (.rewritten send.timeoutAt timeoutAt)

def retireOutstanding (table : HeapChannelTable) (index sub : Nat) : HeapChannelTable :=
  match table.sendAt index sub with
  | none => table
  | some (row, send) =>
      table.absorb index row (swapRemove row.send.outstanding sub) (.retired send.timeoutAt)

/-- The full walk over all sends. -/
def scanEarliestTxTimeout (table : HeapChannelTable) : Option InstantMillis :=
  (table.rows.flatMap Row.timeouts).min?

/-- With the feature `std` the index answers, without it a scan of the cached timeouts. -/
def earliestTxTimeoutAt (std : Bool) (table : HeapChannelTable) : Option InstantMillis :=
  if std then
    table.timeoutIndex.eagerEarliestExact table.deadlines.length (deadlineOf table.deadlines)
  else linearEarliest table.deadlines.length (deadlineOf table.deadlines)

def firstDueChannel (std : Bool) (table : HeapChannelTable) (now : InstantMillis) : Option Nat :=
  if std then
    table.timeoutIndex.eagerFirstDue table.deadlines.length now (deadlineOf table.deadlines)
  else linearFirstDue table.deadlines.length now (deadlineOf table.deadlines) fun _ => true

def nextDueChannel (std : Bool) (table : HeapChannelTable) (now : InstantMillis) :
    Option (Nat × Nat) := do
  let index ← table.firstDueChannel std now
  let row ← table.rows[index]?
  let sub ← row.send.outstanding.findIdx? fun send => decide (send.timeoutAt ≤ now)
  some (index, sub)

/-- One turn of `stretch_channel_deadlines`. -/
def stretchDeadline (index inFlightCount : Nat) (rtt : RttMillis) (table : HeapChannelTable)
    (sub : Nat) : HeapChannelTable :=
  match table.sendAt index sub with
  | none => table
  | some (_, send) =>
      let stretched := saturatingAdd Channel.u64Max send.sentAt
        (channelRetryTimeoutMs rtt send.tries inFlightCount)
      if send.timeoutAt < stretched then table.setOutstandingTimeoutAt index sub stretched
      else table

def stretchChannelDeadlines (table : HeapChannelTable) (index : Nat) (rtt : RttMillis) :
    HeapChannelTable :=
  let inFlightCount := (table.rows[index]?.map (·.send.outstanding.length)).getD 0
  (List.range inFlightCount).reverse.foldl (stretchDeadline index inFlightCount rtt) table

/-- `retry_outstanding_send`, behind the frame it sends. -/
def retryOutstandingSend (table : HeapChannelTable) (index sub : Nat) (rtt : RttMillis) :
    HeapChannelTable :=
  match table.sendAt index sub with
  | none => table
  | some (row, send) =>
      let tries := send.tries + 1
      let timeoutAt := saturatingAdd Channel.u64Max send.sentAt
        (channelRetryTimeoutMs rtt tries row.send.outstanding.length)
      let retried := (table.setOutstandingTries index sub tries).setOutstandingTimeoutAt index sub
        timeoutAt
      (retried.stretchChannelDeadlines index rtt).setWindow index row.send.window.shrinkOnLoss

end HeapChannelTable

inductive TableOp where
  | ensure (link : LinkId)
  | close (link : LinkId)
  | setNextTxSequence (index : Nat) (sequence : ChannelSequence)
  | setWindow (index : Nat) (window : ChannelWindow)
  | setTries (index sub tries : Nat)
  | setTimeout (index sub : Nat) (timeoutAt : InstantMillis)
  | push (index : Nat) (send : Outstanding)
  | retire (index sub : Nat)
  | stretch (index : Nat) (rtt : RttMillis)
  | retry (index sub : Nat) (rtt : RttMillis)

namespace HeapChannelTable

def step (table : HeapChannelTable) : TableOp → HeapChannelTable
  | .ensure link => (table.ensure link).2
  | .close link => table.close link
  | .setNextTxSequence index sequence => table.setNextTxSequence index sequence
  | .setWindow index window => table.setWindow index window
  | .setTries index sub tries => table.setOutstandingTries index sub tries
  | .setTimeout index sub timeoutAt => table.setOutstandingTimeoutAt index sub timeoutAt
  | .push index send => table.pushOutstanding index send
  | .retire index sub => table.retireOutstanding index sub
  | .stretch index rtt => table.stretchChannelDeadlines index rtt
  | .retry index sub rtt => table.retryOutstandingSend index sub rtt

def run (ops : List TableOp) : HeapChannelTable := ops.foldl step new

/-- The caches are minima, and the index follows them. -/
structure Timed (table : HeapChannelTable) : Prop where
  cached : ∀ row ∈ table.rows, row.earliest = row.timeouts.min?
  indexed : HeapDeadlineIndex.Inv table.deadlines table.timeoutIndex

variable {table : HeapChannelTable} {index : Nat} {row row' : Row}

/-- What a change makes of the timeouts of a row. -/
def Turns (old new : List InstantMillis) : OutstandingTimeoutChange → Prop
  | .pushed at' => ∀ t, t ∈ new ↔ t = at' ∨ t ∈ old
  | .rewritten previous at' => ∃ rest : List InstantMillis,
      (∀ t, t ∈ old ↔ t = previous ∨ t ∈ rest) ∧ ∀ t, t ∈ new ↔ t = at' ∨ t ∈ rest
  | .retired at' => ∀ t, t ∈ old ↔ t = at' ∨ t ∈ new

variable {change : OutstandingTimeoutChange}

theorem absorb_exact {old : List InstantMillis} (hearliest : row.earliest = old.min?)
    (h : Turns old row.timeouts change) :
    (row.absorb change).getD row.earliest = row.timeouts.min? := by
  cases hold : old.min? with
  | none =>
    cases change <;> grind [Row.absorb, Turns, List.min?_eq_some_iff]
  | some earliest =>
    cases change <;> grind [Row.absorb, Turns, List.min?_eq_some_iff]

/-! ## One operation -/

variable (h : table.Timed)

include h

theorem Timed.put (hrow : table.rows[index]? = some row)
    (hearliest : row'.earliest = row.earliest) (hcached : row'.earliest = row'.timeouts.min?) :
    Timed { table with rows := table.rows.set index row' } where
  cached other hother := by
    rcases List.mem_or_eq_of_mem_set hother with hold | rfl
    · exact h.cached other hold
    · exact hcached
  indexed := by
    unfold deadlines
    rw [KeyedRows.map_key_set hrow hearliest]
    exact h.indexed

theorem Timed.edit (index : Nat) {f : SendRow → SendRow}
    (hf : ∀ row, (f row).outstanding.map Outstanding.timeoutAt =
      row.outstanding.map Outstanding.timeoutAt) : (table.edit index f).Timed := by
  unfold HeapChannelTable.edit
  split
  · exact h
  next row hrow =>
  refine h.put hrow rfl ?_
  rw [Row.timeouts, hf]
  exact h.cached row (List.mem_of_getElem? hrow)

theorem Timed.absorb (hrow : table.rows[index]? = some row) {sends : List Outstanding}
    (hturns : Turns row.timeouts (sends.map Outstanding.timeoutAt) change) :
    (table.absorb index row sends change).Timed := by
  have hexact := @absorb_exact { row with send.outstanding := sends } _ _
    (h.cached row (List.mem_of_getElem? hrow)) hturns
  unfold HeapChannelTable.absorb
  dsimp only
  split
  · next hleft =>
      rw [hleft] at hexact
      exact h.put hrow rfl hexact
  next earliest hset =>
    rw [hset] at hexact
    refine ⟨fun other hother => ?_, ?_⟩
    · rcases List.mem_or_eq_of_mem_set hother with hold | rfl
      · exact h.cached other hold
      · exact hexact
    · have hlt : index < table.deadlines.length := by
        simpa [deadlines] using (List.getElem?_eq_some_iff.mp hrow).1
      simpa [deadlines, List.map_set] using HeapDeadlineIndex.update_inv h.indexed earliest hlt

variable {send : Outstanding}

omit h in
theorem sendAt_eq_some {sub : Nat} :
    table.sendAt index sub = some (row, send) ↔
      table.rows[index]? = some row ∧ row.send.outstanding[sub]? = some send := by
  simp [sendAt, Option.bind_eq_some_iff]

theorem Timed.setOutstandingTimeoutAt (index sub : Nat)
    (timeoutAt : InstantMillis) : (table.setOutstandingTimeoutAt index sub timeoutAt).Timed := by
  unfold HeapChannelTable.setOutstandingTimeoutAt
  split
  · exact h
  next row send hat =>
  obtain ⟨hrow, hsend⟩ := sendAt_eq_some.mp hat
  obtain ⟨hlt, rfl⟩ := List.getElem?_eq_some_iff.mp hsend
  apply h.absorb hrow
  refine ⟨(row.send.outstanding.eraseIdx sub).map Outstanding.timeoutAt, fun t => ?_, fun t => ?_⟩
  · rw [Row.timeouts, ← ((List.getElem_cons_eraseIdx_perm hlt).map _).mem_iff]
    simp
  · rw [((List.set_perm_cons_eraseIdx hlt _).map _).mem_iff]
    simp

theorem Timed.retireOutstanding (index sub : Nat) : (table.retireOutstanding index sub).Timed := by
  unfold HeapChannelTable.retireOutstanding
  split
  · exact h
  next row send hat =>
  obtain ⟨hrow, hsend⟩ := sendAt_eq_some.mp hat
  apply h.absorb hrow
  intro t
  rw [Row.timeouts, ((swapRemove_perm _ _ _ hsend).map _).mem_iff, List.map_cons, List.mem_cons]

theorem Timed.pushOutstanding (index : Nat) (send : Outstanding) :
    (table.pushOutstanding index send).Timed := by
  unfold HeapChannelTable.pushOutstanding
  split
  · exact h
  next row hrow =>
  apply h.absorb hrow
  intro t
  simp [Row.timeouts, or_comm]

theorem Timed.setOutstandingTries (index sub tries : Nat) :
    (table.setOutstandingTries index sub tries).Timed := by
  refine h.edit index fun row => ?_
  apply List.ext_getElem?
  intro i
  by_cases hi : sub = i <;> simp [hi, Function.comp_def]

theorem Timed.stretchChannelDeadlines (index : Nat) (rtt : RttMillis) :
    (table.stretchChannelDeadlines index rtt).Timed := by
  unfold HeapChannelTable.stretchChannelDeadlines
  dsimp only
  generalize (table.rows[index]?.map (·.send.outstanding.length)).getD 0 = inFlightCount
  generalize (List.range inFlightCount).reverse = subs
  induction subs generalizing table with
  | nil => exact h
  | cons sub subs ih =>
    apply ih
    unfold stretchDeadline
    split
    · exact h
    dsimp only
    split_ifs
    · exact h.setOutstandingTimeoutAt index sub _
    · exact h

theorem Timed.retryOutstandingSend (index sub : Nat) (rtt : RttMillis) :
    (table.retryOutstandingSend index sub rtt).Timed := by
  unfold HeapChannelTable.retryOutstandingSend
  split
  · exact h
  refine Timed.edit ?_ index fun _ => rfl
  exact ((h.setOutstandingTries ..).setOutstandingTimeoutAt ..).stretchChannelDeadlines ..

theorem Timed.ensure (link : LinkId) : (table.ensure link).2.Timed := by
  unfold HeapChannelTable.ensure
  split
  · exact h
  refine ⟨fun row hrow => ?_, ?_⟩
  · rcases List.mem_append.mp hrow with hold | hnew
    · exact h.cached row hold
    · rw [List.mem_singleton.mp hnew]
      rfl
  · have hinv := HeapDeadlineIndex.insert_inv table.deadlines table.timeoutIndex none h.indexed
    simpa [deadlines] using hinv

theorem Timed.close (link : LinkId) : (table.close link).Timed := by
  unfold HeapChannelTable.close
  split
  · exact h
  next index hindex =>
  obtain ⟨hlt, -⟩ := List.findIdx?_eq_some_iff_getElem.mp hindex
  have hperm := swapRemove_perm table.rows index _ (List.getElem?_eq_getElem hlt)
  refine ⟨fun row hrow => h.cached row (hperm.mem_iff.mpr (List.mem_cons_of_mem _ hrow)), ?_⟩
  have hinv := HeapDeadlineIndex.swapRemove_inv h.indexed
    (show index < table.deadlines.length by simpa [deadlines] using hlt)
  simpa [deadlines, KeyedRows.map_swapRemove] using hinv

theorem Timed.step (op : TableOp) : (table.step op).Timed := by
  cases op with
  | ensure link => exact h.ensure link
  | close link => exact h.close link
  | setNextTxSequence index sequence =>
    exact Timed.edit (f := ({ · with nextTx := sequence })) h index fun _ => rfl
  | setWindow index window =>
    exact Timed.edit (f := ({ · with window := window })) h index fun _ => rfl
  | setTries index sub tries => exact h.setOutstandingTries index sub tries
  | setTimeout index sub timeoutAt => exact h.setOutstandingTimeoutAt index sub timeoutAt
  | push index send => exact h.pushOutstanding index send
  | retire index sub => exact h.retireOutstanding index sub
  | stretch index rtt => exact h.stretchChannelDeadlines index rtt
  | retry index sub rtt => exact h.retryOutstandingSend index sub rtt

omit h in
theorem timed_run (ops : List TableOp) : (run ops).Timed := by
  have hrun : ∀ table, Timed table → Timed (ops.foldl HeapChannelTable.step table) := by
    induction ops with
    | nil => exact fun _ h => h
    | cons op ops ih => exact fun _ h => ih _ (h.step op)
  exact hrun new ⟨nofun, HeapDeadlineIndex.start_inv _ .fresh⟩

/-! ## Answers -/

theorem Timed.deadlineOf_eq (index : Nat) :
    deadlineOf table.deadlines index = table.rows[index]?.bind (·.timeouts.min?) := by
  rw [deadlineOf, deadlines, List.getD_eq_getElem?_getD, List.getElem?_map]
  cases hrow : table.rows[index]? with
  | none => rfl
  | some row => simp [h.cached row (List.mem_of_getElem? hrow)]

theorem Timed.exists_deadline (hrow : row ∈ table.rows) {timeout : InstantMillis}
    (hmem : timeout ∈ row.timeouts) :
    ∃ index instant, deadlineOf table.deadlines index = some instant ∧ instant ≤ timeout := by
  obtain ⟨index, hindex⟩ := List.getElem?_of_mem hrow
  cases hmin : row.timeouts.min? with
  | none => simp [List.min?_eq_none_iff.mp hmin] at hmem
  | some instant =>
    refine ⟨index, instant, ?_, (List.min?_eq_some_iff.mp hmin).2 timeout hmem⟩
    rw [h.deadlineOf_eq, hindex]
    exact hmin

theorem Timed.exists_timeout {instant : InstantMillis}
    (hdeadline : deadlineOf table.deadlines index = some instant) :
    ∃ row, table.rows[index]? = some row ∧ instant ∈ row.timeouts := by
  rw [h.deadlineOf_eq, Option.bind_eq_some_iff] at hdeadline
  obtain ⟨row, hrow, hmin⟩ := hdeadline
  exact ⟨row, hrow, (List.min?_eq_some_iff.mp hmin).1⟩

theorem Timed.scan_of_isEarliest {answer : Option InstantMillis}
    (hanswer : IsEarliest table.deadlines answer) : answer = table.scanEarliestTxTimeout := by
  cases answer with
  | none =>
    symm
    rw [scanEarliestTxTimeout, List.min?_eq_none_iff, List.flatMap_eq_nil_iff]
    intro row hrow
    rw [List.eq_nil_iff_forall_not_mem]
    intro timeout hmem
    obtain ⟨index, instant, hdeadline, -⟩ := h.exists_deadline hrow hmem
    rw [hanswer index] at hdeadline
    cases hdeadline
  | some earliest =>
    obtain ⟨⟨index, -, hdeadline⟩, hle⟩ := hanswer
    obtain ⟨row, hrow, hmem⟩ := h.exists_timeout hdeadline
    symm
    rw [scanEarliestTxTimeout, List.min?_eq_some_iff]
    refine ⟨List.mem_flatMap.mpr ⟨row, List.mem_of_getElem? hrow, hmem⟩, ?_⟩
    intro timeout hmem
    obtain ⟨row, hrow, hmem⟩ := List.mem_flatMap.mp hmem
    obtain ⟨index, instant, hdeadline, hbefore⟩ := h.exists_deadline hrow hmem
    exact Nat.le_trans (hle index instant hdeadline) hbefore

theorem Timed.isDueMatch (std : Bool) (now : InstantMillis) :
    IsDueMatch table.deadlines now (fun _ => true) (table.firstDueChannel std now) := by
  cases std with
  | true => exact HeapDeadlineIndex.eagerFirstDue_isDueMatch h.indexed now
  | false => exact linearFirstDue_isDueMatch _ now _

theorem Timed.nextDueChannel (std : Bool) {now : InstantMillis} (hrow : row ∈ table.rows)
    (hsend : send ∈ row.send.outstanding) (hdue : send.timeoutAt ≤ now) :
    ∃ index sub due found, table.nextDueChannel std now = some (index, sub) ∧
      table.sendAt index sub = some (due, found) ∧ found.timeoutAt ≤ now := by
  obtain ⟨at', instant, hdeadline, hbefore⟩ := h.exists_deadline hrow (List.mem_map_of_mem hsend)
  have hfirst := h.isDueMatch std now
  cases hindex : table.firstDueChannel std now with
  | none =>
    rw [hindex] at hfirst
    have hnot := hfirst at' (lt_length_of_deadlineOf hdeadline)
      (isDue_iff.mpr ⟨instant, hdeadline, Nat.le_trans hbefore hdue⟩)
    cases hnot
  | some index =>
    rw [hindex] at hfirst
    obtain ⟨instant, hdeadline, hpast⟩ := isDue_iff.mp hfirst.2.1
    obtain ⟨due, hdueRow, hmem⟩ := h.exists_timeout hdeadline
    obtain ⟨first, hfound, rfl⟩ := List.mem_map.mp hmem
    cases hsub : due.send.outstanding.findIdx? fun send => decide (send.timeoutAt ≤ now) with
    | none =>
      have hlate := List.findIdx?_eq_none_iff.mp hsub first hfound
      simp [hpast] at hlate
    | some sub =>
      obtain ⟨hlt, hpast', -⟩ := List.findIdx?_eq_some_iff_getElem.mp hsub
      refine ⟨index, sub, due, due.send.outstanding[sub], ?_, ?_, of_decide_eq_true hpast'⟩
      · simp [HeapChannelTable.nextDueChannel, hindex, hdueRow, hsub]
      · exact sendAt_eq_some.mpr ⟨hdueRow, List.getElem?_eq_getElem hlt⟩

omit h

/-- **Channel timers never go blind.** Along every run of the table each cached earliest
timeout is the least of its channel, the table answers with the least of all, and whenever a
send is due, a due one is found. -/
theorem channel_timers_exact (std : Bool) (ops : List TableOp) :
    (∀ row ∈ (run ops).rows, row.earliest = row.timeouts.min?) ∧
      (run ops).earliestTxTimeoutAt std = (run ops).scanEarliestTxTimeout ∧
      ∀ now, ∀ row ∈ (run ops).rows, ∀ send ∈ row.send.outstanding, send.timeoutAt ≤ now →
        ∃ index sub due found, (run ops).nextDueChannel std now = some (index, sub) ∧
          (run ops).sendAt index sub = some (due, found) ∧ found.timeoutAt ≤ now := by
  have h := timed_run ops
  refine ⟨h.cached, h.scan_of_isEarliest ?_, fun now row hrow send hsend hdue =>
    h.nextDueChannel std hrow hsend hdue⟩
  cases std with
  | true => exact HeapDeadlineIndex.eagerEarliestExact_isEarliest h.indexed
  | false => exact linearEarliest_isEarliest _

def sampleSend (id : CommandId) (timeoutAt : InstantMillis) : Outstanding :=
  ⟨[], id, UInt16.ofNat id, 0, [], 0, 5, timeoutAt, 0⟩

/-- Two sends wait on the second of two channels, and the first channel is closed. -/
def sampleOps : List TableOp :=
  [.ensure 1, .ensure 2, .push 1 (sampleSend 0 9), .push 1 (sampleSend 1 7), .close 1,
    .setTimeout 0 1 12]

theorem channel_timers_exact_sample :
    ∃ index sub due found, (run sampleOps).nextDueChannel true 9 = some (index, sub) ∧
      (run sampleOps).sendAt index sub = some (due, found) ∧ found.timeoutAt ≤ 9 :=
  (channel_timers_exact true sampleOps).2.2 9
    ⟨2, ⟨0, .fresh, [sampleSend 0 9, sampleSend 1 12]⟩, some 9⟩ (by decide)
    (sampleSend 0 9) (by decide) (by decide)

end HeapChannelTable

end Prns.Ports.Channel
