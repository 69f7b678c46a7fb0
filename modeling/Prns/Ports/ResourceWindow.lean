import Mathlib.Algebra.GroupWithZero.Nat

/-!
# Request windows of incoming resources

Model of the round bookkeeping of `routing/links/resources/receive/rounds.rs`, of the
silent rounds of `receive/watchdog.rs` and of the inheritance in `receive/gate.rs`. A
transfer asks for at most `window` parts at a time. A completed round widens the
window, a silent one narrows it, and two detectors move the ceiling: enough fast rounds
lift it to `WINDOW_MAX`, enough very slow ones drop it to `WINDOW_MAX_VERY_SLOW`. A
link remembers the window of its last transfer, and the next one starts with it.

The counters are `usize`, so a subtraction below zero panics, or wraps where overflow
checks are off. Either way the model has no next state (`checkedSub`).
-/

namespace Prns.Ports.ResourceWindow

def windowMax : Nat := 75
def windowStart : Nat := 4
def windowMin : Nat := 2
def windowMaxSlow : Nat := 10
def windowMaxVerySlow : Nat := 4
def windowFlexibility : Nat := 4
def partRequestMaxRetries : Nat := 16
def partTimeoutFactor : Nat := 4
def partTimeoutFactorAfterRtt : Nat := 2
def rateFastBytesPerSecond : Nat := 50 * 1000 / 8
def rateVerySlowBytesPerSecond : Nat := 2 * 1000 / 8
def fastRateThreshold : Nat := windowMaxSlow - windowStart - 2
def verySlowRateThreshold : Nat := 2
def establishmentCostEstimateBytes : Nat := 86 + 118 + 83

def u64Max : Nat := 2 ^ 64 - 1

def saturatingAdd (a b : Nat) : Nat := min (a + b) u64Max

def saturatingMul (a b : Nat) : Nat := min (a * b) u64Max

def checkedDiv (a b : Nat) : Option Nat := if b = 0 then none else some (a / b)

def checkedSub (a b : Nat) : Option Nat := if b ≤ a then some (a - b) else none

/-- The fields of `IncomingResourceState` that the rounds read or write. -/
structure IncomingResourceState where
  outstandingPartCount : Nat
  waitingForHmu : Bool
  window : Nat
  windowMin : Nat
  windowMax : Nat
  retriesLeft : Nat
  measuredRttMs : Option Nat
  partTimeoutFactor : Nat
  requestSentAt : Option Nat
  requestSentBytes : Nat
  awaitingRoundFirstResponse : Bool
  receivedByteCount : Nat
  receivedByteCountAtRequest : Nat
  requestResponseBytesPerSecond : Nat
  dataBytesPerSecond : Nat
  inheritedEifr : Option Nat
  fastRateRounds : Nat
  verySlowRateRounds : Nat
  deriving DecidableEq, Repr

/-- What `accept` writes. -/
def accept : IncomingResourceState where
  outstandingPartCount := 0
  waitingForHmu := false
  window := windowStart
  windowMin := ResourceWindow.windowMin
  windowMax := windowMaxSlow
  retriesLeft := 0
  measuredRttMs := none
  partTimeoutFactor := ResourceWindow.partTimeoutFactor
  requestSentAt := none
  requestSentBytes := 0
  awaitingRoundFirstResponse := false
  receivedByteCount := 0
  receivedByteCountAtRequest := 0
  requestResponseBytesPerSecond := 0
  dataBytesPerSecond := 0
  inheritedEifr := none
  fastRateRounds := 0
  verySlowRateRounds := 0

/-- What a link remembers of the transfer it concluded last. -/
structure LinkMemory where
  lastResourceWindow : Option Nat
  lastResourceEifr : Option Nat
  deriving DecidableEq, Repr

/-- The end of `admit_accepted_resource`: the new transfer inherits from the link. -/
def admitAcceptedResource (link : LinkMemory) : IncomingResourceState :=
  { accept with
    retriesLeft := partRequestMaxRetries
    window := link.lastResourceWindow.getD accept.window
    inheritedEifr := link.lastResourceEifr }

def noteFastRateRound (s : IncomingResourceState) (rate : Nat) : IncomingResourceState :=
  if rateFastBytesPerSecond < rate ∧ s.fastRateRounds < fastRateThreshold then
    let s := { s with fastRateRounds := s.fastRateRounds + 1 }
    if s.fastRateRounds = fastRateThreshold then { s with windowMax := ResourceWindow.windowMax }
    else s
  else s

def growWindowAfterFullRound (s : IncomingResourceState) : Option IncomingResourceState :=
  if s.window < s.windowMax then do
    let s := { s with window := s.window + 1 }
    let ahead ← checkedSub s.window s.windowMin
    if windowFlexibility - 1 < ahead then pure { s with windowMin := s.windowMin + 1 }
    else pure s
  else some s

def shrinkWindowAfterSilentRound (s : IncomingResourceState) : Option IncomingResourceState :=
  if s.windowMin < s.window then do
    let window ← checkedSub s.window 1
    let s := { s with window := window }
    if s.windowMin < s.windowMax then do
      let windowMax ← checkedSub s.windowMax 1
      let s := { s with windowMax := windowMax }
      let headroom ← checkedSub s.windowMax s.window
      if windowFlexibility - 1 < headroom then do
        let windowMax ← checkedSub s.windowMax 1
        pure { s with windowMax := windowMax }
      else pure s
    else pure s
  else some s

/-! ## Rounds -/

/-- The round trip time moves at most 5% toward each sample. -/
def rttSteppedToward (measuredMs : Option Nat) (sampleMs linkRttMs : Nat) : Nat :=
  match measuredMs with
  | none => linkRttMs
  | some rtt =>
      if sampleMs < rtt then max (rtt - rtt * 5 / 100) sampleMs
      else if rtt < sampleMs then min (rtt + rtt * 5 / 100) sampleMs
      else rtt

def absorbRoundFirstResponse (s : IncomingResourceState) (partLen arrivedAt linkRttMs : Nat) :
    IncomingResourceState :=
  let s := { s with awaitingRoundFirstResponse := false,
                    partTimeoutFactor := partTimeoutFactorAfterRtt }
  match s.requestSentAt with
  | none => s
  | some sentAt =>
      let roundTripMs := arrivedAt - sentAt
      let measured := rttSteppedToward s.measuredRttMs roundTripMs linkRttMs
      let s := { s with measuredRttMs := some measured }
      let roundCost := saturatingAdd partLen s.requestSentBytes
      match checkedDiv (saturatingMul roundCost 1000) roundTripMs with
      | none => s
      | some rate => noteFastRateRound { s with requestResponseBytesPerSecond := rate } rate

/-- The very slow detector. -/
def noteVerySlowRateRound (s : IncomingResourceState) (rate : Nat) : IncomingResourceState :=
  if s.fastRateRounds = 0 ∧ rate < rateVerySlowBytesPerSecond ∧
      s.verySlowRateRounds < verySlowRateThreshold then
    let s := { s with verySlowRateRounds := s.verySlowRateRounds + 1 }
    if s.verySlowRateRounds = verySlowRateThreshold then
      { s with windowMax := windowMaxVerySlow }
    else s
  else s

def absorbCompletedRound (s : IncomingResourceState) (arrivedAt : Nat) :
    Option IncomingResourceState := do
  let s ← growWindowAfterFullRound s
  match s.requestSentAt with
  | none => pure s
  | some sentAt =>
      let elapsedMs := arrivedAt - sentAt
      let transferred := s.receivedByteCount - s.receivedByteCountAtRequest
      match checkedDiv (saturatingMul transferred 1000) elapsedMs with
      | none => pure s
      | some rate =>
          pure (noteVerySlowRateRound
            (noteFastRateRound { s with dataBytesPerSecond := rate } rate) rate)

def takePart (s : IncomingResourceState) (partLen arrivedAt linkRttMs : Nat) :
    IncomingResourceState :=
  let s := { s with receivedByteCount := saturatingAdd s.receivedByteCount partLen }
  let s := if s.awaitingRoundFirstResponse then
    absorbRoundFirstResponse s partLen arrivedAt linkRttMs else s
  { s with retriesLeft := partRequestMaxRetries }

/-- What `finish_resource_part` does to the transfer that took a part: `outstanding` is
what `place_part` left, and `complete` says that it was the last part of all. -/
def finishResourcePart (s : IncomingResourceState)
    (partLen arrivedAt linkRttMs outstanding : Nat) (complete : Bool) :
    Option IncomingResourceState :=
  let s := takePart { s with outstandingPartCount := outstanding } partLen arrivedAt linkRttMs
  if complete then some s
  else if s.outstandingPartCount = 0 ∧ s.waitingForHmu = false then
    absorbCompletedRound s arrivedAt
  else some s

/-- What `emit_resource_pull` does to a transfer that asks for parts. -/
def emitResourcePull (s : IncomingResourceState) (now requestWireLen requestedCount : Nat)
    (exhausted : Bool) : IncomingResourceState :=
  { s with
    outstandingPartCount := requestedCount
    waitingForHmu := exhausted
    requestSentAt := some now
    requestSentBytes := requestWireLen
    receivedByteCountAtRequest := s.receivedByteCount
    awaitingRoundFirstResponse := true }

/-- A due transfer that is not given up. -/
def fireSilentRound (s : IncomingResourceState) : Option IncomingResourceState := do
  let s ← shrinkWindowAfterSilentRound s
  let retriesLeft ← checkedSub s.retriesLeft 1
  pure { s with waitingForHmu := false, outstandingPartCount := 0, retriesLeft := retriesLeft }

def expectedInflightBitsPerSecond (s : IncomingResourceState) (linkRttMs : Nat) : Nat :=
  let eifr :=
    if 0 < s.dataBytesPerSecond then saturatingMul s.dataBytesPerSecond 8
    else
      match s.inheritedEifr with
      | some inherited => inherited
      | none =>
          saturatingMul establishmentCostEstimateBytes 8000 /
            max (s.measuredRttMs.getD linkRttMs) 1
  max eifr 1

/-- `note_resource_concluded`, where a window of zero is not remembered. -/
def noteResourceConcluded (link : LinkMemory) (window eifr : Nat) : LinkMemory :=
  if window = 0 then link else ⟨some window, some eifr⟩

structure World where
  link : LinkMemory
  transfers : Nat → Option IncomingResourceState

inductive Event where
  | admitted (key : Nat)
  | pull (key now requestWireLen requestedCount : Nat) (exhausted : Bool)
  | part (key partLen arrivedAt linkRttMs outstanding : Nat) (complete : Bool)
  | silent (key linkRttMs : Nat)
  | conclude (key linkRttMs : Nat)
  deriving DecidableEq, Repr

def World.put (w : World) (key : Nat) (s : Option IncomingResourceState) : World :=
  { w with transfers := fun other => if other = key then s else w.transfers other }

/-- `retire_incoming_resource`: the link remembers the transfer, however it ended. -/
def World.retire (w : World) (key linkRttMs : Nat) (s : IncomingResourceState) : World :=
  { w.put key none with
    link := noteResourceConcluded w.link s.window (expectedInflightBitsPerSecond s linkRttMs) }

/-- What happens to a transfer that is there. -/
def World.act (w : World) (s : IncomingResourceState) : Event → Option World
  | .admitted _ => some w
  | .pull key now requestWireLen requestedCount exhausted =>
      some (w.put key (some (emitResourcePull s now requestWireLen requestedCount exhausted)))
  | .part key partLen arrivedAt linkRttMs outstanding complete =>
      (finishResourcePart s partLen arrivedAt linkRttMs outstanding complete).map
        fun s => w.put key (some s)
  | .silent key linkRttMs =>
      if s.retriesLeft = 0 then some (w.retire key linkRttMs s)
      else (fireSilentRound s).map fun s => w.put key (some s)
  | .conclude key linkRttMs => some (w.retire key linkRttMs s)

def Event.key : Event → Nat
  | .admitted key => key
  | .pull key _ _ _ _ => key
  | .part key _ _ _ _ _ => key
  | .silent key _ => key
  | .conclude key _ => key

/-- One step. Nothing happens to a transfer that is not there, but for its admission;
there is no next state if a subtraction went below zero. -/
def World.step (w : World) (event : Event) : Option World :=
  match w.transfers event.key with
  | some s => w.act s event
  | none =>
      match event with
      | .admitted key => some (w.put key (some (admitAcceptedResource w.link)))
      | _ => some w

def World.run (w : World) : List Event → Option World
  | [] => some w
  | event :: events => (w.step event).bind fun w' => w'.run events

/-- A link that was just established. -/
def World.fresh : World := ⟨⟨none, none⟩, fun _ => none⟩

/-- The floor is at least the least one, the window between floor and ceiling, and the
ceiling at most the highest one. -/
structure Ordered (s : IncomingResourceState) : Prop where
  floor : ResourceWindow.windowMin ≤ s.windowMin
  above : s.windowMin ≤ s.window
  below : s.window ≤ s.windowMax
  ceiling : s.windowMax ≤ ResourceWindow.windowMax

variable {s : IncomingResourceState}

theorem Ordered.congr {s' : IncomingResourceState} (h : Ordered s)
    (hwindow : s'.window = s.window := by rfl) (hmin : s'.windowMin = s.windowMin := by rfl)
    (hmax : s'.windowMax = s.windowMax := by rfl) : Ordered s' := by
  obtain ⟨hfloor, habove, hbelow, hceiling⟩ := h
  constructor <;> omega

theorem ordered_admitted {link : LinkMemory} (h : ∀ window, link.lastResourceWindow = some window →
      windowMin ≤ window ∧ window ≤ windowMaxSlow) : Ordered (admitAcceptedResource link) := by
  cases hlink : link.lastResourceWindow with
  | none => constructor <;> simp only [admitAcceptedResource, hlink, Option.getD_none] <;> decide
  | some window =>
    obtain ⟨hlow, hhigh⟩ := h window hlink
    have hmax : windowMaxSlow ≤ windowMax := by decide
    constructor <;> simp only [admitAcceptedResource, hlink, Option.getD_some, accept] <;> omega

theorem noteFastRateRound_cases (s : IncomingResourceState) (rate : Nat) :
    let s' := noteFastRateRound s rate
    s'.window = s.window ∧ s'.windowMin = s.windowMin ∧
      s'.verySlowRateRounds = s.verySlowRateRounds ∧
      (s'.windowMax = s.windowMax ∨ s'.windowMax = ResourceWindow.windowMax) := by
  unfold noteFastRateRound
  grind

theorem ordered_noteFastRateRound (h : Ordered s) (rate : Nat) :
    Ordered (noteFastRateRound s rate) := by
  obtain ⟨hwindow, hmin, -, hmax⟩ := noteFastRateRound_cases s rate
  obtain ⟨hfloor, habove, hbelow, hceiling⟩ := h
  constructor <;> omega

theorem noteVerySlowRateRound_cases (s : IncomingResourceState) (rate : Nat) :
    let s' := noteVerySlowRateRound s rate
    s'.window = s.window ∧ s'.windowMin = s.windowMin ∧
      (s'.windowMax = s.windowMax ∨ s'.windowMax = windowMaxVerySlow ∧
        s.verySlowRateRounds < s'.verySlowRateRounds ∧
        s'.verySlowRateRounds = verySlowRateThreshold) := by
  unfold noteVerySlowRateRound
  grind

theorem growWindowAfterFullRound_ordered (h : Ordered s) :
    ∃ s', growWindowAfterFullRound s = some s' ∧ Ordered s' ∧
      s'.verySlowRateRounds = s.verySlowRateRounds := by
  obtain ⟨hfloor, habove, hbelow, hceiling⟩ := h
  unfold growWindowAfterFullRound
  split
  · simp only [checkedSub, if_pos (show s.windowMin ≤ s.window + 1 by omega),
      Option.bind_eq_bind, Option.bind_some]
    split <;> refine ⟨_, rfl, ?_, rfl⟩ <;> constructor <;> simp only <;> omega
  · exact ⟨s, rfl, ⟨hfloor, habove, hbelow, hceiling⟩, rfl⟩

/-- Silence narrows the window and its ceiling, and never below zero: the ceiling stays
at or above the window through all three steps. -/
theorem shrinkWindowAfterSilentRound_ordered (h : Ordered s) :
    ∃ s', shrinkWindowAfterSilentRound s = some s' ∧ Ordered s' ∧
      s'.retriesLeft = s.retriesLeft := by
  obtain ⟨hfloor, habove, hbelow, hceiling⟩ := h
  unfold shrinkWindowAfterSilentRound
  split
  · have hwindow : checkedSub s.window 1 = some (s.window - 1) := if_pos (by omega)
    have hmax : checkedSub s.windowMax 1 = some (s.windowMax - 1) := if_pos (by omega)
    have hheadroom : checkedSub (s.windowMax - 1) (s.window - 1) =
        some (s.windowMax - 1 - (s.window - 1)) := if_pos (by omega)
    simp only [hwindow, Option.bind_eq_bind, Option.bind_some]
    rw [if_pos (by omega)]
    simp only [hmax, hheadroom, Option.bind_some]
    split
    · have hlast : checkedSub (s.windowMax - 1) 1 = some (s.windowMax - 1 - 1) := if_pos (by omega)
      simp only [hlast, Option.bind_some]
      refine ⟨_, rfl, ?_, rfl⟩
      constructor <;> simp only <;> omega
    · refine ⟨_, rfl, ?_, rfl⟩
      constructor <;> simp only <;> omega
  · exact ⟨s, rfl, ⟨hfloor, habove, hbelow, hceiling⟩, rfl⟩

theorem takePart_ordered (h : Ordered s) (partLen arrivedAt linkRttMs : Nat) :
    Ordered (takePart s partLen arrivedAt linkRttMs) ∧
      (takePart s partLen arrivedAt linkRttMs).verySlowRateRounds = s.verySlowRateRounds := by
  unfold takePart absorbRoundFirstResponse
  simp only
  split
  · -- a first response is no slow round
    split
    · exact ⟨h.congr, rfl⟩
    split
    · exact ⟨h.congr, rfl⟩
    · refine ⟨(?_ : Ordered (noteFastRateRound _ _)).congr,
        (noteFastRateRound_cases _ _).2.2.1⟩
      apply ordered_noteFastRateRound
      exact h.congr
  · exact ⟨h.congr, rfl⟩

/-- The very slow detector was the one that moved the ceiling, to under the window. -/
def Dropped (s s' : IncomingResourceState) : Prop :=
  s.verySlowRateRounds < s'.verySlowRateRounds ∧
    s'.verySlowRateRounds = verySlowRateThreshold ∧ windowMaxVerySlow < s'.window

instance (s s' : IncomingResourceState) : Decidable (Dropped s s') := by
  unfold Dropped
  infer_instance

/-- A completed round keeps the order unless it drops the ceiling under the window. -/
theorem absorbCompletedRound_ordered (h : Ordered s) (arrivedAt : Nat) :
    ∃ s', absorbCompletedRound s arrivedAt = some s' ∧ (¬ Dropped s s' → Ordered s') := by
  obtain ⟨grown, hgrown, hordered, hslow⟩ := growWindowAfterFullRound_ordered h
  unfold absorbCompletedRound
  rw [hgrown, Option.bind_eq_bind, Option.bind_some]
  split
  · exact ⟨grown, rfl, fun _ => hordered⟩
  simp only
  split
  · exact ⟨grown, rfl, fun _ => hordered⟩
  next rate _ =>
    refine ⟨_, rfl, fun hnot => ?_⟩
    have hrated : Ordered { grown with dataBytesPerSecond := rate } :=
      hordered.congr
    have hsame : ({ grown with dataBytesPerSecond := rate } :
      IncomingResourceState).verySlowRateRounds = s.verySlowRateRounds := hslow
    generalize ({ grown with dataBytesPerSecond := rate } : IncomingResourceState) = rated at *
    have hfast := ordered_noteFastRateRound hrated rate
    obtain ⟨-, -, hcount, -⟩ := noteFastRateRound_cases rated rate
    obtain ⟨hwindow, hmin, hmax⟩ :=
      noteVerySlowRateRound_cases (noteFastRateRound rated rate) rate
    rcases hmax with hmax | ⟨hmax, hmore, hfull⟩
    · exact hfast.congr hwindow hmin hmax
    have hwithin : ¬ windowMaxVerySlow <
        (noteVerySlowRateRound (noteFastRateRound rated rate) rate).window :=
      fun hover => hnot ⟨by omega, hfull, hover⟩
    obtain ⟨hfloor, habove, hbelow, hceiling⟩ := hfast
    have hveryslow : windowMaxVerySlow ≤ ResourceWindow.windowMax := by decide
    constructor <;> omega

theorem finishResourcePart_ordered (h : Ordered s)
    (partLen arrivedAt linkRttMs outstanding : Nat) (complete : Bool) :
    ∃ s', finishResourcePart s partLen arrivedAt linkRttMs outstanding complete = some s' ∧
      (¬ Dropped s s' → Ordered s') := by
  obtain ⟨hordered, hslow⟩ := takePart_ordered
    (h.congr : Ordered { s with outstandingPartCount := outstanding })
    partLen arrivedAt linkRttMs
  unfold finishResourcePart
  simp only
  generalize takePart { s with outstandingPartCount := outstanding } partLen arrivedAt linkRttMs =
    taken at hordered hslow ⊢
  split
  · exact ⟨taken, rfl, fun _ => hordered⟩
  split
  · obtain ⟨s', hround, hkeeps⟩ := absorbCompletedRound_ordered hordered arrivedAt
    refine ⟨s', hround, fun hnot => hkeeps fun hdropped => hnot ?_⟩
    obtain ⟨hmore, hrest⟩ := hdropped
    rw [hslow] at hmore
    exact ⟨hmore, hrest⟩
  · exact ⟨taken, rfl, fun _ => hordered⟩

theorem fireSilentRound_ordered (h : Ordered s)
    (hretries : s.retriesLeft ≠ 0) : ∃ s', fireSilentRound s = some s' ∧ Ordered s' := by
  obtain ⟨shrunk, hshrunk, hordered, hsame⟩ := shrinkWindowAfterSilentRound_ordered h
  have hsub : checkedSub shrunk.retriesLeft 1 = some (shrunk.retriesLeft - 1) := if_pos (by omega)
  unfold fireSilentRound
  simp only [hshrunk, hsub, Option.bind_eq_bind, Option.bind_some]
  exact ⟨_, rfl, hordered.congr⟩

/-! ## Runs -/

/-- Every transfer is in order, and what the link remembers is a window of one. -/
structure World.Inv (w : World) : Prop where
  transfers : ∀ key s, w.transfers key = some s → Ordered s
  link : ∀ window, w.link.lastResourceWindow = some window → windowMin ≤ window

theorem World.inv_fresh : World.fresh.Inv := ⟨nofun, nofun⟩

variable {w : World}

theorem World.Inv.put (h : w.Inv) (key : Nat) (hs : Ordered s) : (w.put key (some s)).Inv := by
  refine ⟨fun other s' hother => ?_, h.link⟩
  have hold := h.transfers other s'
  simp only [World.put] at hother
  grind

theorem World.Inv.retire (h : w.Inv) (key linkRttMs : Nat) (hs : Ordered s) :
    (w.retire key linkRttMs s).Inv := by
  have hwithin := Nat.le_trans hs.floor hs.above
  refine ⟨fun other s' hother => ?_, fun window hwindow => ?_⟩
  · have hold := h.transfers other s'
    simp only [World.retire, World.put] at hother
    grind
  · simp only [World.retire, World.put, noteResourceConcluded] at hwindow
    grind

/-- An inherited window is within the ceiling that a transfer starts with, and the very
slow detector does not drop the ceiling under the window. -/
def meets (w : World) : Event → Bool
  | .admitted key =>
      match w.transfers key, w.link.lastResourceWindow with
      | none, some window => decide (window ≤ windowMaxSlow)
      | _, _ => true
  | .part key partLen arrivedAt linkRttMs outstanding complete =>
      match w.transfers key with
      | none => true
      | some s =>
          match finishResourcePart s partLen arrivedAt linkRttMs outstanding complete with
          | none => true
          | some s' => decide (¬ Dropped s s')
  | _ => true

/-- All steps of the run meet the condition. -/
def meetsAll (w : World) : List Event → Bool
  | [] => true
  | event :: events => meets w event &&
      match w.step event with
      | none => true
      | some w' => meetsAll w' events

theorem World.step_inv (h : w.Inv) {event : Event} (hmeets : meets w event = true) :
    ∃ w', w.step event = some w' ∧ w'.Inv := by
  unfold World.step
  cases hkey : w.transfers event.key with
  | none =>
    cases event with
    | admitted key =>
      refine ⟨_, rfl, h.put key (ordered_admitted fun window hwindow => ?_)⟩
      simp only [meets, show w.transfers key = none from hkey, hwindow, decide_eq_true_eq] at hmeets
      exact ⟨h.link window hwindow, hmeets⟩
    | pull key now requestWireLen requestedCount exhausted => exact ⟨w, rfl, h⟩
    | part key partLen arrivedAt linkRttMs outstanding complete => exact ⟨w, rfl, h⟩
    | silent key linkRttMs => exact ⟨w, rfl, h⟩
    | conclude key linkRttMs => exact ⟨w, rfl, h⟩
  | some s =>
    have hs := h.transfers _ s hkey
    cases event with
    | admitted key => exact ⟨w, rfl, h⟩
    | pull key now requestWireLen requestedCount exhausted =>
      exact ⟨_, rfl, h.put key (hs.congr)⟩
    | part key partLen arrivedAt linkRttMs outstanding complete =>
      obtain ⟨s', hfinish, hordered⟩ :=
        finishResourcePart_ordered hs partLen arrivedAt linkRttMs outstanding complete
      simp only [meets, show w.transfers key = some s from hkey, hfinish, decide_eq_true_eq]
        at hmeets
      refine ⟨w.put key (some s'), ?_, h.put key (hordered hmeets)⟩
      simp only [World.act, hfinish, Option.map_some]
    | silent key linkRttMs =>
      simp only [World.act]
      split
      · exact ⟨_, rfl, h.retire key linkRttMs hs⟩
      · next hretries =>
          obtain ⟨s', hsilent, hordered⟩ := fireSilentRound_ordered hs hretries
          refine ⟨w.put key (some s'), ?_, h.put key hordered⟩
          rw [hsilent, Option.map_some]
    | conclude key linkRttMs => exact ⟨_, rfl, h.retire key linkRttMs hs⟩

theorem World.run_inv (h : w.Inv) (events : List Event)
    (hmeets : meetsAll w events = true) : ∃ w', w.run events = some w' ∧ w'.Inv := by
  induction events generalizing w with
  | nil => exact ⟨w, rfl, h⟩
  | cons event events ih =>
    rw [meetsAll, Bool.and_eq_true] at hmeets
    obtain ⟨w', hstep, hw'⟩ := World.step_inv h hmeets.1
    have hrest := hmeets.2
    rw [hstep] at hrest
    obtain ⟨w'', hrun, hw''⟩ := ih hw' hrest
    refine ⟨w'', ?_, hw''⟩
    rw [World.run, hstep, Option.bind_some, hrun]

/-- A silent round and then a completed one. -/
def recovering : List Event :=
  [.admitted 0, .pull 0 0 83 4 false, .silent 0 250, .pull 0 6000 83 3 false,
    .part 0 464 9000 250 0 false]

/-- Two rounds of 464-byte parts at under 250 bytes a second. -/
def slowRounds : List Event :=
  [.admitted 0, .pull 0 0 83 4 false,
    .part 0 464 5000 250 3 false, .part 0 464 7600 250 2 false,
    .part 0 464 9400 250 1 false, .part 0 464 10400 250 0 false,
    .pull 0 10400 83 5 false,
    .part 0 464 13400 250 4 false, .part 0 464 16400 250 3 false,
    .part 0 464 19400 250 2 false, .part 0 464 22400 250 1 false,
    .part 0 464 25400 250 0 false, .pull 0 25400 83 6 false]

end Prns.Ports.ResourceWindow
