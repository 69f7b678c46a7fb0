import Prns.Ports.ResourceReceiver

/-!
# Pull and serve

One segment of a resource goes from a sender to a receiver over a network that may lose any
packet, and may repeat and reorder the parts and the hashmap updates; part requests arrive
in the order in which they were sent, if they arrive.

The sender moves its scope when it serves a request that ran out of names; the receiver
gets more names when the answer reaches it. The invariant ties the two by `served`, the
height of the last such request that was served: the scope starts a little before it, the
receiver is not further behind than the scope allows, and knows at most one segment more.
-/

namespace Prns.Ports.ResourcePull

open ResourceWindow (windowMax partRequestMaxRetries)
open ResourceWindow

/-- A row of the outgoing resources, as far as it answers requests. -/
structure Sender where
  names : List MapHash
  guarded : Guarded names
  scopeStart : Nat

/-- `serve_resource_request`: the parts that are sent and the update that follows them; an
error cancels the transfer. -/
def Sender.serveResourceRequest (s : Sender) (request : PartRequest) :
    Except HashmapUpdatePlanError (Sender × List Nat × Option HashmapUpdate) :=
  let parts := servePartIndices s.names s.scopeStart request.requested
  match request.lastKnown with
  | none => .ok (s, parts, none)
  | some lastKnown =>
      match planHashmapUpdate s.names s.scopeStart lastKnown with
      | .error error => .error error
      | .ok plan =>
          .ok ({ s with scopeStart := plan.scopeStart }, parts,
            some ⟨plan.segment,
              (s.names.drop plan.entriesStart).take (plan.entriesEnd - plan.entriesStart)⟩)

/-! ## The system -/

/-- A request on its way, with the number of names that the receiver knew when it sent
it. -/
structure InFlight where
  request : PartRequest
  height : Nat

structure World where
  sender : Sender
  receiver : Receiver
  /-- The receiver takes parts. -/
  receiving : Bool
  /-- A part or an update has reached the receiver. -/
  landed : Bool
  requests : List InFlight
  /-- The positions of the parts that were sent so far. -/
  sent : List Nat
  updates : List HashmapUpdate
  /-- The sender cancelled the transfer. -/
  cancelled : Option HashmapUpdatePlanError
  /-- The receiver refused an update. -/
  refused : Option ApplyHashmapUpdateError

def World.pull (w : World) (now requestWireLen : Nat) : World :=
  match w.receiver.emitResourcePull now requestWireLen with
  | none => w
  | some (receiver, request) =>
      { w with
        receiver := receiver
        requests := w.requests ++ [⟨request, w.receiver.names.length⟩] }

/-- The sender serves the first of the requests on their way. -/
def World.serve (w : World) (first : InFlight) (rest : List InFlight) : World :=
  match w.sender.serveResourceRequest first.request with
  | .error error => { w with requests := rest, cancelled := some error }
  | .ok (sender, parts, update) =>
      { w with
        sender := sender
        requests := rest
        sent := w.sent ++ parts
        updates := w.updates ++ update.toList }

/-- A part was placed: the transfer is complete, a round is over, or it goes on. -/
def World.land (w : World) (placed : Receiver) (pace : ResourceWindow.IncomingResourceState)
    (now requestWireLen : Nat) : World :=
  let w' := { w with receiver := { placed with pace := pace }, landed := true }
  if placed.receivedPartCount = placed.partCount then { w' with receiving := false }
  else if placed.pace.outstandingPartCount = 0 ∧ placed.pace.waitingForHmu = false then
    w'.pull now requestWireLen
  else w'

/-- An update arrives. -/
def World.update (w : World) (update : HashmapUpdate) (now requestWireLen : Nat) : World :=
  match w.receiver.applyHashmapUpdate update with
  | .error error => { w with receiving := false, landed := true, refused := some error }
  | .ok receiver =>
      let pace := { receiver.pace with retriesLeft := partRequestMaxRetries }
      { w with receiver := { receiver with pace := pace }, landed := true }.pull now requestWireLen

/-- What the advertisement offers. -/
def World.offer (sender : Sender) (sealed : List UInt8) (sdu : Nat) : AcceptedResource :=
  ⟨sealed.length, sdu, (chunks sealed sdu).length, sender.names.take hashmapMaxLen⟩

/-- The sender has built the resource and advertised it, and the receiver has accepted. -/
def World.start (sender : Sender) (link : ResourceWindow.LinkMemory) (sealed : List UInt8)
    (sdu : Nat) : World where
  sender := sender
  receiver := .accept link (World.offer sender sealed sdu)
  receiving := true
  landed := false
  requests := []
  sent := []
  updates := []
  cancelled := none
  refused := none

/-- The link remembers a window within bounds, as every window of a transfer is. -/
def Remembers (link : ResourceWindow.LinkMemory) : Prop :=
  ∀ window, link.lastResourceWindow = some window → window ≤ windowMax

/-- The pace that the arithmetic of a round gives. Where a subtraction goes below zero and
the build does not check for it, the window is still within its bounds. -/
inductive Paces (computed : Option ResourceWindow.IncomingResourceState) :
    ResourceWindow.IncomingResourceState → Prop where
  | computed {pace} (h : computed = some pace) : Paces computed pace
  | wrapped {pace} (h : computed = none) (hwindow : pace.window ≤ windowMax)
      (hceiling : pace.windowMax ≤ windowMax) : Paces computed pace

section

variable (mapHash : List UInt8 → MapHash) (sealed : List UInt8) (sdu : Nat)

/-- What can happen next. -/
inductive Step (w : World) : World → Prop where
  /-- The advertisement reaches a receiver that takes parts. -/
  | advertised (now requestWireLen : Nat) (h : w.receiving = true) :
      Step w (w.pull now requestWireLen)
  /-- The advertisement is accepted again by a receiver that gave up. It is repeated only
  until the sender hears of the receiver, and neither a part nor an update overtook it. -/
  | readmitted (link : ResourceWindow.LinkMemory) (h : w.receiving = false)
      (hlanded : w.landed = false) (hlink : Remembers link) :
      Step w { w with
        receiver := .accept link (World.offer w.sender sealed sdu), receiving := true }
  /-- A request arrives. -/
  | serve {first rest} (h : w.requests = first :: rest) (hlive : w.cancelled = none) :
      Step w (w.serve first rest)
  /-- A request is lost. -/
  | lose (i : Nat) : Step w { w with requests := w.requests.eraseIdx i }
  /-- A part arrives that was sent at some time, and is placed. -/
  | part {i bytes position placed pace} (arrivedAt linkRttMs now requestWireLen : Nat)
      (h : w.receiving = true) (hsent : i ∈ w.sent) (hbytes : (chunks sealed sdu)[i]? = some bytes)
      (hmatch : w.receiver.matchPartInWindow (mapHash bytes) = some position)
      (hplaced : w.receiver.placePart position bytes = (.placed, placed))
      (hpace : Paces (ResourceWindow.finishResourcePart placed.pace bytes.length arrivedAt
        linkRttMs placed.pace.outstandingPartCount
        (decide (placed.receivedPartCount = placed.partCount))) pace) :
      Step w (w.land placed pace now requestWireLen)
  /-- An update arrives that was sent at some time. -/
  | update {update} (now requestWireLen : Nat) (h : w.receiving = true)
      (hsent : update ∈ w.updates) : Step w (w.update update now requestWireLen)
  /-- A round stays silent. -/
  | silent {pace} (now requestWireLen : Nat) (h : w.receiving = true)
      (hretries : w.receiver.pace.retriesLeft ≠ 0)
      (hpace : Paces (ResourceWindow.fireSilentRound w.receiver.pace) pace) :
      Step w ({ w with receiver := { w.receiver with pace := pace } }.pull now requestWireLen)
  /-- The receiver gives up. -/
  | abandon (h : w.receiving = true) : Step w { w with receiving := false }

/-- The runs of an honest sender and an honest receiver of one segment. -/
inductive Run : World → Prop where
  | start {sender : Sender} {link : ResourceWindow.LinkMemory}
      (hbuilt : writeHashmapWithoutCollision mapHash sealed sdu = some sender.names)
      (hscope : sender.scopeStart = 0) (hlink : Remembers link) :
      Run (.start sender link sealed sdu)
  | next {w w'} (run : Run w) (step : Step mapHash sealed sdu w w') : Run w'

end

/-- The window and its ceiling are within bounds. -/
def Bounded (pace : ResourceWindow.IncomingResourceState) : Prop :=
  pace.window ≤ windowMax ∧ pace.windowMax ≤ windowMax

variable {pace next : ResourceWindow.IncomingResourceState} (h : Bounded pace)

include h

theorem Bounded.congr (hwindow : next.window = pace.window)
    (hceiling : next.windowMax = pace.windowMax) : Bounded next := by
  rw [Bounded, hwindow, hceiling]
  exact h

omit h in
theorem bounded_admitted {link : LinkMemory} (h : Remembers link) :
    Bounded (admitAcceptedResource link) := by
  refine ⟨?_, (by decide : windowMaxSlow ≤ windowMax)⟩
  show link.lastResourceWindow.getD windowStart ≤ windowMax
  cases hwindow : link.lastResourceWindow with
  | none => exact (by decide : windowStart ≤ windowMax)
  | some window => exact h window hwindow

theorem bounded_noteFastRateRound (rate : Nat) :
    Bounded (noteFastRateRound pace rate) := by
  have hcases := noteFastRateRound_cases pace rate
  unfold Bounded at *
  omega

theorem bounded_noteVerySlowRateRound (rate : Nat) :
    Bounded (noteVerySlowRateRound pace rate) := by
  have hcases := noteVerySlowRateRound_cases pace rate
  have hslow : windowMaxVerySlow ≤ windowMax := by decide
  unfold Bounded at *
  omega

theorem bounded_absorbRoundFirstResponse (partLen arrivedAt linkRttMs : Nat) :
    Bounded (absorbRoundFirstResponse pace partLen arrivedAt linkRttMs) := by
  unfold absorbRoundFirstResponse
  dsimp only
  split
  · exact h
  split
  · exact h
  · apply bounded_noteFastRateRound
    exact h

theorem bounded_takePart (partLen arrivedAt linkRttMs : Nat) :
    Bounded (takePart pace partLen arrivedAt linkRttMs) := by
  unfold takePart
  dsimp only
  split
  · refine Bounded.congr ?_ rfl rfl
    apply bounded_absorbRoundFirstResponse
    exact h
  · exact h

theorem bounded_growWindow (hgrown : growWindowAfterFullRound pace = some next) :
    Bounded next := by
  unfold growWindowAfterFullRound checkedSub at hgrown
  unfold Bounded at *
  grind

theorem bounded_absorbCompletedRound {arrivedAt : Nat}
    (hround : absorbCompletedRound pace arrivedAt = some next) : Bounded next := by
  obtain ⟨grown, hgrown, hround⟩ := Option.bind_eq_some_iff.mp hround
  have hbounded := bounded_growWindow h hgrown
  split at hround
  · cases hround
    exact hbounded
  dsimp only at hround
  split at hround <;> cases hround
  · exact hbounded
  · apply bounded_noteVerySlowRateRound
    apply bounded_noteFastRateRound
    exact hbounded

theorem bounded_finishResourcePart {partLen arrivedAt linkRttMs outstanding : Nat} {complete : Bool}
    (hpart : finishResourcePart pace partLen arrivedAt linkRttMs outstanding
      complete = some next) : Bounded next := by
  have htaken : Bounded (takePart { pace with outstandingPartCount := outstanding }
      partLen arrivedAt linkRttMs) := by
    apply bounded_takePart
    exact h
  unfold finishResourcePart at hpart
  dsimp only at hpart
  split_ifs at hpart
  · cases hpart
    exact htaken
  · exact bounded_absorbCompletedRound htaken hpart
  · cases hpart
    exact htaken

theorem bounded_shrinkWindow
    (hshrunk : shrinkWindowAfterSilentRound pace = some next) : Bounded next := by
  unfold Bounded at *
  simp only [shrinkWindowAfterSilentRound, checkedSub,
    Option.bind_eq_bind, Option.pure_def] at hshrunk
  split_ifs at hshrunk
  all_goals simp only [Option.bind_some, Option.bind_none, Option.some.injEq, reduceCtorEq]
    at hshrunk
  all_goals grind

theorem bounded_fireSilentRound (hsilent : fireSilentRound pace = some next) :
    Bounded next := by
  simp only [fireSilentRound, Option.bind_eq_bind, Option.bind_eq_some_iff,
    Option.pure_def] at hsilent
  obtain ⟨shrunk, hshrunk, retriesLeft, -, ⟨⟩⟩ := hsilent
  exact (bounded_shrinkWindow h hshrunk).congr rfl rfl

omit h

theorem Paces.bounded {computed : Option IncomingResourceState}
    (h : Paces computed pace)
    (hcomputed : ∀ next, computed = some next → Bounded next) : Bounded pace := by
  cases h with
  | computed h => exact hcomputed pace h
  | wrapped _ hwindow hceiling => exact ⟨hwindow, hceiling⟩

end Prns.Ports.ResourcePull
