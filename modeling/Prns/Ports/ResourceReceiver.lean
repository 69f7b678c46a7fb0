import Prns.Ports.ResourceHashmap

/-!
# The receiver of a resource

Model of the incoming side: the register of names of `table/core.rs`, the placing of parts,
and the pulls of `receive/rounds.rs`. The pace of the pulls, which is the window with its
retries and rates, is that of `ResourceWindow`.

The register is the list of the names that are known, so that `hashmap_height` is its
length.
-/

namespace Prns.Ports.ResourcePull

open ResourceWindow (windowMax)

/-- A row of the incoming resources, without what identifies it and how it is opened. -/
structure Receiver where
  partCount : Nat
  sdu : Nat
  sealedTransferBytes : Nat
  names : List MapHash
  transfer : List UInt8
  received : List Bool
  receivedPartCount : Nat
  consecutiveCompleted : Option Nat
  pace : ResourceWindow.IncomingResourceState

/-- What an advertisement and the link say of a resource. -/
structure AcceptedResource where
  sealedTransferBytes : Nat
  sdu : Nat
  partCount : Nat
  initialNames : List MapHash

/-- `accept`, for an offer of the right shape and a table with room. -/
def Receiver.accept (link : ResourceWindow.LinkMemory) (offer : AcceptedResource) : Receiver where
  partCount := offer.partCount
  sdu := offer.sdu
  sealedTransferBytes := offer.sealedTransferBytes
  names := offer.initialNames
  transfer := List.replicate offer.sealedTransferBytes 0
  received := List.replicate offer.partCount false
  receivedPartCount := 0
  consecutiveCompleted := none
  pace := ResourceWindow.admitAcceptedResource link

/-- The position after the last one of a completed run. -/
def positionAfter : Option Nat → Nat
  | none => 0
  | some height => height + 1

/-- The first position that is not known to be complete. -/
def Receiver.nextPosition (r : Receiver) : Nat := positionAfter r.consecutiveCompleted

structure HashmapUpdate where
  segment : Nat
  names : List MapHash
  deriving DecidableEq, Repr

inductive ApplyHashmapUpdateError where
  | hashmapTooLong
  | beyondPartCount
  | skipsAhead
  deriving DecidableEq, Repr

/-- `write_names`: over the names from `offset` on, and past them. -/
def writeNames (names : List MapHash) (offset : Nat) (entries : List MapHash) : List MapHash :=
  names.take offset ++ entries ++ names.drop (offset + entries.length)

/-- The largest `usize`. -/
def usizeMax : Nat := 2 ^ 64 - 1

def Receiver.applyHashmapUpdate (r : Receiver) (update : HashmapUpdate) :
    Except ApplyHashmapUpdateError Receiver :=
  let offset := update.segment * hashmapMaxLen
  if usizeMax < offset then .error .beyondPartCount
  else if hashmapMaxLen < update.names.length then .error .hashmapTooLong
  else if r.partCount < offset + update.names.length then .error .beyondPartCount
  else if r.names.length < offset then .error .skipsAhead
  else .ok { r with
    names := writeNames r.names offset update.names
    pace := { r.pace with waitingForHmu := false } }

inductive PlacePartOutcome where
  | placed
  | noSuchPart
  | wrongLength
  | beyondTransferEnd
  | duplicate
  deriving DecidableEq, Repr

/-- The loop at the end of `place_part`, over the flags from `next` on. -/
def completedFrom (consecutive : Option Nat) (next : Nat) : List Bool → Option Nat
  | true :: flags => completedFrom (some next) (next + 1) flags
  | _ => consecutive

def Receiver.placePart (r : Receiver) (position : Nat) (bytes : List UInt8) :
    PlacePartOutcome × Receiver :=
  if r.partCount ≤ position then (.noSuchPart, r)
  else if !(bytes.length == r.sdu ||
      (position + 1 == r.partCount && decide (bytes.length < r.sdu))) then
    (.wrongLength, r)
  else if r.sealedTransferBytes < position * r.sdu + bytes.length then (.beyondTransferEnd, r)
  else if r.received.getD position false then (.duplicate, r)
  else
    let offset := position * r.sdu
    let received := r.received.set position true
    (.placed, { r with
      transfer := r.transfer.take offset ++ bytes ++ r.transfer.drop (offset + bytes.length)
      received := received
      receivedPartCount := r.receivedPartCount + 1
      consecutiveCompleted :=
        completedFrom r.consecutiveCompleted r.nextPosition
          ((received.take r.partCount).drop r.nextPosition)
      pace := { r.pace with outstandingPartCount := r.pace.outstandingPartCount - 1 } })

/-- `match_part_name_in_window`, over the names that are known. -/
def Receiver.matchPartInWindow (r : Receiver) (name : MapHash) : Option Nat :=
  (List.range' r.nextPosition
      (min (r.nextPosition + r.pace.window) r.names.length - r.nextPosition)).find?
    fun i => r.names[i]? == some name

/-- A part request, with the position behind each name that it asks for. -/
structure PartRequest where
  lastKnown : Option MapHash
  asked : List (Nat × MapHash)
  deriving DecidableEq, Repr

/-- The names that a request carries. -/
def PartRequest.requested (request : PartRequest) : List MapHash := request.asked.map Prod.snd

/-- The scan of `emit_resource_pull`: the missing parts from `position` on, at most `room`
positions ahead, and whether the names ran out. -/
def Receiver.scan (r : Receiver) : Nat → Nat → List (Nat × MapHash) × Bool
  | 0, _ => ([], false)
  | room + 1, position =>
      if position < r.partCount then
        if r.received.getD position false then r.scan room (position + 1)
        else
          match r.names[position]? with
          | some name =>
              let rest := r.scan room (position + 1)
              ((position, name) :: rest.1, rest.2)
          | none => ([], true)
      else ([], false)

/-- `emit_resource_pull` on an active link; `none` is `NothingToRequest`. A resource that
was accepted has at least one name. -/
def Receiver.emitResourcePull (r : Receiver) (now requestWireLen : Nat) :
    Option (Receiver × PartRequest) :=
  let (asked, exhausted) := r.scan r.pace.window r.nextPosition
  if asked.isEmpty && !exhausted then none
  else
    match r.names.getLast? with
    | none => none
    | some last =>
        some ({ r with
            pace := ResourceWindow.emitResourcePull r.pace now requestWireLen asked.length
              exhausted },
          ⟨if exhausted then some last else none, asked⟩)

/-! ## What the operations do -/

/-- The scan asks for known names of the window. It finds the names exhausted only where
they end within the window, before the parts do. -/
theorem Receiver.scan_spec (r : Receiver) (room position : Nat) :
    (∀ p name, (p, name) ∈ (r.scan room position).1 → position ≤ p ∧ r.names[p]? = some name) ∧
      ((r.scan room position).2 = true →
        r.names.length < position + room ∧ r.names.length < r.partCount) := by
  induction room generalizing position with
  | zero => exact ⟨nofun, nofun⟩
  | succ room ih =>
    obtain ⟨hasked, hexhausted⟩ := ih (position + 1)
    replace hasked (p : Nat) (name : MapHash) (h : (p, name) ∈ (r.scan room (position + 1)).1) :
        position ≤ p ∧ r.names[p]? = some name :=
      ⟨by have := (hasked p name h).1; omega, (hasked p name h).2⟩
    rw [show position + 1 + room = position + (room + 1) by omega] at hexhausted
    rw [Receiver.scan]
    split_ifs with hcount hreceived
    · exact ⟨hasked, hexhausted⟩
    · cases hname : r.names[position]? with
      | none =>
        have hheight := List.getElem?_eq_none_iff.mp hname
        exact ⟨nofun, fun _ => ⟨by omega, by omega⟩⟩
      | some known =>
        refine ⟨fun p name h => ?_, hexhausted⟩
        rcases List.mem_cons.mp h with hhead | htail
        · cases hhead
          exact ⟨Nat.le_refl _, hname⟩
        · exact hasked p name htail
    · exact ⟨nofun, nofun⟩

variable {r next : Receiver}

/-- What a pull sends, and what it leaves. -/
theorem Receiver.emitResourcePull_some {now requestWireLen : Nat} {request : PartRequest}
    (h : r.emitResourcePull now requestWireLen = some (next, request)) :
    (∀ p name, (p, name) ∈ request.asked → r.nextPosition ≤ p ∧ r.names[p]? = some name) ∧
    (∀ last, request.lastKnown = some last →
      r.names.length < r.nextPosition + r.pace.window ∧ r.names.length < r.partCount ∧
        r.names.getLast? = some last) ∧
    next.names = r.names ∧ next.partCount = r.partCount ∧
      next.nextPosition = r.nextPosition ∧ next.pace.window = r.pace.window ∧
      next.pace.windowMax = r.pace.windowMax := by
  unfold Receiver.emitResourcePull at h
  dsimp only at h
  by_cases hempty : ((r.scan r.pace.window r.nextPosition).1.isEmpty &&
      !(r.scan r.pace.window r.nextPosition).2) = true
  · rw [if_pos hempty] at h
    cases h
  rw [if_neg hempty] at h
  cases hlast : r.names.getLast? with
  | none =>
    rw [hlast] at h
    cases h
  | some last =>
    rw [hlast] at h
    cases h
    obtain ⟨hasked, hnone⟩ := r.scan_spec r.pace.window r.nextPosition
    refine ⟨hasked, ?_, rfl, rfl, rfl, rfl, rfl⟩
    · intro known hknown
      split_ifs at hknown with hexhausted
      cases hknown
      exact ⟨(hnone hexhausted).1, (hnone hexhausted).2, rfl⟩

variable {names : List MapHash}

theorem writeNames_take {height offset : Nat} (h : offset ≤ height)
    (hheight : height ≤ names.length) (count : Nat) :
    writeNames (names.take height) offset ((names.drop offset).take count) =
      names.take (max height (min (offset + count) names.length)) := by
  have hwritten : (names.take height).take offset ++ (names.drop offset).take count =
      names.take (offset + count) := by
    rw [List.take_take, Nat.min_eq_left h, ← List.take_add]
  rw [writeNames, hwritten, List.length_take, List.length_drop]
  rcases Nat.le_total height (min (offset + count) names.length) with hpast | hwithin
  · rw [List.drop_eq_nil_of_le (by rw [List.length_take]; omega), List.append_nil,
      Nat.max_eq_right hpast]
    rw [List.take_eq_take_iff]
    omega
  rw [Nat.max_eq_left hwithin,
    show offset + min count (names.length - offset) = min (offset + count) names.length by omega]
  have hshort : names.take (offset + count) =
      (names.take height).take (min (offset + count) names.length) := by
    rw [List.take_take, List.take_eq_take_iff]
    omega
  rw [hshort, List.take_append_drop]

/-- The names of a segment, applied to a register that reaches it, extend the register. -/
theorem Receiver.applyHashmapUpdate_ok {r : Receiver} {segment : Nat}
    (hcount : r.partCount = names.length) (hsize : names.length ≤ usizeMax)
    (hnames : r.names = names.take r.names.length) (hheight : r.names.length ≤ names.length)
    (hsegment : segment * hashmapMaxLen ≤ r.names.length) :
    r.applyHashmapUpdate ⟨segment, (names.drop (segment * hashmapMaxLen)).take hashmapMaxLen⟩ =
      .ok { r with
        names := names.take
          (max r.names.length (min (segment * hashmapMaxLen + hashmapMaxLen) names.length))
        pace := { r.pace with waitingForHmu := false } } := by
  have hlength : ((names.drop (segment * hashmapMaxLen)).take hashmapMaxLen).length ≤
      hashmapMaxLen := by
    rw [List.length_take]
    omega
  have hend : segment * hashmapMaxLen +
      ((names.drop (segment * hashmapMaxLen)).take hashmapMaxLen).length ≤ names.length := by
    rw [List.length_take, List.length_drop]
    omega
  unfold Receiver.applyHashmapUpdate
  dsimp only
  rw [if_neg (by omega), if_neg (by omega), if_neg (by omega), if_neg (by omega)]
  congr 2
  rw [hnames, List.length_take, Nat.min_eq_left hheight]
  exact writeNames_take hsegment hheight hashmapMaxLen

theorem le_completedFrom (flags : List Bool) {consecutive : Option Nat} {next : Nat}
    (h : positionAfter consecutive ≤ next) :
    positionAfter consecutive ≤ positionAfter (completedFrom consecutive next flags) := by
  induction flags generalizing consecutive next with
  | nil => exact Nat.le_refl _
  | cons flag flags ih =>
    cases flag with
    | false => exact Nat.le_refl _
    | true =>
      have hstart : positionAfter (some next) ≤ next + 1 := Nat.le_refl _
      have hrest : next + 1 ≤ positionAfter (completedFrom (some next) (next + 1) flags) :=
        ih hstart
      exact Nat.le_trans (Nat.le_trans h (Nat.le_succ next)) hrest

theorem Receiver.placePart_keeps {position : Nat} {bytes : List UInt8} {outcome : PlacePartOutcome}
    (h : r.placePart position bytes = (outcome, next)) :
    next.names = r.names ∧ next.partCount = r.partCount ∧
      r.nextPosition ≤ next.nextPosition ∧ next.pace.window = r.pace.window ∧
      next.pace.windowMax = r.pace.windowMax := by
  unfold Receiver.placePart at h
  split_ifs at h <;> cases h
  -- Only a part that is placed moves the position.
  case neg => exact ⟨rfl, rfl, le_completedFrom _ Nat.le.refl, rfl, rfl⟩
  all_goals exact ⟨rfl, rfl, Nat.le_refl _, rfl, rfl⟩

end Prns.Ports.ResourcePull
