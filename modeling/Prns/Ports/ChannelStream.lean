import Mathlib.Data.List.Induction
import Prns.Ports.ChannelReceive

/-!
# The stream of a channel

What a channel delivers after any history of arrivals: envelopes in any order, any number of
times, with any sequences, at a table that may have no room. An arrival within the window
stands for the message whose number its sequence gives, counted from what was delivered before
it; the first arrival for a number is the one that counts.
-/

namespace Prns.Ports.Channel

/-- An envelope that arrives; `hasRow` and `hasSlot` say that the table has room for it. -/
structure Arrival where
  envelope : Envelope
  hasRow : Bool
  hasSlot : Bool
  deriving DecidableEq, Repr

def Arrival.message (arrival : Arrival) : Message :=
  (arrival.envelope.messageType, arrival.envelope.payload)

def Arrival.outcome (arrival : Arrival) (row : Option ReceiveRow) :
    ReceiveOutcome × Option ReceiveRow × List Message :=
  receive row arrival.hasRow arrival.hasSlot arrival.envelope.sequence
    arrival.envelope.messageType arrival.envelope.payload

/-- The row and all that was delivered, after one more arrival. -/
def receiveNext (state : Option ReceiveRow × List Message) (arrival : Arrival) :
    Option ReceiveRow × List Message :=
  ((arrival.outcome state.1).2.1, state.2 ++ (arrival.outcome state.1).2.2)

def receiveAll (arrivals : List Arrival) : Option ReceiveRow × List Message :=
  arrivals.foldl receiveNext (none, [])

/-- How many messages were delivered when the `t`-th envelope arrived. -/
def deliveredBefore (arrivals : List Arrival) (t : Nat) : Nat :=
  (receiveAll (arrivals.take t)).2.length

/-- The `t`-th arrival is within the window and has the number `n`. -/
structure Brings (arrivals : List Arrival) (t n : Nat) (arrival : Arrival) : Prop where
  arrives : arrivals[t]? = some arrival
  low : deliveredBefore arrivals t ≤ n
  high : n ≤ deliveredBefore arrivals t + 48
  sequence : arrival.envelope.sequence = UInt16.ofNat n

theorem Brings.snoc_iff {arrivals : List Arrival} {t n : Nat} {arrival : Arrival} (last : Arrival)
    (ht : t < arrivals.length) :
    Brings (arrivals ++ [last]) t n arrival ↔ Brings arrivals t n arrival := by
  have hbefore : deliveredBefore (arrivals ++ [last]) t = deliveredBefore arrivals t := by
    rw [deliveredBefore, List.take_append_of_le_length (Nat.le_of_lt ht), deliveredBefore]
  constructor
  · intro h
    have harrives := h.arrives
    rw [List.getElem?_append_left ht] at harrives
    exact ⟨harrives, hbefore ▸ h.low, hbefore ▸ h.high, h.sequence⟩
  · intro h
    have harrives := h.arrives
    rw [← List.getElem?_append_left ht] at harrives
    exact ⟨harrives, hbefore.symm ▸ h.low, hbefore.symm ▸ h.high, h.sequence⟩

/-- The message with the number `n` is that of an arrival. -/
def Brought (arrivals : List Arrival) (n : Nat) (message : Message) : Prop :=
  ∃ t arrival, Brings arrivals t n arrival ∧ arrival.message = message

/-- The state after a history of arrivals. What a proof was owed for stays held. -/
structure History (arrivals : List Arrival) (state : Option ReceiveRow × List Message) : Prop where
  stream : Streamed (Brought arrivals) state.2 (state.1.getD .fresh)
  held : ∀ t n arrival, Brings arrivals t n arrival →
    (arrival.outcome (receiveAll (arrivals.take t)).1).1.owesProof = true →
      HoldsOf (Brought arrivals) state.2 (state.1.getD .fresh).buffered n

variable {arrivals : List Arrival} {n : Nat} {delivered : List Message}

theorem Brought.snoc {message : Message} (h : Brought arrivals n message) (last : Arrival) :
    Brought (arrivals ++ [last]) n message := by
  obtain ⟨t, arrival, hbrings, hmessage⟩ := h
  have ht := (List.getElem?_eq_some_iff.mp hbrings.arrives).1
  exact ⟨t, arrival, (Brings.snoc_iff last ht).mpr hbrings, hmessage⟩

theorem Streamed.snoc {row : ReceiveRow} (h : Streamed (Brought arrivals) delivered row)
    (last : Arrival) :
    Streamed (Brought (arrivals ++ [last])) delivered row where
  next := h.next
  ordered i message hi := (h.ordered i message hi).snoc last
  ahead entry hentry := by
    obtain ⟨n, hlow, hhigh, hn, hbrought⟩ := h.ahead entry hentry
    exact ⟨n, hlow, hhigh, hn, hbrought.snoc last⟩
  nodup := h.nodup

theorem HoldsOf.snoc {buffered : List Buffered}
    (h : HoldsOf (Brought arrivals) delivered buffered n) (last : Arrival) :
    HoldsOf (Brought (arrivals ++ [last])) delivered buffered n := by
  rcases h with hbefore | ⟨hlow, hhigh, entry, hentry, hn, hbrought⟩
  · exact Or.inl hbefore
  · exact Or.inr ⟨hlow, hhigh, entry, hentry, hn, hbrought.snoc last⟩

theorem history (arrivals : List Arrival) : History arrivals (receiveAll arrivals) := by
  induction arrivals using List.reverseRecOn with
  | nil => exact ⟨⟨rfl, nofun, nofun, List.nodup_nil⟩, fun t n arrival h => nomatch h.arrives⟩
  | append_singleton arrivals last ih =>
    have hstate : receiveAll (arrivals ++ [last]) = receiveNext (receiveAll arrivals) last := by
      simp [receiveAll]
    have hbefore : (arrivals ++ [last]).take arrivals.length = arrivals := List.take_left
    have htaken := (ih.stream.snoc last).receive (receive_arrives (receiveAll arrivals).1 last.hasRow
      last.hasSlot last.envelope.sequence last.envelope.messageType last.envelope.payload)
      fun n hlow hhigh hn => ⟨arrivals.length, last, ⟨List.getElem?_concat_length,
        by rw [deliveredBefore, hbefore]; exact hlow,
        by rw [deliveredBefore, hbefore]; exact hhigh, hn⟩, rfl⟩
    rw [hstate]
    refine ⟨htaken.stream, fun t n arrival hbrings hproof => ?_⟩
    rcases getElem?_snoc hbrings.arrives with hold | ⟨rfl, rfl⟩
    · have ht := (List.getElem?_eq_some_iff.mp hold).1
      rw [List.take_append_of_le_length (Nat.le_of_lt ht)] at hproof
      have hheld := ih.held t n arrival ((Brings.snoc_iff last ht).mp hbrings) hproof
      exact htaken.kept n (hheld.snoc last)
    have hlow := hbrings.low
    have hhigh := hbrings.high
    rw [deliveredBefore, hbefore] at hlow hhigh
    rw [hbefore] at hproof
    exact htaken.proved hproof n hlow hhigh hbrings.sequence

/-- The delivered messages are those of distinct arrivals with the sequences 0, 1, 2 and so on;
what waits has sequences of its own, within the window and ahead of the next; and an arrival
within the window that was not refused was delivered, or waits. -/
structure InOrder (arrivals : List Arrival) (row : ReceiveRow) (delivered : List Message) :
    Prop where
  next : row.nextExpected = UInt16.ofNat delivered.length
  stream : ∃ origin : Nat → Nat,
    (∀ i < delivered.length, ∀ j < delivered.length, origin i = origin j → i = j) ∧
    ∀ (i : Nat) message, delivered[i]? = some message → ∃ arrival,
      arrivals[origin i]? = some arrival ∧ arrival.message = message ∧
        arrival.envelope.sequence = UInt16.ofNat i
  nodup : (row.buffered.map Buffered.sequence).Nodup
  notNext : ∀ entry ∈ row.buffered, entry.sequence ≠ row.nextExpected
  inWindow : ∀ entry ∈ row.buffered,
    withinReceiveWindow entry.sequence row.nextExpected = true
  kept : ∀ t n arrival, Brings arrivals t n arrival →
    (arrival.outcome (receiveAll (arrivals.take t)).1).1.owesProof = true →
      n < delivered.length ∨ ∃ entry ∈ row.buffered, entry.sequence = UInt16.ofNat n

end Prns.Ports.Channel
