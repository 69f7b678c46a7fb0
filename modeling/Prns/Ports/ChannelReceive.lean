import Mathlib.Data.List.Nodup
import Prns.Ports.Channel
import Prns.Verified.VecOps

/-!
# The receiving side of a channel

Model of `links/channel/receive.rs` on one row of the channel table. An envelope with the next
sequence is delivered, with all that waits behind it in the reorder buffer; one that is ahead
within the window is buffered; the rest is dropped. What is dropped because it is out of the
window is proved all the same, as it is taken to be an old message.

`receive_spec` says what this is worth when the arriving message is the `n`-th of those that
were sent, at most 48 ahead of the next one and less than a turn of the sequence behind it:
the delivered messages stay a prefix of the sent ones, and a message that is proved is
delivered or buffered.
-/

namespace Prns.Ports.Channel

open Verified.VecOps

abbrev Message : Type := MessageType × List UInt8

/-- An entry of the reorder buffer. -/
structure Buffered where
  sequence : ChannelSequence
  messageType : MessageType
  payload : List UInt8
  deriving DecidableEq, Repr

/-- The receiving half of a row of the channel table. -/
structure ReceiveRow where
  nextExpected : ChannelSequence
  buffered : List Buffered
  deriving DecidableEq, Repr

def ReceiveRow.fresh : ReceiveRow := ⟨0, []⟩

def windowMaxMessages : Nat := 48

def withinReceiveWindow (sequence nextRx : ChannelSequence) : Bool :=
  decide ((sequence - nextRx).toNat ≤ windowMaxMessages)

inductive ReceiveOutcome where
  | delivered (count : Nat)
  | buffered
  | alreadyHave
  | outOfWindow
  | bufferFull
  | untracked
  deriving DecidableEq, Repr

def ReceiveOutcome.owesProof : ReceiveOutcome → Bool
  | .delivered _ => true
  | .buffered => true
  | .alreadyHave => true
  | .outOfWindow => true
  | .bufferFull => false
  | .untracked => false

/-- The loop that delivers from the buffer; every turn removes an entry. -/
def drain : Nat → ChannelSequence → List Buffered → ChannelSequence × List Buffered × List Message
  | 0, next, buffered => (next, buffered, [])
  | turns + 1, next, buffered =>
      match buffered.findIdx? fun entry => entry.sequence == next with
      | none => (next, buffered, [])
      | some sub =>
          match buffered[sub]? with
          | none => (next, buffered, [])
          | some entry =>
              let (next', buffered', delivered) :=
                drain turns (nextSequence next) (swapRemove buffered sub)
              (next', buffered', (entry.messageType, entry.payload) :: delivered)

/-- `receive`: the outcome, the row afterwards and what is delivered. `hasRow` says that the
table has room for a row, and `hasSlot` that the row has room in its buffer. -/
def receive (row : Option ReceiveRow) (hasRow hasSlot : Bool) (sequence : ChannelSequence)
    (messageType : MessageType) (payload : List UInt8) :
    ReceiveOutcome × Option ReceiveRow × List Message :=
  if row.isNone && !hasRow then (.untracked, none, [])
  else
    let row := row.getD .fresh
    if sequence = row.nextExpected then
      let (next, buffered, drained) :=
        drain row.buffered.length (nextSequence row.nextExpected) row.buffered
      (.delivered (drained.length + 1), some ⟨next, buffered⟩, (messageType, payload) :: drained)
    else if !withinReceiveWindow sequence row.nextExpected then (.outOfWindow, some row, [])
    else if row.buffered.any fun entry => entry.sequence == sequence then
      (.alreadyHave, some row, [])
    else if hasSlot then
      (.buffered,
        some { row with buffered := row.buffered ++ [⟨sequence, messageType, payload⟩] }, [])
    else (.bufferFull, some row, [])

/-- What an arrival can do: it changes nothing, and a proof is owed only for what is out of the
window or in the buffer; it is delivered; or it is buffered. -/
inductive Arrives (row : ReceiveRow) (sequence : ChannelSequence) (messageType : MessageType)
    (payload : List UInt8) : ReceiveOutcome × Option ReceiveRow × List Message → Prop
  | ignored {outcome : ReceiveOutcome} {after : Option ReceiveRow}
      (hafter : after.getD .fresh = row) (hproved : outcome.owesProof = true →
        withinReceiveWindow sequence row.nextExpected = false ∨
          ∃ entry ∈ row.buffered, entry.sequence = sequence) :
      Arrives row sequence messageType payload (outcome, after, [])
  | delivered {next : ChannelSequence} {buffered : List Buffered} {drained : List Message}
      (hnext : sequence = row.nextExpected)
      (hdrain : drain row.buffered.length (nextSequence row.nextExpected) row.buffered =
        (next, buffered, drained)) :
      Arrives row sequence messageType payload (.delivered (drained.length + 1),
        some ⟨next, buffered⟩, (messageType, payload) :: drained)
  | buffered (hnext : sequence ≠ row.nextExpected)
      (hwindow : withinReceiveWindow sequence row.nextExpected = true)
      (hnew : ∀ entry ∈ row.buffered, entry.sequence ≠ sequence) :
      Arrives row sequence messageType payload (.buffered,
        some { row with buffered := row.buffered ++ [⟨sequence, messageType, payload⟩] }, [])

theorem receive_arrives (row : Option ReceiveRow) (hasRow hasSlot : Bool)
    (sequence : ChannelSequence) (messageType : MessageType) (payload : List UInt8) :
    Arrives (row.getD .fresh) sequence messageType payload
      (receive row hasRow hasSlot sequence messageType payload) := by
  unfold receive
  dsimp only
  repeat' split
  · rename_i huntracked
    rw [Bool.and_eq_true, Option.isNone_iff_eq_none] at huntracked
    exact .ignored (by rw [huntracked.1]) nofun
  · exact .delivered ‹_› rfl
  · rename_i hwindow
    exact .ignored rfl fun _ => Or.inl (by simpa using hwindow)
  · rename_i hhave
    exact .ignored rfl fun _ => Or.inr (by simpa using hhave)
  · rename_i hnext hwindow hnew hslot
    exact .buffered hnext (by simpa using hwindow) (by simpa using hnew)
  · exact .ignored rfl nofun

variable {next : Nat} {n : Nat} {buffered' : List Buffered} {messageType : MessageType}

theorem withinReceiveWindow_iff (hahead : n ≤ next + 48) (hbehind : next < n + 65488) :
    withinReceiveWindow (UInt16.ofNat n) (UInt16.ofNat next) = true ↔ next ≤ n := by
  rw [withinReceiveWindow, decide_eq_true_iff, UInt16.toNat_sub, UInt16.toNat_ofNat',
    UInt16.toNat_ofNat', windowMaxMessages]
  omega

/-- The buffer holds messages of `sent` from `low` on, at most 48 ahead of `next`. -/
def Ahead (sent : List Message) (low next : Nat) (buffered : List Buffered) : Prop :=
  ∀ entry ∈ buffered, ∃ n, low ≤ n ∧ n ≤ next + 48 ∧ entry.sequence = UInt16.ofNat n ∧
    sent[n]? = some (entry.messageType, entry.payload)

/-- The `n`-th message is delivered, or held in the buffer. -/
def Holds (sent delivered : List Message) (buffered : List Buffered) (n : Nat) : Prop :=
  n < delivered.length ∨
    delivered.length ≤ n ∧ n ≤ delivered.length + 48 ∧ ∃ entry ∈ buffered,
      entry.sequence = UInt16.ofNat n ∧ sent[n]? = some (entry.messageType, entry.payload)

/-- A row that received a prefix of `sent`. -/
structure Receiving (sent delivered : List Message) (row : ReceiveRow) : Prop where
  next : row.nextExpected = UInt16.ofNat delivered.length
  isPrefix : delivered <+: sent
  ahead : Ahead sent (delivered.length + 1) delivered.length row.buffered
  nodup : (row.buffered.map Buffered.sequence).Nodup

/-- The messages of the buffer are where `From` has them, from `low` on. -/
def AheadOf (From : Nat → Message → Prop) (low next : Nat) (buffered : List Buffered) : Prop :=
  ∀ entry ∈ buffered, ∃ n, low ≤ n ∧ n ≤ next + 48 ∧ entry.sequence = UInt16.ofNat n ∧
    From n (entry.messageType, entry.payload)

/-- So are those that were delivered. -/
structure Streamed (From : Nat → Message → Prop) (delivered : List Message) (row : ReceiveRow) :
    Prop where
  next : row.nextExpected = UInt16.ofNat delivered.length
  ordered : ∀ i message, delivered[i]? = some message → From i message
  ahead : AheadOf From (delivered.length + 1) delivered.length row.buffered
  nodup : (row.buffered.map Buffered.sequence).Nodup

/-- The `n`-th message is delivered, or held in the buffer. -/
def HoldsOf (From : Nat → Message → Prop) (delivered : List Message) (buffered : List Buffered)
    (n : Nat) : Prop :=
  n < delivered.length ∨
    delivered.length ≤ n ∧ n ≤ delivered.length + 48 ∧ ∃ entry ∈ buffered,
      entry.sequence = UInt16.ofNat n ∧ From n (entry.messageType, entry.payload)

variable {sent delivered : List Message} {message : Message} {payload : List UInt8}

theorem receiving_iff {row : ReceiveRow} :
    Receiving sent delivered row ↔
      Streamed (fun n message => sent[n]? = some message) delivered row := by
  have hprefix : delivered <+: sent ↔
      ∀ (i : Nat) message, delivered[i]? = some message → sent[i]? = some message := by
    rw [List.prefix_iff_getElem?]
    constructor
    · intro h i message hi
      obtain ⟨hlt, rfl⟩ := List.getElem?_eq_some_iff.mp hi
      exact h i hlt
    · exact fun h i hlt => h i _ (List.getElem?_eq_getElem hlt)
  exact ⟨fun h => ⟨h.next, hprefix.mp h.isPrefix, h.ahead, h.nodup⟩,
    fun h => ⟨h.next, hprefix.mpr h.ordered, h.ahead, h.nodup⟩⟩

theorem getElem?_snoc {α : Type} {xs : List α} {x y : α} (h : (xs ++ [x])[n]? = some y) :
    xs[n]? = some y ∨ n = xs.length ∧ y = x := by
  by_cases hlt : n < xs.length
  · rw [List.getElem?_append_left hlt] at h
    exact Or.inl h
  have hn : n = xs.length := by
    have := (List.getElem?_eq_some_iff.mp h).1
    rw [List.length_append, List.length_singleton] at this
    omega
  subst hn
  rw [List.getElem?_concat_length] at h
  exact Or.inr ⟨rfl, (Option.some.inj h).symm⟩

/-! ## Draining -/

variable {From : Nat → Message → Prop} {buffered : List Buffered}

theorem drain_turn {sub : Nat}
    (hfound : (buffered.findIdx? fun entry => entry.sequence == UInt16.ofNat next) = some sub)
    (hnodup : (buffered.map Buffered.sequence).Nodup) :
    ∃ entry, buffered[sub]? = some entry ∧ entry.sequence = UInt16.ofNat next ∧
      buffered.Perm (entry :: swapRemove buffered sub) ∧
      ((swapRemove buffered sub).map Buffered.sequence).Nodup ∧
      ∀ other ∈ swapRemove buffered sub, other.sequence ≠ UInt16.ofNat next := by
  obtain ⟨hlt, hsequence, -⟩ := List.findIdx?_eq_some_iff_getElem.mp hfound
  rw [beq_iff_eq] at hsequence
  have hget := List.getElem?_eq_getElem hlt
  have hperm := swapRemove_perm buffered sub buffered[sub] hget
  have hrest := (hperm.map Buffered.sequence).nodup_iff.mp hnodup
  rw [List.map_cons, List.nodup_cons] at hrest
  refine ⟨_, hget, hsequence, hperm, hrest.2, ?_⟩
  intro other hin heq
  exact hrest.1 (List.mem_map.mpr ⟨other, hin, heq.trans hsequence.symm⟩)

theorem AheadOf.raise (h : AheadOf From next next buffered)
    (hother : ∀ entry ∈ buffered, entry.sequence ≠ UInt16.ofNat next) :
    AheadOf From (next + 1) next buffered := by
  intro entry hentry
  obtain ⟨n, hlow, hhigh, hn, hfrom⟩ := h entry hentry
  have hne : n ≠ next := fun heq => hother entry hentry (heq ▸ hn)
  exact ⟨n, by omega, hhigh, hn, hfrom⟩

theorem AheadOf.mono {low next' : Nat} (h : AheadOf From low next buffered) (hnext : next ≤ next')
    (hmem : ∀ entry ∈ buffered', entry ∈ buffered) : AheadOf From low next' buffered' := by
  intro entry hentry
  obtain ⟨n, hlow, hhigh, hrest⟩ := h entry (hmem entry hentry)
  exact ⟨n, hlow, by omega, hrest⟩

/-- The loop delivers messages in order, until the next one is not in the buffer. -/
theorem stream_drain (turns : Nat) (buffered : List Buffered)
    (delivered : List Message) (hturns : buffered.length ≤ turns)
    (hordered : ∀ i message, delivered[i]? = some message → From i message)
    (hahead : AheadOf From delivered.length delivered.length buffered)
    (hnodup : (buffered.map Buffered.sequence).Nodup) :
    let out := drain turns (UInt16.ofNat delivered.length) buffered
    Streamed From (delivered ++ out.2.2) ⟨out.1, out.2.1⟩ := by
  induction turns generalizing buffered delivered with
  | zero =>
    have hnil : buffered = [] := List.length_eq_zero_iff.mp (Nat.le_zero.mp hturns)
    subst hnil
    simp only [drain, List.append_nil]
    exact ⟨rfl, hordered, nofun, List.nodup_nil⟩
  | succ turns ih =>
    rw [drain]
    cases hfound : buffered.findIdx? fun entry => entry.sequence == UInt16.ofNat delivered.length with
    | none =>
      simp only [List.append_nil]
      refine ⟨rfl, hordered, hahead.raise fun entry hentry => ?_, hnodup⟩
      simpa using List.findIdx?_eq_none_iff.mp hfound entry hentry
    | some sub =>
      obtain ⟨entry, hget, hsequence, hperm, hnodup', hother⟩ := drain_turn hfound hnodup
      have hlength : (delivered ++ [(entry.messageType, entry.payload)]).length =
          delivered.length + 1 := by simp
      -- The entry is the next message; the others are further ahead.
      have hordered' : ∀ i message, (delivered ++ [(entry.messageType, entry.payload)])[i]? =
          some message → From i message := by
        intro i message hi
        rcases getElem?_snoc hi with hi | ⟨rfl, rfl⟩
        · exact hordered i message hi
        · obtain ⟨n, hlow, hhigh, hn, hfrom⟩ := hahead entry (List.mem_of_getElem? hget)
          have heq : n = delivered.length :=
            (ofNat_inj).mp (hn.symm.trans hsequence)
          exact heq ▸ hfrom
      have hahead' := (hahead.mono Nat.le.refl fun _ hin =>
        hperm.mem_iff.mpr (List.mem_cons_of_mem _ hin)).raise hother
      have hrest := ih (swapRemove buffered sub) _ (by rw [length_swapRemove]; omega) hordered'
        (by rw [hlength]; exact hahead'.mono (Nat.le_succ _) fun _ hin => hin) hnodup'
      simp only [hlength, List.append_assoc, List.singleton_append] at hrest
      simp only [hget, nextSequence_ofNat]
      exact hrest

theorem HoldsOf.deliver {delivered : List Message}
    (hkeep : ∀ entry ∈ buffered, entry.sequence ≠ UInt16.ofNat delivered.length → entry ∈ buffered')
    (h : HoldsOf From delivered buffered n) :
    HoldsOf From (delivered ++ [message]) buffered' n := by
  have hlength : (delivered ++ [message]).length = delivered.length + 1 := by simp
  rcases h with hbefore | ⟨hlow, hhigh, entry, hentry, hsequence, hfrom⟩
  · left
    omega
  by_cases heq : n = delivered.length
  · left
    omega
  right
  refine ⟨by omega, by omega, entry, hkeep entry hentry ?_, hsequence, hfrom⟩
  rw [hsequence]
  intro hsame
  exact heq ((ofNat_inj).mp hsame)

theorem holdsOf_drain (turns : Nat) (buffered : List Buffered) (delivered : List Message)
    (hnodup : (buffered.map Buffered.sequence).Nodup) (h : HoldsOf From delivered buffered n) :
    let out := drain turns (UInt16.ofNat delivered.length) buffered
    HoldsOf From (delivered ++ out.2.2) out.2.1 n := by
  induction turns generalizing buffered delivered with
  | zero => simpa [drain] using h
  | succ turns ih =>
    rw [drain]
    cases hfound : buffered.findIdx? fun entry => entry.sequence == UInt16.ofNat delivered.length with
    | none => simpa using h
    | some sub =>
      obtain ⟨entry, hget, hsequence, hperm, hnodup', -⟩ := drain_turn hfound hnodup
      have hheld : HoldsOf From (delivered ++ [(entry.messageType, entry.payload)])
          (swapRemove buffered sub) n := by
        refine h.deliver fun other hin hne => ?_
        rcases List.mem_cons.mp (hperm.mem_iff.mp hin) with rfl | hin'
        · exact absurd hsequence hne
        · exact hin'
      have hrest := ih (swapRemove buffered sub) _ hnodup' hheld
      simp only [List.length_append, List.length_singleton, List.append_assoc,
        List.singleton_append] at hrest
      simp only [hget, nextSequence_ofNat]
      exact hrest

/-! ## Receiving -/

theorem receiving_fresh (sent : List Message) : Receiving sent [] .fresh :=
  ⟨rfl, List.nil_prefix, nofun, List.nodup_nil⟩

section

variable {row : ReceiveRow}

/-- The next message is delivered, with what waits behind it. -/
theorem Streamed.deliver (h : Streamed From delivered row) (hfrom : From delivered.length message) :
    let out := drain row.buffered.length (UInt16.ofNat (delivered.length + 1)) row.buffered
    Streamed From (delivered ++ message :: out.2.2) ⟨out.1, out.2.1⟩ ∧
      ∀ n, HoldsOf From delivered row.buffered n →
        HoldsOf From (delivered ++ message :: out.2.2) out.2.1 n := by
  have hlength : (delivered ++ [message]).length = delivered.length + 1 := by simp
  have hordered : ∀ i other, (delivered ++ [message])[i]? = some other → From i other := by
    intro i other hi
    rcases getElem?_snoc hi with hi | ⟨rfl, rfl⟩
    · exact h.ordered i other hi
    · exact hfrom
  have hstream := stream_drain row.buffered.length row.buffered (delivered ++ [message])
    Nat.le.refl hordered (by rw [hlength]; exact h.ahead.mono (Nat.le_succ _) fun _ hin => hin)
    h.nodup
  have hholds := fun n (hn : HoldsOf From delivered row.buffered n) =>
    holdsOf_drain row.buffered.length row.buffered (delivered ++ [message]) h.nodup
      (hn.deliver fun _ hin _ => hin)
  simp only [hlength, List.append_assoc, List.singleton_append] at hstream hholds
  exact ⟨hstream, hholds⟩

theorem Streamed.buffer (h : Streamed From delivered row) (hfrom : From n (messageType, payload))
    (hlow : delivered.length + 1 ≤ n) (hhigh : n ≤ delivered.length + 48)
    (hnew : ∀ entry ∈ row.buffered, entry.sequence ≠ UInt16.ofNat n) :
    Streamed From delivered
      { row with buffered := row.buffered ++ [⟨UInt16.ofNat n, messageType, payload⟩] } := by
  refine ⟨h.next, h.ordered, ?_, ?_⟩
  · intro entry hentry
    rcases List.mem_append.mp hentry with hold | hlast
    · exact h.ahead entry hold
    · rw [List.mem_singleton.mp hlast]
      exact ⟨n, hlow, hhigh, rfl, hfrom⟩
  · simp only [List.map_append, List.map_cons, List.map_nil]
    refine List.nodup_append.mpr ⟨h.nodup, List.nodup_singleton _, ?_⟩
    intro sequence hin other hother heq
    rw [List.mem_singleton.mp hother] at heq
    obtain ⟨entry, hentry, hsequence⟩ := List.mem_map.mp hin
    exact hnew entry hentry (hsequence.trans heq)

/-- What an arrival keeps: the stream, what is held, and what it owes a proof for. -/
structure Taken (From : Nat → Message → Prop) (delivered : List Message) (row : ReceiveRow)
    (sequence : ChannelSequence) (out : ReceiveOutcome × Option ReceiveRow × List Message) :
    Prop where
  stream : Streamed From (delivered ++ out.2.2) (out.2.1.getD .fresh)
  kept : ∀ n, HoldsOf From delivered row.buffered n →
    HoldsOf From (delivered ++ out.2.2) (out.2.1.getD .fresh).buffered n
  proved : out.1.owesProof = true → ∀ n, delivered.length ≤ n → n ≤ delivered.length + 48 →
    sequence = UInt16.ofNat n →
      HoldsOf From (delivered ++ out.2.2) (out.2.1.getD .fresh).buffered n

theorem Streamed.receive (h : Streamed From delivered row) {sequence : ChannelSequence}
    {out : ReceiveOutcome × Option ReceiveRow × List Message}
    (harrives : Arrives row sequence messageType payload out)
    (hfrom : ∀ n, delivered.length ≤ n → n ≤ delivered.length + 48 →
      sequence = UInt16.ofNat n → From n (messageType, payload)) :
    Taken From delivered row sequence out := by
  cases harrives with
  | ignored hafter hproved =>
    subst hafter
    refine ⟨by simpa using h, by simp, fun hproof n hlow hhigh hn => ?_⟩
    rw [List.append_nil]
    rcases hproved hproof with hout | ⟨entry, hentry, hsequence⟩
    · rw [h.next, hn, ← Bool.not_eq_true, withinReceiveWindow_iff hhigh (by omega)] at hout
      exact absurd hlow hout
    · obtain ⟨m, hmlow, hmhigh, hm, hmfrom⟩ := h.ahead entry hentry
      have heq : m = n := (ofNat_inj).mp (hm.symm.trans (hsequence.trans hn))
      subst heq
      exact Or.inr ⟨hlow, hhigh, entry, hentry, hm, hmfrom⟩
  | delivered hnext hdrain =>
    rw [h.next] at hnext
    rw [h.next, nextSequence_ofNat] at hdrain
    obtain ⟨hstream, hholds⟩ := h.deliver (hfrom _ Nat.le.refl (Nat.le_add_right _ _) hnext)
    rw [hdrain] at hstream hholds
    refine ⟨hstream, hholds, fun _ n hlow hhigh hn => Or.inl ?_⟩
    have heq : delivered.length = n := (ofNat_inj).mp (hnext.symm.trans hn)
    simp [heq]
  | buffered hnext hwindow hnew =>
    rw [h.next] at hnext hwindow
    -- the distance to the next sequence gives the number of what is within the window
    obtain ⟨n, hlow, hhigh, rfl⟩ : ∃ n, delivered.length ≤ n ∧ n ≤ delivered.length + 48 ∧
        _ = UInt16.ofNat n := by
      refine ⟨_, Nat.le_add_right _ _, Nat.add_le_add_left (of_decide_eq_true hwindow) _, ?_⟩
      rw [UInt16.ofNat_add, UInt16.ofNat_toNat, UInt16.add_comm, UInt16.sub_add_cancel]
    have hne : n ≠ delivered.length := fun heq => hnext (heq ▸ rfl)
    have hhere := hfrom n hlow hhigh rfl
    have hstream := h.buffer hhere (by omega) hhigh hnew
    refine ⟨by simpa using hstream, fun m hm => ?_, fun _ m hmlow hmhigh hm => ?_⟩
    · rw [List.append_nil]
      rcases hm with hbefore | ⟨hmlow, hmhigh, entry, hentry, hrest⟩
      · exact Or.inl hbefore
      · exact Or.inr ⟨hmlow, hmhigh, entry, List.mem_append_left _ hentry, hrest⟩
    rw [List.append_nil]
    have heq : n = m := (ofNat_inj).mp hm
    subst heq
    exact Or.inr ⟨hmlow, hmhigh, _, List.mem_append_right _ (List.mem_singleton.mpr rfl), rfl,
      hhere⟩

end

/-- What is kept when the `n`-th message arrives at a row. -/
structure Received (sent delivered : List Message) (row : ReceiveRow) (n : Nat)
    (out : ReceiveOutcome × Option ReceiveRow × List Message) : Prop where
  receiving : Receiving sent (delivered ++ out.2.2) (out.2.1.getD .fresh)
  kept : ∀ m, Holds sent delivered row.buffered m →
    Holds sent (delivered ++ out.2.2) (out.2.1.getD .fresh).buffered m
  proved : out.1.owesProof = true →
    Holds sent (delivered ++ out.2.2) (out.2.1.getD .fresh).buffered n

theorem receive_spec {row : Option ReceiveRow} (h : Receiving sent delivered (row.getD .fresh))
    (hsent : sent[n]? = some (messageType, payload)) (hahead : n ≤ delivered.length + 48)
    (hbehind : delivered.length < n + 65488) (hasRow hasSlot : Bool) :
    Received sent delivered (row.getD .fresh) n
      (receive row hasRow hasSlot (UInt16.ofNat n) messageType payload) := by
  have htaken := (receiving_iff.mp h).receive
    (receive_arrives row hasRow hasSlot (UInt16.ofNat n) messageType payload) fun m hlow hhigh hm => by
      rw [← (ofNat_inj).mp hm]
      exact hsent
  refine ⟨receiving_iff.mpr htaken.stream, htaken.kept, fun hproof => ?_⟩
  by_cases hbefore : n < delivered.length
  · left
    rw [List.length_append]
    omega
  · exact htaken.proved hproof n (by omega) hahead rfl

end Prns.Ports.Channel
