import Prns.Verified.Segments
import Mathlib.Data.List.Range

/-!
# The packed app-data arena

The payloads of stored announces live in one byte array, packed at its front
(`packed_app_data_arena.rs` and `fixed_heap_packed_app_data_arena.rs`). A handle is a
slot of the span table; a slot that was freed keeps a zero span and is handed out
again. Freeing a payload, or replacing it by one of another length, slides the bytes
behind it and re-bases every span that starts at a larger offset.

The payloads of the live handles, in the order of their offsets, are `Segments` laid
end to end, and each operation is a change of one segment. There is one exception. An
empty payload shares its offset with the payload behind it; when it grows, that payload
slides but its span, which does not start at a *larger* offset, is not re-based.
-/

namespace Prns.Ports.AppDataArena

open Verified.Segments

/-! ## The arena -/

structure Span where
  offset : Nat
  len : Nat
  deriving DecidableEq, Repr

inductive AnnounceAppDataError where
  | arenaFull
  | tooManyEntries
  deriving DecidableEq, Repr

/-- The two implementations differ in the vector that holds spans and free slots: one
of fixed capacity, which refuses a push when it is full, and one on the heap. -/
inductive Backing where
  | inline
  | fixedHeap
  deriving DecidableEq, Repr

/-- The implementation and its const parameters. -/
structure Config where
  backing : Backing
  arenaBytes : Nat
  maxEntries : Nat
  deriving DecidableEq, Repr

structure Arena where
  arena : List UInt8
  used : Nat
  spans : List Span
  freeSlots : List Nat
  deriving DecidableEq, Repr

namespace Config

def isFull (config : Config) (spans : List Span) : Bool :=
  match config.backing with
  | .inline => spans.length == config.maxEntries
  | .fixedHeap => config.maxEntries ≤ spans.length

def push {α : Type} (config : Config) (xs : List α) (x : α) : List α :=
  match config.backing with
  | .inline => if xs.length < config.maxEntries then xs ++ [x] else xs
  | .fixedHeap => xs ++ [x]

/-- `new`, `default`. -/
def new (config : Config) : Arena :=
  { arena := List.replicate config.arenaBytes 0, used := 0, spans := [], freeSlots := [] }

end Config

/-- `bytes[pos..pos + source.len()].copy_from_slice(source)`. -/
def copyFromSlice (bytes : List UInt8) (pos : Nat) (source : List UInt8) : List UInt8 :=
  bytes.take pos ++ source ++ bytes.drop (pos + source.length)

/-- `bytes.copy_within(start..start + len, dest)`. -/
def copyWithin (bytes : List UInt8) (start len dest : Nat) : List UInt8 :=
  copyFromSlice bytes dest ((bytes.drop start).take len)

namespace Arena

/-- `self.spans[handle.slot()]`. A live handle always has a span. -/
def span (a : Arena) (slot : Nat) : Span := a.spans.getD slot ⟨0, 0⟩

/-- No bytes when the source would index out of range. -/
def get (a : Arena) (slot : Nat) : Option (List UInt8) :=
  match a.spans[slot]? with
  | none => none
  | some span =>
    if span.offset + span.len ≤ a.arena.length then
      some ((a.arena.drop span.offset).take span.len)
    else
      none

def insert (config : Config) (a : Arena) (bytes : List UInt8) :
    Except AnnounceAppDataError Nat × Arena :=
  if a.freeSlots.isEmpty && config.isFull a.spans then
    (.error .tooManyEntries, a)
  else if bytes.length > config.arenaBytes - a.used then
    (.error .arenaFull, a)
  else
    let offset := a.used
    let a' :=
      { a with
        arena := copyFromSlice a.arena offset bytes
        used := a.used + bytes.length }
    let span : Span := { offset := offset, len := bytes.length }
    match a.freeSlots.getLast? with
    | some slot =>
      (.ok slot, { a' with freeSlots := a.freeSlots.dropLast, spans := a.spans.set slot span })
    | none =>
      let spans := config.push a.spans span
      (.ok (spans.length - 1), { a' with spans := spans })

def free (config : Config) (a : Arena) (slot : Nat) : Arena :=
  let span := a.span slot
  let tailStart := span.offset + span.len
  let tailLen := a.used - tailStart
  let rebased := a.spans.map fun other =>
    if other.offset > span.offset then { other with offset := other.offset - span.len } else other
  { arena := copyWithin a.arena tailStart tailLen span.offset
    used := a.used - span.len
    spans := rebased.set slot ⟨0, 0⟩
    freeSlots := config.push a.freeSlots slot }

def replace (config : Config) (a : Arena) (slot : Nat) (bytes : List UInt8) :
    Except AnnounceAppDataError Unit × Arena :=
  let span := a.span slot
  let newLen := bytes.length
  if newLen = span.len then
    (.ok (), { a with arena := copyFromSlice a.arena span.offset bytes })
  else
    let newUsed := a.used - span.len + newLen
    if newUsed > config.arenaBytes then
      (.error .arenaFull, a)
    else
      let tailStart := span.offset + span.len
      let tailLen := a.used - tailStart
      let newTailStart := span.offset + newLen
      let slid := copyWithin a.arena tailStart tailLen newTailStart
      let resized := a.spans.set slot { span with len := newLen }
      let rebased := resized.map fun other =>
        if other.offset > span.offset then
          { other with offset := ((other.offset : Int) + newLen - span.len).toNat }
        else
          other
      (.ok (), { a with
        arena := copyFromSlice slid span.offset bytes
        spans := rebased
        used := newUsed })

end Arena

/-! ## Copies inside the arena -/

variable {P Q R old source : List UInt8}

theorem copyFromSlice_append :
    copyFromSlice (P ++ R) P.length source = P ++ source ++ R.drop source.length := by
  simp [copyFromSlice, ← List.drop_drop]

theorem copyFromSlice_same (h : source.length = old.length) :
    copyFromSlice (P ++ (old ++ R)) P.length source = P ++ (source ++ R) := by
  rw [copyFromSlice_append, h, List.drop_left, List.append_assoc]

theorem copyWithin_tail (dest : Nat) :
    copyWithin (P ++ (old ++ (Q ++ R))) (P.length + old.length) Q.length dest =
      copyFromSlice (P ++ (old ++ (Q ++ R))) dest Q := by
  simp [copyWithin, ← List.drop_drop]

theorem copyWithin_close (P old Q R : List UInt8) :
    ∃ R', copyWithin (P ++ (old ++ (Q ++ R))) (P.length + old.length) Q.length P.length =
      P ++ (Q ++ R') ∧ R'.length = R.length + old.length := by
  refine ⟨(old ++ (Q ++ R)).drop Q.length, ?_, ?_⟩
  · rw [copyWithin_tail, copyFromSlice_append, List.append_assoc]
  · simp only [List.length_drop, List.length_append]
    omega

/-- Sliding the tail to make room for a payload of another length, and writing it. -/
theorem copyWithin_resize (P Q : List UInt8) (h : source.length ≤ old.length + R.length) :
    ∃ R', copyFromSlice (copyWithin (P ++ (old ++ (Q ++ R))) (P.length + old.length) Q.length
          (P.length + source.length)) P.length source = P ++ (source ++ (Q ++ R')) ∧
      R'.length + source.length = R.length + old.length := by
  refine ⟨(old ++ (Q ++ R)).drop (source.length + Q.length), ?_, ?_⟩
  · have hlen : source.length ≤ (old ++ (Q ++ R)).length := by
      simp only [List.length_append]
      omega
    have hgap : ((old ++ (Q ++ R)).take source.length).length = source.length := by
      rw [List.length_take, Nat.min_eq_left hlen]
    have hslid : copyWithin (P ++ (old ++ (Q ++ R))) (P.length + old.length) Q.length
        (P.length + source.length) =
        P ++ ((old ++ (Q ++ R)).take source.length ++
          (Q ++ (old ++ (Q ++ R)).drop (source.length + Q.length))) := by
      rw [copyWithin_tail, copyFromSlice, List.take_length_add_append, Nat.add_assoc,
        ← List.drop_drop, List.drop_left]
      simp only [List.append_assoc]
    rw [hslid]
    exact copyFromSlice_same hgap.symm
  · simp only [List.length_drop, List.length_append]
    omega

/-! ## The arena as segments

`Represents` connects the arena to the payloads of its live handles in the order of
their offsets. -/

abbrev Payloads := List (Nat × List UInt8)

structure Represents (config : Config) (a : Arena) (segs : Payloads) : Prop where
  cells : ∃ rest, a.arena = flat segs ++ rest
  size : a.arena.length = config.arenaBytes
  used : a.used = (flat segs).length
  /-- Every slot is live or free. -/
  slots : (segs.map Prod.fst ++ a.freeSlots).Perm (List.range a.spans.length)
  spans : ∀ slot offset payload, At segs slot offset payload →
    a.spans[slot]? = some ⟨offset, payload.length⟩
  freed : ∀ slot ∈ a.freeSlots, a.spans[slot]? = some ⟨0, 0⟩
  capacity : a.spans.length ≤ config.maxEntries

variable {slot : Nat} {config : Config} {a : Arena} {segs before after : Payloads}
  {bytes payload : List UInt8}

namespace Represents

theorem new (config : Config) : Represents config config.new [] where
  cells := ⟨_, rfl⟩
  size := List.length_replicate
  used := rfl
  slots := List.Perm.refl _
  spans := fun _ _ _ h => h.elim
  freed := fun _ h => absurd h List.not_mem_nil
  capacity := Nat.zero_le _

section

variable (h : Represents config a segs)

include h

theorem nodup : (segs.map Prod.fst ++ a.freeSlots).Nodup :=
  h.slots.nodup_iff.mpr List.nodup_range

theorem keys_nodup : (segs.map Prod.fst).Nodup :=
  (List.nodup_append.mp h.nodup).1

theorem not_free (hmem : slot ∈ segs.map Prod.fst) :
    slot ∉ a.freeSlots :=
  fun hfree => (List.nodup_append.mp h.nodup).2.2 slot hmem slot hfree rfl

theorem slot_lt (hmem : slot ∈ segs.map Prod.fst ++ a.freeSlots) : slot < a.spans.length :=
  List.mem_range.mp (h.slots.mem_iff.mp hmem)

theorem span_of_at {offset : Nat}
    (hat : At segs slot offset payload) : a.span slot = ⟨offset, payload.length⟩ := by
  rw [Arena.span, List.getD_eq_getElem?_getD, h.spans slot offset payload hat, Option.getD_some]

omit h in
theorem span_eq (h : Represents config a (before ++ (slot, payload) :: after)) :
    a.span slot = ⟨(flat before).length, payload.length⟩ :=
  h.span_of_at (at_middle.mpr (Or.inr (Or.inl ⟨rfl, rfl, rfl⟩)))

theorem get_eq (hmem : (slot, payload) ∈ segs) : a.get slot = some payload := by
  obtain ⟨offset, hat⟩ := exists_at hmem
  obtain ⟨rest, hcells⟩ := h.cells
  have hle := hat.end_le
  have hread := hat.read rest
  rw [Arena.get, h.spans slot offset payload hat]
  show (if offset + payload.length ≤ a.arena.length then
    some ((a.arena.drop offset).take payload.length) else none) = some payload
  rw [hcells, if_pos (by rw [List.length_append]; omega), hread]

/-! ### Insert -/

/-- What a handed out slot has to satisfy, new or used again. -/
theorem insert_slot {spans : List Span} {freeSlots : List Nat}
    (hfit : bytes.length ≤ config.arenaBytes - a.used)
    (hspans : ∀ other, other ≠ slot → other < a.spans.length → spans[other]? = a.spans[other]?)
    (hslot : spans[slot]? = some ⟨a.used, bytes.length⟩)
    (hslots : (segs.map Prod.fst ++ ([slot] ++ freeSlots)).Perm (List.range spans.length))
    (hfree : ∀ other ∈ freeSlots, other ∈ a.freeSlots)
    (hcapacity : spans.length ≤ config.maxEntries) :
    Represents config
      { arena := copyFromSlice a.arena a.used bytes
        used := a.used + bytes.length, spans := spans, freeSlots := freeSlots }
      (segs ++ [(slot, bytes)]) := by
  obtain ⟨rest, hcells⟩ := h.cells
  have hsize := h.size
  have hused := h.used
  have hnodup := hslots.nodup_iff.mpr List.nodup_range
  have hcopy : copyFromSlice a.arena a.used bytes =
      flat segs ++ bytes ++ rest.drop bytes.length := by
    rw [hcells, hused, copyFromSlice_append]
  rw [hcells, List.length_append] at hsize
  rw [List.nodup_append] at hnodup
  constructor
  · exact ⟨rest.drop bytes.length, by simp [hcopy]⟩
  · rw [hcopy]
    simp only [List.length_append, List.length_drop]
    omega
  · simp [hused]
  · rw [List.map_append, List.append_assoc]
    exact hslots
  · intro other offset payload hat
    rcases at_append.mp hat with hold | ⟨rest', hnew, rfl⟩
    · have hne : other ≠ slot := by
        rintro rfl
        exact hnodup.2.2 other hold.key_mem other (by simp) rfl
      rw [hspans other hne (h.slot_lt (List.mem_append_left _ hold.key_mem))]
      exact h.spans other offset payload hold
    · rcases hnew with ⟨rfl, rfl, rfl⟩ | ⟨_, hnil, -⟩
      · rw [hslot, hused, Nat.add_zero]
      · exact hnil.elim
  · intro other hmem
    have hne : other ≠ slot := by
      rintro rfl
      have hcons := hnodup.2.1
      rw [List.singleton_append, List.nodup_cons] at hcons
      exact hcons.1 hmem
    show spans[other]? = _
    rw [hspans other hne (h.slot_lt (List.mem_append_right _ (hfree other hmem)))]
    exact h.freed other (hfree other hmem)
  · exact hcapacity

/-- An insert hands out a slot that was not live and adds its payload at the end. -/
theorem insert (bytes : List UInt8) :
    (∃ error, a.insert config bytes = (.error error, a)) ∨
      ∃ slot a', a.insert config bytes = (.ok slot, a') ∧ slot ∉ segs.map Prod.fst ∧
        Represents config a' (segs ++ [(slot, bytes)]) := by
  rw [Arena.insert]
  by_cases hentries : (a.freeSlots.isEmpty && config.isFull a.spans) = true
  · rw [if_pos hentries]
    exact Or.inl ⟨_, rfl⟩
  by_cases hfit : bytes.length > config.arenaBytes - a.used
  · rw [if_neg hentries, if_pos hfit]
    exact Or.inl ⟨_, rfl⟩
  rw [if_neg hentries, if_neg hfit]
  have hfit' := Nat.le_of_not_lt hfit
  refine Or.inr ?_
  cases hlast : a.freeSlots.getLast? with
  | some slot =>
    have hfree : a.freeSlots.dropLast ++ [slot] = a.freeSlots :=
      List.dropLast_append_getLast? slot hlast
    have hmem : slot ∈ a.freeSlots := List.mem_of_getLast? hlast
    have hlt := h.slot_lt (List.mem_append_right _ hmem)
    refine ⟨slot, _, rfl, fun hlive => h.not_free hlive hmem, ?_⟩
    apply h.insert_slot hfit'
    · intro other hne _
      exact List.getElem?_set_ne (Ne.symm hne)
    · exact List.getElem?_set_self hlt
    · rw [List.length_set]
      refine List.Perm.trans (List.Perm.append_left _ ?_) h.slots
      exact (List.perm_append_comm).trans (by rw [hfree])
    · intro other hother
      exact List.dropLast_subset _ hother
    · rw [List.length_set]
      exact h.capacity
  | none =>
    have hnil := List.getLast?_eq_none_iff.mp hlast
    have hroom : a.spans.length < config.maxEntries := by
      have hcap := h.capacity
      rw [hnil, List.isEmpty_nil, Bool.true_and, Config.isFull] at hentries
      cases hbacking : config.backing <;> simp [hbacking] at hentries <;> omega
    have hpush : config.push a.spans (Span.mk a.used bytes.length) =
        a.spans ++ [Span.mk a.used bytes.length] := by
      rw [Config.push]
      cases config.backing
      · exact if_pos hroom
      · rfl
    have hslot : (a.spans ++ [Span.mk a.used bytes.length]).length - 1 = a.spans.length := by
      simp
    show ∃ slot a', (Except.ok _, _) = (Except.ok slot, a') ∧ _
    rw [hpush, hslot]
    refine ⟨a.spans.length, _, rfl, ?_, ?_⟩
    · intro hlive
      exact Nat.lt_irrefl _ (h.slot_lt (List.mem_append_left _ hlive))
    apply h.insert_slot hfit'
    · intro other _ hlt
      exact List.getElem?_append_left hlt
    · exact List.getElem?_concat_length
    · rw [List.length_append, List.length_singleton, List.range_succ]
      have hslots := h.slots
      simpa [hnil] using hslots.append_right [a.spans.length]
    · intro other hother
      exact hother
    · rw [List.length_append, List.length_singleton]
      exact hroom

end

/-! ### Free and replace -/

section

variable (h : Represents config a (before ++ (slot, payload) :: after))

include h

variable {rebase : Span → Span}

theorem rebased_span {newLen other offset : Nat} {p : List UInt8}
    (hlow : ∀ span, span.offset ≤ (flat before).length → rebase span = span)
    (hhigh : ∀ other rest p, At after other rest p →
      rebase ⟨(flat before).length + payload.length + rest, p.length⟩ =
        ⟨(flat before).length + newLen + rest, p.length⟩)
    (hat : At before other offset p ∨
      ∃ rest, At after other rest p ∧ offset = (flat before).length + newLen + rest) :
    (a.spans[other]?).map rebase = some ⟨offset, p.length⟩ := by
  rcases hat with hbefore | ⟨rest, hafter, rfl⟩
  · have hle := hbefore.end_le
    rw [h.spans other offset p (at_middle.mpr (Or.inl hbefore)), Option.map_some,
      hlow _ (show offset ≤ (flat before).length by omega)]
  · rw [h.spans other _ p (at_middle.mpr (Or.inr (Or.inr ⟨rest, hafter, rfl⟩))),
      Option.map_some, hhigh other rest p hafter]

omit h in
theorem rebased_freed (h : Represents config a segs) {bound other : Nat}
    (hlow : ∀ span, span.offset ≤ bound → rebase span = span) (hmem : other ∈ a.freeSlots) :
    (a.spans[other]?).map rebase = some ⟨0, 0⟩ := by
  rw [h.freed other hmem, Option.map_some, hlow _ (Nat.zero_le _)]

theorem push_free : config.push a.freeSlots slot = a.freeSlots ++ [slot] := by
  have hlen := h.slots.length_eq
  have hcap := h.capacity
  simp only [List.map_append, List.map_cons, List.length_append, List.length_cons,
    List.length_range] at hlen
  rw [Config.push]
  cases config.backing
  · exact if_pos (by omega)
  · rfl

theorem around : ∃ rest, a.arena = flat before ++ (payload ++ (flat after ++ rest)) ∧
      (flat before).length + (payload.length + ((flat after).length + rest.length)) =
        config.arenaBytes ∧
      a.used - ((flat before).length + payload.length) = (flat after).length := by
  obtain ⟨rest, hcells⟩ := h.cells
  have hsize := h.size
  have hused := h.used
  rw [flat_append, flat_cons, List.append_assoc, List.append_assoc] at hcells
  rw [hcells] at hsize
  rw [flat_append, flat_cons] at hused
  simp only [List.length_append] at hsize hused
  exact ⟨rest, hcells, hsize, by omega⟩

theorem free : Represents config (a.free config slot) (before ++ after) := by
  obtain ⟨rest, hcells, hsize, htail⟩ := h.around
  obtain ⟨rest', hclosed, hrest⟩ := copyWithin_close (flat before) payload (flat after) rest
  obtain ⟨hbefore, hafter⟩ := not_mem_before h.keys_nodup
  have hused := h.used
  have hlt : slot < a.spans.length := h.slot_lt (by simp)
  have hspan := h.span_eq
  have harena : (a.free config slot).arena = flat before ++ (flat after ++ rest') := by
    show copyWithin a.arena ((a.span slot).offset + (a.span slot).len)
      (a.used - ((a.span slot).offset + (a.span slot).len)) (a.span slot).offset = _
    rw [hspan, htail, hcells, hclosed]
  generalize hrebase : (fun other : Span => if other.offset > (flat before).length then
      { other with offset := other.offset - payload.length } else other) = rebase
  have hspans : (a.free config slot).spans = (a.spans.map rebase).set slot ⟨0, 0⟩ := by
    show (a.spans.map _).set slot _ = _
    rw [hspan, ← hrebase]
  have hlow : ∀ span, span.offset ≤ (flat before).length → rebase span = span := by
    grind
  -- An empty payload with an empty gap behind it stays where it is.
  have hhigh : ∀ rest len, rebase ⟨(flat before).length + payload.length + rest, len⟩ =
      ⟨(flat before).length + 0 + rest, len⟩ := by
    grind
  constructor
  · exact ⟨rest', by rw [harena]; simp⟩
  · rw [harena]
    simp only [List.length_append]
    omega
  · show a.used - (a.span slot).len = _
    rw [hspan, hused]
    simp only [flat_append, flat_cons, List.length_append]
    omega
  · rw [hspans, List.length_set, List.length_map]
    refine List.Perm.trans ?_ h.slots
    show ((before ++ after).map Prod.fst ++ config.push a.freeSlots slot).Perm _
    rw [h.push_free, List.map_append, List.map_append, List.map_cons, List.append_assoc,
      List.append_assoc]
    refine List.Perm.append_left _ ?_
    rw [← List.append_assoc]
    exact List.perm_append_singleton slot _
  · intro other offset p hat
    have hmem := hat.key_mem
    rw [List.map_append, List.mem_append] at hmem
    have hne : slot ≠ other := by
      rintro rfl
      exact hmem.elim hbefore hafter
    rw [hspans, List.getElem?_set_ne hne, List.getElem?_map]
    exact h.rebased_span hlow (fun _ rest p _ => hhigh rest p.length)
      (by simpa using at_append.mp hat)
  · intro other hmem
    replace hmem : other ∈ a.freeSlots ++ [slot] := h.push_free ▸ hmem
    have hfreed : other ∈ a.freeSlots → (a.spans[other]?).map rebase = some ⟨0, 0⟩ :=
      h.rebased_freed hlow
    grind
  · rw [hspans, List.length_set, List.length_map]
    exact h.capacity

theorem written {cells rest : List UInt8} {used : Nat}
    (hlow : ∀ span, span.offset ≤ (flat before).length → rebase span = span)
    (hhigh : ∀ other rest p, At after other rest p →
      rebase ⟨(flat before).length + payload.length + rest, p.length⟩ =
        ⟨(flat before).length + bytes.length + rest, p.length⟩)
    (hcells : cells = flat before ++ (bytes ++ (flat after ++ rest)))
    (hsize : (flat before).length + (bytes.length + ((flat after).length + rest.length)) =
      config.arenaBytes)
    (hused : used = (flat before).length + (bytes.length + (flat after).length)) :
    Represents config
      { arena := cells, used := used, freeSlots := a.freeSlots
        spans := (a.spans.set slot ⟨(flat before).length, bytes.length⟩).map rebase }
      (before ++ (slot, bytes) :: after) := by
  obtain ⟨hbefore, hafter⟩ := not_mem_before h.keys_nodup
  have hlt : slot < a.spans.length := h.slot_lt (by simp)
  have hfree : slot ∉ a.freeSlots := h.not_free (by simp)
  have hspans : ∀ other, slot ≠ other →
      ((a.spans.set slot ⟨(flat before).length, bytes.length⟩).map rebase)[other]? =
        (a.spans[other]?).map rebase := by
    intro other hne
    rw [List.getElem?_map, List.getElem?_set_ne hne]
  constructor
  · exact ⟨rest, by rw [hcells]; simp⟩
  · rw [hcells]
    simp only [List.length_append]
    exact hsize
  · rw [hused]
    simp only [flat_append, flat_cons, List.length_append]
  · simpa using h.slots
  · intro other offset p hat
    rcases at_middle.mp hat with hfront | ⟨rfl, rfl, rfl⟩ | hback
    · rw [hspans other (by rintro rfl; exact hbefore hfront.key_mem)]
      exact h.rebased_span hlow hhigh (Or.inl hfront)
    · rw [List.getElem?_map, List.getElem?_set_self hlt, Option.map_some, hlow _ Nat.le.refl]
    have hne : slot ≠ other := by
      rintro rfl
      obtain ⟨rest, hat, -⟩ := hback
      exact hafter hat.key_mem
    rw [hspans other hne]
    exact h.rebased_span hlow hhigh (Or.inr hback)
  · intro other hmem
    rw [hspans other (by rintro rfl; exact hfree hmem)]
    exact h.rebased_freed hlow hmem
  · simpa using h.capacity

omit h in
/-- Empty payloads at the end may be listed in any order. -/
theorem reorder (h : Represents config a (before ++ (slot, []) :: after))
    (hafter : flat after = []) : Represents config a ((before ++ after) ++ [(slot, [])]) := by
  have hflat : flat ((before ++ after) ++ [(slot, [])]) = flat (before ++ (slot, []) :: after) := by
    simp
  refine { h with cells := ?_, used := ?_, slots := ?_, spans := ?_ }
  · rw [hflat]
    exact h.cells
  · rw [hflat]
    exact h.used
  · refine List.Perm.trans (List.Perm.append_right _ (List.Perm.map _ ?_)) h.slots
    rw [List.append_assoc]
    exact List.Perm.append_left _ (List.perm_append_singleton _ _)
  intro other offset p hat
  apply h.spans
  rcases at_append.mp hat with hfront | ⟨_, ⟨rfl, rfl, rfl⟩ | ⟨_, hnil, -⟩, rfl⟩
  · rcases at_append.mp hfront with hbefore | ⟨rest, hrest, rfl⟩
    · exact at_middle.mpr (Or.inl hbefore)
    · exact at_middle.mpr (Or.inr (Or.inr ⟨rest, hrest, by simp⟩))
  · exact at_middle.mpr (Or.inr (Or.inl ⟨rfl, rfl, by simp [hafter]⟩))
  · exact hnil.elim

theorem replace_same (hlen : bytes.length = payload.length) :
    ∃ a', a.replace config slot bytes = (.ok (), a') ∧
      Represents config a' (before ++ (slot, bytes) :: after) := by
  obtain ⟨rest, hcells, hsize, -⟩ := h.around
  have hused := h.used
  rw [flat_append, flat_cons, List.length_append, List.length_append] at hused
  have hspan := h.span_eq
  have hspans : (a.spans.set slot ⟨(flat before).length, bytes.length⟩).map id = a.spans := by
    have hat := h.spans slot _ payload (at_middle.mpr (Or.inr (Or.inl ⟨rfl, rfl, rfl⟩)))
    obtain ⟨hlt, hget⟩ := List.getElem?_eq_some_iff.mp hat
    rw [List.map_id, hlen, ← hget, List.set_getElem_self]
  have harena : copyFromSlice a.arena (flat before).length bytes =
      flat before ++ (bytes ++ (flat after ++ rest)) := by
    rw [hcells, copyFromSlice_same hlen]
  refine ⟨{ a with arena := copyFromSlice a.arena (flat before).length bytes }, ?_, ?_⟩
  · rw [Arena.replace, hspan]
    exact if_pos hlen
  · -- Nothing moves: the spans are those of a rebase by the identity.
    rw [← hspans]
    exact h.written (fun _ _ => rfl) (fun _ _ _ _ => by rw [hlen, id]) harena (by omega) (by omega)

/-- A payload that has bytes of its own, or that lies behind all others, can be given
any other length. -/
theorem replace_resize (hlen : bytes.length ≠ payload.length) (hclear : payload ≠ [] ∨ after = [])
    (hfit : a.used - payload.length + bytes.length ≤ config.arenaBytes) :
    ∃ a', a.replace config slot bytes = (.ok (), a') ∧
      Represents config a' (before ++ (slot, bytes) :: after) := by
  obtain ⟨rest, hcells, hsize, htail⟩ := h.around
  have hused := h.used
  rw [flat_append, flat_cons, List.length_append, List.length_append] at hused
  have hroom : bytes.length ≤ payload.length + rest.length := by omega
  obtain ⟨rest', hresized, hrest⟩ := copyWithin_resize (flat before) (flat after) hroom
  have hspan := h.span_eq
  rw [Arena.replace, hspan]
  rw [if_neg hlen, if_neg (Nat.not_lt.mpr hfit)]
  refine ⟨_, rfl, ?_⟩
  refine h.written ?_ ?_ (?_ : _ = _ ++ (_ ++ (_ ++ rest'))) ?_ ?_
  · intro span hle
    exact if_neg (Nat.not_lt.mpr hle)
  · intro other rest p hat
    have hpos : payload.length ≠ 0 := by
      rcases hclear with hne | rfl
      · exact fun hzero => hne (List.length_eq_zero_iff.mp hzero)
      · exact hat.elim
    have hgt : (flat before).length + payload.length + rest > (flat before).length := by omega
    rw [if_pos hgt]
    congr 1
    dsimp only
    omega
  · rw [htail, hcells, hresized]
  · omega
  · dsimp only
    omega

end

end Represents

/-- Not the case that breaks: an empty payload that would grow while a payload with
bytes starts at its offset. -/
def Arena.clear (config : Config) (a : Arena) (slot : Nat) (bytes : List UInt8) : Bool :=
  bytes.isEmpty || (a.span slot).len != 0 ||
    a.spans.all (fun other => other.len == 0 || other.offset != (a.span slot).offset) ||
    decide (config.arenaBytes < a.used + bytes.length)

namespace Represents

theorem flat_after_eq_nil (h : Represents config a (before ++ (slot, []) :: after))
    (hclear : ∀ other ∈ a.spans, other.len = 0 ∨ other.offset ≠ (flat before).length) :
    flat after = [] := by
  by_contra hne
  obtain ⟨other, offset, p, hat, hle, hlt⟩ := exists_cell (List.length_pos_of_ne_nil hne)
  have hspan := h.spans other _ p (at_middle.mpr (Or.inr (Or.inr ⟨offset, hat, rfl⟩)))
  rcases hclear _ (List.mem_of_getElem? hspan) with hzero | hoffset
  · replace hzero : p.length = 0 := hzero
    omega
  · apply hoffset
    simp
    omega

/-- A replace is refused and changes nothing, or gives the handle its new payload. -/
theorem replace (h : Represents config a (before ++ (slot, payload) :: after))
    (hclear : a.clear config slot bytes = true) :
    (∃ error, a.replace config slot bytes = (.error error, a)) ∨
      ∃ a' segs', a.replace config slot bytes = (.ok (), a') ∧ Represents config a' segs' ∧
        segs'.Perm (before ++ (slot, bytes) :: after) := by
  by_cases hlen : bytes.length = payload.length
  · obtain ⟨a', hreplace, hrep⟩ := h.replace_same hlen
    exact Or.inr ⟨a', _, hreplace, hrep, List.Perm.refl _⟩
  by_cases hfit : a.used - payload.length + bytes.length > config.arenaBytes
  · refine Or.inl ⟨.arenaFull, ?_⟩
    rw [Arena.replace, h.span_eq]
    rw [if_neg hlen, if_pos hfit]
  have hfit' := Nat.le_of_not_lt hfit
  by_cases hpayload : payload = []
  · -- A clear empty payload has only empty ones behind it: it can be listed last.
    subst hpayload
    have hafter : flat after = [] := by
      apply h.flat_after_eq_nil
      rw [Arena.clear, h.span_eq] at hclear
      have hbytes : bytes ≠ [] := fun hnil => hlen (by rw [hnil])
      have hroom : ¬ config.arenaBytes < a.used + bytes.length := by simpa using hfit'
      simpa [hbytes, hroom] using hclear
    obtain ⟨a', hreplace, hrep⟩ := (h.reorder hafter).replace_resize hlen (Or.inr rfl) hfit'
    refine Or.inr ⟨a', _, hreplace, hrep, ?_⟩
    rw [List.append_assoc]
    exact List.Perm.append_left _ (List.perm_append_singleton _ _)
  · obtain ⟨a', hreplace, hrep⟩ := h.replace_resize hlen (Or.inl hpayload) hfit'
    exact Or.inr ⟨a', _, hreplace, hrep, List.Perm.refl _⟩

end Represents

/-! ## Runs

A run remembers, for each live handle, the bytes last stored under it. -/

inductive Op where
  | insert (bytes : List UInt8)
  | replace (slot : Nat) (bytes : List UInt8)
  | free (slot : Nat)
  deriving DecidableEq, Repr

structure World where
  arena : Arena
  stored : Nat → Option (List UInt8)

namespace World

def start (config : Config) : World := { arena := config.new, stored := fun _ => none }

def step (config : Config) (w : World) : Op → World
  | .insert bytes =>
    match w.arena.insert config bytes with
    | (.ok slot, arena) =>
      { arena := arena, stored := Function.update w.stored slot (some bytes) }
    | (.error _, arena) => { w with arena := arena }
  | .replace slot bytes =>
    match w.arena.replace config slot bytes with
    | (.ok _, arena) =>
      { arena := arena, stored := Function.update w.stored slot (some bytes) }
    | (.error _, arena) => { w with arena := arena }
  | .free slot =>
    { arena := w.arena.free config slot, stored := Function.update w.stored slot none }

def run (config : Config) (w : World) : List Op → World
  | [] => w
  | op :: ops => (w.step config op).run config ops

def live (w : World) (slot : Nat) : Bool := (w.stored slot).isSome

/-- Handles are used only while live. -/
def usesLive (w : World) : Op → Bool
  | .insert _ => true
  | .replace slot _ => w.live slot
  | .free slot => w.live slot

/-- No replace grows an empty payload that shares its offset with bytes. -/
def clear (config : Config) (w : World) : Op → Bool
  | .insert _ => true
  | .replace slot bytes => w.arena.clear config slot bytes
  | .free _ => true

/-- Every operation of the run meets `cond` where it is made. -/
def meets (config : Config) (cond : World → Op → Bool) (w : World) : List Op → Bool
  | [] => true
  | op :: ops => cond w op && (w.step config op).meets config cond ops

def Inv (config : Config) (w : World) : Prop :=
  ∃ segs, Represents config w.arena segs ∧
    ∀ slot bytes, w.stored slot = some bytes ↔ (slot, bytes) ∈ segs

variable {w : World}

theorem Inv.start (config : Config) : Inv config (World.start config) :=
  ⟨[], Represents.new config, fun _ _ => by simp [World.start]⟩

theorem stored_update {stored : Nat → Option (List UInt8)} {before after segs : Payloads}
    (hkeys : (segs.map Prod.fst).Nodup) (hperm : segs.Perm (before ++ (slot, bytes) :: after))
    (hstored : ∀ other p, other ≠ slot → (stored other = some p ↔ (other, p) ∈ before ++ after)) :
    ∀ other p, Function.update stored slot (some bytes) other = some p ↔ (other, p) ∈ segs := by
  intro other p
  rw [hperm.mem_iff]
  by_cases hslot : other = slot
  · subst hslot
    rw [Function.update_self, Option.some_inj]
    constructor
    · rintro rfl
      simp
    · intro hmem
      exact (payload_of_mem ((hperm.map Prod.fst).nodup_iff.mp hkeys) hmem).symm
  · rw [Function.update_of_ne hslot, mem_middle hslot]
    exact hstored other p hslot

variable (h : Inv config w)
include h

theorem Inv.insert (bytes : List UInt8) : Inv config (w.step config (.insert bytes)) := by
  obtain ⟨segs, hrep, hstored⟩ := h
  rw [World.step]
  rcases hrep.insert bytes with ⟨error, herror⟩ | ⟨slot, a', hok, hfresh, hrep'⟩
  · rw [herror]
    exact ⟨segs, hrep, hstored⟩
  rw [hok]
  refine ⟨_, hrep', stored_update hrep'.keys_nodup (List.Perm.refl _) ?_⟩
  intro other p _
  rw [List.append_nil]
  exact hstored other p

theorem Inv.replace (hlive : w.live slot = true) (hclear : w.arena.clear config slot bytes = true) :
    Inv config (w.step config (.replace slot bytes)) := by
  obtain ⟨segs, hrep, hstored⟩ := h
  obtain ⟨payload, hpayload⟩ := Option.isSome_iff_exists.mp hlive
  obtain ⟨before, after, rfl⟩ := List.append_of_mem ((hstored slot payload).mp hpayload)
  rw [World.step]
  rcases hrep.replace hclear with ⟨error, herror⟩ | ⟨a', segs', hok, hrep', hperm⟩
  · rw [herror]
    exact ⟨_, hrep, hstored⟩
  · rw [hok]
    refine ⟨segs', hrep', stored_update hrep'.keys_nodup hperm ?_⟩
    intro other p hne
    rw [hstored other p, mem_middle hne]

theorem Inv.free (hlive : w.live slot = true) : Inv config (w.step config (.free slot)) := by
  obtain ⟨segs, hrep, hstored⟩ := h
  obtain ⟨payload, hpayload⟩ := Option.isSome_iff_exists.mp hlive
  obtain ⟨before, after, rfl⟩ := List.append_of_mem ((hstored slot payload).mp hpayload)
  obtain ⟨hbefore, hafter⟩ := not_mem_before hrep.keys_nodup
  refine ⟨before ++ after, hrep.free, fun other p => ?_⟩
  show Function.update w.stored slot none other = some p ↔ _
  by_cases hslot : other = slot
  · grind
  · rw [Function.update_of_ne hslot, hstored other p, mem_middle hslot]

theorem Inv.step {op : Op} (hlive : w.usesLive op = true)
    (hclear : w.clear config op = true) : Inv config (w.step config op) := by
  cases op with
  | insert bytes => exact h.insert bytes
  | replace slot bytes => exact h.replace hlive hclear
  | free slot => exact h.free hlive

omit h

theorem Inv.run {ops : List Op} (h : Inv config w) (hlive : w.meets config usesLive ops = true)
    (hclear : w.meets config (clear config) ops = true) : Inv config (w.run config ops) := by
  induction ops generalizing w with
  | nil => exact h
  | cons op ops ih =>
    rw [meets, Bool.and_eq_true] at hlive hclear
    exact ih (h.step hlive.1 hclear.1) hlive.2 hclear.2

/-- Stored payloads are intact. -/
structure Intact (config : Config) (w : World) : Prop where
  reads : ∀ slot bytes, w.stored slot = some bytes → w.arena.get slot = some bytes
  disjoint : ∀ slot other, w.live slot = true → w.live other = true → slot ≠ other →
    (w.arena.span slot).offset + (w.arena.span slot).len ≤ (w.arena.span other).offset ∨
      (w.arena.span other).offset + (w.arena.span other).len ≤ (w.arena.span slot).offset
  covers : ∀ i, i < w.arena.used ↔ ∃ slot, w.live slot = true ∧
    (w.arena.span slot).offset ≤ i ∧ i < (w.arena.span slot).offset + (w.arena.span slot).len
  refusedInsert : ∀ bytes error, (w.arena.insert config bytes).1 = .error error →
    (w.arena.insert config bytes).2 = w.arena
  refusedReplace : ∀ slot bytes error, (w.arena.replace config slot bytes).1 = .error error →
    (w.arena.replace config slot bytes).2 = w.arena

theorem Inv.segment {segs : Payloads} (hrep : Represents config w.arena segs)
    (hstored : ∀ slot bytes, w.stored slot = some bytes ↔ (slot, bytes) ∈ segs)
    (hlive : w.live slot = true) :
    ∃ payload, At segs slot (w.arena.span slot).offset payload ∧
      (w.arena.span slot).len = payload.length := by
  obtain ⟨payload, hpayload⟩ := Option.isSome_iff_exists.mp hlive
  obtain ⟨offset, hat⟩ := exists_at ((hstored slot payload).mp hpayload)
  have hspan := hrep.span_of_at hat
  exact ⟨payload, by rw [hspan]; exact hat, by rw [hspan]⟩

theorem Inv.intact (h : Inv config w) : Intact config w := by
  obtain ⟨segs, hrep, hstored⟩ := h
  constructor
  · intro slot bytes hbytes
    exact hrep.get_eq ((hstored slot bytes).mp hbytes)
  · intro slot other hslot hother hne
    obtain ⟨p, hat, hlen⟩ := Inv.segment hrep hstored hslot
    obtain ⟨p', hat', hlen'⟩ := Inv.segment hrep hstored hother
    rw [hlen, hlen']
    exact hat.disjoint hat' hne
  · intro i
    rw [hrep.used]
    constructor
    · intro hi
      obtain ⟨slot, offset, p, hat, hle, hlt⟩ := exists_cell hi
      have hspan := hrep.span_of_at hat
      refine ⟨slot, ?_, by rw [hspan]; exact hle, by rw [hspan]; exact hlt⟩
      rw [live, (hstored slot p).mpr hat.mem, Option.isSome_some]
    · rintro ⟨slot, hlive, -, hlt⟩
      obtain ⟨p, hat, hlen⟩ := Inv.segment hrep hstored hlive
      have hend := hat.end_le
      omega
  · intro bytes error hrefused
    unfold Arena.insert at hrefused ⊢
    grind
  · intro slot bytes error hrefused
    unfold Arena.replace at hrefused ⊢
    grind

end World

/-- Every run of inserts, replaces and frees on live handles keeps the stored payloads
intact, as long as no replace grows an empty payload that shares its offset with the
bytes of another. -/
theorem stored_payloads_stay_intact (config : Config) (ops : List Op)
    (hlive : (World.start config).meets config World.usesLive ops = true)
    (hclear : (World.start config).meets config (World.clear config) ops = true) :
    World.Intact config ((World.start config).run config ops) :=
  ((World.Inv.start config).run hlive hclear).intact

def smallArena : Config := { backing := .inline, arenaBytes := 8, maxEntries := 4 }

/-- Payloads of two handles, one of them emptied, freed and stored again. -/
def shuffled : List Op :=
  [.insert [1, 2], .insert [3], .replace 0 [], .insert [4, 5, 6], .free 1, .insert [],
    .replace 2 [7]]

theorem stored_payloads_stay_intact_shuffled :
    World.Intact smallArena ((World.start smallArena).run smallArena shuffled) :=
  stored_payloads_stay_intact smallArena shuffled (by decide) (by decide)

/-- An empty payload and then one of two bytes are stored; the empty one is replaced by
one byte. The second handle, which was not touched, no longer reads its payload. -/
theorem grown_empty_payload_corrupts :
    let ops : List Op := [.insert [], .insert [1, 2], .replace 0 [9]]
    let w := (World.start smallArena).run smallArena ops
    (World.start smallArena).meets smallArena World.usesLive ops = true ∧
      w.stored 1 = some [1, 2] ∧ w.arena.get 1 = some [9, 1] := by
  decide

end Prns.Ports.AppDataArena
