import Prns.Ports.LemireIndex
import Prns.Verified.LinearProbe

/-!
# The operations of the Lemire index

The slot array is read as a linear-probing table whose entries are row numbers.
`Indexes` says that it is a probed table holding exactly the rows of a given set;
each operation has one specification in these terms, and each specification also
says that the operation's loop ends.
-/

namespace Prns.Ports.Lemire

open Verified
open Verified.VecOps
open Verified.LinearProbe
open Function

namespace Probing

variable {R K : Type} [IndexKey K] [IndexRow R K]

variable {buckets : Nat}

theorem bucket_lt (h : 0 < buckets) (key : UInt64) : bucket buckets key < buckets := by
  have hkey := key.toNat_lt
  rw [bucket, Nat.shiftRight_eq_div_pow]
  refine Nat.div_lt_of_lt_mul ?_
  exact Nat.mul_lt_mul_of_pos_right hkey h

theorem homeOf_lt (h : 0 < buckets) (rows : List R) (slot : Nat) :
    homeOf buckets rows slot < buckets := by
  unfold homeOf
  split
  · exact bucket_lt h _
  · exact h

variable {slot : Nat} {rows : List R} {slots : List Nat}

theorem homeOf_eq {key : K} (h : rowKey rows slot = some key) :
    homeOf buckets rows slot = bucket buckets (IndexKey.lemireKey key) := by
  simp [homeOf, h]

theorem homeOf_congr {slot' : Nat} {rows rows' : List R}
    (h : rowKey rows' slot' = rowKey rows slot) :
    homeOf buckets rows' slot' = homeOf buckets rows slot := by
  unfold homeOf
  rw [h]

omit [IndexKey K] in
theorem rowKey_of_lt (h : slot < rows.length) : ∃ key, rowKey rows slot = some key := by
  exact ⟨_, by rw [rowKey, List.getElem?_eq_getElem h]; rfl⟩

/-- What a bucket holds. -/
def view (empty : Nat) (slots : List Nat) (pos : Nat) : Option Nat :=
  if slots.getD pos empty = empty then none else some (slots.getD pos empty)

theorem view_eq_some {empty pos : Nat} (h : view empty slots pos = some slot) :
    slots.getD pos empty = slot ∧ slot ≠ empty := by
  unfold view at h
  grind

theorem view_eq_none {empty pos : Nat} :
    view empty slots pos = none ↔ slots.getD pos empty = empty := by
  simp [view]

theorem view_set {empty pos : Nat} (hpos : pos < slots.length) (hslot : slot ≠ empty) :
    view empty (slots.set pos slot) = update (view empty slots) pos (some slot) := by
  funext q
  unfold view
  grind [update_apply]

theorem view_set_empty {empty pos : Nat} (hpos : pos < slots.length) :
    view empty (slots.set pos empty) = update (view empty slots) pos none := by
  funext q
  unfold view
  grind [update_apply]

theorem stored_eq {empty : Nat} (h : slot < empty) : stored empty slot = slot :=
  Nat.mod_eq_of_lt (by omega)

/-- The slot array holds the rows in `S`, each where a probe finds it, and has more
buckets than there are rows. -/
structure Indexes (empty : Nat) (slots : List Nat) (rows : List R) (S : Nat → Prop) :
    Prop where
  room : rows.length < slots.length
  small : ∀ slot, S slot → slot < rows.length ∧ slot < empty
  table : Table slots.length (homeOf slots.length rows) S (view empty slots)

section

variable {empty : Nat} {S : Nat → Prop} (h : Indexes empty slots rows S)

include h

theorem Indexes.exists_free : ∃ pos, pos < slots.length ∧ view empty slots pos = none :=
  h.table.exists_free (fun slot hslot => (h.small slot hslot).1) h.room

theorem Indexes.pos : 0 < slots.length := Nat.lt_of_le_of_lt (Nat.zero_le _) h.room

theorem Indexes.congr_rows {rows' : List R} (hroom : rows'.length < slots.length)
    (hrows : ∀ slot, S slot → slot < rows'.length ∧ rowKey rows' slot = rowKey rows slot) :
    Indexes empty slots rows' S where
  room := hroom
  small := fun slot hslot => ⟨(hrows slot hslot).1, (h.small slot hslot).2⟩
  table := h.table.congr_home (fun slot hslot => homeOf_congr (hrows slot hslot).2)

theorem Indexes.congr_set {S' : Nat → Prop} (hset : ∀ slot, S' slot ↔ S slot) :
    Indexes empty slots rows S' where
  room := h.room
  small := fun slot hslot => h.small slot ((hset slot).mp hslot)
  table := h.table.congr_set hset

omit h in
/-- Where a probe stops. -/
def stops (empty : Nat) (slots : List Nat) (accepts : Nat → Bool) (pos : Nat) : Bool :=
  match view empty slots pos with
  | none => true
  | some slot => accepts slot

omit h in
theorem probeLoop_eq_walk (accepts : Nat → Bool) (fuel pos : Nat) (hpos : pos < slots.length) :
    probeLoop empty slots accepts fuel pos =
      (walk slots.length (stops empty slots accepts) fuel pos).map
        (fun q => if view empty slots q = none then none else some q) := by
  induction fuel generalizing pos with
  | zero => rfl
  | succ fuel ih =>
    rw [probeLoop, walk]
    cases hview : view empty slots pos with
    | none =>
      have hstop : stops empty slots accepts pos = true := by simp [stops, hview]
      rw [if_pos (view_eq_none.mp hview), if_pos hstop, Option.map_some, if_pos hview]
    | some slot =>
      obtain ⟨hslot, hne⟩ := view_eq_some hview
      have hstop : stops empty slots accepts pos = accepts slot := by
        simp [stops, hview]
      rw [hslot, if_neg hne, hstop]
      cases accepts slot with
      | true => simp [hview]
      | false =>
        rw [next_eq_mod hpos, ih _ (next_lt hpos)]
        rfl

theorem Indexes.probe (accepts : Nat → Bool) (start : Nat) (hstart : start < slots.length) :
    ∃ found, probeLoop empty slots accepts slots.length start = some found ∧ match found with
      | some pos => ∃ slot, pos < slots.length ∧ view empty slots pos = some slot ∧
          S slot ∧ accepts slot = true
      | none => ∀ slot, S slot → homeOf slots.length rows slot = start → accepts slot = false := by
  obtain ⟨goal, hgoal, hfree⟩ := h.exists_free
  obtain ⟨q, hwalk, hq, hstop, hbefore⟩ := walk_spec (stops empty slots accepts) hgoal
    (by simp [stops, hfree]) slots.length start hstart (dist_lt hstart hgoal)
  rw [probeLoop_eq_walk accepts _ _ hstart, hwalk, Option.map_some]
  cases hview : view empty slots q with
  | some slot =>
    refine ⟨some q, by simp, slot, hq, hview, h.table.entry hq hview, ?_⟩
    simpa [stops, hview] using hstop
  | none =>
    refine ⟨none, by simp, ?_⟩
    intro slot hslot hhome
    cases haccepts : accepts slot with
    | false => rfl
    | true =>
      obtain ⟨p, hp, hpslot⟩ := (h.table.holds slot).mp hslot
      rw [← hhome] at hbefore
      exact absurd hview (h.table.stops_occupied hp hpslot hq
        (by simp [stops, hpslot, haccepts]) hbefore)

theorem position_spec [DecidableEq K] (target : K) :
    ∃ found, position empty slots target rows = some found ∧ match found with
      | some pos => ∃ slot, pos < slots.length ∧ view empty slots pos = some slot ∧
          S slot ∧ rowKey rows slot = some target
      | none => ∀ slot, S slot → rowKey rows slot ≠ some target := by
  obtain ⟨found, hloop, hfound⟩ := h.probe (fun slot => decide (rowKey rows slot = some target)) _
    (bucket_lt h.pos (IndexKey.lemireKey target))
  refine ⟨found, hloop, ?_⟩
  cases found with
  | some pos =>
    obtain ⟨slot, hpos, hview, hslot, hkey⟩ := hfound
    exact ⟨slot, hpos, hview, hslot, of_decide_eq_true hkey⟩
  | none =>
    intro slot hslot hkey
    exact of_decide_eq_false (hfound slot hslot (homeOf_eq hkey)) hkey

theorem positionOfSlot_spec (hslot : S slot) :
    ∃ pos, positionOfSlot empty slots slot rows = some (some pos) ∧
      pos < slots.length ∧ view empty slots pos = some slot := by
  obtain ⟨key, hkey⟩ := rowKey_of_lt (h.small slot hslot).1
  obtain ⟨found, hloop, hfound⟩ := h.probe (fun other => decide (other = slot)) _
    (bucket_lt h.pos (IndexKey.lemireKey key))
  rw [positionOfSlot, hkey]
  cases found with
  | some pos =>
    obtain ⟨other, hpos, hview, -, heq⟩ := hfound
    exact ⟨pos, hloop, hpos, of_decide_eq_true heq ▸ hview⟩
  | none =>
    exact absurd rfl (of_decide_eq_false (hfound slot hslot (homeOf_eq hkey)))

omit h in
theorem placeLoop_eq_walk (slot fuel pos : Nat) (hpos : pos < slots.length) :
    placeLoop empty slots slot fuel pos =
      (walk slots.length (fun q => decide (view empty slots q = none)) fuel pos).map
        (fun q => slots.set q (stored empty slot)) := by
  induction fuel generalizing pos with
  | zero => rfl
  | succ fuel ih =>
    rw [placeLoop, walk]
    by_cases hempty : slots.getD pos empty = empty
    · rw [if_pos hempty, if_pos (decide_eq_true (view_eq_none.mpr hempty))]
      rfl
    · have hview : view empty slots pos ≠ none := fun h => hempty (view_eq_none.mp h)
      rw [if_neg hempty, next_eq_mod hpos, ih _ (next_lt hpos)]
      simp [hview]

theorem place_spec (hnew : ¬ S slot) (hrow : slot < rows.length) (hsmall : slot < empty) :
    ∃ slots', place empty slots slot rows = some slots' ∧ slots'.length = slots.length ∧
      Indexes empty slots' rows (fun s => s = slot ∨ S s) := by
  obtain ⟨goal, hgoal, hfree⟩ := h.exists_free
  have hhome := homeOf_lt h.pos rows slot
  obtain ⟨q, hwalk, hq, hstop, hbefore⟩ :=
    walk_spec (fun q => decide (view empty slots q = none)) hgoal
      (decide_eq_true hfree) slots.length _ hhome (dist_lt hhome hgoal)
  refine ⟨slots.set q (stored empty slot), ?_, by simp, ?_⟩
  · rw [place, placeLoop_eq_walk _ _ _ hhome, hwalk, Option.map_some]
  have htable := h.table.place hnew hhome hq (of_decide_eq_true hstop)
    (fun r hr hlt => of_decide_eq_false (hbefore r hr hlt))
  rw [stored_eq hsmall]
  refine
    { room := by rw [List.length_set]; exact h.room
      small := ?_
      table := ?_ }
  · rintro s (rfl | hs)
    · exact ⟨hrow, hsmall⟩
    · exact h.small s hs
  · rw [List.length_set, view_set hq (Nat.ne_of_lt hsmall)]
    exact htable

/-! ## Removing -/

omit h in
theorem blocksMove_iff {n hole scan home : Nat} (hhole : hole < n) (hscan : scan < n)
    (hhome : home < n) :
    blocksMove hole scan home = true ↔ 0 < LinearProbe.dist n hole home ∧
        LinearProbe.dist n hole home ≤ LinearProbe.dist n hole scan := by
  unfold blocksMove LinearProbe.dist
  grind

omit h in
/-- The scan ends at the first free bucket ahead, with a probed table. -/
theorem shiftLoop_spec {n : Nat} (fuel : Nat) (slots : List Nat) (hole scan : Nat)
    (hlen : slots.length = n) (h : Shifting n (homeOf n rows) S (view empty slots) hole scan)
    {goal : Nat} (hgoal : goal < n) (hfree : view empty slots goal = none) (hapart : goal ≠ hole)
    (hahead : goal ≠ scan) (hfuel : LinearProbe.dist n scan goal ≤ fuel) :
    ∃ slots', shiftLoop empty rows fuel slots hole scan = some slots' ∧
      slots'.length = n ∧ Table n (homeOf n rows) S (view empty slots') := by
  induction fuel generalizing slots hole scan with
  | zero =>
    have heq := dist_inj h.scan_lt hgoal h.scan_lt (by rw [dist_self]; omega)
    exact absurd heq hahead
  | succ fuel ih =>
    have hnext := next_eq_mod h.scan_lt
    have hlt := next_lt h.scan_lt
    have hcloser := dist_next_left h.scan_lt hgoal (Ne.symm hahead)
    rw [shiftLoop]
    simp only [hlen, hnext]
    cases hview : view empty slots (next n scan) with
    | none =>
      rw [if_pos (view_eq_none.mp hview)]
      exact ⟨slots, rfl, hlen, h.finish hview⟩
    | some slot =>
      obtain ⟨hslot, hne⟩ := view_eq_some hview
      have hgoalnext : goal ≠ next n scan := by
        intro heq
        rw [← heq, hfree] at hview
        cases hview
      have hhome := h.home_lt slot ((h.holds slot).mpr ⟨_, hlt, hview⟩)
      have hblocks := blocksMove_iff h.hole_lt hlt hhome
      rw [hslot, if_neg hne]
      split
      · rename_i hstay
        have hstay := hblocks.mp hstay
        exact ih slots hole (next n scan) hlen (h.stay hview hstay.1 hstay.2) hfree
          hapart hgoalnext (by omega)
      rename_i hmove
      have hview' : view empty ((slots.set hole slot).set (next n scan) empty) =
          update (update (view empty slots) hole (some slot)) (next n scan) none := by
        rw [view_set_empty (by rw [List.length_set, hlen]; exact hlt),
          view_set (by rw [hlen]; exact h.hole_lt) hne]
      refine ih _ (next n scan) (next n scan) (by simp [hlen]) ?_ ?_ hgoalnext
        hgoalnext (by omega)
      · rw [hview']
        exact h.move hview (fun hb => hmove (hblocks.mpr hb))
      · rw [hview', update_of_ne hgoalnext, update_of_ne hapart, hfree]

theorem removePosition_spec {hole : Nat} (hhole : hole < slots.length)
    (hslot : view empty slots hole = some slot) :
    ∃ slots', removePosition empty slots hole rows = some slots' ∧ slots'.length = slots.length ∧
      Indexes empty slots' rows (fun s => S s ∧ s ≠ slot) := by
  obtain ⟨goal, hgoal, hfree⟩ := h.exists_free
  have hapart : goal ≠ hole := by
    intro heq
    rw [heq, hslot] at hfree
    cases hfree
  have hopen := h.table.open hhole hslot
  rw [← view_set_empty hhole] at hopen
  have hfree' : view empty (slots.set hole empty) goal = none := by
    rw [view_set_empty hhole, update_of_ne hapart, hfree]
  obtain ⟨slots', hloop, hlen, htable⟩ := shiftLoop_spec slots.length _ hole hole
    (by simp) hopen hgoal hfree' hapart hapart (Nat.le_of_lt (dist_lt hhole hgoal))
  refine ⟨slots', hloop, hlen, ?_⟩
  exact
    { room := by rw [hlen]; exact h.room
      small := fun s hs => h.small s hs.1
      table := by rw [hlen]; exact htable }

theorem removeSlot_spec (hslot : S slot) :
    ∃ slots', removeSlot empty slots slot rows = some slots' ∧ slots'.length = slots.length ∧
      Indexes empty slots' rows (fun s => S s ∧ s ≠ slot) := by
  obtain ⟨pos, hfound, hpos, hview⟩ := positionOfSlot_spec h hslot
  obtain ⟨slots', hremove, hspec⟩ := removePosition_spec h hpos hview
  exact ⟨slots', by rw [removeSlot, hfound]; exact hremove, hspec⟩

theorem remove_spec [DecidableEq K] {target : K}
    (hget : get empty slots target rows = some (some slot)) :
    ∃ slots', remove empty slots target rows = some slots' ∧ slots'.length = slots.length ∧
      Indexes empty slots' rows (fun s => S s ∧ s ≠ slot) := by
  obtain ⟨found, hposition, hfound⟩ := position_spec h target
  rw [get, hposition] at hget
  cases found with
  | none => cases hget
  | some pos =>
    obtain ⟨other, hpos, hview, -, -⟩ := hfound
    have hslot : slots.getD pos empty = slot := by
      injection hget with hget
      injection hget
    rw [(view_eq_some hview).1] at hslot
    subst hslot
    obtain ⟨slots', hremove, hspec⟩ := removePosition_spec h hpos hview
    exact ⟨slots', by rw [remove, hposition]; exact hremove, hspec⟩

/-- An entry gets a new number, for rows in which that number has the old row's
key. -/
theorem Indexes.rename (rows' : List R) {pos previous : Nat} (hpos : pos < slots.length)
    (hview : view empty slots pos = some previous) (hnew : ¬ S slot) (hsmall : slot < empty)
    (hroom : rows'.length < slots.length) (hlt : slot < rows'.length)
    (hkey : rowKey rows' slot = rowKey rows previous)
    (hothers : ∀ s, S s → s ≠ previous → s < rows'.length ∧ rowKey rows' s = rowKey rows s) :
    Indexes empty (slots.set pos (stored empty slot)) rows'
      (fun s => s = slot ∨ S s ∧ s ≠ previous) := by
  have htable := h.table.rename hpos hview hnew (homeOf_congr hkey)
    (fun s hs hne => homeOf_congr (hothers s hs hne).2)
  rw [stored_eq hsmall]
  refine
    { room := by rw [List.length_set]; exact hroom
      small := ?_
      table := ?_ }
  · rintro s (rfl | ⟨hs, hne⟩)
    · exact ⟨hlt, hsmall⟩
    · exact ⟨(hothers s hs hne).1, (h.small s hs).2⟩
  · rw [List.length_set, view_set hpos (Nat.ne_of_lt hsmall)]
    exact htable

theorem repoint_eq [DecidableEq K] {target : K} {previous : Nat} (hprevious : S previous)
    (hkey : rowKey rows previous = some target)
    (honly : ∀ s, S s → rowKey rows s = some target → s = previous) (slot : Nat) :
    ∃ pos, pos < slots.length ∧ view empty slots pos = some previous ∧
      repoint empty slots target slot rows = some (slots.set pos (stored empty slot)) := by
  obtain ⟨found, hposition, hfound⟩ := position_spec h target
  cases found with
  | none => exact absurd hkey (hfound previous hprevious)
  | some pos =>
    obtain ⟨other, hpos, hview, hother, hotherkey⟩ := hfound
    have heq := honly other hother hotherkey
    exact ⟨pos, hpos, heq ▸ hview, by rw [repoint, hposition]; rfl⟩

omit h

theorem indexes_replicate (hroom : rows.length < buckets) :
    Indexes empty (List.replicate buckets empty) rows (fun s => s < 0) := by
  have hview : ∀ pos, view empty (List.replicate buckets empty) pos = none := by
    intro pos
    rw [view_eq_none, List.getD_eq_getElem?_getD, List.getElem?_replicate]
    split <;> rfl
  refine ⟨by rwa [List.length_replicate], by simp, by simp, ?_, ?_, ?_⟩
  · simp [Probed, hview]
  · simp [Distinct, hview]
  · simp [Holds, hview]

end

end Probing

end Prns.Ports.Lemire
