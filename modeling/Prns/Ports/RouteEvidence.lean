import Mathlib.Tactic.SplitIfs

/-!
# Route evidence ids

Model of `routing/routes/evidence.rs`, as `mint_route_evidence_id` uses it. An id is a `u32`
other than zero. The ids are issued in turn, and after a wrap only a scan of the ids that routes
and links hold shows which of them are free. The barrier saves most scans: it is the next id
that may still be held.
-/

namespace Prns.Ports.RouteEvidence

def u32Max : Nat := 0xFFFF_FFFF

structure RouteEvidenceScan where
  currentInUse : Bool
  nextInUse : Option Nat

/-- The loop over the ids: is the candidate one of them, and which is the least above it? -/
def RouteEvidenceScan.over (candidate : Nat) (ids : List Nat) : RouteEvidenceScan where
  currentInUse := ids.contains candidate
  nextInUse := (ids.filter (candidate < ·)).min?

theorem RouteEvidenceScan.exists_nextInUse {candidate id : Nat} {ids : List Nat} (hid : id ∈ ids)
    (hlt : candidate < id) :
    ∃ next, (RouteEvidenceScan.over candidate ids).nextInUse = some next ∧
      candidate < next ∧ next ≤ id := by
  have hmem : id ∈ ids.filter (candidate < ·) := List.mem_filter.mpr ⟨hid, decide_eq_true hlt⟩
  obtain ⟨next, hnext⟩ := Option.isSome_iff_exists.mp (List.isSome_min?_of_mem hmem)
  obtain ⟨hmin, hle⟩ := List.min?_eq_some_iff.mp hnext
  exact ⟨next, hnext, of_decide_eq_true (List.mem_filter.mp hmin).2, hle id hmem⟩

structure RouteEvidenceIdIssuer where
  next : Nat
  reuseBarrier : Option Nat

namespace RouteEvidenceIdIssuer

def first : Nat := 1

def IsId (id : Nat) : Prop := first ≤ id ∧ id ≤ u32Max

def default : RouteEvidenceIdIssuer := ⟨first, none⟩

section

variable (issuer : RouteEvidenceIdIssuer) (ids : List Nat)

/-- `advance`, with the barrier for the rest of the lap. A new lap begins with a scan. -/
def advance (nextInUse : Option Nat) : RouteEvidenceIdIssuer :=
  if issuer.next = u32Max then ⟨first, some first⟩ else ⟨issuer.next + 1, nextInUse⟩

/-- The loop of `issue`, for at most so many turns. -/
def issueLoop : Nat → RouteEvidenceIdIssuer → Option (Nat × RouteEvidenceIdIssuer)
  | 0, _ => none
  | turns + 1, issuer =>
    if issuer.reuseBarrier = some issuer.next then
      let occupied := RouteEvidenceScan.over issuer.next ids
      if occupied.currentInUse then issueLoop turns (issuer.advance occupied.nextInUse)
      else some (issuer.next, issuer.advance occupied.nextInUse)
    else some (issuer.next, issuer.advance issuer.reuseBarrier)

def issue : Option (Nat × RouteEvidenceIdIssuer) := issueLoop ids u32Max issuer

end

variable {issuer issuer' : RouteEvidenceIdIssuer} {held held' : List Nat} {id turns : Nat}

/-- An id that is held and was not passed in this lap is not before the barrier. -/
structure Guarded (issuer : RouteEvidenceIdIssuer) (held : List Nat) : Prop where
  ids : ∀ id ∈ issuer.next :: held, IsId id
  barrier : ∀ id ∈ held, issuer.next ≤ id →
    ∃ barrier, issuer.reuseBarrier = some barrier ∧ issuer.next ≤ barrier ∧ barrier ≤ id

theorem Guarded.mono (h : Guarded issuer held) (hheld : held' ⊆ held) : Guarded issuer held' where
  ids id hid := h.ids id (List.cons_subset_cons _ hheld hid)
  barrier id hid := h.barrier id (hheld hid)

theorem Guarded.advance (h : Guarded issuer held) {nextInUse : Option Nat}
    (hnext : ∀ id ∈ held, issuer.next < id →
      ∃ next, nextInUse = some next ∧ issuer.next < next ∧ next ≤ id) :
    Guarded (issuer.advance nextInUse) (issuer.next :: held) := by
  obtain ⟨-, hlast⟩ := h.ids _ List.mem_cons_self
  unfold RouteEvidenceIdIssuer.advance
  split_ifs with hwrap
  · exact ⟨List.forall_mem_cons.mpr ⟨⟨Nat.le_refl _, by decide⟩, h.ids⟩,
      fun id hid _ => ⟨first, rfl, Nat.le_refl _, (h.ids id hid).1⟩⟩
  · refine ⟨List.forall_mem_cons.mpr ⟨⟨Nat.succ_pos _, by dsimp only; omega⟩, h.ids⟩,
      fun id hid hle => ?_⟩
    rcases List.mem_cons.mp hid with rfl | hid
    · exact absurd hle (Nat.not_succ_le_self _)
    · exact hnext id hid hle

theorem Guarded.scanned (h : Guarded issuer held) :
    Guarded (issuer.advance (RouteEvidenceScan.over issuer.next held).nextInUse)
      (issuer.next :: held) :=
  h.advance fun _ => RouteEvidenceScan.exists_nextInUse

theorem Guarded.issueLoop (h : Guarded issuer held)
    (hissue : issueLoop held turns issuer = some (id, issuer')) :
    id ∉ held ∧ Guarded issuer' (id :: held) := by
  induction turns generalizing issuer with
  | zero => cases hissue
  | succ turns ih =>
    rw [RouteEvidenceIdIssuer.issueLoop] at hissue
    dsimp only at hissue
    split_ifs at hissue with hbarrier hused
    · exact ih (h.scanned.mono (List.subset_cons_self _ _)) hissue
    · cases hissue
      exact ⟨fun hmem => hused (List.contains_iff_mem.mpr hmem), h.scanned⟩
    · -- no scan: what is held lies behind the barrier, and the cursor is before it
      cases hissue
      refine ⟨fun hmem => ?_, h.advance fun id hid hlt => ?_⟩
      · obtain ⟨barrier, hsome, hle, hge⟩ := h.barrier _ hmem (Nat.le_refl _)
        exact hbarrier (hsome.trans (congrArg some (Nat.le_antisymm hge hle)))
      · obtain ⟨barrier, hsome, hle, hge⟩ := h.barrier id hid (Nat.le_of_lt hlt)
        refine ⟨barrier, hsome, Nat.lt_of_le_of_ne hle ?_, hge⟩
        rintro rfl
        exact hbarrier hsome

/-- Steps of the cursor up to an id. -/
def distance (next id : Nat) : Nat := if next ≤ id then id - next else u32Max - next + id

theorem Guarded.exists_issueLoop (h : Guarded issuer held) {free : Nat} (hfree : free ∉ held)
    (hid : IsId free) (hturns : distance issuer.next free < turns) :
    ∃ result, RouteEvidenceIdIssuer.issueLoop held turns issuer = some result := by
  induction turns generalizing issuer with
  | zero => cases hturns
  | succ turns ih =>
    rw [RouteEvidenceIdIssuer.issueLoop]
    dsimp only
    split_ifs with hbarrier hused
    · refine ih (h.scanned.mono (List.subset_cons_self _ _)) ?_
      have hne : issuer.next ≠ free := fun heq => hfree (heq ▸ List.contains_iff_mem.mp hused)
      obtain ⟨hfirst, hlast⟩ := h.ids _ List.mem_cons_self
      unfold RouteEvidenceIdIssuer.advance distance IsId first at *
      split_ifs at hturns ⊢ <;> simp only at * <;> omega
    · exact ⟨_, rfl⟩
    · exact ⟨_, rfl⟩

/-- What an engine does with its issuer: ids are held by some route or link, are copied from one
to another and dropped, and come from the issuer only. -/
inductive Reachable : RouteEvidenceIdIssuer → List Nat → Prop
  | default : Reachable default []
  | change {issuer : RouteEvidenceIdIssuer} {held held' : List Nat} (h : Reachable issuer held)
      (hheld : held' ⊆ held) : Reachable issuer held'
  | mint {issuer issuer' : RouteEvidenceIdIssuer} {held : List Nat} {id : Nat}
      (h : Reachable issuer held) (hissue : issuer.issue held = some (id, issuer')) :
      Reachable issuer' (id :: held)

theorem Reachable.guarded (h : Reachable issuer held) : Guarded issuer held := by
  induction h with
  | default => exact ⟨List.forall_mem_singleton.mpr ⟨Nat.le_refl _, by decide⟩, by simp⟩
  | change _ hheld ih => exact ih.mono hheld
  | mint _ hissue ih => exact (ih.issueLoop hissue).2

/-- **No id that is held is issued again**, through any number of wraps, although most issues
scan nothing; and while one id is free, an issue ends. -/
theorem issued_id_is_free (h : Reachable issuer held)
    (hfree : ∃ free, IsId free ∧ free ∉ held) :
    ∃ id issuer', issuer.issue held = some (id, issuer') ∧ IsId id ∧ id ∉ held := by
  obtain ⟨free, hid, hfree⟩ := hfree
  have hguarded := h.guarded
  have hturns : distance issuer.next free < u32Max := by
    have hnext := hguarded.ids _ List.mem_cons_self
    unfold distance IsId first at *
    split_ifs <;> omega
  obtain ⟨⟨id, issuer'⟩, hissue⟩ := hguarded.exists_issueLoop hfree hid hturns
  obtain ⟨hfresh, hnext⟩ := hguarded.issueLoop hissue
  exact ⟨id, issuer', hissue, hnext.ids id (by simp), hfresh⟩

/-- The id of the only route is 1. -/
theorem issued_id_is_free_second : ∃ id issuer',
    issue ⟨2, none⟩ [1] = some (id, issuer') ∧ IsId id ∧ id ∉ [1] :=
  issued_id_is_free (.mint .default rfl) ⟨2, ⟨by decide, by decide⟩, by decide⟩

end RouteEvidenceIdIssuer

end Prns.Ports.RouteEvidence
