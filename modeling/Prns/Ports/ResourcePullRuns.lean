import Prns.Ports.ResourcePull

/-!
# Pull and serve agree

The invariant of the runs of `ResourcePull`, and what follows for the requests on their
way: each name that they ask for stands once in the scope of the sender, and the one that
ran out of names is answered with the names that follow.
-/

namespace Prns.Ports.ResourcePull

open ResourceWindow (windowMax)
open Receiver

/-! ## The invariant -/

/-- A request on its way, when `served` is the height of the last exhausted one that was
served. -/
structure Asked (names : List MapHash) (served : Nat) (r : Receiver) (q : InFlight) : Prop where
  served_le : served ≤ q.height
  height_le : q.height ≤ r.names.length
  asked : ∀ p name, (p, name) ∈ q.request.asked →
    served ≤ p + hashmapMaxLen ∧ p < q.height ∧ names[p]? = some name
  exhausted : ∀ last, q.request.lastKnown = some last →
    0 < q.height ∧ q.height % hashmapMaxLen = 0 ∧ q.height ≤ r.nextPosition + hashmapMaxLen ∧
      names[q.height - 1]? = some last

/-- A later request knows as much, and asks for nothing that an earlier exhausted one takes
out of the scope. -/
def Follows (a b : InFlight) : Prop :=
  a.height ≤ b.height ∧
    ∀ last, a.request.lastKnown = some last →
      ∀ p name, (p, name) ∈ b.request.asked → a.height ≤ p + hashmapMaxLen

structure Agree (names : List MapHash) (served : Nat) (w : World) : Prop where
  sender : w.sender.names = names
  scope : w.sender.scopeStart = served - (1 + windowMax)
  count : w.receiver.partCount = names.length
  known : w.receiver.names = names.take w.receiver.names.length
  height_le : w.receiver.names.length ≤ names.length
  boundary : w.receiver.names.length = names.length ∨
    w.receiver.names.length % hashmapMaxLen = 0
  first : w.landed = false → w.receiver.names.length ≤ hashmapMaxLen
  behind : served ≤ w.receiver.names.length
  ahead : w.receiver.names.length ≤ served + hashmapMaxLen
  next : served ≤ w.receiver.nextPosition + hashmapMaxLen
  pace : Bounded w.receiver.pace
  requests : ∀ q ∈ w.requests, Asked names served w.receiver q
  order : w.requests.Pairwise Follows
  updates : ∀ u ∈ w.updates, u.segment * hashmapMaxLen ≤ served ∧
    u.names = (names.drop (u.segment * hashmapMaxLen)).take hashmapMaxLen
  cancelled : w.cancelled = none
  refused : w.refused = none

/-- What a receiver may turn into without more names. -/
structure Keeps (r next : Receiver) : Prop where
  names : next.names = r.names
  count : next.partCount = r.partCount
  position : r.nextPosition ≤ next.nextPosition
  pace : Bounded next.pace

variable {names : List MapHash} {served : Nat} {next : Receiver} {q : InFlight} {r : Receiver}
  {request : PartRequest} {s : Sender} {link : ResourceWindow.LinkMemory}

theorem Asked.keeps (h : Asked names served r q)
    (hknown : r.names.length ≤ next.names.length := by exact Nat.le_refl _)
    (hposition : r.nextPosition ≤ next.nextPosition := by exact Nat.le_refl _) :
    Asked names served next q where
  served_le := h.served_le
  height_le := Nat.le_trans h.height_le hknown
  asked := h.asked
  exhausted last hlast := by
    obtain ⟨hpos, hboundary, hnext, hname⟩ := h.exhausted last hlast
    exact ⟨hpos, hboundary, by omega, hname⟩

variable {w : World} (h : Agree names served w)

include h

theorem Agree.keeps (hkeeps : Keeps w.receiver next) :
    Agree names served { w with receiver := next } where
  sender := h.sender
  scope := h.scope
  count := hkeeps.count.trans h.count
  known := by
    rw [hkeeps.names]
    exact h.known
  height_le := hkeeps.names ▸ h.height_le
  boundary := hkeeps.names ▸ h.boundary
  first hlanded := hkeeps.names ▸ h.first hlanded
  behind := hkeeps.names ▸ h.behind
  ahead := hkeeps.names ▸ h.ahead
  next := Nat.le_trans h.next (Nat.add_le_add_right hkeeps.position _)
  pace := hkeeps.pace
  requests q hq := (h.requests q hq).keeps (Nat.le_of_eq (hkeeps.names ▸ rfl)) hkeeps.position
  order := h.order
  updates := h.updates
  cancelled := h.cancelled
  refused := h.refused

theorem Agree.receiving (receiving : Bool) : Agree names served { w with receiving := receiving } :=
  ⟨h.sender, h.scope, h.count, h.known, h.height_le, h.boundary, h.first, h.behind, h.ahead,
    h.next, h.pace, h.requests, h.order, h.updates, h.cancelled, h.refused⟩

theorem Agree.landed : Agree names served { w with landed := true } :=
  ⟨h.sender, h.scope, h.count, h.known, h.height_le, h.boundary, nofun, h.behind, h.ahead,
    h.next, h.pace, h.requests, h.order, h.updates, h.cancelled, h.refused⟩

theorem Agree.asked_pull {now requestWireLen : Nat}
    (hpull : w.receiver.emitResourcePull now requestWireLen = some (next, request)) :
    Asked names served w.receiver ⟨request, w.receiver.names.length⟩ := by
  obtain ⟨hasked, hexhausted, -⟩ := emitResourcePull_some hpull
  refine ⟨h.behind, Nat.le_refl _, ?_, ?_⟩
  · intro p name hmem
    obtain ⟨hposition, hname⟩ := hasked p name hmem
    have hlt := (List.getElem?_eq_some_iff.mp hname).1
    have hnext := h.next
    refine ⟨by omega, hlt, ?_⟩
    rw [h.known, List.getElem?_take_of_lt hlt] at hname
    exact hname
  · intro last hlast
    obtain ⟨hwindow, hcount, hlast⟩ := hexhausted last hlast
    rw [List.getLast?_eq_getElem?] at hlast
    have hlt := (List.getElem?_eq_some_iff.mp hlast).1
    have hname : names[w.receiver.names.length - 1]? = some last := by
      rwa [h.known, List.length_take, Nat.min_eq_left h.height_le,
        List.getElem?_take_of_lt hlt] at hlast
    have hpos : 0 < w.receiver.names.length := by omega
    have hpace := h.pace.1
    have hlen : hashmapMaxLen = 74 := rfl
    have hmax : windowMax = 75 := rfl
    have hcount' := h.count
    have hboundary := h.boundary.resolve_left (by omega)
    have hnext : w.receiver.names.length ≤ w.receiver.nextPosition + hashmapMaxLen := by omega
    exact ⟨hpos, hboundary, hnext, hname⟩

theorem Agree.pull (now requestWireLen : Nat) : Agree names served (w.pull now requestWireLen) := by
  unfold World.pull
  cases hpull : w.receiver.emitResourcePull now requestWireLen with
  | none => exact h
  | some pulled =>
    obtain ⟨next, request⟩ := pulled
    obtain ⟨-, -, hnames, hcount, hposition, hwindow, hceiling⟩ :=
      emitResourcePull_some hpull
    have hkeeps : Keeps w.receiver next :=
      ⟨hnames, hcount, Nat.le_of_eq hposition.symm, h.pace.congr hwindow hceiling⟩
    have hkept := h.keeps hkeeps
    refine { hkept with requests := ?_, order := ?_ }
    · intro q hq
      rcases List.mem_append.mp hq with hold | hnew
      · exact hkept.requests q hold
      · cases List.mem_singleton.mp hnew
        exact (h.asked_pull hpull).keeps (Nat.le_of_eq (hnames ▸ rfl)) (Nat.le_of_eq hposition.symm)
    · rw [List.pairwise_append]
      refine ⟨h.order, List.pairwise_singleton _ _, ?_⟩
      intro q hq later hlater
      cases List.mem_singleton.mp hlater
      obtain ⟨hasked, -⟩ := emitResourcePull_some hpull
      have hearlier := h.requests q hq
      refine ⟨hearlier.height_le, fun last hlast p name hmem => ?_⟩
      have hposition := (hasked p name hmem).1
      have hnext := (hearlier.exhausted last hlast).2.2.1
      omega

/-! ## Answers -/

theorem Agree.mem_scope {i : Nat} (hlow : served ≤ i + hashmapMaxLen)
    (hhigh : i < w.receiver.names.length) :
    i ∈ servingScope w.sender.names w.sender.scopeStart := by
  have hahead := h.ahead
  have hheight := h.height_le
  have hlen : hashmapMaxLen = 74 := rfl
  have hmax : windowMax = 75 := rfl
  have hguard : collisionGuardSize = 224 := rfl
  rw [mem_servingScope, h.sender, h.scope]
  omega

omit h in
theorem serve_exhausted {last : MapHash} (hlast : q.request.lastKnown = some last)
    (hpos : 0 < q.height) (hboundary : q.height % hashmapMaxLen = 0)
    (hscope : q.height - 1 ∈ servingScope s.names s.scopeStart)
    (hname : s.names[q.height - 1]? = some last) :
    ∃ segment, segment * hashmapMaxLen = q.height ∧ s.serveResourceRequest q.request =
        .ok ({ s with scopeStart := q.height - (1 + windowMax) },
          servePartIndices s.names s.scopeStart q.request.requested,
          some ⟨segment, (s.names.drop q.height).take hashmapMaxLen⟩) := by
  have hheight : q.height / hashmapMaxLen * hashmapMaxLen = q.height :=
    Nat.div_mul_cancel (Nat.dvd_of_mod_eq_zero hboundary)
  have hsegment : 0 < q.height / hashmapMaxLen := Nat.pos_of_mul_pos_right (hheight ▸ hpos)
  have hplan := planHashmapUpdate_ok s.guarded hsegment (hheight ▸ hscope) (hheight ▸ hname)
  have hentries : (s.names.drop q.height).take (min ((q.height / hashmapMaxLen + 1) *
        hashmapMaxLen) s.names.length - q.height) = (s.names.drop q.height).take hashmapMaxLen := by
    rw [List.take_eq_take_iff, List.length_drop, Nat.succ_mul]
    omega
  rw [hheight] at hplan
  refine ⟨q.height / hashmapMaxLen, hheight, ?_⟩
  simp only [Sender.serveResourceRequest, hlast, hplan, hentries]

omit h in
theorem serveResourceRequest_asking (hlast : request.lastKnown = none) :
    s.serveResourceRequest request =
      .ok (s, servePartIndices s.names s.scopeStart request.requested, none) := by
  unfold Sender.serveResourceRequest
  rw [hlast]

theorem Agree.drop {requests : List InFlight} (hsub : requests.Sublist w.requests) :
    Agree names served { w with requests := requests } :=
  { h with
    requests := fun q hq => h.requests q (hsub.subset hq)
    order := h.order.sublist hsub }

theorem Agree.serve {first : InFlight} {rest : List InFlight} (hqueue : w.requests = first :: rest) :
    ∃ served', Agree names served' (w.serve first rest) := by
  have hfirst : first ∈ w.requests := by
    rw [hqueue]
    exact List.mem_cons_self
  have hdropped : Agree names served { w with requests := rest } :=
    h.drop (by rw [hqueue]; exact List.sublist_cons_self _ _)
  unfold World.serve
  cases hlast : first.request.lastKnown with
  | none =>
    rw [serveResourceRequest_asking hlast]
    refine ⟨served, { hdropped with updates := ?_ }⟩
    intro u hu
    exact h.updates u (by simpa using hu)
  | some last =>
    have hasked := h.requests first hfirst
    obtain ⟨hpos, hboundary, hnext, hname⟩ := hasked.exhausted last hlast
    have hserved := hasked.served_le
    have hknown := hasked.height_le
    obtain ⟨segment, hsegment, hserve⟩ := serve_exhausted hlast hpos hboundary
      (h.mem_scope (by unfold hashmapMaxLen; omega) (by omega)) (h.sender ▸ hname)
    rw [hserve]
    have hahead := h.ahead
    have horder := h.order
    rw [hqueue, List.pairwise_cons] at horder
    -- From now on the height of this request is the last one served.
    refine ⟨first.height, { hdropped with
      scope := rfl, behind := hasked.height_le, ahead := ?_, next := hnext, requests := ?_,
      updates := ?_ }⟩
    · show w.receiver.names.length ≤ first.height + hashmapMaxLen
      omega
    · intro q hq
      have hold := hdropped.requests q hq
      obtain ⟨hheight, hpositions⟩ := horder.1 q hq
      refine ⟨hheight, hold.height_le, ?_, hold.exhausted⟩
      intro p name hmem
      obtain ⟨-, hlt, hname⟩ := hold.asked p name hmem
      exact ⟨hpositions last hlast p name hmem, hlt, hname⟩
    · intro u hu
      rcases List.mem_append.mp hu with hold | hnew
      · obtain ⟨hle, hnames⟩ := h.updates u hold
        exact ⟨Nat.le_trans hle hserved, hnames⟩
      · cases List.mem_singleton.mp hnew
        exact ⟨Nat.le_of_eq hsegment, by rw [hsegment, h.sender]⟩

theorem Agree.update (hsize : names.length ≤ usizeMax) {update : HashmapUpdate}
    (hsent : update ∈ w.updates) (now requestWireLen : Nat) :
    Agree names served (w.update update now requestWireLen) := by
  obtain ⟨hsegment, hentries⟩ := h.updates update hsent
  obtain ⟨segment, entries⟩ := update
  dsimp only at hsegment hentries
  subst hentries
  unfold World.update
  have hheight := h.height_le
  have hbehind := h.behind
  rw [applyHashmapUpdate_ok h.count hsize h.known hheight (Nat.le_trans hsegment hbehind)]
  apply Agree.pull
  -- The register grows to the end of the segment, if it was not there yet.
  generalize hgrown : max w.receiver.names.length
    (min (segment * hashmapMaxLen + hashmapMaxLen) names.length) = height
  have hlength : (names.take height).length = height := by
    rw [List.length_take]
    omega
  refine { h.landed with known := ?_, height_le := ?_, boundary := ?_, first := nofun,
                         behind := ?_, ahead := ?_, pace := ?_, requests := ?_ }
  · rw [hlength]
  · show (names.take height).length ≤ names.length
    omega
  · rw [hlength]
    have hboundary := h.boundary
    have hmod : (segment * hashmapMaxLen + hashmapMaxLen) % hashmapMaxLen = 0 := by
      rw [Nat.add_mod_right, Nat.mul_mod_left]
    rcases Nat.le_total w.receiver.names.length
      (min (segment * hashmapMaxLen + hashmapMaxLen) names.length) with hpast | hwithin
    · rcases Nat.le_total (segment * hashmapMaxLen + hashmapMaxLen) names.length with hin | hend
      · right
        rw [← hgrown, Nat.max_eq_right hpast, Nat.min_eq_left hin]
        exact hmod
      · left
        omega
    · rw [← hgrown, Nat.max_eq_left hwithin]
      exact hboundary
  · show served ≤ (names.take height).length
    omega
  · show (names.take height).length ≤ served + hashmapMaxLen
    have hahead := h.ahead
    omega
  · exact h.pace.congr rfl rfl
  · intro q hq
    refine (h.requests q hq).keeps ?_
    show w.receiver.names.length ≤ (names.take height).length
    omega

/-! ## Runs -/

omit h in
theorem min_boundary (names : List MapHash) : min hashmapMaxLen names.length = names.length ∨
      min hashmapMaxLen names.length % hashmapMaxLen = 0 := by
  rcases Nat.le_total hashmapMaxLen names.length with hlong | hshort
  · right
    rw [Nat.min_eq_left hlong, Nat.mod_self]
  · left
    exact Nat.min_eq_right hshort

omit h in
theorem Asked.readmitted (h : Asked names served r q) (hfirst : r.names.length ≤ hashmapMaxLen)
    (hknown : r.names.length ≤ next.names.length) :
    Asked names served next q where
  served_le := h.served_le
  height_le := Nat.le_trans h.height_le hknown
  asked := h.asked
  exhausted last hlast := by
    obtain ⟨hpos, hboundary, -, hname⟩ := h.exhausted last hlast
    have hle := h.height_le
    exact ⟨hpos, hboundary, by omega, hname⟩

/-- A receiver that has heard nothing may start anew. -/
theorem Agree.readmitted (hlanded : w.landed = false) (hlink : Remembers link) {sealed : List UInt8}
    {sdu : Nat} (hlength : names.length = (chunks sealed sdu).length) :
    Agree names served { w with
      receiver := .accept link (World.offer w.sender sealed sdu), receiving := true } := by
  have hnames : (accept link (World.offer w.sender sealed sdu)).names =
      names.take hashmapMaxLen := by
    rw [← h.sender]
    rfl
  have hfirst := h.first hlanded
  have hheight := h.height_le
  have hbehind := h.behind
  have hknown : ((accept link (World.offer w.sender sealed sdu)).names).length =
      min hashmapMaxLen names.length := by
    rw [hnames, List.length_take]
  refine { h with count := hlength.symm, known := ?_, height_le := ?_, boundary := ?_,
                  first := ?_, behind := ?_, ahead := ?_, next := ?_,
                  pace := bounded_admitted hlink, requests := ?_ }
  · rw [hknown, hnames, List.take_eq_take_iff]
    omega
  · dsimp only
    omega
  · rw [hknown]
    exact min_boundary names
  · intro _
    dsimp only
    omega
  · dsimp only
    omega
  · dsimp only
    omega
  · omega
  · exact fun q hq => (h.requests q hq).readmitted hfirst (by dsimp only; omega)

theorem Agree.land {position : Nat} {bytes : List UInt8} {placed : Receiver}
    (hplaced : w.receiver.placePart position bytes = (.placed, placed))
    {pace : ResourceWindow.IncomingResourceState} (hpace : Bounded pace) (now requestWireLen : Nat) :
    Agree names served (w.land placed pace now requestWireLen) := by
  obtain ⟨hnames, hcount, hposition, -⟩ := placePart_keeps hplaced
  have hkeeps : Keeps w.receiver { placed with pace := pace } := ⟨hnames, hcount, hposition, hpace⟩
  have hkept := (h.keeps hkeeps).landed
  unfold World.land
  split_ifs
  · exact hkept.receiving false
  · exact hkept.pull now requestWireLen
  · exact hkept

omit h

section

variable {mapHash : List UInt8 → MapHash} {sealed : List UInt8} {sdu : Nat}

theorem Step.agree_or_serve {w' : World}
    (h : Agree names served w) (hlength : names.length = (chunks sealed sdu).length)
    (hsize : names.length ≤ usizeMax) (step : Step mapHash sealed sdu w w') :
    Agree names served w' ∨ ∃ first rest, w.requests = first :: rest ∧ w' = w.serve first rest := by
  cases step with
  | advertised now requestWireLen _ => exact Or.inl (h.pull now requestWireLen)
  | readmitted link _ hlanded hlink => exact Or.inl (h.readmitted hlanded hlink hlength)
  | serve hqueue _ => exact Or.inr ⟨_, _, hqueue, rfl⟩
  | lose i => exact Or.inl (h.drop (List.eraseIdx_sublist _ _))
  | part arrivedAt linkRttMs now requestWireLen _ _ _ _ hplaced hpace =>
    obtain ⟨-, -, -, hwindow, hceiling⟩ := placePart_keeps hplaced
    have hbounded := hpace.bounded fun next hnext =>
      bounded_finishResourcePart (h.pace.congr hwindow hceiling) hnext
    exact Or.inl (h.land hplaced hbounded now requestWireLen)
  | update now requestWireLen _ hsent =>
    exact Or.inl (h.update hsize hsent now requestWireLen)
  | @silent pace now requestWireLen _ _ hpace =>
    have hbounded := hpace.bounded fun next hnext => bounded_fireSilentRound h.pace hnext
    have hkeeps : Keeps w.receiver { w.receiver with pace := pace } :=
      ⟨rfl, rfl, Nat.le_refl _, hbounded⟩
    exact Or.inl ((h.keeps hkeeps).pull now requestWireLen)
  | abandon _ => exact Or.inl (h.receiving false)

theorem Step.agree {w' : World} (h : Agree names served w)
    (hlength : names.length = (chunks sealed sdu).length) (hsize : names.length ≤ usizeMax)
    (step : Step mapHash sealed sdu w w') : ∃ served', Agree names served' w' := by
  rcases step.agree_or_serve h hlength hsize with hagree | ⟨first, rest, hqueue, rfl⟩
  · exact ⟨served, hagree⟩
  · exact h.serve hqueue

/-- A resource that was just accepted is one that nobody has heard of. -/
theorem agree_start {sender : Sender} (hlength : sender.names.length = (chunks sealed sdu).length)
    (hscope : sender.scopeStart = 0) (hlink : Remembers link) :
    Agree sender.names 0 (.start sender link sealed sdu) := by
  have hknown : ((accept link (World.offer sender sealed sdu)).names).length =
      min hashmapMaxLen sender.names.length := List.length_take
  refine ⟨rfl, ?_, hlength.symm, ?_, ?_, ?_, ?_, Nat.zero_le _, ?_, Nat.zero_le _,
    bounded_admitted hlink, nofun, List.Pairwise.nil, nofun, rfl, rfl⟩
  · show sender.scopeStart = 0 - (1 + windowMax)
    rw [hscope, Nat.zero_sub]
  · show sender.names.take hashmapMaxLen = sender.names.take (sender.names.take hashmapMaxLen).length
    rw [List.length_take, List.take_eq_take_iff]
    omega
  · exact Nat.le_trans (Nat.le_of_eq hknown) (by omega)
  · show ((accept link (World.offer sender sealed sdu)).names).length = _ ∨
      ((accept link (World.offer sender sealed sdu)).names).length % hashmapMaxLen = 0
    rw [hknown]
    exact min_boundary sender.names
  · exact fun _ => Nat.le_trans (Nat.le_of_eq hknown) (by omega)
  · exact Nat.le_trans (Nat.le_of_eq hknown) (by omega)

theorem Run.agree (hsize : (chunks sealed sdu).length ≤ usizeMax) (run : Run mapHash sealed sdu w) :
    ∃ names served, names.length = (chunks sealed sdu).length ∧ Agree names served w := by
  induction run with
  | start hbuilt hscope hlink =>
    have hlength := (guarded_writeHashmap hbuilt).2
    exact ⟨_, 0, hlength, agree_start hlength hscope hlink⟩
  | next _ step ih =>
    obtain ⟨names, served, hlength, hagree⟩ := ih
    obtain ⟨served', hagree'⟩ := step.agree hagree hlength (hlength ▸ hsize)
    exact ⟨names, served', hlength, hagree'⟩

end

/-- What the sender can make of a request: each name that it asks for names one part of the
scope, and if it ran out of names, then the names that follow the last known one are the
answer, one segment of them or what is left. -/
structure Answered (s : Sender) (q : InFlight) : Prop where
  asked : ∀ name ∈ q.request.requested,
    ∃! i, i ∈ servingScope s.names s.scopeStart ∧ s.names[i]? = some name
  asking : q.request.lastKnown = none →
    ∃ parts, s.serveResourceRequest q.request = .ok (s, parts, none)
  exhausted : ∀ last, q.request.lastKnown = some last →
    s.names[q.height - 1]? = some last ∧ ∃ segment next parts,
      segment * hashmapMaxLen = q.height ∧
      s.serveResourceRequest q.request =
        .ok (next, parts, some ⟨segment, (s.names.drop q.height).take hashmapMaxLen⟩)

theorem answered_of_scope
    (hasked : ∀ p name, (p, name) ∈ q.request.asked →
      p ∈ servingScope s.names s.scopeStart ∧ s.names[p]? = some name)
    (hexhausted : ∀ last, q.request.lastKnown = some last → 0 < q.height ∧
      q.height % hashmapMaxLen = 0 ∧ q.height - 1 ∈ servingScope s.names s.scopeStart ∧
      s.names[q.height - 1]? = some last) : Answered s q := by
  refine ⟨?_, fun hlast => ⟨_, serveResourceRequest_asking hlast⟩, ?_⟩
  · intro name hname
    obtain ⟨⟨p, name⟩, hmem, rfl⟩ := List.mem_map.mp hname
    obtain ⟨hscope, hp⟩ := hasked p name hmem
    refine ⟨p, ⟨hscope, hp⟩, ?_⟩
    rintro other ⟨hother, hotherName⟩
    exact servingScope_unique s.guarded hother hscope hotherName hp
  · intro last hlast
    obtain ⟨hpos, hboundary, hscope, hname⟩ := hexhausted last hlast
    obtain ⟨segment, hsegment, hserve⟩ := serve_exhausted hlast hpos hboundary hscope hname
    exact ⟨hname, segment, _, _, hsegment, hserve⟩

theorem Agree.answered (h : Agree names served w) (hq : q ∈ w.requests) : Answered w.sender q := by
  have hasked := h.requests q hq
  have hserved := hasked.served_le
  have hknown := hasked.height_le
  refine answered_of_scope ?_ ?_
  · intro p name hmem
    obtain ⟨hlow, hlt, hp⟩ := hasked.asked p name hmem
    exact ⟨h.mem_scope hlow (by omega), h.sender ▸ hp⟩
  · intro last hlast
    obtain ⟨hpos, hboundary, -, hname⟩ := hasked.exhausted last hlast
    exact ⟨hpos, hboundary, h.mem_scope (by unfold hashmapMaxLen; omega) (by omega),
      h.sender ▸ hname⟩

/-- Pull and serve agree. In every run, the names that the receiver knows are a prefix of
those of the sender, the sender has not cancelled and the receiver has refused no update,
and every request on its way can be answered: each name it asks for lies in the scope and
stands for one part there, and one that ran out of names gets those that follow the last
one the receiver knew. -/
theorem pull_and_serve_agree {mapHash : List UInt8 → MapHash} {sealed : List UInt8} {sdu : Nat}
    (hsize : (chunks sealed sdu).length ≤ usizeMax) {w : World}
    (run : Run mapHash sealed sdu w) :
    w.receiver.names <+: w.sender.names ∧ w.cancelled = none ∧ w.refused = none ∧
      ∀ q ∈ w.requests, Answered w.sender q := by
  obtain ⟨names, served, -, hagree⟩ := run.agree hsize
  refine ⟨?_, hagree.cancelled, hagree.refused, fun q hq => hagree.answered hq⟩
  rw [hagree.sender, hagree.known]
  exact List.take_prefix _ _

/-- Eighty parts of one byte each, named by that byte. -/
def eighty : List UInt8 := (List.range 80).map UInt8.ofNat

def firstByte (part : List UInt8) : MapHash := (part.headD 0).toUInt32

theorem eighty_built :
    writeHashmapWithoutCollision firstByte eighty 1 = some (eighty.map UInt8.toUInt32) := by
  decide +kernel

def eightySender : Sender :=
  ⟨eighty.map UInt8.toUInt32, (guarded_writeHashmap eighty_built).1, 0⟩

/-- The link has moved to the widest window, so that the first pull runs out of names. -/
def eightyPulled : World :=
  (World.start eightySender ⟨some 75, none⟩ eighty 1).pull 0 400

theorem eightyPulled_run : Run firstByte eighty 1 eightyPulled := by
  refine .next (.start eighty_built rfl ?_) (.advertised 0 400 rfl)
  intro window hwindow
  cases hwindow
  exact Nat.le_refl _

theorem pull_and_serve_agree_eighty :
    eightyPulled.requests.map (fun q => (q.height, q.request.lastKnown)) = [(74, some 73)] ∧
      eightyPulled.receiver.names <+: eightyPulled.sender.names ∧
      eightyPulled.cancelled = none ∧ eightyPulled.refused = none ∧
      ∀ q ∈ eightyPulled.requests, Answered eightyPulled.sender q :=
  ⟨by decide, pull_and_serve_agree (by decide) eightyPulled_run⟩

end Prns.Ports.ResourcePull
