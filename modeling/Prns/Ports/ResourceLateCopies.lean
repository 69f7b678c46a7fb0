import Prns.Ports.ResourcePullRuns

/-!
# Late copies of part requests

Part requests are not checked for duplicates, because a receiver's retry has the same bytes,
so any of them may be delivered again at any later time. Here the network keeps every
request that was sent and delivers them in any order and as often as it likes.

A request that ran out of names moves the scope to the height at which it was sent. The
furthest such height that was served is `served`. A request that is at most one segment
behind it leaves the scope where the receiver can use it; an older one finds its last name
before the scope, and the sender cancels the transfer.
-/

namespace Prns.Ports.ResourcePull

open ResourceWindow (windowMax)

section

variable (mapHash : List UInt8 → MapHash) (sealed : List UInt8) (sdu : Nat)

/-- The runs of an honest sender and an honest receiver over a network that keeps every
request, in `log`, and delivers those that `late` allows, whenever it likes. -/
inductive Replays (late : Nat → InFlight → Prop) : World → List InFlight → Nat → Prop where
  | start {sender : Sender} {link : ResourceWindow.LinkMemory}
      (hbuilt : writeHashmapWithoutCollision mapHash sealed sdu = some sender.names)
      (hscope : sender.scopeStart = 0) (hlink : Remembers link) :
      Replays late (.start sender link sealed sdu) [] 0
  /-- Anything but a delivery: no request is on its way, and what is sent goes to the log. -/
  | next {w w' log served} (run : Replays late w log served)
      (step : Step mapHash sealed sdu w w') :
      Replays late { w' with requests := [] } (log ++ w'.requests) served
  /-- A request is delivered, for the first time or again. -/
  | deliver {w log served q} (run : Replays late w log served) (hsent : q ∈ log)
      (hlive : w.cancelled = none) (hlate : late served q) :
      Replays late (w.serve q []) log
        (if q.request.lastKnown.isSome then max served q.height else served)

end

/-- A request that ran out of names is at most one segment behind the furthest one. -/
def Recent (served : Nat) (q : InFlight) : Prop :=
  q.request.lastKnown.isSome → served ≤ q.height + hashmapMaxLen

/-! ## The scope of the furthest request -/

/-- The world in which the last request that moved the scope is the furthest one. -/
def World.settle (w : World) (served : Nat) : World :=
  { w with sender := { w.sender with scopeStart := served - (1 + windowMax) } }

variable {names : List MapHash} {served : Nat} {w : World} {log : List InFlight} {q : InFlight}

theorem World.pull_settle (w : World) (served now requestWireLen : Nat) :
    (w.pull now requestWireLen).settle served = (w.settle served).pull now requestWireLen ∧
      (w.pull now requestWireLen).sender = w.sender := by
  unfold World.pull
  dsimp only [World.settle]
  split <;> exact ⟨rfl, rfl⟩

theorem World.land_settle (w : World) (served : Nat) (placed : Receiver)
    (pace : ResourceWindow.IncomingResourceState) (now requestWireLen : Nat) :
    (w.land placed pace now requestWireLen).settle served =
        (w.settle served).land placed pace now requestWireLen ∧
      (w.land placed pace now requestWireLen).sender = w.sender := by
  unfold World.land
  split_ifs
  · exact ⟨rfl, rfl⟩
  · exact World.pull_settle _ served now requestWireLen
  · exact ⟨rfl, rfl⟩

theorem World.update_settle (w : World) (served : Nat) (update : HashmapUpdate)
    (now requestWireLen : Nat) :
    (w.update update now requestWireLen).settle served =
        (w.settle served).update update now requestWireLen ∧
      (w.update update now requestWireLen).sender = w.sender := by
  unfold World.update
  dsimp only [World.settle]
  split
  · exact ⟨rfl, rfl⟩
  · exact World.pull_settle _ served now requestWireLen

theorem Asked.pull (h : Asked names served w.receiver q) (now requestWireLen : Nat) :
    Asked names served (w.pull now requestWireLen).receiver q := by
  unfold World.pull
  split
  · exact h
  · next hpull =>
      obtain ⟨-, -, hnames, -, hposition, -⟩ := Receiver.emitResourcePull_some hpull
      exact h.keeps (Nat.le_of_eq (by rw [hnames])) (Nat.le_of_eq hposition.symm)

section

variable {mapHash : List UInt8 → MapHash} {sealed : List UInt8} {sdu : Nat} {w' : World}

/-- Without a request on its way, a step does not look at the scope. -/
theorem Step.settle (hquiet : w.requests = []) (step : Step mapHash sealed sdu w w')
    (served : Nat) :
    Step mapHash sealed sdu (w.settle served) (w'.settle served) ∧ w'.sender = w.sender := by
  cases step with
  | advertised now requestWireLen h =>
    obtain ⟨hsettle, hsender⟩ := w.pull_settle served now requestWireLen
    rw [hsettle]
    exact ⟨.advertised now requestWireLen h, hsender⟩
  | readmitted link h hlanded hlink => exact ⟨.readmitted link h hlanded hlink, rfl⟩
  | serve hqueue _ => exact nomatch hquiet.symm.trans hqueue
  | lose i => exact ⟨.lose i, rfl⟩
  | @part _ _ _ placed pace arrivedAt linkRttMs now requestWireLen h hsent hbytes hmatch hplaced
      hpace =>
      obtain ⟨hsettle, hsender⟩ := w.land_settle served placed pace now requestWireLen
      rw [hsettle]
      exact ⟨.part arrivedAt linkRttMs now requestWireLen h hsent hbytes hmatch hplaced hpace,
        hsender⟩
  | @update update now requestWireLen h hsent =>
    obtain ⟨hsettle, hsender⟩ := w.update_settle served update now requestWireLen
    rw [hsettle]
    exact ⟨.update now requestWireLen h hsent, hsender⟩
  | @silent pace now requestWireLen h hretries hpace =>
    obtain ⟨hsettle, hsender⟩ := World.pull_settle
      { w with receiver := { w.receiver with pace := pace } } served now requestWireLen
    rw [hsettle]
    exact ⟨.silent now requestWireLen h hretries hpace, hsender⟩
  | abandon h => exact ⟨.abandon h, rfl⟩

theorem Step.asked {low : Nat} (h : Agree names served w) (hquiet : w.requests = [])
    (hsize : names.length ≤ usizeMax) (step : Step mapHash sealed sdu w w')
    (hq : Asked names low w.receiver q) : Asked names low w'.receiver q := by
  have hheight := h.height_le
  cases step with
  | advertised now requestWireLen _ => exact hq.pull now requestWireLen
  | readmitted link _ hlanded _ =>
    have hfirst := h.first hlanded
    refine hq.readmitted hfirst ?_
    show w.receiver.names.length ≤ (w.sender.names.take hashmapMaxLen).length
    rw [h.sender, List.length_take]
    omega
  | serve hqueue _ => exact nomatch hquiet.symm.trans hqueue
  | lose i => exact hq
  | part arrivedAt linkRttMs now requestWireLen _ _ _ _ hplaced _ =>
    obtain ⟨hnames, -, hposition, -⟩ := Receiver.placePart_keeps hplaced
    have hkept := hq.keeps (Nat.le_of_eq (by rw [hnames])) hposition
    unfold World.land
    split_ifs
    · exact hkept.keeps
    · apply Asked.pull
      exact hkept.keeps
    · exact hkept.keeps
  | @update update now requestWireLen _ hsent =>
    obtain ⟨hsegment, hentries⟩ := h.updates update hsent
    obtain ⟨segment, entries⟩ := update
    dsimp only at hsegment hentries
    subst hentries
    unfold World.update
    rw [Receiver.applyHashmapUpdate_ok h.count hsize h.known hheight
      (Nat.le_trans hsegment h.behind)]
    apply Asked.pull
    refine hq.keeps ?_
    rw [List.length_take]
    omega
  | silent now requestWireLen _ _ _ =>
    apply Asked.pull
    exact hq.keeps
  | abandon _ => exact hq

end

/-! ## The invariant -/

/-- The sender and the receiver agree, up to the scope, which the last request may have set
one segment back. -/
structure Tolerates (names : List MapHash) (served : Nat) (w : World) (log : List InFlight) :
    Prop where
  agree : Agree names served (w.settle served)
  quiet : w.requests = []
  scope : ∃ base, w.sender.scopeStart = base - (1 + windowMax) ∧ base ≤ served ∧
    served ≤ base + hashmapMaxLen
  log : ∀ q ∈ log, Asked names 0 w.receiver q

theorem Tolerates.mem_scope (h : Tolerates names served w log) {i : Nat}
    (hlow : served ≤ i + 1 + hashmapMaxLen) (hhigh : i < w.receiver.names.length) :
    i ∈ servingScope w.sender.names w.sender.scopeStart := by
  obtain ⟨base, hscope, hbase, hserved⟩ := h.scope
  have hsender : w.sender.names = names := h.agree.sender
  have hahead : w.receiver.names.length ≤ served + hashmapMaxLen := h.agree.ahead
  have hheight : w.receiver.names.length ≤ names.length := h.agree.height_le
  have hlen : hashmapMaxLen = 74 := rfl
  have hmax : windowMax = 75 := rfl
  have hguard : collisionGuardSize = 224 := rfl
  rw [mem_servingScope, hsender, hscope]
  omega

theorem Asked.weaken {r : Receiver} (h : Asked names served r q) : Asked names 0 r q :=
  ⟨Nat.zero_le _, h.height_le, fun p name hmem => ⟨Nat.zero_le _, (h.asked p name hmem).2⟩,
    h.exhausted⟩

theorem Tolerates.next {mapHash : List UInt8 → MapHash} {sealed : List UInt8} {sdu : Nat}
    {w' : World} (h : Tolerates names served w log)
    (hlength : names.length = (chunks sealed sdu).length) (hsize : names.length ≤ usizeMax)
    (step : Step mapHash sealed sdu w w') :
    Tolerates names served { w' with requests := [] } (log ++ w'.requests) := by
  obtain ⟨hsettled, hsender⟩ := step.settle h.quiet served
  have hagree : Agree names served (w'.settle served) := by
    refine (hsettled.agree_or_serve h.agree hlength hsize).resolve_right ?_
    rintro ⟨first, rest, hqueue, -⟩
    exact nomatch h.quiet.symm.trans hqueue
  refine ⟨hagree.drop (List.nil_sublist _), rfl, hsender ▸ h.scope, fun q hq => ?_⟩
  rcases List.mem_append.mp hq with hold | hnew
  · have hasked := hsettled.asked h.agree h.quiet hsize (h.log q hold)
    exact hasked
  · exact (hagree.requests q hnew).weaken

/-- A delivery that is not too late keeps the invariant. -/
theorem Tolerates.deliver (h : Tolerates names served w log) (hsent : q ∈ log)
    (hlate : Recent served q) :
    Tolerates names (if q.request.lastKnown.isSome then max served q.height else served)
      (w.serve q []) log := by
  have hasked := h.log q hsent
  have hagree := h.agree
  unfold World.serve
  cases hlast : q.request.lastKnown with
  | none =>
    rw [serveResourceRequest_asking hlast]
    refine ⟨{ hagree with requests := List.forall_mem_nil _, order := .nil, updates := ?_ },
      rfl, h.scope, h.log⟩
    intro u hu
    exact hagree.updates u (by simpa [World.settle] using hu)
  | some last =>
    have hrecent := hlate (by rw [hlast]; rfl)
    have hknown := hasked.height_le
    obtain ⟨hpos, hboundary, hnext, hname⟩ := hasked.exhausted last hlast
    obtain ⟨segment, hsegment, hserve⟩ := serve_exhausted hlast hpos hboundary
      (h.mem_scope (by omega) (by omega)) (hagree.sender ▸ hname)
    rw [hserve, Option.isSome_some, if_pos rfl]
    have hbehind : served ≤ w.receiver.names.length := hagree.behind
    have hahead : w.receiver.names.length ≤ served + hashmapMaxLen := hagree.ahead
    have hposition : served ≤ w.receiver.nextPosition + hashmapMaxLen := hagree.next
    refine ⟨{ hagree with
      scope := rfl, behind := ?_, ahead := ?_, next := ?_, requests := List.forall_mem_nil _,
      order := .nil, updates := ?_ }, rfl, ⟨q.height, rfl, Nat.le_max_right .., by omega⟩, h.log⟩
    · exact Nat.max_le.mpr ⟨hbehind, hknown⟩
    · show w.receiver.names.length ≤ max served q.height + hashmapMaxLen
      omega
    · exact Nat.max_le.mpr ⟨hposition, hnext⟩
    intro u hu
    rcases List.mem_append.mp hu with hold | hnew
    · obtain ⟨hle, hnames⟩ := hagree.updates u hold
      exact ⟨Nat.le_trans hle (Nat.le_max_left ..), hnames⟩
    · cases List.mem_singleton.mp hnew
      refine ⟨hsegment ▸ Nat.le_max_right .., ?_⟩
      rw [hsegment, ← hagree.sender]
      rfl

section

variable {mapHash : List UInt8 → MapHash} {sealed : List UInt8} {sdu : Nat}

theorem Replays.tolerates (hsize : (chunks sealed sdu).length ≤ usizeMax)
    (run : Replays mapHash sealed sdu Recent w log served) :
    ∃ names, names.length = (chunks sealed sdu).length ∧ Tolerates names served w log := by
  induction run with
  | @start sender link hbuilt hscope hlink =>
    have hlength := (guarded_writeHashmap hbuilt).2
    have hagree : Agree sender.names 0
        (.start { sender with scopeStart := 0 - (1 + windowMax) } link sealed sdu) :=
      @agree_start link sealed sdu ⟨_, sender.guarded, 0 - _⟩ hlength (Nat.zero_sub _) hlink
    exact ⟨_, hlength, hagree, rfl,
      ⟨0, hscope.trans (Nat.zero_sub _).symm, Nat.le_refl _, Nat.zero_le _⟩, nofun⟩
  | next _ step ih =>
    obtain ⟨names, hlength, h⟩ := ih
    exact ⟨names, hlength, h.next hlength (hlength ▸ hsize) step⟩
  | deliver _ hsent _ hlate ih =>
    obtain ⟨names, hlength, h⟩ := ih
    exact ⟨names, hlength, h.deliver hsent hlate⟩

/-- Late copies are harmless, as long as one that ran out of names is at most one segment
behind the furthest one that was served: whatever was sent may be delivered in any order and
any number of times, and the sender does not cancel, the parts that the receiver knows and
still needs stay in the scope, and its next pull can be answered. -/
theorem late_copies_harmless (hsize : (chunks sealed sdu).length ≤ usizeMax)
    (run : Replays mapHash sealed sdu Recent w log served) :
    w.cancelled = none ∧ (∀ p, w.receiver.nextPosition ≤ p → p < w.receiver.names.length →
        p ∈ servingScope w.sender.names w.sender.scopeStart) ∧
      ∀ now requestWireLen next request,
        w.receiver.emitResourcePull now requestWireLen = some (next, request) →
        Answered w.sender ⟨request, w.receiver.names.length⟩ := by
  obtain ⟨names, -, h⟩ := run.tolerates hsize
  have hsender : w.sender.names = names := h.agree.sender
  have hposition : served ≤ w.receiver.nextPosition + hashmapMaxLen := h.agree.next
  refine ⟨h.agree.cancelled, fun p hneeded hknown => h.mem_scope (by omega) hknown, ?_⟩
  intro now requestWireLen next request hpull
  have hasked : Asked names served w.receiver ⟨request, w.receiver.names.length⟩ :=
    h.agree.asked_pull hpull
  have hserved := hasked.served_le
  refine answered_of_scope (fun p name hmem => ?_) (fun last hlast => ?_)
  · obtain ⟨hlow, hlt, hname⟩ := hasked.asked p name hmem
    exact ⟨h.mem_scope (by omega) hlt, hsender ▸ hname⟩
  · obtain ⟨hpos, hboundary, -, hname⟩ := hasked.exhausted last hlast
    exact ⟨hpos, hboundary, h.mem_scope (by omega) (Nat.sub_lt hpos Nat.one_pos), hsender ▸ hname⟩

end

deriving instance DecidableEq for InFlight

/-- The request of the first pull, which ran out of names. -/
def eightyPull : InFlight := eightyPulled.requests.headD ⟨⟨none, []⟩, 0⟩

/-- The network delivers it twice. -/
def eightyServed : World :=
  ({ eightyPulled with requests := [] }.serve eightyPull []).serve eightyPull []

theorem eightyServed_run : ∃ log, Replays firstByte eighty 1 Recent eightyServed log 74 := by
  have hstart : Replays firstByte eighty 1 Recent
      (.start eightySender ⟨some 75, none⟩ eighty 1) [] 0 := by
    refine .start eighty_built rfl fun window hwindow => ?_
    cases hwindow
    exact Nat.le_refl _
  have hpull := Replays.next hstart (.advertised 0 400 rfl)
  have honce := Replays.deliver (q := eightyPull) hpull (by decide) rfl (fun _ => Nat.zero_le _)
  have hagain := Replays.deliver (q := eightyPull) honce (by decide) (by decide)
    (fun _ => by decide)
  exact ⟨_, hagain⟩

theorem late_copies_harmless_eighty :
    eightyServed.sender.scopeStart = 0 ∧ eightyServed.cancelled = none ∧
      (∀ p, eightyServed.receiver.nextPosition ≤ p → p < eightyServed.receiver.names.length →
        p ∈ servingScope eightyServed.sender.names eightyServed.sender.scopeStart) ∧
      ∀ now requestWireLen next request,
        eightyServed.receiver.emitResourcePull now requestWireLen = some (next, request) →
        Answered eightyServed.sender ⟨request, eightyServed.receiver.names.length⟩ := by
  obtain ⟨log, run⟩ := eightyServed_run
  exact ⟨by decide +kernel, late_copies_harmless (by decide +kernel) run⟩

/-! ## A copy that is too late -/

inductive Move where
  | pull
  | deliver (sent : Nat)
  | part (i : Nat)
  | update (sent : Nat)

section

variable (mapHash : List UInt8 → MapHash) (sealed : List UInt8) (sdu : Nat)

/-- What a step leaves: the requests go to the log. -/
def logged (w : World) (log : List InFlight) : World × List InFlight :=
  ({ w with requests := [] }, log ++ w.requests)

/-- One move of a run, with what was sent so far. -/
def play : World × List InFlight → Move → Option (World × List InFlight)
  | (w, log), .pull => if w.receiving then some (logged (w.pull 0 400) log) else none
  | (w, log), .deliver sent => do
      let q ← log[sent]?
      if w.cancelled = none then some (w.serve q [], log) else none
  | (w, log), .part i => do
      let bytes ← (chunks sealed sdu)[i]?
      let position ← w.receiver.matchPartInWindow (mapHash bytes)
      let (outcome, placed) := w.receiver.placePart position bytes
      let pace ← ResourceWindow.finishResourcePart placed.pace bytes.length 0 0
        placed.pace.outstandingPartCount (decide (placed.receivedPartCount = placed.partCount))
      if w.receiving ∧ i ∈ w.sent ∧ outcome = .placed then
        some (logged (w.land placed pace 0 400) log)
      else none
  | (w, log), .update sent => do
      let update ← w.updates[sent]?
      if w.receiving then some (logged (w.update update 0 400) log) else none

variable {mapHash sealed sdu} {late : Nat → InFlight → Prop} {s : World × List InFlight}

theorem Replays.move (hlate : ∀ served q, late served q) {m : Move}
    (run : Replays mapHash sealed sdu late w log served)
    (h : play mapHash sealed sdu (w, log) m = some s) :
    ∃ served', Replays mapHash sealed sdu late s.1 s.2 served' := by
  cases m <;> simp only [play, Option.bind_eq_bind, Option.bind_eq_some_iff,
    Option.ite_none_right_eq_some] at h
  case pull =>
    obtain ⟨hreceiving, ⟨⟩⟩ := h
    exact ⟨_, .next run (.advertised 0 400 hreceiving)⟩
  case deliver sent =>
    obtain ⟨q, hq, hlive, ⟨⟩⟩ := h
    exact ⟨_, .deliver run (List.mem_of_getElem? hq) hlive (hlate _ _)⟩
  case part i =>
    obtain ⟨bytes, hbytes, position, hmatch, pace, hpace, ⟨hreceiving, hsent, hplaced⟩, ⟨⟩⟩ := h
    exact ⟨_, .next run (.part 0 0 0 400 hreceiving hsent hbytes hmatch
      (Prod.ext hplaced rfl) (.computed hpace))⟩
  case update sent =>
    obtain ⟨update, hupdate, hreceiving, ⟨⟩⟩ := h
    exact ⟨_, .next run (.update 0 400 hreceiving (List.mem_of_getElem? hupdate))⟩

theorem Replays.moves (hlate : ∀ served q, late served q) (moves : List Move)
    (run : Replays mapHash sealed sdu late w log served)
    (h : moves.foldlM (play mapHash sealed sdu) (w, log) = some s) :
    ∃ served', Replays mapHash sealed sdu late s.1 s.2 served' := by
  induction moves generalizing w log served with
  | nil =>
    cases h
    exact ⟨served, run⟩
  | cons m moves ih =>
    obtain ⟨⟨w', log'⟩, hm, hrest⟩ := Option.bind_eq_some_iff.mp h
    obtain ⟨served', run'⟩ := run.move hlate hm
    exact ih run' hrest

end

def ample : List UInt8 := (List.range 223).map UInt8.ofNat

theorem ample_built :
    writeHashmapWithoutCollision firstByte ample 1 = some (ample.map UInt8.toUInt32) := by
  have hnames : (chunks ample 1).map firstByte = (List.range 223).map UInt32.ofNat := by
    decide +kernel
  have hnodup : ((List.range 223).map UInt32.ofNat).Nodup := by
    refine List.Nodup.map_on (fun i hi j hj h => ?_) List.nodup_range
    have hnat := congrArg UInt32.toNat h
    simp only [UInt32.toNat_ofNat', List.mem_range] at hnat hi hj
    omega
  rw [← hnames] at hnodup
  rw [writeHashmap_of_nodup hnodup]
  decide +kernel

def ampleSender : Sender :=
  ⟨ample.map UInt8.toUInt32, (guarded_writeHashmap ample_built).1, 0⟩

/-- Two full rounds and a third pull that runs out of names; all three requests are served
in order. Then comes a copy of the first. -/
def lateMoves : List Move :=
  [.pull, .deliver 0] ++ (List.range 74).map .part ++ [.update 0, .deliver 1] ++
    (List.range' 74 74).map .part ++ [.update 1, .deliver 2, .deliver 0]

/-- The receiver has 148 of 223 parts, and the copy cancels the transfer. -/
theorem late_copy_cancels :
    ∃ w log served, Replays firstByte ample 1 (fun _ _ => True) w log served ∧
      w.receiving = true ∧ w.receiver.receivedPartCount = 148 ∧ w.receiver.partCount = 223 ∧
      w.cancelled = some .lastMapHashNotInScope := by
  have hstart : Replays firstByte ample 1 (fun _ _ => True)
      (.start ampleSender ⟨some 75, none⟩ ample 1) [] 0 := by
    refine .start ample_built rfl fun window hwindow => ?_
    cases hwindow
    exact Nat.le_refl _
  have hend : (lateMoves.foldlM (play firstByte ample 1)
      (World.start ampleSender ⟨some 75, none⟩ ample 1, [])).any (fun s =>
        s.1.receiving ∧ s.1.receiver.receivedPartCount = 148 ∧ s.1.receiver.partCount = 223 ∧
          s.1.cancelled = some .lastMapHashNotInScope) = true := by
    decide +kernel
  obtain ⟨s, hplay, hs⟩ := Option.any_eq_true .. |>.mp hend
  obtain ⟨served, run⟩ := hstart.moves (fun _ _ => trivial) lateMoves hplay
  exact ⟨s.1, s.2, served, run, of_decide_eq_true hs⟩

end Prns.Ports.ResourcePull
