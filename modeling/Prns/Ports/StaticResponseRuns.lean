import Prns.Ports.StaticResponseChains

/-!
# Static responses stay on their chains

The continuation of a static response is stored with the chain of its link, whoever began
that chain. It follows its own first segment as long as two things do not happen. A response
that is refused must not find a chain on its link, for it would leave its continuation
there. And while a chain has a continuation, no segment of another split send may be taken
on its link, unless it begins a chain of its own: its proof would send the continuation.

With these two conditions, `split_response_stays_on_its_chain` says that every segment of a
static response is on its own chain and that the response is settled once. Without the
first, two large responses on one link are enough to break both: the first is never
settled, and the second, which was refused, is sent in its place.
-/

namespace Prns.Ports.OutgoingResources

open Verified
open World

/-! ## Commands that are given -/

variable {w : World} {landing : Landing} {respond : Respond}

theorem Inv.issue (h : Inv none w) (id : CommandId) : Inv none (w.issue id) where
  respondedIssued command bytes hmem :=
    List.mem_cons_of_mem _ (h.respondedIssued command bytes hmem)
  respondedOnce := h.respondedOnce
  advertisedIssued a hmem := List.mem_cons_of_mem _ (h.advertisedIssued a hmem)
  begun := h.begun
  chained := h.chained
  nodup := h.nodup
  issued row hrow := List.mem_cons_of_mem _ (h.issued row hrow)
  positive := h.positive
  live := h.live
  tended command bytes hmem row hrow hcommand :=
    (h.tended command bytes hmem row hrow hcommand).mono (fun _ he => he) fun _ hchain => hchain
  held link chain continuation hchain hcontinuation :=
    let hheld := h.held link chain continuation hchain hcontinuation
    ⟨hheld.responded, hheld.own, hheld.others⟩
  unissued command hnot := h.unissued command fun hin => hnot (List.mem_cons_of_mem _ hin)
  once := h.once

variable {id : CommandId}

theorem Shape.new_of_fresh (h : Shape w) (hfresh : id ∉ w.issued) : id ∉ w.commands := by
  intro hin
  obtain ⟨row, hrow, hcommand⟩ := List.mem_map.mp hin
  exact hfresh (hcommand ▸ h.issued row hrow)

theorem Shape.host_of_fresh (h : Shape w) (hfresh : id ∉ w.issued) : w.Host id :=
  fun bytes hmem => hfresh (h.respondedIssued id bytes hmem)

theorem Inv.issued_issue (h : Inv none w) (hfresh : id ∉ w.issued) :
    Issued (w.issue id) id :=
  ⟨List.mem_cons_self, h.toShape.new_of_fresh hfresh, h.toShape.host_of_fresh hfresh⟩

/-- A static response was given and is pending: no chain continues it yet, but for that of
its own link. -/
structure Pending (w : World) (link : LinkId) (command : CommandId) (bytes : List UInt8) :
    Prop where
  responded : .responded command bytes ∈ w.log
  new : command ∉ w.commands
  elsewhere : ∀ other chain continuation, other ≠ link → w.chain other = some chain →
    chain.continuation = some continuation → continuation.command ≠ command

/-- The world in which a static response was just given. -/
def World.given (w : World) (id : CommandId) (bytes : List UInt8) : World :=
  { w.issue id with log := w.log ++ [Entry.responded id bytes] }

theorem responded_given {command : CommandId} {bytes bytes' : List UInt8}
    (h : .responded command bytes' ∈ (w.given id bytes).log) :
    .responded command bytes' ∈ w.log ∨ command = id ∧ bytes' = bytes := by
  simpa [given] using h

theorem Logged.given (h : Logged w.issued w.log) (hfresh : id ∉ w.issued) (bytes : List UInt8) :
    Logged (w.given id bytes).issued (w.given id bytes).log := by
  have hold : ∀ {a}, .advertised a ∈ (w.given id bytes).log → .advertised a ∈ w.log := by
    simp [World.given]
  have hgiven : ∀ command bytes', .responded command bytes' ∈ (w.given id bytes).log →
      .responded command bytes' ∈ w.log ∨ command = id ∧ bytes' = bytes :=
    fun _ _ => responded_given
  have hissued : ∀ command, command ∈ (w.given id bytes).issued ↔
      command = id ∨ command ∈ w.issued := fun _ => List.mem_cons
  obtain ⟨hresponded, honce, hadvertised, hbegun, hchained⟩ := h
  refine ⟨by grind, by grind, by grind, ?_, hchained.snoc fun _ heq => by cases heq⟩
  intro a bytes' hmem hresponded'
  rcases responded_given hresponded' with hgiven | ⟨heq, -⟩
  · obtain ⟨first, hfirst, hrest⟩ := hbegun a bytes' (hold hmem) hgiven
    exact ⟨first, List.mem_append_left _ hfirst, hrest⟩
  · exact absurd (heq ▸ hadvertised a (hold hmem)) hfresh

theorem Inv.given (h : Inv none w) (hfresh : id ∉ w.issued) (bytes : List UInt8) :
    Inv (some id) (w.given id bytes) := by
  have hhost := h.toShape.host_of_fresh hfresh
  have hnew := h.toShape.new_of_fresh hfresh
  have hlog : ∀ entry ∈ w.log, entry ∈ (w.given id bytes).log :=
    fun entry hentry => List.mem_append_left _ hentry
  refine ⟨⟨h.toLogged.given hfresh bytes, h.nodup, (h.issue id).issued, h.positive, h.live,
    ?_, ?_⟩, ?_, ?_⟩
  · intro command bytes' hmem row hrow hcommand
    rcases responded_given hmem with hold | ⟨rfl, -⟩
    · exact (h.tended command bytes' hold row hrow hcommand).mono hlog fun _ hchain => hchain
    · exact absurd (List.mem_map.mpr ⟨row, hrow, hcommand⟩) hnew
  · intro link chain continuation hchain hcontinuation
    have hheld := h.held link chain continuation hchain hcontinuation
    obtain ⟨bytes', hbytes'⟩ := hheld.responded
    exact ⟨⟨bytes', hlog _ hbytes'⟩, hheld.own, hheld.others⟩
  · intro command hnot
    show settlements (w.log ++ [_]) command = 0
    rw [settlements_append, h.unissued command fun hin => hnot (List.mem_cons_of_mem _ hin)]
    rfl
  intro command bytes' hmem
  show settlements (w.log ++ [_]) command + (if command ∈ w.commands then 1 else 0) + _ = 1
  rw [settlements_append]
  rcases responded_given hmem with hold | ⟨rfl, -⟩
  · have hne : id ≠ command := fun heq => hhost bytes' (heq ▸ hold)
    have hbefore := h.once command bytes' hold
    simpa [Entry.settles, hne] using hbefore
  · rw [h.unissued command hfresh, if_neg hnew]
    simp [Entry.settles]

theorem Inv.pending_given (h : Inv none w) (hfresh : id ∉ w.issued) (link : LinkId)
    (bytes : List UInt8) : Pending (w.given id bytes) link id bytes := by
  refine ⟨List.mem_append_right _ (List.mem_singleton.mpr rfl), h.toShape.new_of_fresh hfresh, ?_⟩
  intro other chain continuation _ hchain hcontinuation heq
  obtain ⟨bytes', hbytes'⟩ := (h.held other chain continuation hchain hcontinuation).responded
  exact h.toShape.host_of_fresh hfresh bytes' (heq ▸ hbytes')

/-! ## Segments of static responses -/

/-- What the engine sends for a static response: a plain segment, with the continuation that
is stored once it was sent. -/
structure SendsStatic (w : World) (send : ResourceSend) (segment : ResourceSegment)
    (bytes : List UInt8) (next : StaticResponseContinuation) : Prop where
  response : ∃ id, send.correlation = .response id
  command : next.command = send.id
  source : next.bytes = bytes
  index : next.nextSegmentIndex = segment.index + 1
  offset : next.nextOffset = send.offset + send.data.length
  total : next.totalSegments = segment.totalSegments
  proper : ∀ hash status, Proper w.log bytes ((send.row segment (some hash)
    (w.original send segment hash) status).advertisement hash)
  minted : 1 < segment.index → ∀ chain, w.chain send.link = some chain →
    Minted w.log send.id chain.originalHash

theorem chain_opened (layout : Layout) (w : World) (send : ResourceSend)
    (segment : ResourceSegment) (hash : ResourceHash) :
    (∀ other, other ≠ send.link → (w.opened layout send segment hash).chain other = w.chain other) ∧
    ∀ chain, (w.opened layout send segment hash).chain send.link = some chain →
      (1 < segment.totalSegments ∧ segment.index = 1 ∧ chain = ⟨send.link, hash, none⟩) ∨
      (¬ (1 < segment.totalSegments ∧ segment.index = 1) ∧ w.chain send.link = some chain) := by
  unfold opened
  split_ifs with hfirst
  · have hbegin := fun other => chain_begin layout w send.link other hash
    grind
  · exact ⟨fun _ _ => rfl, fun chain hchain => Or.inr ⟨hfirst, hchain⟩⟩

/-- The continuation is stored after the segments of a split. -/
def World.stored (w : World) (link : LinkId) (segment : ResourceSegment)
    (next : StaticResponseContinuation) : World :=
  if 1 < segment.totalSegments then w.setStaticContinuation link next else w

theorem stored_rest (w : World) (link : LinkId) (segment : ResourceSegment)
    (next : StaticResponseContinuation) :
    (w.stored link segment next).rows = w.rows ∧ (w.stored link segment next).log = w.log ∧
      (w.stored link segment next).issued = w.issued ∧
      ∀ other, other ≠ link → (w.stored link segment next).chain other = w.chain other := by
  unfold stored
  split_ifs
  · exact ⟨rfl, rfl, rfl, fun other hne => chain_setStaticContinuation_other hne next⟩
  · exact ⟨rfl, rfl, rfl, fun _ _ => rfl⟩

variable {layout : Layout}

section

variable {send : ResourceSend} {segment : ResourceSegment} {bytes : List UInt8}
  {next : StaticResponseContinuation}

def World.liveRow (w : World) (send : ResourceSend) (segment : ResourceSegment)
    (hash : ResourceHash) : Row :=
  { send.row segment (some hash) (w.original send segment hash) .advertised with
    retriesLeft := maxAdvertisementRetries }

/-- The world in which a segment was just advertised. -/
def World.advertisedLive (layout : Layout) (w : World) (send : ResourceSend)
    (segment : ResourceSegment) (hash : ResourceHash) : World :=
  ((w.opened layout send segment hash).push (w.liveRow send segment hash)).advertise
    (send.row segment (some hash) (w.original send segment hash) .advertised) hash

theorem SendsStatic.lands (hstatic : SendsStatic w send segment bytes next)
    (hpending : Pending w send.link send.id bytes) (hempty : ∀ row ∈ w.rows, row.link ≠ send.link)
    (hindex : segment.index ≠ 0) (hash : ResourceHash) :
    Lands w ((w.advertisedLive layout send segment hash).stored send.link segment next)
      (w.liveRow send segment hash) hash bytes := by
  obtain ⟨hrows, hlog, hissued⟩ := opened_rest layout w send segment hash
  obtain ⟨hrows', hlog', hissued', hother'⟩ :=
    stored_rest (w.advertisedLive layout send segment hash) send.link segment next
  obtain ⟨hother, hown⟩ := chain_opened layout w send segment hash
  have hlogAll : ((w.advertisedLive layout send segment hash).stored send.link segment next).log =
      w.log ++ [.advertised ((w.liveRow send segment hash).advertisement hash)] := by
    rw [hlog', ← hlog]
    rfl
  refine
    { rows := ?_, log := hlogAll, issued := hissued'.trans hissued,
      responded := hpending.responded, new := hpending.new, empty := hempty, onWire := rfl,
      hash := rfl, response := hstatic.response, proper := ?_, chain := ?_,
      elsewhere := hpending.elsewhere, held := ?_, follows := ?_ }
  · rw [hrows', ← hrows]
    rfl
  · intro hash'
    exact hstatic.proper hash .advertised
  · intro other hne
    rw [hother' other hne]
    exact hother other hne
  · intro chain continuation hchain hcontinuation
    unfold stored at hchain
    split_ifs at hchain with hsplit
    · obtain ⟨old, -, rfl⟩ := chain_setStaticContinuation_own hchain
      cases hcontinuation
      exact Or.inl hstatic.command
    right
    rcases hown chain hchain with ⟨hsplit', -⟩ | ⟨-, hold⟩
    · exact absurd hsplit' hsplit
    · refine ⟨hold, ?_⟩
      show segment.totalSegments ≤ segment.index
      omega
  · intro hmore chain hchain
    have hmore' : segment.index < segment.totalSegments := hmore
    unfold stored at hchain
    rw [if_pos (by omega)] at hchain
    obtain ⟨old, hold, rfl⟩ := chain_setStaticContinuation_own hchain
    refine ⟨next, rfl, hstatic.command, hstatic.source, hstatic.index, hstatic.offset,
      hstatic.total, ?_⟩
    rw [hlogAll]
    rcases hown old hold with ⟨-, hfirst, rfl⟩ | ⟨hnot, hold'⟩
    · exact ⟨_, List.mem_append_right _ (List.mem_singleton.mpr rfl), rfl, hfirst, rfl⟩
    · exact (hstatic.minted (by omega) old hold').mono fun _ he => List.mem_append_left _ he

theorem Inv.sendStatic (h : Inv (some send.id) w) (hstatic : SendsStatic w send segment bytes next)
    (hpending : Pending w send.link send.id bytes)
    (hfirst : ∀ row ∈ w.rows, row.link = send.link → row.segmentIndex + 1 ≠ segment.index)
    {sent : World} (hsent : Sent layout w send segment false landing sent) :
    (Inv none sent ∧ sent.rows = w.rows ∧ .responded send.id bytes ∈ sent.log ∧
      ((∀ row ∈ w.rows, row.link ≠ send.link) ∨ sent.chain send.link = w.chain send.link ∧
        ∀ lane, w.validateOutgoingResourceSend send segment = .ok lane →
          ∃ error, landing.tracked = .error error)) ∨
    sent.rows ≠ [] ∧ Inv none (sent.stored send.link segment next) := by
  have hissued := h.respondedIssued send.id bytes hpending.responded
  cases hsent with
  | refused settlement hrefused =>
    left
    exact ⟨h.settlePending hissued settlement, rfl, List.mem_append_left _ hpending.responded,
      Or.inr ⟨rfl, hrefused⟩⟩
  | @waits lane hvalid hash original status hwaiting hlane =>
    exfalso
    obtain ⟨-, -, hfound⟩ := validateOutgoingResourceSend_ok hvalid
    rcases hlane with rfl | ⟨hexternal, -⟩
    · obtain ⟨row, hrow, hlink, hprevious⟩ := laneFor_staged hfound
      exact hfirst row hrow hlink hprevious
    · cases hexternal
  | unwritten hvalid hash settlement =>
    left
    obtain ⟨-, -, hfound⟩ := validateOutgoingResourceSend_ok hvalid
    obtain ⟨hrows, hlog, hissued'⟩ := opened_rest layout w send segment hash
    have hempty := laneFor_live hfound
    refine ⟨(h.opened layout segment hash hempty).settlePending ?_ settlement, hrows, ?_,
      Or.inl hempty⟩
    · rw [hissued']
      exact hissued
    · refine List.mem_append_left _ ?_
      rw [hlog]
      exact hpending.responded
  | advertised hvalid hash =>
    right
    obtain ⟨hindex, -, hfound⟩ := validateOutgoingResourceSend_ok hvalid
    refine ⟨?_, ?_⟩
    · exact List.append_ne_nil_of_right_ne_nil _ (List.cons_ne_nil _ _)
    have hlands : Lands w
        ((w.advertisedLive layout send segment hash).stored send.link segment next)
        (w.liveRow send segment hash) hash bytes :=
      hstatic.lands hpending (laneFor_live hfound) hindex hash
    have hbefore : Inv (some (w.liveRow send segment hash).command) w := h
    exact hbefore.lands hlands

end

theorem take_length_take (n : Nat) (bytes : List UInt8) :
    bytes.take (bytes.take n).length = bytes.take n := by
  simp [List.length_take]

variable {cut : Cut} {chain : Chain} {continuation : StaticResponseContinuation}

theorem firstBytes_le (h : respond.cut layout = .ok cut) :
    cut.firstBytes ≤ respond.payload.bytes.length := by
  unfold Respond.cut at h
  dsimp only at h
  repeat' split at h
  all_goals cases h
  exact Nat.min_le_left _ _

def World.refusesFirst (layout : Layout) (w : World) (id : CommandId) (respond : Respond)
    (landing : Landing) : Bool :=
  match respond.cut layout with
  | .error _ => false
  | .ok cut =>
      decide (1 < cut.totalSegments) &&
        !((w.validateOutgoingResourceSend (respond.firstSend id cut.metadata cut.firstBytes)
            ⟨1, cut.totalSegments, cut.totalDataBytes⟩).toBool && landing.tracked.toBool)

theorem sendsStatic_first (w : World) (id : CommandId) (hcut : respond.cut layout = .ok cut) :
    SendsStatic w (respond.firstSend id cut.metadata cut.firstBytes)
      ⟨1, cut.totalSegments, cut.totalDataBytes⟩ respond.payload.bytes
      (respond.continuation id cut) where
  response := ⟨respond.request, rfl⟩
  command := rfl
  source := rfl
  index := rfl
  offset := by
    show cut.firstBytes = 0 + (respond.payload.bytes.take cut.firstBytes).length
    rw [List.length_take, Nat.min_eq_left (firstBytes_le hcut), Nat.zero_add]
  total := rfl
  proper hash status := ⟨Nat.le_refl 1, (take_length_take _ _).symm, fun _ => rfl,
    fun hlater => absurd hlater (Nat.lt_irrefl 1)⟩
  minted hlater := absurd hlater (Nat.lt_irrefl 1)

theorem Inv.ingestSendStaticResponse (h : Inv (some id) w)
    (hpending : Pending w respond.link id respond.payload.bytes)
    (hmeets : w.refusesFirst layout id respond landing = true → w.chain respond.link = none) :
    Inv none (w.ingestSendStaticResponse layout id respond landing) := by
  have hissued := h.respondedIssued id _ hpending.responded
  unfold World.ingestSendStaticResponse
  cases hcut : respond.cut layout with
  | error failure => exact h.settlePending hissued _
  | ok cut =>
    dsimp only
    have hsent := sent_ingestSendResourceSegment layout w
      (respond.firstSend id cut.metadata cut.firstBytes)
      ⟨1, cut.totalSegments, cut.totalDataBytes⟩ false landing
    have hfirst : ∀ row ∈ w.rows, row.link = respond.link → row.segmentIndex + 1 ≠ 1 := by
      intro row hrow _
      have := h.positive row hrow
      omega
    rcases h.sendStatic (sendsStatic_first w id hcut) hpending hfirst hsent with
      ⟨hinv, hrows, hresponded, hcase⟩ | ⟨-, hinv⟩
    · split_ifs with hsplit
      · rcases hcase with hempty | ⟨hchain, hrefused⟩
        · refine hinv.setStaticContinuation hresponded ?_ ?_
          · rw [World.commands, hrows]
            exact hpending.new
          · rw [hrows]
            exact hempty
        · -- Refused: there is no chain to leave the continuation in.
          have hrefuses : w.refusesFirst layout id respond landing = true := by
            unfold World.refusesFirst
            rw [hcut]
            simp only [hsplit, decide_true, Bool.true_and, Bool.not_eq_true', Bool.and_eq_false_iff]
            cases hvalid : w.validateOutgoingResourceSend
                (respond.firstSend id cut.metadata cut.firstBytes)
                ⟨1, cut.totalSegments, cut.totalDataBytes⟩ with
            | error failure => exact Or.inl rfl
            | ok lane =>
              obtain ⟨error, herror⟩ := hrefused lane hvalid
              rw [herror]
              exact Or.inr rfl
          have hnone : (w.ingestSendResourceSegment layout
              (respond.firstSend id cut.metadata cut.firstBytes)
              ⟨1, cut.totalSegments, cut.totalDataBytes⟩ false landing).chain respond.link = none :=
            hchain.trans (hmeets hrefuses)
          rw [setStaticContinuation_none hnone]
          exact hinv
      · exact hinv
    · exact hinv

/-! ## Continuing a response -/

variable {i : Nat} {row : Row}

theorem Shape.continues (h : Shape w) (hrow : w.rows[i]? = some row)
    (honWire : row.status.isOffWire = false) (hmore : row.segmentIndex < row.totalSegments)
    (hchain : w.chain row.link = some chain)
    (hcontinuation : chain.continuation = some continuation) :
    continuation.command = row.command ∧ (∀ other ∈ (w.erase i).rows, other.link ≠ row.link) ∧
      ∃ bytes, Tended w bytes row ∧ Follows w.log bytes row chain continuation ∧
        Pending (w.erase i) row.link row.command bytes := by
  have hin := List.mem_of_getElem? hrow
  have hcommands := h.commands_erase hrow
  have hheld := h.held row.link chain continuation hchain hcontinuation
  have hown : row.command = continuation.command := by
    rcases hheld.others row hin rfl with hown | ⟨-, hlast | ⟨hbuilding, -⟩⟩
    · exact hown
    · omega
    · rw [hbuilding] at honWire
      cases honWire
  obtain ⟨bytes, hresponded⟩ := hheld.responded
  rw [← hown] at hresponded
  have htended := h.tended row.command bytes hresponded row hin rfl
  refine ⟨hown.symm, ?_, bytes, htended, ?_, ⟨hresponded, ?_, ?_⟩⟩
  · intro other hother hlink
    have hother' := List.mem_of_mem_eraseIdx hother
    rcases hheld.others other hother' hlink with hsame | ⟨hgone, -⟩
    · have hin' : other.command ∈ (w.erase i).commands := List.mem_map_of_mem hother
      exact ((hcommands other.command).mp hin').2 (hsame.trans hown.symm)
    · exact hgone (hown ▸ List.mem_map_of_mem hin)
  · obtain ⟨found, hfound, hfollows⟩ := htended.follows hmore chain hchain
    rw [hcontinuation] at hfound
    cases hfound
    exact hfollows
  · exact fun hin' => ((hcommands row.command).mp hin').2 rfl
  · intro other chain' continuation' hne hchain' hcontinuation' heq
    exact hne ((h.held other chain' continuation' hchain' hcontinuation').own row hin heq.symm).symm

theorem sendsStatic_next {bytes : List UInt8} {stop : Nat} (htended : Tended w bytes row)
    (hpositive : 1 ≤ row.segmentIndex) (hfollows : Follows w.log bytes row chain continuation)
    (hchain : w.chain row.link = some chain) (hstart : continuation.nextOffset ≤ stop)
    (hstop : stop ≤ bytes.length) :
    SendsStatic w (continuation.send row.link stop)
      ⟨continuation.nextSegmentIndex, continuation.totalSegments, continuation.totalDataBytes⟩
      bytes { continuation with
        nextOffset := stop, nextSegmentIndex := continuation.nextSegmentIndex + 1 } where
  response := ⟨continuation.request, rfl⟩
  command := rfl
  source := hfollows.bytes
  index := rfl
  offset := by
    show stop = continuation.nextOffset + ((continuation.bytes.drop continuation.nextOffset).take
        (stop - continuation.nextOffset)).length
    rw [hfollows.bytes, List.length_take, List.length_drop]
    omega
  total := rfl
  proper hash status := by
    have hindex := hfollows.index
    have horiginal : w.original (continuation.send row.link stop)
        ⟨continuation.nextSegmentIndex, continuation.totalSegments, continuation.totalDataBytes⟩
        hash = chain.originalHash := by
      show ((if 1 < continuation.nextSegmentIndex then
        (w.chain row.link).map Chain.originalHash else none).getD hash) = chain.originalHash
      rw [if_pos (by omega), hchain]
      rfl
    obtain ⟨previous, hhash, hprevious⟩ := htended.advertised
    refine ⟨?_, ?_, ?_, ?_⟩
    · show 1 ≤ continuation.nextSegmentIndex
      omega
    · show (continuation.bytes.drop continuation.nextOffset).take
        (stop - continuation.nextOffset) = (bytes.drop continuation.nextOffset).take
          ((continuation.bytes.drop continuation.nextOffset).take
            (stop - continuation.nextOffset)).length
      rw [hfollows.bytes]
      exact (take_length_take _ _).symm
    · intro hfirst
      have hfirst' : continuation.nextSegmentIndex = 1 := hfirst
      omega
    intro _
    rw [horiginal]
    refine ⟨?_, row.advertisement previous, hprevious, hfollows.command.symm, hindex.symm,
      hfollows.offset.symm⟩
    show Minted w.log continuation.command chain.originalHash
    rw [hfollows.command]
    exact hfollows.minted
  minted _ chain' hchain' := by
    have hsame : chain' = chain := by
      have hchain'' : w.chain row.link = some chain' := hchain'
      rw [hchain] at hchain''
      exact (Option.some.inj hchain'').symm
    show Minted w.log continuation.command chain'.originalHash
    rw [hsame, hfollows.command]
    exact hfollows.minted

theorem Inv.continueStaticResponse (h : Inv none w) (layout : Layout) (hrow : w.rows[i]? = some row)
    (honWire : row.status.isOffWire = false) (hmore : row.segmentIndex < row.totalSegments)
    (hchain : w.chain row.link = some chain)
    (hcontinuation : chain.continuation = some continuation) (landing : Landing) :
    Inv none ((w.erase i).continueStaticResponse layout row.link landing) := by
  obtain ⟨hcommand, hempty, bytes, htended, hfollows, hpending⟩ :=
    h.toShape.continues hrow honWire hmore hchain hcontinuation
  have hpositive := h.positive row (List.mem_of_getElem? hrow)
  have herased := h.erasePending hrow
  rw [← hcommand] at herased hpending
  have hissued := herased.respondedIssued _ bytes hpending.responded
  have hwaits : (w.erase i).staticContinuation row.link = some continuation :=
    Option.bind_eq_some_iff.mpr ⟨chain, hchain, hcontinuation⟩
  have htended' : Tended (w.erase i) bytes row := htended.mono (fun _ he => he) fun _ hc => hc
  have hfollows' : Follows (w.erase i).log bytes row chain continuation := hfollows
  unfold World.continueStaticResponse
  rw [hwaits]
  dsimp only
  generalize hstop : min (continuation.nextOffset + continuation.segmentStreamBytes)
    continuation.bytes.length = stop
  by_cases hover : stop ≤ continuation.nextOffset ∨
      continuation.totalSegments < continuation.nextSegmentIndex
  · rw [if_pos hover]
    exact (herased.clear row.link).settlePending hissued _
  rw [if_neg hover]
  have hstop' : stop ≤ bytes.length := by
    rw [← hfollows.bytes, ← hstop]
    exact Nat.min_le_right _ _
  have hcase := herased.sendStatic
    (sendsStatic_next htended' hpositive hfollows' hchain (by omega) hstop') hpending
    (fun other hother hlink => absurd hlink (hempty other hother))
    (sent_ingestSendResourceSegment layout (w.erase i) (continuation.send row.link stop)
      ⟨continuation.nextSegmentIndex, continuation.totalSegments, continuation.totalDataBytes⟩
      false landing)
  split_ifs with hnone
  · rcases hcase with ⟨hinv, -⟩ | ⟨hrows, -⟩
    · exact hinv.clear row.link
    · exact absurd (List.isEmpty_iff.mp hnone) hrows
  rcases hcase with ⟨hinv, hrows, hresponded, -⟩ | ⟨-, hinv⟩
  · refine hinv.setStaticContinuation hresponded ?_ ?_
    · rw [World.commands, hrows]
      exact hpending.new
    · rw [hrows]
      exact hempty
  · have hsplit : 1 < continuation.totalSegments := by
      have := hfollows.total
      omega
    unfold World.stored at hinv
    rw [if_pos hsplit] at hinv
    exact hinv

theorem lookup_some {link : LinkId} {hash : ResourceHash} (h : w.lookup link hash = some (i, row)) :
    w.rows[i]? = some row ∧ row.link = link := by
  obtain ⟨hrow, hfound⟩ := firstRow_some _ h
  rw [Bool.and_eq_true, beq_iff_eq] at hfound
  exact ⟨hrow, hfound.1⟩

variable (h : Inv none w)
include h

theorem Inv.ingestResourceProof (layout : Layout) (link : LinkId)
    (hash : ResourceHash) (landing : Landing) (promotion : Promotion) :
    Inv none (w.ingestResourceProof layout link hash landing promotion) := by
  unfold World.ingestResourceProof
  cases hfound : w.lookup link hash with
  | none => exact h
  | some found =>
    obtain ⟨hrow, rfl⟩ := lookup_some hfound
    dsimp only
    split_ifs with hoffWire hlast hwaits
    · exact h
    · rw [settleAdvertisedResource_clear]
      exact ((h.settleAdvertisedErase hrow none).clear _).promoteStagedResource layout _ promotion
    · obtain ⟨continuation, hcontinuation⟩ := Option.isSome_iff_exists.mp hwaits
      obtain ⟨chain, hchain, hcontinuation⟩ := Option.bind_eq_some_iff.mp hcontinuation
      exact h.continueStaticResponse layout hrow (by simpa using hoffWire) (by omega) hchain
        hcontinuation landing
    · exact (h.settleAdvertisedErase hrow none).promoteStagedResource layout _ promotion

theorem Inv.ingestResourceReceiverCancel (link : LinkId) (hash : ResourceHash) :
    Inv none (w.ingestResourceReceiverCancel link hash) := by
  unfold World.ingestResourceReceiverCancel
  cases hfound : w.lookup link hash with
  | none => exact h
  | some found =>
    dsimp only
    split_ifs
    · exact h
    · rw [settleAdvertisedResource_clear]
      exact ((h.settleAdvertisedErase (lookup_some hfound).1 _).clear link).failStagedContinuation
        link

theorem Inv.setOnWire (hrow : w.rows[i]? = some row) (hbefore : row.status.isOffWire = false)
    {status : OutgoingResourceStatus} (hafter : status.isOffWire = false) (retries : Nat) :
    Inv none (w.set i { row with status := status, retriesLeft := retries }) := by
  have hlive : row.status.isWaiting = false := by
    by_contra hwaiting
    rw [isOffWire_of_isWaiting (by simpa using hwaiting)] at hbefore
    cases hbefore
  have hshape : Shape (w.set i { row with status := status, retriesLeft := retries }) := by
    refine h.toShape.set hrow rfl rfl rfl (fun _ => Or.inl hlive) ?_ ?_
    · intro continuation _ hharmless
      rcases hharmless with hlast | ⟨hbuilding, -⟩
      · exact Or.inl hlast
      · rw [hbuilding] at hbefore
        cases hbefore
    · intro bytes _ htended
      exact ⟨hafter, htended.response, htended.advertised, htended.proper, fun hmore chain hchain =>
          let ⟨continuation, hcontinuation, hfollows⟩ := htended.follows hmore chain hchain
          ⟨continuation, hcontinuation, { hfollows with }⟩⟩
  exact h.of_shape hshape rfl (fun _ => rfl) (fun _ _ hmem => hmem) (commands_set hrow rfl)

theorem Inv.serveResourceRequest (link : LinkId) (hash : ResourceHash) (broken allSent : Bool) :
    Inv none (w.serveResourceRequest link hash broken allSent) := by
  unfold World.serveResourceRequest
  split
  · exact h
  rename_i hfound
  have hrow := (lookup_some hfound).1
  split
  · exact h
  rename_i hoffWire
  have honWire := Bool.eq_false_iff.mpr hoffWire
  repeat' split
  · exact h
  · exact h
  · exact h.cancelOutgoingResource link hash .sequencing
  · exact h.setOnWire hrow honWire rfl _
  · exact h.setOnWire hrow honWire rfl _
  · exact h

theorem Inv.advertiseAgain (hrow : w.rows[i]? = some row) (hash : ResourceHash) :
    Inv none (w.advertise row hash) := by
  apply h.advertise (h.issued_of_row hrow)
  intro bytes hmem
  exact (h.tended row.command bytes hmem row (List.mem_of_getElem? hrow) rfl).proper hash

theorem Inv.retryOrCancelOutgoingResource (i : Nat) (wrote : Bool) :
    Inv none (w.retryOrCancelOutgoingResource i wrote) := by
  unfold World.retryOrCancelOutgoingResource
  split
  · exact h
  rename_i row hrow
  split
  · exact h
  rename_i hash hhash
  have hcancel := h.cancelOutgoingResource row.link hash .timeout
  have hfails := h.failStagedContinuation row.link
  have hretry : row.status.isOffWire = false → ∀ {w' : World}, Inv none w' →
      w'.rows[i]? = some row →
      Inv none (w'.set i { row with retriesLeft := row.retriesLeft - 1 }) :=
    fun honWire _ h' hrow' => h'.setOnWire hrow' honWire honWire _
  split
  · exact hcancel
  · exact hcancel
  split
  · exact h
  · exact hfails
  · exact hfails
  · exact hfails
  · rename_i hstatus
    have honWire : row.status.isOffWire = false := by rw [hstatus]; rfl
    split
    · exact hcancel
    · split
      · exact hretry honWire (h.advertiseAgain hrow hash) hrow
      · exact hretry honWire h hrow
  · exact hcancel
  · rename_i hstatus
    split
    · exact hcancel
    · exact hretry (by rw [hstatus]; rfl) h hrow

omit h

theorem Inv.popForLink (link : LinkId) (turns : Nat) (h : Inv none w) :
    Inv none (popForLink link turns w) := by
  induction turns generalizing w with
  | zero => exact h
  | succ turns ih =>
    rw [popForLink]
    split
    · exact h
    rename_i hfound
    have hrow := (firstRow_some _ hfound).1
    apply ih
    split
    · exact h.settleErase hrow _
    · exact h.settleAdvertisedErase hrow _

theorem Inv.closeLink (h : Inv none w) (link : LinkId) : Inv none (w.closeLink link) :=
  ((h.popForLink link w.rows.length).clear link).links _

theorem Inv.claimResourceResponse (h : Inv none w) (link : LinkId) (command : CommandId)
    (request : RequestId) : Inv none (w.claimResourceResponse link command request) := by
  refine { h.toShape.sublist List.filter_sublist with unissued := h.unissued, once := ?_ }
  intro other bytes hmem
  have hsame : other ∈ (w.claimResourceResponse link command request).commands ↔
      other ∈ w.commands := by
    constructor
    · intro hin
      exact (List.filter_sublist.map Row.command).subset hin
    intro hin
    obtain ⟨row, hrow, rfl⟩ := List.mem_map.mp hin
    obtain ⟨id, hresponse⟩ := (h.tended row.command bytes hmem row hrow rfl).response
    refine List.mem_map.mpr ⟨row, List.mem_filter.mpr ⟨hrow, ?_⟩, rfl⟩
    simp [hresponse]
  have hbefore := h.once other bytes hmem
  simp only [hsame]
  exact hbefore

theorem Inv.resumeResourceSeal (h : Inv none w) (layout : Layout) (i : Nat) (landing : SealLanding)
    (promotion : Promotion) : Inv none (w.resumeResourceSeal layout i landing promotion) := by
  unfold World.resumeResourceSeal
  split
  · exact h
  rename_i row hrow
  split
  · rename_i hsealing
    have hwaiting : row.status.isWaiting = true := by
      rw [hsealing]
      rfl
    split
    · rename_i hash
      have hset : Inv none (w.set i (row.recordStagedSeal hash)) :=
        h.setWaiting hrow hwaiting rfl rfl rfl rfl rfl
      exact hset.promoteStagedResource layout row.link promotion
    · split
      · exact (h.failStagedSeal hrow _).promoteStagedResource layout row.link promotion
      · exact h.failStagedSeal hrow _
    have hset : Inv none (w.set i { row with status := .staged }) :=
      h.setWaiting hrow hwaiting rfl rfl rfl rfl rfl
    have hrow' : (w.set i { row with status := .staged }).rows[i]? =
        some { row with status := .staged } :=
      List.getElem?_set_self (List.getElem?_eq_some_iff.mp hrow).1
    exact (hset.sealStagedIndex hrow' rfl _).promoteStagedResource layout row.link promotion
  · exact h

/-! ## Runs -/

/-- The condition on a step. A response that is refused finds no chain on its link, and a
segment of a split that is taken finds no continuation that it would send. -/
def World.meets (layout : Layout) (w : World) : Event → Bool
  | .send send segment external _ => !(w.trespasses send segment external)
  | .requestBuild send segment _ => !(w.trespasses send segment false)
  | .respond id respond landing =>
      !(w.refusesFirst layout id respond landing && (w.chain respond.link).isSome)
  | _ => true

theorem Inv.step (h : Inv none w) (layout : Layout) {event : Event} (hfresh : w.fresh event = true)
    (hmeets : w.meets layout event = true) : Inv none (w.step layout event) := by
  cases event with
  | send send segment external landing =>
    have hnew : send.id ∉ w.issued := by simpa [fresh] using hfresh
    have hmeets' : w.trespasses send segment external = false := by
      simpa [meets] using hmeets
    exact (h.issue send.id).sendHost (h.issued_issue hnew) hmeets'
      (sent_ingestSendResourceSegment layout _ send segment external landing)
  | requestBuild send segment reserved =>
    have hnew : send.id ∉ w.issued := by simpa [fresh] using hfresh
    have hmeets' : w.trespasses send segment false = false := by simpa [meets] using hmeets
    exact (h.issue send.id).requestResourceBuild (h.issued_issue hnew) hmeets' reserved
  | resumeBuild link command built promotion =>
    exact h.resumeResourceBuild layout link command built promotion
  | respond id respond landing =>
    have hnew : id ∉ w.issued := by simpa [fresh] using hfresh
    refine (h.given hnew respond.payload.bytes).ingestSendStaticResponse
      (h.pending_given hnew respond.link respond.payload.bytes) ?_
    intro hrefuses
    show w.chain respond.link = none
    have hrefuses' : w.refusesFirst layout id respond landing = true := hrefuses
    simpa [meets, hrefuses'] using hmeets
  | serve link hash broken allSent => exact h.serveResourceRequest link hash broken allSent
  | sealContinuation link verdict => exact h.sealStagedContinuation link verdict
  | requestSeal link => exact h.requestResourceSeal link
  | resumeSeal i landing promotion => exact h.resumeResourceSeal layout i landing promotion
  | proof link hash landing promotion =>
    exact h.ingestResourceProof layout link hash landing promotion
  | receiverCancel link hash => exact h.ingestResourceReceiverCancel link hash
  | due i wrote => exact h.retryOrCancelOutgoingResource i wrote
  | claim link command request => exact h.claimResourceResponse link command request
  | activate link => exact h.links _
  | close link => exact h.closeLink link

theorem inv_empty : Inv none empty where
  respondedIssued := nofun
  respondedOnce := nofun
  advertisedIssued := nofun
  begun := nofun
  chained := Everywhere.nil
  nodup := List.nodup_nil
  issued := nofun
  positive := nofun
  live := nofun
  tended := nofun
  held := nofun
  unissued _ _ := rfl
  once := nofun

theorem Inv.run (h : Inv none w) (layout : Layout) (events : List Event)
    (hfresh : allAlong layout fresh w events = true)
    (hmeets : allAlong layout (meets layout) w events = true) :
    Inv none (w.run layout events) := by
  induction events generalizing w with
  | nil => exact h
  | cons event events ih =>
    rw [allAlong, Bool.and_eq_true] at hfresh hmeets
    exact ih (h.step layout hfresh.1 hmeets.1) hfresh.2 hmeets.2

/-- Static responses are on their chains: every segment after the first follows the one
before it under the hash of the first, nothing is sent of a response whose first segment was
not, and a response is settled exactly once, when it has no row any more. -/
structure OnChains (w : World) : Prop where
  chained : Chained w.log
  begun : ∀ a bytes, .advertised a ∈ w.log → .responded a.command bytes ∈ w.log →
    ∃ first, .advertised first ∈ w.log ∧ first.command = a.command ∧ first.segmentIndex = 1
  once : ∀ command bytes, .responded command bytes ∈ w.log →
    settlements w.log command + (if command ∈ w.commands then 1 else 0) = 1

/--
**A split response stays on its own chain**, in every run in which no response of more than
one segment is refused on a link that has a chain, and no segment of another split is taken
where it would send a continuation.
-/
theorem split_response_stays_on_its_chain (layout : Layout) (events : List Event)
    (hfresh : allAlong layout World.fresh World.empty events = true)
    (hmeets : allAlong layout (World.meets layout) World.empty events = true) :
    OnChains (World.empty.run layout events) := by
  have hinv := inv_empty.run layout events hfresh hmeets
  refine ⟨hinv.chained, hinv.begun, ?_⟩
  intro command bytes hmem
  simpa using hinv.once command bytes hmem

/-- Room for two blocks to a segment, and for four chains. -/
def smallLayout : Layout := ⟨112, 4, true⟩

def hundredBytes (id : CommandId) (byte : UInt8) (hash : ResourceHash) : Event :=
  .respond id ⟨0, 7, .staticBytes (List.replicate 100 byte)⟩ ⟨.ok hash, true⟩

def proved (hash next : ResourceHash) : Event := .proof 0 hash ⟨.ok next, true⟩ ⟨.ok 0, true⟩

/-- A response of three segments that are all proved. -/
def oneResponse : List Event :=
  [.activate 0, hundredBytes 1 1 10, proved 10 21, proved 21 22, proved 22 23]

theorem split_response_stays_on_its_chain_three :
    (allAlong smallLayout World.fresh World.empty oneResponse = true ∧
      allAlong smallLayout (World.meets smallLayout) World.empty oneResponse = true) ∧
    OnChains (World.empty.run smallLayout oneResponse) :=
  ⟨by decide +kernel, split_response_stays_on_its_chain smallLayout oneResponse (by decide)
    (by decide)⟩

/-- A second response is given while the first one is on the wire. -/
def twoResponses : List Event :=
  [.activate 0, hundredBytes 1 1 10, hundredBytes 2 2 20, proved 10 21, proved 21 22, proved 22 23]

/-- The second response is refused, yet its later segments are sent on the chain of the
first, which is never settled, and it is settled twice. -/
theorem refused_response_takes_the_chain :
    allAlong smallLayout World.fresh World.empty twoResponses = true ∧
      (World.empty.run smallLayout twoResponses).commands = [] ∧
      settlements (World.empty.run smallLayout twoResponses).log 1 = 0 ∧
      settlements (World.empty.run smallLayout twoResponses).log 2 = 2 ∧
      .advertised ⟨0, 2, 21, 10, 2, 3, .response 7, 38, List.replicate 59 2⟩ ∈
        (World.empty.run smallLayout twoResponses).log ∧
      ¬ OnChains (World.empty.run smallLayout twoResponses) := by
  have hsettled : settlements (empty.run smallLayout twoResponses).log 2 = 2 := by
    decide
  refine ⟨by decide, by decide, by decide, hsettled, by decide, ?_⟩
  intro h
  have hgiven : Entry.responded 2 (List.replicate 100 2) ∈
      (empty.run smallLayout twoResponses).log := by decide
  have honce := h.once 2 _ hgiven
  omega

end Prns.Ports.OutgoingResources
