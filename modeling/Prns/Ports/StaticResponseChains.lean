import Prns.Ports.StaticResponseMoves

/-!
# Sends, builds and continuations

How the sends of the host and the landing of a segment of a static response keep the
invariant. A segment of the host is harmless to the continuation that waits on its link as
long as it does not trespass: its proof would send that continuation.
-/

namespace Prns.Ports.OutgoingResources

/-! ## Sending a segment -/

/-- The chain begins with the first segment of a split. -/
def World.opened (layout : Layout) (w : World) (send : ResourceSend) (segment : ResourceSegment)
    (hash : ResourceHash) : World :=
  if 1 < segment.totalSegments ∧ segment.index = 1 then w.begin layout send.link hash else w

/-- The hash that the segment advertises as the original one. -/
def World.original (w : World) (send : ResourceSend) (segment : ResourceSegment)
    (hash : ResourceHash) : ResourceHash :=
  (if 1 < segment.index then (w.chain send.link).map Chain.originalHash else none).getD hash

/-- What `ingest_send_resource_segment_enveloped` can do. -/
inductive Sent (layout : Layout) (w : World) (send : ResourceSend) (segment : ResourceSegment)
    (external : Bool) (landing : Landing) : World → Prop where
  | refused (settlement : Settlement)
      (hrefused : ∀ lane, w.validateOutgoingResourceSend send segment = .ok lane →
        ∃ error, landing.tracked = .error error) :
      Sent layout w send segment external landing (w.settle send.id settlement)
  | waits {lane : TrackLane} (hvalid : w.validateOutgoingResourceSend send segment = .ok lane)
      (hash : Option ResourceHash) (original : ResourceHash) (status : OutgoingResourceStatus)
      (hwaiting : status.isWaiting = true)
      (hlane : lane = .staged ∨ external = true ∧ send.candidateWins = false) :
      Sent layout w send segment external landing (w.push (send.row segment hash original status))
  | unwritten (hvalid : w.validateOutgoingResourceSend send segment = .ok .live)
      (hash : ResourceHash) (settlement : Settlement) :
      Sent layout w send segment external landing
        ((w.opened layout send segment hash).settle send.id settlement)
  | advertised (hvalid : w.validateOutgoingResourceSend send segment = .ok .live)
      (hash : ResourceHash) :
      Sent layout w send segment external landing
        (((w.opened layout send segment hash).push
          { send.row segment (some hash) (w.original send segment hash) .advertised with
            retriesLeft := maxAdvertisementRetries }).advertise
          (send.row segment (some hash) (w.original send segment hash) .advertised) hash)

theorem sent_ingestSendResourceSegment (layout : Layout) (w : World) (send : ResourceSend)
    (segment : ResourceSegment) (external : Bool) (landing : Landing) :
    Sent layout w send segment external landing
      (w.ingestSendResourceSegment layout send segment external landing) := by
  unfold World.ingestSendResourceSegment
  split
  · rename_i hvalid
    exact .refused _ fun lane hlane => by rw [hvalid] at hlane; cases hlane
  rename_i lane hvalid
  split
  · rename_i error htracked
    exact .refused _ fun _ _ => ⟨error, htracked⟩
  rename_i hash _
  dsimp only
  split
  · rename_i hraw
    refine .waits hvalid _ _ _ rfl ?_
    simp only [rawStages, Bool.and_eq_true, Bool.or_eq_true, beq_iff_eq, Bool.not_eq_true'] at hraw
    exact hraw.1.imp_right fun hexternal => ⟨hexternal, hraw.2⟩
  split
  · exact .waits hvalid _ _ _ rfl (Or.inl rfl)
  by_cases hwrote : landing.wrote = true
  · rw [if_pos hwrote]
    exact .advertised hvalid hash
  · rw [if_neg hwrote]
    exact .unwritten hvalid hash _

/-- A segment of a split that the proof of another response's continuation would follow. -/
def World.trespasses (w : World) (send : ResourceSend) (segment : ResourceSegment)
    (external : Bool) : Bool :=
  (w.staticContinuation send.link).isSome &&
    (w.validateOutgoingResourceSend send segment).toBool &&
    (decide (1 < segment.index) ||
      external && !send.candidateWins && decide (1 < segment.totalSegments))

variable {send : ResourceSend} {segment : ResourceSegment} {w : World} {external : Bool}
  {pending : Option CommandId}

theorem index_of_not_trespasses {lane : TrackLane} (h : w.trespasses send segment external = false)
    (hvalid : w.validateOutgoingResourceSend send segment = .ok lane)
    (hwaits : (w.staticContinuation send.link).isSome = true) :
    segment.index = 1 ∧
      (external = true → send.candidateWins = false → segment.totalSegments = 1) := by
  obtain ⟨hindex, htotal, -⟩ := validateOutgoingResourceSend_ok hvalid
  have hok : (w.validateOutgoingResourceSend send segment).toBool = true := by
    rw [hvalid]
    rfl
  simp only [World.trespasses, hwaits, hok, Bool.true_and, Bool.or_eq_false_iff,
    decide_eq_false_iff_not, Bool.and_eq_false_iff, Bool.not_eq_false'] at h
  grind

variable {link : LinkId} {continuation : StaticResponseContinuation}

theorem Shape.gone_of_empty (h : Shape w) (hempty : ∀ row ∈ w.rows, row.link ≠ link)
    (hwaits : w.staticContinuation link = some continuation) :
    continuation.command ∉ w.commands := by
  obtain ⟨chain, hchain, hcontinuation⟩ := Option.bind_eq_some_iff.mp hwaits
  intro hin
  obtain ⟨row, hrow, hcommand⟩ := List.mem_map.mp hin
  have hown := (h.held link chain continuation hchain hcontinuation).own
  exact hempty row hrow (hown row hrow hcommand)

theorem staticContinuation_begin (layout : Layout) (w : World) (link : LinkId)
    (hash : ResourceHash) : (w.begin layout link hash).staticContinuation link = none := by
  unfold World.staticContinuation
  rcases chain_begin layout w link link hash with ⟨-, hne⟩ | ⟨-, hnone | hnew⟩
  · exact absurd rfl hne
  · rw [hnone]
    rfl
  · rw [hnew]
    rfl

theorem Inv.opened (h : Inv pending w) (layout : Layout) (segment : ResourceSegment)
    (hash : ResourceHash) (hempty : ∀ row ∈ w.rows, row.link ≠ send.link) :
    Inv pending (w.opened layout send segment hash) := by
  unfold World.opened
  split_ifs
  · exact h.begin layout send.link hash fun row hrow hlink => absurd hlink (hempty row hrow)
  · exact h

theorem opened_rest (layout : Layout) (w : World) (send : ResourceSend)
    (segment : ResourceSegment) (hash : ResourceHash) :
    (w.opened layout send segment hash).rows = w.rows ∧
      (w.opened layout send segment hash).log = w.log ∧
      (w.opened layout send segment hash).issued = w.issued := by
  unfold World.opened
  split_ifs
  · exact begin_rest layout w send.link hash
  · exact ⟨rfl, rfl, rfl⟩

/-! ## Sends of the host -/

/-- A command that was just issued. -/
structure Issued (w : World) (command : CommandId) : Prop where
  issued : command ∈ w.issued
  new : command ∉ w.commands
  host : w.Host command

variable {row : Row} {chain : Chain}

theorem Inv.push (h : Inv pending w) (hcommand : Issued w row.command)
    (hpositive : 1 ≤ row.segmentIndex)
    (hlive : row.status.isWaiting = false → ∀ other ∈ w.rows, other.link ≠ row.link)
    (hheld : ∀ continuation, w.staticContinuation row.link = some continuation →
      continuation.command ∉ w.commands ∧ Harmless row) : Inv pending (w.push row) := by
  have hshape : Shape (w.push row) := by
    refine h.toShape.push hcommand.issued hcommand.new hcommand.host hpositive hlive ?_
    intro chain continuation hchain hcontinuation
    exact hheld continuation (Option.bind_eq_some_iff.mpr ⟨chain, hchain, hcontinuation⟩)
  refine { hshape with unissued := h.unissued, once := ?_ }
  intro command bytes hmem
  have hne : command ≠ row.command := fun heq => hcommand.host bytes (heq ▸ hmem)
  have hcommands : (w.push row).commands = w.commands ++ [row.command] := List.map_append
  simp only [hcommands, List.mem_append, List.mem_singleton, hne, or_false]
  exact h.once command bytes hmem

theorem Inv.sendHost {w w' : World} (h : Inv none w) {layout : Layout} {landing : Landing}
    (hcommand : Issued w send.id) (hmeets : w.trespasses send segment external = false)
    (hsent : Sent layout w send segment external landing w') : Inv none w' := by
  cases hsent with
  | refused settlement _ => exact h.settleHost hcommand.issued hcommand.host settlement
  | @waits lane hvalid hash original status hwaiting hlane =>
    obtain ⟨hindex, htotal, hfound⟩ := validateOutgoingResourceSend_ok hvalid
    refine h.push hcommand (Nat.one_le_iff_ne_zero.mpr hindex) ?_ ?_
    · intro hlive
      rw [show (send.row segment hash original status).status = status from rfl, hwaiting] at hlive
      cases hlive
    intro continuation hwaits
    have hknown := index_of_not_trespasses hmeets hvalid (by
      rw [show w.staticContinuation send.link = some continuation from hwaits]; rfl)
    cases lane with
    | staged =>
      obtain ⟨row, hrow, -, hprevious⟩ := laneFor_staged hfound
      have := h.positive row hrow
      omega
    | live =>
      refine ⟨h.toShape.gone_of_empty (laneFor_live hfound) hwaits, Or.inl ?_⟩
      have hwhole := hlane.resolve_left (by decide)
      have hone := hknown.2 hwhole.1 hwhole.2
      show segment.totalSegments ≤ segment.index
      omega
  | unwritten hvalid hash settlement =>
    obtain ⟨-, -, hfound⟩ := validateOutgoingResourceSend_ok hvalid
    obtain ⟨-, hlog, hissued⟩ := opened_rest layout w send segment hash
    refine (h.opened layout segment hash (laneFor_live hfound)).settleHost ?_ ?_ settlement
    · rw [hissued]
      exact hcommand.issued
    · intro bytes
      rw [hlog]
      exact hcommand.host bytes
  | advertised hvalid hash =>
    obtain ⟨hindex, htotal, hfound⟩ := validateOutgoingResourceSend_ok hvalid
    obtain ⟨hrows, hlog, hissued⟩ := opened_rest layout w send segment hash
    have hempty := laneFor_live hfound
    have hopened := h.opened layout segment hash hempty
    have hcommand' : Issued (w.opened layout send segment hash) send.id := by
      refine ⟨hissued ▸ hcommand.issued, ?_, ?_⟩
      · rw [World.commands, hrows]
        exact hcommand.new
      · intro bytes
        rw [hlog]
        exact hcommand.host bytes
    have hpushed : Inv none ((w.opened layout send segment hash).push
        { send.row segment (some hash) (w.original send segment hash) .advertised with
          retriesLeft := maxAdvertisementRetries }) := by
      refine hopened.push hcommand' (Nat.one_le_iff_ne_zero.mpr hindex) ?_ ?_
      · intro _ other hother
        rw [hrows] at hother
        exact hempty other hother
      intro continuation hwaits
      -- the chain that a split begins has no continuation
      change (w.opened layout send segment hash).staticContinuation send.link = _ at hwaits
      unfold World.opened at hwaits
      split_ifs at hwaits with hwhole
      · rw [staticContinuation_begin] at hwaits
        cases hwaits
      have hknown := index_of_not_trespasses hmeets hvalid (by rw [hwaits]; rfl)
      refine ⟨?_, Or.inl ?_⟩
      · rw [World.commands, hrows]
        exact h.toShape.gone_of_empty hempty hwaits
      · show segment.totalSegments ≤ segment.index
        omega
    apply hpushed.advertise hcommand'.issued
    intro bytes hmem
    have hmem' : .responded send.id bytes ∈ w.log := hlog ▸ hmem
    exact absurd hmem' (hcommand.host bytes)

/-! ## Owning builds -/

theorem Inv.requestResourceBuild (h : Inv none w) (hcommand : Issued w send.id)
    (hmeets : w.trespasses send segment false = false)
    (reserved : Except TrackOutgoingResourceError Unit) :
    Inv none (w.requestResourceBuild send segment reserved) := by
  unfold World.requestResourceBuild
  cases hvalid : w.validateOutgoingResourceSend send segment with
  | error failure => exact h.settleHost hcommand.issued hcommand.host _
  | ok lane =>
    cases reserved with
    | error error => exact h.settleHost hcommand.issued hcommand.host _
    | ok _ =>
      obtain ⟨hindex, htotal, hfound⟩ := validateOutgoingResourceSend_ok hvalid
      refine h.push hcommand (Nat.one_le_iff_ne_zero.mpr hindex) ?_ ?_
      · intro hlive
        cases lane with
        | staged => cases hlive
        | live => exact laneFor_live hfound
      intro continuation hwaits
      have hknown := index_of_not_trespasses hmeets hvalid (by
        rw [show w.staticContinuation send.link = some continuation from hwaits]; rfl)
      cases lane with
      | staged =>
        obtain ⟨row, hrow, -, hprevious⟩ := laneFor_staged hfound
        have := h.positive row hrow
        omega
      | live =>
        exact ⟨h.toShape.gone_of_empty (laneFor_live hfound) hwaits, Or.inr ⟨rfl, hknown.1⟩⟩

theorem Shape.host_of_building (h : Shape w) (hrow : row ∈ w.rows)
    (hstatus : row.status = .building .live) :
    ∀ other ∈ w.rows, other.link = row.link → w.Host other.command := by
  have hoffWire : row.status.isOffWire = true := by
    rw [hstatus]
    rfl
  have hlive : row.status.isWaiting = false := by
    rw [hstatus]
    rfl
  intro other hother hlink bytes hmem
  have honWire := (h.tended other.command bytes hmem other hother rfl).onWire
  have hnot : other.status.isWaiting = false := by
    by_contra hwaiting
    rw [isOffWire_of_isWaiting (by simpa using hwaiting)] at honWire
    cases honWire
  have hsame := h.live other hother row hrow hlink hnot hlive
  exact h.host_of_offWire hrow hoffWire bytes (hsame ▸ hmem)

theorem Inv.landLiveBuild (h : Inv none w) (layout : Layout) {i : Nat}
    (hrow : w.rows[i]? = some row) (hstatus : row.status = .building .live) (hash : ResourceHash)
    (wrote : Bool) : Inv none (w.landLiveBuild layout i row hash wrote) := by
  have hhosts := h.toShape.host_of_building (List.mem_of_getElem? hrow) hstatus
  have hlive : row.status.isWaiting = false := by
    rw [hstatus]
    rfl
  unfold World.landLiveBuild
  dsimp only
  generalize hbegun : (if row.segmentIndex = 1 ∧ 1 < row.totalSegments then
    w.begin layout row.link hash else w) = begun
  obtain ⟨hrows, hlog, hinv, hwaits⟩ : begun.rows = w.rows ∧ begun.log = w.log ∧
      Inv none begun ∧ (begun.staticContinuation row.link ≠ none →
        ¬ (row.segmentIndex = 1 ∧ 1 < row.totalSegments)) := by
    rw [← hbegun]
    split_ifs with hfirst
    · have hrest := begin_rest layout w row.link hash
      exact ⟨hrest.1, hrest.2.1, h.begin layout row.link hash hhosts,
        fun hwaits => absurd (staticContinuation_begin ..) hwaits⟩
    · exact ⟨rfl, rfl, h, fun _ => hfirst⟩
  have hrow' : begun.rows[i]? = some row := hrows ▸ hrow
  split
  · exact hinv.settleErase hrow' _
  · exact hinv.settleErase hrow' _
  by_cases hwrote : wrote = true
  · rw [if_pos hwrote]
    refine hinv.goLive hrow' ?_ rfl rfl rfl (Or.inl hlive) ?_
    · intro bytes
      rw [hlog]
      exact hhosts row (List.mem_of_getElem? hrow) rfl bytes
    intro continuation hcontinuation hharmless
    have hnot := hwaits (by rw [hcontinuation]; exact Option.some_ne_none _)
    rcases hharmless with hlast | ⟨-, hfirst⟩
    · exact Or.inl hlast
    · left
      show row.totalSegments ≤ row.segmentIndex
      omega
  · rw [if_neg hwrote]
    exact hinv.settleErase hrow' _

theorem Inv.resumeResourceBuild (h : Inv none w) (layout : Layout) (link : LinkId)
    (command : CommandId) (built : Except BuildOutgoingResourceError ResourceHash)
    (promotion : Promotion) :
    Inv none (w.resumeResourceBuild layout link command built promotion) := by
  unfold World.resumeResourceBuild
  split
  · exact h
  rename_i row hfound
  obtain ⟨hrow, hp⟩ := firstRow_some _ hfound
  have hbuilding := (Bool.and_eq_true_iff.mp hp).2
  split
  · split
    · exact (h.settleErase hrow _).failStagedContinuation link
    · exact h.settleErase hrow _
  split
  · rename_i hlive
    exact h.landLiveBuild layout hrow hlive _ _
  rename_i hlive
  have hwaiting : row.status.isWaiting = true := by
    cases hstatus : row.status with
    | building lane =>
      cases lane with
      | live => exact absurd hstatus hlive
      | staged => rfl
    | _ => rw [hstatus] at hbuilding; cases hbuilding
  refine Inv.promoteStagedResource ?_ layout link promotion
  exact h.setWaiting hrow hwaiting rfl rfl rfl rfl rfl

/-! ## Continuations -/

theorem chain_setStaticContinuation_other {other : LinkId} (hne : other ≠ link)
    (continuation : StaticResponseContinuation) :
    (w.setStaticContinuation link continuation).chain other = w.chain other := by
  rw [chain_setStaticContinuation]
  cases hchain : w.chain other with
  | none => rfl
  | some chain =>
    have hlink : ¬ (chain.link == link) = true := by
      rw [chain_link hchain]
      simpa using hne
    rw [Option.map_some, if_neg hlink]

theorem chain_setStaticContinuation_own
    (h : (w.setStaticContinuation link continuation).chain link = some chain) :
    ∃ old, w.chain link = some old ∧ chain = { old with continuation := some continuation } := by
  rw [chain_setStaticContinuation] at h
  obtain ⟨old, hold, rfl⟩ := Option.map_eq_some_iff.mp h
  refine ⟨old, hold, ?_⟩
  rw [if_pos (by rw [chain_link hold]; exact beq_self_eq_true _)]

theorem Inv.setStaticContinuation (h : Inv none w) {bytes : List UInt8}
    (hresponded : .responded continuation.command bytes ∈ w.log)
    (hgone : continuation.command ∉ w.commands) (hempty : ∀ row ∈ w.rows, row.link ≠ link) :
    Inv none (w.setStaticContinuation link continuation) := by
  have hshape : Shape (w.setStaticContinuation link continuation) := by
    refine ⟨h.toLogged, h.nodup, h.issued, h.positive, h.live, ?_, ?_⟩
    · intro command bytes' hmem row hrow hcommand
      refine (h.tended command bytes' hmem row hrow hcommand).mono (fun _ he => he) ?_
      intro chain hchain
      rwa [chain_setStaticContinuation_other (hempty row hrow)] at hchain
    intro other chain found hchain hfound
    by_cases heq : other = link
    · subst heq
      obtain ⟨old, -, rfl⟩ := chain_setStaticContinuation_own hchain
      cases hfound
      refine ⟨⟨bytes, hresponded⟩, ?_, fun row hrow hlink => absurd hlink (hempty row hrow)⟩
      intro row hrow hcommand
      exact absurd (List.mem_map.mpr ⟨row, hrow, hcommand⟩) hgone
    · rw [chain_setStaticContinuation_other heq] at hchain
      have hheld := h.held other chain found hchain hfound
      exact ⟨hheld.responded, hheld.own, hheld.others⟩
  exact h.of_shape hshape rfl (fun _ => rfl) (fun _ _ hmem => hmem) rfl

theorem setStaticContinuation_none (h : w.chain link = none)
    (continuation : StaticResponseContinuation) :
    w.setStaticContinuation link continuation = w := by
  have hlinks := List.find?_eq_none.mp h
  have hsame : (w.chains.map fun chain =>
      if chain.link == link then { chain with continuation := some continuation } else chain) =
      w.chains := by
    conv_rhs => rw [← List.map_id w.chains]
    apply List.map_congr_left
    intro chain hchain
    rw [if_neg (hlinks chain hchain)]
    rfl
  rw [World.setStaticContinuation, hsame]

/-- The pending response gets a row: its segment is advertised, and what follows it waits in
the chain of the link, if there is one. -/
structure Lands (w w' : World) (row : Row) (hash : ResourceHash) (bytes : List UInt8) : Prop where
  rows : w'.rows = w.rows ++ [row]
  log : w'.log = w.log ++ [.advertised (row.advertisement hash)]
  issued : w'.issued = w.issued
  responded : .responded row.command bytes ∈ w.log
  new : row.command ∉ w.commands
  empty : ∀ other ∈ w.rows, other.link ≠ row.link
  onWire : row.status.isOffWire = false
  hash : row.hash = some hash
  response : ∃ id, row.correlation = .response id
  proper : ∀ hash, Proper w.log bytes (row.advertisement hash)
  chain : ∀ other, other ≠ row.link → w'.chain other = w.chain other
  elsewhere : ∀ link chain continuation, link ≠ row.link → w.chain link = some chain →
    chain.continuation = some continuation → continuation.command ≠ row.command
  held : ∀ chain continuation, w'.chain row.link = some chain →
    chain.continuation = some continuation → continuation.command = row.command ∨
      w.chain row.link = some chain ∧ row.totalSegments ≤ row.segmentIndex
  follows : row.segmentIndex < row.totalSegments → ∀ chain, w'.chain row.link = some chain →
    ∃ continuation, chain.continuation = some continuation ∧
      Follows w'.log bytes row chain continuation

section

variable {w' : World} {hash : ResourceHash} {bytes : List UInt8} (l : Lands w w' row hash bytes)

include l

theorem Lands.mem {other : Row} (h : other ∈ w'.rows) : other ∈ w.rows ∨ other = row := by
  rw [l.rows] at h
  rcases List.mem_append.mp h with hold | hlast
  · exact Or.inl hold
  · exact Or.inr (List.mem_singleton.mp hlast)

theorem Lands.commands : w'.commands = w.commands ++ [row.command] := by
  rw [World.commands, l.rows, List.map_append]
  rfl

variable {command : CommandId} {bytes' : List UInt8}

theorem Lands.responded_old (h : .responded command bytes' ∈ w'.log) :
    .responded command bytes' ∈ w.log := by
  rw [l.log] at h
  rcases List.mem_append.mp h with hold | hnew
  · exact hold
  · cases List.mem_singleton.mp hnew

theorem Lands.log_mono : ∀ entry ∈ w.log, entry ∈ w'.log := by
  intro entry hentry
  rw [l.log]
  exact List.mem_append_left _ hentry

theorem Lands.tended (h : Shape w) (hmem : .responded command bytes' ∈ w'.log) {other : Row}
    (hother : other ∈ w'.rows) (hcommand : other.command = command) : Tended w' bytes' other := by
  have hold := l.responded_old hmem
  rcases l.mem hother with hin | rfl
  · refine (h.tended command bytes' hold other hin hcommand).mono l.log_mono ?_
    intro chain hfound
    rwa [l.chain other.link (l.empty other hin)] at hfound
  have hbytes : bytes' = bytes :=
    h.respondedOnce command bytes' bytes hold (hcommand ▸ l.responded)
  subst hbytes
  refine ⟨l.onWire, l.response, ⟨hash, l.hash, ?_⟩, fun hash => (l.proper hash).mono l.log_mono,
    l.follows⟩
  rw [l.log]
  exact List.mem_append_right _ (List.mem_singleton.mpr rfl)

theorem Lands.heldAfter (h : Shape w) (hchain : w'.chain link = some chain)
    (hcontinuation : chain.continuation = some continuation) : Held w' link continuation := by
  by_cases hown : continuation.command = row.command
  · have hlink : link = row.link := by
      by_contra hne
      rw [l.chain link hne] at hchain
      exact l.elsewhere link chain continuation hne hchain hcontinuation hown
    refine ⟨⟨bytes, l.log_mono _ (hown ▸ l.responded)⟩, ?_, ?_⟩
    · intro other hother hcommand
      rcases l.mem hother with hin | rfl
      · exact absurd (List.mem_map.mpr ⟨other, hin, hcommand.trans hown⟩) l.new
      · exact hlink.symm
    · intro other hother hsame
      rcases l.mem hother with hin | rfl
      · exact absurd (hsame.trans hlink) (l.empty other hin)
      · exact Or.inl hown.symm
  · have hbefore : w.chain link = some chain ∧
        (link = row.link → row.totalSegments ≤ row.segmentIndex) := by
      by_cases hlink : link = row.link
      · subst hlink
        obtain ⟨hfound, hlast⟩ := (l.held chain continuation hchain hcontinuation).resolve_left hown
        exact ⟨hfound, fun _ => hlast⟩
      · rw [l.chain link hlink] at hchain
        exact ⟨hchain, fun heq => absurd heq hlink⟩
    have hheld := h.held link chain continuation hbefore.1 hcontinuation
    obtain ⟨bytes', hbytes'⟩ := hheld.responded
    have hmem : ∀ other ∈ w'.rows, other ∈ w.rows ∨ other = row := fun _ => l.mem
    have hcommands := l.commands
    have hempty := l.empty
    have hin : continuation.command ∈ w.commands → ∃ other ∈ w.rows,
        other.command = continuation.command := List.mem_map.mp
    obtain ⟨-, hown', hothers⟩ := hheld
    refine ⟨⟨bytes', l.log_mono _ hbytes'⟩, ?_, ?_⟩
    · grind
    · grind [Harmless]

theorem Lands.logged (h : Shape w) : Logged w'.issued w'.log := by
  rw [l.issued, l.log]
  refine h.toLogged.snoc (fun _ _ heq => by cases heq) ?_
  intro a ha
  cases ha
  refine ⟨h.respondedIssued _ bytes l.responded, ?_⟩
  intro bytes' hmem
  rw [h.respondedOnce _ bytes' bytes hmem l.responded]
  exact l.proper hash

theorem Lands.shape (h : Shape w) : Shape w' := by
  refine ⟨l.logged h, ?_, ?_, ?_, ?_,
    fun _ _ hmem _ hother hcommand => l.tended h hmem hother hcommand,
    fun _ _ _ hchain hcontinuation => l.heldAfter h hchain hcontinuation⟩
  · rw [l.commands, ← List.concat_eq_append]
    exact h.nodup.concat l.new
  · rw [l.rows, l.issued]
    exact List.forall_mem_append.mpr ⟨h.issued,
      List.forall_mem_singleton.mpr (h.respondedIssued _ bytes l.responded)⟩
  · rw [l.rows]
    exact List.forall_mem_append.mpr ⟨h.positive, List.forall_mem_singleton.mpr (l.proper hash).1⟩
  intro first hfirst second hsecond hlink hfirstLive hsecondLive
  rcases l.mem hfirst with hin | rfl <;> rcases l.mem hsecond with hin' | rfl
  · exact h.live first hin second hin' hlink hfirstLive hsecondLive
  · exact absurd hlink (l.empty first hin)
  · exact absurd hlink.symm (l.empty second hin')
  · rfl

omit l

theorem Inv.lands (h : Inv (some row.command) w) (l : Lands w w' row hash bytes) : Inv none w' := by
  have hsettled : ∀ command, settlements w'.log command = settlements w.log command := by
    intro command
    rw [l.log, settlements_append]
    rfl
  refine { l.shape h.toShape with unissued := ?_, once := ?_ }
  · intro command hnot
    rw [hsettled]
    exact h.unissued command (l.issued ▸ hnot)
  · intro command bytes' hmem
    have hbefore := h.once command bytes' (l.responded_old hmem)
    rw [hsettled, l.commands]
    grind

end

end Prns.Ports.OutgoingResources
