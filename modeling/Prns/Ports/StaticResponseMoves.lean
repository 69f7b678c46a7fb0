import Mathlib.Data.List.InsertIdx
import Prns.Ports.StaticResponseShape

/-!
# Settled once

The invariant with the count of settlements, and the operations of `OutgoingResources` that
keep it whatever they are called on: failing what is staged, cancelling, sealing and
promoting. While an operation is under way, one static response may be pending: it has
neither a row nor a settlement.
-/

namespace Prns.Ports.OutgoingResources

/-! ## Counting -/

def Entry.settles (command : CommandId) : Entry → Bool
  | .settled other _ => other == command
  | .responded _ _ => false
  | .advertised _ => false

/-- How often a command was settled. -/
def settlements (log : List Entry) (command : CommandId) : Nat :=
  log.countP (Entry.settles command)

theorem settlements_append (log : List Entry) (entry : Entry) (command : CommandId) :
    settlements (log ++ [entry]) command =
      settlements log command + if entry.settles command then 1 else 0 := by
  simp [settlements, List.countP_append, List.countP_cons]

open World

theorem settlements_settle (w : World) (command other : CommandId) (settlement : Settlement) :
    settlements (w.settle command settlement).log other =
      settlements w.log other + if command = other then 1 else 0 := by
  rw [settle, settlements_append]
  simp [Entry.settles]

variable {w : World}

theorem responded_settle {command other : CommandId} {settlement : Settlement}
    {bytes : List UInt8} (h : .responded other bytes ∈ (w.settle command settlement).log) :
    .responded other bytes ∈ w.log := by
  rcases List.mem_append.mp h with hold | hnew
  · exact hold
  · cases List.mem_singleton.mp hnew

/-- The shape holds, and every static response is settled, has a row, or is pending. -/
structure Inv (pending : Option CommandId) (w : World) : Prop extends Shape w where
  unissued : ∀ command, command ∉ w.issued → settlements w.log command = 0
  once : ∀ command bytes, .responded command bytes ∈ w.log →
    settlements w.log command + (if command ∈ w.commands then 1 else 0) +
      (if pending = some command then 1 else 0) = 1

variable {pending : Option CommandId} (h : Inv pending w)

include h

theorem Inv.of_shape {w' : World} (hshape : Shape w') (hissued : w'.issued = w.issued)
    (hsettled : ∀ command, settlements w'.log command = settlements w.log command)
    (hresponded : ∀ command bytes, .responded command bytes ∈ w'.log →
      .responded command bytes ∈ w.log) (hcommands : w'.commands = w.commands) :
    Inv pending w' := by
  refine { hshape with unissued := ?_, once := ?_ }
  · intro command hnot
    rw [hsettled]
    exact h.unissued command (hissued ▸ hnot)
  · intro command bytes hmem
    rw [hsettled, hcommands]
    exact h.once command bytes (hresponded command bytes hmem)

variable {i : Nat} {row : Row}

omit h in
theorem Shape.commands_erase (h : Shape w) (hrow : w.rows[i]? = some row) (command : CommandId) :
    command ∈ (w.erase i).commands ↔ command ∈ w.commands ∧ command ≠ row.command := by
  have hcommand : w.commands[i]? = some row.command := by simp [commands, hrow]
  obtain ⟨hlt, hget⟩ := List.getElem?_eq_some_iff.mp hcommand
  have herased : (w.erase i).commands = w.commands.erase row.command := by
    rw [← hget, h.nodup.erase_getElem i hlt]
    exact (List.eraseIdx_map ..).symm
  rw [herased, h.nodup.mem_erase_iff, and_comm]

variable (hrow : w.rows[i]? = some row)
include hrow

theorem Inv.issued_of_row : row.command ∈ w.issued :=
  h.issued row (List.mem_of_getElem? hrow)

theorem Inv.settleErase (settlement : Settlement) :
    Inv pending ((w.erase i).settle row.command settlement) := by
  have hissued := h.issued_of_row hrow
  have hcommand : row.command ∈ w.commands := List.mem_map_of_mem (List.mem_of_getElem? hrow)
  have hsettled := fun other => settlements_settle (w.erase i) row.command other settlement
  have hcommands : ∀ command, command ∈ ((w.erase i).settle row.command settlement).commands ↔
      command ∈ w.commands ∧ command ≠ row.command := h.toShape.commands_erase hrow
  have hlog : (w.erase i).log = w.log := rfl
  refine { (h.toShape.erase i).settle row.command settlement with unissued := ?_, once := ?_ }
  · intro command hnot
    have hbefore := h.unissued command hnot
    have hne : row.command ≠ command := fun heq => hnot (heq ▸ hissued)
    grind
  · intro command bytes hmem
    have hbefore := h.once command bytes (responded_settle hmem)
    grind

theorem Inv.eraseHost (hhost : w.Host row.command) : Inv pending (w.erase i) := by
  refine { h.toShape.erase i with unissued := h.unissued, once := ?_ }
  intro command bytes hmem
  have hne : command ≠ row.command := fun heq => hhost bytes (heq ▸ hmem)
  simp only [h.toShape.commands_erase hrow, hne, ne_eq, not_false_eq_true, and_true]
  exact h.once command bytes hmem

omit hrow

variable {command : CommandId} {hash : ResourceHash} {link : LinkId}

theorem Inv.settleHost (hissued : command ∈ w.issued) (hhost : w.Host command)
    (settlement : Settlement) : Inv pending (w.settle command settlement) := by
  refine { h.toShape.settle command settlement with unissued := ?_, once := ?_ }
  · intro other hnot
    have hne : command ≠ other := fun heq => hnot (heq ▸ hissued)
    rw [settlements_settle, if_neg hne]
    exact h.unissued other hnot
  intro other bytes hmem
  have hold := responded_settle hmem
  have hne : command ≠ other := fun heq => hhost bytes (heq ▸ hold)
  rw [settlements_settle, if_neg hne]
  exact h.once other bytes hold

omit h in
theorem Inv.settlePending (h : Inv (some command) w) (hissued : command ∈ w.issued)
    (settlement : Settlement) : Inv none (w.settle command settlement) := by
  refine { h.toShape.settle command settlement with unissued := ?_, once := ?_ }
  · intro other hnot
    have hne : command ≠ other := fun heq => hnot (heq ▸ hissued)
    rw [settlements_settle, if_neg hne]
    exact h.unissued other hnot
  intro other bytes hmem
  have hbefore := h.once other bytes (responded_settle hmem)
  rw [settlements_settle]
  show settlements w.log other + _ + (if other ∈ w.commands then 1 else 0) + _ = 1
  simp only [Option.some.injEq, reduceCtorEq, if_false] at hbefore ⊢
  omega

omit h in
theorem Inv.erasePending (h : Inv none w)
    (hrow : w.rows[i]? = some row) : Inv (some row.command) (w.erase i) := by
  have hcommand : row.command ∈ w.commands := List.mem_map_of_mem (List.mem_of_getElem? hrow)
  have hcommands := h.toShape.commands_erase hrow
  have hlog : (w.erase i).log = w.log := rfl
  refine { h.toShape.erase i with unissued := h.unissued, once := ?_ }
  intro command bytes hmem
  have hbefore := h.once command bytes hmem
  grind

theorem Inv.clear (link : LinkId) : Inv pending (w.clear link) :=
  h.of_shape (h.toShape.clear link) rfl (fun _ => rfl) (fun _ _ hmem => hmem) rfl

theorem Inv.links (links : LinkId → ActiveLinkLookup) : Inv pending { w with links := links } :=
  ⟨⟨h.toLogged, h.nodup, h.issued, h.positive, h.live, fun command bytes hmem row hrow hcommand =>
      (h.tended command bytes hmem row hrow hcommand).mono (fun _ he => he) fun _ hchain => hchain,
    fun link chain continuation hchain hcontinuation =>
      let hheld := h.held link chain continuation hchain hcontinuation
      ⟨hheld.responded, hheld.own, hheld.others⟩⟩, h.unissued, h.once⟩

theorem Inv.advertise (hissued : row.command ∈ w.issued)
    (hproper : ∀ bytes, .responded row.command bytes ∈ w.log →
      Proper w.log bytes (row.advertisement hash)) : Inv pending (w.advertise row hash) := by
  have hshape : Shape (w.advertise row hash) := by
    refine h.toShape.record (fun _ _ heq => by cases heq) ?_
    intro a ha
    cases ha
    exact ⟨hissued, hproper⟩
  refine h.of_shape hshape rfl ?_ ?_ rfl
  · intro command
    rw [World.advertise, settlements_append]
    rfl
  · intro command bytes hmem
    rcases List.mem_append.mp hmem with hold | hnew
    · exact hold
    · cases List.mem_singleton.mp hnew

omit h in
theorem Shape.host_of_offWire (h : Shape w) (hrow : row ∈ w.rows)
    (hstatus : row.status.isOffWire = true) : w.Host row.command := by
  intro bytes hmem
  have honWire := (h.tended row.command bytes hmem row hrow rfl).onWire
  rw [hstatus] at honWire
  cases honWire

omit h in
theorem isOffWire_of_isWaiting {status : OutgoingResourceStatus}
    (h : status.isWaiting = true) : status.isOffWire = true := by
  cases status <;> first | rfl | cases h

omit h in
theorem settleAdvertisedResource_clear (w : World) (link : LinkId) (command : CommandId)
    (correlation : ResourceCorrelation) (result : Option SendResourceFailure) :
    (w.clear link).settleAdvertisedResource command correlation result =
      (w.settleAdvertisedResource command correlation result).clear link := by
  cases correlation <;> rfl

theorem Inv.settleAdvertisedErase (hrow : w.rows[i]? = some row)
    (result : Option SendResourceFailure) :
    Inv pending ((w.erase i).settleAdvertisedResource row.command row.correlation result) := by
  cases hcorrelation : row.correlation with
  | request id =>
    apply h.eraseHost hrow
    intro bytes hmem
    have hrow' := List.mem_of_getElem? hrow
    obtain ⟨id', hresponse⟩ := (h.tended row.command bytes hmem row hrow' rfl).response
    rw [hcorrelation] at hresponse
    cases hresponse
  | response id => exact h.settleErase hrow _
  | unsolicited => exact h.settleErase hrow _

omit h in
theorem Inv.failStaged (link : LinkId) (turns : Nat)
    (h : Inv pending w) : Inv pending (failStaged link turns w) := by
  induction turns generalizing w with
  | zero => exact h
  | succ turns ih =>
    rw [failStaged]
    cases hstaged : w.stagedIndex link with
    | none => exact h
    | some found => exact ih (h.settleErase (lowestRow_some _ hstaged).1 _)

theorem Inv.failStagedContinuation (link : LinkId) : Inv pending (w.failStagedContinuation link) :=
  h.failStaged link w.rows.length

omit h in
theorem rows_failStaged (link : LinkId) (turns : Nat) (w : World) :
    (failStaged link turns w).rows.Sublist w.rows := by
  induction turns generalizing w with
  | zero => exact List.Sublist.refl _
  | succ turns ih =>
    rw [failStaged]
    cases w.stagedIndex link with
    | none => exact List.Sublist.refl _
    | some found => exact (ih _).trans (List.eraseIdx_sublist _ _)

theorem Inv.cancelOutgoingResource (link : LinkId) (hash : ResourceHash)
    (failure : SendResourceFailure) : Inv pending (w.cancelOutgoingResource link hash failure) := by
  unfold World.cancelOutgoingResource
  split
  · exact h
  · rename_i hfound
    rw [settleAdvertisedResource_clear]
    exact ((h.settleAdvertisedErase (firstRow_some _ hfound).1 _).clear link).failStagedContinuation
      link

theorem Inv.setWaiting {next : Row} (hrow : w.rows[i]? = some row)
    (hwaiting : row.status.isWaiting = true) (hnext : next.status.isWaiting = true)
    (hlink : next.link = row.link) (hcommand : next.command = row.command)
    (hindex : next.segmentIndex = row.segmentIndex)
    (htotal : next.totalSegments = row.totalSegments) : Inv pending (w.set i next) := by
  have hhost := h.toShape.host_of_offWire (List.mem_of_getElem? hrow)
    (isOffWire_of_isWaiting hwaiting)
  have hshape : Shape (w.set i next) := by
    refine h.toShape.set hrow hlink hcommand hindex ?_ ?_ ?_
    · intro hlive
      rw [hnext] at hlive
      cases hlive
    · intro continuation _ hharmless
      rcases hharmless with hlast | ⟨hbuilding, -⟩
      · exact Or.inl (by rw [htotal, hindex]; exact hlast)
      · rw [hbuilding] at hwaiting
        cases hwaiting
    · intro bytes hmem
      exact absurd hmem (hhost bytes)
  exact h.of_shape hshape rfl (fun _ => rfl) (fun _ _ hmem => hmem) (commands_set hrow hcommand)

theorem Inv.failStagedSeal (hrow : w.rows[i]? = some row) (error : BuildOutgoingResourceError) :
    Inv pending (w.failStagedSeal i row error) :=
  (h.settleErase hrow _).failStagedContinuation row.link

theorem Inv.sealStagedIndex (hrow : w.rows[i]? = some row) (hwaiting : row.status.isWaiting = true)
    (verdict : Except BuildOutgoingResourceError ResourceHash) :
    Inv pending (w.sealStagedIndex i row verdict) := by
  unfold World.sealStagedIndex
  repeat' split
  · exact h
  · exact h
  · exact h.setWaiting hrow hwaiting rfl rfl rfl rfl rfl
  · exact h.failStagedSeal hrow _

omit h in
theorem stagedIndex_some (h : w.stagedIndex link = some (i, row)) :
    w.rows[i]? = some row ∧ row.link = link ∧ row.status.isWaiting = true := by
  obtain ⟨hrow, hfound⟩ := lowestRow_some _ h
  rw [Bool.and_eq_true, beq_iff_eq] at hfound
  exact ⟨hrow, hfound⟩

theorem Inv.sealStagedContinuation (link : LinkId)
    (verdict : Except BuildOutgoingResourceError ResourceHash) :
    Inv pending (w.sealStagedContinuation link verdict) := by
  unfold World.sealStagedContinuation
  split
  · exact h
  rename_i hstaged
  obtain ⟨hrow, -, hwaiting⟩ := stagedIndex_some hstaged
  split
  · exact h.sealStagedIndex hrow hwaiting verdict
  · exact h

theorem Inv.requestResourceSeal (link : LinkId) : Inv pending (w.requestResourceSeal link) := by
  unfold World.requestResourceSeal
  split
  · exact h
  rename_i hstaged
  obtain ⟨hrow, hfound⟩ := lowestRow_some _ hstaged
  rw [Bool.and_eq_true, beq_iff_eq, beq_iff_eq] at hfound
  repeat' split
  all_goals try exact h
  exact h.setWaiting hrow (by rw [hfound.2]; rfl) rfl rfl rfl rfl rfl

/-! ## Promotion -/

omit h in
/-- No row of the link is on the wire or about to be. -/
def Free (w : World) (link : LinkId) : Prop :=
  ∀ row ∈ w.rows, row.link = link → row.status.isWaiting = true

omit h in
theorem free_sealStagedContinuation (h : Free w link)
    (verdict : Except BuildOutgoingResourceError ResourceHash) :
    Free (w.sealStagedContinuation link verdict) link := by
  unfold sealStagedContinuation sealStagedIndex
  repeat' split
  all_goals try exact h
  · intro row hrow hlink
    rcases List.mem_or_eq_of_mem_set hrow with hold | rfl
    · exact h row hold hlink
    · rfl
  · intro row hrow hlink
    have hsub := (rows_failStaged _ _ _).subset hrow
    exact h row (List.mem_of_mem_eraseIdx hsub) hlink

theorem Inv.goLive {next : Row} (hrow : w.rows[i]? = some row) (hhost : w.Host row.command)
    (hlink : next.link = row.link) (hcommand : next.command = row.command)
    (hindex : next.segmentIndex = row.segmentIndex)
    (hfree : row.status.isWaiting = false ∨ Free w row.link)
    (hharmless : ∀ continuation, w.staticContinuation row.link = some continuation →
      Harmless row → Harmless next) : Inv pending ((w.set i next).advertise next hash) := by
  have hshape : Shape (w.set i next) :=
    h.toShape.set hrow hlink hcommand hindex (fun _ => hfree) hharmless
      fun bytes hmem => absurd hmem (hhost bytes)
  have hset : Inv pending (w.set i next) :=
    h.of_shape hshape rfl (fun _ => rfl) (fun _ _ hmem => hmem) (commands_set hrow hcommand)
  apply hset.advertise (hcommand ▸ h.issued_of_row hrow)
  intro bytes hmem
  rw [hcommand] at hmem
  exact absurd hmem (hhost bytes)

theorem Inv.begin (layout : Layout) (link : LinkId) (hash : ResourceHash)
    (hhost : ∀ row ∈ w.rows, row.link = link → w.Host row.command) :
    Inv pending (w.begin layout link hash) := by
  have hrest := begin_rest layout w link hash
  refine h.of_shape (h.toShape.begin layout link hash hhost) hrest.2.2 ?_ ?_ ?_
  · intro command
    rw [hrest.2.1]
  · intro command bytes hmem
    rwa [hrest.2.1] at hmem
  · rw [commands, hrest.1]
    rfl

theorem Inv.promoteSealed (layout : Layout) (hrow : w.rows[i]? = some row)
    (hwaiting : row.status.isWaiting = true) (hfree : Free w row.link) (hash : ResourceHash)
    (wrote : Bool) : Inv pending (w.promoteSealed layout i row hash wrote) := by
  unfold World.promoteSealed
  dsimp only
  -- The chain that begins here, if one does.
  generalize hbegun : (if row.segmentIndex = 1 ∧ 1 < row.totalSegments ∧
    (w.chain row.link).isNone then w.begin layout row.link hash else w) = begun
  obtain ⟨hrows, hinv⟩ : begun.rows = w.rows ∧ Inv pending begun := by
    rw [← hbegun]
    split
    · refine ⟨(begin_rest layout w row.link hash).1, h.begin layout row.link hash ?_⟩
      intro other hother hlink
      exact h.toShape.host_of_offWire hother (isOffWire_of_isWaiting (hfree other hother hlink))
    · exact ⟨rfl, h⟩
  have hrow' : begun.rows[i]? = some row := hrows ▸ hrow
  have hhost := hinv.toShape.host_of_offWire (List.mem_of_getElem? hrow')
    (isOffWire_of_isWaiting hwaiting)
  split
  · exact hinv.failStagedContinuation row.link
  split
  · exact hinv.failStagedContinuation row.link
  · exact hinv.failStagedContinuation row.link
  split
  · refine hinv.goLive hrow' hhost rfl rfl rfl (Or.inr ?_) ?_
    · intro other hother hlink
      exact hfree other (hrows ▸ hother) hlink
    intro continuation _ hharmless
    rcases hharmless with hlast | ⟨hbuilding, -⟩
    · exact Or.inl hlast
    · rw [hbuilding] at hwaiting
      cases hwaiting
  · exact hinv.settleErase hrow' _

theorem Inv.promoteStagedResource (layout : Layout) (link : LinkId) (promotion : Promotion) :
    Inv pending (w.promoteStagedResource layout link promotion) := by
  unfold World.promoteStagedResource
  split
  · exact h
  rename_i hoccupied
  have hfree : Free w link := by
    intro row hrow hlink
    by_contra hwaiting
    apply hoccupied
    rw [List.any_eq_true]
    exact ⟨row, hrow, by simp [hlink, hwaiting]⟩
  split
  · exact h
  rename_i _ row _
  dsimp only
  -- The row is sealed first if it is still raw.
  generalize hnext : (if row.status = .staged then
    w.sealStagedContinuation link promotion.verdict else w) = next
  obtain ⟨hinv, hfree'⟩ : Inv pending next ∧ Free next link := by
    rw [← hnext]
    split
    · exact ⟨h.sealStagedContinuation link promotion.verdict,
        free_sealStagedContinuation hfree promotion.verdict⟩
    · exact ⟨h, hfree⟩
  split
  · exact hinv
  rename_i hstaged
  obtain ⟨hrow, hlink, hwaiting⟩ := stagedIndex_some hstaged
  repeat' split
  · exact hinv.failStagedContinuation link
  · exact hinv.promoteSealed layout hrow hwaiting (hlink ▸ hfree') _ _
  · exact hinv

end Prns.Ports.OutgoingResources
