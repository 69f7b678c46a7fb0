import Mathlib.Data.List.Nodup
import Prns.Ports.StaticResponses
import Prns.Verified.Histories

/-!
# What holds of rows and chains

The invariant behind the chains of static responses, and how the small moves that all
operations are made of keep it: a row is added, changed or removed, a chain begins, is
cleared or gets a continuation, and an entry is logged. `Shape` says how rows, chains and
log fit together.
-/

namespace Prns.Ports.OutgoingResources

open Verified

variable {i : Nat} {row : Row} {p : Row → Bool} {rows : List Row} {link : LinkId}
  {log' : List Entry} {command : CommandId} {w' : World}

theorem firstRow_some (rows : List Row) (h : firstRow p rows = some (i, row)) :
    rows[i]? = some row ∧ p row = true := by
  induction rows generalizing i with
  | nil => cases h
  | cons head rows ih =>
    rw [firstRow] at h
    split at h
    · cases h
      exact ⟨rfl, ‹_›⟩
    · obtain ⟨⟨j, found⟩, hfound, heq⟩ := Option.map_eq_some_iff.mp h
      cases heq
      exact ih hfound

theorem lowestRow_some (rows : List Row) (h : lowestRow p rows = some (i, row)) :
    rows[i]? = some row ∧ p row = true := by
  induction rows generalizing i row with
  | nil => cases h
  | cons head rows ih => grind [lowestRow]

variable {segment : ResourceSegment} {bytes : List UInt8} {entry : Entry} {next : Row}

theorem laneFor_live (h : laneFor rows link segment = .ok .live) :
    ∀ row ∈ rows, row.link ≠ link := by
  intro row hrow hlink
  have hmem : row ∈ rows.filter fun row => row.link == link :=
    List.mem_filter.mpr ⟨hrow, by simpa using hlink⟩
  unfold laneFor at h
  grind

theorem laneFor_staged (h : laneFor rows link segment = .ok .staged) :
    ∃ row ∈ rows, row.link = link ∧ row.segmentIndex + 1 = segment.index := by
  unfold laneFor at h
  split at h
  · cases h
  · rename_i newest hrows
    have hmem := List.mem_filter.mp (hrows ▸ List.mem_singleton_self newest)
    split_ifs at h with hcontinues
    exact ⟨newest, hmem.1, by simpa using hmem.2, hcontinues.2.1⟩
  · cases h

variable {w : World}

theorem validateOutgoingResourceSend_ok {send : ResourceSend} {lane : TrackLane}
    (h : w.validateOutgoingResourceSend send segment = .ok lane) :
    segment.index ≠ 0 ∧ segment.index ≤ segment.totalSegments ∧
      laneFor w.rows send.link segment = .ok lane := by
  unfold World.validateOutgoingResourceSend at h
  repeat' split at h
  all_goals cases h
  exact ⟨by omega, by omega, ‹_›⟩

theorem chain_link {chain : Chain} (h : w.chain link = some chain) : chain.link = link := by
  have hfound := List.find?_some h
  simpa using hfound

theorem chain_clear (w : World) (link other : LinkId) :
    (w.clear link).chain other = if other = link then none else w.chain other := by
  unfold World.chain World.clear
  rw [List.find?_filter]
  by_cases h : other = link
  · rw [if_pos h, List.find?_eq_none]
    intro chain _
    simp [h]
  rw [if_neg h]
  congr 1
  funext chain
  by_cases hchain : chain.link = other
  · simp [hchain, h]
  · simp [hchain]

theorem chain_begin (layout : Layout) (w : World) (link other : LinkId) (hash : ResourceHash) :
    (w.begin layout link hash).chain other = w.chain other ∧ other ≠ link ∨
      other = link ∧ ((w.begin layout link hash).chain other = none ∨
        (w.begin layout link hash).chain other = some ⟨link, hash, none⟩) := by
  have hcleared := chain_clear w link other
  unfold World.begin World.chain at *
  grind

theorem begin_rest (layout : Layout) (w : World) (link : LinkId) (hash : ResourceHash) :
    (w.begin layout link hash).rows = w.rows ∧ (w.begin layout link hash).log = w.log ∧
      (w.begin layout link hash).issued = w.issued := by
  unfold World.begin
  dsimp only
  split_ifs <;> exact ⟨rfl, rfl, rfl⟩

theorem chain_setStaticContinuation (w : World) (link other : LinkId)
    (continuation : StaticResponseContinuation) :
    (w.setStaticContinuation link continuation).chain other = (w.chain other).map fun chain =>
        if chain.link == link then { chain with continuation := some continuation } else chain := by
  unfold World.chain World.setStaticContinuation
  rw [List.find?_map]
  congr 2
  funext chain
  show ((if chain.link == link then { chain with continuation := some continuation }
    else chain).link == other) = (chain.link == other)
  split_ifs <;> rfl

/-! ## The shape -/

def World.commands (w : World) : List CommandId := w.rows.map Row.command

def Minted (log : List Entry) (command : CommandId) (hash : ResourceHash) : Prop :=
  ∃ first, .advertised first ∈ log ∧ first.command = command ∧ first.segmentIndex = 1 ∧
    first.hash = hash

/-- An advertisement of a static response is on its own chain. It carries a range of the
bytes, from the start of them for the first segment. After the first segment, it carries the
hash that the first one minted, and the bytes that follow those of the segment before it. -/
def Proper (before : List Entry) (bytes : List UInt8) (a : Advertisement) : Prop :=
  1 ≤ a.segmentIndex ∧ a.data = (bytes.drop a.offset).take a.data.length ∧
    (a.segmentIndex = 1 → a.offset = 0) ∧
    (1 < a.segmentIndex → Minted before a.command a.originalHash ∧
      ∃ previous, .advertised previous ∈ before ∧ previous.command = a.command ∧
        previous.segmentIndex + 1 = a.segmentIndex ∧
        previous.offset + previous.data.length = a.offset)

/-- Every advertisement of a static response is on its own chain. -/
def Chained (log : List Entry) : Prop :=
  Everywhere (fun before entry => ∀ a, entry = .advertised a →
    ∀ bytes, .responded a.command bytes ∈ before → Proper before bytes a) log

/-- The proof of this row continues nothing: it is a last segment, or begins a chain of its
own before it is advertised. -/
def Harmless (row : Row) : Prop :=
  row.totalSegments ≤ row.segmentIndex ∨ row.status = .building .live ∧ row.segmentIndex = 1

structure Follows (log : List Entry) (bytes : List UInt8) (row : Row) (chain : Chain)
    (continuation : StaticResponseContinuation) : Prop where
  command : continuation.command = row.command
  bytes : continuation.bytes = bytes
  index : continuation.nextSegmentIndex = row.segmentIndex + 1
  offset : continuation.nextOffset = row.offset + row.data.length
  total : continuation.totalSegments = row.totalSegments
  minted : Minted log row.command chain.originalHash

/-- A row of a static response. -/
structure Tended (w : World) (bytes : List UInt8) (row : Row) : Prop where
  onWire : row.status.isOffWire = false
  response : ∃ id, row.correlation = .response id
  advertised : ∃ hash, row.hash = some hash ∧ .advertised (row.advertisement hash) ∈ w.log
  proper : ∀ hash, Proper w.log bytes (row.advertisement hash)
  follows : row.segmentIndex < row.totalSegments → ∀ chain, w.chain row.link = some chain →
    ∃ continuation, chain.continuation = some continuation ∧
      Follows w.log bytes row chain continuation

/-- A chain with a continuation. -/
structure Held (w : World) (link : LinkId) (continuation : StaticResponseContinuation) : Prop where
  responded : ∃ bytes, .responded continuation.command bytes ∈ w.log
  own : ∀ row ∈ w.rows, row.command = continuation.command → row.link = link
  others : ∀ row ∈ w.rows, row.link = link → row.command = continuation.command ∨
    continuation.command ∉ w.commands ∧ Harmless row

/-- What the log alone says: responses are given once, and advertised on their own chains,
from the first segment on. -/
structure Logged (issued : List CommandId) (log : List Entry) : Prop where
  respondedIssued : ∀ command bytes, .responded command bytes ∈ log → command ∈ issued
  respondedOnce : ∀ command bytes bytes', .responded command bytes ∈ log →
    .responded command bytes' ∈ log → bytes = bytes'
  advertisedIssued : ∀ a, .advertised a ∈ log → a.command ∈ issued
  begun : ∀ a bytes, .advertised a ∈ log → .responded a.command bytes ∈ log →
    ∃ first, .advertised first ∈ log ∧ first.command = a.command ∧ first.segmentIndex = 1
  chained : Chained log

structure Shape (w : World) : Prop extends Logged w.issued w.log where
  nodup : w.commands.Nodup
  issued : ∀ row ∈ w.rows, row.command ∈ w.issued
  positive : ∀ row ∈ w.rows, 1 ≤ row.segmentIndex
  live : ∀ row ∈ w.rows, ∀ other ∈ w.rows, row.link = other.link →
    row.status.isWaiting = false → other.status.isWaiting = false → row.command = other.command
  tended : ∀ command bytes, .responded command bytes ∈ w.log →
    ∀ row ∈ w.rows, row.command = command → Tended w bytes row
  held : ∀ link chain continuation, w.chain link = some chain →
    chain.continuation = some continuation → Held w link continuation

/-- The command is not that of a static response. -/
def World.Host (w : World) (command : CommandId) : Prop :=
  ∀ bytes, .responded command bytes ∉ w.log

variable {log : List Entry}

theorem Minted.mono {hash : ResourceHash} (h : Minted log command hash)
    (hlog : ∀ entry ∈ log, entry ∈ log') : Minted log' command hash := by
  obtain ⟨first, hfirst, hrest⟩ := h
  exact ⟨first, hlog _ hfirst, hrest⟩

theorem Proper.mono {a : Advertisement} (h : Proper log bytes a)
    (hlog : ∀ entry ∈ log, entry ∈ log') : Proper log' bytes a := by
  obtain ⟨hpositive, hdata, hfirst, hlater⟩ := h
  refine ⟨hpositive, hdata, hfirst, fun hindex => ?_⟩
  obtain ⟨hminted, previous, hprevious, hrest⟩ := hlater hindex
  exact ⟨hminted.mono hlog, previous, hlog _ hprevious, hrest⟩

theorem Tended.mono (h : Tended w bytes row) (hlog : ∀ entry ∈ w.log, entry ∈ w'.log)
    (hchain : ∀ chain, w'.chain row.link = some chain → w.chain row.link = some chain) :
    Tended w' bytes row where
  onWire := h.onWire
  response := h.response
  advertised := by
    obtain ⟨hash, hhash, hmem⟩ := h.advertised
    exact ⟨hash, hhash, hlog _ hmem⟩
  proper hash := (h.proper hash).mono hlog
  follows hindex chain hfound := by
    obtain ⟨continuation, hcontinuation, hfollows⟩ := h.follows hindex chain (hchain chain hfound)
    exact ⟨continuation, hcontinuation, { hfollows with minted := hfollows.minted.mono hlog }⟩

/-! ## Moves -/

theorem responded_snoc (hnew : ∀ command bytes, entry ≠ .responded command bytes)
    (h : .responded command bytes ∈ log ++ [entry]) : .responded command bytes ∈ log := by
  rcases List.mem_append.mp h with hold | hlast
  · exact hold
  · exact absurd (List.mem_singleton.mp hlast).symm (hnew command bytes)

theorem Logged.snoc {issued : List CommandId} (h : Logged issued log)
    (hnew : ∀ command bytes, entry ≠ .responded command bytes)
    (hproper : ∀ a, entry = .advertised a → a.command ∈ issued ∧
      ∀ bytes, .responded a.command bytes ∈ log → Proper log bytes a) :
    Logged issued (log ++ [entry]) where
  respondedIssued command bytes hmem := h.respondedIssued command bytes (responded_snoc hnew hmem)
  respondedOnce command bytes bytes' hmem hmem' :=
    h.respondedOnce command bytes bytes' (responded_snoc hnew hmem) (responded_snoc hnew hmem')
  advertisedIssued a hmem := by
    rcases List.mem_append.mp hmem with hold | hlast
    · exact h.advertisedIssued a hold
    · exact (hproper a (List.mem_singleton.mp hlast).symm).1
  begun a bytes hmem hresponded := by
    have hgiven := responded_snoc hnew hresponded
    have hwas : (∃ first, .advertised first ∈ log ∧ first.command = a.command ∧
        first.segmentIndex = 1) ∨ entry = .advertised a ∧ a.segmentIndex = 1 := by
      rcases List.mem_append.mp hmem with hold | hlast
      · exact Or.inl (h.begun a bytes hold hgiven)
      have hentry := (List.mem_singleton.mp hlast).symm
      obtain ⟨hpositive, -, -, hlater⟩ := (hproper a hentry).2 bytes hgiven
      rcases Nat.eq_or_lt_of_le hpositive with hfirst | hindex
      · exact Or.inr ⟨hentry, hfirst.symm⟩
      · obtain ⟨⟨first, hfirst, hcommand, hone, -⟩, -⟩ := hlater hindex
        exact Or.inl ⟨first, hfirst, hcommand, hone⟩
    rcases hwas with ⟨first, hfirst, hrest⟩ | ⟨hentry, hone⟩
    · exact ⟨first, List.mem_append_left _ hfirst, hrest⟩
    · exact ⟨a, List.mem_append_right _ (List.mem_singleton.mpr hentry.symm), rfl, hone⟩
  chained := h.chained.snoc fun a ha => (hproper a ha).2

variable (h : Shape w)

include h

theorem Shape.record (hnew : ∀ command bytes, entry ≠ .responded command bytes)
    (hproper : ∀ a, entry = .advertised a → a.command ∈ w.issued ∧
      ∀ bytes, .responded a.command bytes ∈ w.log → Proper w.log bytes a) :
    Shape { w with log := w.log ++ [entry] } := by
  have hlog : ∀ e ∈ w.log, e ∈ w.log ++ [entry] := fun e he => List.mem_append_left _ he
  refine ⟨h.toLogged.snoc hnew hproper, h.nodup, h.issued, h.positive, h.live, ?_, ?_⟩
  · intro command bytes hmem row hrow hcommand
    exact (h.tended command bytes (responded_snoc hnew hmem) row hrow hcommand).mono hlog
      fun _ hchain => hchain
  · intro link chain continuation hchain hcontinuation
    have hheld := h.held link chain continuation hchain hcontinuation
    obtain ⟨bytes, hbytes⟩ := hheld.responded
    exact ⟨⟨bytes, hlog _ hbytes⟩, hheld.own, hheld.others⟩

theorem Shape.chains (hrows : w'.rows = w.rows) (hlog : w'.log = w.log)
    (hissued : w'.issued = w.issued)
    (hchain : ∀ row ∈ w.rows, ¬ w.Host row.command → ∀ chain,
      w'.chain row.link = some chain → w.chain row.link = some chain)
    (hheld : ∀ link chain continuation, w'.chain link = some chain →
      chain.continuation = some continuation → w.chain link = some chain) : Shape w' := by
  obtain ⟨rows, chains, links, issued, log⟩ := w'
  cases hrows
  cases hlog
  cases hissued
  refine ⟨h.toLogged, h.nodup, h.issued, h.positive, h.live, ?_, ?_⟩
  · intro command bytes hresponded row hrow hcommand
    exact (h.tended command bytes hresponded row hrow hcommand).mono (fun _ he => he)
      (hchain row hrow fun hhost => hhost bytes (hcommand ▸ hresponded))
  · intro link chain continuation hfound hcontinuation
    have hold := h.held link chain continuation (hheld link chain continuation hfound
      hcontinuation) hcontinuation
    exact ⟨hold.responded, hold.own, hold.others⟩

theorem Shape.settle (command : CommandId) (settlement : Settlement) :
    Shape (w.settle command settlement) :=
  h.record (fun _ _ heq => by cases heq) (fun _ heq => by cases heq)

theorem Shape.sublist (hsub : rows.Sublist w.rows) : Shape { w with rows := rows } := by
  have hmem : ∀ row ∈ rows, row ∈ w.rows := fun row hrow => hsub.subset hrow
  have hcommands : (rows.map Row.command).Sublist w.commands := hsub.map Row.command
  refine ⟨h.toLogged, h.nodup.sublist hcommands, fun row hrow => h.issued row (hmem row hrow),
    fun row hrow => h.positive row (hmem row hrow),
    fun row hrow other hother => h.live row (hmem row hrow) other (hmem other hother), ?_, ?_⟩
  · intro command bytes hresponded row hrow hcommand
    exact (h.tended command bytes hresponded row (hmem row hrow) hcommand).mono
      (fun _ he => he) fun _ hchain => hchain
  intro link chain continuation hchain hcontinuation
  have hheld := h.held link chain continuation hchain hcontinuation
  refine ⟨hheld.responded, fun row hrow => hheld.own row (hmem row hrow), ?_⟩
  intro row hrow hlink
  rcases hheld.others row (hmem row hrow) hlink with hown | ⟨hgone, hharmless⟩
  · exact Or.inl hown
  · exact Or.inr ⟨fun hin => hgone (hcommands.subset hin), hharmless⟩

theorem Shape.erase (i : Nat) : Shape (w.erase i) := h.sublist (List.eraseIdx_sublist _ _)

theorem Shape.clear (link : LinkId) : Shape (w.clear link) := by
  have hchain : ∀ other chain, (w.clear link).chain other = some chain →
      w.chain other = some chain := by
    intro other chain hfound
    rw [chain_clear] at hfound
    split_ifs at hfound
    exact hfound
  exact h.chains rfl rfl rfl (fun row _ _ => hchain row.link) fun other chain _ hfound _ =>
    hchain other chain hfound

theorem Shape.begin (layout : Layout) (link : LinkId) (hash : ResourceHash)
    (hhost : ∀ row ∈ w.rows, row.link = link → w.Host row.command) :
    Shape (w.begin layout link hash) := by
  obtain ⟨hrows, hlog, hissued⟩ := begin_rest layout w link hash
  refine h.chains hrows hlog hissued ?_ ?_
  · intro row hrow hresponse chain hfound
    rcases chain_begin layout w link row.link hash with ⟨hsame, -⟩ | ⟨heq, -⟩
    · rwa [← hsame]
    · exact absurd (hhost row hrow heq) hresponse
  intro other chain continuation hfound hcontinuation
  rcases chain_begin layout w link other hash with ⟨hsame, -⟩ | ⟨-, hnone | hnew⟩
  · rwa [← hsame]
  · rw [hnone] at hfound
    cases hfound
  · rw [hnew] at hfound
    cases hfound
    cases hcontinuation

theorem Shape.push (hissued : row.command ∈ w.issued) (hnew : row.command ∉ w.commands)
    (hhost : w.Host row.command) (hpositive : 1 ≤ row.segmentIndex)
    (hlive : row.status.isWaiting = false → ∀ other ∈ w.rows, other.link ≠ row.link)
    (hheld : ∀ chain continuation, w.chain row.link = some chain →
      chain.continuation = some continuation →
        continuation.command ∉ w.commands ∧ Harmless row) : Shape (w.push row) := by
  have hmem : ∀ {other}, other ∈ (w.push row).rows → other ∈ w.rows ∨ other = row := by
    simp [World.push]
  have hcommands : (w.push row).commands = w.commands ++ [row.command] := List.map_append
  refine ⟨h.toLogged, ?_, ?_, ?_, ?_, ?_, ?_⟩
  · rw [hcommands, ← List.concat_eq_append]
    exact h.nodup.concat hnew
  · exact List.forall_mem_append.mpr ⟨h.issued, List.forall_mem_singleton.mpr hissued⟩
  · exact List.forall_mem_append.mpr ⟨h.positive, List.forall_mem_singleton.mpr hpositive⟩
  · intro first hfirst second hsecond hlink hfirstLive hsecondLive
    rcases hmem hfirst with hold | rfl <;> rcases hmem hsecond with hold' | rfl
    · exact h.live first hold second hold' hlink hfirstLive hsecondLive
    · exact absurd hlink (hlive hsecondLive first hold)
    · exact absurd hlink.symm (hlive hfirstLive second hold')
    · rfl
  · intro command bytes hresponded other hother hcommand
    rcases hmem hother with hold | rfl
    · exact (h.tended command bytes hresponded other hold hcommand).mono (fun _ he => he)
        fun _ hchain => hchain
    · exact absurd (hcommand ▸ hresponded) (hhost bytes)
  · intro link chain continuation hchain hcontinuation
    obtain ⟨⟨bytes, hbytes⟩, hown, hothers⟩ := h.held link chain continuation hchain hcontinuation
    have hother : row.command ≠ continuation.command := fun heq => hhost bytes (heq ▸ hbytes)
    have hchain' : w.chain link = some chain := hchain
    refine ⟨⟨bytes, hbytes⟩, ?_, ?_⟩
    · grind
    · grind

omit h in
theorem commands_set (hrow : w.rows[i]? = some row) (hcommand : next.command = row.command) :
    (w.set i next).commands = w.commands := by
  show (w.rows.set i next).map Row.command = w.rows.map Row.command
  apply List.ext_getElem?
  grind

theorem Shape.set (hrow : w.rows[i]? = some row) (hlink : next.link = row.link)
    (hcommand : next.command = row.command) (hindex : next.segmentIndex = row.segmentIndex)
    (hlive : next.status.isWaiting = false → row.status.isWaiting = false ∨
      ∀ other ∈ w.rows, other.link = row.link → other.status.isWaiting = true)
    (hharmless : ∀ continuation, w.staticContinuation row.link = some continuation →
      Harmless row → Harmless next)
    (htended : ∀ bytes, .responded row.command bytes ∈ w.log → Tended w bytes row →
      Tended (w.set i next) bytes next) : Shape (w.set i next) := by
  have hin : row ∈ w.rows := List.mem_of_getElem? hrow
  have hmem : ∀ {other}, other ∈ (w.set i next).rows → other ∈ w.rows ∨ other = next :=
    fun hother => List.mem_or_eq_of_mem_set hother
  have hcommands := commands_set hrow hcommand
  have hissued : ∀ row ∈ w.rows, row.command ∈ (w.set i next).issued := h.issued
  have hpositive := h.positive
  refine ⟨h.toLogged, by rw [hcommands]; exact h.nodup, by grind, by grind, ?_, ?_, ?_⟩
  · -- The changed row was live already, or no other row of its link is.
    have hchanged : next.status.isWaiting = false → ∀ other ∈ w.rows, other.link = row.link →
        other.status.isWaiting = false → next.command = other.command := by
      intro hnext other hother hsame hwaiting
      rcases hlive hnext with hwas | hnone
      · rw [hcommand]
        exact h.live row hin other hother hsame.symm hwas hwaiting
      · rw [hnone other hother hsame] at hwaiting
        cases hwaiting
    intro first hfirst second hsecond hsame hfirstLive hsecondLive
    rcases hmem hfirst with hold | rfl <;> rcases hmem hsecond with hold' | rfl
    · exact h.live first hold second hold' hsame hfirstLive hsecondLive
    · exact (hchanged hsecondLive first hold (hsame.trans hlink) hfirstLive).symm
    · exact hchanged hfirstLive second hold' (hsame.symm.trans hlink) hsecondLive
    · rfl
  · intro command bytes hresponded other hother hsame
    rcases hmem hother with hold | rfl
    · exact (h.tended command bytes hresponded other hold hsame).mono (fun _ he => he)
        fun _ hchain => hchain
    · have hrow' : .responded row.command bytes ∈ w.log := by
        rw [← hcommand, hsame]
        exact hresponded
      exact htended bytes hrow' (h.tended row.command bytes hrow' row hin rfl)
  · intro link chain continuation hchain hcontinuation
    obtain ⟨hresponded, hown, hothers⟩ := h.held link chain continuation hchain hcontinuation
    have hwaits : row.link = link → w.staticContinuation row.link = some continuation := by
      rintro rfl
      exact (congrArg (Option.bind · Chain.continuation) hchain).trans hcontinuation
    refine ⟨hresponded, ?_, ?_⟩
    · grind
    · grind

end Prns.Ports.OutgoingResources
