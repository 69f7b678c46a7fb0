import Prns.Ports.FlashJournalRuns

/-!
# Crash safety of the journal

Appends and compactions under faults and power losses at any point, in terms of
what the next `open` replays. Both results are read off the invariant of
`FlashJournalRuns.lean` at the state the crash leaves.
-/

namespace Prns.Ports.Journal

open Verified
open Verified.NorFlash

section

variable {g : Geometry} {layout : FlashJournalLayout} {scratchLen : Nat}
  {j : FlashJournal} {l : Ledger}

theorem worldAfter_flash (r : Outcome JournalError Unit × FlashJournal) :
    (worldAfter r).flash = r.2.flash := by
  obtain ⟨outcome, j⟩ := r
  cases outcome with
  | ok a => rfl
  | error e => rfl
  | stopped powered => cases powered <;> rfl

variable {j' : FlashJournal}

theorem Reachable.call (h : Reachable g layout scratchLen ⟨.on j, l⟩) (call : Call)
    (faults : List Fault) (hallowed : Allowed g layout scratchLen l j call)
    {outcome : Outcome JournalError Unit}
    (hrun : call.run g layout { j with flash := facing j.flash faults } = (outcome, j'))
    (hpower : outcome ≠ .stopped false) :
    Reachable g layout scratchLen ⟨.on j', l.after g layout call j j' (returned outcome)⟩ := by
  have hstep := Reachable.step h (Move.call j l call faults hallowed _ hrun)
  cases outcome with
  | ok a => exact hstep
  | error e => exact hstep
  | stopped powered =>
    cases powered with
    | true => exact hstep
    | false => exact absurd rfl hpower

def perform (g : Geometry) (layout : FlashJournalLayout) (s : FlashJournal × Ledger)
    (call : Call) (faults : List Fault) : FlashJournal × Ledger :=
  let r := call.run g layout { s.1 with flash := facing s.1.flash faults }
  (r.2, s.2.after g layout call s.1 r.2 (returned r.1))

/-- The owner may make these calls, and the power stays on. -/
def Permitted (g : Geometry) (layout : FlashJournalLayout) (scratchLen : Nat) :
    FlashJournal × Ledger → List (Call × List Fault) → Prop
  | _, [] => True
  | s, (call, faults) :: calls =>
      Allowed g layout scratchLen s.2 s.1 call ∧
      (call.run g layout { s.1 with flash := facing s.1.flash faults }).1 ≠ .stopped false ∧
      Permitted g layout scratchLen (perform g layout s call faults) calls

instance decidablePermitted (g : Geometry) (layout : FlashJournalLayout) (scratchLen : Nat)
    (s : FlashJournal × Ledger) (calls : List (Call × List Fault)) :
    Decidable (Permitted g layout scratchLen s calls) :=
  match calls with
  | [] => inferInstanceAs (Decidable True)
  | (call, faults) :: calls =>
      have := decidablePermitted g layout scratchLen (perform g layout s call faults) calls
      inferInstanceAs (Decidable (_ ∧ _ ∧ _))

def performAll (g : Geometry) (layout : FlashJournalLayout) (s : FlashJournal × Ledger)
    (calls : List (Call × List Fault)) : FlashJournal × Ledger :=
  calls.foldl (fun s call => perform g layout s call.1 call.2) s

theorem Reachable.performAll {s : FlashJournal × Ledger} {calls : List (Call × List Fault)}
    (h : Reachable g layout scratchLen ⟨.on s.1, s.2⟩)
    (hcalls : Permitted g layout scratchLen s calls) :
    Reachable g layout scratchLen
      ⟨.on (performAll g layout s calls).1, (performAll g layout s calls).2⟩ := by
  induction calls generalizing s with
  | nil => exact h
  | cons call calls ih =>
    obtain ⟨hallowed, hpower, hrest⟩ := hcalls
    exact ih (h.call call.1 call.2 hallowed rfl hpower) hrest

/-! ## Appends -/

/-- Appends that were acknowledged one after the other, each under some faults. -/
inductive Acknowledged (g : Geometry) (layout : FlashJournalLayout) (scratchLen : Nat)
    (start : FlashJournal) : List Record → FlashJournal → Prop where
  | nil : Acknowledged g layout scratchLen start [] start
  | snoc {records : List Record} {j j' : FlashJournal} {cursor : ArenaCursor}
      (h : Acknowledged g layout scratchLen start records j) (faults : List Fault)
      (kind : RecordKind) (payload : List UInt8) (hfits : Fits g scratchLen payload)
      (hactive : j.active = some cursor)
      (hrun : FlashJournal.append g layout kind payload
        { j with flash := facing j.flash faults } = (.ok (), j')) :
      Acknowledged g layout scratchLen start (records ++ [⟨cursor.epoch, kind, payload⟩]) j'

theorem not_refused {flash : Device} {kind : RecordKind} {payload : List UInt8}
    {cursor : ArenaCursor} (hactive : j.active = some cursor)
    (hrun : FlashJournal.append g layout kind payload { j with flash } = (.ok (), j')) :
    ¬ (kind = .arenaCommit ∨ j.compaction.isSome = true ∨
      accepts g (layout.arenas cursor.index) cursor payload.length = false) := by
  intro hrefused
  have hall : ∀ cursor', ({ j with flash } : FlashJournal).active = some cursor' →
      kind = .arenaCommit ∨ ({ j with flash } : FlashJournal).compaction.isSome = true ∨
        accepts g (layout.arenas cursor'.index) cursor' payload.length = false := by
    intro cursor' hcursor
    rw [show cursor' = cursor from Option.some.inj (hcursor.symm.trans hactive)]
    exact hrefused
  obtain ⟨e, he⟩ := append_refused kind payload hall
  rw [he] at hrun
  exact nomatch hrun

theorem Acknowledged.reachable {start : FlashJournal} {records : List Record}
    (h : Acknowledged g layout scratchLen start records j)
    (hstart : Reachable g layout scratchLen ⟨.on start, l⟩) :
    Reachable g layout scratchLen ⟨.on j, { l with acked := l.acked ++ records }⟩ := by
  induction h with
  | nil =>
    rw [List.append_nil]
    exact hstart
  | snoc h faults kind payload hfits hactive hrun ih =>
    have hcall := ih.call (.append kind payload) faults hfits hrun nofun
    simp only [Ledger.after, hactive] at hcall
    rw [if_neg (not_refused hactive hrun),
      List.append_assoc] at hcall
    exact hcall

/-- What the owner may rely on after one more append. -/
theorem ledger_after_append (l : Ledger) (kind : RecordKind) (payload : List UInt8)
    (j' : FlashJournal) (ret : Bool) :
    l.after g layout (.append kind payload) j j' ret = l ∨ ∃ cursor, j.active = some cursor ∧
        (l.after g layout (.append kind payload) j j' ret =
            { l with acked := l.acked ++ [⟨cursor.epoch, kind, payload⟩] } ∨
          l.after g layout (.append kind payload) j j' ret =
            { l with inFlight := some ⟨cursor.epoch, kind, payload⟩ }) := by
  unfold Ledger.after
  cases hactive : j.active with
  | none => exact Or.inl rfl
  | some cursor =>
    simp only
    split
    · exact Or.inl rfl
    right
    refine ⟨cursor, rfl, ?_⟩
    cases ret with
    | true => exact Or.inl rfl
    | false => exact Or.inr rfl

theorem Recovered.replayed {cells : Image} {o : Opened} (h : Recovered cells l o)
    (hcommitAt : l.commitAt = none) :
    o.replayed = l.acked ∨ ∃ r, l.inFlight = some r ∧ o.replayed = l.acked ++ [r] := by
  rcases h with hold | ⟨pos, hpos, -⟩
  · exact hold.2
  · rw [hcommitAt] at hpos
    exact nomatch hpos

/-- Appends are crash safe. Whatever happened to a journal before, no write ever
addressed a cell that was not erased; and after it is opened, any acknowledged
appends and one more append that runs into anything, opening it again replays what
was replayed before and the acknowledged records in order, then possibly the last
record as it was given, and nothing else. -/
theorem append_crash_safe (hvalid : validate g layout scratchLen = none)
    (hread : g.eraseSize % g.readSize = 0) :
    (∀ s, Reachable g layout scratchLen s → s.world.flash.clean = true) ∧
    ∀ (d d' : Device) (l : Ledger) (o : Opened) (records : List Record) (j : FlashJournal)
      (kind : RecordKind) (payload : List UInt8) (faults faults' : List Fault),
      Reachable g layout scratchLen ⟨.off d, l⟩ →
      openFlash g layout scratchLen (facing d faults) = (.ok o, d') →
      Acknowledged g layout scratchLen ⟨d', o.active, none⟩ records j →
      Fits g scratchLen payload →
      ∃ o' flash, flash = (FlashJournal.append g layout kind payload
          { j with flash := facing j.flash faults' }).2.flash ∧
        openFlash g layout scratchLen flash.quiet = (.ok o', flash.quiet) ∧
        (o'.replayed = o.replayed ++ records ∨ ∃ cursor, j.active = some cursor ∧
            o'.replayed = o.replayed ++ records ++ [⟨cursor.epoch, kind, payload⟩]) := by
  have hs := sound_of_validate hvalid hread
  refine ⟨fun s h => (h.inv hs).clean, ?_⟩
  intro d d' l o records j kind payload faults faults' hoff hopen hacked hfits
  have hopened := Reachable.step hoff (.opened d d' l faults o hopen)
  have hon := hacked.reachable hopened
  have hlast := Reachable.step hon (.call j _ (.append kind payload) faults' hfits _ rfl)
  have hflash := (hlast.inv hs).flash
  simp only [worldAfter_flash] at hflash
  obtain ⟨o', hreopen, hrecovered, -⟩ := hflash.reopens hs
  refine ⟨o', _, rfl, hreopen, ?_⟩
  -- one more append adds its record or nothing
  rcases ledger_after_append _ kind payload _ _ with hafter | ⟨cursor, hactive, hafter | hafter⟩
  all_goals
    rw [hafter] at hrecovered
    rcases hrecovered.replayed rfl with hacked | ⟨r, hr, hreplayed⟩
  · exact Or.inl hacked
  · exact nomatch hr
  · exact Or.inr ⟨cursor, hactive, hacked⟩
  · exact nomatch hr
  · exact Or.inl hacked
  · injection hr with hr
    rw [← hr] at hreplayed
    exact Or.inr ⟨cursor, hactive, hreplayed⟩

/-- Compactions are atomic. After any calls under any faults, with any number of
compactions begun and abandoned before, opening the flash selects the arena in use
and replays its records, or, only if the commit record of the last compaction is
complete, selects the arena it was compacted into and replays exactly the compacted
records; and all records it replays are of the epoch it selects. -/
theorem compaction_atomic (hvalid : validate g layout scratchLen = none)
    (hread : g.eraseSize % g.readSize = 0) (s : State) (h : Reachable g layout scratchLen s) :
    ∃ o, openFlash g layout scratchLen s.world.flash.quiet = (.ok o, s.world.flash.quiet) ∧
      Recovered s.world.flash.cells s.ledger o ∧
      ∀ r ∈ o.replayed, o.place.map Prod.snd = some r.epoch := by
  have hs := sound_of_validate hvalid hread
  exact (h.inv hs).flash.reopens hs

end

/-- Two arenas of one sector each. -/
def sampleGeometry : Geometry := ⟨1, 4, 128, 512⟩

def sampleLayout : FlashJournalLayout :=
  ⟨perSide 0 128, perSide ⟨256, 384⟩ ⟨384, 512⟩⟩

def blankJournal : FlashJournal × Ledger := (⟨blankFlash, none, none⟩, .inUse none [])

theorem openFlash_blank : openFlash sampleGeometry sampleLayout 8 blankFlash =
    (.ok ⟨none, ⟨none, 0, none⟩, []⟩, blankFlash) :=
  (reads_openFlash sampleGeometry sampleLayout 8).quiet blankFlash _ (by decide +kernel)

theorem reachable_blank : Reachable sampleGeometry sampleLayout 8
    ⟨.on blankJournal.1, blankJournal.2⟩ :=
  .step (.start ⟨blankFlash, _, rfl, rfl, openFlash_blank, nofun⟩)
    (.opened blankFlash blankFlash _ [] _ openFlash_blank)

/-- A journal that was just initialised. -/
def freshJournal : FlashJournal × Ledger :=
  performAll sampleGeometry sampleLayout blankJournal [(.initializeEmpty, [])]

/-- The same flash after a power loss, opened. -/
def reopenedJournal : FlashJournal :=
  ⟨freshJournal.1.flash.quiet, some ⟨.first, 0, 288⟩, none⟩

theorem fresh_evaluates :
    Permitted sampleGeometry sampleLayout 8 blankJournal [(.initializeEmpty, [])] ∧
      (freshJournal.1.active = some ⟨.first, 0, 288⟩ ∧ freshJournal.1.compaction = none) ∧
      (openFlash sampleGeometry sampleLayout 8 freshJournal.1.flash).1 =
        .ok ⟨some ⟨.first, 0, 288⟩, ⟨some 0, 0, none⟩, []⟩ ∧
      (reopenedJournal.append sampleGeometry sampleLayout .nodeName [7]).1 = .ok () := by
  decide +kernel

theorem reachable_fresh : Reachable sampleGeometry sampleLayout 8
    ⟨.on freshJournal.1, freshJournal.2⟩ :=
  reachable_blank.performAll fresh_evaluates.1

/-- The journal with a record appended, without faults. -/
def namedJournal : FlashJournal :=
  (reopenedJournal.append sampleGeometry sampleLayout .nodeName [7]).2

theorem acknowledged_named : Acknowledged sampleGeometry sampleLayout 8 reopenedJournal
    [⟨0, .nodeName, [7]⟩] namedJournal := by
  have hnil : Acknowledged sampleGeometry sampleLayout 8 reopenedJournal [] reopenedJournal := .nil
  exact hnil.snoc [] .nodeName [7] (by decide) rfl (Prod.ext fresh_evaluates.2.2.2 rfl)

/-- One record was acknowledged, and the power went nine bytes into the header of the
next one. -/
theorem append_crash_safe_torn :
    ∃ o flash, flash = (FlashJournal.append sampleGeometry sampleLayout .nodeName [8]
        { namedJournal with flash := facing namedJournal.flash [.stop false 9] }).2.flash ∧
      openFlash sampleGeometry sampleLayout 8 flash.quiet = (.ok o, flash.quiet) ∧
      (o.replayed = [] ++ [⟨0, .nodeName, [7]⟩] ∨ ∃ cursor, namedJournal.active = some cursor ∧
        o.replayed = [] ++ [⟨0, .nodeName, [7]⟩] ++ [⟨cursor.epoch, .nodeName, [8]⟩]) :=
  (append_crash_safe (by decide) (by decide)).2 _ _ _ _ _ _ _ _ [] _
    (reachable_fresh.step (.powerLoss freshJournal.1 freshJournal.2))
    ((reads_openFlash sampleGeometry sampleLayout 8).quiet _ _ fresh_evaluates.2.2.1)
    acknowledged_named (by decide)

/-- A compaction of one record, with the power lost after the last byte of its
commit record. -/
def cutCompaction : FlashJournal × Ledger :=
  performAll sampleGeometry sampleLayout freshJournal
    [(.append .nodeName [7], []), (.eraseInactiveSector 0, []), (.beginCompaction, []),
      (.appendCompacted .nodeName [8], []), (.commitCompaction, [.none, .none, .stop true 4])]

theorem compaction_atomic_cut : cutCompaction.2.attempt = [⟨1, .nodeName, [8]⟩] ∧
      ∃ o, openFlash sampleGeometry sampleLayout 8 cutCompaction.1.flash.quiet =
          (.ok o, cutCompaction.1.flash.quiet) ∧
        Recovered cutCompaction.1.flash.cells cutCompaction.2 o ∧
        ∀ r ∈ o.replayed, o.place.map Prod.snd = some r.epoch :=
  ⟨by decide +kernel, compaction_atomic (by decide) (by decide)
    ⟨.off cutCompaction.1.flash, cutCompaction.2⟩
    ((reachable_fresh.performAll (by decide +kernel)).step (.powerLoss _ _))⟩

end Prns.Ports.Journal
