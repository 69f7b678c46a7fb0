import Mathlib.Data.List.Basic

/-!
# Histories

A history is a list of events, oldest first, that grows at its end. Two forms of
statement recur over histories: that every event was preceded by what it needed
(`Everywhere`), and that an event of one kind stands in the history with only events of
another kind after it (`Since`; `After` if it matters what came before it). The lemmas
say how each passes from a history to the history with one more event.
-/

namespace Prns.Verified

variable {α : Type*}

theorem split_snoc {history before after : List α} {event x : α}
    (h : history ++ [event] = before ++ x :: after) :
    before = history ∧ x = event ∨ ∃ rest, history = before ++ x :: rest := by
  rcases List.eq_nil_or_concat after with hnil | ⟨rest, last, hlast⟩
  · subst hnil
    have hsplit := List.append_inj' h rfl
    exact Or.inl ⟨hsplit.1.symm, by simpa using hsplit.2.symm⟩
  subst hlast
  have hsplit : history ++ [event] = (before ++ x :: rest) ++ [last] := by
    rw [h]
    simp
  exact Or.inr ⟨rest, (List.append_inj' hsplit rfl).1⟩

def Everywhere (R : List α → α → Prop) (history : List α) : Prop :=
  ∀ before event after, history = before ++ event :: after → R before event

variable {R : List α → α → Prop}

theorem Everywhere.nil : Everywhere R [] := by
  intro before event after h
  cases before <;> cases h

theorem Everywhere.snoc {history : List α} {event : α} (h : Everywhere R history)
    (hevent : R history event) : Everywhere R (history ++ [event]) := by
  intro before x after hsplit
  rcases split_snoc hsplit with ⟨hbefore, hx⟩ | ⟨rest, hrest⟩
  · rw [hbefore, hx]
    exact hevent
  · exact h before x rest hrest

/-- The history ends with `since`, after an event with `P`; the events of `since` have
`Q`. -/
def Since (P Q : α → Prop) (history since : List α) : Prop :=
  ∃ earlier event, history = earlier ++ event :: since ∧ P event ∧ ∀ later ∈ since, Q later

variable {Q : α → Prop} {history : List α} {event : α}

namespace Since

variable {P : α → Prop} {since : List α}

theorem now (history : List α) (h : P event) : Since P Q (history ++ [event]) [] :=
  ⟨history, event, rfl, h, fun _ hmem => absurd hmem List.not_mem_nil⟩

theorem snoc (h : Since P Q history since) (hevent : Q event) :
    Since P Q (history ++ [event]) (since ++ [event]) := by
  obtain ⟨earlier, first, hhistory, hfirst, hsince⟩ := h
  refine ⟨earlier, first, by simp [hhistory], hfirst, ?_⟩
  intro later hlater
  rcases List.mem_append.mp hlater with hold | hnew
  · exact hsince later hold
  · rw [List.mem_singleton.mp hnew]
    exact hevent

/-- An event that has neither property stands before the one that `since` follows. -/
theorem exists_between {before between : List α} (h : Since P Q history since)
    (hhistory : history = before ++ event :: between) (hP : ¬ P event) (hQ : ¬ Q event) :
    ∃ first ∈ between, P first := by
  obtain ⟨earlier, first, hsplit, hfirst, hsince⟩ := h
  rw [hhistory] at hsplit
  rcases List.append_eq_append_iff.mp hsplit with ⟨middle, hmiddle, hrest⟩ | ⟨middle, hmiddle, hrest⟩
  · cases middle with
    | nil =>
      cases hrest
      exact absurd hfirst hP
    | cons x middle =>
      injection hrest with _ hbetween
      exact ⟨first, by rw [hbetween]; simp, hfirst⟩
  · cases middle with
    | nil =>
      cases hrest
      exact absurd hfirst hP
    | cons x middle =>
      injection hrest with _ hsince'
      exact absurd (hsince event (by rw [hsince']; simp)) hQ

end Since

/-- An event that is related to what came before it stands in the history, and the events
after it have `Q`. -/
def After (R : List α → α → Prop) (Q : α → Prop) (history : List α) : Prop :=
  ∃ before event after, history = before ++ event :: after ∧ R before event ∧
    ∀ later ∈ after, Q later

namespace After

theorem now (h : R history event) : After R Q (history ++ [event]) :=
  ⟨history, event, [], rfl, h, fun _ hmem => absurd hmem List.not_mem_nil⟩

theorem snoc (h : After R Q history) (hevent : Q event) : After R Q (history ++ [event]) := by
  obtain ⟨before, first, after, hhistory, hfirst, hafter⟩ := h
  refine ⟨before, first, after ++ [event], by simp [hhistory], hfirst, ?_⟩
  intro later hlater
  rcases List.mem_append.mp hlater with hold | hnew
  · exact hafter later hold
  · rw [List.mem_singleton.mp hnew]
    exact hevent

end After

end Prns.Verified
