/-!
# Interruptible actions

An action changes a state and either returns, fails, or is interrupted. A caller
that outlives an interruption (its task was dropped) still has the state; one that
does not (power was lost) has only what the state makes durable. Either way the
state an interrupted action leaves is what matters, so the correctness judgment
has two postconditions: one for the return, one for every other exit.
-/

namespace Prns.Verified

/-- How an action ends. `stopped` says whether the machine is still powered. -/
inductive Outcome (ε α : Type) where
  | ok (a : α)
  | error (e : ε)
  | stopped (powered : Bool)
  deriving DecidableEq, Repr

def Act (σ ε α : Type) : Type := σ → Outcome ε α × σ

namespace Act

variable {σ τ ε ε' α β : Type}

def andThen (f : Act σ ε α) (k : α → Act σ ε β) : Act σ ε β := fun s =>
  match f s with
  | (.ok a, s') => k a s'
  | (.error e, s') => (.error e, s')
  | (.stopped powered, s') => (.stopped powered, s')

instance : Monad (Act σ ε) where
  pure a := fun s => (.ok a, s)
  bind := andThen

def fail (e : ε) : Act σ ε α := fun s => (.error e, s)

def mapError (m : ε → ε') (f : Act σ ε α) : Act σ ε' α := fun s =>
  match f s with
  | (.ok a, s') => (.ok a, s')
  | (.error e, s') => (.error (m e), s')
  | (.stopped powered, s') => (.stopped powered, s')

def ofExcept : Except ε α → Act σ ε α
  | .ok a => pure a
  | .error e => fail e

/-- Turn a failure into a value; an interruption stays one. -/
def attempt (f : Act σ ε α) : Act σ ε' (Except ε α) := fun s =>
  match f s with
  | (.ok a, s') => (.ok (.ok a), s')
  | (.error e, s') => (.ok (.error e), s')
  | (.stopped powered, s') => (.stopped powered, s')

/-- Run an action on a part of the state. -/
def zoom (part : σ → τ) (replace : σ → τ → σ) (f : Act τ ε α) : Act σ ε α := fun s =>
  ((f (part s)).1, replace s (f (part s)).2)

theorem pure_apply (a : α) (s : σ) : (pure a : Act σ ε α) s = (.ok a, s) := rfl

theorem bind_apply (f : Act σ ε α) (k : α → Act σ ε β) (s : σ) : (f >>= k) s = andThen f k s := rfl

variable {k : α → Act σ ε β} {s' : σ} {a : α} {f : Act σ ε α} {s : σ} {m : ε → ε'}

theorem bind_ok (h : f s = (.ok a, s')) : (f >>= k) s = k a s' := by
  rw [bind_apply, andThen, h]

theorem of_bind_ok {b : β} (h : ((f >>= k) s).1 = .ok b) :
    ∃ a s', f s = (.ok a, s') ∧ (k a s').1 = .ok b := by
  rw [bind_apply, andThen] at h
  split at h
  · exact ⟨_, _, ‹_›, h⟩
  · cases h
  · cases h

theorem mapError_ok (h : f s = (.ok a, s')) : mapError m f s = (.ok a, s') := by
  rw [mapError, h]

theorem of_ofExcept {r : Except ε α} (h : ofExcept r s = (.ok a, s')) : r = .ok a ∧ s = s' := by
  cases r with
  | ok b =>
    cases h
    exact ⟨rfl, rfl⟩
  | error e => cases h

/-! ## Postconditions -/

/-- From `s`, the action returns into `Q` or leaves otherwise into `X`. -/
def Ensures (f : Act σ ε α) (s : σ) (Q : α → σ → Prop) (X : σ → Prop) : Prop :=
  match f s with
  | (.ok a, s') => Q a s'
  | (.error _, s') => X s'
  | (.stopped _, s') => X s'

variable {f : Act σ ε α} {Q Q' : α → σ → Prop} {X X' : σ → Prop}

variable (h : Ensures f s Q X)
include h

theorem Ensures.mono (hQ : ∀ a s', Q a s' → Q' a s')
    (hX : ∀ s', X s' → X' s') : Ensures f s Q' X' := by
  unfold Ensures at *
  split <;> rename_i heq <;> rw [heq] at h
  · exact hQ _ _ h
  · exact hX _ h
  · exact hX _ h

theorem Ensures.weaken (hX : ∀ s', X s' → X' s') : Ensures f s Q X' :=
  h.mono (fun _ _ hq => hq) hX

omit h in
theorem ensures_pure (h : Q a s) : Ensures (pure a : Act σ ε α) s Q X := h

omit h in
theorem ensures_fail {e : ε} (h : X s) : Ensures (fail e : Act σ ε α) s Q X := h

theorem Ensures.bind {R : β → σ → Prop}
    (hk : ∀ a s', Q a s' → Ensures (k a) s' R X) : Ensures (f >>= k) s R X := by
  unfold Ensures at h
  rw [Ensures, bind_apply, andThen]
  generalize f s = result at h ⊢
  obtain ⟨_ | _ | _, s'⟩ := result
  · exact hk _ s' h
  · exact h
  · exact h

theorem Ensures.mapError : Ensures (Act.mapError m f) s Q X := by
  unfold Ensures at h
  rw [Ensures, Act.mapError]
  generalize f s = result at h ⊢
  obtain ⟨_ | _ | _, s'⟩ := result <;> exact h

theorem Ensures.attempt : Ensures (Act.attempt f : Act σ ε' (Except ε α)) s
      (fun r s' => match r with
        | .ok a => Q a s'
        | .error _ => X s') X := by
  unfold Ensures at h
  rw [Ensures, Act.attempt]
  generalize f s = result at h ⊢
  obtain ⟨_ | _ | _, s'⟩ := result <;> exact h

theorem Ensures.attempt_bind {k : Except ε α → Act σ ε' β} {R : β → σ → Prop}
    (hstop : ∀ s', X s' → X' s')
    (herror : ∀ e s', X s' → Ensures (k (.error e)) s' R X')
    (hok : ∀ a s', Q a s' → Ensures (k (.ok a)) s' R X') :
    Ensures (Act.attempt f >>= k) s R X' := by
  refine (h.attempt.weaken hstop).bind ?_
  rintro (e | a) s' hs
  · exact herror e s' hs
  · exact hok a s' hs

theorem Ensures.cases :
    (∃ a, (f s).1 = .ok a ∧ Q a (f s).2) ∨ ((∀ a, (f s).1 ≠ .ok a) ∧ X (f s).2) := by
  unfold Ensures at h
  generalize f s = result at h ⊢
  obtain ⟨_ | _ | _, s'⟩ := result
  · exact Or.inl ⟨_, rfl, h⟩
  · exact Or.inr ⟨nofun, h⟩
  · exact Or.inr ⟨nofun, h⟩

omit h

theorem Ensures.state {P : σ → Prop} (h : Ensures f s (fun _ => P) P) : P (f s).2 := by
  rcases h.cases with ⟨a, -, hs⟩ | ⟨-, hs⟩ <;> exact hs

/-! ## Searching loops

`for i in is { if let Some(a) = f(i)? { return Ok(Some(a)); } } Ok(None)` -/

section

variable {ι : Type} {f : ι → Act σ ε (Option α)} {is : List ι}

def firstOf (f : ι → Act σ ε (Option α)) : List ι → Act σ ε (Option α)
  | [] => pure none
  | i :: is => do
    match ← f i with
    | some a => pure (some a)
    | none => firstOf f is

theorem firstOf_eq {p : ι → Option α} (h : ∀ i ∈ is, f i s = (.ok (p i), s)) :
    firstOf f is s = (.ok (is.findSome? p), s) := by
  induction is with
  | nil => rfl
  | cons i is ih =>
    rw [firstOf, bind_ok (h i List.mem_cons_self)]
    cases hp : p i with
    | some a => rw [List.findSome?_cons, hp]; rfl
    | none =>
      rw [List.findSome?_cons, hp]
      exact ih fun j hj => h j (List.mem_cons_of_mem _ hj)

/-- The candidates of a calm search that returns, up to the first hit. -/
theorem firstOf_cases {r : Option α} (hstay : ∀ i ∈ is, (f i s).2 = s)
    (h : (firstOf f is s).1 = .ok r) :
    (∀ a, r = some a → ∃ i ∈ is, f i s = (.ok (some a), s)) ∧
      (r = none → ∀ i ∈ is, f i s = (.ok none, s)) := by
  induction is with
  | nil =>
    have hr : (Outcome.ok none : Outcome ε (Option α)) = .ok r := h
    injection hr with hr
    subst hr
    exact ⟨nofun, fun _ i hi => absurd hi List.not_mem_nil⟩
  | cons i is ih =>
    obtain ⟨r', s', hi, hrest⟩ := of_bind_ok h
    obtain rfl : s' = s := by
      have hs := hstay i List.mem_cons_self
      rw [hi] at hs
      exact hs
    cases r' with
    | some a =>
      have hr : (Outcome.ok (some a) : Outcome ε (Option α)) = .ok r := hrest
      injection hr with hr
      subst hr
      exact ⟨fun b hb => ⟨i, List.mem_cons_self, by rw [← hb]; exact hi⟩, nofun⟩
    | none =>
      obtain ⟨hsome, hnone⟩ := ih (fun j hj => hstay j (List.mem_cons_of_mem _ hj)) hrest
      refine ⟨fun a ha => ?_, fun hr => List.forall_mem_cons.mpr ⟨hi, hnone hr⟩⟩
      obtain ⟨j, hj, hfj⟩ := hsome a ha
      exact ⟨j, List.mem_cons_of_mem _ hj, hfj⟩

theorem firstOf_congr (h : ∀ i ∈ is, (f i s).2 = s ∧ (f i s').2 = s' ∧
    (f i s').1 = (f i s).1) : (firstOf f is s').1 = (firstOf f is s).1 := by
  induction is with
  | nil => rfl
  | cons i is ih =>
    obtain ⟨hs, hs', heq⟩ := h i List.mem_cons_self
    have hrest := ih fun j hj => h j (List.mem_cons_of_mem _ hj)
    have hfs : f i s = ((f i s).1, s) := Prod.ext rfl hs
    have hfs' : f i s' = ((f i s).1, s') := Prod.ext heq hs'
    rw [firstOf, bind_apply, bind_apply, andThen, andThen, hfs, hfs']
    cases (f i s).1 with
    | ok r =>
      cases r with
      | some a => rfl
      | none => exact hrest
    | error e => rfl
    | stopped powered => rfl

end

theorem bind_fst_congr (hf : (f s').1 = (f s).1)
    (hk : ∀ a t t', (k a t').1 = (k a t).1) : ((f >>= k) s').1 = ((f >>= k) s).1 := by
  have hs' : f s' = ((f s).1, (f s').2) := Prod.ext hf rfl
  rw [bind_apply, bind_apply, andThen, andThen, hs']
  cases f s with
  | mk outcome t =>
    cases outcome with
    | ok a => exact hk a t _
    | error e => rfl
    | stopped powered => rfl

/-! ## Actions that only look

`calm` forgets what may still go wrong. -/

/-- The action leaves the calm state alone, and if it returns, it returns what it would have
returned there. -/
structure Calm (calm : σ → σ) (f : Act σ ε α) : Prop where
  keeps : ∀ s, calm (f s).2 = calm s
  returns : ∀ s a, (f s).1 = .ok a → f (calm s) = (.ok a, calm s)

section

variable {calm : σ → σ}

theorem Calm.ensures (hf : Calm calm f) (s : σ) : Ensures f s
      (fun a s' => calm s' = calm s ∧ f (calm s) = (.ok a, calm s) ∧ (calm s = s → s' = s))
      (fun s' => calm s' = calm s) := by
  have hkeeps := hf.keeps s
  have hreturns := hf.returns s
  unfold Ensures
  split <;> rename_i hfs <;> rw [hfs] at hkeeps hreturns
  · have hstay := hreturns _ rfl
    refine ⟨hkeeps, hstay, fun hcalm => ?_⟩
    rw [hcalm, hfs] at hstay
    exact (Prod.mk.inj hstay).2
  · exact hkeeps
  · exact hkeeps

theorem calm_pure (a : α) : Calm calm (pure a : Act σ ε α) where
  keeps _ := rfl
  returns s b h := by
    rw [pure_apply] at h ⊢
    rw [show (Outcome.ok a : Outcome ε α) = .ok b from h]

theorem calm_fail (e : ε) : Calm calm (fail e : Act σ ε α) where
  keeps _ := rfl
  returns _ _ h := nomatch h

theorem calm_ofExcept (r : Except ε α) : Calm calm (ofExcept r : Act σ ε α) := by
  cases r with
  | ok a => exact calm_pure a
  | error e => exact calm_fail e

theorem Calm.bind (hf : Calm calm f) (hk : ∀ a, Calm calm (k a)) : Calm calm (f >>= k) where
  keeps s := by
    have hkeeps := hf.keeps s
    rw [bind_apply, andThen]
    generalize f s = result at hkeeps ⊢
    obtain ⟨_ | _ | _, s'⟩ := result
    · exact ((hk _).keeps s').trans hkeeps
    · exact hkeeps
    · exact hkeeps
  returns s b h := by
    have hkeeps := hf.keeps s
    obtain ⟨a, s', hfs, hks⟩ := of_bind_ok h
    rw [hfs] at hkeeps
    have hsecond := (hk a).returns s' b hks
    rw [show calm s' = calm s from hkeeps] at hsecond
    rw [bind_ok (hf.returns s a (by rw [hfs])), hsecond]

theorem Calm.mapError (hf : Calm calm f) : Calm calm (Act.mapError m f) where
  keeps s := by
    have hkeeps := hf.keeps s
    rw [Act.mapError]
    generalize f s = result at hkeeps ⊢
    obtain ⟨_ | _ | _, s'⟩ := result <;> exact hkeeps
  returns s b h := by
    rw [Act.mapError] at h
    split at h
    · rename_i hfs
      cases h
      exact mapError_ok (hf.returns s b (by rw [hfs]))
    · cases h
    · cases h

theorem calm_firstOf {ι : Type} {f : ι → Act σ ε (Option α)} (hf : ∀ i, Calm calm (f i))
    (is : List ι) : Calm calm (firstOf f is) := by
  induction is with
  | nil => exact calm_pure none
  | cons i is ih =>
    refine (hf i).bind fun r => ?_
    cases r with
    | some a => exact calm_pure (some a)
    | none => exact ih

end

end Act

end Prns.Verified
