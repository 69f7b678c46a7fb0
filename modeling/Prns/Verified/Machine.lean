/-!
# Event machines

A machine reads one symbol at a time; every symbol moves the state and emits a
finite list of events. A byte decoder is such a machine over bytes. A bulk
decoder is one as well, over whole chunks: its symbols are byte lists.

The facts the developments above need are that a run splits at any point of its
input (`run_append`), that a bulk machine whose every chunk behaves like the byte
machine behaves like it on every cutting of the stream (`run_chunks`), and that a
loop which asks a decoder for its next answer until the chunk is used up is such a
bulk machine (`drain_eq_run`).
-/

namespace Prns.Verified.Machine

variable {σ β ε : Type}

/-- Feed the symbols in order, concatenating the events. -/
def run (step : σ → β → List ε × σ) : σ → List β → List ε × σ
  | s, [] => ([], s)
  | s, b :: bs =>
      ((step s b).1 ++ (run step (step s b).2 bs).1,
        (run step (step s b).2 bs).2)

variable (step : σ → β → List ε × σ)

@[simp] theorem run_nil (s : σ) : run step s [] = ([], s) := rfl

theorem run_cons (s : σ) (b : β) (bs : List β) : run step s (b :: bs) =
      ((step s b).1 ++ (run step (step s b).2 bs).1, (run step (step s b).2 bs).2) := rfl

theorem run_append (s : σ) (xs ys : List β) : run step s (xs ++ ys) =
      ((run step s xs).1 ++ (run step (run step s xs).2 ys).1,
        (run step (run step s xs).2 ys).2) := by
  induction xs generalizing s with
  | nil => simp
  | cons x xs ih =>
    rw [List.cons_append, run_cons, ih, run_cons]
    simp only [List.append_assoc]

theorem run_chunks (bulk : σ → List β → List ε × σ)
    (hbulk : ∀ s chunk, bulk s chunk = run step s chunk) (s : σ) (chunks : List (List β)) :
    run bulk s chunks = run step s chunks.flatten := by
  induction chunks generalizing s with
  | nil => rfl
  | cons chunk chunks ih =>
    rw [run_cons, hbulk, ih, List.flatten_cons, run_append]

/-! ## Decoders

A decoder answers every symbol with an error, a finished item, or nothing yet. -/

section

variable {α : Type}

/-- The events one answer stands for. -/
def answerEvents : Except ε (Option α) → List (Except ε α)
  | .ok none => []
  | .ok (some a) => [.ok a]
  | .error e => [.error e]

def decoderStep (feed : σ → β → Except ε (Option α) × σ) (s : σ) (b : β) :
    List (Except ε α) × σ :=
  (answerEvents (feed s b).1, (feed s b).2)

/-- Feed until there is an answer, or to the end of the input. Returns the answer and
the input that is left. -/
def nextAnswer (feed : σ → β → Except ε (Option α) × σ) :
    List β → σ → Except ε (Option α) × List β × σ
  | [], s => (.ok none, [], s)
  | b :: rest, s =>
      match feed s b with
      | (.ok none, s') => nextAnswer feed rest s'
      | (.ok (some a), s') => (.ok (some a), rest, s')
      | (.error e, s') => (.error e, rest, s')

/-- Ask for answers until the chunk is used up. -/
def drain (next : List β → σ → Except ε (Option α) × List β × σ) (s : σ)
    (chunk : List β) : List (Except ε α) × σ :=
  drainFuel chunk.length s chunk
where
  /-- Every answer but the last uses up a symbol, so the length of the chunk is fuel
  enough. -/
  drainFuel : Nat → σ → List β → List (Except ε α) × σ
    | 0, s, _ => ([], s)
    | fuel + 1, s, chunk =>
        match next chunk s with
        | (.ok none, _, s') => ([], s')
        | (.ok (some a), rest, s') =>
            (.ok a :: (drainFuel fuel s' rest).1, (drainFuel fuel s' rest).2)
        | (.error e, rest, s') =>
            (.error e :: (drainFuel fuel s' rest).1, (drainFuel fuel s' rest).2)

variable {feed : σ → β → Except ε (Option α) × σ}

theorem run_nextAnswer (s : σ) (chunk : List β) : run (decoderStep feed) s chunk =
      (answerEvents (nextAnswer feed chunk s).1 ++
          (run (decoderStep feed) (nextAnswer feed chunk s).2.2 (nextAnswer feed chunk s).2.1).1,
        (run (decoderStep feed) (nextAnswer feed chunk s).2.2
          (nextAnswer feed chunk s).2.1).2) := by
  induction chunk generalizing s with
  | nil => rfl
  | cons b rest ih =>
    rw [run_cons, nextAnswer, decoderStep]
    generalize feed s b = answered
    match answered with
    | (.ok none, s') => exact ih s'
    | (.ok (some a), s') => rfl
    | (.error e, s') => rfl

/-- An answer uses up a symbol, and "nothing yet" uses up all of them. -/
theorem nextAnswer_left (feed : σ → β → Except ε (Option α) × σ) (s : σ) (b : β) (rest : List β) :
    (nextAnswer feed (b :: rest) s).2.1.length ≤ rest.length ∧
      ((nextAnswer feed (b :: rest) s).1 = .ok none →
        (nextAnswer feed (b :: rest) s).2.1 = []) := by
  induction rest generalizing s b with
  | nil =>
    rw [nextAnswer]
    generalize feed s b = answered
    match answered with
    | (.ok none, s') => exact ⟨Nat.le_refl _, fun _ => rfl⟩
    | (.ok (some a), s') => exact ⟨Nat.le_refl _, nofun⟩
    | (.error e, s') => exact ⟨Nat.le_refl _, nofun⟩
  | cons c rest ih =>
    rw [nextAnswer]
    generalize feed s b = answered
    match answered with
    | (.ok none, s') =>
      obtain ⟨hlen, hnone⟩ := ih s' c
      exact ⟨Nat.le_succ_of_le hlen, hnone⟩
    | (.ok (some a), s') => exact ⟨Nat.le_refl _, nofun⟩
    | (.error e, s') => exact ⟨Nat.le_refl _, nofun⟩

theorem drain_eq_run (s : σ) (chunk : List β) :
    drain (nextAnswer feed) s chunk = run (decoderStep feed) s chunk := by
  have hfuel (fuel : Nat) : ∀ s chunk, chunk.length ≤ fuel →
      drain.drainFuel (nextAnswer feed) fuel s chunk = run (decoderStep feed) s chunk := by
    induction fuel with
    | zero =>
      intro s chunk hle
      rw [List.eq_nil_of_length_eq_zero (Nat.le_zero.mp hle)]
      rfl
    | succ fuel ih =>
      intro s chunk hle
      cases chunk with
      | nil => rfl
      | cons b rest =>
        obtain ⟨hlen, hnone⟩ := nextAnswer_left feed s b rest
        rw [run_nextAnswer, drain.drainFuel]
        generalize nextAnswer feed (b :: rest) s = answered at hlen hnone ⊢
        have hleft : answered.2.1.length ≤ fuel := Nat.le_trans hlen (Nat.le_of_succ_le_succ hle)
        match answered with
        | (.ok none, left, s') =>
          rw [show left = [] from hnone rfl]
          rfl
        | (.ok (some a), left, s') =>
          simp only [ih s' left hleft]
          rfl
        | (.error e, left, s') =>
          simp only [ih s' left hleft]
          rfl
  exact hfuel chunk.length s chunk Nat.le.refl

end

end Prns.Verified.Machine
