import Mathlib.Algebra.GroupWithZero.Nat
import Prns.Verified.Machine

/-!
# Limiting the announces of one destination

`DestinationAnnounceLimits::observe` on the row of one destination. An announce that comes
sooner than the target interval after the last allowed one raises the violations, a later one
lowers them; above the grace the destination is blocked, and blocked announces move nothing
but violations above the grace. So along a window every allowed announce either raises the
violations towards the grace or is a target interval away from the allowed one before it.
-/

namespace Prns.Ports.DestinationAnnounceLimits

open Verified.Machine

def u16Max : Nat := 2 ^ 16 - 1
def u64Max : Nat := 2 ^ 64 - 1

structure AnnounceRateLimit where
  targetMs : Nat
  grace : Nat
  penaltyMs : Nat

structure DestinationAnnounceLimit where
  lastAllowedAnnounceAt : Nat
  blockedUntil : Nat
  rateViolations : Nat

inductive DestinationAnnounceVerdict where
  | allowed
  | blocked
  deriving DecidableEq

def observeExisting (limit : AnnounceRateLimit) (entry : DestinationAnnounceLimit) (now : Nat) :
    DestinationAnnounceVerdict × DestinationAnnounceLimit :=
  if now ≤ entry.blockedUntil then (.blocked, entry)
  else
    let violations :=
      if now - entry.lastAllowedAnnounceAt < limit.targetMs then
        min (entry.rateViolations + 1) u16Max
      else entry.rateViolations - 1
    if limit.grace < violations then
      (.blocked,
        { entry with
          rateViolations := violations
          blockedUntil :=
            min (min (entry.lastAllowedAnnounceAt + limit.targetMs) u64Max + limit.penaltyMs)
              u64Max })
    else (.allowed, { entry with rateViolations := violations, lastAllowedAnnounceAt := now })

/-- The row is `none` until the first sighting, which is always allowed. -/
def observe (limit : AnnounceRateLimit) (row : Option DestinationAnnounceLimit) (now : Nat) :
    List DestinationAnnounceVerdict × Option DestinationAnnounceLimit :=
  match row with
  | some entry =>
      ([(observeExisting limit entry now).1], some (observeExisting limit entry now).2)
  | none => ([.allowed], some ⟨now, 0, 0⟩)

variable {limit : AnnounceRateLimit} {start upto now allowed : Nat}
  {row : Option DestinationAnnounceLimit}

/-- The announces allowed since `start`, the last of them at most at `upto`, are paid for by
the violations and by the target intervals that have passed. -/
def Paid (limit : AnnounceRateLimit) (start upto allowed : Nat) :
    Option DestinationAnnounceLimit → Prop
  | none => allowed = 0
  | some ⟨last, _, violations⟩ => allowed = 0 ∨ start ≤ last ∧ last ≤ upto ∧
      allowed ≤ min violations limit.grace + 2 * ((last - start) / limit.targetMs + 1)

theorem Paid.observed (htarget : 0 < limit.targetMs) (hgrace : limit.grace < u16Max)
    (h : Paid limit start upto allowed row) (hstart : start ≤ now) (hnow : upto ≤ now) :
    Paid limit start now (allowed + (observe limit row now).1.count .allowed)
      (observe limit row now).2 := by
  obtain _ | ⟨last, blockedUntil, violations⟩ := row
  · cases h
    exact Or.inr ⟨hstart, Nat.le_refl _, Nat.le_add_left 1 _⟩
  have hmono : last ≤ now → (last - start) / limit.targetMs ≤ (now - start) / limit.targetMs :=
    fun hle => Nat.div_le_div_right (by omega)
  -- a target interval pays for the announce that ends it and for the violation it takes away
  have hpassed (hin : start ≤ last) (hslow : last + limit.targetMs ≤ now) :
      (last - start) / limit.targetMs + 1 ≤ (now - start) / limit.targetMs := by
    rw [← Nat.add_div_right _ htarget]
    exact Nat.div_le_div_right (by omega)
  generalize hq : (now - start) / limit.targetMs = quotient at hmono hpassed
  simp only [Paid] at h
  simp only [observe, observeExisting]
  generalize u16Max = top at hgrace ⊢
  by_cases hblocked : now ≤ blockedUntil
  · simp only [hblocked, if_true, Paid]
    simp
    omega
  by_cases hfast : now - last < limit.targetMs
  · simp only [hblocked, hfast, if_true, if_false]
    split <;> simp [Paid, hq] <;> omega
  · simp only [hblocked, hfast, if_false]
    split <;> simp [Paid, hq] <;> omega

theorem Paid.observedAll (htarget : 0 < limit.targetMs) (hgrace : limit.grace < u16Max)
    (times : List Nat) (h : Paid limit start upto allowed row)
    (hsorted : (upto :: times).Pairwise (· ≤ ·)) (hstart : start ≤ upto) :
    Paid limit start ((upto :: times).getLast nofun)
      (allowed + (run (observe limit) row times).1.count .allowed)
      (run (observe limit) row times).2 := by
  induction times generalizing row upto allowed with
  | nil => exact h
  | cons now times ih =>
    obtain ⟨hnow, hsorted⟩ := List.pairwise_cons.mp hsorted
    have hle := hnow now List.mem_cons_self
    have hstart := Nat.le_trans hstart hle
    have hrest := ih (h.observed htarget hgrace hstart hle) hsorted hstart
    rwa [run_cons, List.count_append, ← Nat.add_assoc, List.getLast_cons_cons]

theorem largest_grace_allows (n violations : Nat) :
    (run (observe ⟨1, u16Max, 0⟩) (some ⟨1, 0, violations⟩) (List.replicate n 1)).1.count
      .allowed = n := by
  induction n generalizing violations with
  | zero => rfl
  | succ n ih =>
    have hstep : observe ⟨1, u16Max, 0⟩ (some ⟨1, 0, violations⟩) 1 =
        ([.allowed], some ⟨1, 0, min (violations + 1) u16Max⟩) := by
      simp [observe, observeExisting, Nat.not_lt.mpr (Nat.min_le_right _ _)]
    rw [List.replicate_succ, run_cons, hstep, List.count_append, ih, List.count_singleton_self,
      Nat.add_comm]

/-- Violations are above the grace by at most one, and only while a block lasts that ends
between the target interval after the last allowed announce and the penalty behind it. -/
structure Mild (limit : AnnounceRateLimit) (entry : DestinationAnnounceLimit) : Prop where
  violations : entry.rateViolations ≤ limit.grace + 1
  ends : entry.blockedUntil ≤ entry.lastAllowedAnnounceAt + limit.targetMs + limit.penaltyMs
  lasts : limit.grace < entry.rateViolations →
    min (entry.lastAllowedAnnounceAt + limit.targetMs) u64Max ≤ entry.blockedUntil

theorem Mild.observed {entry : DestinationAnnounceLimit} (h : Mild limit entry)
    (hnow : now ≤ u64Max) : Mild limit (observeExisting limit entry now).2 := by
  obtain ⟨hviolations, hends, hlasts⟩ := h
  unfold observeExisting
  constructor <;> simp only <;> repeat' split
  all_goals simp only <;> omega

theorem Mild.observedAll (times : List Nat) (htimes : ∀ t ∈ times, t ≤ u64Max)
    (row : Option DestinationAnnounceLimit) (h : ∀ entry ∈ row, Mild limit entry) :
    ∀ entry ∈ (run (observe limit) row times).2, Mild limit entry := by
  induction times generalizing row with
  | nil => exact h
  | cons now times ih =>
    obtain ⟨hnow, htimes⟩ := List.forall_mem_cons.mp htimes
    rw [run_cons]
    refine ih htimes _ fun entry hentry => ?_
    cases row with
    | none =>
      cases hentry
      exact ⟨Nat.zero_le _, Nat.zero_le _, fun h => absurd h (Nat.not_lt_zero _)⟩
    | some old =>
      cases hentry
      exact (h old rfl).observed hnow

/-- **No destination stays blocked**: whatever it announced before, and however often while it
was blocked, an announce that comes later than the target interval and the penalty after the
last allowed one is allowed. -/
theorem quiet_destination_is_allowed (limit : AnnounceRateLimit) (times : List Nat)
    (htimes : ∀ t ∈ times, t ≤ u64Max) (entry : DestinationAnnounceLimit)
    (hentry : (run (observe limit) none times).2 = some entry) (now : Nat)
    (hquiet : entry.lastAllowedAnnounceAt + limit.targetMs + limit.penaltyMs < now) :
    (observeExisting limit entry now).1 = .allowed := by
  obtain ⟨hviolations, hends, -⟩ := Mild.observedAll times htimes none (by simp) entry hentry
  have hslow : ¬ now - entry.lastAllowedAnnounceAt < limit.targetMs := by omega
  unfold observeExisting
  simp only [hslow, if_false]
  rw [if_neg (by omega), if_neg (by omega)]

/-- Blocked at 6, and allowed again after the penalty. -/
theorem quiet_destination_is_allowed_after_burst :
    (observeExisting ⟨9, 0, 20⟩ ⟨5, 34, 1⟩ 35).1 = .allowed :=
  quiet_destination_is_allowed ⟨9, 0, 20⟩ [5, 6, 7] (by decide) ⟨5, 34, 1⟩ rfl 35 (by decide)

end Prns.Ports.DestinationAnnounceLimits
