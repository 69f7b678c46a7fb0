import Mathlib.Data.Fintype.Card

/-!
# Linear probing

An open-addressed table of `n` buckets holds entries, each with a home bucket.
An entry that finds its home taken goes to the next free bucket, cyclically. The
property that makes lookups right is `Probed`: from the home of every entry up to
the entry itself no bucket is free.

Removal does not leave a mark. It opens a hole and shifts later entries of the
run back over it; `Shifting` is the invariant of that scan, with one rule for each
thing a scan step can do.

Positions are compared by their cyclic distance. It is written with a case
distinction and not with a remainder, so that linear arithmetic sees through it.
-/

namespace Prns.Verified.LinearProbe

/-- The bucket after `p`. -/
def next (n p : Nat) : Nat := if p + 1 = n then 0 else p + 1

/-- How many steps lead from `a` to `b`. -/
def dist (n a b : Nat) : Nat := if a ≤ b then b - a else b + n - a

variable {n : Nat} {p : Nat} {a b c : Nat}

theorem next_eq_mod (hp : p < n) : (p + 1) % n = next n p := by
  unfold next
  split
  · rename_i h
    rw [h, Nat.mod_self]
  · exact Nat.mod_eq_of_lt (by omega)

theorem next_lt (hp : p < n) : next n p < n := by
  unfold next
  split <;> omega

theorem dist_self (a : Nat) : dist n a a = 0 := by
  simp [dist]

theorem dist_lt (ha : a < n) (hb : b < n) : dist n a b < n := by
  unfold dist
  split <;> omega

theorem dist_pos (ha : a < n) (hne : b ≠ a) : 0 < dist n a b := by
  unfold dist
  split <;> omega

theorem dist_inj (ha : a < n) (hb : b < n) (hc : c < n) (h : dist n a b = dist n a c) : b = c := by
  unfold dist at h
  split at h <;> split at h <;> omega

theorem dist_next_left (ha : a < n) (hb : b < n) (hne : a ≠ b) :
    dist n (next n a) b + 1 = dist n a b := by
  unfold dist next
  split <;> split <;> split <;> omega

theorem dist_next_right (ha : a < n) (hne : next n b ≠ a) :
    dist n a (next n b) = dist n a b + 1 := by
  unfold dist next at *
  split <;> split <;> split <;> simp_all <;> omega

theorem dist_sub (ha : a < n) (hb : b < n) (hc : c < n) (h : dist n a b ≤ dist n a c) :
    dist n b c = dist n a c - dist n a b := by
  unfold dist at *
  split <;> split <;> split <;> simp_all <;> omega

theorem dist_add (ha : a < n) (hb : b < n) (hne : a ≠ b) : dist n a b + dist n b a = n := by
  unfold dist
  split <;> split <;> omega

/-- From `p` on, the first bucket that passes the test. The fuel is the number of
buckets looked at. -/
def walk (n : Nat) (test : Nat → Bool) : Nat → Nat → Option Nat
  | 0, _ => none
  | fuel + 1, p => if test p then some p else walk n test fuel (next n p)

/-- A walk ends if some bucket passes, at the first such bucket. -/
theorem walk_spec (test : Nat → Bool) {goal : Nat} (hgoal : goal < n) (htest : test goal = true)
    (fuel p : Nat) (hp : p < n) (hfuel : dist n p goal < fuel) :
    ∃ q, walk n test fuel p = some q ∧ q < n ∧ test q = true ∧
      ∀ r, r < n → dist n p r < dist n p q → test r = false := by
  induction fuel generalizing p with
  | zero => exact absurd hfuel (Nat.not_lt_zero _)
  | succ fuel ih =>
    rw [walk]
    cases hhere : test p with
    | true => exact ⟨p, by simp, hp, hhere, by simp [dist_self]⟩
    | false =>
      have hne : p ≠ goal := by
        rintro rfl
        exact Bool.false_ne_true (hhere.symm.trans htest)
      have hcloser := dist_next_left hp hgoal hne
      obtain ⟨q, hwalk, hq, htestq, hbefore⟩ := ih (next n p) (next_lt hp) (by omega)
      refine ⟨q, by simpa using hwalk, hq, htestq, fun r hr hrq => ?_⟩
      have h₁ := dist_next_left hp hr
      have h₂ := dist_next_left hp hq
      grind

section

variable {α : Type} {home : α → Nat} {t : Nat → Option α}

/-- No bucket between the home of an entry and the entry is free. -/
def Probed (n : Nat) (home : α → Nat) (t : Nat → Option α) : Prop :=
  ∀ p a, p < n → t p = some a → ∀ q, q < n →
    dist n (home a) q < dist n (home a) p → t q ≠ none

/-- No entry is in two buckets. -/
def Distinct (n : Nat) (t : Nat → Option α) : Prop :=
  ∀ p q a, p < n → q < n → t p = some a → t q = some a → p = q

/-- The entries of the table are those in `S`. -/
def Holds (n : Nat) (t : Nat → Option α) (S : α → Prop) : Prop :=
  ∀ a, S a ↔ ∃ p, p < n ∧ t p = some a

/-- A probed table with its content. -/
structure Table (n : Nat) (home : α → Nat) (S : α → Prop) (t : Nat → Option α) :
    Prop where
  home_lt : ∀ a, S a → home a < n
  probed : Probed n home t
  distinct : Distinct n t
  holds : Holds n t S

variable {S : α → Prop} {a : α} {home' : α → Nat} {q : Nat}

section

variable (h : Table n home S t)
include h

theorem Table.entry (hp : p < n) (ha : t p = some a) : S a :=
  (h.holds a).mpr ⟨p, hp, ha⟩

theorem Table.congr_home (hhome : ∀ a, S a → home' a = home a) :
    Table n home' S t := by
  refine
    { home_lt := fun a ha => by rw [hhome a ha]; exact h.home_lt a ha
      probed := ?_
      distinct := h.distinct
      holds := h.holds }
  intro p a hp ha
  rw [hhome a (h.entry hp ha)]
  exact h.probed p a hp ha

theorem Table.congr_set {S' : α → Prop} (hset : ∀ a, S' a ↔ S a) : Table n home S' t where
  home_lt := fun a ha => h.home_lt a ((hset a).mp ha)
  probed := h.probed
  distinct := h.distinct
  holds := fun a => (hset a).trans (h.holds a)

open Function

omit h in
theorem Table.exists_free {S : Nat → Prop} {home : Nat → Nat} {t : Nat → Option Nat}
    (h : Table n home S t) {count : Nat} (hS : ∀ a, S a → a < count)
    (hcount : count < n) : ∃ p, p < n ∧ t p = none := by
  by_contra hfull
  have hsome : ∀ p : Fin n, ∃ a, t p = some a := by
    intro p
    cases hp : t p with
    | none => exact absurd ⟨p, p.isLt, hp⟩ hfull
    | some a => exact ⟨a, rfl⟩
  choose entry hentry using hsome
  have hlt : ∀ p, entry p < count := fun p => hS _ (h.entry p.isLt (hentry p))
  have hinj : Injective (fun p : Fin n => (⟨entry p, hlt p⟩ : Fin count)) := by
    intro p q heq
    have hval : entry p = entry q := congrArg Fin.val heq
    exact Fin.ext (h.distinct p q (entry p) p.isLt q.isLt (hentry p) (by rw [hentry q, hval]))
  have hcard := Fintype.card_le_of_injective _ hinj
  rw [Fintype.card_fin, Fintype.card_fin] at hcard
  omega

theorem Table.stops_occupied {p q : Nat} (hp : p < n) (ha : t p = some a)
    (hq : q < n) {test : Nat → Bool} (htest : test p = true)
    (hbefore : ∀ r, r < n → dist n (home a) r < dist n (home a) q → test r = false) :
    t q ≠ none := by
  intro hfree
  have hhome := h.home_lt a (h.entry hp ha)
  have hne : q ≠ p := by
    intro heq
    rw [heq, ha] at hfree
    cases hfree
  have hle : ¬ dist n (home a) p < dist n (home a) q := by
    intro hlt
    rw [hbefore p hp hlt] at htest
    cases htest
  have hapart : dist n (home a) q ≠ dist n (home a) p := fun heq =>
    hne (dist_inj hhome hq hp heq)
  exact h.probed p a hp ha q hq (by omega) hfree

/-- A bucket gets an entry that is not in the table yet, and loses what it held.
The path to the new entry must be occupied; the other entries keep their homes. -/
theorem Table.put (hq : q < n) (hnew : ¬ S a) (hhome : home' a < n)
    (hpath : ∀ r, r < n → dist n (home' a) r < dist n (home' a) q → t r ≠ none)
    (hothers : ∀ c, S c → t q ≠ some c → home' c = home c) :
    Table n home' (fun c => c = a ∨ S c ∧ t q ≠ some c) (update t q (some a)) := by
  have hfound : ∀ p c, p < n → update t q (some a) p = some c →
      p = q ∧ c = a ∨ p ≠ q ∧ t p = some c ∧ S c ∧ t q ≠ some c := by
    intro p c hp hpc
    have hS := fun hpc => h.entry (a := c) hp hpc
    have hone := h.distinct p q c hp hq
    grind [update_apply]
  obtain ⟨hhomes, hprobed, hdistinct, hholds⟩ := h
  constructor
  · grind
  · intro p c hp hc r hr hlt
    have hbefore := hprobed p c hp
    grind
  · intro p r c hp hr hpc hrc
    have hone := hdistinct p r c hp hr
    grind
  · intro c
    have hin := hholds c
    grind [update_apply]

theorem Table.place (hnew : ¬ S a) (hhome : home a < n) (hq : q < n)
    (hfree : t q = none)
    (hbefore : ∀ r, r < n → dist n (home a) r < dist n (home a) q → t r ≠ none) :
    Table n home (fun b => b = a ∨ S b) (update t q (some a)) := by
  refine (h.put hq hnew hhome hbefore (fun _ _ _ => rfl)).congr_set (fun b => ?_)
  simp [hfree]

theorem Table.rename {a b : α} (hq : q < n) (hb : t q = some b)
    (hnew : ¬ S a) (hhome : home' a = home b) (hothers : ∀ c, S c → c ≠ b → home' c = home c) :
    Table n home' (fun c => c = a ∨ S c ∧ c ≠ b) (update t q (some a)) := by
  have hput : Table n home' (fun c => c = a ∨ S c ∧ t q ≠ some c) (update t q (some a)) :=
    h.put hq hnew (by rw [hhome]; exact h.home_lt b (h.entry hq hb))
      (fun r hr hlt => h.probed q b hq hb r hr (by rw [← hhome]; exact hlt))
      (fun c hc hcq => hothers c hc (fun heq => hcq (heq ▸ hb)))
  refine hput.congr_set (fun c => ?_)
  simp [hb, eq_comm]

end

/-! ## Removing an entry -/

/-- The scan after a hole. Bucket `hole` is free, and it is the only free bucket
any entry may have between its home and itself. The entries from the hole up to
`scan` have their homes behind the hole, so the hole is not in their way. -/
structure Shifting (n : Nat) (home : α → Nat) (S : α → Prop) (t : Nat → Option α)
    (hole scan : Nat) : Prop where
  hole_lt : hole < n
  scan_lt : scan < n
  open_hole : t hole = none
  home_lt : ∀ a, S a → home a < n
  probed : ∀ p a, p < n → t p = some a → ∀ q, q < n → q ≠ hole →
    dist n (home a) q < dist n (home a) p → t q ≠ none
  passed : ∀ p, p < n → 0 < dist n hole p → dist n hole p ≤ dist n hole scan →
    ∃ a, t p = some a ∧ 0 < dist n hole (home a) ∧ dist n hole (home a) ≤ dist n hole p
  distinct : Distinct n t
  holds : Holds n t S

theorem Table.open (h : Table n home S t) {hole : Nat} (hlt : hole < n) (ha : t hole = some a) :
    Shifting n home (fun b => S b ∧ b ≠ a) (Function.update t hole none) hole hole := by
  have hfound : ∀ p b, Function.update t hole none p = some b → p ≠ hole ∧ t p = some b := by
    grind [Function.update_apply]
  refine ⟨hlt, hlt, Function.update_self .., fun b hb => h.home_lt b hb.1, ?_, ?_, ?_, ?_⟩
  · intro p b hp hb q hq hne hdist
    rw [Function.update_of_ne hne]
    exact h.probed p b hp (hfound p b hb).2 q hq hdist
  · intro p hp hpos hle
    rw [dist_self] at hle
    omega
  · intro p q b hp hq hpb hqb
    exact h.distinct p q b hp hq (hfound p b hpb).2 (hfound q b hqb).2
  · intro b
    have hin := h.holds b
    have hone := fun p hp => h.distinct p hole a hp hlt
    grind [Function.update_apply]

section

variable {hole scan : Nat} {a : α} (h : Shifting n home S t hole scan)

include h

theorem Shifting.next_ne_hole (ha : t (next n scan) = some a) : next n scan ≠ hole := by
  intro heq
  rw [heq, h.open_hole] at ha
  cases ha

theorem Shifting.stay (ha : t (next n scan) = some a) (hpos : 0 < dist n hole (home a))
    (hle : dist n hole (home a) ≤ dist n hole (next n scan)) :
    Shifting n home S t hole (next n scan) := by
  have hlt := next_lt h.scan_lt
  have hstep := dist_next_right h.hole_lt (h.next_ne_hole ha)
  refine { h with scan_lt := hlt, passed := ?_ }
  intro p hp hppos hple
  by_cases hlast : dist n hole p = dist n hole (next n scan)
  · have heq := dist_inj h.hole_lt hp hlt hlast
    rw [heq]
    exact ⟨a, ha, hpos, hle⟩
  · exact h.passed p hp hppos (by omega)

theorem Shifting.move (ha : t (next n scan) = some a)
    (hfree : ¬(0 < dist n hole (home a) ∧ dist n hole (home a) ≤ dist n hole (next n scan))) :
    Shifting n home S (Function.update (Function.update t hole (some a)) (next n scan) none)
      (next n scan) (next n scan) := by
  have hlt := next_lt h.scan_lt
  have hne := h.next_ne_hole ha
  have hhome := h.home_lt a ((h.holds a).mpr ⟨_, hlt, ha⟩)
  generalize next n scan = from' at *
  have hclosed : Function.update (Function.update t hole (some a)) from' none from' =
      none := Function.update_self ..
  have hfilled : Function.update (Function.update t hole (some a)) from' none hole = some a := by
    rw [Function.update_of_ne (Ne.symm hne), Function.update_self]
  have hkeep : ∀ r, r ≠ hole → r ≠ from' →
      Function.update (Function.update t hole (some a)) from' none r = t r := by
    intro r hrh hrf
    rw [Function.update_of_ne hrf, Function.update_of_ne hrh]
  generalize Function.update (Function.update t hole (some a)) from' none = t' at *
  have hfound : ∀ p b, t' p = some b → p = hole ∧ b = a ∨ p ≠ hole ∧ p ≠ from' ∧ t p = some b := by
    grind
  -- from its home the entry meets the hole before its old bucket
  have hearlier : dist n (home a) hole < dist n (home a) from' := by
    have hpos := dist_pos h.hole_lt hne
    by_cases hhh : hole = home a
    · rw [← hhh, dist_self]
      exact hpos
    have hfar := dist_pos h.hole_lt (Ne.symm hhh)
    have hbeyond : dist n hole from' < dist n hole (home a) := by omega
    have hfh : from' ≠ home a := by
      rintro rfl
      exact Nat.lt_irrefl _ hbeyond
    have hsub := dist_sub h.hole_lt hlt hhome (Nat.le_of_lt hbeyond)
    have h₁ := dist_add h.hole_lt hhome hhh
    have h₂ := dist_add hlt hhome hfh
    omega
  refine
    { hole_lt := hlt
      scan_lt := hlt
      open_hole := hclosed
      home_lt := h.home_lt
      probed := ?_
      passed := ?_
      distinct := ?_
      holds := ?_ }
  · intro p b hp hpb q hq hqf hdist
    by_cases hqh : q = hole
    · rw [hqh, hfilled]
      exact fun hnone => by cases hnone
    · rw [hkeep q hqh hqf]
      rcases hfound p b hpb with ⟨rfl, rfl⟩ | ⟨-, -, hpb⟩
      · exact h.probed from' b hlt ha q hq hqh (by omega)
      · exact h.probed p b hp hpb q hq hqh hdist
  · intro p hp hpos hle
    rw [dist_self] at hle
    omega
  · intro p q b hp hq hpb hqb
    have hone := h.distinct p q b hp hq
    have hthis := fun r hr => h.distinct r from' b hr hlt
    grind
  intro b
  rw [h.holds b]
  have hopen := h.open_hole
  have hin := h.hole_lt
  grind

/-- At a free bucket nothing needs the hole filled any more. -/
theorem Shifting.finish (hend : t (next n scan) = none) : Table n home S t := by
  have hlt := next_lt h.scan_lt
  refine { home_lt := h.home_lt, probed := ?_, distinct := h.distinct, holds := h.holds }
  intro p b hp hpb q hq hdist
  by_cases hqh : q = hole
  · -- the entry was passed by the scan, so its home is behind the hole
    rw [hqh] at hdist
    have hhome := h.home_lt b ((h.holds b).mpr ⟨p, hp, hpb⟩)
    have hfrom := dist_sub hhome h.hole_lt hp (Nat.le_of_lt hdist)
    have hscanned : dist n hole p ≤ dist n hole scan := by
      by_cases hround : next n scan = hole
      · have hmax := dist_lt h.hole_lt hp
        have hfull : dist n hole scan = n - 1 := by
          unfold next at hround
          unfold dist
          split at hround <;> split <;> omega
        omega
      · have hstep := dist_next_right h.hole_lt hround
        have hpe : p ≠ next n scan := by
          intro heq
          rw [heq, hend] at hpb
          cases hpb
        have hnot : ¬ dist n (home b) (next n scan) < dist n (home b) p := fun hbefore =>
          h.probed p b hp hpb _ hlt hround hbefore hend
        have hapart : dist n (home b) p ≠ dist n (home b) (next n scan) := fun heq =>
          hpe (dist_inj hhome hp hlt heq)
        have hfar := dist_sub hhome h.hole_lt hlt (by omega)
        omega
    obtain ⟨c, hc, hcpos, hcle⟩ := h.passed p hp (by omega) hscanned
    rw [hpb] at hc
    injection hc with hc
    rw [← hc] at hcpos hcle
    have hback := dist_sub h.hole_lt hhome hp hcle
    omega
  · exact h.probed p b hp hpb q hq hqh hdist

end

end

end Prns.Verified.LinearProbe
