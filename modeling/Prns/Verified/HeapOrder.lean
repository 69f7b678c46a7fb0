import Mathlib.Algebra.GroupWithZero.Nat
import Mathlib.Order.Lattice

/-!
# Heap order with a hole

A binary heap of `n` places is read as a function `k` from places to keys. A
sift moves one misplaced key, so between two of its steps the order holds
everywhere except around one place, the hole. The three shapes of that
exception are `UpHole` (the hole may be smaller than its parent), `DownHole` (it
may be larger than its children) and `Hole` (either). Each shape comes with the
rule that moves the hole one level and the rule that closes it.

`start` lets the downward shape speak about the upper part of a heap under
construction: only parents from `start` on are ordered.
-/

namespace Prns.Verified.HeapOrder

variable {κ : Type}

/-- The keys with two places exchanged. -/
def swapped (k : Nat → κ) (a b i : Nat) : κ :=
  if i = a then k b else if i = b then k a else k i

theorem swapped_left (k : Nat → κ) (a b : Nat) : swapped k a b a = k b := by
  simp [swapped]

theorem swapped_right (k : Nat → κ) (a b : Nat) : swapped k a b b = k a := by
  unfold swapped
  split
  · rename_i h
    rw [h]
  · simp

variable {i : Nat}

theorem swapped_other (k : Nat → κ) {a b : Nat} (ha : i ≠ a) (hb : i ≠ b) :
    swapped k a b i = k i := by
  simp [swapped, ha, hb]

variable [LinearOrder κ]

def parent (i : Nat) : Nat := (i - 1) / 2

theorem parent_lt (h : 0 < i) : parent i < i := by
  unfold parent
  omega

theorem parent_left (i : Nat) : parent (i * 2 + 1) = i := by
  unfold parent
  omega

theorem parent_right (i : Nat) : parent (i * 2 + 1 + 1) = i := by
  unfold parent
  omega

theorem eq_left_or_right {c : Nat} (hc : 0 < c) (h : parent c = i) :
    c = i * 2 + 1 ∨ c = i * 2 + 1 + 1 := by
  unfold parent at h
  omega

/-- Every parent from `start` on is at most its children. -/
def OrderedFrom (k : Nat → κ) (n start : Nat) : Prop :=
  ∀ i, 0 < i → i < n → start ≤ parent i → k (parent i) ≤ k i

def Ordered (k : Nat → κ) (n : Nat) : Prop := OrderedFrom k n 0

variable {k : Nat → κ} {n : Nat}

theorem Ordered.le (h : Ordered k n) (hi : 0 < i) (hin : i < n) : k (parent i) ≤ k i :=
  h i hi hin (Nat.zero_le _)

theorem Ordered.root_le (h : Ordered k n) (i : Nat) (hi : i < n) : k 0 ≤ k i := by
  induction i using Nat.strongRecOn with
  | ind i ih =>
    by_cases h0 : i = 0
    · rw [h0]
    · have hlt := parent_lt (Nat.pos_of_ne_zero h0)
      exact le_trans (ih (parent i) hlt (by omega)) (h.le (by omega) hi)

variable {k' : Nat → κ} {start : Nat}

theorem OrderedFrom.congr (h : OrderedFrom k n start) (hk : ∀ i, i < n → k' i = k i) :
    OrderedFrom k' n start := by
  intro i hi hin hs
  rw [hk i hin, hk (parent i) (Nat.lt_trans (parent_lt hi) hin)]
  exact h i hi hin hs

/-- Ordered but for the hole and its parent; the hole's children are at or above
its parent, so they stay in order when the two change places. -/
structure UpHole (k : Nat → κ) (n hole : Nat) : Prop where
  others : ∀ i, 0 < i → i < n → i ≠ hole → k (parent i) ≤ k i
  skip : 0 < hole → ∀ i, 0 < i → i < n → parent i = hole → k (parent hole) ≤ k i

theorem UpHole.finish {hole : Nat} (h : UpHole k n hole)
    (hstop : 0 < hole → k (parent hole) ≤ k hole) : Ordered k n := by
  intro i hi hin _
  by_cases hih : i = hole
  · rw [hih] at hi ⊢
    exact hstop hi
  · exact h.others i hi hin hih

theorem UpHole.step {hole : Nat} (h : UpHole k n hole) (hpos : 0 < hole) (hn : hole < n)
    (hlt : k hole < k (parent hole)) : UpHole (swapped k (parent hole) hole) n (parent hole) := by
  have hup := parent_lt hpos
  refine { others := ?_, skip := ?_ }
  · intro i hi hin hne
    by_cases hih : i = hole
    · rw [hih, swapped_left, swapped_right]
      exact le_of_lt hlt
    rw [swapped_other k hne hih]
    by_cases hph : parent i = hole
    · rw [hph, swapped_right]
      exact h.skip hpos i hi hin hph
    by_cases hpp : parent i = parent hole
    · have hle := h.others i hi hin hih
      rw [hpp] at hle
      rw [hpp, swapped_left]
      exact le_trans (le_of_lt hlt) hle
    · rw [swapped_other k hpp hph]
      exact h.others i hi hin hih
  · intro hpp i hi hin hpi
    have hgrand := parent_lt hpp
    have hle := h.others (parent hole) hpp (by omega) (by omega)
    rw [swapped_other k (by omega) (by omega)]
    by_cases hih : i = hole
    · rw [hih, swapped_right]
      exact hle
    · rw [swapped_other k (by have := parent_lt hi; omega) hih]
      refine le_trans hle ?_
      rw [← hpi]
      exact h.others i hi hin hih

/-- Ordered but for the hole and its children, with the hole's parent at or below
those children. -/
structure DownHole (k : Nat → κ) (n start hole : Nat) : Prop where
  others : ∀ i, 0 < i → i < n → start ≤ parent i → parent i ≠ hole →
    k (parent i) ≤ k i
  skip : 0 < hole → start ≤ parent hole → ∀ i, 0 < i → i < n → parent i = hole →
    k (parent hole) ≤ k i

theorem DownHole.finish {hole : Nat} (h : DownHole k n start hole)
    (hstop : ∀ i, 0 < i → i < n → parent i = hole → k hole ≤ k i) : OrderedFrom k n start := by
  intro i hi hin hs
  by_cases hph : parent i = hole
  · rw [hph]
    exact hstop i hi hin hph
  · exact h.others i hi hin hs hph

/-- The hole changes places with a least child. -/
theorem DownHole.step {hole child : Nat} (h : DownHole k n start hole) (hs : start ≤ hole)
    (hpos : 0 < child) (hn : child < n) (hchild : parent child = hole)
    (hleast : ∀ i, 0 < i → i < n → parent i = hole → k child ≤ k i) (hlt : k child < k hole) :
    DownHole (swapped k hole child) n start child := by
  have hdown : hole < child := hchild ▸ parent_lt hpos
  refine { others := ?_, skip := ?_ }
  · intro i hi hin hsi hne
    have hpi := parent_lt hi
    by_cases hih : i = hole
    · -- the pair above the hole, which now carries the child's key
      rw [hih] at hi hsi ⊢ hpi
      rw [swapped_left, swapped_other k (by omega) (by omega)]
      exact h.skip hi hsi child hpos hn hchild
    by_cases hph : parent i = hole
    · rw [hph, swapped_left]
      by_cases hic : i = child
      · rw [hic, swapped_right]
        exact le_of_lt hlt
      · rw [swapped_other k hih hic]
        exact hleast i hi hin hph
    · rw [swapped_other k hph hne]
      by_cases hic : i = child
      · exact absurd (hic ▸ hchild) hph
      · rw [swapped_other k hih hic]
        exact h.others i hi hin hsi hph
  · intro _ _ i hi hin hpi
    have hbelow : child < i := hpi ▸ parent_lt hi
    rw [hchild, swapped_left, swapped_other k (by omega) (by omega), ← hpi]
    exact h.others i hi hin (by omega) (by omega)

theorem OrderedFrom.hole (h : OrderedFrom k n (start + 1)) : DownHole k n start start := by
  refine { others := ?_, skip := ?_ }
  · intro i hi hin hs hne
    exact h i hi hin (by omega)
  · intro hpos hs
    exact absurd (parent_lt hpos) (by omega)

/-- Ordered but for one place that may be wrong in either direction. -/
structure Hole (k : Nat → κ) (n hole : Nat) : Prop where
  others : ∀ i, 0 < i → i < n → i ≠ hole → parent i ≠ hole → k (parent i) ≤ k i
  skip : 0 < hole → ∀ i, 0 < i → i < n → parent i = hole → k (parent hole) ≤ k i

theorem Hole.replace {m hole : Nat} (h : Hole k n hole) (hmn : m ≤ n)
    (hk : ∀ i, i < m → i ≠ hole → k' i = k i) : Hole k' m hole := by
  refine { others := ?_, skip := ?_ }
  · intro i hi him hne hpne
    rw [hk i him hne, hk (parent i) (Nat.lt_trans (parent_lt hi) him) hpne]
    exact h.others i hi (by omega) hne hpne
  intro hpos i hi him hpi
  have hbelow : hole < i := hpi ▸ parent_lt hi
  have habove := parent_lt hpos
  rw [hk i him (by omega), hk (parent hole) (by omega) (by omega)]
  exact h.skip hpos i hi (by omega) hpi

theorem Ordered.hole {hole : Nat} (h : Ordered k n) (hn : hole < n)
    (hk : ∀ i, i < n → i ≠ hole → k' i = k i) : Hole k' n hole := by
  have hsame : Hole k n hole := by
    refine { others := fun i hi hin _ _ => h.le hi hin, skip := ?_ }
    intro hpos i hi hin hpi
    have hchild := h.le hi hin
    rw [hpi] at hchild
    exact le_trans (h.le hpos hn) hchild
  exact hsame.replace (Nat.le_refl n) hk

theorem Hole.up {hole : Nat} (h : Hole k n hole) (hpos : 0 < hole)
    (hlt : k hole < k (parent hole)) : UpHole k n hole := by
  refine { others := ?_, skip := h.skip }
  intro i hi hin hne
  by_cases hph : parent i = hole
  · rw [hph]
    exact le_trans (le_of_lt hlt) (h.skip hpos i hi hin hph)
  · exact h.others i hi hin hne hph

theorem Hole.down {hole : Nat} (h : Hole k n hole)
    (hle : 0 < hole → k (parent hole) ≤ k hole) : DownHole k n 0 hole := by
  refine { others := ?_, skip := fun hpos _ => h.skip hpos }
  intro i hi hin _ hpne
  by_cases hih : i = hole
  · rw [hih] at hi ⊢
    exact hle hi
  · exact h.others i hi hin hih hpne

theorem Hole.cut_last (h : Hole k (n + 1) n) : Ordered k n := by
  intro i hi hin _
  have hlt := parent_lt hi
  exact h.others i hi (by omega) (by omega) (by omega)

theorem Ordered.append (h : Ordered k n) (hk : ∀ i, i < n → k' i = k i) : UpHole k' (n + 1) n := by
  refine { others := ?_, skip := ?_ }
  · intro i hi hin hne
    have hin' : i < n := by omega
    rw [hk i hin', hk (parent i) (Nat.lt_trans (parent_lt hi) hin')]
    exact h.le hi hin'
  · intro _ i hi hin hpi
    exact absurd (parent_lt hi) (by omega)

section

variable (f : Nat → Nat) (n : Nat)

/-- The sum over a place and all places below it. -/
def below (p : Nat) : Nat :=
  if p < n then f p + below (p * 2 + 1) + below (p * 2 + 2) else 0
termination_by n - p

/-- The sum over all places that come after those below `p`. -/
def after (p : Nat) : Nat :=
  if p = 0 then 0
  else (if p % 2 = 1 then below f n (p + 1) else 0) + after ((p - 1) / 2)
termination_by p

end

variable {f : Nat → Nat} {p : Nat}

theorem below_of_le (h : n ≤ p) : below f n p = 0 := by
  rw [below, if_neg (by omega)]

theorem below_of_lt (h : p < n) :
    below f n p = f p + below f n (p * 2 + 1) + below f n (p * 2 + 2) := by
  rw [below, if_pos h]

theorem after_left (p : Nat) : after f n (p * 2 + 1) = below f n (p * 2 + 2) + after f n p := by
  rw [after, if_neg (by omega), if_pos (by omega), show (p * 2 + 1 - 1) / 2 = p by omega]

theorem sum_below (a : Nat) : ((List.range' a (a + 1)).map (below f n)).sum =
    ((List.range' a (n - a)).map f).sum := by
  induction hk : n - a generalizing a with
  | zero =>
    refine List.sum_eq_zero_iff_forall_eq_nat.mpr (List.forall_mem_map.mpr fun p hp => ?_)
    rw [List.mem_range'_1] at hp
    exact below_of_le (by omega)
  | succ k ih =>
    have hnext := ih (a + 1) (by omega)
    rw [List.range'_concat, List.range'_concat] at hnext
    rw [List.range'_succ, List.range'_succ, List.map_cons, List.sum_cons, List.map_cons,
      List.sum_cons, ← hnext, below_of_lt (by omega : a < n)]
    simp only [List.map_append, List.map_singleton, List.sum_append, List.sum_singleton]
    rw [show a + 1 + 1 * a = a * 2 + 1 by omega, show a + 1 + 1 * (a + 1) = a * 2 + 2 by omega]
    omega

theorem below_zero : below f n 0 = ((List.range n).map f).sum := by
  have hsum := @sum_below n f 0
  rw [List.range_eq_range']
  simpa using hsum

theorem Ordered.below_eq_zero {x : κ} (h : Ordered k n) (hf : ∀ i, x < k i → f i = 0)
    (hp : x < k p) : below f n p = 0 := by
  fun_induction below f n p with
  | case2 => rfl
  | case1 p _ ihLeft ihRight =>
    have hchild {c : Nat} (hc : 0 < c) (hparent : parent c = p)
        (ih : x < k c → below f n c = 0) : below f n c = 0 := by
      by_cases hin : c < n
      · exact ih (lt_of_lt_of_le hp (hparent ▸ h.le hc hin))
      · exact below_of_le (Nat.le_of_not_lt hin)
    rw [hf p hp, hchild (by omega) (parent_left p) ihLeft,
      hchild (by omega) (parent_right p) ihRight]

end Prns.Verified.HeapOrder
