import Mathlib.Algebra.GroupWithZero.Nat
import Mathlib.Data.List.GetD
import Mathlib.Data.List.Perm.Basic

/-!
# Vectors as lists

Reads with a default and the two in-place rearrangements of a vector: exchanging
two places, and removing a place by moving the last element into it. Every lemma
reads one place of the result.
-/

namespace Prns.Verified.VecOps

variable {α : Type} (xs : List α)

theorem getD_set (i j : Nat) (x d : α) (hi : i < xs.length) :
    (xs.set i x).getD j d = if j = i then x else xs.getD j d := by
  grind

theorem getD_append_singleton (j : Nat) (x d : α) :
    (xs ++ [x]).getD j d = if j = xs.length then x else xs.getD j d := by
  grind

theorem getD_dropLast (j : Nat) (d : α) (hj : j < xs.length - 1) :
    xs.dropLast.getD j d = xs.getD j d := by
  rw [List.getD_eq_getElem?_getD, List.getD_eq_getElem?_getD, List.getElem?_dropLast, if_pos hj]

/-- `Vec::swap`. -/
def swapAt (xs : List α) (a b : Nat) (d : α) : List α :=
  (xs.set a (xs.getD b d)).set b (xs.getD a d)

@[simp] theorem length_swapAt (a b : Nat) (d : α) : (swapAt xs a b d).length = xs.length := by
  simp [swapAt]

theorem getD_swapAt (a b j : Nat) (d : α) (ha : a < xs.length) (hb : b < xs.length) :
    (swapAt xs a b d).getD j d =
      if j = a then xs.getD b d else if j = b then xs.getD a d else xs.getD j d := by
  rw [swapAt, getD_set _ _ _ _ _ (by simpa using hb), getD_set _ _ _ _ _ ha]
  by_cases hja : j = a <;> by_cases hjb : j = b <;> simp_all

/-- `Vec::swap_remove`. -/
def swapRemove (xs : List α) (i : Nat) : List α :=
  match xs.getLast? with
  | none => []
  | some last => (xs.set i last).dropLast

@[simp] theorem length_swapRemove (i : Nat) : (swapRemove xs i).length = xs.length - 1 := by
  unfold swapRemove
  cases hlast : xs.getLast? with
  | none => simp [List.getLast?_eq_none_iff.mp hlast]
  | some last => simp

theorem getElem?_swapRemove (i j : Nat) (hi : i < xs.length) (hj : j < xs.length - 1) :
    (swapRemove xs i)[j]? = if j = i then xs[xs.length - 1]? else xs[j]? := by
  unfold swapRemove
  cases hlast : xs.getLast? with
  | none =>
    rw [List.getLast?_eq_none_iff.mp hlast] at hi
    exact absurd hi (by simp)
  | some last =>
    rw [← List.getLast?_eq_getElem?, hlast, List.getElem?_dropLast, List.getElem?_set]
    grind

theorem getD_swapRemove (i j : Nat) (d : α) (hi : i < xs.length) (hj : j < xs.length - 1) :
    (swapRemove xs i).getD j d = if j = i then xs.getD (xs.length - 1) d else xs.getD j d := by
  rw [List.getD_eq_getElem?_getD, getElem?_swapRemove xs i j hi hj]
  split <;> rw [List.getD_eq_getElem?_getD]

theorem swapRemove_perm (i : Nat) (x : α) (h : xs[i]? = some x) :
    xs.Perm (x :: swapRemove xs i) := by
  obtain ⟨hi, rfl⟩ := List.getElem?_eq_some_iff.mp h
  obtain ⟨last, hlast⟩ : ∃ last, xs.getLast? = some last :=
    ⟨_, List.getLast?_eq_some_getLast (List.ne_nil_of_length_pos (by omega))⟩
  have hend : (xs.set i last).getLast? = some last := by
    rw [List.getLast?_eq_getElem?] at hlast ⊢
    grind
  -- Both lists are what is left of `xs` without the place, but for the last element.
  have hperm := List.set_perm_cons_eraseIdx hi last
  rw [← List.dropLast_append_getLast? last hend] at hperm
  have hrest := ((List.perm_append_singleton last _).symm.trans hperm).cons_inv
  rw [swapRemove, hlast]
  exact (List.getElem_cons_eraseIdx_perm hi).symm.trans (hrest.symm.cons _)

end Prns.Verified.VecOps
