import Prns.Verified.KeyedRows
import Mathlib.Data.List.MinMax

/-!
# The tunnel registry

A tunnel outlives the interface it rode on: routes over a departed interface stay warm until
the expiry that `warm_until` finds among the tunnels held. Their rows move, as an eviction
or an expiry puts the last row into the gap.
-/

namespace Prns.Ports.Tunnels

open Verified.VecOps
open Verified.KeyedRows

structure Row (T I : Type) where
  tunnelId : T
  interface : I
  expires : Nat
  deriving DecidableEq

inductive TunnelTransition (I : Type) where
  | established
  | refreshed
  | reappeared (previousInterface : I)

inductive SeedTunnelOutcome where
  | seeded | alreadyPresent | tableFull

section

-- a table on the heap has no capacity and is never full
variable {T I : Type} (capacity : Option Nat) (rows : List (Row T I)) (row : Row T I)

def push : Option (List (Row T I)) :=
  if capacity.any (· ≤ rows.length) then none else some (rows ++ [row])

def soonestIndex : Option (Fin rows.length) :=
  (List.finRange rows.length).argmin fun i => rows[i].expires

def expireFrom (now : Nat) (rows : List (Row T I)) (i expired : Nat) : List (Row T I) × Nat :=
  if h : i < rows.length then
    if rows[i].expires ≤ now then expireFrom now (swapRemove rows i) i (expired + 1)
    else expireFrom now rows (i + 1) expired
  else (rows, expired)
termination_by rows.length - i
decreasing_by
  · rw [length_swapRemove]; omega
  · omega

def expire (now : Nat) : List (Row T I) × Nat := expireFrom now rows 0 0

variable [DecidableEq T] [DecidableEq I]

def indexOfTunnel (tunnelId : T) : Option (Fin rows.length) :=
  rows.findFinIdx? (·.tunnelId = tunnelId)

def observeSynthesize : List (Row T I) × TunnelTransition I :=
  match indexOfTunnel rows row.tunnelId with
  | some i =>
    let previous := rows[i].interface
    (rows.set i row, if previous = row.interface then .refreshed else .reappeared previous)
  | none =>
    match push capacity rows row, soonestIndex rows with
    | some pushed, _ => (pushed, .established)
    | none, none => (rows, .established)
    | none, some victim =>
      let rest := swapRemove rows victim
      ((push capacity rest row).getD rest, .established)

def seedTunnel : List (Row T I) × SeedTunnelOutcome :=
  if (indexOfTunnel rows row.tunnelId).isSome then (rows, .alreadyPresent)
  else
    match push capacity rows row with
    | some pushed => (pushed, .seeded)
    | none => (rows, .tableFull)

def warmUntil (interface : I) : Option Nat :=
  (rows.find? (·.interface = interface)).map Row.expires

end

variable {T I : Type} [DecidableEq T] {rows : List (Row T I)} {row : Row T I}

theorem lookup_of_indexOfTunnel (h : indexOfTunnel rows row.tunnelId = none) :
    lookup Row.tunnelId rows row.tunnelId = none := by
  rw [indexOfTunnel, List.findFinIdx?_eq_none_iff] at h
  simpa [lookup] using h

variable (h : Distinct Row.tunnelId rows)
include h

theorem distinct_push (capacity : Option Nat)
    (hfresh : lookup Row.tunnelId rows row.tunnelId = none) :
    Distinct Row.tunnelId ((push capacity rows row).getD rows) := by
  unfold push
  split
  · exact h
  · exact h.push hfresh

omit [DecidableEq T] in
theorem distinct_expireFrom (now i expired : Nat) :
    Distinct Row.tunnelId (expireFrom now rows i expired).1 := by
  fun_induction expireFrom now rows i expired with
  | case1 rows i expired hi hdue ih => exact ih (h.swapRemove (List.getElem?_eq_getElem hi))
  | case2 rows i expired hi hdue ih => exact ih h
  | case3 => exact h

variable {capacity : Option Nat}

theorem distinct_seedTunnel : Distinct Row.tunnelId (seedTunnel capacity rows row).1 := by
  unfold seedTunnel
  cases hfind : indexOfTunnel rows row.tunnelId with
  | some i => exact h
  | none =>
    have hpushed := distinct_push h capacity (lookup_of_indexOfTunnel hfind)
    cases hpush : push capacity rows row <;> simpa [hpush] using hpushed

variable [DecidableEq I]

theorem distinct_observeSynthesize :
    Distinct Row.tunnelId (observeSynthesize capacity rows row).1 := by
  unfold observeSynthesize
  cases hfind : indexOfTunnel rows row.tunnelId with
  | some i =>
    have hkey := (List.findFinIdx?_eq_some_iff.mp hfind).1
    exact h.set (List.getElem?_eq_getElem i.2) (of_decide_eq_true hkey).symm
  | none =>
    have hfresh := lookup_of_indexOfTunnel hfind
    have hpushed := distinct_push h capacity hfresh
    cases hpush : push capacity rows row with
    | some pushed => simpa [hpush] using hpushed
    | none =>
      cases soonestIndex rows with
      | none => exact h
      | some victim =>
        have hvictim := List.getElem?_eq_getElem victim.2
        refine distinct_push (h.swapRemove hvictim) capacity ?_
        rw [lookup_swapRemove h hvictim, hfresh, ite_self]

omit h

inductive Event (T I : Type) where
  | synthesized (row : Row T I)
  | seeded (row : Row T I)
  | expired (now : Nat)

def step (capacity : Option Nat) (rows : List (Row T I)) : Event T I → List (Row T I)
  | .synthesized row => (observeSynthesize capacity rows row).1
  | .seeded row => (seedTunnel capacity rows row).1
  | .expired now => (expire rows now).1

def run (capacity : Option Nat) (events : List (Event T I)) : List (Row T I) :=
  events.foldl (step capacity) []

theorem distinct_run (events : List (Event T I)) : Distinct Row.tunnelId (run capacity events) := by
  induction events using List.reverseRecOn with
  | nil => exact List.nodup_nil
  | append_singleton events event ih =>
    rw [run, List.foldl_append]
    cases event with
    | synthesized row => exact distinct_observeSynthesize ih
    | seeded row => exact distinct_seedTunnel ih
    | expired now => exact distinct_expireFrom ih now 0 0

/-- The latest expiry of the tunnels that last rode on the interface, if there are any. -/
def IsLatest (rows : List (Row T I)) (interface : I) : Option Nat → Prop
  | none => ∀ row ∈ rows, row.interface ≠ interface
  | some latest => (∃ row ∈ rows, row.interface = interface ∧ row.expires = latest) ∧
      ∀ row ∈ rows, row.interface = interface → row.expires ≤ latest

/-- **Warmth is the latest expiry**, after every history, for an interface on which at most
one of the tunnels held rode last. -/
theorem warmUntil_isLatest (capacity : Option Nat) (events : List (Event T I)) (interface : I)
    (honly : ∀ row ∈ run capacity events, ∀ other ∈ run capacity events,
      row.interface = interface → other.interface = interface → row.tunnelId = other.tunnelId) :
    IsLatest (run capacity events) interface (warmUntil (run capacity events) interface) := by
  unfold warmUntil
  cases hfind : (run capacity events).find? (·.interface = interface) with
  | none => simpa [IsLatest] using hfind
  | some first =>
    have hmem := List.mem_of_find?_eq_some hfind
    have hfirst : first.interface = interface := by simpa using List.find?_some hfind
    refine ⟨⟨first, hmem, hfirst, rfl⟩, fun row hrow hrides => ?_⟩
    have hid := honly row hrow first hmem hrides hfirst
    rw [List.inj_on_of_nodup_map (distinct_run events) hrow hmem hid]

/-- The second tunnel evicts the first from a table of one row. -/
theorem warmUntil_isLatest_evicted :
    IsLatest (run (some 1) [.synthesized ⟨1, 10, 5⟩, .synthesized ⟨2, 10, 9⟩]) 10 (some 9) :=
  warmUntil_isLatest (some 1) [.synthesized ⟨1, 10, 5⟩, .synthesized ⟨2, 10, 9⟩] 10 (by decide)

/-- Two tunnels ride on one interface, and its warmth ends with the first of them. -/
theorem warmth_of_first_row :
    ⟨2, 10, 9⟩ ∈ run (some 4) [.synthesized ⟨1, 10, 5⟩, .synthesized ⟨2, 10, 9⟩] ∧
      warmUntil (run (some 4) [.synthesized ⟨1, 10, 5⟩, .synthesized ⟨2, 10, 9⟩]) 10 = some 5 := by
  decide

/-! ## The registry as a map -/

omit [DecidableEq I] in
theorem lookup_expireFrom {now i expired : Nat} (h : Distinct Row.tunnelId rows)
    (hpassed : ∀ j row, j < i → rows[j]? = some row → now < row.expires) (tunnelId : T) :
    lookup Row.tunnelId (expireFrom now rows i expired).1 tunnelId =
      (lookup Row.tunnelId rows tunnelId).filter (now < ·.expires) := by
  fun_induction expireFrom now rows i expired with
  | case1 rows i expired hi hdue ih =>
    have hrow := List.getElem?_eq_getElem hi
    rw [ih (h.swapRemove hrow), lookup_swapRemove h hrow]
    · split_ifs with hid
      · rw [(lookup_eq_some_iff h).mpr ⟨List.getElem_mem hi, hid⟩]
        simp [Option.filter_some, hdue]
      · rfl
    · -- the row that fills the gap is not passed yet
      intro j row hj hget
      rw [getElem?_swapRemove rows i j hi (by omega), if_neg (by omega)] at hget
      exact hpassed j row hj hget
  | case2 rows i expired hi hdue ih =>
    refine ih h fun j row hj hget => ?_
    obtain hlt | rfl := Nat.lt_succ_iff_lt_or_eq.mp hj
    · exact hpassed j row hlt hget
    · cases (List.getElem?_eq_getElem hi).symm.trans hget
      exact Nat.lt_of_not_le hdue
  | case3 rows i expired hi =>
    cases hfind : lookup Row.tunnelId rows tunnelId with
    | none => rfl
    | some row =>
      obtain ⟨j, hj⟩ := List.getElem?_of_mem ((lookup_eq_some_iff h).mp hfind).1
      have hlt := (List.getElem?_eq_some_iff.mp hj).1
      simp [Option.filter_some, hpassed j row (by omega) hj]

/-- What a map from tunnels to their rows holds after an event. -/
def remembered (rows : T → Option (Row T I)) : Event T I → T → Option (Row T I)
  | .synthesized row => Function.update rows row.tunnelId (some row)
  | .seeded row =>
    if (rows row.tunnelId).isSome then rows else Function.update rows row.tunnelId (some row)
  | .expired now => fun tunnelId => (rows tunnelId).filter (now < ·.expires)

omit [DecidableEq I] in
theorem lookup_pushed (h : Distinct Row.tunnelId rows)
    (hfind : indexOfTunnel rows row.tunnelId = none) : lookup Row.tunnelId (rows ++ [row]) =
      Function.update (lookup Row.tunnelId rows) row.tunnelId (some row) := by
  funext tunnelId
  rw [lookup_push h (lookup_of_indexOfTunnel hfind), Function.update_apply]
  simp only [eq_comm]

theorem lookup_step (h : Distinct Row.tunnelId rows) (event : Event T I) :
    lookup Row.tunnelId (step none rows event) =
      remembered (lookup Row.tunnelId rows) event := by
  have hpush : push none rows = fun row => some (rows ++ [row]) := rfl
  cases event with
  | synthesized row =>
    simp only [step, observeSynthesize, remembered, hpush]
    cases hfind : indexOfTunnel rows row.tunnelId with
    | none => exact lookup_pushed h hfind
    | some i =>
      have hkey := of_decide_eq_true (List.findFinIdx?_eq_some_iff.mp hfind).1
      funext tunnelId
      dsimp only
      rw [lookup_set h (List.getElem?_eq_getElem i.2) hkey.symm]
      simp [Function.update_apply, ← hkey, eq_comm]
  | seeded row =>
    simp only [step, seedTunnel, remembered, hpush]
    cases hfind : indexOfTunnel rows row.tunnelId with
    | none =>
      rw [lookup_of_indexOfTunnel hfind]
      exact lookup_pushed h hfind
    | some i =>
      have hkey := of_decide_eq_true (List.findFinIdx?_eq_some_iff.mp hfind).1
      rw [(lookup_eq_some_iff h).mpr ⟨List.getElem_mem i.2, hkey⟩]
      rfl
  | expired now =>
    funext tunnelId
    exact lookup_expireFrom h (fun _ _ hj => absurd hj (Nat.not_lt_zero _)) tunnelId

/-- **On the heap the registry is a map**: after every history it knows of each tunnel the row
that it was last observed or seeded with, until that expires. The rows move, but no removal
loses the row of another tunnel. -/
theorem registry_is_map (events : List (Event T I)) :
    lookup Row.tunnelId (run none events) = events.foldl remembered fun _ => none := by
  induction events using List.reverseRecOn with
  | nil => rfl
  | append_singleton events event ih =>
    rw [List.foldl_append, ← ih, run, List.foldl_append]
    exact lookup_step (distinct_run events) event

end Prns.Ports.Tunnels
