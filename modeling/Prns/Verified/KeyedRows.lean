import Prns.Verified.VecOps
import Mathlib.Data.List.Nodup

/-!
# Tables of keyed rows

A table is a list of rows, each with a key, no key twice. Rows are pushed at the end,
replaced in place and removed by moving the last row into the gap; whatever the order they
end up in, the table is a partial function from keys to rows. Every lemma here says what
an operation does to that function.
-/

namespace Prns.Verified.KeyedRows

open Verified.VecOps

variable {α β κ : Type} {key : α → κ} {rows rows' : List α} {r r' : α} {i : Nat}

/-- No key occurs twice. -/
def Distinct (key : α → κ) (rows : List α) : Prop := (rows.map key).Nodup

theorem map_swapRemove (f : α → β) (rows : List α) (i : Nat) :
    (swapRemove rows i).map f = swapRemove (rows.map f) i := by
  unfold swapRemove
  rw [List.getLast?_map]
  cases rows.getLast? with
  | none => rfl
  | some last => simp [List.map_dropLast, List.map_set]

theorem Distinct.perm (h : Distinct key rows) (hperm : rows.Perm rows') : Distinct key rows' :=
  (hperm.map key).nodup_iff.mp h

theorem Distinct.swapRemove (h : Distinct key rows) (hi : rows[i]? = some r) :
    Distinct key (VecOps.swapRemove rows i) :=
  (List.nodup_cons.mp (h.perm (swapRemove_perm rows i r hi))).2

theorem map_key_set (hi : rows[i]? = some r) (hkey : key r' = key r) :
    (rows.set i r').map key = rows.map key := by
  obtain ⟨hlt, rfl⟩ := List.getElem?_eq_some_iff.mp hi
  have hlt' : i < (rows.map key).length := by rwa [List.length_map]
  rw [List.map_set, hkey, ← List.getElem_map key (h := hlt'), List.set_getElem_self]

theorem Distinct.set (h : Distinct key rows) (hi : rows[i]? = some r) (hkey : key r' = key r) :
    Distinct key (rows.set i r') := by
  unfold Distinct
  rwa [map_key_set hi hkey]

theorem Distinct.map {g : α → α} (h : Distinct key rows) (hkey : ∀ r ∈ rows, key (g r) = key r) :
    Distinct key (rows.map g) := by
  unfold Distinct
  rwa [List.map_map, List.map_congr_left (f := key ∘ g) hkey]

/-! ## Lookups -/

variable {k : κ}

section

variable [DecidableEq κ]

def lookup (key : α → κ) (rows : List α) (k : κ) : Option α := rows.find? (fun r => key r = k)

theorem lookup_eq_none_iff : lookup key rows k = none ↔ k ∉ rows.map key := by
  unfold lookup
  simp

variable (h : Distinct key rows)

include h

theorem lookup_eq_some_iff : lookup key rows k = some r ↔ r ∈ rows ∧ key r = k := by
  constructor
  · intro hfind
    exact ⟨List.mem_of_find?_eq_some hfind, by simpa using List.find?_some hfind⟩
  rintro ⟨hmem, hkey⟩
  cases hfind : lookup key rows k with
  | none =>
    rw [lookup_eq_none_iff] at hfind
    exact absurd (hkey ▸ List.mem_map_of_mem hmem) hfind
  | some r' =>
    have hmem' := List.mem_of_find?_eq_some hfind
    have hkey' : key r' = k := by simpa using List.find?_some hfind
    rw [List.inj_on_of_nodup_map h hmem' hmem (hkey'.trans hkey.symm)]

theorem lookup_perm (hperm : rows.Perm rows') (k : κ) : lookup key rows' k = lookup key rows k := by
  apply Option.ext
  intro r
  rw [lookup_eq_some_iff (h.perm hperm), lookup_eq_some_iff h, hperm.mem_iff]

omit h in
theorem lookup_cons (r : α) (rows : List α) (k : κ) :
    lookup key (r :: rows) k = if key r = k then some r else lookup key rows k := by
  unfold lookup
  by_cases hkey : key r = k <;> simp [hkey]

theorem lookup_swapRemove (hi : rows[i]? = some r) (k : κ) :
    lookup key (swapRemove rows i) k = if key r = k then none else lookup key rows k := by
  have hperm := swapRemove_perm rows i r hi
  rw [← lookup_perm h hperm, lookup_cons]
  split_ifs with hkey
  · rw [lookup_eq_none_iff, ← hkey]
    exact (List.nodup_cons.mp (h.perm hperm)).1
  · rfl

variable (hfresh : lookup key rows (key r) = none)
include hfresh

theorem Distinct.cons : Distinct key (r :: rows) :=
  List.nodup_cons.mpr ⟨lookup_eq_none_iff.mp hfresh, h⟩

theorem Distinct.push : Distinct key (rows ++ [r]) :=
  (h.cons hfresh).perm (List.perm_append_singleton r rows).symm

theorem lookup_push (k : κ) :
    lookup key (rows ++ [r]) k = if key r = k then some r else lookup key rows k := by
  rw [lookup_perm (h.cons hfresh) (List.perm_append_singleton r rows).symm, lookup_cons]

omit hfresh

theorem lookup_set (hi : rows[i]? = some r) (hkey : key r' = key r) (k : κ) :
    lookup key (rows.set i r') k = if key r = k then some r' else lookup key rows k := by
  obtain ⟨hlt, -⟩ := List.getElem?_eq_some_iff.mp hi
  have hset := h.set hi hkey
  by_cases hk : key r = k
  · rw [if_pos hk, lookup_eq_some_iff hset]
    exact ⟨List.mem_set hlt r', hkey.trans hk⟩
  rw [if_neg hk]
  cases hfind : lookup key rows k with
  | none =>
    rw [lookup_eq_none_iff, map_key_set hi hkey]
    exact lookup_eq_none_iff.mp hfind
  | some s =>
    obtain ⟨hmem, hs⟩ := (lookup_eq_some_iff h).mp hfind
    obtain ⟨j, hj⟩ := List.getElem?_of_mem hmem
    have hne : i ≠ j := by
      rintro rfl
      rw [hi] at hj
      cases hj
      exact hk hs
    have hj' : (rows.set i r')[j]? = some s := by
      rw [List.getElem?_set_ne hne, hj]
    rw [lookup_eq_some_iff hset]
    exact ⟨List.mem_of_getElem? hj', hs⟩

omit h

theorem lookup_map {g : α → α} (hkey : ∀ r ∈ rows, key (g r) = key r) (k : κ) :
    lookup key (rows.map g) k = (lookup key rows k).map g := by
  induction rows with
  | nil => rfl
  | cons r rows ih =>
    rw [List.map_cons, lookup_cons, lookup_cons, hkey r List.mem_cons_self,
      ih fun s hs => hkey s (List.mem_cons_of_mem _ hs)]
    split_ifs <;> rfl

theorem lookup_eq_findIdx? (rows : List α) (k : κ) :
    lookup key rows k = (rows.findIdx? (fun r => key r = k)).bind fun i => rows[i]? := by
  induction rows with
  | nil => rfl
  | cons r rows ih =>
    rw [lookup_cons, List.findIdx?_cons]
    by_cases hk : key r = k
    · simp [hk]
    · rw [if_neg hk, ih]
      cases hfind : rows.findIdx? (fun r => key r = k) <;> simp [hk]

end

/-! ## Views

One field of the rows, as a partial function from the keys. -/

section

variable [DecidableEq κ]

def view (key : α → κ) (field : α → β) (rows : List α) (k : κ) : Option β :=
  (lookup key rows k).map field

variable {field : α → β}

theorem view_eq_none_iff : view key field rows k = none ↔ lookup key rows k = none :=
  Option.map_eq_none_iff

theorem view_of_getElem? (h : Distinct key rows) (hi : rows[i]? = some r) :
    view key field rows (key r) = some (field r) := by
  unfold view
  rw [(lookup_eq_some_iff h).mpr ⟨List.mem_of_getElem? hi, rfl⟩]
  rfl

theorem view_of_lookup {o : Option α}
    (h : ∀ k, lookup key rows' k = if key r = k then o else lookup key rows k) :
    view key field rows' = Function.update (view key field rows) (key r) (o.map field) := by
  funext k
  rw [view, h, Function.update_apply]
  by_cases hk : key r = k
  · simp [hk]
  · simp [hk, Ne.symm hk, view]

variable (h : Distinct key rows)
include h

theorem view_swapRemove (hi : rows[i]? = some r) :
    view key field (swapRemove rows i) = Function.update (view key field rows) (key r) none :=
  view_of_lookup (lookup_swapRemove h hi)

theorem view_push (hfresh : lookup key rows (key r) = none) :
    view key field (rows ++ [r]) = Function.update (view key field rows) (key r) (some (field r)) :=
  view_of_lookup (lookup_push h hfresh)

theorem view_set (hi : rows[i]? = some r) (hkey : key r' = key r) :
    view key field (rows.set i r') =
      Function.update (view key field rows) (key r) (some (field r')) :=
  view_of_lookup (lookup_set h hi hkey)

theorem view_set_same (hi : rows[i]? = some r) (hkey : key r' = key r)
    (hfield : field r' = field r) : view key field (rows.set i r') = view key field rows := by
  have hview : view key field rows (key r) = some (field r) := view_of_getElem? h hi
  rw [view_set h hi hkey, hfield, ← hview, Function.update_eq_self]

omit h

theorem view_map (g : α → α) (hkey : ∀ r ∈ rows, key (g r) = key r) (k : κ) :
    view key field (rows.map g) k = view key (field ∘ g) rows k := by
  unfold view
  rw [lookup_map hkey, Option.map_map]

end

end Prns.Verified.KeyedRows
