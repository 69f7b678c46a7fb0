import Mathlib.Data.List.Nodup

/-!
# Segments laid end to end

A list of keyed payloads, laid end to end in one run of cells: the segment of a key
starts where the payloads before it end. `At` says where a segment lies. Segments of
different keys do not overlap, and together they cover the run exactly, by
construction; an implementation that keeps an offset for each key is right when its
offsets are those of `At`.
-/

namespace Prns.Verified.Segments

variable {κ α : Type}

/-- The payloads, end to end. -/
def flat (segs : List (κ × List α)) : List α := segs.flatMap Prod.snd

@[simp] theorem flat_nil : flat ([] : List (κ × List α)) = [] := rfl

@[simp] theorem flat_cons (key : κ) (payload : List α) (segs : List (κ × List α)) :
    flat ((key, payload) :: segs) = payload ++ flat segs := rfl

@[simp] theorem flat_append (front back : List (κ × List α)) :
    flat (front ++ back) = flat front ++ flat back := by
  simp [flat]

/-- The segment of `key` holds `payload` and starts at `offset`. -/
def At : List (κ × List α) → κ → Nat → List α → Prop
  | [], _, _, _ => False
  | (key, payload) :: segs, k, offset, p =>
      (k = key ∧ p = payload ∧ offset = 0) ∨
        ∃ rest, At segs k rest p ∧ offset = payload.length + rest

variable {segs front back before after : List (κ × List α)} {key k k' : κ}
  {payload p p' : List α} {offset o o' : Nat}

theorem at_append : At (front ++ back) k o p ↔
    At front k o p ∨ ∃ rest, At back k rest p ∧ o = (flat front).length + rest := by
  induction front generalizing o with
  | nil => simp [At]
  | cons seg front ih =>
    obtain ⟨key, payload⟩ := seg
    simp only [List.cons_append, At, ih, flat_cons, List.length_append]
    constructor
    · rintro (h | ⟨rest, h | ⟨rest', h, rfl⟩, rfl⟩)
      · exact Or.inl (Or.inl h)
      · exact Or.inl (Or.inr ⟨rest, h, rfl⟩)
      · exact Or.inr ⟨rest', h, by omega⟩
    · rintro ((h | ⟨rest, h, rfl⟩) | ⟨rest, h, rfl⟩)
      · exact Or.inl h
      · exact Or.inr ⟨rest, Or.inl h, rfl⟩
      · exact Or.inr ⟨_, Or.inr ⟨rest, h, rfl⟩, by omega⟩

theorem at_middle : At (before ++ (key, payload) :: after) k o p ↔
    At before k o p ∨ (k = key ∧ p = payload ∧ o = (flat before).length) ∨
      ∃ rest, At after k rest p ∧ o = (flat before).length + payload.length + rest := by
  rw [at_append]
  constructor
  · rintro (h | ⟨rest, ⟨hk, hp, rfl⟩ | ⟨rest', h, rfl⟩, rfl⟩)
    · exact Or.inl h
    · exact Or.inr (Or.inl ⟨hk, hp, by omega⟩)
    · exact Or.inr (Or.inr ⟨rest', h, by omega⟩)
  · rintro (h | ⟨hk, hp, rfl⟩ | ⟨rest, h, rfl⟩)
    · exact Or.inl h
    · exact Or.inr ⟨0, Or.inl ⟨hk, hp, rfl⟩, by omega⟩
    · exact Or.inr ⟨_, Or.inr ⟨rest, h, rfl⟩, by omega⟩

theorem At.mem (h : At segs k o p) : (k, p) ∈ segs := by
  induction segs generalizing o with
  | nil => exact h.elim
  | cons seg segs ih =>
    rcases h with ⟨rfl, rfl, -⟩ | ⟨rest, h, -⟩
    · exact List.mem_cons_self
    · exact List.mem_cons_of_mem _ (ih h)

theorem At.key_mem (h : At segs k o p) : k ∈ segs.map Prod.fst :=
  List.mem_map.mpr ⟨(k, p), h.mem, rfl⟩

theorem exists_at (h : (k, p) ∈ segs) : ∃ offset, At segs k offset p := by
  obtain ⟨before, after, rfl⟩ := List.append_of_mem h
  exact ⟨_, at_middle.mpr (Or.inr (Or.inl ⟨rfl, rfl, rfl⟩))⟩

theorem At.end_le (h : At segs k o p) : o + p.length ≤ (flat segs).length := by
  induction segs generalizing o with
  | nil => exact h.elim
  | cons seg segs ih =>
    rw [flat_cons, List.length_append]
    rcases h with ⟨-, rfl, rfl⟩ | ⟨rest, h, rfl⟩
    · omega
    · have := ih h
      omega

theorem At.read (h : At segs k o p) (rest : List α) :
    ((flat segs ++ rest).drop o).take p.length = p := by
  induction segs generalizing o with
  | nil => exact h.elim
  | cons seg segs ih =>
    rw [flat_cons, List.append_assoc]
    rcases h with ⟨-, rfl, rfl⟩ | ⟨offset, h, rfl⟩
    · rw [List.drop_zero, List.take_left]
    · rw [← List.drop_drop, List.drop_left]
      exact ih h

theorem At.disjoint (h : At segs k o p) (h' : At segs k' o' p') (hne : k ≠ k') :
    o + p.length ≤ o' ∨ o' + p'.length ≤ o := by
  induction segs generalizing o o' with
  | nil => exact h.elim
  | cons seg segs ih =>
    rcases h with ⟨rfl, rfl, rfl⟩ | ⟨rest, h, rfl⟩ <;>
      rcases h' with ⟨rfl, rfl, rfl⟩ | ⟨rest', h', rfl⟩
    · exact absurd rfl hne
    · exact Or.inl (by omega)
    · exact Or.inr (by omega)
    · have := ih h h'
      omega

theorem exists_cell {i : Nat} (h : i < (flat segs).length) :
    ∃ k o p, At segs k o p ∧ o ≤ i ∧ i < o + p.length := by
  induction segs generalizing i with
  | nil => exact absurd h (Nat.not_lt_zero i)
  | cons seg segs ih =>
    obtain ⟨key, payload⟩ := seg
    rw [flat_cons, List.length_append] at h
    by_cases hi : i < payload.length
    · exact ⟨key, 0, payload, Or.inl ⟨rfl, rfl, rfl⟩, Nat.zero_le i, by omega⟩
    · obtain ⟨k, o, p, hat, hle, hlt⟩ := ih (by omega : i - payload.length < (flat segs).length)
      exact ⟨k, payload.length + o, p, Or.inr ⟨o, hat, rfl⟩, by omega, by omega⟩

theorem not_mem_before (h : ((before ++ (key, payload) :: after).map Prod.fst).Nodup) :
    key ∉ before.map Prod.fst ∧ key ∉ after.map Prod.fst := by
  rw [List.map_append, List.map_cons, List.nodup_middle, List.nodup_cons, List.mem_append] at h
  exact ⟨fun hmem => h.1 (Or.inl hmem), fun hmem => h.1 (Or.inr hmem)⟩

theorem mem_middle (hk : k ≠ key) :
    (k, p) ∈ before ++ (key, payload) :: after ↔ (k, p) ∈ before ++ after := by
  have hne : (k, p) ≠ (key, payload) := fun heq => hk (congrArg Prod.fst heq)
  simp [hne]

theorem payload_of_mem (h : ((before ++ (key, payload) :: after).map Prod.fst).Nodup)
    (hmem : (key, p) ∈ before ++ (key, payload) :: after) : p = payload := by
  obtain ⟨hbefore, hafter⟩ := not_mem_before h
  rcases List.mem_append.mp hmem with hin | hin
  · exact absurd (List.mem_map.mpr ⟨_, hin, rfl⟩) hbefore
  · rcases List.mem_cons.mp hin with heq | hin
    · exact congrArg Prod.snd heq
    · exact absurd (List.mem_map.mpr ⟨_, hin, rfl⟩) hafter

end Prns.Verified.Segments
