import Mathlib.Data.List.Nodup
import Prns.Ports.ResourceWindow
import Prns.Verified.Bytes

/-!
# The hashmap of an outgoing resource

Model of `build_outgoing.rs`, as far as it names the parts of a sealed transfer, and of
`serve_outgoing.rs`, which answers requests for them. A part has no number on the wire; it
is called by a name of four bytes, the salted hash of its bytes. Names may repeat in a
long transfer, but not within the collision guard: the sender takes another salt until
that holds.

The flat byte slices of the source, which are read in steps of four, are lists of names
here; the last section serves from the bytes and shows that it is the same.
-/

namespace Prns.Ports.ResourcePull

open ResourceWindow (windowMax)
open Verified

/-- A name of four bytes, which the source compares as one word. -/
abbrev MapHash : Type := UInt32

/-- `HASHMAP_MAX_LEN`: the names that one advertisement or one update carries. -/
def hashmapMaxLen : Nat := 74

/-- `COLLISION_GUARD_SIZE`. -/
def collisionGuardSize : Nat := 2 * windowMax + hashmapMaxLen

/-- `MAX_REQUESTED_PARTS`: a request has 337 bytes, a flag and a resource hash before the
names. -/
def maxRequestedParts : Nat := (337 - 1 - 32) / 4

/-! ## Building -/

/-- `sealed.chunks(sdu)`. -/
def chunks (sealed : List UInt8) (sdu : Nat) : List (List UInt8) :=
  (List.range ((sealed.length + sdu - 1) / sdu)).map fun i => (sealed.drop (i * sdu)).take sdu

/-- One round of the loop: the names written so far, in order, and the next part. -/
def nameNext (mapHash : List UInt8 → MapHash) (names : List MapHash) (part : List UInt8) :
    Option (List MapHash) :=
  let name := mapHash part
  let guardStart := names.length - collisionGuardSize
  if (names.drop guardStart).contains name then none else some (names ++ [name])

/-- `write_hashmap_without_collision`; `none` is `Collided`. The salt is part of the
hash. -/
def writeHashmapWithoutCollision (mapHash : List UInt8 → MapHash) (sealed : List UInt8)
    (sdu : Nat) : Option (List MapHash) :=
  (chunks sealed sdu).foldlM (nameNext mapHash) []

/-- No name repeats within the collision guard. -/
def Guarded (names : List MapHash) : Prop :=
  ∀ i j name, names[i]? = some name → names[j]? = some name → i < j →
    i + collisionGuardSize < j

theorem guarded_nil : Guarded [] := by
  intro i j name hi
  cases hi

variable {mapHash : List UInt8 → MapHash} {names : List MapHash}

theorem guarded_nameNext {next : List MapHash} {part : List UInt8} (h : Guarded names)
    (hnext : nameNext mapHash names part = some next) : Guarded next := by
  unfold nameNext at hnext
  dsimp only at hnext
  split_ifs at hnext with hcontains
  cases hnext
  intro i j name hi hj hij
  rcases Nat.lt_or_ge j names.length with hold | hnew
  · rw [List.getElem?_append_left hold] at hj
    rw [List.getElem?_append_left (Nat.lt_trans hij hold)] at hi
    exact h i j name hi hj hij
  -- The second of the two is the new name: the first is then not among the guarded ones.
  · have hlen := (List.getElem?_eq_some_iff.mp hj).1
    rw [List.length_append, List.length_singleton] at hlen
    obtain rfl : j = names.length := by omega
    rw [List.getElem?_concat_length] at hj
    cases hj
    rw [List.getElem?_append_left hij] at hi
    by_contra hclose
    apply hcontains
    rw [List.contains_iff_mem]
    apply List.mem_of_getElem? (i := i - (names.length - collisionGuardSize))
    rw [List.getElem?_drop]
    rw [show names.length - collisionGuardSize + (i - (names.length - collisionGuardSize)) = i by
      omega]
    exact hi

theorem foldlM_nameNext (parts : List (List UInt8)) {result : List MapHash} (h : Guarded names)
    (hresult : parts.foldlM (nameNext mapHash) names = some result) :
    Guarded result ∧ result.length = names.length + parts.length := by
  induction parts generalizing names with
  | nil =>
    cases hresult
    exact ⟨h, rfl⟩
  | cons part parts ih =>
    rw [List.foldlM_cons] at hresult
    cases hnext : nameNext mapHash names part with
    | none =>
      rw [hnext] at hresult
      cases hresult
    | some next =>
      rw [hnext] at hresult
      obtain ⟨hguarded, hlength⟩ := ih (guarded_nameNext h hnext) hresult
      unfold nameNext at hnext
      dsimp only at hnext
      split_ifs at hnext
      cases hnext
      rw [List.length_append, List.length_singleton] at hlength
      exact ⟨hguarded, by rw [hlength, List.length_cons]; omega⟩

variable {sealed : List UInt8} {sdu : Nat}

theorem guarded_writeHashmap (h : writeHashmapWithoutCollision mapHash sealed sdu = some names) :
    Guarded names ∧ names.length = (chunks sealed sdu).length := by
  obtain ⟨hguarded, hlength⟩ := foldlM_nameNext _ guarded_nil h
  exact ⟨hguarded, hlength.trans (Nat.zero_add _)⟩

theorem writeHashmap_of_nodup (h : ((chunks sealed sdu).map mapHash).Nodup) :
    writeHashmapWithoutCollision mapHash sealed sdu = some ((chunks sealed sdu).map mapHash) := by
  have hfold (parts : List (List UInt8)) (names : List MapHash)
      (h : (names ++ parts.map mapHash).Nodup) :
      parts.foldlM (nameNext mapHash) names = some (names ++ parts.map mapHash) := by
    induction parts generalizing names with
    | nil => simp
    | cons part parts ih =>
      have hname : mapHash part ∉ names.drop (names.length - collisionGuardSize) := by
        intro hmem
        exact (List.nodup_append.mp h).2.2 _ (List.mem_of_mem_drop hmem) _ List.mem_cons_self rfl
      rw [List.map_cons, ← List.singleton_append, ← List.append_assoc] at h
      have hnext : nameNext mapHash names part = some (names ++ [mapHash part]) := by
        simpa [nameNext] using hname
      rw [List.foldlM_cons, hnext, Option.bind_eq_bind, Option.bind_some, ih _ h]
      simp
  exact hfold (chunks sealed sdu) [] h

/-- The positions that the sender serves from. -/
def servingScope (names : List MapHash) (scopeStart : Nat) : List Nat :=
  List.range' scopeStart (min (scopeStart + collisionGuardSize) names.length - scopeStart)

/-- `serve_part_indices`: the positions in the scope whose name was asked for, in order,
until the array of results is full. -/
def servePartIndices (names : List MapHash) (scopeStart : Nat) (requested : List MapHash) :
    List Nat :=
  ((servingScope names scopeStart).filter fun i =>
    (names[i]?).any requested.contains).take maxRequestedParts

inductive HashmapUpdatePlanError where
  | lastMapHashNotInScope
  | notOnSegmentBoundary
  deriving DecidableEq, Repr

structure HashmapUpdatePlan where
  segment : Nat
  entriesStart : Nat
  entriesEnd : Nat
  scopeStart : Nat
  deriving DecidableEq, Repr

def planHashmapUpdate (names : List MapHash) (scopeStart : Nat) (lastKnown : MapHash) :
    Except HashmapUpdatePlanError HashmapUpdatePlan :=
  match (servingScope names scopeStart).find? fun i => names[i]? == some lastKnown with
  | none => .error .lastMapHashNotInScope
  | some found =>
      let pastMatched := found + 1
      if pastMatched % hashmapMaxLen ≠ 0 then .error .notOnSegmentBoundary
      else
        let segment := pastMatched / hashmapMaxLen
        .ok ⟨segment, segment * hashmapMaxLen,
          min ((segment + 1) * hashmapMaxLen) names.length, pastMatched - (1 + windowMax)⟩

theorem mem_servingScope {scopeStart i : Nat} : i ∈ servingScope names scopeStart ↔
      scopeStart ≤ i ∧ i < scopeStart + collisionGuardSize ∧ i < names.length := by
  rw [servingScope, List.mem_range'_1]
  omega

theorem servingScope_unique (h : Guarded names) {scopeStart i j : Nat} {name : MapHash}
    (hi : i ∈ servingScope names scopeStart) (hj : j ∈ servingScope names scopeStart)
    (hnamei : names[i]? = some name) (hnamej : names[j]? = some name) : i = j := by
  rw [mem_servingScope] at hi hj
  rcases Nat.lt_trichotomy i j with hlt | heq | hgt
  · have := h i j name hnamei hnamej hlt
    omega
  · exact heq
  · have := h j i name hnamej hnamei hgt
    omega

theorem planHashmapUpdate_ok (h : Guarded names) {scopeStart segment : Nat} {lastKnown : MapHash}
    (hsegment : 0 < segment) (hscope : segment * hashmapMaxLen - 1 ∈ servingScope names scopeStart)
    (hname : names[segment * hashmapMaxLen - 1]? = some lastKnown) :
    planHashmapUpdate names scopeStart lastKnown = .ok ⟨segment, segment * hashmapMaxLen,
        min ((segment + 1) * hashmapMaxLen) names.length,
        segment * hashmapMaxLen - (1 + windowMax)⟩ := by
  have hpos : 0 < segment * hashmapMaxLen := Nat.mul_pos hsegment (by decide)
  unfold planHashmapUpdate
  cases hfind : (servingScope names scopeStart).find? fun i => names[i]? == some lastKnown with
  | none =>
    have hnone := List.find?_eq_none.mp hfind _ hscope
    rw [hname] at hnone
    exact absurd (beq_self_eq_true _) hnone
  | some found =>
    have hfound := List.find?_some hfind
    have hmatch : names[found]? = some lastKnown := by simpa using hfound
    obtain rfl : found = segment * hashmapMaxLen - 1 :=
      servingScope_unique h (List.mem_of_find?_eq_some hfind) hscope hmatch hname
    have hpast : segment * hashmapMaxLen - 1 + 1 = segment * hashmapMaxLen := by omega
    dsimp only
    rw [hpast, if_neg (by rw [Nat.mul_mod_left]; decide),
      Nat.mul_div_cancel _ (by decide : 0 < hashmapMaxLen)]

/-! ## Serving from the bytes -/

/-- The name at a position of a flat slice. -/
def nameAt (flat : List UInt8) (i : Nat) : List UInt8 := (flat.drop (i * 4)).take 4

/-- `as_chunks`, without the ragged end. -/
def wholeNames (flat : List UInt8) : List (List UInt8) :=
  (List.range (flat.length / 4)).map (nameAt flat)

def mapHashNameWord (name : List UInt8) : MapHash := UInt32.ofNat (ofLeBytes name)

def nameWords (flat : List UInt8) : List MapHash := (wholeNames flat).map mapHashNameWord

/-- The loop over the scope. A `push` into a full array is refused and ends it. -/
def serveLoop (asked : Nat → Bool) : List Nat → List Nat → List Nat
  | [], served => served
  | i :: scope, served =>
      if asked i then
        if served.length = maxRequestedParts then served
        else serveLoop asked scope (served ++ [i])
      else serveLoop asked scope served

/-- `serve_part_indices`: the names of a request that fits are packed into words, the
names of a longer one are compared byte by byte. -/
def servePartIndicesFlat (hashmap : List UInt8) (scopeStart : Nat) (requested : List UInt8) :
    List Nat :=
  let scope := servingScope (nameWords hashmap) scopeStart
  if (wholeNames requested).length ≤ maxRequestedParts then
    serveLoop (fun i => (nameWords requested).contains (mapHashNameWord (nameAt hashmap i)))
      scope []
  else serveLoop (fun i => (wholeNames requested).any (· == nameAt hashmap i)) scope []

theorem serveLoop_eq (asked : Nat → Bool) (scope : List Nat) {served : List Nat}
    (h : served.length ≤ maxRequestedParts) :
    serveLoop asked scope served =
      served ++ (scope.filter asked).take (maxRequestedParts - served.length) := by
  induction scope generalizing served with
  | nil => simp [serveLoop]
  | cons i scope ih =>
    by_cases hasked : asked i
    · by_cases hfull : served.length = maxRequestedParts
      · simp [serveLoop, hasked, hfull]
      have hroom : maxRequestedParts - served.length =
          maxRequestedParts - (served ++ [i]).length + 1 := by
        rw [List.length_append, List.length_singleton]
        omega
      rw [serveLoop, if_pos hasked, if_neg hfull, ih (by simp; omega), hroom,
        List.filter_cons_of_pos hasked]
      simp
    · simp [serveLoop, hasked, ih h]

section

variable {flat requested : List UInt8} {i : Nat}

theorem length_nameAt (h : i < flat.length / 4) : (nameAt flat i).length = 4 := by
  simp [nameAt]
  omega

theorem length_of_mem_wholeNames {name : List UInt8} (h : name ∈ wholeNames flat) :
    name.length = 4 := by
  obtain ⟨i, hi, rfl⟩ := List.mem_map.mp h
  exact length_nameAt (List.mem_range.mp hi)

theorem mapHashNameWord_inj {a b : List UInt8} (ha : a.length = 4) (hb : b.length = 4)
    (h : mapHashNameWord a = mapHashNameWord b) : a = b := by
  apply ofLeBytes_inj (ha.trans hb.symm)
  have hlta := ofLeBytes_lt a
  have hltb := ofLeBytes_lt b
  rw [ha] at hlta
  rw [hb] at hltb
  have hnat : ofLeBytes a % 256 ^ 4 = ofLeBytes b % 256 ^ 4 := congrArg UInt32.toNat h
  rwa [Nat.mod_eq_of_lt hlta, Nat.mod_eq_of_lt hltb] at hnat

theorem mem_nameWords (h : i < flat.length / 4) :
    mapHashNameWord (nameAt flat i) ∈ nameWords requested ↔
      nameAt flat i ∈ wholeNames requested := by
  refine ⟨fun hmem => ?_, List.mem_map_of_mem⟩
  obtain ⟨name, hname, hword⟩ := List.mem_map.mp hmem
  rwa [← mapHashNameWord_inj (length_of_mem_wholeNames hname) (length_nameAt h) hword]

theorem mem_scope_flat {scopeStart : Nat} (h : i ∈ servingScope (nameWords flat) scopeStart) :
    i < flat.length / 4 := by
  simpa [nameWords, wholeNames] using (mem_servingScope.mp h).2.2

theorem getElem?_nameWords (h : i < flat.length / 4) :
    (nameWords flat)[i]? = some (mapHashNameWord (nameAt flat i)) := by
  simp [nameWords, wholeNames, List.getElem?_range h]

theorem servePartIndicesFlat_eq (scopeStart : Nat) :
    servePartIndicesFlat flat scopeStart requested =
      servePartIndices (nameWords flat) scopeStart (nameWords requested) := by
  unfold servePartIndicesFlat servePartIndices
  split
  all_goals
    rw [serveLoop_eq _ _ (Nat.zero_le _), List.nil_append, List.length_nil, Nat.sub_zero]
    refine congrArg (List.take _) (List.filter_congr fun i hi => ?_)
    have hlt := mem_scope_flat hi
    simp [getElem?_nameWords hlt, mem_nameWords hlt, List.any_beq']

end

/-- Two parts that are not further apart than the guard have different names, and a request
is answered with the parts of the scope whose name it has, in ascending order and so each
of them once, up to the size of the array. -/
theorem serves_requested_parts : (∀ (mapHash : List UInt8 → MapHash) sealed sdu names,
      writeHashmapWithoutCollision mapHash sealed sdu = some names →
      ∀ i j a b, names[i]? = some a → names[j]? = some b → i < j →
        j ≤ i + collisionGuardSize → a ≠ b) ∧
    ∀ hashmap scopeStart requested, servePartIndicesFlat hashmap scopeStart requested =
        ((servingScope (nameWords hashmap) scopeStart).filter
          (nameAt hashmap · ∈ wholeNames requested)).take maxRequestedParts ∧
      (servePartIndicesFlat hashmap scopeStart requested).Pairwise (· < ·) := by
  refine ⟨?_, fun hashmap scopeStart requested => ?_⟩
  · rintro mapHash sealed sdu names h i j a b hi hj hlt hle rfl
    have := (guarded_writeHashmap h).1 i j a hi hj hlt
    omega
  have heq : servePartIndicesFlat hashmap scopeStart requested =
      ((servingScope (nameWords hashmap) scopeStart).filter
        (nameAt hashmap · ∈ wholeNames requested)).take maxRequestedParts := by
    rw [servePartIndicesFlat_eq, servePartIndices]
    refine congrArg (List.take _) (List.filter_congr fun i hi => ?_)
    have hlt := mem_scope_flat hi
    simp [getElem?_nameWords hlt, mem_nameWords hlt]
  refine ⟨heq, ?_⟩
  rw [heq]
  exact ((List.pairwise_lt_range' ..).filter _).take

/-- Two parts that are their own names, the second asked for twice. -/
theorem serves_requested_parts_twice : (1 : MapHash) ≠ 2 ∧
    servePartIndicesFlat [1, 0, 0, 0, 2, 0, 0, 0] 0 [2, 0, 0, 0, 2, 0, 0, 0, 9] = [1] :=
  ⟨serves_requested_parts.1 mapHashNameWord [1, 0, 0, 0, 2, 0, 0, 0] 4 [1, 2] (by decide) 0 1 _ _
    rfl rfl (by decide) (by decide), (serves_requested_parts.2 _ 0 _).1.trans (by decide)⟩

end Prns.Ports.ResourcePull
