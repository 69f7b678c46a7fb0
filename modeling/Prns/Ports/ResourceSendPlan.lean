import Mathlib.Algebra.BigOperators.Intervals
import Prns.Ports.OutgoingResources

/-!
# The segments of a resource

Model of `send_plan.rs`. A resource is a stream: the block of its metadata, then its data.
The plan cuts the stream into segments of one size; a short tail is balanced with the
segment before it, but the metadata stay whole.

The proofs go through the boundaries of the segments in the stream.
-/

namespace Prns.Ports.OutgoingResources

inductive ResourceSendPlanError where
  | zeroSegmentBytes
  | segmentTooLarge
  | packedMetadataLengthOverflow
  | totalLengthOverflow
  | metadataDoesNotFit
  deriving DecidableEq, Repr

structure ResourceSendPlan where
  totalDataBytes : Nat
  metadataBlockBytes : Nat
  segmentStreamBytes : Nat
  totalStreamBytes : Nat
  totalSegments : Nat
  rebalanceFinalPair : Bool
  deriving DecidableEq, Repr

structure ResourceSegmentPlan where
  segment : ResourceSegment
  dataStart : Nat
  dataEnd : Nat
  streamBytes : Nat
  deriving DecidableEq, Repr

/-- `checked_add` on `u64`. -/
def checkedAdd (a b : Nat) : Option Nat := if a + b ≤ u64Max then some (a + b) else none

/-- `*` on `u64`; `none` where it overflows. -/
def timesU64 (a b : Nat) : Option Nat := if a * b ≤ u64Max then some (a * b) else none

def saturatingAddU64 (a b : Nat) : Nat := min (a + b) u64Max

def divCeil (a b : Nat) : Nat := a / b + if a % b = 0 then 0 else 1

def metadataBlockOf : Option Nat → Option Nat
  | some packedBytes => checkedAdd packedBytes metadataPrefixLen
  | none => some 0

namespace ResourceSendPlan

def new (totalDataBytes : Nat) (packedMetadataBytes : Option Nat) (segmentStreamBytes : Nat) :
    Except ResourceSendPlanError ResourceSendPlan :=
  if segmentStreamBytes = 0 then .error .zeroSegmentBytes
  else if maxEfficientSize < segmentStreamBytes then .error .segmentTooLarge
  else
    match metadataBlockOf packedMetadataBytes with
    | none => .error .packedMetadataLengthOverflow
    | some metadataBlockBytes =>
        if segmentStreamBytes < metadataBlockBytes then .error .metadataDoesNotFit
        else
          match checkedAdd totalDataBytes metadataBlockBytes with
          | none => .error .totalLengthOverflow
          | some totalStreamBytes =>
              let totalSegments := max (divCeil totalStreamBytes segmentStreamBytes) 1
              let finalStreamBytes := totalStreamBytes % segmentStreamBytes
              .ok ⟨totalDataBytes, metadataBlockBytes, segmentStreamBytes, totalStreamBytes,
                totalSegments, decide (1 < totalSegments ∧ finalStreamBytes ≠ 0 ∧
                  finalStreamBytes < segmentStreamBytes / 2)⟩

def fullSegmentCount (plan : ResourceSendPlan) : Nat :=
  if plan.rebalanceFinalPair then plan.totalSegments - 2 else plan.totalSegments

/-- What the first segment of the final pair carries. -/
def firstStreamBytes (plan : ResourceSendPlan) (pairBytes : Nat) : Nat :=
  max (divCeil pairBytes 2) (if plan.fullSegmentCount = 0 then plan.metadataBlockBytes else 0)

/-- The start and the length of a segment in the stream, the first half of `segment`;
`none` where a product overflows. -/
def streamRange (plan : ResourceSendPlan) (index : Nat) : Option (Nat × Nat) :=
  if index ≤ plan.fullSegmentCount then
    (timesU64 (index - 1) plan.segmentStreamBytes).map fun streamStart =>
      (streamStart, min (plan.totalStreamBytes - streamStart) plan.segmentStreamBytes)
  else
    (timesU64 plan.fullSegmentCount plan.segmentStreamBytes).map fun pairStart =>
      let firstStreamBytes := plan.firstStreamBytes (plan.totalStreamBytes - pairStart)
      if plan.rebalanceFinalPair ∧ index = plan.totalSegments - 1 then
        (pairStart, firstStreamBytes)
      else
        let streamStart := saturatingAddU64 pairStart firstStreamBytes
        (streamStart, plan.totalStreamBytes - streamStart)

/-- `segment`; the outer `none` is an overflow, the inner one an index without a segment. -/
def segment (plan : ResourceSendPlan) (index : Nat) : Option (Option ResourceSegmentPlan) :=
  if index = 0 ∨ plan.totalSegments < index then some none
  else
    (plan.streamRange index).map fun (streamStart, streamBytes) =>
      some ⟨⟨index, plan.totalSegments, plan.totalDataBytes⟩,
        streamStart - plan.metadataBlockBytes,
        min (saturatingAddU64 streamStart streamBytes - plan.metadataBlockBytes)
          plan.totalDataBytes,
        streamBytes⟩

/-! ## Boundaries -/

/-- What `new` makes sure of. -/
structure Sound (plan : ResourceSendPlan) : Prop where
  size_pos : 0 < plan.segmentStreamBytes
  metadata_le : plan.metadataBlockBytes ≤ plan.segmentStreamBytes
  total_eq : plan.totalStreamBytes = plan.totalDataBytes + plan.metadataBlockBytes
  total_le : plan.totalStreamBytes ≤ u64Max
  segments_eq : plan.totalSegments = max (divCeil plan.totalStreamBytes plan.segmentStreamBytes) 1
  rebalance_iff : plan.rebalanceFinalPair = true ↔ 1 < plan.totalSegments ∧
    plan.totalStreamBytes % plan.segmentStreamBytes ≠ 0 ∧
    plan.totalStreamBytes % plan.segmentStreamBytes < plan.segmentStreamBytes / 2

variable {plan : ResourceSendPlan} {i : Nat}

theorem sound_of_new {total size : Nat} {packed : Option Nat}
    (h : new total packed size = .ok plan) :
    plan.Sound ∧ plan.totalDataBytes = total ∧ plan.segmentStreamBytes = size ∧
      metadataBlockOf packed = some plan.metadataBlockBytes := by
  unfold new at h
  split_ifs at h with hzero hlarge
  cases hblock : metadataBlockOf packed with
  | none =>
    rw [hblock] at h
    cases h
  | some block =>
    simp only [hblock, checkedAdd] at h
    split_ifs at h with hfits hsum
    cases h
    exact ⟨⟨Nat.pos_of_ne_zero hzero, Nat.not_lt.mp hfits, rfl, hsum, rfl, decide_eq_true_iff⟩,
      rfl, rfl, rfl⟩

structure Cut (plan : ResourceSendPlan) (bound : Nat → Nat) : Prop where
  zero : bound 0 = 0
  last : bound plan.totalSegments = plan.totalStreamBytes
  mono : ∀ i < plan.totalSegments, bound i ≤ bound (i + 1)
  at_most : ∀ i < plan.totalSegments, bound (i + 1) ≤ bound i + plan.segmentStreamBytes
  filled : plan.totalStreamBytes ≠ 0 → ∀ i < plan.totalSegments, bound i < bound (i + 1)
  metadata : plan.metadataBlockBytes ≤ bound 1
  range : ∀ i < plan.totalSegments,
    plan.streamRange (i + 1) = some (bound i, bound (i + 1) - bound i)

theorem divCeil_le_iff {a b k : Nat} (hb : 0 < b) : divCeil a b ≤ k ↔ a ≤ k * b := by
  have hdiv := Nat.div_add_mod' a b
  unfold divCeil
  split
  · rw [Nat.add_zero, ← Nat.mul_le_mul_right_iff hb]
    omega
  rename_i hrest
  have hne : a ≠ k * b := by
    rintro rfl
    exact hrest (Nat.mul_mod_left k b)
  rw [Nat.succ_le_iff, Nat.div_lt_iff_lt_mul hb]
  omega

theorem Sound.lt_segments (h : plan.Sound) (hi : i < plan.totalSegments) :
    i * plan.segmentStreamBytes ≤ plan.totalStreamBytes ∧
      (plan.totalStreamBytes ≠ 0 → i * plan.segmentStreamBytes < plan.totalStreamBytes) := by
  rw [h.segments_eq, lt_max_iff] at hi
  rcases hi with hi | hi
  · have hlt := Nat.not_le.mp (fun hle => Nat.not_le.mpr hi ((divCeil_le_iff h.size_pos).mpr hle))
    exact ⟨Nat.le_of_lt hlt, fun _ => hlt⟩
  · obtain rfl : i = 0 := by omega
    rw [Nat.zero_mul]
    exact ⟨Nat.zero_le _, Nat.pos_of_ne_zero⟩

theorem Sound.cut_plain (h : plan.Sound) (hplain : plan.rebalanceFinalPair = false) :
    plan.Cut fun i => min (i * plan.segmentStreamBytes) plan.totalStreamBytes := by
  have hfull : plan.fullSegmentCount = plan.totalSegments := by rw [fullSegmentCount, hplain]; rfl
  have hnext : ∀ i, (i + 1) * plan.segmentStreamBytes =
      i * plan.segmentStreamBytes + plan.segmentStreamBytes := fun i => Nat.succ_mul i _
  have hsize := h.size_pos
  have hlast : plan.totalStreamBytes ≤ plan.totalSegments * plan.segmentStreamBytes := by
    rw [← divCeil_le_iff hsize, h.segments_eq]
    exact Nat.le_max_left _ _
  refine ⟨by simp, Nat.min_eq_right hlast, ?_, ?_, ?_, ?_, ?_⟩
  · intro i _
    rw [hnext]
    omega
  · intro i _
    rw [hnext]
    omega
  · intro hne i hi
    have hlt := (h.lt_segments hi).2 hne
    rw [hnext]
    omega
  · have hmetadata := h.metadata_le
    have htotal := h.total_eq
    omega
  intro i hi
  have hle := (h.lt_segments hi).1
  have htotal := h.total_le
  rw [streamRange, if_pos (by omega), timesU64, Nat.add_sub_cancel, if_pos (by omega), hnext,
    Option.map_some, Option.some_inj, Prod.mk.injEq]
  omega

/-- A balanced pair carries one size and the short tail: its first segment takes at least
half of them, and the metadata if nothing is before it. -/
theorem Sound.cut_balanced (h : plan.Sound) (hpair : plan.rebalanceFinalPair = true) :
    ∃ bound, plan.Cut bound := by
  obtain ⟨hmany, htail, hshort⟩ := h.rebalance_iff.mp hpair
  obtain ⟨full, hfull⟩ := Nat.exists_eq_add_of_le' hmany
  have hcount : plan.fullSegmentCount = full := by rw [fullSegmentCount, hpair, if_pos rfl]; omega
  have hstream : plan.totalStreamBytes = full * plan.segmentStreamBytes +
      plan.segmentStreamBytes + plan.totalStreamBytes % plan.segmentStreamBytes := by
    have hsegments := h.segments_eq
    rw [divCeil, if_neg htail] at hsegments
    have hquotient : plan.totalStreamBytes / plan.segmentStreamBytes = full + 1 := by omega
    rw [← Nat.succ_mul, Nat.succ_eq_add_one, ← hquotient, Nat.div_add_mod']
  generalize hstart : full * plan.segmentStreamBytes = start at hstream
  obtain ⟨first, hfirst⟩ : ∃ first, plan.firstStreamBytes (plan.totalStreamBytes - start) = first :=
    ⟨_, rfl⟩
  have hmetadata := h.metadata_le
  have hbounds : 0 < first ∧ first ≤ plan.segmentStreamBytes ∧
      plan.totalStreamBytes ≤ start + first + plan.segmentStreamBytes ∧
      (full = 0 → plan.metadataBlockBytes ≤ first) := by
    rw [← hfirst, firstStreamBytes, hcount, divCeil]
    split <;> split <;> omega
  have htotal := h.total_le
  have hbelow : ∀ i < full, (i + 1) * plan.segmentStreamBytes =
      i * plan.segmentStreamBytes + plan.segmentStreamBytes ∧
      i * plan.segmentStreamBytes + plan.segmentStreamBytes ≤ start := by
    intro i hi
    have hle := Nat.mul_le_mul_right plan.segmentStreamBytes hi
    rw [Nat.succ_mul, hstart] at hle
    exact ⟨Nat.succ_mul i _, hle⟩
  let bound := fun i => if i ≤ full then i * plan.segmentStreamBytes
    else if i = full + 1 then start + first else plan.totalStreamBytes
  have hfulls : ∀ i ≤ full, bound i = i * plan.segmentStreamBytes := fun i hi => if_pos hi
  have hmiddle : bound (full + 1) = start + first := by simp [bound]
  have hend : bound (full + 2) = plan.totalStreamBytes := by simp [bound]
  have hstep : ∀ i < plan.totalSegments, bound i < bound (i + 1) ∧
      bound (i + 1) ≤ bound i + plan.segmentStreamBytes ∧
      plan.streamRange (i + 1) = some (bound i, bound (i + 1) - bound i) := by
    intro i hi
    simp only [streamRange, timesU64, hcount, hpair, hstart]
    rcases Nat.lt_trichotomy i full with hlow | heq | hhigh
    · obtain ⟨hnext, hle⟩ := hbelow i hlow
      rw [hfulls i (Nat.le_of_lt hlow), hfulls (i + 1) hlow, hnext, if_pos (by omega),
        Nat.add_sub_cancel, if_pos (by omega), Option.map_some, Option.some_inj, Prod.mk.injEq]
      omega
    · rw [heq, hfulls full Nat.le.refl, hmiddle, hstart, if_neg (by omega), if_pos (by omega),
        Option.map_some, if_pos ⟨trivial, by omega⟩, hfirst, Option.some_inj, Prod.mk.injEq]
      omega
    · obtain rfl : i = full + 1 := by omega
      rw [hmiddle, hend, if_neg (by omega), if_pos (by omega), Option.map_some,
        if_neg (by omega), hfirst, saturatingAddU64, Nat.min_eq_left (by omega)]
      exact ⟨by omega, by omega, rfl⟩
  refine ⟨bound, by simp [bound], hfull ▸ hend, fun i hi => Nat.le_of_lt (hstep i hi).1,
    fun i hi => (hstep i hi).2.1, fun _ i hi => (hstep i hi).1, ?_, fun i hi => (hstep i hi).2.2⟩
  rcases Nat.eq_zero_or_pos full with rfl | hpos
  · exact Nat.le_trans (hbounds.2.2.2 rfl) (Nat.le_add_left _ _)
  · rw [hfulls 1 hpos, Nat.one_mul]
    exact hmetadata

theorem Sound.cut (h : plan.Sound) : ∃ bound, plan.Cut bound := by
  cases hpair : plan.rebalanceFinalPair with
  | false => exact ⟨_, h.cut_plain hpair⟩
  | true => exact h.cut_balanced hpair

section

variable {bound : Nat → Nat} (h : plan.Cut bound)

include h

theorem Cut.bound_mono {i j : Nat} (hij : i ≤ j) (hj : j ≤ plan.totalSegments) :
    bound i ≤ bound j := by
  induction j, hij using Nat.le_induction with
  | base => exact Nat.le_refl _
  | succ j _ ih => exact Nat.le_trans (ih (by omega)) (h.mono j hj)

theorem Cut.sum (hi : i ≤ plan.totalSegments) :
    ∑ j ∈ Finset.range i, (bound (j + 1) - bound j) = bound i := by
  induction i with
  | zero => exact h.zero.symm
  | succ i ih =>
    have hstep := h.mono i hi
    rw [Finset.sum_range_succ, ih (by omega)]
    omega

end

/-! ## Tiling -/

/-- The segments of a plan, the one of index `i + 1` as `part i`. -/
structure Tiling (plan : ResourceSendPlan) (part : Nat → ResourceSegmentPlan) : Prop where
  given : ∀ i < plan.totalSegments, plan.segment (i + 1) = some (some (part i))
  no_other : ∀ index, index = 0 ∨ plan.totalSegments < index → plan.segment index = some none
  first : (part 0).dataStart = 0
  joined : ∀ i, i + 1 < plan.totalSegments → (part (i + 1)).dataStart = (part i).dataEnd
  ordered : ∀ i < plan.totalSegments, (part i).dataStart ≤ (part i).dataEnd
  last : (part (plan.totalSegments - 1)).dataEnd = plan.totalDataBytes
  /-- The stream starts of the model are exact: nothing saturates. -/
  starts : ∀ i < plan.totalSegments, plan.streamRange (i + 1) =
    some (∑ j ∈ Finset.range i, (part j).streamBytes, (part i).streamBytes)
  whole : ∑ i ∈ Finset.range plan.totalSegments, (part i).streamBytes = plan.totalStreamBytes
  at_most : ∀ i < plan.totalSegments, (part i).streamBytes ≤ plan.segmentStreamBytes
  filled : plan.totalStreamBytes ≠ 0 → ∀ i < plan.totalSegments, 0 < (part i).streamBytes
  metadata : ∀ i < plan.totalSegments, (part i).streamBytes =
    ((part i).dataEnd - (part i).dataStart) + if i = 0 then plan.metadataBlockBytes else 0

/-- **The segments tile the resource.** For every length, metadata and segment size that
`new` accepts: the indices from one to the number of segments have a segment and no others
do; in this order the segments cover the data without gap or overlap; their stream lengths
add up to the stream, none is longer than the segment size, and none is empty unless the
stream is; the first one carries the whole metadata block and the others none of it; and
nothing on the way leaves `u64`. -/
theorem segments_tile_the_resource {total size : Nat} {packed : Option Nat}
    {plan : ResourceSendPlan} (h : new total packed size = .ok plan) :
    plan.totalDataBytes = total ∧ plan.segmentStreamBytes = size ∧
      metadataBlockOf packed = some plan.metadataBlockBytes ∧
      plan.totalStreamBytes = total + plan.metadataBlockBytes ∧
      plan.totalStreamBytes ≤ u64Max ∧ ∃ part, plan.Tiling part := by
  obtain ⟨hsound, htotal, hsize, hmetadata⟩ := sound_of_new h
  obtain ⟨bound, hcut⟩ := hsound.cut
  refine ⟨htotal, hsize, hmetadata, htotal ▸ hsound.total_eq, hsound.total_le,
    fun i => ⟨⟨i + 1, plan.totalSegments, plan.totalDataBytes⟩, bound i - plan.metadataBlockBytes,
      bound (i + 1) - plan.metadataBlockBytes, bound (i + 1) - bound i⟩, ?_⟩
  have hpos : 0 < plan.totalSegments := by
    have hsegments := hsound.segments_eq
    omega
  have htotal := hsound.total_eq
  constructor
  case given =>
    intro i hi
    have hnext : bound (i + 1) ≤ plan.totalStreamBytes :=
      hcut.last ▸ hcut.bound_mono hi Nat.le.refl
    have hbound := hsound.total_le
    have hmono := hcut.mono i hi
    have hsum : saturatingAddU64 (bound i) (bound (i + 1) - bound i) = bound (i + 1) := by
      unfold saturatingAddU64
      omega
    rw [segment, if_neg (by omega), hcut.range i hi, Option.map_some]
    dsimp only
    rw [hsum, Nat.min_eq_left (by omega)]
  case no_other => exact fun index hindex => if_pos hindex
  case first =>
    rw [hcut.zero, Nat.zero_sub]
  case joined => exact fun i _ => rfl
  case ordered => exact fun i hi => Nat.sub_le_sub_right (hcut.mono i hi) _
  case last =>
    dsimp only
    rw [Nat.sub_add_cancel hpos, hcut.last]
    omega
  case starts =>
    intro i hi
    rw [hcut.range i hi, hcut.sum (Nat.le_of_lt hi)]
  case whole => rw [hcut.sum Nat.le.refl, hcut.last]
  case at_most =>
    intro i hi
    have hle := hcut.at_most i hi
    dsimp only
    omega
  case filled => exact fun hne i hi => Nat.sub_pos_of_lt (hcut.filled hne i hi)
  case metadata =>
    intro i hi
    have hfirst := hcut.metadata
    dsimp only
    cases i with
    | zero =>
      rw [hcut.zero, if_pos rfl, Nat.zero_add]
      omega
    | succ i =>
      have hstart := hcut.bound_mono (Nat.le_add_left 1 i) (Nat.le_of_lt hi)
      rw [if_neg (by omega)]
      omega

theorem segments_tile_the_resource_balanced :
    ∃ plan, new 20 (some 87) 100 = .ok plan ∧ plan.rebalanceFinalPair = true ∧
      ∃ part, plan.Tiling part :=
  ⟨⟨20, 90, 100, 110, 2, true⟩, by decide, rfl,
    (@segments_tile_the_resource 20 100 (some 87) ⟨20, 90, 100, 110, 2, true⟩ (by decide)).2.2.2.2.2⟩

end ResourceSendPlan

end Prns.Ports.OutgoingResources
