import Prns.Verified.NorFlash

/-!
# A value in two pages

A value is kept as a record in one of two pages, with a generation that counts up and
wraps. The newer of two valid records is the value; a new value goes to the other page.
While that page is being written it holds the record it held before, or none, so the
value is the old one; when its record is complete, the value is the new one.

The second half is about one page: a record that is written in front of and behind its
commit field, and whose commit field is written last, is not valid before the commit
field is complete.
-/

namespace Prns.Verified.TwoPages

open Verified.NorFlash

inductive Page where
  | first
  | second
  deriving DecidableEq, Repr

def Page.other : Page → Page
  | .first => .second
  | .second => .first

@[simp] theorem Page.other_other (p : Page) : p.other.other = p := by
  cases p <;> rfl

def generationIsNewer (candidate current : UInt64) : Bool :=
  candidate - current != 0 && decide (candidate - current < 9223372036854775808)

theorem generationIsNewer_next (generation : UInt64) :
    generationIsNewer (generation + 1) generation = true := by
  have hone : generation + 1 - generation = 1 := by
    rw [UInt64.add_comm, UInt64.add_sub_cancel]
  rw [generationIsNewer, hone]
  decide

theorem generationIsNewer_previous (generation : UInt64) :
    generationIsNewer generation (generation + 1) = false := by
  have hlast : generation - (generation + 1) = 18446744073709551615 := by
    apply UInt64.toNat_inj.mp
    show (2 ^ 64 - (generation.toNat + 1) % 2 ^ 64 + generation.toNat) % 2 ^ 64 =
      18446744073709551615
    omega
  rw [generationIsNewer, hlast]
  decide

/-! ## The value of two pages -/

section

variable {R : Type} (generation : R → UInt64)

/-- The page of the newer valid record. -/
def active (view : Page → Option R) : Option Page :=
  match view .first, view .second with
  | some first, some second =>
    some (if generationIsNewer (generation second) (generation first) then .second else .first)
  | some _, none => some .first
  | none, some _ => some .second
  | none, none => none

def value (view : Page → Option R) : Option R := (active generation view).bind view

/-- The page that the next record goes to. -/
def target (view : Page → Option R) : Page :=
  match active generation view with
  | none => .first
  | some page => page.other

variable {generation} {view view' : Page → Option R} {page : Page} {record : R}

theorem active_some (h : active generation view = some page) :
    ∃ record, view page = some record := by
  unfold active at h
  split at h
  · cases page
    · exact ⟨_, ‹_›⟩
    · exact ⟨_, ‹_›⟩
  · cases h
    exact ⟨_, ‹_›⟩
  · cases h
    exact ⟨_, ‹_›⟩
  · cases h

theorem active_none (h : active generation view = none) (page : Page) : view page = none := by
  unfold active at h
  split at h <;> cases h
  cases page <;> assumption

theorem active_eq_none (hfirst : view .first = none) (hsecond : view .second = none) :
    active generation view = none := by
  rw [active, hfirst, hsecond]

theorem active_single (hpage : view page = some record) (hother : view page.other = none) :
    active generation view = some page := by
  cases page <;> simp only [Page.other] at hother <;> rw [active, hpage, hother]

theorem value_eq (h : active generation view = some page) : value generation view = view page := by
  rw [value, h, Option.bind_some]

theorem value_none (h : active generation view = none) : value generation view = none := by
  rw [value, h, Option.bind_none]

variable (hother : view' (target generation view).other = view (target generation view).other)
include hother

theorem value_of_stale
    (hstale : view' (target generation view) = view (target generation view) ∨
      view' (target generation view) = none) : value generation view' = value generation view := by
  rcases hstale with hsame | hnone
  · have hview : view' = view := by
      funext page
      by_cases hpage : page = target generation view
      · rw [hpage, hsame]
      · have heq : page = (target generation view).other := by
          cases page <;> cases htarget : target generation view <;> simp_all [Page.other]
        rw [heq, hother]
    rw [hview]
  · cases hactive : active generation view with
    | none =>
      have hnone' : active generation view' = none := by
        have htarget : target generation view = .first := by rw [target, hactive]
        rw [htarget] at hother hnone
        rw [active_none hactive] at hother
        exact active_eq_none hnone hother
      rw [value_none hactive, value_none hnone']
    | some page =>
      obtain ⟨record, hrecord⟩ := active_some hactive
      have htarget : target generation view = page.other := by rw [target, hactive]
      rw [htarget, Page.other_other] at hother
      rw [htarget] at hnone
      rw [value_eq hactive, value_eq (active_single (hother.trans hrecord) hnone), hother]

theorem value_of_written (hwritten : view' (target generation view) = some record)
    (hnext : ∀ old, value generation view = some old → generation record = generation old + 1) :
    value generation view' = some record := by
  cases hactive : active generation view with
  | none =>
    have htarget : target generation view = .first := by rw [target, hactive]
    rw [htarget] at hother hwritten
    have hsecond : view' Page.first.other = none := hother.trans (active_none hactive _)
    rw [value_eq (active_single hwritten hsecond), hwritten]
  | some page =>
    obtain ⟨old, hold⟩ := active_some hactive
    have htarget : target generation view = page.other := by rw [target, hactive]
    rw [htarget, Page.other_other] at hother
    rw [htarget] at hwritten
    have hgeneration : generation record = generation old + 1 :=
      hnext old (by rw [value_eq hactive, hold])
    have hactive' : active generation view' = some page.other := by
      unfold active
      cases page with
      | first =>
        rw [hother, hold, show view' .second = some record from hwritten]
        show some (if _ then _ else _) = _
        rw [hgeneration, generationIsNewer_next, if_pos rfl]
        rfl
      | second =>
        rw [hother, hold, show view' .first = some record from hwritten]
        show some (if _ then _ else _) = _
        rw [hgeneration, generationIsNewer_previous, if_neg nofun]
        rfl
    rw [value_eq hactive', hwritten]

end

/-- A record of `len` bytes with a commit field. No byte of the marker is an erased one. -/
structure Frame where
  len : Nat
  commitAt : Nat
  marker : List UInt8
  fits : commitAt + marker.length ≤ len
  written : ∀ b ∈ marker, b ≠ 0xFF
  nonempty : marker ≠ []

namespace Frame

variable (frame : Frame) {cells : Image} {pos n : Nat} {front back : List UInt8}

def commitEnd : Nat := frame.commitAt + frame.marker.length

theorem bounds : frame.commitEnd = frame.commitAt + frame.marker.length ∧
    frame.commitEnd ≤ frame.len :=
  ⟨rfl, frame.fits⟩

/-- The commit field is complete. -/
def Committed (cells : Image) (pos : Nat) : Prop :=
  slice cells (pos + frame.commitAt) frame.marker.length = frame.marker

/-- The commit field is erased. -/
def Open (cells : Image) (pos : Nat) : Prop :=
  Erased cells (pos + frame.commitAt) (pos + frame.commitEnd)

variable {frame}

theorem Open.of_erased (h : Erased cells pos (pos + frame.len)) : frame.Open cells pos :=
  h.mono (Nat.add_le_add_left frame.bounds.2 pos)

variable (h : frame.Open cells pos)
include h

theorem Open.program {at' : Nat} {bytes : List UInt8}
    (hout : at' + bytes.length ≤ pos + frame.commitAt ∨ pos + frame.commitEnd ≤ at') :
    frame.Open (NorFlash.program cells at' bytes) pos := by
  refine Erased.of_sameOutside h program_outside ?_
  omega

theorem Open.not_committed (hn : n < frame.marker.length) :
    ¬ frame.Committed (NorFlash.program cells (pos + frame.commitAt) (frame.marker.take n))
      pos := by
  intro hcommitted
  obtain ⟨-, hbytes⟩ := slice_eq_iff.mp hcommitted
  have hbyte := hbytes n hn
  have hlen : (frame.marker.take n).length = n := by
    rw [List.length_take]
    omega
  rw [program_outside _ (Or.inr (by omega)), h _ (by omega) (by unfold commitEnd; omega)] at hbyte
  exact frame.written _ (List.mem_of_getElem? hbyte) rfl

theorem Open.not_committed_now : ¬ frame.Committed cells pos := by
  have hpos := List.length_pos_iff.mpr frame.nonempty
  have hnot := h.not_committed hpos
  rw [List.take_zero, program_nil] at hnot
  exact hnot

omit h

/-- The three writes of a record, on an erased page. -/
def install (frame : Frame) (cells : Image) (pos : Nat) (front back : List UInt8) : Image :=
  program (program (program cells pos front) (pos + frame.commitEnd) back) (pos + frame.commitAt)
    frame.marker

/-- The record of a page whose writes completed. -/
theorem slice_install (h : Erased cells pos (pos + frame.len))
    (hfront : front.length = frame.commitAt) (hback : back.length = frame.len - frame.commitEnd) :
    slice (frame.install cells pos front back) pos frame.len = front ++ (frame.marker ++ back) := by
  have hfits := frame.fits
  have hend : frame.commitEnd = frame.commitAt + frame.marker.length := rfl
  have hlen : frame.len = front.length + (frame.marker.length + back.length) := by omega
  have hopen : frame.Open (program (program cells pos front) (pos + frame.commitEnd) back) pos :=
    ((Open.of_erased h).program (by omega)).program (by omega)
  have hmiddle : slice (frame.install cells pos front back) (pos + front.length)
      frame.marker.length = frame.marker := by
    rw [hfront]
    exact slice_program hopen.mono
  have hfirst : slice (frame.install cells pos front back) pos front.length = front := by
    have herased : Erased cells pos (pos + front.length) := h.mono
    refine Eq.trans ?_ (slice_program herased)
    apply slice_congr
    intro x hle hlt
    rw [install, program_outside x (by omega), program_outside x (by omega)]
  have hlast : slice (frame.install cells pos front back)
      (pos + front.length + frame.marker.length) back.length = back := by
    have herased : Erased (program cells pos front) (pos + frame.commitEnd)
        (pos + frame.commitEnd + back.length) :=
      Erased.of_sameOutside h.mono program_outside (by omega)
    rw [show pos + front.length + frame.marker.length = pos + frame.commitEnd by omega]
    refine Eq.trans ?_ (slice_program herased)
    apply slice_congr
    intro x hle hlt
    rw [install, program_outside x (by omega)]
  rw [hlen, slice_add, slice_add, hfirst, hmiddle, hlast]

end Frame

end Prns.Verified.TwoPages
