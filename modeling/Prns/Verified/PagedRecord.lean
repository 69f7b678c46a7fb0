import Prns.Verified.TornFlash
import Prns.Verified.TwoPages

/-!
# Writing a record into one of two pages

Two pages of a flash each have room for a record with a commit field. A new record is
written in four operations: the page is erased, the bytes in front of the commit field
and those behind it are written, and the commit field comes last. Each operation may
stop half way. This module says once what the page then holds: up to the last operation
its old record or none, in the last one none or the new record.

The decoder is a parameter. All it has to do is to insist on the commit field.
-/

namespace Prns.Verified.PagedRecord

open Verified
open Verified.NorFlash
open Verified.TwoPages

/-- Two pages that do not overlap, with room for a record. -/
structure Area where
  base : Page → Nat
  size : Nat
  frame : Frame
  fits : frame.len ≤ size
  apart : ∀ page, base page + size ≤ base page.other ∨ base page.other + size ≤ base page

/-- A decoder that insists on the commit field. -/
structure Codec (frame : Frame) (R : Type) where
  decode : List UInt8 → Option R
  marked : ∀ {bytes : List UInt8} {r : R}, decode bytes = some r →
    (bytes.drop frame.commitAt).take frame.marker.length = frame.marker

variable {R : Type} (area : Area) (codec : Codec area.frame R)

def record (cells : Image) (page : Page) : Option R :=
  codec.decode (slice cells (area.base page) area.frame.len)

/-- Only the page differs. -/
def Within (page : Page) (cells cells' : Image) : Prop :=
  SameOutside cells cells' (area.base page) (area.base page + area.size)

/-- The page holds its old record, or none. -/
def Stale (page : Page) (cells cells' : Image) : Prop :=
  Within area page cells cells' ∧
    (record area codec cells' page = record area codec cells page ∨
      record area codec cells' page = none)

/-- The page holds the new record. -/
def Landed (page : Page) (r : R) (cells cells' : Image) : Prop :=
  Within area page cells cells' ∧ record area codec cells' page = some r

/-- The page holds its old record, the new one or none. -/
def Settled (page : Page) (r : R) (cells cells' : Image) : Prop :=
  Stale area codec page cells cells' ∨ Landed area codec page r cells cells'

/-- What an interrupted erase makes of a record is no other record. -/
def Detected (d : TornFlash.Device) (page : Page) : Prop :=
  ∀ tear ∈ d.tears,
    slice (TornFlash.raise d.cells (area.base page) (area.base page + area.size) tear.raised)
        (area.base page) area.frame.len = slice d.cells (area.base page) area.frame.len ∨
      record area codec (TornFlash.raise d.cells (area.base page)
        (area.base page + area.size) tear.raised) page = none

/-! ## The page on its way -/

def erasedPage (page : Page) (cells : Image) : Image :=
  eraseCells cells (area.base page) (area.base page + area.size)

def frontWritten (page : Page) (cells : Image) (front : List UInt8) : Image :=
  program (erasedPage area page cells) (area.base page) front

def bodyWritten (page : Page) (cells : Image) (front back : List UInt8) : Image :=
  program (frontWritten area page cells front) (area.base page + area.frame.commitEnd) back

variable {area codec} {page : Page} {cells cells' : Image} {front back : List UInt8} {r : R}

theorem record_none (h : ¬ area.frame.Committed cells (area.base page)) :
    record area codec cells page = none := by
  have hfits := area.frame.fits
  cases hrecord : record area codec cells page with
  | none => rfl
  | some r =>
    have hmarked := codec.marked hrecord
    rw [drop_slice (by omega), take_slice (by omega)] at hmarked
    exact absurd hmarked h

theorem Within.other (h : Within area page cells cells') :
    record area codec cells' page.other = record area codec cells page.other := by
  have hfits := area.fits
  have hapart := area.apart page
  unfold record
  rw [slice_congr]
  intro x hle hlt
  exact h x (by omega)

theorem Within.program (h : Within area page cells cells') (offset : Nat) {bytes : List UInt8}
    (hroom : offset + bytes.length ≤ area.frame.len) :
    Within area page cells (NorFlash.program cells' (area.base page + offset) bytes) := by
  have hfits := area.fits
  exact SameOutside.trans h program_outside.mono

theorem within_erasedPage : Within area page cells (erasedPage area page cells) :=
  eraseCells_outside

theorem erased_erasedPage :
    Erased (erasedPage area page cells) (area.base page) (area.base page + area.frame.len) :=
  eraseCells_erased.mono (Nat.add_le_add_left area.fits _)

theorem open_erasedPage : area.frame.Open (erasedPage area page cells) (area.base page) :=
  Frame.Open.of_erased erased_erasedPage

theorem Stale.of_open (h : Within area page cells cells')
    (hopen : area.frame.Open cells' (area.base page)) : Stale area codec page cells cells' :=
  ⟨h, Or.inr (record_none hopen.not_committed_now)⟩

theorem Stale.refl : Stale area codec page cells cells := ⟨SameOutside.refl, Or.inl rfl⟩

theorem stale_of_torn {d : TornFlash.Device} (hdetected : Detected area codec d page)
    (h : TornFlash.Torn d (area.base page) (area.base page + area.size) cells') :
    Stale area codec page d.cells cells' := by
  rcases h with rfl | ⟨tear, hmem, rfl⟩
  · exact Stale.refl
  · refine ⟨TornFlash.raise_outside, ?_⟩
    rcases hdetected tear hmem with hsame | hnone
    · exact Or.inl (by rw [record, hsame, ← record])
    · exact Or.inr hnone

section

variable (hfront : front.length = area.frame.commitAt)
  (hback : back.length = area.frame.len - area.frame.commitEnd)

include hfront in
theorem within_frontWritten : Within area page cells (frontWritten area page cells front) := by
  have hfits := area.frame.fits
  exact within_erasedPage.program 0 (by omega)

include hfront in
theorem open_frontWritten : area.frame.Open (frontWritten area page cells front) (area.base page) :=
  open_erasedPage.program (Or.inl (by omega))

include hfront in
theorem stale_front (n : Nat) : Stale area codec page cells
      (program (erasedPage area page cells) (area.base page) (front.take n)) := by
  have hfits := area.frame.fits
  have hn : (front.take n).length ≤ front.length := List.length_take_le' ..
  exact Stale.of_open (within_erasedPage.program 0 (by omega))
    (open_erasedPage.program (Or.inl (by omega)))

include hfront in
theorem stale_back (hback : back.length = area.frame.len - area.frame.commitEnd) (n : Nat) :
    Stale area codec page cells (program (frontWritten area page cells front)
      (area.base page + area.frame.commitEnd) (back.take n)) := by
  obtain ⟨hend, hfits⟩ := area.frame.bounds
  have hn : (back.take n).length ≤ back.length := List.length_take_le' ..
  exact Stale.of_open ((within_frontWritten hfront).program _ (by omega))
    ((open_frontWritten hfront).program (Or.inr (by omega)))

include hfront hback in
theorem within_bodyWritten : Within area page cells (bodyWritten area page cells front back) := by
  obtain ⟨hend, hfits⟩ := area.frame.bounds
  exact (within_frontWritten hfront).program _ (by omega)

include hfront in
theorem open_bodyWritten :
    area.frame.Open (bodyWritten area page cells front back) (area.base page) :=
  (open_frontWritten hfront).program (Or.inr (by omega))

include hfront hback in
theorem slice_bodyWritten :
    slice (bodyWritten area page cells front back) (area.base page) area.frame.len =
      front ++ (List.replicate area.frame.marker.length 0xFF ++ back) := by
  obtain ⟨hend, hfits⟩ := area.frame.bounds
  have herased : Erased (erasedPage area page cells) (area.base page)
      (area.base page + area.frame.len) := erased_erasedPage
  have hopen : area.frame.Open (bodyWritten area page cells front back) (area.base page) :=
    open_bodyWritten hfront
  have hfirst : slice (bodyWritten area page cells front back) (area.base page) front.length =
      front := by
    refine Eq.trans ?_ (slice_program (herased.mono (by omega) Nat.le.refl))
    apply slice_congr
    intro x hle hlt
    rw [bodyWritten, program_outside x (by omega), frontWritten]
  have hmiddle : slice (bodyWritten area page cells front back)
      (area.base page + front.length) area.frame.marker.length =
      List.replicate area.frame.marker.length 0xFF := by
    apply List.eq_replicate_iff.mpr
    refine ⟨length_slice .., ?_⟩
    intro b hb
    obtain ⟨i, hi, rfl⟩ := List.mem_map.mp hb
    have hlt := List.mem_range.mp hi
    exact hopen _ (by omega) (by omega)
  have hlast : slice (bodyWritten area page cells front back)
      (area.base page + front.length + area.frame.marker.length) back.length = back := by
    have hclear : Erased (frontWritten area page cells front)
        (area.base page + area.frame.commitEnd)
        (area.base page + area.frame.commitEnd + back.length) :=
      Erased.of_sameOutside herased.mono program_outside (by omega)
    rw [show area.base page + front.length + area.frame.marker.length =
      area.base page + area.frame.commitEnd by omega]
    exact slice_program hclear
  rw [show area.frame.len = front.length + (area.frame.marker.length + back.length) by omega,
    slice_add, slice_add, hfirst, hmiddle, hlast]

include hfront hback in
theorem slice_committed : slice (program (bodyWritten area page cells front back)
        (area.base page + area.frame.commitAt) area.frame.marker) (area.base page)
        area.frame.len = front ++ (area.frame.marker ++ back) :=
  Frame.slice_install erased_erasedPage hfront hback

include hfront hback in
theorem landed_committed (hdecode : codec.decode (front ++ (area.frame.marker ++ back)) = some r) :
    Landed area codec page r cells (program (bodyWritten area page cells front back)
      (area.base page + area.frame.commitAt) area.frame.marker) := by
  refine ⟨(within_bodyWritten hfront hback).program _ area.frame.fits, ?_⟩
  rw [record, slice_committed hfront hback, hdecode]

include hfront hback in
theorem settled_commit (hdecode : codec.decode (front ++ (area.frame.marker ++ back)) = some r)
    (n : Nat) :
    Settled area codec page r cells (program (bodyWritten area page cells front back)
      (area.base page + area.frame.commitAt) (area.frame.marker.take n)) := by
  have hfits := area.frame.fits
  by_cases hshort : n < area.frame.marker.length
  · have hopen : area.frame.Open (bodyWritten area page cells front back) (area.base page) :=
      open_bodyWritten hfront
    have hn : (area.frame.marker.take n).length ≤ area.frame.marker.length :=
      List.length_take_le' ..
    exact Or.inl ⟨(within_bodyWritten hfront hback).program _ (by omega),
      Or.inr (record_none (hopen.not_committed hshort))⟩
  · rw [List.take_of_length_le (Nat.le_of_not_lt hshort)]
    exact Or.inr (landed_committed hfront hback hdecode)

end

section

variable {generation : R → UInt64} (hpage : page = target generation (record area codec cells))
include hpage

theorem Stale.value_eq (h : Stale area codec page cells cells') :
    value generation (record area codec cells') = value generation (record area codec cells) := by
  obtain ⟨hwithin, hstale⟩ := h
  have hother : record area codec cells' page.other = _ := hwithin.other
  rw [hpage] at hother hstale
  exact value_of_stale hother hstale

theorem Landed.value_eq
    (hnext : ∀ old, value generation (record area codec cells) = some old →
      generation r = generation old + 1) (h : Landed area codec page r cells cells') :
    value generation (record area codec cells') = some r := by
  obtain ⟨hwithin, hlanded⟩ := h
  have hother : record area codec cells' page.other = _ := hwithin.other
  rw [hpage] at hother hlanded
  exact value_of_written hother hlanded hnext

end

end Prns.Verified.PagedRecord
