import Prns.Verified.Interruptible
import Mathlib.Data.List.GetD
import Mathlib.Tactic.Common

/-!
# NOR flash under faults

The cells of a NOR flash are bytes. Programming only clears bits, so the image of
a write is the conjunction of the old and the new bytes; an erase sets every bit
of whole sectors. An operation that is misaligned or out of bounds is refused.
Any other operation may complete, report an error, or be cut off, and in the last
two cases any prefix of its bytes may have reached the cells.

`Device.clean` records whether every write so far addressed erased cells only.
-/

namespace Prns.Verified.NorFlash

structure Geometry where
  readSize : Nat
  writeSize : Nat
  eraseSize : Nat
  capacity : Nat

abbrev Image := Nat → UInt8

/-- What a single operation runs into. -/
inductive Fault where
  | none
  | fail (done : Nat)
  | stop (powered : Bool) (done : Nat)
  deriving DecidableEq, Repr

inductive FlashError where
  | notAligned
  | outOfBounds
  | other
  deriving DecidableEq, Repr

/-- The flash, and the faults the next operations run into; past the end of the
list nothing fails. -/
structure Device where
  cells : Image
  faults : List Fault
  clean : Bool

/-! ## Cells -/

def slice (cells : Image) (pos len : Nat) : List UInt8 :=
  (List.range len).map (fun i => cells (pos + i))

def program (cells : Image) (pos : Nat) (bytes : List UInt8) : Image := fun x =>
  if pos ≤ x then cells x &&& bytes.getD (x - pos) 0xFF else cells x

def eraseCells (cells : Image) (start stop : Nat) : Image := fun x =>
  if start ≤ x ∧ x < stop then 0xFF else cells x

def Erased (cells : Image) (start stop : Nat) : Prop :=
  ∀ x, start ≤ x → x < stop → cells x = 0xFF

/-- Nothing outside `[start, stop)` differs. -/
def SameOutside (cells cells' : Image) (start stop : Nat) : Prop :=
  ∀ x, x < start ∨ stop ≤ x → cells' x = cells x

variable {cells cells' cells'' : Image} {pos len start stop : Nat} {bytes : List UInt8}

theorem and_erased (b : UInt8) : b &&& 0xFF = b := UInt8.and_neg_one

theorem erased_and (b : UInt8) : 0xFF &&& b = b := UInt8.neg_one_and

@[simp] theorem length_slice (cells : Image) (pos len : Nat) :
    (slice cells pos len).length = len := by
  simp [slice]

variable {i : Nat} {n : Nat} {start' stop' : Nat} {g : Geometry} {d : Device}

theorem getElem?_slice (h : i < len) : (slice cells pos len)[i]? = some (cells (pos + i)) := by
  simp [slice, h]

theorem slice_congr (h : ∀ x, pos ≤ x → x < pos + len → cells' x = cells x) :
    slice cells' pos len = slice cells pos len := by
  apply List.map_congr_left
  intro i hi
  have hlt := List.mem_range.mp hi
  exact h (pos + i) (by omega) (by omega)

theorem slice_eq_iff : slice cells pos len = bytes ↔
      bytes.length = len ∧ ∀ i, i < len → bytes[i]? = some (cells (pos + i)) := by
  constructor
  · intro h
    subst h
    exact ⟨length_slice .., fun i hi => getElem?_slice hi⟩
  rintro ⟨hlen, hget⟩
  apply List.ext_getElem?
  intro i
  by_cases hi : i < len
  · rw [getElem?_slice hi, hget i hi]
  · rw [List.getElem?_eq_none (by simp; omega), List.getElem?_eq_none (by omega)]

theorem take_slice (h : n ≤ len) : (slice cells pos len).take n = slice cells pos n := by
  rw [slice, ← List.map_take, List.take_range, Nat.min_eq_left h, slice]

theorem slice_all_iff :
    (slice cells pos len).all (· == 0xFF) = true ↔ Erased cells pos (pos + len) := by
  rw [List.all_eq_true]
  constructor
  · intro h x hle hlt
    have hmem : cells x ∈ slice cells pos len := by
      refine List.mem_map.mpr ⟨x - pos, List.mem_range.mpr (by omega), ?_⟩
      rw [show pos + (x - pos) = x by omega]
    exact eq_of_beq (h _ hmem)
  · intro h b hb
    obtain ⟨i, hi, rfl⟩ := List.mem_map.mp hb
    have hlt := List.mem_range.mp hi
    exact beq_iff_eq.mpr (h (pos + i) (by omega) (by omega))

theorem erased_self : Erased cells pos pos := fun _ hle hlt => absurd hle (Nat.not_le.mpr hlt)

theorem Erased.mono (h : Erased cells start stop) (hstop : stop' ≤ stop := by omega)
    (hstart : start ≤ start' := by omega) : Erased cells start' stop' :=
  fun x hle hlt => h x (by omega) (by omega)

theorem Erased.of_sameOutside (h : Erased cells pos len)
    (hsame : SameOutside cells cells' start stop) (hout : len ≤ start ∨ stop ≤ pos) :
    Erased cells' pos len :=
  fun x hle hlt => by rw [hsame x (by omega), h x hle hlt]

theorem SameOutside.refl : SameOutside cells cells start stop := fun _ _ => rfl

theorem SameOutside.trans (h : SameOutside cells cells' start stop)
    (h' : SameOutside cells' cells'' start stop) : SameOutside cells cells'' start stop :=
  fun x hx => by rw [h' x hx, h x hx]

theorem SameOutside.mono (h : SameOutside cells cells' start stop)
    (hstop : stop ≤ stop' := by omega) (hstart : start' ≤ start := by omega) :
    SameOutside cells cells' start' stop' :=
  fun x hx => h x (by omega)

theorem program_outside : SameOutside cells (program cells pos bytes) pos (pos + bytes.length) := by
  intro x hx
  unfold program
  by_cases hle : pos ≤ x
  · rw [if_pos hle, List.getD_eq_default _ _ (by omega), and_erased]
  · rw [if_neg hle]

theorem program_nil : program cells pos [] = cells := by
  funext x
  exact program_outside x (by simp only [List.length_nil]; omega)

theorem program_padding (n : Nat) :
    program cells pos (bytes ++ List.replicate n 0xFF) = program cells pos bytes := by
  funext x
  unfold program
  congr 2
  by_cases hlt : x - pos < bytes.length
  · rw [List.getD_append _ _ _ _ hlt]
  · rw [List.getD_append_right _ _ _ _ (by omega), List.getD_eq_default bytes _ (by omega),
      List.getD_eq_getElem?_getD, List.getElem?_replicate]
    split <;> rfl

theorem program_erased (h : Erased cells pos (pos + bytes.length)) (hi : i < bytes.length) :
    bytes[i]? = some (program cells pos bytes (pos + i)) := by
  unfold program
  rw [if_pos (by omega), h (pos + i) (by omega) (by omega), erased_and,
    show pos + i - pos = i by omega, List.getD_eq_getElem _ _ hi]
  exact List.getElem?_eq_getElem hi

theorem slice_program (h : Erased cells pos (pos + bytes.length)) :
    slice (program cells pos bytes) pos bytes.length = bytes :=
  slice_eq_iff.mpr ⟨rfl, fun _ hi => program_erased h hi⟩

theorem program_append (cells : Image) (pos : Nat) (front back : List UInt8) :
    program (program cells pos front) (pos + front.length) back =
      program cells pos (front ++ back) := by
  funext x
  by_cases hle : pos + front.length ≤ x
  · rw [program, if_pos hle, program_outside x (Or.inr hle), program, if_pos (by omega),
      List.getD_append_right _ _ _ _ (by omega), Nat.sub_sub]
  rw [program, if_neg hle]
  unfold program
  by_cases hpos : pos ≤ x
  · rw [if_pos hpos, if_pos hpos, List.getD_append _ _ _ _ (by omega)]
  · rw [if_neg hpos, if_neg hpos]

theorem slice_add (cells : Image) (pos a b : Nat) :
    slice cells pos (a + b) = slice cells pos a ++ slice cells (pos + a) b := by
  rw [slice_eq_iff]
  refine ⟨by simp, fun i hi => ?_⟩
  by_cases hlt : i < a
  · rw [List.getElem?_append_left (by simpa using hlt), getElem?_slice hlt]
  · rw [List.getElem?_append_right (by simpa using Nat.le_of_not_lt hlt), length_slice,
      getElem?_slice (by omega), show pos + a + (i - a) = pos + i by omega]

theorem drop_slice (h : n ≤ len) :
    (slice cells pos len).drop n = slice cells (pos + n) (len - n) := by
  obtain ⟨k, rfl⟩ : ∃ k, len = n + k := ⟨len - n, by omega⟩
  rw [slice_add, List.drop_left' (length_slice ..), Nat.add_sub_cancel_left]

theorem eraseCells_outside : SameOutside cells (eraseCells cells start stop) start stop := by
  intro x hx
  exact if_neg (by omega)

theorem eraseCells_erased : Erased (eraseCells cells start stop) start stop :=
  fun _ hle hlt => if_pos ⟨hle, hlt⟩

theorem Erased.eraseCells (h : Erased cells pos len) :
    Erased (NorFlash.eraseCells cells start stop) pos len := by
  intro x hle hlt
  unfold NorFlash.eraseCells
  split
  · rfl
  · exact h x hle hlt

/-- The refusal of an operation on `[pos, pos + len)` in units of `size`. -/
def check (g : Geometry) (size pos len : Nat) : Option FlashError :=
  if pos % size ≠ 0 ∨ len % size ≠ 0 then some .notAligned
  else if g.capacity < pos + len then some .outOfBounds
  else none

theorem check_none {size pos len : Nat} (hpos : pos % size = 0) (hlen : len % size = 0)
    (hend : pos + len ≤ g.capacity) : check g size pos len = none := by
  simp [check, hpos, hlen, hend]

def Device.fault (d : Device) : Fault := d.faults.headD .none

def Device.advance (d : Device) : Device := { d with faults := d.faults.tail }

def read (g : Geometry) (pos len : Nat) : Act Device FlashError (List UInt8) := fun d =>
  match check g g.readSize pos len with
  | some e => (.error e, d)
  | none =>
      match d.fault with
      | .none => (.ok (slice d.cells pos len), d.advance)
      | .fail _ => (.error .other, d.advance)
      | .stop powered _ => (.stopped powered, d.advance)

/-- The device after `bytes`, or a prefix of what was to be written, reached it. -/
def Device.written (d : Device) (pos target : Nat) (bytes : List UInt8) : Device :=
  { cells := program d.cells pos bytes
    faults := d.faults.tail
    clean := d.clean && (slice d.cells pos target).all (· == 0xFF) }

def write (g : Geometry) (pos : Nat) (bytes : List UInt8) : Act Device FlashError Unit :=
  fun d =>
    match check g g.writeSize pos bytes.length with
    | some e => (.error e, d)
    | none =>
        match d.fault with
        | .none => (.ok (), d.written pos bytes.length bytes)
        | .fail done => (.error .other, d.written pos bytes.length (bytes.take done))
        | .stop powered done =>
            (.stopped powered, d.written pos bytes.length (bytes.take done))

/-- The device after the sectors up to `stop` were erased. -/
def Device.wiped (d : Device) (start stop : Nat) : Device :=
  { d with cells := eraseCells d.cells start stop, faults := d.faults.tail }

def erase (g : Geometry) (start stop : Nat) : Act Device FlashError Unit := fun d =>
  if stop < start then (.error .outOfBounds, d)
  else
    match check g g.eraseSize start (stop - start) with
    | some e => (.error e, d)
    | none =>
        match d.fault with
        | .none => (.ok (), d.wiped start stop)
        | .fail done => (.error .other, d.wiped start (min stop (start + done)))
        | .stop powered done =>
            (.stopped powered, d.wiped start (min stop (start + done)))

theorem ensures_read (g : Geometry) (pos len : Nat) (d : Device) : Act.Ensures (read g pos len) d
      (fun bytes d' => bytes = slice d.cells pos len ∧ d'.cells = d.cells ∧ d'.clean = d.clean)
      (fun d' => d'.cells = d.cells ∧ d'.clean = d.clean) := by
  unfold Act.Ensures read
  cases check g g.readSize pos len with
  | some e => exact ⟨rfl, rfl⟩
  | none => cases d.fault <;> exact ⟨rfl, by trivial⟩

theorem written_clean {target : Nat} (h : Erased d.cells pos (pos + target)) :
    (d.written pos target bytes).clean = d.clean := by
  rw [Device.written, slice_all_iff.mpr h, Bool.and_true]

theorem ensures_write (g : Geometry) (h : Erased d.cells pos (pos + bytes.length)) :
    Act.Ensures (write g pos bytes) d
      (fun _ d' => d'.cells = program d.cells pos bytes ∧ d'.clean = d.clean)
      (fun d' => (∃ n, d'.cells = program d.cells pos (bytes.take n)) ∧ d'.clean = d.clean) := by
  unfold Act.Ensures write
  cases check g g.writeSize pos bytes.length with
  | some e => exact ⟨⟨0, program_nil.symm⟩, rfl⟩
  | none =>
    cases d.fault with
    | none => exact ⟨rfl, written_clean h⟩
    | fail done => exact ⟨⟨done, rfl⟩, written_clean h⟩
    | stop powered done => exact ⟨⟨done, rfl⟩, written_clean h⟩

theorem eraseCells_self : eraseCells cells start start = cells := by
  funext x
  exact if_neg (by omega)

theorem ensures_erase (g : Geometry) (start stop : Nat) (d : Device) :
    Act.Ensures (erase g start stop) d
      (fun _ d' => d'.cells = eraseCells d.cells start stop ∧ d'.clean = d.clean)
      (fun d' => (∃ n, n ≤ max start stop ∧ d'.cells = eraseCells d.cells start n) ∧
        d'.clean = d.clean) := by
  have hkeep : ∃ n, n ≤ max start stop ∧ d.cells = eraseCells d.cells start n :=
    ⟨start, Nat.le_max_left .., eraseCells_self.symm⟩
  unfold Act.Ensures erase
  by_cases hlt : stop < start
  · rw [if_pos hlt]
    exact ⟨hkeep, rfl⟩
  rw [if_neg hlt]
  cases check g g.eraseSize start (stop - start) with
  | some e => exact ⟨hkeep, rfl⟩
  | none =>
    have hbound (done : Nat) : min stop (start + done) ≤ max start stop := by omega
    cases d.fault with
    | none => exact ⟨rfl, rfl⟩
    | fail done => exact ⟨⟨_, hbound done, rfl⟩, rfl⟩
    | stop powered done => exact ⟨⟨_, hbound done, rfl⟩, rfl⟩

/-- The same cells without faults ahead. -/
def Device.quiet (d : Device) : Device := { d with faults := [] }

/-- The action changes no cell, and if it returns, it returns what it would have
returned without faults. -/
structure Reads {ε α : Type} (f : Act Device ε α) : Prop where
  keeps : ∀ d, (f d).2.cells = d.cells ∧ (f d).2.clean = d.clean
  quiet : ∀ d a, (f d).1 = .ok a → f d.quiet = (.ok a, d.quiet)

theorem read_quiet (h : check g g.readSize pos len = none) (d : Device) :
    read g pos len d.quiet = (.ok (slice d.cells pos len), d.quiet) := by
  rw [read, h]
  rfl

section

variable {ε ε' α β : Type}

theorem quiet_eq {d d' : Device} (hcells : d'.cells = d.cells) (hclean : d'.clean = d.clean) :
    d'.quiet = d.quiet := by
  rw [Device.quiet, Device.quiet, hcells, hclean]

variable {f : Act Device ε α}

theorem reads_iff_calm : Reads f ↔ Act.Calm Device.quiet f := by
  constructor
  · exact fun h => ⟨fun d => quiet_eq (h.keeps d).1 (h.keeps d).2, h.quiet⟩
  intro h
  refine ⟨fun d => ?_, h.returns⟩
  have hquiet := h.keeps d
  simp only [Device.quiet, Device.mk.injEq] at hquiet
  exact ⟨hquiet.1, hquiet.2.2⟩

theorem Reads.ensures (hf : Reads f) (d : Device) :
    Act.Ensures f d (fun _ d' => d'.cells = d.cells ∧ d'.clean = d.clean)
      (fun d' => d'.cells = d.cells ∧ d'.clean = d.clean) := by
  have hkeeps := hf.keeps d
  unfold Act.Ensures
  split <;> rename_i hfd <;> rw [hfd] at hkeeps <;> exact hkeeps

theorem reads_pure (a : α) : Reads (pure a : Act Device ε α) := reads_iff_calm.mpr (Act.calm_pure a)

theorem reads_fail (e : ε) : Reads (Act.fail e : Act Device ε α) :=
  reads_iff_calm.mpr (Act.calm_fail e)

theorem reads_read (g : Geometry) (pos len : Nat) : Reads (read g pos len) where
  keeps d := (ensures_read g pos len d).mono (fun _ _ h => h.2) (fun _ h => h)
    |>.state
  quiet d a h := by
    unfold read at h
    split at h
    · cases h
    · rename_i hcheck
      split at h <;> cases h
      exact read_quiet hcheck d

theorem Reads.bind {k : α → Act Device ε β} (hf : Reads f) (hk : ∀ a, Reads (k a)) :
    Reads (f >>= k) :=
  reads_iff_calm.mpr ((reads_iff_calm.mp hf).bind fun a => reads_iff_calm.mp (hk a))

theorem Reads.mapError (hf : Reads f) (m : ε → ε') :
    Reads (Act.mapError m f) :=
  reads_iff_calm.mpr (reads_iff_calm.mp hf).mapError

end

end Prns.Verified.NorFlash
