import Prns.Verified.TornFlash

/-!
# A table of slots on flash

A region of flash is cut into slots of one size. A record goes into an erased slot in two
writes: first the bytes behind the commit word, then the commit word, of which only the
first byte, the mark, is not erased. Whatever stops the writes, the slot ends without a
mark or with the whole record, and no other slot changes.
-/

namespace Prns.Verified.SlottedFlash

open Verified
open Verified.NorFlash (Geometry Image FlashError Erased SameOutside check slice program)
open Verified.TornFlash (Device Ahead write)

/-- Where the slots lie. The commit word has `rest` bytes behind the mark. -/
structure Table where
  base : Nat
  size : Nat
  rest : Nat
  fits : rest < size

variable (t : Table)

def Table.start (i : Nat) : Nat := t.base + i * t.size

/-- The length of the commit word. -/
def Table.commit : Nat := t.rest + 1

def slot (cells : Image) (i : Nat) : List UInt8 := slice cells (t.start i) t.size

/-- Only slot `i` differs. -/
def Within (i : Nat) (cells cells' : Image) : Prop :=
  SameOutside cells cells' (t.start i) (t.start i + t.size)

def Vacant (cells : Image) (i : Nat) : Prop := Erased cells (t.start i) (t.start i + t.size)

/-- The commit word of slot `i` is erased. -/
def Uncommitted (cells : Image) (i : Nat) : Prop :=
  Erased cells (t.start i) (t.start i + t.commit)

def commitWord (mark : UInt8) : List UInt8 := mark :: List.replicate t.rest 0xFF

/-- The bytes of a slot with a record. -/
def framed (mark : UInt8) (body : List UInt8) : List UInt8 := commitWord t mark ++ body

def writeSlot (g : Geometry) (i : Nat) (mark : UInt8) (body : List UInt8) :
    Act Device FlashError Unit := do
  write g (t.start i + t.commit) body
  write g (t.start i) (commitWord t mark)

variable {t} {i j : Nat} {cells cells' : Image} {mark : UInt8} {body : List UInt8}

theorem length_commitWord : (commitWord t mark).length = t.commit := by
  rw [commitWord, List.length_cons, List.length_replicate, Table.commit]

theorem apart (h : j ≠ i) : t.start j + t.size ≤ t.start i ∨ t.start i + t.size ≤ t.start j := by
  unfold Table.start
  rcases Nat.lt_or_gt_of_ne h with hlt | hlt
  · have hmul := Nat.mul_le_mul_right t.size (Nat.succ_le_of_lt hlt)
    rw [Nat.succ_mul] at hmul
    exact Or.inl (by omega)
  · have hmul := Nat.mul_le_mul_right t.size (Nat.succ_le_of_lt hlt)
    rw [Nat.succ_mul] at hmul
    exact Or.inr (by omega)

theorem Within.slot (h : Within t i cells cells') (hne : j ≠ i) :
    slot t cells' j = slot t cells j := by
  have hapart := apart (t := t) hne
  exact NorFlash.slice_congr fun x hle hlt => h x (by omega)

theorem Within.vacant (h : Within t i cells cells') (hne : j ≠ i) (hvacant : Vacant t cells j) :
    Vacant t cells' j :=
  Erased.of_sameOutside hvacant h (apart hne)

theorem vacant_iff : (slot t cells i).all (· == 0xFF) = true ↔ Vacant t cells i := NorFlash.slice_all_iff

theorem Vacant.uncommitted (h : Vacant t cells i) : Uncommitted t cells i :=
  Erased.mono h (Nat.add_le_add_left t.fits _)

theorem Uncommitted.unmarked (h : Uncommitted t cells i) : (slot t cells i)[0]? = some 0xFF := by
  rw [slot, NorFlash.getElem?_slice (Nat.zero_lt_of_lt t.fits), Nat.add_zero,
    h _ Nat.le.refl (Nat.lt_add_of_pos_right (Nat.succ_pos _))]

theorem program_commitWord_take (cells : Image) (mark : UInt8) (n pos : Nat) :
    program cells pos ((commitWord t mark).take n) = cells ∨
      program cells pos ((commitWord t mark).take n) = program cells pos (commitWord t mark) := by
  cases n with
  | zero => exact Or.inl NorFlash.program_nil
  | succ n =>
    refine Or.inr ?_
    show program cells pos ([mark] ++ (List.replicate t.rest 0xFF).take n) =
      program cells pos ([mark] ++ List.replicate t.rest 0xFF)
    rw [List.take_replicate, NorFlash.program_padding, NorFlash.program_padding]

theorem body_written (hvacant : Vacant t cells i) (hbody : body.length = t.size - t.commit)
    (n : Nat) :
    Within t i cells (program cells (t.start i + t.commit) (body.take n)) ∧
      Uncommitted t (program cells (t.start i + t.commit) (body.take n)) i := by
  have hfits := t.fits
  have hcommit : t.commit = t.rest + 1 := rfl
  have htake' := List.length_take_le' n body
  have houtside : SameOutside cells (program cells (t.start i + t.commit) (body.take n))
      (t.start i + t.commit) (t.start i + t.size) :=
    NorFlash.program_outside.mono
  exact ⟨houtside.mono, Erased.of_sameOutside hvacant.uncommitted houtside (Or.inl Nat.le.refl)⟩

theorem slot_framed (hvacant : Vacant t cells i) (hbody : body.length = t.size - t.commit) :
    slot t (program (program cells (t.start i + t.commit) body) (t.start i) (commitWord t mark))
      i = framed t mark body := by
  have hfits := t.fits
  have hcommit : t.commit = t.rest + 1 := rfl
  have hword : (commitWord t mark).length = t.commit := length_commitWord
  obtain ⟨hwithin, hopen⟩ := body_written hvacant hbody body.length
  rw [List.take_length] at hwithin hopen
  rw [slot, show t.size = t.commit + (t.size - t.commit) by omega, NorFlash.slice_add, framed]
  congr 1
  · rw [← hword]
    exact NorFlash.slice_program (by rw [hword]; exact hopen)
  · rw [NorFlash.slice_congr (fun x hle _ => NorFlash.program_outside x (Or.inr (by omega))), ← hbody]
    exact NorFlash.slice_program (Erased.mono hvacant (by omega) (by omega))

theorem ensures_writeSlot (g : Geometry) {d : Device} (hvacant : Vacant t d.cells i)
    (hbody : body.length = t.size - t.commit) :
    Act.Ensures (writeSlot t g i mark body) d
      (fun _ d' => Within t i d.cells d'.cells ∧ slot t d'.cells i = framed t mark body ∧
        Ahead d d')
      (fun d' => Within t i d.cells d'.cells ∧
        (Uncommitted t d'.cells i ∨ slot t d'.cells i = framed t mark body) ∧
        (d.faults ≠ [] ∨ check g g.writeSize (t.start i + t.commit) body.length ≠ none ∨
          check g g.writeSize (t.start i) t.commit ≠ none)) := by
  have hfits := t.fits
  have hcommit : t.commit = t.rest + 1 := rfl
  refine ((TornFlash.ensures_write g _ body d).weaken ?_).bind ?_
  · rintro d' ⟨⟨n, hcells⟩, -, htroubled⟩
    obtain ⟨hwithin, hopen⟩ := body_written hvacant hbody n
    rw [hcells]
    exact ⟨hwithin, Or.inl hopen, htroubled.symm.imp_right Or.inl⟩
  rintro ⟨⟩ d₁ ⟨hcells₁, hahead₁⟩
  obtain ⟨hwithin₁, hopen₁⟩ := body_written hvacant hbody body.length
  rw [List.take_length, ← hcells₁] at hwithin₁ hopen₁
  have hwithin₂ : Within t i d.cells (program d₁.cells (t.start i) (commitWord t mark)) :=
    SameOutside.trans hwithin₁ (NorFlash.program_outside.mono (by rw [length_commitWord]; omega))
  have hframed : slot t (program d₁.cells (t.start i) (commitWord t mark)) i =
      framed t mark body := by
    rw [hcells₁]
    exact slot_framed hvacant hbody
  refine (TornFlash.ensures_write g _ (commitWord t mark) d₁).mono ?_ ?_
  · rintro ⟨⟩ d₂ ⟨hcells₂, hahead₂⟩
    rw [hcells₂]
    exact ⟨hwithin₂, hframed, hahead₁.trans hahead₂⟩
  rintro d₂ ⟨⟨n, hcells₂⟩, -, htroubled⟩
  have htrouble : d.faults ≠ [] ∨ check g g.writeSize (t.start i + t.commit) body.length ≠ none ∨
        check g g.writeSize (t.start i) t.commit ≠ none := by
    rw [length_commitWord] at htroubled
    rcases htroubled with hrefused | hfaults
    · exact Or.inr (Or.inr hrefused)
    · exact Or.inl fun h => hfaults (hahead₁.quiet h)
  rcases program_commitWord_take (t := t) d₁.cells mark n (t.start i) with hsame | hall
  · rw [hcells₂, hsame]
    exact ⟨hwithin₁, Or.inl hopen₁, htrouble⟩
  · rw [hcells₂, hall]
    exact ⟨hwithin₂, Or.inr hframed, htrouble⟩

end Prns.Verified.SlottedFlash
