import Prns.Verified.NorFlash

/-!
# Flash whose interrupted erases leave anything

The cells and the operations of `NorFlash`, with a coarser view of a failure. A write
that fails or loses power leaves a prefix of its bytes. An erase that fails or loses
power raises some bits of its range, any of them: a record in that range may be torn at
any bit.
-/

namespace Prns.Verified.TornFlash

open Verified
open Verified.NorFlash (Geometry Image FlashError check slice program eraseCells)

/-- What an operation that does not complete leaves. -/
structure Tear where
  /-- Bytes of a write that reached the cells. -/
  done : Nat
  /-- Bits that an erase raised. -/
  raised : Nat → UInt8

inductive Fault where
  | none
  | fail (tear : Tear)
  | powerLoss (tear : Tear)

/-- The flash, and what the next operations run into; past the end of the list nothing
fails. -/
structure Device where
  cells : Image
  faults : List Fault

def Fault.tear : Fault → Option Tear
  | .none => Option.none
  | .fail tear => some tear
  | .powerLoss tear => some tear

def Device.tears (d : Device) : List Tear := d.faults.filterMap Fault.tear

/-- Nothing fails from here on. -/
def Device.quiet (d : Device) : Device := { d with faults := [] }

def raise (cells : Image) (start stop : Nat) (bits : Nat → UInt8) : Image := fun x =>
  if start ≤ x ∧ x < stop then cells x ||| bits x else cells x

def Device.fault (d : Device) : Fault := d.faults.headD .none

def Device.next (d : Device) (cells : Image) : Device := { cells := cells, faults := d.faults.tail }

def read (g : Geometry) (pos len : Nat) : Act Device FlashError (List UInt8) := fun d =>
  match check g g.readSize pos len with
  | some e => (.error e, d)
  | none =>
    match d.fault with
    | .none => (.ok (slice d.cells pos len), d.next d.cells)
    | .fail _ => (.error .other, d.next d.cells)
    | .powerLoss _ => (.stopped false, d.next d.cells)

def write (g : Geometry) (pos : Nat) (bytes : List UInt8) : Act Device FlashError Unit := fun d =>
  match check g g.writeSize pos bytes.length with
  | some e => (.error e, d)
  | none =>
    match d.fault with
    | .none => (.ok (), d.next (program d.cells pos bytes))
    | .fail tear => (.error .other, d.next (program d.cells pos (bytes.take tear.done)))
    | .powerLoss tear => (.stopped false, d.next (program d.cells pos (bytes.take tear.done)))

def erase (g : Geometry) (start stop : Nat) : Act Device FlashError Unit := fun d =>
  if stop < start then (.error .outOfBounds, d)
  else
    match check g g.eraseSize start (stop - start) with
    | some e => (.error e, d)
    | none =>
      match d.fault with
      | .none => (.ok (), d.next (eraseCells d.cells start stop))
      | .fail tear => (.error .other, d.next (raise d.cells start stop tear.raised))
      | .powerLoss tear => (.stopped false, d.next (raise d.cells start stop tear.raised))

/-! ## Cells under a torn erase -/

variable {cells : Image}

section

variable {start stop : Nat} {bits : Nat → UInt8}

theorem raise_outside : NorFlash.SameOutside cells (raise cells start stop bits) start stop :=
  fun _ hx => if_neg (by omega)

theorem raise_zero : raise cells start stop (fun _ => 0) = cells := by
  funext x
  unfold raise
  split
  · exact UInt8.or_zero
  · rfl

end

/-! ## What an operation leaves

`Ahead d d'` says that `d'` still has only faults that `d` had ahead. -/

def Ahead (d d' : Device) : Prop := d'.faults <:+ d.faults

theorem Ahead.refl (d : Device) : Ahead d d := List.suffix_refl _

variable {d d' : Device}

theorem Ahead.trans {d'' : Device} (h : Ahead d d') (h' : Ahead d' d'') : Ahead d d'' :=
  List.IsSuffix.trans h' h

theorem ahead_next (d : Device) (cells : Image) : Ahead d (d.next cells) := List.tail_suffix _

variable {tear : Tear} {fault : Fault}

theorem Ahead.tears (h : Ahead d d') (ht : tear ∈ d'.tears) : tear ∈ d.tears := by
  obtain ⟨fault, hfault, heq⟩ := List.mem_filterMap.mp ht
  exact List.mem_filterMap.mpr ⟨fault, h.subset hfault, heq⟩

theorem Ahead.quiet (h : Ahead d d') (hd : d.faults = []) : d'.faults = [] := by
  rw [Ahead, hd] at h
  exact List.suffix_nil.mp h

theorem fault_mem (h : d.fault = fault) (hne : fault ≠ .none) : fault ∈ d.faults := by
  rw [Device.fault] at h
  cases hfaults : d.faults <;> rw [hfaults] at h
  · exact absurd h.symm hne
  · exact h ▸ List.mem_cons_self

theorem tear_mem (h : d.fault = fault) (ht : fault.tear = some tear) : tear ∈ d.tears := by
  have hne : fault ≠ .none := by
    rintro rfl
    cases ht
  exact List.mem_filterMap.mpr ⟨fault, fault_mem h hne, ht⟩

variable (g : Geometry)

/-- The operation was refused, or ran into a fault. -/
def Troubled (d : Device) (refused : Option FlashError) : Prop := refused ≠ none ∨ d.faults ≠ []

variable {refused : Option FlashError}

theorem troubled_of_fault (h : d.fault = fault) (hne : fault ≠ .none) :
    Troubled d refused :=
  Or.inr (List.ne_nil_of_mem (fault_mem h hne))

theorem Troubled.faulted (h : Troubled d' refused) (hrefused : refused = none)
    (hahead : Ahead d d') :
    d.faults ≠ [] := by
  rcases h with hne | hfaults
  · exact absurd hrefused hne
  · exact fun hd => hfaults (hahead.quiet hd)

theorem ensures_read (pos len : Nat) (d : Device) : Act.Ensures (read g pos len) d
      (fun bytes d' => bytes = slice d.cells pos len ∧ d'.cells = d.cells ∧ Ahead d d')
      (fun d' => d'.cells = d.cells ∧ Ahead d d' ∧ Troubled d (check g g.readSize pos len)) := by
  unfold Act.Ensures read
  cases hcheck : check g g.readSize pos len with
  | some e => exact ⟨rfl, Ahead.refl d, Or.inl nofun⟩
  | none =>
    cases hfault : d.fault with
    | none => exact ⟨rfl, rfl, ahead_next ..⟩
    | fail tear => exact ⟨rfl, ahead_next .., troubled_of_fault hfault nofun⟩
    | powerLoss tear => exact ⟨rfl, ahead_next .., troubled_of_fault hfault nofun⟩

theorem ensures_write (pos : Nat) (bytes : List UInt8) (d : Device) :
    Act.Ensures (write g pos bytes) d
      (fun _ d' => d'.cells = program d.cells pos bytes ∧ Ahead d d')
      (fun d' => (∃ n, d'.cells = program d.cells pos (bytes.take n)) ∧ Ahead d d' ∧
        Troubled d (check g g.writeSize pos bytes.length)) := by
  unfold Act.Ensures write
  cases hcheck : check g g.writeSize pos bytes.length with
  | some e => exact ⟨⟨0, NorFlash.program_nil.symm⟩, Ahead.refl d, Or.inl nofun⟩
  | none =>
    cases hfault : d.fault with
    | none => exact ⟨rfl, ahead_next ..⟩
    | fail tear => exact ⟨⟨tear.done, rfl⟩, ahead_next .., troubled_of_fault hfault nofun⟩
    | powerLoss tear => exact ⟨⟨tear.done, rfl⟩, ahead_next .., troubled_of_fault hfault nofun⟩

theorem read_quiet {pos len : Nat} (h : check g g.readSize pos len = none) (d : Device) :
    read g pos len d.quiet = (.ok (slice d.cells pos len), d.quiet) := by
  rw [read, h]
  rfl

theorem calm_read (pos len : Nat) : Act.Calm Device.quiet (read g pos len) where
  keeps d := by
    unfold read
    cases check g g.readSize pos len with
    | some e => rfl
    | none => cases d.fault <;> rfl
  returns d a h := by
    unfold read at h
    split at h
    · cases h
    · rename_i hcheck
      split at h <;> cases h
      exact read_quiet g hcheck d

/-- The cells after an erase that did not complete. -/
def Torn (d : Device) (start stop : Nat) (cells : Image) : Prop :=
  cells = d.cells ∨ ∃ tear ∈ d.tears, cells = raise d.cells start stop tear.raised

section

variable {g} {d₀ : Device} {L : Image → Prop} {trouble : Prop} {pos : Nat} (hahead : Ahead d₀ d)
  (hcells : d.cells = cells)

include hahead hcells

theorem ensures_read_from {len : Nat} (hleft : L cells)
    (htrouble : Troubled d (check g g.readSize pos len) → trouble) :
    Act.Ensures (read g pos len) d
      (fun bytes d' => bytes = slice cells pos len ∧ d'.cells = cells ∧ Ahead d₀ d')
      (fun d' => L d'.cells ∧ trouble) := by
  subst hcells
  refine (ensures_read g pos len d).mono ?_ ?_
  · rintro bytes d' ⟨hbytes, hsame, hnext⟩
    exact ⟨hbytes, hsame, hahead.trans hnext⟩
  · rintro d' ⟨hsame, -, htroubled⟩
    exact ⟨hsame ▸ hleft, htrouble htroubled⟩

theorem ensures_write_from {bytes : List UInt8} (hleft : ∀ n, L (program cells pos (bytes.take n)))
    (htrouble : Troubled d (check g g.writeSize pos bytes.length) → trouble) :
    Act.Ensures (write g pos bytes) d (fun _ d' => d'.cells = program cells pos bytes ∧ Ahead d₀ d')
      (fun d' => L d'.cells ∧ trouble) := by
  subst hcells
  refine (ensures_write g pos bytes d).mono ?_ ?_
  · rintro _ d' ⟨hwritten, hnext⟩
    exact ⟨hwritten, hahead.trans hnext⟩
  · rintro d' ⟨⟨n, hwritten⟩, -, htroubled⟩
    exact ⟨hwritten ▸ hleft n, htrouble htroubled⟩

end

theorem ensures_erase {start stop : Nat} (hle : start ≤ stop) (d : Device) :
    Act.Ensures (erase g start stop) d
      (fun _ d' => d'.cells = eraseCells d.cells start stop ∧ Ahead d d')
      (fun d' => Torn d start stop d'.cells ∧ Ahead d d' ∧
        Troubled d (check g g.eraseSize start (stop - start))) := by
  unfold Act.Ensures erase
  rw [if_neg (Nat.not_lt.mpr hle)]
  cases hcheck : check g g.eraseSize start (stop - start) with
  | some e => exact ⟨Or.inl rfl, Ahead.refl d, Or.inl nofun⟩
  | none =>
    cases hfault : d.fault with
    | none => exact ⟨rfl, ahead_next ..⟩
    | fail tear =>
      exact ⟨Or.inr ⟨tear, tear_mem hfault rfl, rfl⟩, ahead_next .., troubled_of_fault hfault nofun⟩
    | powerLoss tear =>
      exact ⟨Or.inr ⟨tear, tear_mem hfault rfl, rfl⟩, ahead_next .., troubled_of_fault hfault nofun⟩

end Prns.Verified.TornFlash
