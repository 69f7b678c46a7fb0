import Prns.Ports.ResourceAdvertisement
import Prns.Verified.KeyedRows

/-!
# The heap table of resource buffers

On a host every active resource owns its transfer and a name and a flag for each part
(`table/impls/heap.rs`), and the table counts the bytes of these buffers against a limit.
A transfer that a worker has taken away is still counted, by the length that it had, until
its row is removed.
-/

namespace Prns.Ports.ResourceStorage

open Verified Verified.KeyedRows Advertising

def defaultMaxResources : Nat := 4096
def defaultResourceMemoryBytes : Nat := 64 * 1024 * 1024
def heapTransferCapacity : Nat := sealedTransferBytes maxEfficientSize
def heapPartCapacity : Nat := divCeil heapTransferCapacity (resourceSdu broadcastMtu)

/-- A row. `entry` stands for the columns that are stored and never read here. -/
structure Row (Entry : Type) where
  entry : Entry
  transfer : List UInt8
  partNames : List (Bytes 4)
  partFlags : List Bool
  detachedTransferBytes : Nat

structure HeapResourceTable (Entry : Type) where
  rows : List (Row Entry) := []
  activeBufferBytes : Nat := 0
  memoryLimit : Nat := defaultResourceMemoryBytes

inductive ResourceTableAdmission where
  | available
  | temporarilyFull
  | impossible

inductive ResourceTablePushError where
  | tableFull
  | transferTooLarge
  | tooManyParts
  | memoryLimit

inductive ResourceTransferDetach where
  | detached (transfer : List UInt8)
  | unavailable

inductive ResourceTransferRestore where
  | restored
  | shapeMismatch (transfer : List UInt8)
  | unsupported (transfer : List UInt8)

variable {Entry : Type}

def Row.detachTransfer (row : Row Entry) : ResourceTransferDetach × Row Entry :=
  if row.detachedTransferBytes ≠ 0 ∨ row.transfer = [] then (.unavailable, row)
  else
    (.detached row.transfer,
      { row with transfer := [], detachedTransferBytes := row.transfer.length })

def Row.restoreTransfer (transfer : List UInt8) (row : Row Entry) :
    ResourceTransferRestore × Row Entry :=
  if transfer.length ≠ row.detachedTransferBytes then (.shapeMismatch transfer, row)
  else if row.detachedTransferBytes = 0 ∨ row.transfer ≠ [] then (.unsupported transfer, row)
  else (.restored, { row with transfer, detachedTransferBytes := 0 })

namespace HeapResourceTable

variable (t : HeapResourceTable Entry)

def admissionForShape (shape : ResourceBufferShape) : ResourceTableAdmission :=
  if heapTransferCapacity < shape.transferBytes ∨ heapPartCapacity < shape.partCount ∨
      t.memoryLimit < shape.bufferBytes then .impossible
  else if defaultMaxResources ≤ t.rows.length ∨
      t.memoryLimit - t.activeBufferBytes < shape.bufferBytes then .temporarilyFull
  else .available

def push (entry : Entry) (shape : ResourceBufferShape) :
    Except ResourceTablePushError Nat × HeapResourceTable Entry :=
  if heapTransferCapacity < shape.transferBytes then (.error .transferTooLarge, t)
  else if heapPartCapacity < shape.partCount then (.error .tooManyParts, t)
  else if defaultMaxResources ≤ t.rows.length then (.error .tableFull, t)
  else if t.memoryLimit - t.activeBufferBytes < shape.bufferBytes then (.error .memoryLimit, t)
  else
    let row : Row Entry :=
      { entry
        transfer := .replicate shape.transferBytes 0
        partNames := .replicate shape.partCount ⟨[0, 0, 0, 0], rfl⟩
        partFlags := .replicate shape.partCount false
        detachedTransferBytes := 0 }
    (.ok t.rows.length,
      { t with
        rows := t.rows ++ [row]
        activeBufferBytes := t.activeBufferBytes + shape.bufferBytes })

/-- `detach_transfer` and `restore_transfer` are operations on one row. Here and below `none`
is the panic on an index that is not there. -/
def onRow {β : Type} (index : Nat) (f : Row Entry → β × Row Entry) :
    Option (β × HeapResourceTable Entry) :=
  t.rows[index]?.map fun row => ((f row).1, { t with rows := t.rows.set index (f row).2 })

/-- It also panics where the bytes of the row have no sum, or where the count would underflow. -/
def swapRemove (index : Nat) : Option (HeapResourceTable Entry) := do
  let row ← t.rows[index]?
  let rowBytes ← checkedResourceBufferBytes
    (min (row.transfer.length + row.detachedTransferBytes) usizeMax) row.partNames.length
  if rowBytes ≤ t.activeBufferBytes then
    some { t with
      rows := VecOps.swapRemove t.rows index
      activeBufferBytes := t.activeBufferBytes - rowBytes }
  else none

end HeapResourceTable

/-! ## The count -/

/-- The shapes that there are: they are only made for a transfer. -/
abbrev Shape : Type :=
  { shape : ResourceBufferShape //
    ∃ sdu, ResourceBufferShape.tryForTransfer shape.transferBytes sdu = .ok shape }

inductive Call (α : Type) where
  | push (entry : α) (shape : Shape)
  | detachTransfer (index : Nat)
  | restoreTransfer (index : Nat) (transfer : List UInt8)
  | swapRemove (index : Nat)
  | setMemoryLimit (limit : Nat)

variable {α : Type}

/-- The table after a call. Each entry holds the shape that its row was pushed with. -/
def HeapResourceTable.step (t : HeapResourceTable (Shape × α)) :
    Call α → HeapResourceTable (Shape × α)
  | .push entry shape => (t.push (shape, entry) shape.val).2
  | .detachTransfer index => ((t.onRow index Row.detachTransfer).map Prod.snd).getD t
  | .restoreTransfer index transfer =>
    ((t.onRow index (Row.restoreTransfer transfer)).map Prod.snd).getD t
  | .swapRemove index => (t.swapRemove index).getD t
  | .setMemoryLimit limit => { t with memoryLimit := limit }

def Row.shape (row : Row (Shape × α)) : ResourceBufferShape := row.entry.1.val

/-- The buffers of the row, attached or not, have its shape. -/
def Row.Shaped (row : Row (Shape × α)) : Prop :=
  row.transfer.length + row.detachedTransferBytes = row.shape.transferBytes ∧
    row.partNames.length = row.shape.partCount ∧ row.partFlags.length = row.shape.partCount

structure Exact (t : HeapResourceTable (Shape × α)) : Prop where
  counted : t.activeBufferBytes = (t.rows.map (·.shape.bufferBytes)).sum
  shaped : ∀ row ∈ t.rows, row.Shaped

variable {t : HeapResourceTable (Shape × α)} {row : Row (Shape × α)} {index : Nat}

theorem Row.Shaped.bytes (h : row.Shaped) :
    checkedResourceBufferBytes (min (row.transfer.length + row.detachedTransferBytes) usizeMax)
      row.partNames.length = some row.shape.bufferBytes := by
  obtain ⟨sdu, hshape⟩ := row.entry.1.property
  change ResourceBufferShape.tryForTransfer row.shape.transferBytes sdu = .ok row.shape at hshape
  rw [h.1, h.2.1]
  unfold ResourceBufferShape.tryForTransfer at hshape
  split_ifs at hshape
  dsimp only at hshape
  split at hshape
  · cases hshape
  next hbytes =>
  rw [← Except.ok.inj hshape]
  have hle : row.shape.transferBytes ≤ usizeMax := by
    unfold checkedResourceBufferBytes at hbytes
    split_ifs at hbytes
    omega
  simp only [Nat.min_eq_left hle, hbytes]

theorem Exact.onRow {β : Type} (h : Exact t) {f : Row (Shape × α) → β × Row (Shape × α)}
    (hf : ∀ row : Row (Shape × α), row.Shaped → (f row).2.entry = row.entry ∧ (f row).2.Shaped) :
    Exact (((t.onRow index f).map Prod.snd).getD t) := by
  unfold HeapResourceTable.onRow
  cases hi : t.rows[index]? with
  | none => exact h
  | some row =>
    obtain ⟨hentry, hshaped⟩ := hf row (h.shaped row (List.mem_of_getElem? hi))
    have hbytes : (f row).2.shape.bufferBytes = row.shape.bufferBytes := by
      rw [Row.shape, hentry, Row.shape]
    constructor
    · exact h.counted.trans (congrArg List.sum (map_key_set hi hbytes)).symm
    · intro r hr
      rcases List.mem_or_eq_of_mem_set hr with hmem | rfl
      · exact h.shaped r hmem
      · exact hshaped

theorem Exact.push (h : Exact t) (entry : α) (shape : Shape) :
    Exact (t.push (shape, entry) shape.val).2 := by
  unfold HeapResourceTable.push
  split_ifs <;> try exact h
  constructor
  · simp [h.counted, Row.shape]
  intro row hrow
  rcases List.mem_append.mp hrow with hmem | hmem
  · exact h.shaped row hmem
  · rw [List.mem_singleton.mp hmem]
    simp [Row.Shaped, Row.shape]

theorem Exact.swapRemove (h : Exact t) (hi : t.rows[index]? = some row) :
    ∃ t', t.swapRemove index = some t' ∧ Exact t' := by
  have hperm := VecOps.swapRemove_perm t.rows index row hi
  have hsum := (hperm.map (·.shape.bufferBytes)).sum_nat
  rw [← h.counted, List.map_cons, List.sum_cons] at hsum
  have hbytes := (h.shaped row (List.mem_of_getElem? hi)).bytes
  simp only [HeapResourceTable.swapRemove, hi, Option.bind_eq_bind, Option.bind_some, hbytes]
  rw [if_pos (by omega)]
  refine ⟨_, rfl, by simp only; omega, ?_⟩
  intro r hr
  exact h.shaped r (hperm.mem_iff.mpr (List.mem_cons_of_mem row hr))

theorem Exact.step (h : Exact t) (call : Call α) : Exact (t.step call) := by
  cases call with
  | push entry shape => exact h.push entry shape
  | setMemoryLimit limit => exact ⟨h.counted, h.shaped⟩
  | swapRemove index =>
    cases hi : t.rows[index]? with
    | none => simpa [HeapResourceTable.step, HeapResourceTable.swapRemove, hi] using h
    | some row =>
      obtain ⟨t', hrun, hexact⟩ := h.swapRemove hi
      simpa [HeapResourceTable.step, hrun] using hexact
  | detachTransfer index =>
    apply h.onRow
    intro row hrow
    unfold Row.detachTransfer
    split_ifs with hkept
    · exact ⟨rfl, hrow⟩
    · simp_all [Row.Shaped, Row.shape]
  | restoreTransfer index transfer =>
    apply h.onRow
    intro row hrow
    unfold Row.restoreTransfer
    split_ifs with hlength hkept
    · exact ⟨rfl, hrow⟩
    · exact ⟨rfl, hrow⟩
    · simp_all [Row.Shaped, Row.shape]

/-- After any calls the count is the sum of the shapes of the rows, whose buffers have these
shapes; a row that is there can be removed without an underflow; and a push succeeds just
where the admission says available, and changes nothing elsewhere. -/
theorem storage_accounting_exact (calls : List (Call α)) :
    let t := calls.foldl HeapResourceTable.step ({} : HeapResourceTable (Shape × α))
    Exact t ∧ (∀ index, (t.swapRemove index).isSome ↔ index < t.rows.length) ∧
    ∀ entry shape,
      (t.admissionForShape shape = .available ↔ (t.push entry shape).1 = .ok t.rows.length) ∧
      (t.admissionForShape shape = .available ↔ (t.push entry shape).2 ≠ t) := by
  intro t
  have hexact : Exact t :=
    List.foldlRecOn calls _ ⟨rfl, nofun⟩ fun t h call _ => h.step call
  refine ⟨hexact, fun index => ?_, fun entry shape => ?_⟩
  · cases hi : t.rows[index]? with
    | none => simp [HeapResourceTable.swapRemove, List.getElem?_eq_none_iff.mp hi]
    | some row =>
      obtain ⟨t', hrun, -⟩ := hexact.swapRemove hi
      simp [hrun, (List.getElem?_eq_some_iff.mp hi).1]
  · unfold HeapResourceTable.admissionForShape HeapResourceTable.push
    grind

end Prns.Ports.ResourceStorage
