import Mathlib.Algebra.GroupWithZero.Nat

/-!
# Bytes

The `to_le_bytes` and `from_le_bytes` of an unsigned integer of any width, as
functions of the natural number it stands for, and their big-endian counterparts; the
slices and single bytes of a byte string; the bits of a byte; masking with a key stream; and
writing into a buffer of fixed length.
-/

namespace Prns.Verified

/-- The `n` low bytes of `v`, lowest first. -/
def leBytes : Nat → Nat → List UInt8
  | 0, _ => []
  | n + 1, v => UInt8.ofNat v :: leBytes n (v / 256)

def ofLeBytes : List UInt8 → Nat
  | [] => 0
  | b :: bs => b.toNat + 256 * ofLeBytes bs

@[simp] theorem length_leBytes (n v : Nat) : (leBytes n v).length = n := by
  induction n generalizing v with
  | zero => rfl
  | succ n ih => rw [leBytes, List.length_cons, ih]

variable {n v : Nat} {bytes bytes' : List UInt8}

theorem ofLeBytes_leBytes (h : v < 256 ^ n) : ofLeBytes (leBytes n v) = v := by
  induction n generalizing v with
  | zero =>
    show 0 = v
    omega
  | succ n ih =>
    have hdiv : v / 256 < 256 ^ n := by
      omega
    rw [leBytes, ofLeBytes, ih hdiv, UInt8.toNat_ofNat']
    omega

theorem ofLeBytes_lt (bytes : List UInt8) : ofLeBytes bytes < 256 ^ bytes.length := by
  induction bytes with
  | nil => exact Nat.one_pos
  | cons b bs ih =>
    have hb := b.toNat_lt
    rw [ofLeBytes, List.length_cons, Nat.pow_succ]
    omega

theorem ofLeBytes_inj (hlen : bytes.length = bytes'.length)
    (h : ofLeBytes bytes = ofLeBytes bytes') :
    bytes = bytes' := by
  induction bytes generalizing bytes' with
  | nil => exact (List.length_eq_zero_iff.mp hlen.symm).symm
  | cons b bs ih =>
    cases bytes' with
    | nil => cases hlen
    | cons b' bs' =>
      have hb := b.toNat_lt
      have hb' := b'.toNat_lt
      rw [ofLeBytes, ofLeBytes] at h
      rw [ih (Nat.succ.inj hlen) (by omega), UInt8.toNat_inj.mp (by omega : b.toNat = b'.toNat)]

def beBytes (n v : Nat) : List UInt8 := (leBytes n v).reverse

def ofBeBytes (bytes : List UInt8) : Nat := ofLeBytes bytes.reverse

@[simp] theorem length_beBytes (n v : Nat) : (beBytes n v).length = n := by
  rw [beBytes, List.length_reverse, length_leBytes]

theorem ofBeBytes_beBytes (h : v < 256 ^ n) : ofBeBytes (beBytes n v) = v := by
  rw [ofBeBytes, beBytes, List.reverse_reverse, ofLeBytes_leBytes h]

theorem ofBeBytes_inj (hlen : bytes.length = bytes'.length)
    (h : ofBeBytes bytes = ofBeBytes bytes') :
    bytes = bytes' := by
  apply List.reverse_inj.mp
  exact ofLeBytes_inj (by simpa using hlen) h

theorem ofBeBytes_lt (bytes : List UInt8) : ofBeBytes bytes < 256 ^ bytes.length := by
  have hlt := ofLeBytes_lt bytes.reverse
  rwa [List.length_reverse] at hlt

/-- `bytes[pos..pos + len]`. -/
def field (bytes : List UInt8) (pos len : Nat) : List UInt8 := (bytes.drop pos).take len

def byteAt (bytes : List UInt8) (pos : Nat) : UInt8 := bytes.getD pos 0

variable {front middle back : List UInt8} {pos len : Nat}

theorem field_middle (hfront : front.length = pos) (hmiddle : middle.length = len) :
    field (front ++ (middle ++ back)) pos len = middle := by
  rw [field, List.drop_left' hfront, List.take_left' hmiddle]

theorem field_last (hfront : front.length = pos) (hmiddle : middle.length = len) :
    field (front ++ middle) pos len = middle := by
  rw [field, List.drop_left' hfront, List.take_of_length_le (Nat.le_of_eq hmiddle)]

theorem eq_of_mem_field {b : UInt8} (h : bytes.all (· == 0xFF) = true)
    (hmem : b ∈ field bytes pos len) : b = 0xFF :=
  eq_of_beq (List.all_eq_true.mp h _ (List.mem_of_mem_drop (List.mem_of_mem_take hmem)))

theorem byteAt_middle {b : UInt8} (hfront : front.length = pos) :
    byteAt (front ++ b :: back) pos = b := by
  rw [byteAt, List.getD_eq_getElem?_getD, List.getElem?_append_right (Nat.le_of_eq hfront),
    hfront, Nat.sub_self]
  rfl

namespace ByteBits

/-- Bit `i` of a byte. -/
def bit (b : UInt8) (i : Nat) : Bool := b.toBitVec.getLsbD i

theorem bit_ext {a b : UInt8} (h : ∀ i, i < 8 → bit a i = bit b i) : a = b :=
  UInt8.toBitVec_inj.mp (BitVec.eq_of_getLsbD_eq h)

theorem bit_and (a b : UInt8) (i : Nat) : bit (a &&& b) i = (bit a i && bit b i) :=
  BitVec.getLsbD_and

theorem bit_or (a b : UInt8) (i : Nat) : bit (a ||| b) i = (bit a i || bit b i) := BitVec.getLsbD_or

theorem bit_xor (a b : UInt8) (i : Nat) : bit (a ^^^ b) i = (bit a i ^^ bit b i) :=
  BitVec.getLsbD_xor

theorem bit_not (a : UInt8) {i : Nat} (h : i < 8) : bit (~~~a) i = !bit a i := by
  rw [bit, UInt8.toBitVec_not, BitVec.getLsbD_not, decide_eq_true h, Bool.true_and, bit]

end ByteBits

/-! ## Masking

Every byte of a message is combined with the byte of a stream at its position, but for the
positions that are kept. -/

namespace KeyStream

variable {stream : Nat → UInt8} {keep : Nat → Bool}

/-- Mask the bytes, the first of which is at position `start`. -/
def mask (stream : Nat → UInt8) (keep : Nat → Bool) : Nat → List UInt8 → List UInt8
  | _, [] => []
  | start, b :: bs =>
      (if keep start then b else b ^^^ stream start) :: mask stream keep (start + 1) bs

variable (start : Nat)

theorem mask_append (xs ys : List UInt8) : mask stream keep start (xs ++ ys) =
      mask stream keep start xs ++ mask stream keep (start + xs.length) ys := by
  induction xs generalizing start with
  | nil => rfl
  | cons x xs ih =>
    rw [List.cons_append, mask, mask, ih, List.length_cons, List.cons_append,
      Nat.add_right_comm, Nat.add_assoc]

variable (bytes : List UInt8)

theorem length_mask : (mask stream keep start bytes).length = bytes.length := by
  induction bytes generalizing start with
  | nil => rfl
  | cons b bs ih => rw [mask, List.length_cons, ih, List.length_cons]

theorem mask_mask : mask stream keep start (mask stream keep start bytes) = bytes := by
  induction bytes generalizing start with
  | nil => rfl
  | cons b bs ih =>
    rw [mask, mask, ih]
    cases keep start with
    | true => rfl
    | false =>
      show (b ^^^ stream start ^^^ stream start) :: bs = b :: bs
      rw [UInt8.xor_assoc, UInt8.xor_self, UInt8.xor_zero]

theorem mask_kept (h : ∀ i, start ≤ i → i < start + bytes.length → keep i = true) :
    mask stream keep start bytes = bytes := by
  induction bytes generalizing start with
  | nil => rfl
  | cons b bs ih =>
    rw [List.length_cons] at h
    rw [mask, if_pos (h start Nat.le.refl (by omega)),
      ih (start + 1) fun i hi hlt => h i (by omega) (by omega)]

end KeyStream

/-! ## Writing into a buffer of fixed length

Writing two runs of bytes one after the other is writing their concatenation. -/

variable {α : Type}

/-- `put`: append `bytes` to `written` in a buffer of `cap` places. -/
def put (cap : Nat) (written bytes : List α) : Option (List α) :=
  if written.length + bytes.length ≤ cap then some (written ++ bytes) else none

theorem put_put (cap : Nat) (written first second : List α) :
    ((put cap written first).bind fun written' => put cap written' second) =
      put cap written (first ++ second) := by
  rw [put, put, List.length_append]
  by_cases hfirst : written.length + first.length ≤ cap
  · rw [if_pos hfirst, Option.bind_some, put, List.length_append, List.append_assoc, Nat.add_assoc]
  · rw [if_neg hfirst, if_neg (by omega), Option.bind_none]

theorem put_nil_of_le {cap : Nat} {bytes : List α} (h : bytes.length ≤ cap) :
    put cap [] bytes = some bytes := by
  rw [put, List.length_nil, Nat.zero_add, if_pos h, List.nil_append]

end Prns.Verified
