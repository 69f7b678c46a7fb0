import Mathlib.Data.Nat.Bits
import Mathlib.Tactic.Ring

/-!
# Zero-byte search inside a machine word

A word read little-endian from `k` bytes is `b₀ + 256·b₁ + …`. Subtracting one
from every byte at once, masking with the complement and keeping the top bit of
each byte marks the zero bytes; a borrow can add false marks, but only above a
true one. So the lowest mark is exact, which is all a first-match search needs.

Everything is stated on `Nat` at an arbitrary number of lanes. The proofs peel
the lowest byte: a nonzero byte contributes no mark and no borrow, a zero byte
contributes the mark `128` whatever the bytes above it are.
-/

namespace Prns.Verified.ByteLanes

/-- The number a byte list denotes, lowest byte first. -/
def fromLeBytes : List UInt8 → Nat
  | [] => 0
  | b :: bs => b.toNat + 256 * fromLeBytes bs

theorem fromLeBytes_lt (bs : List UInt8) : fromLeBytes bs < 256 ^ bs.length := by
  induction bs with
  | nil => simp [fromLeBytes]
  | cons b bs ih =>
    have hb : b.toNat < 256 := b.toNat_lt
    simp only [fromLeBytes, List.length_cons, Nat.pow_succ]
    omega

theorem fromLeBytes_append (xs ys : List UInt8) : fromLeBytes (xs ++ ys) =
      fromLeBytes xs + 256 ^ xs.length * fromLeBytes ys := by
  induction xs with
  | nil => simp [fromLeBytes]
  | cons x xs ih =>
    simp only [List.cons_append, fromLeBytes, ih, List.length_cons, Nat.pow_succ]
    ring

theorem testBit_lane (b x i : Nat) (hb : b < 256) : (b + 256 * x).testBit i =
      if i < 8 then b.testBit i else x.testBit (i - 8) := by
  have h := Nat.testBit_two_pow_mul_add x (b := b) (i := 8) (by simpa using hb) i
  rw [Nat.add_comm]
  simpa using h

theorem bitwise_lane (f : Bool → Bool → Bool) (hf : f false false = false) {a b : Nat} (x y : Nat)
    (ha : a < 256) (hb : b < 256) :
    Nat.bitwise f (a + 256 * x) (b + 256 * y) = Nat.bitwise f a b + 256 * Nat.bitwise f x y := by
  apply Nat.eq_of_testBit_eq
  intro i
  have hab : Nat.bitwise f a b < 256 := Nat.bitwise_lt_two_pow (n := 8) ha hb
  rw [Nat.testBit_bitwise hf, testBit_lane _ _ _ ha, testBit_lane _ _ _ hb, testBit_lane _ _ _ hab]
  split <;> rw [Nat.testBit_bitwise hf]

theorem and_lane (a b x y : Nat) (ha : a < 256) (hb : b < 256) :
    (a + 256 * x) &&& (b + 256 * y) = (a &&& b) + 256 * (x &&& y) :=
  bitwise_lane and rfl x y ha hb

theorem or_lane (a b x y : Nat) (ha : a < 256) (hb : b < 256) :
    (a + 256 * x) ||| (b + 256 * y) = (a ||| b) + 256 * (x ||| y) :=
  bitwise_lane or rfl x y ha hb

theorem xor_lane (a b x y : Nat) (ha : a < 256) (hb : b < 256) :
    (a + 256 * x) ^^^ (b + 256 * y) = (a ^^^ b) + 256 * (x ^^^ y) :=
  bitwise_lane bne rfl x y ha hb

/-! ## The zero-byte marks -/

/-- One in every one of `k` lanes. -/
def ones : Nat → Nat
  | 0 => 0
  | k + 1 => 1 + 256 * ones k

theorem ones_lt (k : Nat) : ones k < 256 ^ k := by
  induction k with
  | zero => simp [ones]
  | succ k ih =>
    simp only [ones, Nat.pow_succ]
    omega

theorem fromLeBytes_xor_ones (c : UInt8) (bs : List UInt8) :
    fromLeBytes bs ^^^ (c.toNat * ones bs.length) = fromLeBytes (bs.map (· ^^^ c)) := by
  induction bs with
  | nil => simp [fromLeBytes, ones]
  | cons b bs ih =>
    have hrep : c.toNat * ones (bs.length + 1) = c.toNat + 256 * (c.toNat * ones bs.length) := by
      simp only [ones]
      ring
    simp only [List.length_cons, List.map_cons, fromLeBytes, hrep]
    rw [xor_lane _ _ _ _ b.toNat_lt c.toNat_lt, ih, UInt8.toNat_xor]

/-- Wrapping subtraction of one from every lane, kept where the lane's top bit
rose: the classical zero-byte marks of a `k`-lane word. -/
def zeroMarks (k x : Nat) : Nat :=
  ((x + (256 ^ k - ones k)) % 256 ^ k &&& (256 ^ k - 1 - x)) &&& (128 * ones k)

theorem high_succ (k : Nat) : 128 * ones (k + 1) = 128 + 256 * (128 * ones k) := by
  simp only [ones]
  ring

private theorem byte_marks_of_pos : ∀ b < 256, 0 < b → ((b - 1) &&& (255 - b)) &&& 128 = 0 := by
  decide +kernel

/-- A nonzero lowest byte leaves no mark and lends nothing to the lanes above. -/
theorem zeroMarks_succ_of_pos (k b x : Nat) (hpos : 0 < b) (hb : b < 256) (hx : x < 256 ^ k) :
    zeroMarks (k + 1) (b + 256 * x) = 256 * zeroMarks k x := by
  have hones := ones_lt k
  have hsub : (b + 256 * x + (256 ^ (k + 1) - ones (k + 1))) % 256 ^ (k + 1) =
      (b - 1) + 256 * ((x + (256 ^ k - ones k)) % 256 ^ k) := by
    simp only [ones, Nat.pow_succ]
    have hsplit : b + 256 * x + (256 ^ k * 256 - (1 + 256 * ones k)) =
        (b - 1) + 256 * (x + (256 ^ k - ones k)) := by omega
    rw [hsplit, Nat.mul_comm (256 ^ k) 256, Nat.mod_mul]
    have hmod : (b - 1 + 256 * (x + (256 ^ k - ones k))) % 256 = b - 1 := by
      omega
    have hdiv : (b - 1 + 256 * (x + (256 ^ k - ones k))) / 256 = x + (256 ^ k - ones k) := by omega
    rw [hmod, hdiv]
  have hcompl : 256 ^ (k + 1) - 1 - (b + 256 * x) = (255 - b) + 256 * (256 ^ k - 1 - x) := by
    omega
  have hbyte := byte_marks_of_pos b hb hpos
  unfold zeroMarks
  rw [hsub, hcompl, high_succ, and_lane _ _ _ _ (by omega) (by omega),
    and_lane _ _ _ _ (Nat.lt_of_le_of_lt Nat.and_le_left (by omega)) (by omega),
    hbyte, Nat.zero_add]

theorem zeroMarks_succ_of_zero (k x : Nat) (hx : x < 256 ^ k) :
    ∃ y, zeroMarks (k + 1) (256 * x) = 128 + 256 * y := by
  have hones := ones_lt k
  have hsub : ∃ z, (256 * x + (256 ^ (k + 1) - ones (k + 1))) % 256 ^ (k + 1) = 255 + 256 * z := by
    simp only [ones, Nat.pow_succ]
    have hsplit : 256 * x + (256 ^ k * 256 - (1 + 256 * ones k)) =
        255 + 256 * (x + (256 ^ k - ones k - 1)) := by omega
    rw [hsplit, Nat.mul_comm (256 ^ k) 256, Nat.mod_mul]
    refine ⟨(255 + 256 * (x + (256 ^ k - ones k - 1))) / 256 % 256 ^ k, ?_⟩
    omega
  obtain ⟨z, hz⟩ := hsub
  have hcompl : 256 ^ (k + 1) - 1 - 256 * x = 255 + 256 * (256 ^ k - 1 - x) := by
    omega
  unfold zeroMarks
  rw [hz, hcompl, high_succ, and_lane _ _ _ _ (by omega) (by omega),
    and_lane _ _ _ _ (by decide) (by omega)]
  exact ⟨_, rfl⟩

/-- The marks of two words together: a search for either of two bytes marks
both exclusive-or images of the input. -/
def pairMarks (p q : UInt8 → UInt8) (bs : List UInt8) : Nat :=
  zeroMarks bs.length (fromLeBytes (bs.map p)) |||
    zeroMarks bs.length (fromLeBytes (bs.map q))

theorem zeroMarks_cons_of_ne {r : UInt8 → UInt8} {b : UInt8} (bs : List UInt8) (hr : r b ≠ 0) :
    zeroMarks (bs.length + 1) (fromLeBytes ((b :: bs).map r)) =
      256 * zeroMarks bs.length (fromLeBytes (bs.map r)) := by
  have hpos : 0 < (r b).toNat := Nat.pos_of_ne_zero fun h0 => hr (UInt8.toNat_inj.mp h0)
  have hlt := fromLeBytes_lt (bs.map r)
  rw [List.length_map] at hlt
  exact zeroMarks_succ_of_pos _ _ _ hpos (r b).toNat_lt hlt

variable (p q : UInt8 → UInt8)

theorem pairMarks_cons_of_pos (b : UInt8) (bs : List UInt8) (hp : p b ≠ 0)
    (hq : q b ≠ 0) : pairMarks p q (b :: bs) = 256 * pairMarks p q bs := by
  unfold pairMarks
  rw [List.length_cons, zeroMarks_cons_of_ne bs hp, zeroMarks_cons_of_ne bs hq]
  have hor := or_lane 0 0 (zeroMarks bs.length (fromLeBytes (bs.map p)))
    (zeroMarks bs.length (fromLeBytes (bs.map q))) (by decide) (by decide)
  simpa using hor

private theorem zeroMarks_cons_low (r : UInt8 → UInt8) (b : UInt8) (bs : List UInt8) :
    ∃ y, zeroMarks (bs.length + 1) (fromLeBytes ((b :: bs).map r)) =
      (if r b = 0 then 128 else 0) + 256 * y := by
  by_cases hr : r b = 0
  · have hlt := fromLeBytes_lt (bs.map r)
    rw [List.length_map] at hlt
    obtain ⟨y, hy⟩ := zeroMarks_succ_of_zero bs.length _ hlt
    refine ⟨y, ?_⟩
    simp only [List.map_cons, fromLeBytes, hr, if_true]
    simpa using hy
  · refine ⟨zeroMarks bs.length (fromLeBytes (bs.map r)), ?_⟩
    rw [zeroMarks_cons_of_ne bs hr, if_neg hr, Nat.zero_add]

theorem pairMarks_cons_of_zero (b : UInt8) (bs : List UInt8)
    (h : p b = 0 ∨ q b = 0) : ∃ y, pairMarks p q (b :: bs) = 128 + 256 * y := by
  obtain ⟨y, hy⟩ := zeroMarks_cons_low p b bs
  obtain ⟨z, hz⟩ := zeroMarks_cons_low q b bs
  refine ⟨y ||| z, ?_⟩
  unfold pairMarks
  rw [List.length_cons, hy, hz, or_lane]
  · rcases h with h | h <;> simp only [h, if_true] <;> split <;> rfl
  · split <;> decide
  · split <;> decide

theorem pairMarks_first (bs : List UInt8) :
    match bs.findIdx? (fun b => p b == 0 || q b == 0) with
    | none => pairMarks p q bs = 0
    | some j =>
      (pairMarks p q bs).testBit (8 * j + 7) = true ∧
        ∀ i < 8 * j + 7, (pairMarks p q bs).testBit i = false := by
  induction bs with
  | nil => simp [pairMarks, zeroMarks, ones, fromLeBytes]
  | cons b bs ih =>
    by_cases hb : p b = 0 ∨ q b = 0
    · obtain ⟨y, hy⟩ := pairMarks_cons_of_zero p q b bs hb
      have hfind : (b :: bs).findIdx? (fun b => p b == 0 || q b == 0) = some 0 := by
        simp [List.findIdx?_cons, hb]
      rw [hfind]
      refine ⟨?_, ?_⟩
      · rw [hy, testBit_lane _ _ _ (by decide), if_pos (by decide)]
        decide
      · intro i hi
        rw [hy, testBit_lane _ _ _ (by decide), if_pos (by omega)]
        have hbits : ∀ i < 7, (128 : Nat).testBit i = false := by decide
        exact hbits i (by omega)
    · have hp : p b ≠ 0 := fun h => hb (Or.inl h)
      have hq : q b ≠ 0 := fun h => hb (Or.inr h)
      have hfind : (b :: bs).findIdx? (fun b => p b == 0 || q b == 0) =
          (bs.findIdx? (fun b => p b == 0 || q b == 0)).map (· + 1) := by
        simp [List.findIdx?_cons, hp, hq]
      have hshift : ∀ i, (256 * pairMarks p q bs).testBit i =
          if i < 8 then false else (pairMarks p q bs).testBit (i - 8) := by
        intro i
        have h := testBit_lane 0 (pairMarks p q bs) i (by decide)
        simpa using h
      rw [hfind, pairMarks_cons_of_pos p q b bs hp hq]
      cases hrest : bs.findIdx? (fun b => p b == 0 || q b == 0) with
      | none =>
        simp only [hrest] at ih
        simp [ih]
      | some j =>
        simp only [hrest] at ih
        simp only [Option.map_some]
        refine ⟨?_, ?_⟩
        · rw [hshift, if_neg (by omega)]
          exact ih.1
        intro i hi
        rw [hshift]
        split
        · rfl
        · exact ih.2 (i - 8) (by omega)

end Prns.Verified.ByteLanes
