import Prns.Ports.SerialFraming

/-!
# Every build of `find_special` finds the first special byte

The word searches of the builds without `std` are reduced to the zero-byte marks
of `Verified.ByteLanes`; the result is one equation, `findSpecial_eq`, and the
rest of the development never looks at the words again.
-/

namespace Prns.Ports.SerialFraming

open Verified.ByteLanes

/-! ## Words -/

theorem wordMarks_toNat (bs : List UInt8) (hlen : bs.length = 8) :
    (wordMarks (UInt64.ofNat (fromLeBytes bs))).toNat = pairMarks (· ^^^ flag) (· ^^^ esc) bs := by
  have hlt := fromLeBytes_lt bs
  rw [hlen] at hlt
  have hword : (UInt64.ofNat (fromLeBytes bs)).toNat = fromLeBytes bs := by
    exact Nat.mod_eq_of_lt hlt
  have himage : ∀ c : UInt8, ∀ rep : UInt64, rep.toNat = c.toNat * ones 8 →
      (UInt64.ofNat (fromLeBytes bs) ^^^ rep).toNat = fromLeBytes (bs.map (· ^^^ c)) := by
    intro c rep hrep
    rw [UInt64.toNat_xor, hword, hrep, ← fromLeBytes_xor_ones, hlen]
  have hmarks : ∀ w : UInt64, ((w - onesWord) &&& ~~~w).toNat &&& highsWord.toNat =
        zeroMarks 8 w.toNat := by
    intro w
    have hones : onesWord.toNat = ones 8 := by decide
    have hhighs : highsWord.toNat = 128 * ones 8 := by decide
    rw [UInt64.toNat_and, UInt64.toNat_sub, UInt64.toNat_not, hones, hhighs]
    unfold zeroMarks
    rw [Nat.add_comm (2 ^ 64 - ones 8)]
    rfl
  unfold wordMarks pairMarks
  rw [UInt64.toNat_and, UInt64.toNat_or, Nat.and_or_distrib_right, hmarks,
    hmarks, himage flag flagRep (by decide), himage esc escRep (by decide), hlen]

theorem trailingZeros_eq (w : UInt64) (j : Nat) (hj : j < 64) (hbit : w.toNat.testBit j = true)
    (hbelow : ∀ i < j, w.toNat.testBit i = false) : trailingZeros w = j := by
  unfold trailingZeros
  rw [List.findIdx_eq (by simpa using hj)]
  refine ⟨by simpa using hbit, ?_⟩
  intro i hi
  simpa using hbelow i hi

theorem image_zero_eq_isSpecial :
    (fun b : UInt8 => b ^^^ flag == 0 || b ^^^ esc == 0) = isSpecial := by
  funext b
  simp only [isSpecial]
  have himage : ∀ c : UInt8, (b ^^^ c == 0) = (b == c) := by
    intro c
    rw [Bool.eq_iff_iff, beq_iff_eq, beq_iff_eq]
    exact UInt8.xor_eq_zero_iff
  rw [himage, himage]

theorem findInChunk8_eq (bs : List UInt8) (hlen : bs.length = 8) :
    findInChunk8 bs = bs.findIdx? isSpecial := by
  have hmarks := wordMarks_toNat bs hlen
  have hfirst := pairMarks_first (· ^^^ flag) (· ^^^ esc) bs
  rw [image_zero_eq_isSpecial] at hfirst
  unfold findInChunk8
  cases hfind : bs.findIdx? isSpecial with
  | none =>
    simp only [hfind] at hfirst
    have hzero : wordMarks (UInt64.ofNat (fromLeBytes bs)) = 0 := by
      apply UInt64.toNat_inj.mp
      rw [hmarks, hfirst]
      rfl
    simp [hzero]
  | some j =>
    simp only [hfind] at hfirst
    have hj : j < bs.length := (List.findIdx?_eq_some_iff_getElem.mp hfind).1
    have hne : wordMarks (UInt64.ofNat (fromLeBytes bs)) ≠ 0 := by
      intro h0
      have hbit := hfirst.1
      rw [← hmarks, h0] at hbit
      simp at hbit
    have htz := trailingZeros_eq (wordMarks (UInt64.ofNat (fromLeBytes bs)))
      (8 * j + 7) (by omega) (by rw [hmarks]; exact hfirst.1)
      (by rw [hmarks]; exact hfirst.2)
    simp only [ne_eq, hne, not_false_eq_true, if_true, htz]
    congr 1
    omega

theorem findInChunk16_eq (bs : List UInt8) (hlen : bs.length = 16) :
    findInChunk16 bs = bs.findIdx? isSpecial := by
  have hsplit : bs = bs.take 8 ++ bs.drop 8 := (List.take_append_drop 8 bs).symm
  have hlow : (bs.take 8).length = 8 := by simp [hlen]
  have hhigh : (bs.drop 8).length = 8 := by simp [hlen]
  have hword : fromLeBytes bs = fromLeBytes (bs.take 8) + 2 ^ 64 * fromLeBytes (bs.drop 8) := by
    have happ := fromLeBytes_append (bs.take 8) (bs.drop 8)
    rw [← hsplit, hlow] at happ
    exact happ
  have hlt : fromLeBytes (bs.take 8) < 2 ^ 64 := by
    have h := fromLeBytes_lt (bs.take 8)
    rw [hlow] at h
    exact h
  have hlowWord : UInt64.ofNat (fromLeBytes bs) = UInt64.ofNat (fromLeBytes (bs.take 8)) := by
    apply UInt64.toNat_inj.mp
    rw [UInt64.toNat_ofNat', UInt64.toNat_ofNat', hword, Nat.add_mul_mod_self_left]
  have hhighWord : fromLeBytes bs / 2 ^ 64 = fromLeBytes (bs.drop 8) := by
    rw [hword, Nat.add_mul_div_left _ _ (by decide), Nat.div_eq_of_lt hlt, Nat.zero_add]
  have h8low := findInChunk8_eq (bs.take 8) hlow
  have h8high := findInChunk8_eq (bs.drop 8) hhigh
  have hconcat : bs.findIdx? isSpecial = ((bs.take 8).findIdx? isSpecial).or
        (((bs.drop 8).findIdx? isSpecial).map (· + 8)) := by
    conv_lhs => rw [hsplit]
    rw [List.findIdx?_append, hlow]
  rw [hconcat, ← h8low, ← h8high]
  unfold findInChunk8 findInChunk16
  simp only [hlowWord, hhighWord]
  by_cases hl : wordMarks (UInt64.ofNat (fromLeBytes (bs.take 8))) = 0
  · by_cases hh : wordMarks (UInt64.ofNat (fromLeBytes (bs.drop 8))) = 0
    · simp [hl, hh]
    · simp [hl, hh, Nat.add_comm]
  · simp [hl]

/-! ## Chunked search -/

theorem findInChunks_eq (width : Nat) (find : List UInt8 → Option Nat)
    (hfind : ∀ bs, bs.length = width → find bs = bs.findIdx? isSpecial) (chunks : List (List UInt8))
    (hlen : ∀ c ∈ chunks, c.length = width) (chunkIndex : Nat) :
    findInChunks width find chunkIndex chunks =
      (chunks.flatten.findIdx? isSpecial).map (chunkIndex * width + ·) := by
  induction chunks generalizing chunkIndex with
  | nil => rfl
  | cons chunk chunks ih =>
    have hchunk : chunk.length = width := hlen chunk (by simp)
    have htail : ∀ c ∈ chunks, c.length = width := by
      intro c hc
      exact hlen c (by simp [hc])
    rw [findInChunks, hfind chunk hchunk, ih htail, List.flatten_cons, List.findIdx?_append]
    cases chunk.findIdx? isSpecial with
    | some at' => simp
    | none =>
      cases chunks.flatten.findIdx? isSpecial with
      | none => simp
      | some at' =>
        simp only [Option.map_some, Option.none_or, hchunk, Nat.add_one_mul]
        congr 1
        omega

theorem asChunks_append (width count : Nat) (bytes : List UInt8) :
    (asChunks width count bytes).1.flatten ++ (asChunks width count bytes).2 = bytes := by
  induction count generalizing bytes with
  | zero => rfl
  | succ count ih =>
    simp only [asChunks, List.flatten_cons, List.append_assoc]
    rw [ih, List.take_append_drop]

theorem asChunks_length (width count : Nat) (bytes : List UInt8)
    (hfit : count * width ≤ bytes.length) :
    (asChunks width count bytes).1.length = count ∧
      ∀ c ∈ (asChunks width count bytes).1, c.length = width := by
  induction count generalizing bytes with
  | zero => simp [asChunks]
  | succ count ih =>
    have hle : width ≤ bytes.length := by
      rw [Nat.add_one_mul] at hfit
      omega
    have htail := ih (bytes.drop width) (by
      rw [List.length_drop]
      rw [Nat.add_one_mul] at hfit
      omega)
    constructor
    · simp [asChunks, htail.1]
    intro c hc
    simp only [asChunks, List.mem_cons] at hc
    rcases hc with rfl | hc
    · simp [hle]
    · exact htail.2 c hc

theorem flatten_length_of_const {α : Type} (width : Nat) (ls : List (List α))
    (h : ∀ l ∈ ls, l.length = width) : ls.flatten.length = ls.length * width := by
  induction ls with
  | nil => simp
  | cons l ls ih =>
    have hl := h l (by simp)
    have hls := ih (fun m hm => h m (by simp [hm]))
    rw [List.flatten_cons, List.length_append, hl, hls, List.length_cons,
      Nat.add_one_mul, Nat.add_comm]

theorem findSpecialWords_eq (width : Nat) (find : List UInt8 → Option Nat)
    (hfind : ∀ bs, bs.length = width → find bs = bs.findIdx? isSpecial) (haystack : List UInt8) :
    findSpecialWords width find haystack = haystack.findIdx? isSpecial := by
  have hfit : haystack.length / width * width ≤ haystack.length := Nat.div_mul_le_self _ _
  have hlen := asChunks_length width (haystack.length / width) haystack hfit
  have happ := asChunks_append width (haystack.length / width) haystack
  unfold findSpecialWords
  simp only
  rw [findInChunks_eq width find hfind _ hlen.2]
  conv_rhs => rw [← happ, List.findIdx?_append]
  rw [flatten_length_of_const width _ hlen.2]
  cases (asChunks width (haystack.length / width) haystack).1.flatten.findIdx? isSpecial with
  | none => simp [Nat.add_comm]
  | some at' => simp

theorem findSpecial_eq (build : SearchBuild) (haystack : List UInt8) :
    findSpecial build haystack = haystack.findIdx? isSpecial := by
  cases build with
  | std => rfl
  | bare64 => exact findSpecialWords_eq 16 _ findInChunk16_eq haystack
  | bare32 => exact findSpecialWords_eq 8 _ findInChunk8_eq haystack

/-- **The search is exact.** A place is answered exactly if the first special byte stands
there, and none exactly if no byte is special. -/
theorem findSpecial_exact (build : SearchBuild) (haystack : List UInt8) :
    (∀ pos, findSpecial build haystack = some pos ↔ ∃ hpos : pos < haystack.length,
      isSpecial haystack[pos] = true ∧ ∀ i (hi : i < pos), isSpecial haystack[i] = false) ∧
    (findSpecial build haystack = none ↔ ∀ b ∈ haystack, isSpecial b = false) := by
  rw [findSpecial_eq]
  constructor
  · intro pos
    rw [List.findIdx?_eq_some_iff_getElem]
    simp only [Bool.not_eq_true]
  · exact List.findIdx?_eq_none_iff

theorem findSpecial_exact_flag : findSpecial .bare64 [1, flag, esc] = some 1 :=
  ((findSpecial_exact .bare64 [1, flag, esc]).1 1).mpr ⟨by decide, rfl, by decide⟩

variable {haystack : List UInt8} {build : SearchBuild}

theorem findSpecial_some {pos : Nat} (h : findSpecial build haystack = some pos) :
    ∃ hpos : pos < haystack.length, isSpecial haystack[pos] = true ∧
      ∀ b ∈ haystack.take pos, isSpecial b = false := by
  rw [findSpecial_eq, List.findIdx?_eq_some_iff_getElem] at h
  obtain ⟨hpos, hspecial, hbefore⟩ := h
  refine ⟨hpos, hspecial, ?_⟩
  intro b hb
  obtain ⟨i, hi, rfl⟩ := List.mem_take_iff_getElem.mp hb
  have hplain := hbefore i (by omega)
  simpa using hplain

theorem findSpecial_none (h : findSpecial build haystack = none) :
    ∀ b ∈ haystack, isSpecial b = false := by
  rw [findSpecial_eq, List.findIdx?_eq_none_iff] at h
  exact h

end Prns.Ports.SerialFraming
