import Prns.Verified.Bytes
import Prns.Ports.SerialFraming

/-!
# Interface access codes

Model of `interfaces/packet/ifac.rs`. A packet on an access-controlled interface has
its flag bit set and carries, behind the two header bytes, the last bytes of its
signature as an access code; everything but the code is masked with a key stream that
is derived from the code. The receiver takes the mask off, clears the flag, closes the
gap and compares the code with the signature of what is left.

The signature of the context's identity and the HMAC are functions of their arguments
and otherwise arbitrary.
-/

namespace Prns.Ports.Ifac

open Verified
open Verified.ByteBits
open SerialFraming (overlay usizeMax)
open KeyStream

def ifacMaxSize : Nat := 64

/-- The number of bytes of an access code. -/
structure IfacSize where
  bytes : Nat
  pos : 0 < bytes
  le : bytes ≤ ifacMaxSize

inductive IfacSizeError where
  | tooSmall
  | tooLarge
  deriving DecidableEq, Repr

def IfacSize.new (bytes : Nat) : Except IfacSizeError IfacSize :=
  if h : bytes = 0 then .error .tooSmall
  else if hle : ifacMaxSize < bytes then .error .tooLarge
  else .ok ⟨bytes, Nat.pos_of_ne_zero h, Nat.le_of_not_lt hle⟩

inductive IfacMaskError where
  | packetTooShort
  | lengthOverflow
  | outputTooSmall (required available : Nat)
  deriving DecidableEq, Repr

inductive IfacUnmaskError where
  | packetTooShort
  | missingFlag
  | invalidSignature
  | outputTooSmall (required available : Nat)
  deriving DecidableEq, Repr

def ifacFlag : UInt8 := 0x80
def ifacStart : Nat := 2
def hmacSha256OutputLen : Nat := 32
def signatureByteLen : Nat := 64

/-- A context: its key, the signature of its identity, and the size of its codes; with
the HMAC that the masks are made of. -/
structure IfacContext where
  hmacSha256 : List UInt8 → List UInt8 → Vector UInt8 hmacSha256OutputLen
  key : List UInt8
  sign : List UInt8 → Vector UInt8 signatureByteLen
  size : IfacSize

/-- The block of the stream behind `previous`. The counter wraps. -/
def maskBlock (hmac : List UInt8 → List UInt8 → Vector UInt8 hmacSha256OutputLen)
    (pseudorandomKey : List UInt8) (previous : List UInt8) (blockIndex : Nat) : List UInt8 :=
  let counter := [UInt8.ofNat (blockIndex + 1)]
  if blockIndex = 0 then (hmac pseudorandomKey counter).toList
  else (hmac pseudorandomKey (previous ++ counter)).toList

/-- The loop over one chunk, of which the first `index` bytes are done. -/
def maskChunk (block : List UInt8) (start stop offset : Nat) : Nat → List UInt8 → List UInt8
  | _, [] => []
  | index, byte :: chunk =>
      (if start ≤ offset + index ∧ offset + index < stop then byte
        else byte ^^^ block.getD index 0) ::
      maskChunk block start stop offset (index + 1) chunk

/-- The loop over the chunks of a block's length. -/
def maskChunks (hmac : List UInt8 → List UInt8 → Vector UInt8 hmacSha256OutputLen)
    (pseudorandomKey : List UInt8) (start stop : Nat) (previous : List UInt8) (blockIndex : Nat)
    (bytes : List UInt8) : List UInt8 :=
  if _h : bytes = [] then []
  else
    let block := maskBlock hmac pseudorandomKey previous blockIndex
    maskChunk block start stop (blockIndex * hmacSha256OutputLen) 0
        (bytes.take hmacSha256OutputLen) ++
      maskChunks hmac pseudorandomKey start stop block (blockIndex + 1)
        (bytes.drop hmacSha256OutputLen)
  termination_by bytes.length
  decreasing_by
    rw [List.length_drop]
    have := List.length_pos_iff.mpr _h
    simp only [hmacSha256OutputLen]
    omega

/-- Mask the bytes outside `[start, stop)`. -/
def applyRnsMask (hmac : List UInt8 → List UInt8 → Vector UInt8 hmacSha256OutputLen)
    (deriveFrom salt bytes : List UInt8) (start stop : Nat) : List UInt8 :=
  maskChunks hmac (hmac salt deriveFrom).toList start stop
    (List.replicate hmacSha256OutputLen 0) 0 bytes

def ctEq (a b : List UInt8) : Bool :=
  a.length == b.length &&
    (a.zip b).foldl (fun acc xy => acc ||| (xy.1 ^^^ xy.2)) 0 == 0

namespace IfacContext

/-- The access code in a signature. -/
def codeOf (ctx : IfacContext) (packet : List UInt8) : List UInt8 :=
  (ctx.sign packet).toList.drop (signatureByteLen - ctx.size.bytes)

/-- The result, and the output buffer as the call leaves it. -/
def tryMaskOutbound (ctx : IfacContext) (clean out : List UInt8) :
    Except IfacMaskError Nat × List UInt8 :=
  let total := clean.length + ctx.size.bytes
  if usizeMax < total then (.error .lengthOverflow, out)
  else if clean.length ≤ ifacStart then (.error .packetTooShort, out)
  else if out.length < total then (.error (.outputTooSmall total out.length), out)
  else
    let ifac := ctx.codeOf clean
    let framed := [clean.getD 0 0 ||| ifacFlag, clean.getD 1 0] ++ ifac ++ clean.drop ifacStart
    let masked := applyRnsMask ctx.hmacSha256 ifac ctx.key framed ifacStart
      (ifacStart + ctx.size.bytes)
    (.ok total, overlay (masked.modifyHead (· ||| ifacFlag)) out)

/-- The result, and the packet as the call leaves it. -/
def tryUnmaskInboundInPlace (ctx : IfacContext) (wire : List UInt8) :
    Except IfacUnmaskError Nat × List UInt8 :=
  let size := ctx.size.bytes
  let ifacEnd := ifacStart + size
  if wire.length ≤ ifacEnd then (.error .packetTooShort, wire)
  else if wire.getD 0 0 &&& ifacFlag = 0 then (.error .missingFlag, wire)
  else
    let cleanLen := wire.length - size
    let ifac := (wire.drop ifacStart).take size
    let unmasked := applyRnsMask ctx.hmacSha256 ifac ctx.key wire ifacStart ifacEnd
    let cleared := unmasked.modifyHead (· &&& ~~~ifacFlag)
    let moved := cleared.take ifacStart ++ cleared.drop ifacEnd ++ cleared.drop cleanLen
    if ctEq ifac (ctx.codeOf (moved.take cleanLen)) then (.ok cleanLen, moved)
    else (.error .invalidSignature, moved)

def tryUnmaskInbound (ctx : IfacContext) (wire out : List UInt8) :
    Except IfacUnmaskError Nat × List UInt8 :=
  if out.length < wire.length then (.error (.outputTooSmall wire.length out.length), out)
  else
    let unmasked := ctx.tryUnmaskInboundInPlace wire
    (unmasked.1, overlay unmasked.2 out)

end IfacContext

section

variable (hmac : List UInt8 → List UInt8 → Vector UInt8 hmacSha256OutputLen)
  (pseudorandomKey : List UInt8)

/-- The chain of blocks. -/
def streamBlock : Nat → List UInt8
  | 0 => maskBlock hmac pseudorandomKey (List.replicate hmacSha256OutputLen 0) 0
  | blockIndex + 1 =>
      maskBlock hmac pseudorandomKey (streamBlock blockIndex) (blockIndex + 1)

def streamByte (position : Nat) : UInt8 :=
  (streamBlock hmac pseudorandomKey (position / hmacSha256OutputLen)).getD
    (position % hmacSha256OutputLen) 0

/-- The positions of the access code. -/
def kept (start stop position : Nat) : Bool := decide (start ≤ position ∧ position < stop)

variable {hmac pseudorandomKey}

theorem maskChunk_eq (start stop blockIndex index : Nat) (chunk : List UInt8)
    (h : index + chunk.length ≤ hmacSha256OutputLen) :
    maskChunk (streamBlock hmac pseudorandomKey blockIndex) start stop
        (blockIndex * hmacSha256OutputLen) index chunk =
      mask (streamByte hmac pseudorandomKey) (kept start stop)
        (blockIndex * hmacSha256OutputLen + index) chunk := by
  induction chunk generalizing index with
  | nil => rfl
  | cons byte chunk ih =>
    rw [List.length_cons] at h
    have hposition : streamByte hmac pseudorandomKey (blockIndex * hmacSha256OutputLen + index) =
        (streamBlock hmac pseudorandomKey blockIndex).getD index 0 := by
      have hlt : index < hmacSha256OutputLen := by omega
      rw [streamByte, Nat.mul_comm, Nat.mul_add_div (by decide), Nat.div_eq_of_lt hlt,
        Nat.mul_add_mod, Nat.mod_eq_of_lt hlt, Nat.add_zero]
    rw [maskChunk, mask, hposition, ih (index + 1) (by omega)]
    simp only [kept, decide_eq_true_eq]
    rfl

theorem maskChunks_eq (start stop blockIndex : Nat) (previous bytes : List UInt8)
    (h : maskBlock hmac pseudorandomKey previous blockIndex =
      streamBlock hmac pseudorandomKey blockIndex) :
    maskChunks hmac pseudorandomKey start stop previous blockIndex bytes =
      mask (streamByte hmac pseudorandomKey) (kept start stop)
        (blockIndex * hmacSha256OutputLen) bytes := by
  induction hlen : bytes.length using Nat.strongRecOn generalizing blockIndex previous bytes with
  | ind n ih =>
    rw [maskChunks]
    by_cases hnil : bytes = []
    · rw [dif_pos hnil, hnil]
      rfl
    have hpos := List.length_pos_iff.mpr hnil
    have hchunk : (bytes.take hmacSha256OutputLen).length ≤ hmacSha256OutputLen :=
      List.length_take_le ..
    rw [dif_neg hnil]
    simp only [h]
    rw [maskChunk_eq start stop blockIndex 0 _ (by rw [Nat.zero_add]; exact hchunk),
      ih (bytes.drop hmacSha256OutputLen).length
        (by rw [List.length_drop]; unfold hmacSha256OutputLen; omega) (blockIndex + 1) _ _
        rfl rfl]
    by_cases hlast : bytes.length ≤ hmacSha256OutputLen
    · rw [List.drop_eq_nil_of_le hlast, List.take_of_length_le hlast]
      exact List.append_nil _
    have hfull : (bytes.take hmacSha256OutputLen).length = hmacSha256OutputLen := by
      rw [List.length_take]
      omega
    conv => rhs; rw [← List.take_append_drop hmacSha256OutputLen bytes]
    rw [mask_append, hfull, Nat.add_zero, Nat.succ_mul]

end

theorem bit_flag {i : Nat} (h : i < 8) : bit ifacFlag i = decide (i = 7) := by
  revert i
  decide

theorem flag_clear_iff (b : UInt8) : b &&& ifacFlag = 0 ↔ bit b 7 = false := by
  constructor
  · intro h
    have hbit := congrArg (bit · 7) h
    rw [bit_and, bit_flag (by decide), decide_eq_true rfl, Bool.and_true] at hbit
    exact hbit
  intro h
  apply bit_ext
  intro i hi
  rw [bit_and, bit_flag hi, show bit 0 i = false from BitVec.getLsbD_zero]
  by_cases h7 : i = 7
  · rw [h7, h, Bool.false_and]
  · rw [decide_eq_false h7, Bool.and_false]

theorem clear_flag_mask (b k : UInt8) (h : b &&& ifacFlag = 0) :
    ((((b ||| ifacFlag) ^^^ k) ||| ifacFlag) ^^^ k) &&& ~~~ifacFlag = b := by
  rw [flag_clear_iff] at h
  apply bit_ext
  intro i hi
  simp only [bit_and, bit_or, bit_xor, bit_not _ hi, bit_flag hi]
  by_cases h7 : i = 7
  · simp [h7, h]
  · simp [h7]

theorem set_flag_mask (b k : UInt8) (h : b &&& ifacFlag ≠ 0) :
    ((((b ^^^ k) &&& ~~~ifacFlag) ||| ifacFlag) ^^^ k) ||| ifacFlag = b := by
  rw [ne_eq, flag_clear_iff, Bool.not_eq_false] at h
  apply bit_ext
  intro i hi
  simp only [bit_and, bit_or, bit_xor, bit_not _ hi, bit_flag hi]
  by_cases h7 : i = 7
  · simp [h7, h]
  · simp [h7]

theorem flag_set (b : UInt8) : (b ||| ifacFlag) &&& ifacFlag ≠ 0 := by
  rw [ne_eq, flag_clear_iff, bit_or, bit_flag (by decide), decide_eq_true rfl, Bool.or_true]
  decide

/-! ## Packets by their parts -/

theorem fold_xor_eq_zero (a b : List UInt8) (acc : UInt8) (hlen : a.length = b.length) :
    (a.zip b).foldl (fun acc xy => acc ||| (xy.1 ^^^ xy.2)) acc = 0 ↔ acc = 0 ∧ a = b := by
  induction a generalizing b acc with
  | nil =>
    rw [List.eq_nil_of_length_eq_zero hlen.symm]
    exact (and_iff_left rfl).symm
  | cons x a ih =>
    cases b with
    | nil => exact nomatch hlen
    | cons y b =>
      rw [List.zip_cons_cons, List.foldl_cons, ih b _ (Nat.succ.inj hlen),
        UInt8.or_eq_zero_iff, UInt8.xor_eq_zero_iff, List.cons.injEq, and_assoc]

theorem ctEq_iff {a b : List UInt8} : ctEq a b = true ↔ a = b := by
  rw [ctEq, Bool.and_eq_true, beq_iff_eq, beq_iff_eq]
  constructor
  · rintro ⟨hlen, hzero⟩
    exact ((fold_xor_eq_zero a b 0 hlen).mp hzero).2
  · rintro rfl
    exact ⟨rfl, (fold_xor_eq_zero a a 0 rfl).mpr ⟨rfl, rfl⟩⟩

namespace IfacContext

variable (ctx : IfacContext)

/-- The stream that a code is the seed of. -/
def stream (code : List UInt8) : Nat → UInt8 :=
  streamByte ctx.hmacSha256 (ctx.hmacSha256 ctx.key code).toList

/-- The bytes behind the code, masked. -/
def maskTail (code body : List UInt8) : List UInt8 :=
  KeyStream.mask (ctx.stream code) (kept ifacStart (ifacStart + ctx.size.bytes))
    (ifacStart + ctx.size.bytes) body

theorem length_codeOf (packet : List UInt8) : (ctx.codeOf packet).length = ctx.size.bytes := by
  have hle : ctx.size.bytes ≤ signatureByteLen := ctx.size.le
  rw [codeOf, List.length_drop, Vector.length_toList]
  omega

theorem maskTail_maskTail (code body : List UInt8) :
    ctx.maskTail code (ctx.maskTail code body) = body :=
  mask_mask _ _

theorem length_maskTail (code body : List UInt8) : (ctx.maskTail code body).length = body.length :=
  length_mask _ _

variable {body : List UInt8}

theorem maskTail_ne_nil (code : List UInt8) (hbody : body ≠ []) : ctx.maskTail code body ≠ [] := by
  intro hnil
  rw [← ctx.maskTail_maskTail code body, hnil] at hbody
  exact hbody rfl

variable {code : List UInt8}

theorem applyRnsMask_parts (hcode : code.length = ctx.size.bytes) (flags hops : UInt8)
    (body : List UInt8) :
    applyRnsMask ctx.hmacSha256 code ctx.key (flags :: hops :: (code ++ body)) ifacStart
        (ifacStart + ctx.size.bytes) =
      (flags ^^^ ctx.stream code 0) :: (hops ^^^ ctx.stream code 1) ::
        (code ++ ctx.maskTail code body) := by
  have hkept : mask (ctx.stream code) (kept ifacStart (ifacStart + ctx.size.bytes))
      ifacStart code = code := by
    apply mask_kept
    intro i hi hlt
    rw [hcode] at hlt
    exact decide_eq_true ⟨hi, hlt⟩
  rw [applyRnsMask, maskChunks_eq _ _ 0 _ _ rfl, Nat.zero_mul]
  show (flags ^^^ ctx.stream code 0) :: (hops ^^^ ctx.stream code 1) ::
    mask (ctx.stream code) _ ifacStart (code ++ body) = _
  rw [mask_append, hkept, hcode]
  rfl

/-- The wire form of a packet. -/
def masked (flags hops : UInt8) (body : List UInt8) : List UInt8 :=
  let code := ctx.codeOf (flags :: hops :: body)
  (((flags ||| ifacFlag) ^^^ ctx.stream code 0) ||| ifacFlag) :: (hops ^^^ ctx.stream code 1) ::
    (code ++ ctx.maskTail code body)

variable (flags hops : UInt8)

theorem length_masked (body : List UInt8) :
    (ctx.masked flags hops body).length = body.length + 2 + ctx.size.bytes := by
  simp only [masked, List.length_cons, List.length_append, ctx.length_codeOf, ctx.length_maskTail]
  omega

/-- What a received packet is without its code. -/
def unmasked (flags hops : UInt8) (code body : List UInt8) : List UInt8 :=
  ((flags ^^^ ctx.stream code 0) &&& ~~~ifacFlag) :: (hops ^^^ ctx.stream code 1) ::
    ctx.maskTail code body

theorem length_unmasked (code body : List UInt8) :
    (ctx.unmasked flags hops code body).length = body.length + 2 := by
  rw [unmasked, List.length_cons, List.length_cons, ctx.length_maskTail]

theorem tryMaskOutbound_parts (out : List UInt8)
    (hbody : body ≠ []) (hmax : body.length + 2 + ctx.size.bytes ≤ usizeMax)
    (hout : body.length + 2 + ctx.size.bytes ≤ out.length) :
    ctx.tryMaskOutbound (flags :: hops :: body) out =
      (.ok (body.length + 2 + ctx.size.bytes), overlay (ctx.masked flags hops body) out) := by
  have hpos := List.length_pos_iff.mpr hbody
  have hlen : (flags :: hops :: body).length = body.length + 2 := rfl
  have hmasked := ctx.applyRnsMask_parts (ctx.length_codeOf (flags :: hops :: body))
    (flags ||| ifacFlag) hops body
  unfold tryMaskOutbound
  rw [hlen, if_neg (Nat.not_lt.mpr hmax), if_neg (by unfold ifacStart; omega),
    if_neg (Nat.not_lt.mpr hout)]
  refine Prod.ext rfl ?_
  show overlay (List.modifyHead _ (applyRnsMask ctx.hmacSha256 _ ctx.key
    ((flags ||| ifacFlag) :: hops :: (ctx.codeOf (flags :: hops :: body) ++ body)) _ _)) out = _
  rw [hmasked]
  rfl

theorem tryUnmaskInboundInPlace_parts (hcode : code.length = ctx.size.bytes) (hbody : body ≠ []) :
    ctx.tryUnmaskInboundInPlace (flags :: hops :: (code ++ body)) = if flags &&& ifacFlag = 0 then
        (.error .missingFlag, flags :: hops :: (code ++ body))
      else
        let plain := ctx.unmasked flags hops code body
        let moved := plain ++ (code ++ ctx.maskTail code body).drop body.length
        if code = ctx.codeOf plain then (.ok (body.length + 2), moved)
        else (.error .invalidSignature, moved) := by
  have hpos := List.length_pos_iff.mpr hbody
  have hlen : (flags :: hops :: (code ++ body)).length = body.length + 2 + ctx.size.bytes := by
    simp only [List.length_cons, List.length_append, hcode]
    omega
  have hifac : ((flags :: hops :: (code ++ body)).drop ifacStart).take ctx.size.bytes = code := by
    show (code ++ body).take ctx.size.bytes = code
    rw [← hcode, List.take_left]
  unfold tryUnmaskInboundInPlace
  simp only [hlen, hifac, Nat.add_sub_cancel, ctx.applyRnsMask_parts hcode]
  rw [if_neg (by unfold ifacStart; omega)]
  show (if flags &&& ifacFlag = 0 then _ else _) = _
  have hmoved (a b : UInt8) (tail : List UInt8) : (a :: b :: (code ++ tail)).take ifacStart ++
          (a :: b :: (code ++ tail)).drop (ifacStart + ctx.size.bytes) ++
          (a :: b :: (code ++ tail)).drop (body.length + 2) =
        a :: b :: tail ++ (code ++ tail).drop body.length := by
    have htail : (a :: b :: (code ++ tail)).drop (ifacStart + ctx.size.bytes) = tail := by
      rw [ifacStart, Nat.add_comm, ← hcode]
      exact List.drop_left
    rw [htail]
    rfl
  simp only [List.modifyHead_cons, hmoved]
  have hclean := ctx.length_unmasked flags hops code body
  rw [unmasked] at hclean ⊢
  rw [List.take_left' hclean]
  simp only [ctEq_iff]

/-- The packet is masked as `wire`, into some output. -/
def Masks (clean wire : List UInt8) : Prop :=
  ∃ out n buffer, ctx.tryMaskOutbound clean out = (.ok n, buffer) ∧ wire = buffer.take n

/-- The wire packet is accepted as `plain`. -/
def Unmasks (wire plain : List UInt8) : Prop :=
  ∃ n buffer, ctx.tryUnmaskInboundInPlace wire = (.ok n, buffer) ∧ plain = buffer.take n

variable {ctx}

theorem masks_masked (hbody : body ≠ []) (hmax : body.length + 2 + ctx.size.bytes ≤ usizeMax) :
    ctx.Masks (flags :: hops :: body) (ctx.masked flags hops body) := by
  refine ⟨List.replicate (body.length + 2 + ctx.size.bytes) 0, _, _,
    ctx.tryMaskOutbound_parts flags hops _ hbody hmax (by rw [List.length_replicate]), ?_⟩
  exact (List.take_left' (ctx.length_masked flags hops body)).symm

theorem Masks.parts {clean wire : List UInt8} (h : ctx.Masks clean wire) :
    ∃ flags hops body, clean = flags :: hops :: body ∧ body ≠ [] ∧
      wire = ctx.masked flags hops body := by
  obtain ⟨out, n, buffer, hmask, hwire⟩ := h
  have hsizes : ctx.size.bytes + clean.length ≤ usizeMax ∧ ifacStart < clean.length ∧
      ctx.size.bytes + clean.length ≤ out.length := by
    unfold tryMaskOutbound at hmask
    simp only at hmask
    split at hmask
    · exact nomatch hmask
    split at hmask
    · exact nomatch hmask
    split at hmask
    · exact nomatch hmask
    omega
  match clean, hsizes with
  | flags :: hops :: b :: rest, ⟨hmax, _, hout⟩ =>
    simp only [List.length_cons] at hmax hout
    have hbody : b :: rest ≠ [] := List.cons_ne_nil b rest
    have hparts := ctx.tryMaskOutbound_parts flags hops out hbody
      (by rw [List.length_cons]; omega) (by rw [List.length_cons]; omega)
    rw [hmask, Prod.mk.injEq, Except.ok.injEq] at hparts
    refine ⟨flags, hops, b :: rest, rfl, hbody, ?_⟩
    rw [hwire, hparts.1, hparts.2]
    exact List.take_left' (ctx.length_masked flags hops (b :: rest))

theorem Masks.unique {clean wire wire' : List UInt8} (h : ctx.Masks clean wire)
    (h' : ctx.Masks clean wire') : wire = wire' := by
  obtain ⟨flags, hops, body, hclean, -, hwire⟩ := h.parts
  obtain ⟨flags', hops', body', hclean', -, hwire'⟩ := h'.parts
  rw [hclean] at hclean'
  injection hclean' with hflags hrest
  injection hrest with hhops hbody
  rw [hwire, hwire', hflags, hhops, hbody]

/-- An accepted packet has a code, the flag, and behind them what is returned. -/
theorem Unmasks.parts {wire plain : List UInt8} (h : ctx.Unmasks wire plain) :
    ∃ flags hops code body, wire = flags :: hops :: (code ++ body) ∧
      code.length = ctx.size.bytes ∧ body ≠ [] ∧ flags &&& ifacFlag ≠ 0 ∧
      plain = ctx.unmasked flags hops code body ∧ code = ctx.codeOf plain := by
  obtain ⟨n, buffer, hunmask, hplain⟩ := h
  have hlong : ifacStart + ctx.size.bytes < wire.length := by
    unfold tryUnmaskInboundInPlace at hunmask
    simp only at hunmask
    split at hunmask
    · exact nomatch hunmask
    omega
  match wire, hlong with
  | [_], hlong =>
    simp only [ifacStart, List.length_singleton] at hlong
    omega
  | flags :: hops :: rest, hlong =>
    simp only [ifacStart, List.length_cons] at hlong
    obtain ⟨code, body, rfl, hcode, hbody⟩ : ∃ code body, rest = code ++ body ∧
        code.length = ctx.size.bytes ∧ 0 < body.length := by
      refine ⟨_, _, (List.take_append_drop ctx.size.bytes rest).symm, ?_, ?_⟩
      · rw [List.length_take]
        omega
      · rw [List.length_drop]
        omega
    rw [List.length_pos_iff] at hbody
    refine ⟨flags, hops, code, body, rfl, hcode, hbody, ?_⟩
    rw [ctx.tryUnmaskInboundInPlace_parts flags hops hcode hbody] at hunmask
    split at hunmask
    · exact nomatch hunmask
    next hflag =>
    simp only at hunmask
    split at hunmask
    · next hsigned =>
        rw [Prod.mk.injEq, Except.ok.injEq] at hunmask
        rw [← hunmask.1, ← hunmask.2, List.take_left' (ctx.length_unmasked ..)] at hplain
        rw [← hplain] at hsigned
        exact ⟨hflag, hplain, hsigned⟩
    · exact nomatch hunmask

theorem unmasks_parts (hcode : code.length = ctx.size.bytes)
    (hbody : body ≠ []) (hflag : flags &&& ifacFlag ≠ 0)
    (hsigned : code = ctx.codeOf (ctx.unmasked flags hops code body)) :
    ctx.Unmasks (flags :: hops :: (code ++ body)) (ctx.unmasked flags hops code body) := by
  have hparts := ctx.tryUnmaskInboundInPlace_parts flags hops hcode hbody
  rw [if_neg hflag] at hparts
  rw [if_pos hsigned] at hparts
  exact ⟨_, _, hparts, (List.take_left' (ctx.length_unmasked ..)).symm⟩

theorem unmasks_masked {flags hops : UInt8} (hbody : body ≠ []) (hflag : flags &&& ifacFlag = 0) :
    ctx.Unmasks (ctx.masked flags hops body) (flags :: hops :: body) := by
  generalize hcode : ctx.codeOf (flags :: hops :: body) = code
  have hhops : (hops ^^^ ctx.stream code 1) ^^^ ctx.stream code 1 = hops := by
    rw [UInt8.xor_assoc, UInt8.xor_self, UInt8.xor_zero]
  have hback : ctx.unmasked (((flags ||| ifacFlag) ^^^ ctx.stream code 0) ||| ifacFlag)
      (hops ^^^ ctx.stream code 1) code (ctx.maskTail code body) = flags :: hops :: body := by
    rw [unmasked, clear_flag_mask _ _ hflag, hhops, ctx.maskTail_maskTail]
  have hlen : code.length = ctx.size.bytes := by
    rw [← hcode]
    exact ctx.length_codeOf _
  have hunmasks := unmasks_parts (((flags ||| ifacFlag) ^^^ ctx.stream code 0) ||| ifacFlag)
    (hops ^^^ ctx.stream code 1) hlen (ctx.maskTail_ne_nil code hbody) (flag_set _)
    (by rw [hback, hcode])
  rwa [hback, ← hcode] at hunmasks

/-- Access codes are exact both ways. Every packet of more than two bytes can be masked;
the wire form of a packet with a clear flag is accepted and gives that packet back; and
what is accepted is byte for byte the wire form of the packet that is returned, so there
is no second one. -/
theorem ifac_exact (ctx : IfacContext) :
    (∀ clean, ifacStart < clean.length → clean.length + ctx.size.bytes ≤ usizeMax →
      ∃ wire, ctx.Masks clean wire) ∧
    (∀ clean wire, clean.getD 0 0 &&& ifacFlag = 0 → ctx.Masks clean wire →
      ctx.Unmasks wire clean) ∧
    (∀ wire plain, wire.length ≤ usizeMax → ctx.Unmasks wire plain → ctx.Masks plain wire ∧
        ∀ other, other.length ≤ usizeMax → ctx.Unmasks other plain → other = wire) := by
  have hmasks (wire plain : List UInt8) (hmax : wire.length ≤ usizeMax)
      (h : ctx.Unmasks wire plain) : ctx.Masks plain wire := by
    obtain ⟨flags, hops, code, body, hwire, hcode, hbody, hflag, hplain, hsigned⟩ := h.parts
    rw [unmasked] at hplain
    have hne := ctx.maskTail_ne_nil code hbody
    rw [hwire] at hmax
    simp only [List.length_cons, List.length_append, hcode] at hmax
    have hmasked : ctx.Masks _ _ := masks_masked ((flags ^^^ ctx.stream code 0) &&& ~~~ifacFlag)
      (hops ^^^ ctx.stream code 1) hne (by rw [ctx.length_maskTail]; omega)
    rw [masked, ← hplain, ← hsigned, set_flag_mask _ _ hflag, UInt8.xor_assoc, UInt8.xor_self,
      UInt8.xor_zero, ctx.maskTail_maskTail, ← hwire] at hmasked
    exact hmasked
  refine ⟨?_, ?_, ?_⟩
  · intro clean hlong hmax
    match clean, hlong with
    | flags :: hops :: b :: rest, _ =>
      exact ⟨_, masks_masked flags hops (List.cons_ne_nil b rest) hmax⟩
  · intro clean wire hflag h
    obtain ⟨flags, hops, body, hclean, hbody, hwire⟩ := h.parts
    rw [hclean] at hflag ⊢
    rw [hwire]
    exact unmasks_masked hbody hflag
  · intro wire plain hmax h
    exact ⟨hmasks wire plain hmax h, fun other hmax' h' =>
      (hmasks other plain hmax' h').unique (hmasks wire plain hmax h)⟩

/-- A context with a signature and an HMAC that only count bytes. -/
def sampleContext : IfacContext where
  hmacSha256 _ message := Vector.replicate hmacSha256OutputLen (UInt8.ofNat message.length)
  key := []
  sign packet := Vector.replicate signatureByteLen (UInt8.ofNat packet.length)
  size := ⟨8, by decide, by decide⟩

theorem ifac_exact_sample :
    ∃ wire, sampleContext.Masks [1, 0, 7] wire ∧ sampleContext.Unmasks wire [1, 0, 7] := by
  obtain ⟨wire, hmasks⟩ := (ifac_exact sampleContext).1 [1, 0, 7] (by decide) (by decide)
  exact ⟨wire, hmasks, (ifac_exact sampleContext).2.1 [1, 0, 7] wire (by decide) hmasks⟩

end IfacContext

end Prns.Ports.Ifac
