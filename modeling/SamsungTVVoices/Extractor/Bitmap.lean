/-
The bitmaps of an image (`utils.c`): which blocks are in use, and which inode numbers.

A bitmap lies in blocks, each with a magic in front and a checksum at its end, so the bits of one
block do not follow those of the block before.  Through `util_sign_set_bits`,
`util_sign_clear_bits` and `util_sign_test_bit` it is a set of numbers (`Bitmap.bits`): the first
two add and remove the numbers of a stretch, whatever blocks that spans, and signing the blocks
changes nothing of it.
-/
import SamsungTVVoices.Extractor.Crc32
import SamsungTVVoices.Extractor.Image
import SamsungTVVoices.Lib.Patch
import Mathlib.Data.Nat.Bitwise
import Mathlib.Order.Interval.Set.Nat

open FixedDigits Patch

namespace SamsungTVVoices.Extractor.Bitmap

/-! ### Bits -/

/-- `1 << (addr % 8)` -/
def bitMask (addr : ℕ) : UInt8 := 1 <<< UInt8.ofNat (addr % 8)

/-- `util_test_bit`, for the buffer from `start` on. -/
def testBit (buffer : Bytes) (start addr : ℕ) : ℕ :=
  (buffer.getD (start + addr / 8) 0 &&& bitMask addr).toNat

/-- The loop of `util_set_bits` and `util_clear_bits`, for the buffer from `start` on, where `f` is
what is done to a byte. -/
def changeBits (f : UInt8 → UInt8 → UInt8) (start : ℕ) : ℕ → ℕ → Bytes → Bytes
  | 0, _, buffer => buffer
  | count + 1, addr, buffer =>
    changeBits f start count (addr + 1)
      (buffer.modify (start + addr / 8) fun byte => f byte (bitMask addr))

/-- What `util_set_bits` does to a byte. -/
def setBit (byte mask : UInt8) : UInt8 := byte ||| mask

/-- What `util_clear_bits` does to a byte. -/
def clearBit (byte mask : UInt8) : UInt8 := byte &&& ~~~mask

/-! ### Bits in signed blocks -/

/-- How a bitmap lies in its blocks: their size, and those of the magic and the checksum of each.
With these bounds no number of a block or of a bit overflows. -/
structure Geometry where
  blockSize : ℕ
  magicLen : ℕ
  crcSize : ℕ
  room : 2 * (magicLen + crcSize) ≤ blockSize
  crcSize_pos : 0 < crcSize
  blockSize_lt : blockSize < 2 ^ 28

/-- `CRC32_SIZE` -/
def crc32Size : ℕ := 4

lemma crc32Size_pos : 0 < crc32Size := Nat.succ_pos 3

namespace Geometry

variable (g : Geometry)

/-- How many bits a block has. -/
def datablockSize : ℕ := (g.blockSize - (g.magicLen + g.crcSize)) * 8

/-- `util_sign_test_bit` -/
def signTestBit (buff : Bytes) (addr : ℕ) : ℤ :=
  let startBlck := addr / 8 / (g.blockSize - (g.magicLen + g.crcSize))
  let intAddr := addr % g.datablockSize
  let requestedBlock := startBlck * g.blockSize
  if buff.length < requestedBlock + g.magicLen + intAddr / 8 + g.crcSize then -einval
  else testBit buff (requestedBlock + g.magicLen) intAddr

/-- The loop of `util_sign_set_bits` and `util_sign_clear_bits`, over the blocks from `curBlck`
on. -/
def signChangeLoop (f : UInt8 → UInt8 → UInt8) : ℕ → ℕ → ℕ → ℕ → Bytes → Bytes × ℤ
  | 0, _, _, _, buff => (buff, 0)
  | n + 1, curBlck, intAddr, count, buff =>
    let room := g.datablockSize - intAddr
    let length := if count < room then count else room
    let count := if count < room then count else count - room
    let requestedBlock := curBlck * g.blockSize
    if buff.length < requestedBlock + g.magicLen + (intAddr + length) / 8 + g.crcSize then
      (buff, -einval)
    else
      signChangeLoop f n (curBlck + 1) 0 count
        (changeBits f (requestedBlock + g.magicLen) length intAddr buff)

/-- `util_sign_set_bits` and `util_sign_clear_bits`, with the code that is returned. -/
def signChangeBits (f : UInt8 → UInt8 → UInt8) (buff : Bytes) (addr count : ℕ) : Bytes × ℤ :=
  if count = 0 then (buff, 0)
  else
    let startBlck := addr / 8 / (g.blockSize - (g.magicLen + g.crcSize))
    let endBlck := (addr + count - 1) % 2 ^ 64 / 8 / (g.blockSize - (g.magicLen + g.crcSize))
    g.signChangeLoop f (endBlck + 1 - startBlck) startBlck
      (addr % g.datablockSize) count buff

/-- `util_sign_set_bits` -/
def signSetBits : Bytes → ℕ → ℕ → Bytes × ℤ := g.signChangeBits setBit

/-- `util_sign_clear_bits` -/
def signClearBits : Bytes → ℕ → ℕ → Bytes × ℤ := g.signChangeBits clearBit

end Geometry

/-! ### Signing -/

/-- `util_update_crc`, for the block at `start`. -/
def updateCrc (buff : Bytes) (start buffSize : ℕ) (magic : Bytes) : Bytes :=
  let buff := write 0 buff start magic
  let crc := Crc.crc32Body 0 0 (slice buff (start + magic.length) (buffSize - (4 + magic.length)))
  write 0 buff (start + (buffSize - 4)) (leBytes 4 crc.toNat)

/-- `UTIL_INVALID_CRC` -/
def utilInvalidCrc : ℕ := 2

/-- `util_validate_crc`, for the block at `start`.  For a wrong checksum it returns 2, where the
comment on it has 1. -/
def validateCrc (buff : Bytes) (start buffSize skip : ℕ) : ℕ :=
  let crc := Crc.crc32Body 0 0 (slice buff (start + skip) (buffSize - (4 + skip)))
  if slice buff (start + (buffSize - 4)) 4 = leBytes 4 crc.toNat then 0 else utilInvalidCrc

/-- `sign_sm_buffer` and `inode_bitmap_count_crc`: each block gets its magic and its checksum. -/
def signBuffer (blockSize : ℕ) (magic buffer : Bytes) : Bytes :=
  (List.range (buffer.length / blockSize)).foldl
    (fun buffer curBlck => updateCrc buffer (curBlck * blockSize) blockSize magic) buffer

/-! ### Changing the bits of a buffer -/

/-- Bit `n` of a buffer. -/
def bitAt (buffer : Bytes) (n : ℕ) : Bool := (buffer.getD (n / 8) 0).toNat.testBit (n % 8)

/-- The change gives the bits under the mask this value. -/
def Gives (f : UInt8 → UInt8 → UInt8) (value : Bool) : Prop :=
  ∀ byte addr k, k < 8 →
    (f byte (bitMask addr)).toNat.testBit k = if k = addr % 8 then value else byte.toNat.testBit k

section Bits

variable {f : UInt8 → UInt8 → UInt8} {value : Bool} {buffer : Bytes}

lemma toNat_bitMask (addr : ℕ) : (bitMask addr).toNat = 2 ^ (addr % 8) := by
  have hlt : addr % 8 < 8 := Nat.mod_lt _ (by decide)
  rw [bitMask]
  generalize addr % 8 = k at hlt
  interval_cases k <;> rfl

lemma gives_setBit : Gives setBit true := by
  intro byte addr k _
  rw [setBit, UInt8.toNat_or, toNat_bitMask, Nat.testBit_or, Nat.testBit_two_pow]
  by_cases hk : k = addr % 8
  · rw [if_pos hk, decide_eq_true hk.symm, Bool.or_true]
  · rw [if_neg hk, decide_eq_false (Ne.symm hk), Bool.or_false]

lemma gives_clearBit : Gives clearBit false := by
  intro byte addr k hk
  have hnot : (~~~bitMask addr).toNat = 2 ^ 8 - 1 - 2 ^ (addr % 8) := by
    rw [UInt8.toNat_not, toNat_bitMask]
    rfl
  rw [clearBit, UInt8.toNat_and, hnot, Nat.testBit_and]
  have hlt : 2 ^ (addr % 8) < 2 ^ 8 := Nat.pow_lt_pow_right (by decide) (Nat.mod_lt _ (by decide))
  rw [show 2 ^ 8 - 1 - 2 ^ (addr % 8) = 2 ^ 8 - (2 ^ (addr % 8) + 1) by omega,
    Nat.testBit_two_pow_sub_succ hlt, Nat.testBit_two_pow, decide_eq_true hk, Bool.true_and]
  by_cases heq : k = addr % 8
  · rw [if_pos heq, decide_eq_true heq.symm, Bool.not_true, Bool.and_false]
  · rw [if_neg heq, decide_eq_false (Ne.symm heq), Bool.not_false, Bool.and_true]

lemma testBit_pos_iff (start addr : ℕ) :
    0 < testBit buffer start addr ↔ bitAt buffer (8 * start + addr) = true := by
  have hdiv : (8 * start + addr) / 8 = start + addr / 8 := by omega
  have hmod : (8 * start + addr) % 8 = addr % 8 := by omega
  rw [testBit, bitAt, hdiv, hmod, UInt8.toNat_and, toNat_bitMask, Nat.and_two_pow]
  cases (buffer.getD (start + addr / 8) 0).toNat.testBit (addr % 8) with
  | false => simp
  | true => simp

lemma bitAt_modify (hf : Gives f value) (addr n : ℕ) (hlt : addr / 8 < buffer.length) :
    bitAt (buffer.modify (addr / 8) fun byte => f byte (bitMask addr)) n =
      if n = addr then value else bitAt buffer n := by
  rw [bitAt, bitAt, List.getD_eq_getElem?_getD, List.getD_eq_getElem?_getD]
  by_cases hdiv : addr / 8 = n / 8
  · rw [← hdiv, List.getElem?_modify_eq, List.getElem?_eq_getElem hlt, Option.map_eq_map,
      Option.map_some, Option.getD_some, Option.getD_some, hf _ _ _ (Nat.mod_lt _ (by decide))]
    refine if_congr ?_ rfl rfl
    omega
  · rw [List.getElem?_modify_ne _ _ hdiv, if_neg (fun h => hdiv (by rw [h]))]

lemma length_changeBits (start count addr : ℕ) :
    (changeBits f start count addr buffer).length = buffer.length := by
  induction count generalizing addr buffer with
  | zero => rfl
  | succ count ih => rw [changeBits, ih, List.length_modify]

/-- A stretch of bits gets the value, and no other bit changes. -/
lemma bitAt_changeBits (hf : Gives f value) {start count addr : ℕ}
    (hle : 8 * start + addr + count ≤ 8 * buffer.length) (n : ℕ) :
    bitAt (changeBits f start count addr buffer) n =
      if 8 * start + addr ≤ n ∧ n < 8 * start + addr + count then value else bitAt buffer n := by
  induction count generalizing addr buffer with
  | zero => rw [changeBits, if_neg (by omega)]
  | succ count ih =>
      have hmask : bitMask addr = bitMask (8 * start + addr) := by
        rw [bitMask, bitMask, show (8 * start + addr) % 8 = addr % 8 by omega]
      have hdiv : start + addr / 8 = (8 * start + addr) / 8 := by omega
      rw [changeBits, ih (by rw [List.length_modify]; omega), hdiv, hmask,
        bitAt_modify hf _ _ (by omega)]
      by_cases heq : n = 8 * start + addr
      · rw [if_neg (by omega), if_pos heq, if_pos (by omega)]
      · rw [if_neg heq]
        refine if_congr ?_ rfl rfl
        omega

end Bits

/-! ### Changing the bits of a bitmap -/

namespace Geometry

variable (g : Geometry)

/-- The buffer is a number of blocks, and its size an `int`. -/
structure Blocks (buff : Bytes) : Prop where
  dvd : g.blockSize ∣ buff.length
  length_lt : buff.length < 2 ^ 31

/-- How many bits there are. -/
def capacity (buff : Bytes) : ℕ := buff.length / g.blockSize * g.datablockSize

/-- Where in the buffer a bit of the bitmap is. -/
def position (addr : ℕ) : ℕ :=
  8 * (addr / g.datablockSize * g.blockSize + g.magicLen) + addr % g.datablockSize

/-- The set that a bitmap stands for. -/
def bits (buff : Bytes) : Set ℕ := {addr | 0 < g.signTestBit buff addr}

/-- The bits of a stretch for which there are blocks are at this value, and no other bit has
changed. -/
def Changed (value : Bool) (addr count : ℕ) (buff buff' : Bytes) : Prop :=
  ∀ a, bitAt buff' (g.position a) =
    if (addr ≤ a ∧ a < addr + count) ∧ a < g.capacity buff then value
    else bitAt buff (g.position a)

variable {g} {buff buff' : Bytes} {f : UInt8 → UInt8 → UInt8} {value : Bool} {addr count : ℕ}

lemma room_lt : g.magicLen + g.crcSize < g.blockSize := by
  have := g.room
  have := g.crcSize_pos
  omega

lemma datablockSize_add : g.datablockSize + 8 * (g.magicLen + g.crcSize) = 8 * g.blockSize := by
  have := g.room_lt
  rw [datablockSize]
  omega

lemma datablockSize_pos : 0 < g.datablockSize := by
  have := g.room_lt
  have := g.datablockSize_add
  omega

/-- The number of the block, as the code computes it. -/
lemma div_datablockSize (addr : ℕ) :
    addr / 8 / (g.blockSize - (g.magicLen + g.crcSize)) = addr / g.datablockSize := by
  rw [datablockSize, Nat.mul_comm, Nat.div_div_eq_div_mul]

lemma Blocks.congr (h : g.Blocks buff) (hlength : buff'.length = buff.length) :
    g.Blocks buff' :=
  ⟨hlength ▸ h.dvd, hlength ▸ h.length_lt⟩

lemma Blocks.div_mul (h : g.Blocks buff) :
    buff.length / g.blockSize * g.blockSize = buff.length :=
  Nat.div_mul_cancel h.dvd

/-- A stretch of bits within a block of the buffer, and the bits of the bitmap that it is. -/
lemma position_mem_iff (cur : ℕ) {intAddr length : ℕ} (hle : intAddr + length ≤ g.datablockSize)
    (addr : ℕ) :
    (8 * (cur * g.blockSize + g.magicLen) + intAddr ≤ g.position addr ∧
      g.position addr < 8 * (cur * g.blockSize + g.magicLen) + intAddr + length) ↔
    (cur * g.datablockSize + intAddr ≤ addr ∧
      addr < cur * g.datablockSize + intAddr + length) := by
  have hmod := Nat.mod_lt addr g.datablockSize_pos
  have hdm := Nat.div_add_mod' addr g.datablockSize
  have hD := g.datablockSize_add
  rw [position]
  generalize g.datablockSize = D at *
  generalize addr / D = q at *
  generalize addr % D = r at *
  rcases lt_trichotomy q cur with hlt | rfl | hgt
  · have h₁ : (q + 1) * g.blockSize ≤ cur * g.blockSize := Nat.mul_le_mul_right _ hlt
    have h₂ : (q + 1) * D ≤ cur * D := Nat.mul_le_mul_right _ hlt
    rw [Nat.succ_mul] at h₁ h₂
    omega
  · omega
  · have h₁ : (cur + 1) * g.blockSize ≤ q * g.blockSize := Nat.mul_le_mul_right _ hgt
    have h₂ : (cur + 1) * D ≤ q * D := Nat.mul_le_mul_right _ hgt
    rw [Nat.succ_mul] at h₁ h₂
    omega

/-- A bit is read where it is, if there is a block for it. -/
lemma mem_bits_iff (h : g.Blocks buff) (addr : ℕ) :
    addr ∈ g.bits buff ↔
      addr < g.capacity buff ∧ bitAt buff (g.position addr) = true := by
  have hroom := g.room_lt
  have hcrc := g.crcSize_pos
  have hmod : addr % g.datablockSize / 8 + (g.magicLen + g.crcSize) < g.blockSize := by
    have hlt := Nat.mod_lt addr g.datablockSize_pos
    have hD := g.datablockSize_add
    omega
  have hlength := h.div_mul
  rw [bits, Set.mem_ofPred_eq, signTestBit, capacity, ← Nat.div_lt_iff_lt_mul datablockSize_pos,
    position, div_datablockSize, ← testBit_pos_iff]
  generalize addr / g.datablockSize = q
  generalize buff.length / g.blockSize = blocks at *
  by_cases hq : q < blocks
  · have hle : (q + 1) * g.blockSize ≤ blocks * g.blockSize := Nat.mul_le_mul_right _ hq
    rw [Nat.succ_mul] at hle
    rw [if_neg (by omega), Nat.cast_pos, and_iff_right hq]
  · have hle : blocks * g.blockSize ≤ q * g.blockSize := Nat.mul_le_mul_right _ (Nat.not_lt.1 hq)
    rw [if_pos (by omega)]
    exact iff_of_false (by decide) (fun hand => hq hand.1)

/-- The loop over the blocks that a stretch of bits spans.  It stops where there is no block. -/
lemma signChangeLoop_eq (hf : Gives f value) (n cur intAddr count : ℕ) (h : g.Blocks buff)
    (hint : intAddr < g.datablockSize) (hle : intAddr + count ≤ n * g.datablockSize)
    (hlt : n * g.datablockSize < intAddr + count + g.datablockSize) :
    ∃ buff', g.signChangeLoop f n cur intAddr count buff =
        (buff', if n = 0 ∨ cur + n ≤ buff.length / g.blockSize then 0 else -einval) ∧
      buff'.length = buff.length ∧
      g.Changed value (cur * g.datablockSize + intAddr) count buff buff' := by
  induction n generalizing cur intAddr count buff with
  | zero =>
      refine ⟨buff, by rw [if_pos (.inl rfl)]; rfl, rfl, fun a => ?_⟩
      rw [if_neg (by omega)]
  | succ n ih =>
      have hroom := g.room_lt
      have hcrc := g.crcSize_pos
      have hlength := h.div_mul
      have hD := g.datablockSize_add
      rw [Nat.succ_mul] at hle hlt
      rw [signChangeLoop]
      by_cases hcur : cur < buff.length / g.blockSize
      · have hblock : (cur + 1) * g.blockSize ≤ buff.length / g.blockSize * g.blockSize :=
          Nat.mul_le_mul_right _ hcur
        have hcap : (cur + 1) * g.datablockSize ≤ g.capacity buff := Nat.mul_le_mul_right _ hcur
        rw [Nat.succ_mul] at hblock hcap
        by_cases hcount : count < g.datablockSize - intAddr
        · -- the stretch ends in this block, which is the last one
          obtain rfl : n = 0 := by
            by_contra hn
            have := Nat.le_mul_of_pos_left g.datablockSize (Nat.pos_of_ne_zero hn)
            omega
          have hend : 0 + 1 = 0 ∨ cur + (0 + 1) ≤ buff.length / g.blockSize := .inr hcur
          rw [if_pos hcount, if_neg (by omega), if_pos hend]
          refine ⟨_, rfl, length_changeBits _ _ _, fun a => ?_⟩
          rw [bitAt_changeBits hf (by omega)]
          refine if_congr ((position_mem_iff cur (by omega) a).trans ?_) rfl rfl
          omega
        · rw [if_neg hcount, if_neg hcount, if_neg (by omega)]
          have hlen : (changeBits f (cur * g.blockSize + g.magicLen)
              (g.datablockSize - intAddr) intAddr buff).length = buff.length :=
            length_changeBits _ _ _
          obtain ⟨buff', hrun, hlen', hbits⟩ := ih (cur + 1) 0
            (count - (g.datablockSize - intAddr)) (h.congr hlen) datablockSize_pos
            (by omega) (by omega)
          refine ⟨buff', hrun.trans ?_, hlen'.trans hlen, fun a => ?_⟩
          · rw [hlen]
            refine congrArg _ (if_congr ?_ rfl rfl)
            omega
          · rw [hbits, bitAt_changeBits hf (by omega), capacity, hlen, ← capacity, Nat.succ_mul]
            have hiff := g.position_mem_iff cur
              (show intAddr + (g.datablockSize - intAddr) ≤ _ by omega) a
            by_cases hhere : cur * g.datablockSize + intAddr ≤ a ∧
                a < cur * g.datablockSize + intAddr + (g.datablockSize - intAddr)
            · rw [if_neg (by omega), if_pos (hiff.2 hhere), if_pos (by omega)]
            · rw [if_neg (mt hiff.1 hhere)]
              refine if_congr ?_ rfl rfl
              omega
      · have hblock : buff.length / g.blockSize * g.blockSize ≤ cur * g.blockSize :=
          Nat.mul_le_mul_right _ (Nat.not_lt.1 hcur)
        have hcap : g.capacity buff ≤ cur * g.datablockSize :=
          Nat.mul_le_mul_right _ (Nat.not_lt.1 hcur)
        rw [if_pos (by omega), if_neg (by omega)]
        refine ⟨buff, rfl, rfl, fun a => ?_⟩
        rw [if_neg (by omega)]

/-- A stretch of bits is changed, as far as there are blocks. -/
lemma signChangeBits_eq (hf : Gives f value) (h : g.Blocks buff) (hlt : addr + count < 2 ^ 64) :
    ∃ buff', g.signChangeBits f buff addr count =
        (buff', if count = 0 ∨ addr + count ≤ g.capacity buff then 0 else -einval) ∧
      buff'.length = buff.length ∧ g.Changed value addr count buff buff' := by
  by_cases hcount : count = 0
  · refine ⟨buff, by rw [signChangeBits, if_pos hcount, if_pos (.inl hcount)], rfl, fun a => ?_⟩
    rw [if_neg (by omega)]
  · rw [signChangeBits, if_neg hcount, div_datablockSize, div_datablockSize,
      Nat.mod_eq_of_lt (by omega)]
    have hfirst := Nat.div_add_mod' addr g.datablockSize
    have hlast := Nat.div_add_mod' (addr + count - 1) g.datablockSize
    have hmod := Nat.mod_lt (addr + count - 1) g.datablockSize_pos
    have hle : addr / g.datablockSize ≤ (addr + count - 1) / g.datablockSize :=
      Nat.div_le_div_right (by omega)
    have hcap : (addr + count - 1) / g.datablockSize < buff.length / g.blockSize ↔
        addr + count ≤ g.capacity buff := by
      rw [Nat.div_lt_iff_lt_mul datablockSize_pos, capacity]
      omega
    obtain ⟨buff', hrun, hlen, hbits⟩ := signChangeLoop_eq hf
      ((addr + count - 1) / g.datablockSize + 1 - addr / g.datablockSize)
      (addr / g.datablockSize) (addr % g.datablockSize) count h (Nat.mod_lt _ datablockSize_pos)
      (by rw [Nat.sub_mul, Nat.succ_mul]; omega) (by rw [Nat.sub_mul, Nat.succ_mul]; omega)
    rw [hfirst] at hbits
    refine ⟨buff', hrun.trans ?_, hlen, hbits⟩
    refine congrArg _ (if_congr ?_ rfl rfl)
    omega

/-- `util_sign_set_bits` adds the numbers of a stretch. -/
lemma bits_signSetBits (h : g.Blocks buff) (hlt : addr + count < 2 ^ 64) :
    ∃ buff', g.signSetBits buff addr count =
        (buff', if count = 0 ∨ addr + count ≤ g.capacity buff then 0 else -einval) ∧
      buff'.length = buff.length ∧
      g.bits buff' = g.bits buff ∪ (Set.Ico addr (addr + count) ∩ Set.Iio (g.capacity buff)) := by
  obtain ⟨buff', hrun, hlen, hbits⟩ := signChangeBits_eq gives_setBit h hlt
  refine ⟨buff', hrun, hlen, ?_⟩
  ext a
  rw [mem_bits_iff (h.congr hlen), hbits, capacity, hlen, ← capacity, Set.mem_union,
    mem_bits_iff h, Set.mem_inter_iff, Set.mem_Ico, Set.mem_Iio]
  split
  · rename_i hin
    exact iff_of_true ⟨hin.2, rfl⟩ (.inr hin)
  · rename_i hout
    exact (or_iff_left hout).symm

/-- `util_sign_clear_bits` removes the numbers of a stretch. -/
lemma bits_signClearBits (h : g.Blocks buff) (hlt : addr + count < 2 ^ 64) :
    ∃ buff', g.signClearBits buff addr count =
        (buff', if count = 0 ∨ addr + count ≤ g.capacity buff then 0 else -einval) ∧
      buff'.length = buff.length ∧ g.bits buff' = g.bits buff \ Set.Ico addr (addr + count) := by
  obtain ⟨buff', hrun, hlen, hbits⟩ := signChangeBits_eq gives_clearBit h hlt
  refine ⟨buff', hrun, hlen, ?_⟩
  ext a
  rw [mem_bits_iff (h.congr hlen), hbits, capacity, hlen, ← capacity, Set.mem_sdiff,
    mem_bits_iff h, Set.mem_Ico]
  split
  · rename_i hin
    exact iff_of_false (fun hand => Bool.false_ne_true hand.2) (fun hand => hand.2 hin.1)
  · rename_i hout
    exact ⟨fun hand => ⟨hand, fun hin => hout ⟨hin, hand.1⟩⟩, fun hand => hand.1⟩

end Geometry

/-! ### The signed blocks -/

section Sign

variable {b magic piece : Bytes} {start blockSize : ℕ}

lemma bitAt_write_of_apart {n : ℕ} (h : Apart (n / 8) 1 start piece.length)
    (hle : start + piece.length ≤ b.length) : bitAt (write 0 b start piece) n = bitAt b n := by
  have hget : ∀ bs : Bytes, bs.getD (n / 8) 0 = (slice bs (n / 8) 1).getD 0 0 := by
    intro bs
    rw [slice, List.getD_eq_getElem?_getD, List.getD_eq_getElem?_getD,
      List.getElem?_take_of_lt Nat.one_pos, List.getElem?_drop, Nat.add_zero]
  rw [bitAt, bitAt]
  by_cases hn : n / 8 + 1 ≤ b.length
  · rw [hget, hget, slice_write_of_apart h hn]
  · rw [List.getD_eq_default _ _ (by rw [length_write_of_le hle]; omega),
      List.getD_eq_default _ _ (by omega)]

/-- The block lies in the buffer, and has room for the magic and the checksum. -/
structure BlockAt (blockSize : ℕ) (b magic : Bytes) (start : ℕ) : Prop where
  room : magic.length + 4 ≤ blockSize
  le_length : start + blockSize ≤ b.length

namespace BlockAt

lemma length_updateCrc (h : BlockAt blockSize b magic start) :
    (updateCrc b start blockSize magic).length = b.length := by
  have hroom := h.room
  have hle := h.le_length
  have hlen : (write 0 b start magic).length = b.length := length_write_of_le (by omega)
  rw [updateCrc, length_write_of_le (by rw [length_leBytes, hlen]; omega), hlen]

/-- What lies beside the block stays. -/
lemma slice_updateCrc (h : BlockAt blockSize b magic start) {o n : ℕ}
    (hapart : Apart o n start blockSize) (hle : o + n ≤ b.length) :
    slice (updateCrc b start blockSize magic) o n = slice b o n := by
  have hroom := h.room
  have hstart := h.le_length
  have hlen : (write 0 b start magic).length = b.length := length_write_of_le (by omega)
  rw [Apart] at hapart
  rw [updateCrc, slice_write_of_apart (by rw [Apart, length_leBytes]; omega) (by omega),
    slice_write_of_apart (by rw [Apart]; omega) hle]

/-- No bit between the magic and the checksum is changed, nor any beside the block. -/
lemma bitAt_updateCrc (h : BlockAt blockSize b magic start) {n : ℕ}
    (hn : n / 8 < start ∨ start + magic.length ≤ n / 8 ∧ n / 8 + 4 < start + blockSize ∨
      start + blockSize ≤ n / 8) :
    bitAt (updateCrc b start blockSize magic) n = bitAt b n := by
  have hroom := h.room
  have hstart := h.le_length
  have hlen : (write 0 b start magic).length = b.length := length_write_of_le (by omega)
  rw [updateCrc, bitAt_write_of_apart (by rw [Apart, length_leBytes]; omega)
      (by rw [length_leBytes, hlen]; omega),
    bitAt_write_of_apart (by rw [Apart]; omega) (by omega)]

/-- A block that has been signed is valid. -/
lemma validateCrc_updateCrc (h : BlockAt blockSize b magic start) :
    validateCrc (updateCrc b start blockSize magic) start blockSize magic.length = 0 := by
  have hroom := h.room
  have hstart := h.le_length
  have hlen : (write 0 b start magic).length = b.length := length_write_of_le (by omega)
  rw [validateCrc]
  refine if_pos ?_
  have hself : ∀ (bs : Bytes) (o n : ℕ), slice (write 0 bs o (leBytes 4 n)) o 4 = leBytes 4 n := by
    intro bs o n
    have hpiece : slice (write 0 bs o (leBytes 4 n)) o (leBytes 4 n).length = leBytes 4 n :=
      slice_write_self
    rwa [length_leBytes] at hpiece
  rw [updateCrc, hself]
  generalize write 0 b start magic = b' at hlen
  rw [slice_write_of_apart (by rw [Apart, length_leBytes]; omega) (by rw [hlen]; omega)]

end BlockAt

variable {n : ℕ}

/-- The loop of `sign_sm_buffer`, over the first `n` blocks. -/
def signFirst (blockSize : ℕ) (magic : Bytes) (n : ℕ) (b : Bytes) : Bytes :=
  (List.range n).foldl (fun b curBlck => updateCrc b (curBlck * blockSize) blockSize magic) b

lemma signFirst_succ (n : ℕ) : signFirst blockSize magic (n + 1) b =
    updateCrc (signFirst blockSize magic n b) (n * blockSize) blockSize magic := by
  rw [signFirst, List.range_succ, List.foldl_append]
  rfl

lemma blockAt_of_lt (hroom : magic.length + 4 ≤ blockSize) {cur : ℕ}
    (hcur : cur < n) (hn : n * blockSize ≤ b.length) :
    BlockAt blockSize b magic (cur * blockSize) where
  room := hroom
  le_length := by
    have hle : (cur + 1) * blockSize ≤ n * blockSize := Nat.mul_le_mul_right _ hcur
    rw [Nat.succ_mul] at hle
    exact hle.trans hn

lemma length_signFirst (hroom : magic.length + 4 ≤ blockSize) (hn : n * blockSize ≤ b.length) :
    (signFirst blockSize magic n b).length = b.length := by
  induction n with
  | zero => rfl
  | succ n ih =>
      have hlen := ih ((Nat.mul_le_mul_right _ (Nat.le_succ n)).trans hn)
      rw [signFirst_succ,
        (blockAt_of_lt hroom (Nat.lt_succ_self n) (by rwa [hlen])).length_updateCrc, hlen]

/-- Signing leaves every bit. -/
lemma bitAt_signFirst (hroom : magic.length + 4 ≤ blockSize) (hn : n * blockSize ≤ b.length)
    {k : ℕ} (hk : magic.length ≤ k / 8 % blockSize ∧ k / 8 % blockSize + 4 < blockSize) :
    bitAt (signFirst blockSize magic n b) k = bitAt b k := by
  induction n with
  | zero => rfl
  | succ n ih =>
      have hle := (Nat.mul_le_mul_right blockSize (Nat.le_succ n)).trans hn
      have hdm := Nat.div_add_mod' (k / 8) blockSize
      rw [signFirst_succ, (blockAt_of_lt hroom (Nat.lt_succ_self n)
        (by rwa [length_signFirst hroom hle])).bitAt_updateCrc ?_, ih hle]
      generalize k / 8 / blockSize = q at hdm
      rcases lt_trichotomy q n with hlt | rfl | hgt
      · have := Nat.mul_le_mul_right blockSize (show q + 1 ≤ n from hlt)
        rw [Nat.succ_mul] at this
        omega
      · omega
      · have := Nat.mul_le_mul_right blockSize (show n + 1 ≤ q from hgt)
        rw [Nat.succ_mul] at this
        omega

/-- Every block that has been signed is valid. -/
lemma validateCrc_signFirst (hroom : magic.length + 4 ≤ blockSize) (hn : n * blockSize ≤ b.length)
    {cur : ℕ} (hcur : cur < n) :
    validateCrc (signFirst blockSize magic n b) (cur * blockSize) blockSize magic.length = 0 := by
  induction n with
  | zero => exact absurd hcur (Nat.not_lt_zero _)
  | succ n ih =>
      have hle := (Nat.mul_le_mul_right blockSize (Nat.le_succ n)).trans hn
      have hlen := length_signFirst hroom hle
      have hlast := blockAt_of_lt hroom (Nat.lt_succ_self n)
        (show (n + 1) * blockSize ≤ (signFirst blockSize magic n b).length by rwa [hlen])
      rw [signFirst_succ]
      rcases Nat.lt_succ_iff_lt_or_eq.1 hcur with hlt | rfl
      · -- the block that is signed last is another one
        have hbefore : (cur + 1) * blockSize ≤ n * blockSize := Nat.mul_le_mul_right _ hlt
        rw [Nat.succ_mul] at hbefore
        have hapart : ∀ o n', cur * blockSize ≤ o → o + n' ≤ cur * blockSize + blockSize →
            slice (updateCrc (signFirst blockSize magic n b) (n * blockSize) blockSize magic) o n' =
              slice (signFirst blockSize magic n b) o n' := by
          intro o n' _ hend
          exact hlast.slice_updateCrc (.inl (by omega)) (by rw [hlen]; omega)
        have hvalid := ih hle hlt
        rw [validateCrc] at hvalid ⊢
        rwa [hapart _ _ (by omega) (by omega), hapart _ _ (by omega) (by omega)]
      · exact hlast.validateCrc_updateCrc

end Sign

/-! ### Using a bitmap -/

/-- What is done to a bitmap. -/
inductive Op
  | set (addr count : ℕ)
  | clear (addr count : ℕ)
  | sign

namespace Op

/-- The stretch ends where a number of 64 bits does. -/
def InRange : Op → Prop
  | set addr count => addr + count < 2 ^ 64
  | clear addr count => addr + count < 2 ^ 64
  | sign => True

/-- The operation on the bitmap, with the code that it returns. -/
def run (g : Geometry) (magic : Bytes) : Op → Bytes → Bytes × ℤ
  | set addr count, buff => g.signSetBits buff addr count
  | clear addr count, buff => g.signClearBits buff addr count
  | sign, buff => (signBuffer g.blockSize magic buff, 0)

/-- The operation on the set of the numbers below `capacity`. -/
def apply (capacity : ℕ) : Op → Set ℕ → Set ℕ
  | set addr count, s => s ∪ (Set.Ico addr (addr + count) ∩ Set.Iio capacity)
  | clear addr count, s => s \ Set.Ico addr (addr + count)
  | sign, s => s

/-- The code: it is an error if there is a number that the bitmap has no bit for. -/
def code (capacity : ℕ) : Op → ℤ
  | set addr count => if count = 0 ∨ addr + count ≤ capacity then 0 else -einval
  | clear addr count => if count = 0 ∨ addr + count ≤ capacity then 0 else -einval
  | sign => 0

end Op

/-- The operations one after the other, with their codes. -/
def runOps (g : Geometry) (magic : Bytes) : List Op → Bytes → Bytes × List ℤ
  | [], buff => (buff, [])
  | op :: ops, buff =>
    let (buff, code) := op.run g magic buff
    let (buff, codes) := runOps g magic ops buff
    (buff, code :: codes)

namespace Geometry

variable {g : Geometry} {buff magic : Bytes}

/-- The checksum and the magic of a bitmap have these sizes. -/
structure Signs (g : Geometry) (magic : Bytes) : Prop where
  magicLen_eq : magic.length = g.magicLen
  crcSize_eq : g.crcSize = 4

lemma Signs.room (hs : g.Signs magic) : magic.length + 4 ≤ g.blockSize := by
  have := g.room_lt
  rw [hs.magicLen_eq, ← hs.crcSize_eq]
  omega

lemma length_signBuffer (hs : g.Signs magic) (h : g.Blocks buff) :
    (signBuffer g.blockSize magic buff).length = buff.length :=
  length_signFirst hs.room h.div_mul.le

lemma capacity_congr {buff' : Bytes} (h : buff'.length = buff.length) :
    g.capacity buff' = g.capacity buff := by
  rw [capacity, h, ← capacity]

/-- Where the bits lie in a block. -/
lemma position_div_mod (hs : g.Signs magic) (addr : ℕ) :
    magic.length ≤ g.position addr / 8 % g.blockSize ∧
      g.position addr / 8 % g.blockSize + 4 < g.blockSize := by
  have hmod := Nat.mod_lt addr g.datablockSize_pos
  have hD := g.datablockSize_add
  have hcrc := hs.crcSize_eq
  have hdiv : g.position addr / 8 =
      g.magicLen + addr % g.datablockSize / 8 + addr / g.datablockSize * g.blockSize := by
    rw [position]
    omega
  rw [hdiv, Nat.add_mul_mod_self_right, Nat.mod_eq_of_lt (by omega), hs.magicLen_eq]
  omega

lemma bits_signBuffer (hs : g.Signs magic) (h : g.Blocks buff) :
    g.bits (signBuffer g.blockSize magic buff) = g.bits buff := by
  have hlen := length_signBuffer hs h
  ext addr
  rw [mem_bits_iff (h.congr hlen), mem_bits_iff h, capacity_congr hlen]
  refine and_congr_right fun _ => ?_
  rw [← bitAt_signFirst hs.room h.div_mul.le (position_div_mod hs addr)]
  rfl

/-- One operation. -/
lemma bits_run (hs : g.Signs magic) (h : g.Blocks buff) {op : Op} (hop : op.InRange) :
    ∃ buff', op.run g magic buff = (buff', op.code (g.capacity buff)) ∧
      buff'.length = buff.length ∧ g.bits buff' = op.apply (g.capacity buff) (g.bits buff) := by
  cases op with
  | set addr count => exact bits_signSetBits h hop
  | clear addr count => exact bits_signClearBits h hop
  | sign => exact ⟨_, rfl, length_signBuffer hs h, bits_signBuffer hs h⟩

/-- The blocks of the buffer have been signed. -/
def Valid (g : Geometry) (buff : Bytes) : Prop :=
  ∀ cur < buff.length / g.blockSize,
    validateCrc buff (cur * g.blockSize) g.blockSize g.magicLen = 0

lemma valid_signBuffer (hs : g.Signs magic) (h : g.Blocks buff) :
    g.Valid (signBuffer g.blockSize magic buff) := by
  intro cur hcur
  rw [length_signBuffer hs h] at hcur
  have hvalid := validateCrc_signFirst hs.room h.div_mul.le hcur
  rwa [hs.magicLen_eq] at hvalid

/-- **A bitmap is a set.**  Whatever is done to a bitmap, in whatever order, its bits are the set
that the same operations make of the one it was, each returns an error just if it names a number
that the bitmap has no bit for, and when the bitmap has been signed, every block of it is valid. -/
theorem bits_runOps (hs : g.Signs magic) (h : g.Blocks buff) {ops : List Op}
    (hops : ∀ op ∈ ops, op.InRange) :
    ∃ buff', runOps g magic ops buff = (buff', ops.map (Op.code (g.capacity buff))) ∧
      g.bits buff' = ops.foldl (fun s op => op.apply (g.capacity buff) s) (g.bits buff) ∧
      g.bits (signBuffer g.blockSize magic buff') = g.bits buff' ∧
      g.Valid (signBuffer g.blockSize magic buff') := by
  induction ops generalizing buff with
  | nil => exact ⟨buff, rfl, rfl, bits_signBuffer hs h, valid_signBuffer hs h⟩
  | cons op ops ih =>
      obtain ⟨hop, hops⟩ := List.forall_mem_cons.1 hops
      obtain ⟨buff₁, hrun, hlen, hbits⟩ := bits_run hs h hop
      obtain ⟨buff', hruns, hbits', hsigned⟩ := ih (h.congr hlen) hops
      rw [capacity_congr hlen] at hruns hbits'
      refine ⟨buff', ?_, by rw [hbits', hbits]; rfl, hsigned⟩
      rw [runOps, hrun]
      dsimp only
      rw [hruns]
      rfl

end Geometry

/-- No bit is set in an empty bitmap. -/
lemma bits_replicate {g : Geometry} (n : ℕ) (h : g.Blocks (List.replicate n 0)) :
    g.bits (List.replicate n 0) = ∅ := by
  ext addr
  rw [Geometry.mem_bits_iff h]
  refine iff_of_false (fun hand => ?_) (Set.notMem_empty addr)
  have hzero : (List.replicate n (0 : UInt8)).getD (g.position addr / 8) 0 = 0 := by
    rw [List.getD_eq_getElem?_getD, List.getElem?_replicate]
    split
    · rfl
    · rfl
  rw [bitAt, hzero] at hand
  simp at hand

/-- Blocks of 32 bytes, with 128 bits in each. -/
def smallBlocks : Geometry := ⟨32, 12, crc32Size, by decide, crc32Size_pos, by decide⟩

/-- The magic of the blocks. -/
def smallMagic : Bytes := List.replicate 12 1

theorem bits_runOps_smallBlocks :
    ∃ buff', runOps smallBlocks smallMagic [.set 120 20, .sign, .clear 130 2, .set 250 10]
        (List.replicate 64 0) = (buff', [0, 0, 0, -einval]) ∧
      smallBlocks.bits buff' = ((Set.Ico 120 140 \ Set.Ico 130 132) ∪ Set.Ico 250 256) ∧
      smallBlocks.bits (signBuffer 32 smallMagic buff') = smallBlocks.bits buff' ∧
      smallBlocks.Valid (signBuffer 32 smallMagic buff') := by
  have hblocks : smallBlocks.Blocks (List.replicate 64 0) := ⟨⟨2, rfl⟩, by decide⟩
  have hcapacity : smallBlocks.capacity (List.replicate 64 0) = 256 := by decide
  have hs : smallBlocks.Signs smallMagic := ⟨rfl, rfl⟩
  obtain ⟨buff', hrun, hbits, hsigned⟩ := Geometry.bits_runOps hs hblocks
    (show ∀ op ∈ [Op.set 120 20, .sign, .clear 130 2, .set 250 10], op.InRange by
      simp [Op.InRange])
  refine ⟨buff', hrun.trans ?_, hbits.trans ?_, hsigned⟩
  · rw [hcapacity]
    rfl
  · rw [hcapacity, bits_replicate _ hblocks]
    ext n
    simp only [List.foldl_cons, List.foldl_nil, Op.apply, Set.empty_union, Set.mem_union,
      Set.mem_sdiff, Set.mem_inter_iff, Set.mem_Ico, Set.mem_Iio]
    omega

/-! ### The bitmap of the inode numbers -/

/-- `INODE_BITMAP_MAGIC`, and the version. -/
def inodeBitmapMagic : Bytes := [105, 110, 111, 98] ++ leBytes 8 1

/-- `FSM_BMP_MAGIC`, and the version. -/
def fsmBmpMagic : Bytes := [102, 115, 109, 98] ++ leBytes 8 1

/-- The size of a block is a power of two. -/
structure IsBlockSize (blockSize : ℕ) : Prop where
  eq_pow : blockSize = 2 ^ Nat.log2 blockSize
  le : 32 ≤ blockSize
  lt : blockSize < 2 ^ 28

lemma isBlockSize_4096 : IsBlockSize 4096 := ⟨by decide, by decide, by decide⟩

/-- The blocks of the two bitmaps. -/
def signedBlocks (blockSize : ℕ) (h : IsBlockSize blockSize) : Geometry :=
  ⟨blockSize, 12, crc32Size, h.le, crc32Size_pos, h.lt⟩

lemma datablockSize_signedBlocks (blockSize : ℕ) (h : IsBlockSize blockSize) :
    (signedBlocks blockSize h).datablockSize = (blockSize - 16) * 8 := rfl

/-- `byte_to_block` -/
def byteToBlock (valInByte blockSize : ℕ) : ℕ :=
  valInByte / blockSize + if valInByte % blockSize = 0 then 0 else 1

/-- What `fill_inode_bitmap` sets of `sbi`: the bitmap, and the number of the blocks of the
metadata. -/
structure InodeSpace where
  inodeBitmap : Option Bytes
  metadataSize : ℕ

/-- `fill_inode_bitmap`, where the last number that has been given is `last`, with the code that is
returned.  The count of the bits has 32 bits. -/
def fillInodeBitmap (blockSize : ℕ) (h : IsBlockSize blockSize) (readOnlyImage : Bool) (last : ℕ)
    (sbi : InodeSpace) : InodeSpace × ℤ :=
  if readOnlyImage then (sbi, 0)
  else
    let blocks := byteToBlock ((last + 7) / 8) (blockSize - 16)
    let metadataSize := sbi.metadataSize + byteToBlock (blocks * blockSize) blockSize
    let (buffer, ret) := (signedBlocks blockSize h).signSetBits
      (List.replicate (blocks * blockSize) 0) 0 ((last + 1) % 2 ^ 32)
    if ret ≠ 0 then (⟨some buffer, metadataSize⟩, ret)
    else (⟨some (signBuffer blockSize inodeBitmapMagic buffer), metadataSize⟩, ret)

lemma byteToBlock_mul {blockSize : ℕ} (h : 0 < blockSize) (q : ℕ) :
    byteToBlock (q * blockSize) blockSize = q := by
  rw [byteToBlock, Nat.mul_div_cancel _ h, Nat.mul_mod_left, if_pos rfl, Nat.add_zero]

lemma byteToBlock_mul_add {blockSize s : ℕ} (hs : 0 < s) (hle : s ≤ blockSize) (q : ℕ) :
    byteToBlock (q * blockSize + s) blockSize = q + 1 := by
  rcases Nat.lt_or_eq_of_le hle with hlt | rfl
  · have hpos := hs.trans hlt
    rw [byteToBlock, Nat.add_comm (q * blockSize), Nat.add_mul_div_right _ _ hpos,
      Nat.add_mul_mod_self_right, Nat.div_eq_of_lt hlt, Nat.mod_eq_of_lt hlt, if_neg hs.ne',
      Nat.zero_add]
  · rw [← Nat.succ_mul, byteToBlock_mul hs]

/-- How many numbers the bitmap has bits for. -/
lemma lt_capacity_iff (blockSize : ℕ) (h : IsBlockSize blockSize) (last : ℕ) :
    last + 1 ≤ byteToBlock ((last + 7) / 8) (blockSize - 16) *
      (signedBlocks blockSize h).datablockSize ↔
    ¬ (signedBlocks blockSize h).datablockSize ∣ last := by
  have hpos : 0 < blockSize - 16 := by
    have := h.le
    omega
  rw [datablockSize_signedBlocks, Nat.dvd_iff_mod_eq_zero]
  generalize blockSize - 16 = P at hpos
  have hdm := Nat.div_add_mod' last (P * 8)
  have hmod := Nat.mod_lt last (show 0 < P * 8 by omega)
  generalize last / (P * 8) = q at hdm
  rw [← Nat.mul_assoc] at hdm
  by_cases hzero : last % (P * 8) = 0
  · have hbytes : (last + 7) / 8 = q * P := by omega
    rw [hbytes, byteToBlock_mul hpos, ← Nat.mul_assoc]
    omega
  · have hbytes : (last + 7) / 8 = q * P + (last % (P * 8) + 7) / 8 := by omega
    rw [hbytes, byteToBlock_mul_add (by omega) (by omega), ← Nat.mul_assoc, Nat.succ_mul]
    omega

/-- The bitmap of the inode numbers has a size that fits into an `int`. -/
lemma byteToBlock_mul_lt {blockSize last : ℕ} (h : IsBlockSize blockSize)
    (hlast : last + 1 < 2 ^ 32) :
    byteToBlock ((last + 7) / 8) (blockSize - 16) * blockSize < 2 ^ 31 := by
  have hle := h.le
  have hlt := h.lt
  have hblocks : byteToBlock ((last + 7) / 8) (blockSize - 16) ≤
      (last + 7) / 8 / (blockSize - 16) + 1 := by
    rw [byteToBlock]
    split
    · exact Nat.le_succ _
    · exact le_refl _
  -- at least half of a block is bits
  have hdiv : (last + 7) / 8 / (blockSize - 16) * (blockSize - 16) ≤ (last + 7) / 8 :=
    Nat.div_mul_le_self _ _
  have hhalf : (last + 7) / 8 / (blockSize - 16) * blockSize ≤
      (last + 7) / 8 / (blockSize - 16) * (2 * (blockSize - 16)) :=
    Nat.mul_le_mul_left _ (by omega)
  rw [Nat.mul_left_comm] at hhalf
  calc byteToBlock ((last + 7) / 8) (blockSize - 16) * blockSize
      ≤ ((last + 7) / 8 / (blockSize - 16) + 1) * blockSize := Nat.mul_le_mul_right _ hblocks
    _ = (last + 7) / 8 / (blockSize - 16) * blockSize + blockSize := Nat.succ_mul _ _
    _ < 2 ^ 31 := by omega

/-- **The inode numbers in use.**  Of an image that is read-only, `fill_inode_bitmap` makes no
bitmap.  Otherwise it marks all numbers up to the last one in a new bitmap.  It has no bit for the
last one itself, and fails, if that is a multiple of the number of bits of a block. -/
theorem bits_fillInodeBitmap (blockSize : ℕ) (h : IsBlockSize blockSize) (readOnlyImage : Bool)
    (last : ℕ) (sbi : InodeSpace) (hlast : last + 1 < 2 ^ 32) :
    if readOnlyImage then fillInodeBitmap blockSize h readOnlyImage last sbi = (sbi, 0)
    else if (signedBlocks blockSize h).datablockSize ∣ last then
      (fillInodeBitmap blockSize h readOnlyImage last sbi).2 = -einval
    else
      ∃ bitmap, fillInodeBitmap blockSize h readOnlyImage last sbi =
          (⟨some bitmap, sbi.metadataSize + bitmap.length / blockSize⟩, 0) ∧
        (signedBlocks blockSize h).bits bitmap = Set.Iio (last + 1) ∧
        (signedBlocks blockSize h).Valid bitmap := by
  cases readOnlyImage with
  | true => rfl
  | false =>
      have hiff := lt_capacity_iff blockSize h last
      have hsize := byteToBlock_mul_lt h hlast
      have hpos : 0 < blockSize := by
        have := h.le
        omega
      rw [if_neg Bool.false_ne_true, fillInodeBitmap, if_neg Bool.false_ne_true,
        Nat.mod_eq_of_lt hlast]
      dsimp only
      generalize byteToBlock ((last + 7) / 8) (blockSize - 16) = blocks at hiff hsize
      have hblocks : (signedBlocks blockSize h).Blocks (List.replicate (blocks * blockSize) 0) := by
        refine ⟨?_, by rwa [List.length_replicate]⟩
        rw [List.length_replicate]
        exact Nat.dvd_mul_left _ _
      have hcap : (signedBlocks blockSize h).capacity (List.replicate (blocks * blockSize) 0) =
          blocks * (signedBlocks blockSize h).datablockSize := by
        rw [Geometry.capacity, List.length_replicate]
        congr 1
        exact Nat.mul_div_cancel _ hpos
      obtain ⟨buff', hrun, hlen, hbits⟩ :=
        Geometry.bits_signSetBits hblocks (show 0 + (last + 1) < 2 ^ 64 by omega)
      rw [hcap, Nat.zero_add] at hrun
      rw [hcap, Nat.zero_add, bits_replicate _ hblocks, Set.empty_union] at hbits
      have hs : (signedBlocks blockSize h).Signs inodeBitmapMagic := ⟨rfl, rfl⟩
      have hlen' : (signBuffer blockSize inodeBitmapMagic buff').length = blocks * blockSize :=
        (Geometry.length_signBuffer hs (hblocks.congr hlen)).trans
          (hlen.trans List.length_replicate)
      split
      · rename_i hdvd
        rw [if_neg (fun hor => hor.elim (Nat.succ_ne_zero last) fun hle => hiff.1 hle hdvd)] at hrun
        rw [hrun]
        rfl
      · rename_i hdvd
        rw [if_pos (.inr (hiff.2 hdvd))] at hrun
        rw [hrun]
        refine ⟨signBuffer blockSize inodeBitmapMagic buff', ?_, ?_,
          Geometry.valid_signBuffer hs (hblocks.congr hlen)⟩
        · rw [hlen', Nat.mul_div_cancel _ hpos, byteToBlock_mul hpos]
          rfl
        · refine (Geometry.bits_signBuffer hs (hblocks.congr hlen)).trans (hbits.trans ?_)
          ext a
          have hle := hiff.2 hdvd
          rw [Set.mem_inter_iff, Set.mem_Ico, Set.mem_Iio, Set.mem_Iio]
          omega

theorem bits_fillInodeBitmap_small :
    ∃ bitmap, fillInodeBitmap 4096 isBlockSize_4096 false 8 ⟨none, 0⟩ =
        (⟨some bitmap, 0 + bitmap.length / 4096⟩, 0) ∧
      (signedBlocks 4096 isBlockSize_4096).bits bitmap = Set.Iio 9 ∧
      (signedBlocks 4096 isBlockSize_4096).Valid bitmap := by
  have h := bits_fillInodeBitmap 4096 isBlockSize_4096 false 8 ⟨none, 0⟩ (by decide)
  rwa [if_neg Bool.false_ne_true, if_neg (by decide)] at h

end SamsungTVVoices.Extractor.Bitmap
