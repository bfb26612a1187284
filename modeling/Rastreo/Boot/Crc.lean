import Rastreo.Lib.CString
import Rastreo.Lib.Crc

/-!
# `bootloader_CalculateCrc`

The check of a command and of a response, four bits at a time through a table of sixteen.

* **`calculateCrc_eq`**: it is the check with the generator `X^16 + X^12 + X^5 + 1`, from the highest
  bit of the first byte on.
-/

namespace Rastreo.Boot

open Lib Lib.Crc

/-! ## The code -/

/-- `crc_table`. -/
def crcTable : List UInt16 :=
  [0x0000, 0x1021, 0x2042, 0x3063, 0x4084, 0x50a5, 0x60c6, 0x70e7,
    0x8108, 0x9129, 0xa14a, 0xb16b, 0xc18c, 0xd1ad, 0xe1ce, 0xf1ef]

/-- Half a turn of the loop: the lower four bits of `data`. -/
def crcNibble (crc : UInt16) (data : UInt8) : UInt16 :=
  let i : UInt32 := (crc.toUInt32 >>> 12) ^^^ data.toUInt32
  crcTable.getD (i &&& 0x0F).toNat 0 ^^^ (crc <<< 4)

/-- A turn of the loop: the upper four bits, then the lower four. -/
def crcByte (crc : UInt16) (data : UInt8) : UInt16 :=
  crcNibble (crcNibble crc (data >>> 4)) (data >>> 0)

/-- `bootloader_CalculateCrc`. -/
def calculateCrc (data : Bytes) : UInt32 :=
  (data.foldl crcByte 0).toUInt32 &&& 0xFFFF

/-! ## The check it computes -/

/-- The lower four bits, the highest first. -/
def nibbleBits (n : Nat) : List Bool := [n.testBit 3, n.testBit 2, n.testBit 1, n.testBit 0]

/-- The bits of a byte, the highest first. -/
def byteBits (b : UInt8) : List Bool := nibbleBits (b.toNat / 16) ++ nibbleBits b.toNat

/-- The bits of the data, in the order the check takes them. -/
def bitsOf (data : Bytes) : List Bool := data.flatMap byteBits

/-- `X^12 + X^5 + 1`. -/
abbrev ccitt : BitVec 16 := 0x1021

@[simp] theorem length_nibbleBits (n : Nat) : (nibbleBits n).length = 4 := rfl

theorem nibbleBits_mod (n : Nat) : nibbleBits (n % 16) = nibbleBits n := by
  unfold nibbleBits
  rw [show 16 = 2 ^ 4 from rfl]
  simp only [Nat.testBit_mod_two_pow]
  rfl

/-- The table: four steps of a register with nothing but its four highest bits. -/
theorem crcTable_eq (h n : Nat) (hh : h < 16) (hn : n < 16) :
    (nibbleBits n).foldl (step ccitt) (BitVec.ofNat 16 h <<< 12) =
      (crcTable.getD (h ^^^ n) 0).toBitVec := by
  have hall : ∀ h n : Fin 16, (nibbleBits n).foldl (step ccitt) (BitVec.ofNat 16 h <<< 12) =
      (crcTable.getD (h.val ^^^ n.val) 0).toBitVec := by
    decide +kernel
  exact hall ⟨h, hh⟩ ⟨n, hn⟩

section Register

/-! The register in two: the four bits that a nibble pushes out, and the twelve that it moves up. -/

variable (v : BitVec 16)

theorem lowMask_bit {i : Nat} (hi : i < 16) : (0x0FFF : BitVec 16).getLsbD i = decide (i < 12) := by
  have hall : ∀ i : Fin 16, (0x0FFF : BitVec 16).getLsbD i = decide (i.val < 12) := by decide
  exact hall ⟨i, hi⟩

theorem high_xor_low : (v >>> 12) <<< 12 ^^^ (v &&& 0x0FFF) = v := by
  refine BitVec.eq_of_getLsbD_eq fun i hi => ?_
  rw [BitVec.getLsbD_xor, BitVec.getLsbD_and, lowMask_bit hi, BitVec.getLsbD_shiftLeft,
    BitVec.getLsbD_ushiftRight]
  by_cases h : i < 12
  · simp [h]
  · simp [h, hi, show 12 + (i - 12) = i by omega]

theorem low_bit {i : Nat} (hi : 12 ≤ i) : (v &&& 0x0FFF).getLsbD i = false := by
  by_cases h : i < 16
  · rw [BitVec.getLsbD_and, lowMask_bit h, decide_eq_false hi.not_gt, Bool.and_false]
  · exact BitVec.getLsbD_of_ge _ i (Nat.not_lt.mp h)

theorem low_shiftLeft : (v &&& 0x0FFF) <<< 4 = v <<< 4 := by
  refine BitVec.eq_of_getLsbD_eq fun i hi => ?_
  rw [BitVec.getLsbD_shiftLeft, BitVec.getLsbD_shiftLeft, BitVec.getLsbD_and,
    lowMask_bit (by omega), decide_eq_true (show i - 4 < 12 by omega), Bool.and_true]

end Register

theorem tableIndex (crc : UInt16) (data : UInt8) :
    (((crc.toUInt32 >>> 12) ^^^ data.toUInt32) &&& 0x0F).toNat =
      crc.toNat / 4096 ^^^ data.toNat % 16 := by
  have hhigh : crc.toNat / 4096 < 16 := Nat.div_lt_of_lt_mul crc.toNat_lt
  rw [UInt32.toNat_and, UInt32.toNat_xor, UInt32.toNat_shiftRight]
  show (crc.toNat >>> 12 ^^^ data.toNat) &&& 2 ^ 4 - 1 = _
  rw [Nat.and_two_pow_sub_one_eq_mod, Nat.xor_mod_two_pow, Nat.shiftRight_eq_div_pow,
    Nat.mod_eq_of_lt hhigh]

theorem toBitVec_crcNibble (crc : UInt16) (data : UInt8) :
    (crcNibble crc data).toBitVec = (nibbleBits data.toNat).foldl (step ccitt) crc.toBitVec := by
  have hhigh : crc.toNat / 4096 < 16 := Nat.div_lt_of_lt_mul crc.toNat_lt
  have htop : crc.toBitVec >>> 12 = BitVec.ofNat 16 (crc.toNat / 4096) := by
    refine BitVec.eq_of_toNat_eq ?_
    rw [BitVec.toNat_ushiftRight, BitVec.toNat_ofNat, Nat.shiftRight_eq_div_pow,
      Nat.mod_eq_of_lt (hhigh.trans (by decide))]
    rfl
  have hsteps := steps_split ccitt (crc.toBitVec >>> 12 <<< 12) (nibbleBits (data.toNat % 16))
    ((length_nibbleBits _).trans_le (by decide)) fun i hi => low_bit crc.toBitVec hi
  rw [high_xor_low, nibbleBits_mod, length_nibbleBits, low_shiftLeft, htop, ← nibbleBits_mod,
    crcTable_eq _ _ hhigh (Nat.mod_lt _ (by decide)), nibbleBits_mod] at hsteps
  unfold crcNibble
  dsimp only
  rw [tableIndex, hsteps]
  rfl

theorem toBitVec_crcByte (crc : UInt16) (data : UInt8) :
    (crcByte crc data).toBitVec = (byteBits data).foldl (step ccitt) crc.toBitVec := by
  have hhigh : (data >>> 4).toNat = data.toNat / 16 := Nat.shiftRight_eq_div_pow _ 4
  have hlow : (data >>> 0).toNat = data.toNat := rfl
  unfold crcByte byteBits
  rw [toBitVec_crcNibble, toBitVec_crcNibble, hhigh, hlow, List.foldl_append]

theorem toBitVec_crcBytes (data : Bytes) :
    (data.foldl crcByte 0).toBitVec = crc ccitt (bitsOf data) := by
  have hfrom : ∀ r : UInt16, (data.foldl crcByte r).toBitVec =
      (bitsOf data).foldl (step ccitt) r.toBitVec := by
    induction data with
    | nil => exact fun r => rfl
    | cons b data ih =>
      intro r
      unfold bitsOf
      rw [List.foldl_cons, ih, toBitVec_crcByte, List.flatMap_cons, List.foldl_append]
      rfl
  exact hfrom 0

theorem calculateCrc_eq_toUInt32 (data : Bytes) :
    calculateCrc data = (data.foldl crcByte 0).toUInt32 := by
  refine UInt32.toNat_inj.mp ?_
  unfold calculateCrc
  rw [UInt32.toNat_and]
  show UInt16.toNat _ &&& 2 ^ 16 - 1 = UInt16.toNat _
  rw [Nat.and_two_pow_sub_one_eq_mod]
  exact Nat.mod_eq_of_lt (UInt16.toNat_lt _)

theorem toUInt16_calculateCrc (data : Bytes) :
    (calculateCrc data).toUInt16 = data.foldl crcByte 0 := by
  rw [calculateCrc_eq_toUInt32]
  exact UInt16.toUInt16_toUInt32 _

/-- The check fits in sixteen bits. -/
theorem calculateCrc_eq_iff (data : Bytes) (c : UInt16) :
    calculateCrc data = c.toUInt32 ↔ (calculateCrc data).toUInt16 = c := by
  rw [toUInt16_calculateCrc, calculateCrc_eq_toUInt32, UInt16.toUInt32_inj]

open Polynomial in
/-- **The check is the remainder.** -/
theorem calculateCrc_eq (data : Bytes) :
    poly (calculateCrc data).toUInt16.toBitVec =
      (X ^ 16 * message (bitsOf data)) %ₘ (X ^ 16 + X ^ 12 + X ^ 5 + 1) := by
  have hgen : generator ccitt = X ^ 16 + X ^ 12 + X ^ 5 + 1 := by
    have hbits : ∀ i ∈ Finset.range 16, (ccitt.getLsbD i = true ↔ i = 0 ∨ i = 5 ∨ i = 12) := by
      decide
    unfold generator poly
    rw [Finset.sum_congr rfl fun i hi => if_congr (hbits i hi) rfl rfl]
    simp only [Finset.sum_range_succ, Finset.sum_range_zero, Nat.reduceEqDiff, OfNat.ofNat_ne_zero,
      or_self, or_true, or_false, if_true, if_false]
    ring
  rw [toUInt16_calculateCrc, toBitVec_crcBytes, poly_crc, hgen]

end Rastreo.Boot
