import Mathlib.Data.BitVec

/-!
# Fields of a register

A field is what a mask selects. A value written into one field with a mask that keeps the others
(`r &&& keep ||| v`) is read back from it and leaves them, when the two masks have no bit in common.
-/

namespace Rastreo.Lib

section BitVec

variable {w : Nat} {r v keep field : BitVec w}

theorem bits_read (hd : keep &&& field = 0) (hv : v &&& field = v) :
    ((r &&& keep) ||| v) &&& field = v := by
  rw [BitVec.and_or_distrib_right, BitVec.and_assoc, hd, hv]
  simp

theorem bits_apart (hd : keep &&& field = 0) (hv : v &&& field = v) : v &&& keep = 0 := by
  rw [← hv, BitVec.and_assoc, BitVec.and_comm field, hd]
  simp

theorem bits_keep (hd : keep &&& field = 0) (hv : v &&& field = v) :
    ((r &&& keep) ||| v) &&& keep = r &&& keep := by
  rw [BitVec.and_or_distrib_right, BitVec.and_assoc, BitVec.and_self, bits_apart hd hv]
  simp

end BitVec

section UInt8

variable {r v keep field : UInt8}

/-- What is written is read. -/
theorem field_read (hd : keep &&& field = 0) (hv : v &&& field = v) :
    ((r &&& keep) ||| v) &&& field = v := by
  rw [← UInt8.toBitVec_inj] at *
  exact bits_read hd hv

/-- The other fields stay. -/
theorem field_keep (hd : keep &&& field = 0) (hv : v &&& field = v) :
    ((r &&& keep) ||| v) &&& keep = r &&& keep := by
  rw [← UInt8.toBitVec_inj] at *
  exact bits_keep hd hv

end UInt8

section UInt32

variable {u v m n : UInt32}

/-- A mask selects from two values put together. -/
theorem field_or : (u ||| v) &&& m = (u &&& m) ||| (v &&& m) := by
  rw [← UInt32.toBitVec_inj]
  exact BitVec.and_or_distrib_right

/-- A value of one field has nothing in another. -/
theorem field_other (hd : m &&& n = 0) : (v &&& m) &&& n = 0 := by
  rw [UInt32.and_assoc, hd, UInt32.and_zero]

end UInt32

end Rastreo.Lib
