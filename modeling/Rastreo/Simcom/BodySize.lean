import Rastreo.Simcom.Scaling
import Mathlib

/-!
# The posted text fits its buffers (`A7672E.c`)

`GPSInfoToString` formats the record into the 64 bytes of `postData`, and the command that announces
its length is formatted into the 20 bytes of `postCmd`; neither call is given the size.

* `length_fmtD_le`: a number below `10 ^ k` takes `k` characters and one for the sign.
* `length_gpsInfoToString_le`: the body of a record whose coordinates have two and three digits of
  degrees takes 61 characters, whatever the speed and the course. Quotient and remainder of a
  negative coordinate each carry a sign.
* `fits_of_separated`: the record of every sentence with up to six fractional digits is such a one.
-/

namespace Rastreo.Simcom

open Rastreo.Lib

/-- The record's text and the command for it fit `postData` and `postCmd`, the NUL included. -/
def Fits (s : Sys) (g : GpsInfo) : Prop :=
  (gpsInfoToString g).length + 1 ≤ 64 ∧
    ∃ body, s.postData.sprintf (gpsInfoToString g) = some body ∧
      (postCmd { s with postData := body }).length + 1 ≤ 20

/-! ## Printed numbers -/

theorem length_dec_le {n k : Nat} (hk : 0 < k) (hn : n < 10 ^ k) : (dec n).length ≤ k :=
  (dec_length_le_iff hk).mpr hn

theorem length_fmtD_natCast_le {w n k : Nat} (hk : 0 < k) (hw : w ≤ k) (hn : n < 10 ^ k) :
    (fmtD w n).length ≤ k := by
  have hd := length_dec_le hk hn
  rw [fmtD_length]
  omega

/-- The digits and the sign. -/
theorem length_fmtD_le {w k : Nat} {z : Int} (hk : 0 < k) (hw : w ≤ k) (hz : z.natAbs < 10 ^ k) :
    (fmtD w z).length ≤ k + 1 := by
  have hd := length_dec_le hk hz
  unfold fmtD
  split
  · simp only [List.length_cons, List.length_append, List.length_replicate]
    omega
  · simp only [List.length_append, List.length_replicate]
    omega

theorem zero_notMem_fmtD_int (w : Nat) (z : Int) : (0 : UInt8) ∉ fmtD w z := by
  have hd : (0 : UInt8) ∉ dec z.natAbs := fun h => absurd (isDigit_of_mem_dec h) (by decide)
  unfold fmtD
  split <;> simp [hd]

/-! ## The body -/

/-- The body has no NUL of its own. -/
theorem zero_notMem_gpsInfoToString (g : GpsInfo) : (0 : UInt8) ∉ gpsInfoToString g := by
  have hlit : ∀ t ∈ [ascii "\x7b\"lat\":", ascii ".", ascii ",\"lon\":", ascii ",\"vel\":",
      ascii ",\"dir\":", ascii "\x7d"], (0 : UInt8) ∉ t := by decide +kernel
  simp only [List.forall_mem_cons] at hlit
  simp only [gpsInfoToString, List.mem_append, not_or, hlit, zero_notMem_fmtD_int,
    not_false_eq_true, and_self]

/-- A coordinate with `k` digits of degrees takes `k + 1` characters before the point and up to seven
behind it. -/
theorem length_coord_le {z : Int} {k : Nat} (hk : 0 < k) (hz : z.natAbs < 10 ^ k * 1000000) :
    (fmtD 0 (z.tdiv 1000000)).length ≤ k + 1 ∧ (fmtD 4 (z.tmod 1000000)).length ≤ 7 := by
  constructor
  · refine length_fmtD_le hk (by omega) ?_
    rw [Int.natAbs_tdiv]
    exact Nat.div_lt_of_lt_mul (by rw [Nat.mul_comm]; exact hz)
  · refine length_fmtD_le (by omega) (by omega) ?_
    rw [Int.natAbs_tmod]
    exact Nat.mod_lt _ (by decide)

/-- **The length of the body**, for any speed and course. -/
theorem length_gpsInfoToString_le {g : GpsInfo} (hlat : g.lat.toInt.natAbs < 10 ^ 2 * 1000000)
    (hlon : g.lon.toInt.natAbs < 10 ^ 3 * 1000000) : (gpsInfoToString g).length ≤ 61 := by
  have hspeed := g.speed.toNat_lt
  have hcourse := g.course.toNat_lt
  have h1 := length_coord_le (by omega) hlat
  have h2 := length_coord_le (by omega) hlon
  have h3 := @length_fmtD_natCast_le 0 (g.speed.toNat / 10) 2 (by omega) (by omega) (by omega)
  have h4 := @length_fmtD_natCast_le 1 (g.speed.toNat % 10) 1 (by omega) (by omega) (by omega)
  have h5 := @length_fmtD_natCast_le 0 g.course.toNat 5 (by omega) (by omega) (by omega)
  have hlit : (ascii "\x7b\"lat\":").length = 7 ∧ (ascii ".").length = 1 ∧
      (ascii ",\"lon\":").length = 7 ∧ (ascii ",\"vel\":").length = 7 ∧
      (ascii ",\"dir\":").length = 7 ∧ (ascii "\x7d").length = 1 := by decide +kernel
  simp only [gpsInfoToString, List.length_append, hlit]
  omega

/-- The command for a body of fewer than a hundred characters. -/
theorem length_postCmd_le {s : Sys} (h : s.postData.text.length < 100) : (postCmd s).length ≤ 18 := by
  have hd := @length_fmtD_natCast_le 0 s.postData.text.length 2 (by omega) (by omega) (by omega)
  have hlit : atHttpInputPostData.length = 12 ∧ (ascii ",10\r").length = 4 := by decide +kernel
  simp only [postCmd, List.length_append, hlit]
  omega

/-- A short body goes through both buffers. -/
theorem fits_of_length {g : GpsInfo} (h : (gpsInfoToString g).length ≤ 61) (s : Sys) :
    Fits s g := by
  obtain ⟨body, hbody⟩ := @Buf.store_isSome 64 s.postData 0 (gpsInfoToString g ++ [0])
    (by rw [List.length_append, List.length_singleton]; omega)
  have htext : body.text = gpsInfoToString g :=
    Buf.text_sprintf hbody (zero_notMem_gpsInfoToString g)
  have hcmd : (postCmd { s with postData := body }).length ≤ 18 :=
    length_postCmd_le (by rw [htext]; omega)
  exact ⟨by omega, body, hbody, by omega⟩

/-! ## The sentence -/

/-- The digits of a coordinate with up to six behind the point. -/
theorem natAbs_coordinate_lt {neg : Bool} {int k : Nat} {frac : Bytes} (h : IsFrac frac)
    (hlen : frac.length ≤ 6) (hint : int < 10 ^ k * 100) :
    (coordinate neg int frac).natAbs < 10 ^ k * 1000000 := by
  have hd : decVal frac < 10 ^ 6 :=
    Nat.lt_of_lt_of_le (decVal_lt_of_isDigit h.2.2) (Nat.pow_le_pow_right (by omega) hlen)
  have habs : (coordinate neg int frac).natAbs = int * 10000 + decVal frac / 100 := by
    cases neg with
    | false => exact Int.natAbs_natCast _
    | true => exact (Int.natAbs_neg _).trans (Int.natAbs_natCast _)
  rw [habs]
  omega

/-- The coordinate as the 32-bit field holds it. -/
theorem natAbs_ofInt_coordinate_lt {neg : Bool} {int k : Nat} {frac : Bytes} (h : IsFrac frac)
    (hlen : frac.length ≤ 6) (hk : k ≤ 3) (hint : int < 10 ^ k * 100) :
    (Int32.ofInt (coordinate neg int frac)).toInt.natAbs < 10 ^ k * 1000000 := by
  have hlt := @natAbs_coordinate_lt neg _ _ _ h hlen hint
  have hpow : 10 ^ k ≤ 10 ^ 3 := Nat.pow_le_pow_right (by omega) hk
  rwa [Int32.toInt_ofInt_of_le (by omega) (by omega)]

/-- **The text of every sentence fits**: with four and five digits before the point and up to six
behind it, in either hemisphere, for every speed and course the record can hold, the ones of the
sentence among them. -/
theorem fits_of_separated {t : Sentence} (h : t.Separated) (hlat : t.latFrac.length ≤ 6)
    (hlon : t.lonFrac.length ≤ 6) (s : Sys) :
    ∃ g, updateGPSInfo t.text = some g ∧ Fits s g ∧
      ∀ speed course, Fits s { g with speed := speed, course := course } := by
  have hall : ∀ speed course, Fits s
      { lat := Int32.ofInt (coordinate t.south t.latInt t.latFrac)
        lon := Int32.ofInt (coordinate t.west t.lonInt t.lonFrac)
        speed, course } := by
    intro speed course
    apply fits_of_length
    apply length_gpsInfoToString_le
    · exact natAbs_ofInt_coordinate_lt h.latFrac hlat (by omega) (by have := h.latInt; omega)
    · exact natAbs_ofInt_coordinate_lt h.lonFrac hlon (by omega) (by have := h.lonInt; omega)
  exact ⟨_, updateGPSInfo_fields h, hall _ _, hall⟩

/-- The made-up sentence on the cleared buffer. -/
theorem fits_generated_sample :
    ∃ g, updateGPSInfo (generated (3432, 2340, 15, 145)).text = some g ∧ Fits simcomInit g ∧
      ∀ speed course, Fits simcomInit { g with speed := speed, course := course } :=
  fits_of_separated (wellFormed_generated _).separated (by decide) (by decide) simcomInit

end Rastreo.Simcom
