import Rastreo.Simcom.Tasks
import Mathlib

/-!
# The units of the GPS record: what `updateGPSInfo` makes of the digits (`A7672E.c`, `A7672E.h`)

The header gives `lat` and `lon` as `ddmm.mmmm` times 10000 and `speed` with one decimal.
`updateGPSInfo` divides the digits behind the point by 100 however many there are, and keeps ten
times the speed in a `uint8_t`.

* `Stores`: the record holds the sentence's values in those units.
* `coordinate_eq_floor_iff`: a fraction comes out right exactly when it is `Scaled`, that is when it
  has six digits or is so small that both readings of it are 0.
* `generated` is the sentence the task makes up for a module without GPS: it is stored right only
  when both random numbers have four digits (`stores_generated_iff`).
* `stores_iff` puts the fields of any well-formed sentence together.
-/

namespace Rastreo.Simcom

open Rastreo.Lib

/-- A coordinate field read as a decimal number. -/
def fieldVal (int : Nat) (frac : Bytes) : ℚ := int + decVal frac / 10 ^ frac.length

/-- The sign of a hemisphere. -/
def hemisphereSign (neg : Bool) : Int := if neg then -1 else 1

@[simp] theorem hemisphereSign_false : hemisphereSign false = 1 := rfl

@[simp] theorem hemisphereSign_true : hemisphereSign true = -1 := rfl

/-- The record holds the sentence's coordinates times 10000, rounded down before the sign, its speed
in tenths and its course. -/
def Stores (s : Sentence) : Prop :=
  ∃ g, updateGPSInfo s.text = some g ∧
    g.lat.toInt = hemisphereSign s.south * ⌊fieldVal s.latInt s.latFrac * 10 ^ 4⌋ ∧
    g.lon.toInt = hemisphereSign s.west * ⌊fieldVal s.lonInt s.lonFrac * 10 ^ 4⌋ ∧
    g.speed.toNat = 10 * s.speed + s.speedTenths ∧ g.course.toNat = s.course

/-- Six digits, or a fraction of which neither the first four digits nor the hundreds are
anything. -/
def Scaled (frac : Bytes) : Prop :=
  frac.length = 6 ∨ (decVal frac < 100 ∧ decVal frac * 10000 < 10 ^ frac.length)

instance (frac : Bytes) : Decidable (Scaled frac) := by unfold Scaled; infer_instance

/-! ## One coordinate -/

/-- The floor of a field in ten-thousandths. -/
theorem floor_fieldVal (int : Nat) (frac : Bytes) :
    ⌊fieldVal int frac * 10 ^ 4⌋ = (int * 10000 + decVal frac * 10000 / 10 ^ frac.length : Nat) := by
  have hpos : (10 : ℚ) ^ frac.length ≠ 0 := by positivity
  have hval : fieldVal int frac * 10 ^ 4 =
      ((int * 10000 : Nat) : ℤ) + ((decVal frac * 10000 : Nat) : ℚ) / ((10 ^ frac.length : Nat) : ℚ) := by
    unfold fieldVal
    push_cast
    ring
  rw [hval, Int.floor_intCast_add, Rat.floor_natCast_div_natCast]
  push_cast
  rfl

/-- Dividing the digits by 100 gives the ten-thousandths exactly for a `Scaled` fraction. -/
theorem decVal_div_iff {frac : Bytes} (h : IsFrac frac) :
    decVal frac / 100 = decVal frac * 10000 / 10 ^ frac.length ↔ Scaled frac := by
  have hne : 0 < frac.length := List.length_pos_iff.mpr h.1
  have hle := h.2.1
  unfold Scaled
  generalize decVal frac = d
  generalize frac.length = k at *
  interval_cases k <;> omega

theorem coordinate_eq (neg : Bool) (int : Nat) (frac : Bytes) :
    coordinate neg int frac = hemisphereSign neg * (int * 10000 + decVal frac / 100 : Nat) := by
  unfold coordinate hemisphereSign
  cases neg <;> simp

/-- **The stored coordinate** is the field in ten-thousandths exactly for a `Scaled` fraction. -/
theorem coordinate_eq_floor_iff (neg : Bool) (int : Nat) {frac : Bytes} (h : IsFrac frac) :
    coordinate neg int frac = hemisphereSign neg * ⌊fieldVal int frac * 10 ^ 4⌋ ↔ Scaled frac := by
  have hsign : hemisphereSign neg ≠ 0 := by cases neg <;> decide
  rw [← decVal_div_iff h, floor_fieldVal, coordinate_eq, mul_right_inj' hsign, Nat.cast_inj]
  omega

/-- A coordinate below 100000 degrees and minutes fits the 32-bit field. -/
theorem toInt_ofInt_coordinate (neg : Bool) {int : Nat} {frac : Bytes} (hint : int < 100000)
    (h : IsFrac frac) : (Int32.ofInt (coordinate neg int frac)).toInt = coordinate neg int frac := by
  have hd := h.decVal_lt
  rw [coordinate_eq]
  cases neg with
  | false =>
    rw [hemisphereSign_false]
    exact Int32.toInt_ofInt_of_le (by omega) (by omega)
  | true =>
    rw [hemisphereSign_true]
    exact Int32.toInt_ofInt_of_le (by omega) (by omega)

/-! ## The speed and the course -/

/-- Ten times the speed and the tenths, in the `uint8_t` of the record. -/
theorem speed_toNat (speed tenths : Nat) :
    (UInt8.ofInt (speed * 10) + UInt8.ofInt tenths).toNat = (10 * speed + tenths) % 256 := by
  rw [← UInt8.ofInt_add, UInt8.ofInt, UInt8.toNat_ofNat']
  omega

theorem course_toNat {course : Nat} (h : course < 360) :
    (UInt16.ofInt (course : Int)).toNat = course := by
  rw [UInt16.ofInt, UInt16.toNat_ofNat']
  omega

/-! ## The sentence -/

/-- The stored fields, each against its own value. -/
theorem stores_iff_coordinate {s : Sentence} (h : s.WellFormed) :
    Stores s ↔
      coordinate s.south s.latInt s.latFrac =
        hemisphereSign s.south * ⌊fieldVal s.latInt s.latFrac * 10 ^ 4⌋ ∧
      coordinate s.west s.lonInt s.lonFrac =
        hemisphereSign s.west * ⌊fieldVal s.lonInt s.lonFrac * 10 ^ 4⌋ ∧
      (10 * s.speed + s.speedTenths) % 256 = 10 * s.speed + s.speedTenths := by
  have hlatInt := h.latInt
  have hlat := toInt_ofInt_coordinate s.south (by omega : s.latInt < 100000) h.latFrac
  have hlon := toInt_ofInt_coordinate s.west h.lonInt h.lonFrac
  unfold Stores
  rw [updateGPSInfo_text h]
  constructor
  · rintro ⟨g, hg, h1, h2, h3, -⟩
    obtain rfl := Option.some.inj hg
    rw [hlat] at h1
    rw [hlon] at h2
    rw [speed_toNat] at h3
    exact ⟨h1, h2, h3⟩
  · rintro ⟨h1, h2, h3⟩
    exact ⟨_, rfl, hlat.trans h1, hlon.trans h2, (speed_toNat _ _).trans h3,
      course_toNat h.course⟩

/-! ## The sentence the task makes up -/

/-- The sentence of `sentenceText`, by its fields. -/
def generated : Nat × Nat × Nat × Nat → Sentence
  | (r1, r2, r3, r4) =>
    { lead := []
      latInt := 3113
      latFrac := fmtD 0 (r1 % 10000 : Nat) ++ ascii "86"
      south := false
      lonInt := 12121
      lonFrac := fmtD 0 (r2 % 10000 : Nat) ++ ascii "64"
      west := false
      date := ascii "250311"
      time := ascii "072809.3"
      altitude := ascii "44.1"
      speed := r3 % 20
      speedTenths := 3
      course := r4 % 360
      tail := ascii "\r\n" }

theorem text_generated (r : Nat × Nat × Nat × Nat) : (generated r).text = sentenceText r := by
  obtain ⟨r1, r2, r3, r4⟩ := r
  have h1 : fmtD 4 ((3113 : Nat) : Int) = ascii "3113" := by decide +kernel
  have h2 : fmtD 5 ((12121 : Nat) : Int) = ascii "12121" := by decide +kernel
  have h3 : fmtD 0 ((3 : Nat) : Int) = ascii "3" := by decide +kernel
  simp only [generated, Sentence.text, sentenceText, h1, h2, h3]
  simp [ascii]

/-- One to four digits and two more. -/
theorem isFrac_generated (n : Nat) {two : Bytes} (hlen : two.length = 2)
    (hdig : ∀ c ∈ two, isDigit c = true) : IsFrac (fmtD 0 (n % 10000 : Nat) ++ two) := by
  have hle := (@dec_length_le_iff (n % 10000) 4 (by omega)).mpr (by omega)
  refine ⟨by simp [fmtD_ne_nil], ?_, ?_⟩
  · rw [List.length_append, fmtD_length]
    omega
  · intro c hc
    rcases List.mem_append.mp hc with hc | hc
    · exact isDigit_of_mem_fmtD hc
    · exact hdig c hc

theorem wellFormed_generated (r : Nat × Nat × Nat × Nat) : (generated r).WellFormed := by
  obtain ⟨r1, r2, r3, r4⟩ := r
  exact
    { lead := fun c hc => absurd hc List.not_mem_nil
      latInt := by simp only [generated]; omega
      latFrac := isFrac_generated r1 rfl (by decide +kernel)
      lonInt := by simp only [generated]; omega
      lonFrac := isFrac_generated r2 rfl (by decide +kernel)
      date := (by decide +kernel : IsField (ascii "250311"))
      time := (by decide +kernel : IsField (ascii "072809.3"))
      altitude := (by decide +kernel : IsField (ascii "44.1"))
      speed := by simp only [generated]; omega
      speedTenths := by simp only [generated]; omega
      course := by simp only [generated]; omega
      tail := ⟨(by decide +kernel : ∀ c ∈ ascii "\r\n", c ≠ 44), rfl⟩ }

/-- A made-up fraction is `Scaled` exactly when its random part has four digits. -/
theorem scaled_generated_iff (n : Nat) {two : Bytes} (hlen : two.length = 2)
    (hpos : 0 < decVal two) :
    Scaled (fmtD 0 (n % 10000 : Nat) ++ two) ↔ 1000 ≤ n % 10000 := by
  have h3 := @dec_length_le_iff (n % 10000) 3 (by omega)
  have h4 := @dec_length_le_iff (n % 10000) 4 (by omega)
  have hne := List.length_pos_iff.mpr (dec_ne_nil (n % 10000))
  unfold Scaled
  rw [List.length_append, fmtD_length, Nat.zero_max, hlen, decVal_append, decVal_fmtD, hlen]
  constructor
  · rintro (h | ⟨hlt, h⟩)
    · omega
    · -- below 100 the random part is 0, and one digit leaves room for no ten-thousandths
      have h0 : n % 10000 = 0 := by omega
      rw [h0] at h ⊢
      have hd : (dec 0).length = 1 := by decide
      rw [hd] at h
      omega
  · intro h
    exact .inl (by omega)

/-- The made-up sentence is stored right exactly when both of its random fractions have four
digits. -/
theorem stores_generated_iff (r1 r2 r3 r4 : Nat) :
    Stores (generated (r1, r2, r3, r4)) ↔ 1000 ≤ r1 % 10000 ∧ 1000 ≤ r2 % 10000 := by
  have h := wellFormed_generated (r1, r2, r3, r4)
  have hspeed : (10 * (r3 % 20) + 3) % 256 = 10 * (r3 % 20) + 3 := by omega
  rw [stores_iff_coordinate h, coordinate_eq_floor_iff _ _ h.latFrac,
    coordinate_eq_floor_iff _ _ h.lonFrac]
  simp only [generated, hspeed, and_true]
  rw [scaled_generated_iff r1 rfl (by decide), scaled_generated_iff r2 rfl (by decide)]

/-! ## When the values are kept -/

/-- **The record holds the sentence's values** exactly when both fractions are `Scaled` and the speed
is at most 25.5. -/
theorem stores_iff {s : Sentence} (h : s.WellFormed) :
    Stores s ↔ Scaled s.latFrac ∧ Scaled s.lonFrac ∧ 10 * s.speed + s.speedTenths ≤ 255 := by
  have hspeed : (10 * s.speed + s.speedTenths) % 256 = 10 * s.speed + s.speedTenths ↔
      10 * s.speed + s.speedTenths ≤ 255 := by omega
  rw [stores_iff_coordinate h, coordinate_eq_floor_iff _ _ h.latFrac,
    coordinate_eq_floor_iff _ _ h.lonFrac, hspeed]

/-- The example in the task's comment, with a speed of 15.3, is stored right. -/
theorem stores_generated_sample : Stores (generated (3432, 2340, 15, 145)) :=
  (stores_iff (wellFormed_generated _)).mpr (by decide)

/-- With 5 for the first random number the latitude is `3113.586`, of which 31130005 is kept. -/
theorem not_stores_generated : ∃ s : Sentence, s.WellFormed ∧
    s.text = sentenceText (5, 2340, 15, 145) ∧ ¬ Stores s := by
  refine ⟨generated (5, 2340, 15, 145), wellFormed_generated _, text_generated _, ?_⟩
  rw [stores_generated_iff]
  omega

end Rastreo.Simcom
