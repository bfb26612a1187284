import Rastreo.Lib.CString
import Mathlib

/-!
# The GPS record: `updateGPSInfo` and `GPSInfoToString` (`A7672E.c`)

* `GpsInfo` is `SIMCOM_LAST_GPS_POSSITION`. The header gives `lat` and `lon` the format
  `ddmm.mmmm` times 10000.
* `updateGPSInfo` tokenizes a `+CGPSINFO` sentence with `strtok` and reads the pieces with `atoi`;
  `none` is a NULL token handed to `atoi` or dereferenced. The stores truncate to the widths of
  the fields.
* `gpsInfoToString` is the `sprintf` of `GPSInfoToString`: `%d.%04d` for the position with C's
  truncating division and remainder, `%d.%01d` for the speed.
* `Sentence` is a well-formed sentence, with any number of fractional digits up to nine, and
  `updateGPSInfo_text` is what `updateGPSInfo` stores for it.
-/

namespace Rastreo.Simcom

open Rastreo.Lib

/-- `SIMCOM_LAST_GPS_POSSITION`. -/
structure GpsInfo where
  lat : Int32
  lon : Int32
  course : UInt16
  speed : UInt8
  deriving DecidableEq, Repr

/-- `updateGPSInfo`: every field is assigned, so the previous record is not read. -/
def updateGPSInfo (info : Bytes) : Option GpsInfo := do
  let (_, r) ← strtok (ascii ":") info
  let (tok, r) ← strtok (ascii ".") r
  let lat := Int32.ofInt (atoi tok) * 10000
  let (tok, r) ← strtok (ascii ",") r
  let lat := lat + Int32.ofInt ((atoi tok).tdiv 100)
  let (tok, r) ← strtok (ascii ",") r
  let lat := if tok.head? = some 83 then lat * -1 else lat
  let (tok, r) ← strtok (ascii ".") r
  let lon := Int32.ofInt (atoi tok) * 10000
  let (tok, r) ← strtok (ascii ",") r
  let lon := lon + Int32.ofInt ((atoi tok).tdiv 100)
  let (tok, r) ← strtok (ascii ",") r
  let lon := if tok.head? = some 87 then lon * -1 else lon
  let (_, r) ← strtok (ascii ",") r
  let (_, r) ← strtok (ascii ",") r
  let (_, r) ← strtok (ascii ",") r
  let (tok, r) ← strtok (ascii ".") r
  let speed := UInt8.ofInt (atoi tok * 10)
  let (tok, r) ← strtok (ascii ",") r
  let speed := speed + UInt8.ofInt (atoi tok)
  let (tok, _) ← strtok (ascii ",") r
  return { lat, lon, course := UInt16.ofInt (atoi tok), speed }

/-- `GPSInfoToString`. -/
def gpsInfoToString (g : GpsInfo) : Bytes :=
  ascii "\x7b\"lat\":" ++ fmtD 0 (g.lat.toInt.tdiv 1000000) ++ ascii "." ++
    fmtD 4 (g.lat.toInt.tmod 1000000) ++
  ascii ",\"lon\":" ++ fmtD 0 (g.lon.toInt.tdiv 1000000) ++ ascii "." ++
    fmtD 4 (g.lon.toInt.tmod 1000000) ++
  ascii ",\"vel\":" ++ fmtD 0 (g.speed.toNat / 10 : Nat) ++ ascii "." ++
    fmtD 1 (g.speed.toNat % 10 : Nat) ++
  ascii ",\"dir\":" ++ fmtD 0 g.course.toNat ++ ascii "\x7d"

/-! ## Sentences -/

/-- The fields of a `+CGPSINFO` sentence: the integer part of a coordinate is `ddmm` (`dddmm` for
the longitude), the fraction its digits; `date`, `time` and `altitude` are not read. `lead` is the
white space after the colon and `tail` what the buffer holds after the course. -/
structure Sentence where
  lead : Bytes
  latInt : Nat
  latFrac : Bytes
  south : Bool
  lonInt : Nat
  lonFrac : Bytes
  west : Bool
  date : Bytes
  time : Bytes
  altitude : Bytes
  speed : Nat
  speedTenths : Nat
  course : Nat
  tail : Bytes

/-- A field between two commas: not empty, and without a comma. -/
def IsField (f : Bytes) : Prop := f ≠ [] ∧ ∀ c ∈ f, c ≠ 44

instance (f : Bytes) : Decidable (IsField f) := by unfold IsField; infer_instance

/-- A fraction of one to nine digits. -/
def IsFrac (f : Bytes) : Prop := f ≠ [] ∧ f.length ≤ 9 ∧ ∀ c ∈ f, isDigit c = true

/-- The fields are as the modem writes them. -/
structure Sentence.WellFormed (s : Sentence) : Prop where
  lead : ∀ c ∈ s.lead, c = 32
  latInt : s.latInt < 10000
  latFrac : IsFrac s.latFrac
  lonInt : s.lonInt < 100000
  lonFrac : IsFrac s.lonFrac
  date : IsField s.date
  time : IsField s.time
  altitude : IsField s.altitude
  speed : s.speed < 1000
  speedTenths : s.speedTenths < 10
  course : s.course < 360
  tail : (∀ c ∈ s.tail, c ≠ 44) ∧ s.tail.takeWhile isDigit = []

/-- The sentence as the modem sends it, on a line of its own. -/
def Sentence.text (s : Sentence) : Bytes :=
  ascii "\r\n+CGPSINFO" ++ 58 :: (s.lead ++ fmtD 4 s.latInt ++ 46 :: (s.latFrac ++ 44 ::
    ([if s.south then 83 else 78] ++ 44 :: (fmtD 5 s.lonInt ++ 46 :: (s.lonFrac ++ 44 ::
    ([if s.west then 87 else 69] ++ 44 :: (s.date ++ 44 :: (s.time ++ 44 :: (s.altitude ++ 44 ::
    (fmtD 0 s.speed ++ 46 :: (fmtD 0 s.speedTenths ++ 44 ::
    (fmtD 0 s.course ++ s.tail))))))))))))

/-- The stored coordinate: `10000 * int` plus the fraction over 100, negated in the other
hemisphere. -/
def coordinate (neg : Bool) (int : Nat) (frac : Bytes) : Int :=
  let z : Int := (int * 10000 + decVal frac / 100 : Nat)
  if neg then -z else z

/-! ## What `updateGPSInfo` stores -/

theorem decVal_lt_of_isDigit : ∀ {ds : Bytes}, (∀ c ∈ ds, isDigit c = true) →
    decVal ds < 10 ^ ds.length := by
  intro ds
  induction ds using List.reverseRecOn with
  | nil => intro _; simp [decVal]
  | append_singleton ds c ih =>
    intro h
    have hc : c.toNat - 48 < 10 := by
      have := h c (by simp)
      simp only [isDigit, Bool.and_eq_true, decide_eq_true_eq, UInt8.le_iff_toNat_le] at this
      have h57 : (57 : UInt8).toNat = 57 := rfl
      omega
    have hds := ih fun c hc => h c (List.mem_append_left _ hc)
    have hv : decVal [c] = c.toNat - 48 := by simp [decVal]
    rw [decVal_append, hv, List.length_append, List.length_singleton, pow_one, pow_succ]
    omega

theorem IsFrac.decVal_lt {f : Bytes} (h : IsFrac f) : decVal f < 10 ^ 9 :=
  Nat.lt_of_lt_of_le (decVal_lt_of_isDigit h.2.2) (Nat.pow_le_pow_right (by omega) h.2.1)

theorem isDigit_notMem {ds : Bytes} {d : UInt8} (hds : ∀ c ∈ ds, isDigit c = true)
    (hd : isDigit d = false) : ∀ c ∈ ds, c ∉ [d] := by
  intro c hc hm
  rw [List.mem_singleton] at hm
  have := hds c hc
  rw [hm, hd] at this
  exact absurd this (by decide)

/-- A digit field up to its delimiter. -/
theorem strtok_digits {ds rest : Bytes} {d : UInt8} (hne : ds ≠ [])
    (hds : ∀ c ∈ ds, isDigit c = true) (hd : isDigit d = false) :
    strtok [d] (ds ++ d :: rest) = some (ds, rest) :=
  strtok_field hne (isDigit_notMem hds hd) (List.mem_singleton.mpr rfl)

theorem strtok_isField {f rest : Bytes} (h : IsField f) :
    strtok [44] (f ++ 44 :: rest) = some (f, rest) :=
  strtok_field h.1 (fun c hc hm => h.2 c hc (List.mem_singleton.mp hm)) (List.mem_singleton.mpr rfl)

theorem atoi_fmtD (w : Nat) {n : Nat} (h : n ≤ 2147483647) : atoi (fmtD w n) = n := by
  have := @atoi_digits (fmtD w n) [] (fmtD_ne_nil w n) (fun c hc => isDigit_of_mem_fmtD hc) rfl
    (by rw [decVal_fmtD]; exact h)
  rwa [List.append_nil, decVal_fmtD] at this

theorem atoi_isFrac {f : Bytes} (h : IsFrac f) : atoi f = decVal f := by
  have := @atoi_digits f [] h.1 h.2.2 rfl (by have := h.decVal_lt; omega)
  rwa [List.append_nil] at this

/-- The stored coordinate of an unsigned pair of parts. -/
theorem ofInt_coordinate (int : Nat) (frac : Bytes) :
    Int32.ofInt (int : Int) * 10000 + Int32.ofInt ((decVal frac : Int).tdiv 100) =
      Int32.ofInt (coordinate false int frac) := by
  have h1 : (decVal frac : Int).tdiv 100 = ((decVal frac / 100 : Nat) : Int) := by
    rw [Int.tdiv_eq_ediv_of_nonneg (by omega)]; rfl
  have h2 : (10000 : Int32) = Int32.ofInt 10000 := rfl
  rw [h1, h2, ← Int32.ofInt_mul, ← Int32.ofInt_add]
  rfl

/-- The hemisphere letter negates the stored coordinate. -/
theorem hemisphere (c d : UInt8) (hcd : c ≠ d) (neg : Bool) {int : Nat} {frac : Bytes} :
    (if [if neg then c else d].head? = some c then Int32.ofInt (coordinate false int frac) * -1
      else Int32.ofInt (coordinate false int frac)) = Int32.ofInt (coordinate neg int frac) := by
  cases neg with
  | false => simp [hcd.symm]
  | true =>
    have h1 : (-1 : Int32) = Int32.ofInt (-1) := rfl
    simp only [if_true, List.head?_cons, h1, ← Int32.ofInt_mul]
    simp [coordinate]

/-- The part of well-formedness that the separators and the coordinates need: nothing about the
values of the speed and the course. -/
structure Sentence.Separated (s : Sentence) : Prop where
  lead : ∀ c ∈ s.lead, c = 32
  latInt : s.latInt < 10000
  latFrac : IsFrac s.latFrac
  lonInt : s.lonInt < 100000
  lonFrac : IsFrac s.lonFrac
  date : IsField s.date
  time : IsField s.time
  altitude : IsField s.altitude
  tail : ∀ c ∈ s.tail, c ≠ 44

theorem Sentence.WellFormed.separated {s : Sentence} (h : s.WellFormed) : s.Separated :=
  ⟨h.lead, h.latInt, h.latFrac, h.lonInt, h.lonFrac, h.date, h.time, h.altitude, h.tail.1⟩

/-- What the eleven `strtok` steps take out of a sentence. -/
theorem updateGPSInfo_fields {s : Sentence} (h : s.Separated) :
    updateGPSInfo s.text = some
      { lat := Int32.ofInt (coordinate s.south s.latInt s.latFrac)
        lon := Int32.ofInt (coordinate s.west s.lonInt s.lonFrac)
        speed := UInt8.ofInt (atoi (fmtD 0 s.speed) * 10) +
          UInt8.ofInt (atoi (fmtD 0 s.speedTenths))
        course := UInt16.ofInt (atoi (fmtD 0 s.course ++ s.tail)) } := by
  have hcolon : ascii ":" = [58] := rfl
  have hpoint : ascii "." = [46] := rfl
  have hcomma : ascii "," = [44] := rfl
  have hdig : ∀ w n : Nat, ∀ c ∈ fmtD w n, isDigit c = true := fun w n c hc => isDigit_of_mem_fmtD hc
  have hns : ∀ c : UInt8, c ≠ 44 → IsField [c] := fun c hc => ⟨by simp, by simpa using hc⟩
  unfold updateGPSInfo Sentence.text
  simp only [hcolon, hpoint, hcomma, Option.bind_eq_bind]
  have hlead : ∀ c ∈ s.lead ++ fmtD 4 s.latInt, c ∉ ([46] : Bytes) := fun c hc => by
    rcases List.mem_append.mp hc with hc | hc
    · rw [h.lead c hc]; decide +kernel
    · exact isDigit_notMem (hdig _ _) rfl c hc
  rw [strtok_field (by decide) (by decide +kernel) (by decide), Option.bind_some]
  simp only
  rw [strtok_field (by simp [fmtD_ne_nil]) hlead (List.mem_singleton.mpr rfl), Option.bind_some]
  simp only
  rw [strtok_digits h.latFrac.1 h.latFrac.2.2 rfl, Option.bind_some]
  simp only
  rw [strtok_isField (hns _ (by split <;> decide)), Option.bind_some]
  simp only
  rw [strtok_digits (fmtD_ne_nil _ _) (hdig _ _) rfl, Option.bind_some]
  simp only
  rw [strtok_digits h.lonFrac.1 h.lonFrac.2.2 rfl, Option.bind_some]
  simp only
  rw [strtok_isField (hns _ (by split <;> decide)), Option.bind_some]
  simp only
  rw [strtok_isField h.date, Option.bind_some]
  simp only
  rw [strtok_isField h.time, Option.bind_some]
  simp only
  rw [strtok_isField h.altitude, Option.bind_some]
  simp only
  rw [strtok_digits (fmtD_ne_nil _ _) (hdig _ _) rfl, Option.bind_some]
  simp only
  rw [strtok_digits (fmtD_ne_nil _ _) (hdig _ _) rfl, Option.bind_some]
  simp only
  have hcourse : strtok [44] (fmtD 0 s.course ++ s.tail) =
      some (fmtD 0 s.course ++ s.tail, []) := by
    refine strtok_last (by simp [fmtD_ne_nil]) fun c hc => ?_
    rcases List.mem_append.mp hc with hc | hc
    · exact isDigit_notMem (hdig _ _) rfl c hc
    · exact fun hm => h.tail c hc (List.mem_singleton.mp hm)
  rw [hcourse, Option.bind_some]
  have hlat := h.latInt
  have hlon := h.lonInt
  have hblank : ∀ c ∈ s.lead, isBlank c = true := fun c hc => by rw [h.lead c hc]; rfl
  simp only [atoi_append_of_isBlank hblank, atoi_fmtD _ (show s.latInt ≤ 2147483647 by omega),
    atoi_fmtD _ (show s.lonInt ≤ 2147483647 by omega), atoi_isFrac h.latFrac,
    atoi_isFrac h.lonFrac, ofInt_coordinate]
  rw [hemisphere 83 78 (by decide), hemisphere 87 69 (by decide)]
  rfl

/-- **`updateGPSInfo` on a well-formed sentence**: each coordinate to four fractional digits of
the minutes, the speed in tenths and the course, in the widths of the record. -/
theorem updateGPSInfo_text {s : Sentence} (h : s.WellFormed) :
    updateGPSInfo s.text = some
      { lat := Int32.ofInt (coordinate s.south s.latInt s.latFrac)
        lon := Int32.ofInt (coordinate s.west s.lonInt s.lonFrac)
        speed := UInt8.ofInt (s.speed * 10) + UInt8.ofInt s.speedTenths
        course := UInt16.ofInt s.course } := by
  have hspeed := h.speed
  have htenths := h.speedTenths
  have hcourse := h.course
  have hatoi : atoi (fmtD 0 s.course ++ s.tail) = s.course := by
    rw [atoi_digits (fmtD_ne_nil _ _) (fun c hc => isDigit_of_mem_fmtD hc) h.tail.2
      (by rw [decVal_fmtD]; omega), decVal_fmtD]
  rw [updateGPSInfo_fields h.separated, hatoi,
    atoi_fmtD _ (show s.speed ≤ 2147483647 by omega),
    atoi_fmtD _ (show s.speedTenths ≤ 2147483647 by omega)]

end Rastreo.Simcom
