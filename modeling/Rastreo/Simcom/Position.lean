import Rastreo.Simcom.Gps
import Rastreo.Lib.Json
import Mathlib

/-!
# The reported position: from the GPS record to the map

`posicion` is the `POST /posicion` handler of `server.py` on the body `GPSInfoToString` writes: the
numbers `lat`, `lon` and `vel` as the text denotes them and `dir` truncated to an integer. The page
hands `lat` and `lon` to the map as decimal degrees.

* `number_coord`: what a coordinate `%d.%04d` reads back as. It is not a number when the stored
  value is negative with a nonzero remainder (both parts carry the sign), and its fraction has
  four to six digits although the remainder is out of a million.
* `recovers_iff`: the body gives back the stored record exactly when each coordinate is
  `Printable`: a multiple of 1000000, or nonnegative with a six-digit remainder.
* `shown_iff`: a sentence is shown where it says (to 0.0001 minutes) exactly when both its minutes
  are below 0.0001. The minutes are printed as the fraction of a degree.
-/

namespace Rastreo.Simcom

open Rastreo.Lib

/-- `posicion_actual` of the server. -/
structure Posicion where
  lat : ℚ
  lon : ℚ
  vel : ℚ
  dir : Int

/-- `recibir_posicion`: `None` for a missing member or a text that is not JSON is the answer 400.
`float` keeps a number (here exactly), `int` truncates it. -/
def posicion (body : Bytes) : Option Posicion := do
  let data ← Json.object body
  let lat ← data.lookup (ascii "lat")
  let lon ← data.lookup (ascii "lon")
  let dir ← data.lookup (ascii "dir")
  let vel ← data.lookup (ascii "vel")
  return { lat, lon, vel, dir := dir.num.tdiv dir.den }

/-- The number the text of a coordinate denotes, when it is one. -/
def coordVal (x : Int) : ℚ :=
  (x.tdiv 1000000 : ℚ) + (x.tmod 1000000 : ℚ) / 10 ^ (fmtD 4 (x.tmod 1000000)).length

/-- Both parts of the coordinate carry a minus sign, or the integer part has lost it. -/
def SignTwice (x : Int) : Prop := x < 0 ∧ x.tmod 1000000 ≠ 0

instance (x : Int) : Decidable (SignTwice x) := by unfold SignTwice; infer_instance

/-- **A printed coordinate read back.** -/
theorem number_coord (x : Int) {r : Bytes} (hr : Json.Ends r) :
    Json.number (fmtD 0 (x.tdiv 1000000) ++ 46 :: (fmtD 4 (x.tmod 1000000) ++ r)) =
      if SignTwice x then none else some (coordVal x, r) := by
  have hdig : ∀ w n : Nat, ∀ c ∈ fmtD w n, isDigit c = true := fun w n c hc => isDigit_of_mem_fmtD hc
  have hdec : ∀ n : Nat, fmtD 0 n = dec n := fun n => by rw [fmtD_natCast]; simp
  have hneg : ∀ n : Nat, fmtD 0 (-((n + 1 : Nat) : Int)) = 45 :: dec (n + 1) := fun n => by
    unfold fmtD
    rw [if_pos (by omega), Int.natAbs_neg, Int.natAbs_natCast]
    simp
  by_cases hx : 0 ≤ x
  · -- both parts are natural numbers
    obtain ⟨n, rfl⟩ := Int.eq_ofNat_of_zero_le hx
    have hq : (n : Int).tdiv 1000000 = ((n / 1000000 : Nat) : Int) := rfl
    have hm : (n : Int).tmod 1000000 = ((n % 1000000 : Nat) : Int) := rfl
    rw [if_neg (by unfold SignTwice; omega), hq, hm, hdec, Json.number_dec_append,
      Json.unsigned_decimal _ (fmtD_ne_nil _ _) (hdig _ _) hr, decVal_fmtD]
    unfold coordVal
    rw [hq, hm]
    push_cast
    rfl
  · obtain ⟨n, rfl⟩ : ∃ n : Nat, x = -(n : Int) := ⟨x.natAbs, by omega⟩
    have hq : (-(n : Int)).tdiv 1000000 = -((n / 1000000 : Nat) : Int) := by
      rw [Int.neg_tdiv]; rfl
    have hm : (-(n : Int)).tmod 1000000 = -((n % 1000000 : Nat) : Int) := by
      rw [Int.neg_tmod]; rfl
    by_cases hn : n % 1000000 = 0
    · -- a whole number of degrees: the integer part alone carries the sign
      obtain ⟨k, hk⟩ : ∃ k, n / 1000000 = k + 1 := ⟨n / 1000000 - 1, by omega⟩
      have h0 : fmtD 4 (-((n % 1000000 : Nat) : Int)) = fmtD 4 ((0 : Nat) : Int) := by rw [hn]; rfl
      rw [if_neg (by unfold SignTwice; rw [hm, hn]; simp), hq, hm, h0, hk, hneg, List.cons_append]
      simp only [Json.number]
      rw [Json.unsigned_decimal _ (fmtD_ne_nil _ _) (hdig _ _) hr, decVal_fmtD]
      unfold coordVal
      rw [hq, hm, hn, hk]
      simp
    · -- the fraction starts with the sign
      obtain ⟨k, hk⟩ : ∃ k, n % 1000000 = k + 1 := ⟨n % 1000000 - 1, by omega⟩
      have h4 : ∃ t, fmtD 4 (-((n % 1000000 : Nat) : Int)) = 45 :: t := by
        unfold fmtD
        rw [if_pos (by omega)]
        exact ⟨_, rfl⟩
      obtain ⟨t, ht⟩ := h4
      rw [if_pos (by unfold SignTwice; rw [hm]; omega), hq, hm, ht, List.cons_append]
      by_cases hz : n / 1000000 = 0
      · rw [hz, Nat.cast_zero, neg_zero, ← Nat.cast_zero (R := Int), hdec, Json.number_dec_append,
          Json.unsigned_point_neg]
      · obtain ⟨j, hj⟩ : ∃ j, n / 1000000 = j + 1 := ⟨n / 1000000 - 1, by omega⟩
        rw [hj, hneg, List.cons_append]
        simp only [Json.number]
        rw [Json.unsigned_point_neg]
        rfl

/-! ## The whole body -/

/-- The speed in tenths, printed with one decimal, is its value. -/
theorem number_vel (n : Nat) {r : Bytes} (hr : Json.Ends r) :
    Json.number (fmtD 0 ((n / 10 : Nat) : Int) ++ 46 :: (fmtD 1 ((n % 10 : Nat) : Int) ++ r)) =
      some ((n : ℚ) / 10, r) := by
  have hlen : (fmtD 1 ((n % 10 : Nat) : Int)).length = 1 := by
    have h1 : (dec (n % 10)).length ≤ 1 := (dec_length_le_iff (by omega)).mpr (by omega)
    rw [fmtD_length]
    omega
  have hn : (n : ℚ) = 10 * (n / 10 : Nat) + (n % 10 : Nat) := by
    exact_mod_cast (Nat.div_add_mod n 10).symm
  rw [show fmtD 0 ((n / 10 : Nat) : Int) = dec (n / 10) by rw [fmtD_natCast]; simp,
    Json.number_dec_append, Json.unsigned_decimal _ (fmtD_ne_nil _ _)
      (fun c hc => isDigit_of_mem_fmtD hc) hr, decVal_fmtD, hlen]
  refine congrArg (fun q => some (q, r)) ?_
  rw [hn, pow_one]
  ring

/-- **The members of the body** `GPSInfoToString` writes. -/
theorem object_gpsInfoToString (g : GpsInfo) :
    Json.object (gpsInfoToString g) =
      if SignTwice g.lat.toInt ∨ SignTwice g.lon.toInt then none
      else some [(ascii "lat", coordVal g.lat.toInt), (ascii "lon", coordVal g.lon.toInt),
        (ascii "vel", g.speed.toNat / 10), (ascii "dir", g.course.toNat)] := by
  have hcomma : ∀ r : Bytes, Json.Ends (44 :: r) := fun r =>
    ⟨by simp [isDigit], by simp, by simp⟩
  have hbrace : Json.Ends [125] := ⟨by simp [isDigit], by simp, by simp⟩
  have hkey : ∀ k ∈ [ascii "lat", ascii "lon", ascii "vel", ascii "dir"],
      ∀ c ∈ k, c ≠ 34 ∧ c ≠ 92 := by decide +kernel
  have hkeys := List.forall_mem_cons.mp hkey
  have hkeys' := List.forall_mem_cons.mp hkeys.2
  have hkeys'' := List.forall_mem_cons.mp hkeys'.2
  have htext : gpsInfoToString g = 123 :: 34 :: (ascii "lat" ++ 34 :: 58 ::
      (fmtD 0 (g.lat.toInt.tdiv 1000000) ++ 46 :: (fmtD 4 (g.lat.toInt.tmod 1000000) ++
      44 :: 34 :: (ascii "lon" ++ 34 :: 58 ::
      (fmtD 0 (g.lon.toInt.tdiv 1000000) ++ 46 :: (fmtD 4 (g.lon.toInt.tmod 1000000) ++
      44 :: 34 :: (ascii "vel" ++ 34 :: 58 ::
      (fmtD 0 ((g.speed.toNat / 10 : Nat) : Int) ++ 46 ::
      (fmtD 1 ((g.speed.toNat % 10 : Nat) : Int) ++
      44 :: 34 :: (ascii "dir" ++ 34 :: 58 ::
      (fmtD 0 (g.course.toNat : Int) ++ [125]))))))))))) := by
    simp [gpsInfoToString, ascii]
  have hdir : Json.number (fmtD 0 (g.course.toNat : Int) ++ [125]) =
      some ((g.course.toNat : ℚ), [125]) := by
    rw [show fmtD 0 (g.course.toNat : Int) = dec g.course.toNat by rw [fmtD_natCast]; simp,
      Json.number_dec_append, Json.unsigned_dec _ hbrace]
  have hlen : ∃ n, (gpsInfoToString g).tail.length = n + 1 + 1 + 1 + 1 := by
    refine ⟨(gpsInfoToString g).tail.length - 4, ?_⟩
    rw [htext]
    simp only [List.tail_cons, List.length_cons, List.length_append]
    omega
  obtain ⟨n, hn⟩ := hlen
  have hobj : Json.object (gpsInfoToString g) =
      Json.members (n + 1 + 1 + 1 + 1) (gpsInfoToString g).tail := by
    rw [← hn, htext]
    rfl
  rw [hobj, htext, List.tail_cons]
  by_cases hlat : SignTwice g.lat.toInt
  · rw [if_pos (.inl hlat), Json.members_none hkeys.1]
    rw [number_coord _ (hcomma _), if_pos hlat]
  · rw [Json.members_cons hkeys.1 (by rw [number_coord _ (hcomma _), if_neg hlat])]
    by_cases hlon : SignTwice g.lon.toInt
    · rw [if_pos (.inr hlon), Json.members_none hkeys'.1]
      · rfl
      · rw [number_coord _ (hcomma _), if_pos hlon]
    · rw [if_neg (fun h => h.elim hlat hlon),
        Json.members_cons hkeys'.1 (by rw [number_coord _ (hcomma _), if_neg hlon]),
        Json.members_cons hkeys''.1 (number_vel _ (hcomma _)),
        Json.members_last (List.forall_mem_cons.mp hkeys''.2).1 hdir]
      rfl

/-- What the handler stores. -/
theorem posicion_gpsInfoToString (g : GpsInfo) :
    posicion (gpsInfoToString g) =
      if SignTwice g.lat.toInt ∨ SignTwice g.lon.toInt then none
      else some
        { lat := coordVal g.lat.toInt
          lon := coordVal g.lon.toInt
          vel := g.speed.toNat / 10
          dir := g.course.toNat } := by
  unfold posicion
  rw [object_gpsInfoToString]
  split
  · rfl
  · have h1 : ((ascii "lon" == ascii "lat") = false) := by decide
    have h2 : ((ascii "dir" == ascii "lat") = false) := by decide
    have h3 : ((ascii "dir" == ascii "lon") = false) := by decide
    have h4 : ((ascii "dir" == ascii "vel") = false) := by decide
    have h5 : ((ascii "vel" == ascii "lat") = false) := by decide
    have h6 : ((ascii "vel" == ascii "lon") = false) := by decide
    simp only [List.lookup, h1, h2, h3, h4, h5, h6, beq_self_eq_true, Option.bind_eq_bind,
      Option.bind_some, Rat.num_natCast, Rat.den_natCast]
    simp

/-! ## The record comes back -/

/-- The digits the remainder is printed with. -/
theorem fmtD_four_length {m : Nat} (hm : m < 1000000) :
    (fmtD 4 (m : Int)).length = if m < 10000 then 4 else if m < 100000 then 5 else 6 := by
  have h4 := @dec_length_le_iff m 4 (by omega)
  have h5 := @dec_length_le_iff m 5 (by omega)
  have h6 := @dec_length_le_iff m 6 (by omega)
  rw [fmtD_length]
  split
  · omega
  · split <;> omega

/-- A nonnegative coordinate. -/
theorem coordVal_natCast (q : Nat) {m : Nat} (hm : m < 1000000) :
    coordVal ((q * 1000000 + m : Nat) : Int) =
      q + m / 10 ^ (if m < 10000 then 4 else if m < 100000 then 5 else 6) := by
  have hq : ((q * 1000000 + m : Nat) : Int).tdiv 1000000 = (q : Int) := by
    rw [Int.tdiv_eq_ediv_of_nonneg (by omega)]
    omega
  have hr : ((q * 1000000 + m : Nat) : Int).tmod 1000000 = (m : Int) := by
    rw [Int.tmod_eq_emod_of_nonneg (by omega)]
    omega
  unfold coordVal
  rw [hq, hr, fmtD_four_length hm]
  push_cast
  rfl

/-- A negative coordinate that is a whole number of degrees. -/
theorem coordVal_neg_whole (q : Nat) : coordVal (-((q * 1000000 : Nat) : Int)) = -(q : ℚ) := by
  have hq : (-((q * 1000000 : Nat) : Int)).tdiv 1000000 = -(q : Int) := by
    rw [Int.neg_tdiv, Int.tdiv_eq_ediv_of_nonneg (by omega)]
    omega
  have hr : (-((q * 1000000 : Nat) : Int)).tmod 1000000 = 0 := by
    rw [Int.neg_tmod, Int.tmod_eq_emod_of_nonneg (by omega)]
    omega
  unfold coordVal
  rw [hq, hr]
  simp

/-- The coordinates the body keeps: whole degrees, and nonnegative ones whose remainder fills the
six digits its unit needs. -/
def Printable (x : Int) : Prop := x % 1000000 = 0 ∨ 0 ≤ x ∧ 100000 ≤ x % 1000000

instance (x : Int) : Decidable (Printable x) := by unfold Printable; infer_instance

theorem coordVal_iff (x : Int) :
    (¬ SignTwice x ∧ coordVal x * 1000000 = x) ↔ Printable x := by
  by_cases hx : 0 ≤ x
  · obtain ⟨n, rfl⟩ := Int.eq_ofNat_of_zero_le hx
    have hm : n % 1000000 < 1000000 := Nat.mod_lt _ (by omega)
    have hsplit : n = n / 1000000 * 1000000 + n % 1000000 := (Nat.div_add_mod' n 1000000).symm
    have hval := coordVal_natCast (n / 1000000) hm
    rw [← hsplit] at hval
    have hcast : ((n : Int) : ℚ) = (n / 1000000 : Nat) * 1000000 + (n % 1000000 : Nat) := by
      rw [Int.cast_natCast]
      exact_mod_cast congrArg (Nat.cast (R := ℚ)) hsplit
    have hmem : (n : Int) % 1000000 = ((n % 1000000 : Nat) : Int) := rfl
    have hsign : ¬ SignTwice (n : Int) := by unfold SignTwice; omega
    unfold Printable
    rw [hval, hcast, hmem]
    generalize n % 1000000 = m at *
    by_cases h4 : m < 10000
    · -- printed out of 10000
      rw [if_pos h4]
      constructor
      · rintro ⟨-, h⟩
        have : (m : ℚ) = 0 := by linarith
        have : m = 0 := by exact_mod_cast this
        omega
      · intro h
        obtain rfl : m = 0 := by omega
        exact ⟨hsign, by simp⟩
    · by_cases h5 : m < 100000
      · -- printed out of 100000
        rw [if_neg h4, if_pos h5]
        constructor
        · rintro ⟨-, h⟩
          have : (m : ℚ) = 0 := by linarith
          have : m = 0 := by exact_mod_cast this
          omega
        · intro h
          omega
      · rw [if_neg h4, if_neg h5]
        refine ⟨fun _ => .inr ⟨hx, by omega⟩, fun _ => ⟨hsign, by ring⟩⟩
  · obtain ⟨n, rfl⟩ : ∃ n : Nat, x = -(n : Int) := ⟨x.natAbs, by omega⟩
    have hr : (-(n : Int)).tmod 1000000 = -((n % 1000000 : Nat) : Int) := by
      rw [Int.neg_tmod]; rfl
    unfold Printable SignTwice
    rw [hr]
    constructor
    · rintro ⟨h, -⟩
      omega
    · intro h
      obtain ⟨q, rfl⟩ : ∃ q, n = q * 1000000 := ⟨n / 1000000, by omega⟩
      refine ⟨by omega, ?_⟩
      rw [coordVal_neg_whole]
      push_cast
      ring

/-- The server recovers the record from the body: the numbers are the stored ones in their
units. -/
def Recovers (g : GpsInfo) : Prop :=
  ∃ p, posicion (gpsInfoToString g) = some p ∧ p.lat * 1000000 = g.lat.toInt ∧
    p.lon * 1000000 = g.lon.toInt ∧ p.vel * 10 = g.speed.toNat ∧ p.dir = g.course.toNat

/-- **The body gives the record back** exactly when both coordinates are printable. -/
theorem recovers_iff (g : GpsInfo) :
    Recovers g ↔ Printable g.lat.toInt ∧ Printable g.lon.toInt := by
  unfold Recovers
  rw [posicion_gpsInfoToString, ← coordVal_iff, ← coordVal_iff]
  split
  · rename_i h
    constructor
    · rintro ⟨p, hp, -⟩
      exact absurd hp (by simp)
    · rintro ⟨h1, h2⟩
      exact absurd h (not_or.mpr ⟨h1.1, h2.1⟩)
  · rename_i h
    rw [not_or] at h
    constructor
    · rintro ⟨p, hp, hlat, hlon, -⟩
      obtain rfl := Option.some.inj hp
      exact ⟨⟨h.1, hlat⟩, h.2, hlon⟩
    · rintro ⟨⟨-, hlat⟩, -, hlon⟩
      exact ⟨_, rfl, hlat, hlon, by ring, rfl⟩


/-- A record the modem's own example sentence leads to, south of the equator, does not come
back. -/
theorem exists_not_recovers : ∃ (info : Bytes) (g : GpsInfo),
    updateGPSInfo info = some g ∧ ¬ Recovers g := by
  refine ⟨ascii "+CGPSINFO:3113.343286,S,12121.234064,E,250311,072809.3,44.1,0.0,0\r\n",
    ⟨-31133432, 121212340, 0, 0⟩, by decide, ?_⟩
  rintro ⟨p, hp, -⟩
  rw [posicion_gpsInfoToString, if_pos (by decide)] at hp
  exact absurd hp (by simp)

/-! ## The sentence's position -/

/-- A coordinate of a sentence, in whole degrees up to `bound`, minutes and millionths of a
minute. -/
structure Angle (bound : Nat) where
  neg : Bool
  deg : Nat
  min : Nat
  micro : Nat
  deg_le : deg ≤ bound
  min_lt : min < 60
  micro_lt : micro < 1000000

variable {b : Nat}

/-- The decimal degrees the coordinate denotes. -/
def Angle.degrees (a : Angle b) : ℚ :=
  let d : ℚ := a.deg + (a.min + a.micro / 1000000) / 60
  if a.neg then -d else d

/-- The coordinate the record stores for it. -/
def Angle.stored (a : Angle b) : Int := coordinate a.neg (a.deg * 100 + a.min) (fmtD 6 a.micro)

/-- The sentence carries the two coordinates, each fraction with six digits. -/
structure Sentence.Reads (s : Sentence) (lat : Angle 90) (lon : Angle 180) : Prop where
  wellFormed : s.WellFormed
  latInt : s.latInt = lat.deg * 100 + lat.min
  latFrac : s.latFrac = fmtD 6 lat.micro
  south : s.south = lat.neg
  lonInt : s.lonInt = lon.deg * 100 + lon.min
  lonFrac : s.lonFrac = fmtD 6 lon.micro
  west : s.west = lon.neg

/-- The number printed for the coordinate denotes it to 0.0001 minutes. -/
def Near (q : ℚ) (a : Angle b) : Prop := |q - a.degrees| ≤ 1 / 600000

/-- What the map is given for the sentence is where the sentence says. -/
def Shown (s : Sentence) (lat : Angle 90) (lon : Angle 180) : Prop :=
  ∃ g p, updateGPSInfo s.text = some g ∧ posicion (gpsInfoToString g) = some p ∧
    Near p.lat lat ∧ Near p.lon lon

/-- The remainder a million printed for the coordinate. -/
def Angle.rest (a : Angle b) : Nat := a.min * 10000 + a.micro / 100

theorem Angle.rest_lt (a : Angle b) : a.rest < 1000000 := by
  have hm := a.min_lt
  have hu := a.micro_lt
  unfold rest
  omega

theorem Angle.stored_eq (a : Angle b) : a.stored =
    if a.neg then -((a.deg * 1000000 + a.rest : Nat) : Int)
    else ((a.deg * 1000000 + a.rest : Nat) : Int) := by
  have h : (a.deg * 100 + a.min) * 10000 + a.micro / 100 = a.deg * 1000000 + a.rest := by
    unfold rest
    ring
  unfold stored coordinate
  rw [decVal_fmtD, h]

/-- A coordinate of at most 180 degrees fits the 32-bit field. -/
theorem Angle.toInt_ofInt_stored (a : Angle b) (hb : b ≤ 180) :
    (Int32.ofInt a.stored).toInt = a.stored := by
  have hd := a.deg_le
  have hr := a.rest_lt
  rw [Angle.stored_eq]
  refine Int32.toInt_ofInt_of_le ?_ ?_ <;> split <;> omega

/-- The whole degrees alone are near the angle exactly when its minutes are below 0.0001. -/
theorem near_whole {a : Angle b} (h : a.rest = 0) :
    Near (if a.neg then -(a.deg : ℚ) else a.deg) a := by
  have hm : a.min = 0 := by unfold Angle.rest at h; omega
  have hu : (a.micro : ℚ) ≤ 99 := by
    exact_mod_cast (by unfold Angle.rest at h; omega : a.micro ≤ 99)
  have h0 : (0 : ℚ) ≤ a.micro := Nat.cast_nonneg _
  unfold Near Angle.degrees
  simp only [hm, Nat.cast_zero]
  split
  · rw [abs_le]
    constructor <;> linarith
  · rw [abs_le]
    constructor <;> linarith

/-- A nonzero remainder is read as a fraction of a degree, too far from the minutes it stands
for. -/
theorem not_near_fraction {a : Angle b} (hneg : a.neg = false) (h : a.rest ≠ 0) :
    ¬ Near (a.deg + a.rest / 10 ^ (if a.rest < 10000 then 4 else if a.rest < 100000 then 5 else 6)) a := by
  have hm := a.min_lt
  have hu := a.micro_lt
  have hrest : (a.rest : ℚ) = a.min * 10000 + (a.micro / 100 : Nat) := by
    unfold Angle.rest
    push_cast
    rfl
  have hfloor : ((a.micro / 100 : Nat) : ℚ) * 100 ≤ a.micro := by
    exact_mod_cast Nat.div_mul_le_self a.micro 100
  have hceil : (a.micro : ℚ) ≤ (a.micro / 100 : Nat) * 100 + 99 := by
    exact_mod_cast (by omega : a.micro ≤ a.micro / 100 * 100 + 99)
  have hu' : (a.micro : ℚ) ≤ 999999 := by exact_mod_cast (by omega : a.micro ≤ 999999)
  unfold Near Angle.degrees
  simp only [hneg, Bool.false_eq_true, if_false]
  intro hnear
  have hle := (abs_le.mp hnear).1
  have hge := (abs_le.mp hnear).2
  by_cases hmin : a.min = 0
  · -- four digits: the hundredths of a minute printed as ten-thousandths of a degree
    have h4 : a.rest < 10000 := by unfold Angle.rest; omega
    have hpos : (1 : ℚ) ≤ (a.micro / 100 : Nat) := by
      exact_mod_cast (by unfold Angle.rest at h; omega : 1 ≤ a.micro / 100)
    rw [if_pos h4, hrest, hmin] at hge
    norm_num at hge
    linarith
  · have h4 : ¬ a.rest < 10000 := by unfold Angle.rest; omega
    have hpos : (1 : ℚ) ≤ a.min := by exact_mod_cast (by omega : 1 ≤ a.min)
    rw [if_neg h4, hrest] at hle hge
    by_cases h5 : a.rest < 100000
    · rw [if_pos h5] at hle hge
      linarith
    · rw [if_neg h5] at hle hge
      linarith

/-- **One coordinate**: it is printed as a number near the angle exactly when its minutes are below
0.0001. -/
theorem near_stored_iff (a : Angle b) :
    (¬ SignTwice a.stored ∧ Near (coordVal a.stored) a) ↔ a.min = 0 ∧ a.micro < 100 := by
  have hrest : (a.min = 0 ∧ a.micro < 100) ↔ a.rest = 0 := by
    unfold Angle.rest
    omega
  have hlt := a.rest_lt
  rw [hrest, Angle.stored_eq]
  by_cases hneg : a.neg = true
  · rw [if_pos hneg]
    have hmod : (-((a.deg * 1000000 + a.rest : Nat) : Int)).tmod 1000000 = -(a.rest : Int) := by
      rw [Int.neg_tmod, Int.tmod_eq_emod_of_nonneg (by omega)]
      omega
    constructor
    · rintro ⟨hs, -⟩
      unfold SignTwice at hs
      rw [hmod] at hs
      omega
    · intro h
      have hnear := near_whole h
      rw [if_pos hneg] at hnear
      refine ⟨fun hs => hs.2 (by rw [hmod, h]; rfl), ?_⟩
      rwa [h, Nat.add_zero, coordVal_neg_whole]
  · rw [if_neg hneg, coordVal_natCast _ hlt]
    have hs : ¬ SignTwice ((a.deg * 1000000 + a.rest : Nat) : Int) := by
      unfold SignTwice
      omega
    constructor
    · rintro ⟨-, hnear⟩
      by_contra h
      exact not_near_fraction (by simpa using hneg) h hnear
    · intro h
      have hnear := near_whole h
      rw [if_neg hneg] at hnear
      refine ⟨hs, ?_⟩
      simpa [h] using hnear

/-! ## From the sentence to the map -/

theorem Sentence.Reads.updateGPSInfo {s : Sentence} {lat : Angle 90} {lon : Angle 180}
    (h : s.Reads lat lon) : ∃ g, updateGPSInfo s.text = some g ∧
      g.lat.toInt = lat.stored ∧ g.lon.toInt = lon.stored := by
  refine ⟨_, updateGPSInfo_text h.wellFormed, ?_, ?_⟩
  · simp only [h.latInt, h.latFrac, h.south]
    exact lat.toInt_ofInt_stored (by omega)
  · simp only [h.lonInt, h.lonFrac, h.west]
    exact lon.toInt_ofInt_stored (by omega)

/-- **A sentence is shown where it says** exactly when the minutes of both coordinates are below
0.0001. -/
theorem shown_iff {s : Sentence} {lat : Angle 90} {lon : Angle 180} (h : s.Reads lat lon) :
    Shown s lat lon ↔ (lat.min = 0 ∧ lat.micro < 100) ∧ lon.min = 0 ∧ lon.micro < 100 := by
  obtain ⟨g, hg, hlat, hlon⟩ := h.updateGPSInfo
  rw [← near_stored_iff lat, ← near_stored_iff lon]
  constructor
  · rintro ⟨g', p, hg', hp, hnlat, hnlon⟩
    obtain rfl := Option.some.inj (hg.symm.trans hg')
    rw [posicion_gpsInfoToString, hlat, hlon] at hp
    split at hp
    · exact absurd hp (by simp)
    · rename_i hs
      rw [not_or] at hs
      obtain rfl := Option.some.inj hp
      exact ⟨⟨hs.1, hnlat⟩, hs.2, hnlon⟩
  · rintro ⟨⟨hslat, hnlat⟩, hslon, hnlon⟩
    have hp := posicion_gpsInfoToString g
    rw [hlat, hlon, if_neg (not_or.mpr ⟨hslat, hslon⟩)] at hp
    exact ⟨g, _, hg, hp, hnlat, hnlon⟩

/-- A sentence with the given coordinates and a fixed rest. -/
def sentenceAt (lat : Angle 90) (lon : Angle 180) : Sentence where
  lead := ascii " "
  latInt := lat.deg * 100 + lat.min
  latFrac := fmtD 6 lat.micro
  south := lat.neg
  lonInt := lon.deg * 100 + lon.min
  lonFrac := fmtD 6 lon.micro
  west := lon.neg
  date := ascii "250311"
  time := ascii "072809.3"
  altitude := ascii "44.1"
  speed := 0
  speedTenths := 0
  course := 0
  tail := ascii "\r\n"

theorem isFrac_fmtD {n : Nat} (h : n < 1000000) : IsFrac (fmtD 6 n) := by
  have hlen := (@dec_length_le_iff n 6 (by omega)).mpr (by omega)
  refine ⟨fmtD_ne_nil _ _, ?_, fun c hc => isDigit_of_mem_fmtD hc⟩
  rw [fmtD_length]
  omega

theorem reads_sentenceAt (lat : Angle 90) (lon : Angle 180) :
    (sentenceAt lat lon).Reads lat lon where
  wellFormed :=
    { lead := (by decide +kernel : ∀ c ∈ ascii " ", c = 32)
      latInt := by have := lat.deg_le; have := lat.min_lt; simp only [sentenceAt]; omega
      latFrac := isFrac_fmtD lat.micro_lt
      lonInt := by have := lon.deg_le; have := lon.min_lt; simp only [sentenceAt]; omega
      lonFrac := isFrac_fmtD lon.micro_lt
      date := (by decide +kernel : IsField (ascii "250311"))
      time := (by decide +kernel : IsField (ascii "072809.3"))
      altitude := (by decide +kernel : IsField (ascii "44.1"))
      speed := (by omega : 0 < 1000)
      speedTenths := (by omega : 0 < 10)
      course := (by omega : 0 < 360)
      tail := ⟨(by decide +kernel : ∀ c ∈ ascii "\r\n", c ≠ 44), rfl⟩ }
  latInt := rfl
  latFrac := rfl
  south := rfl
  lonInt := rfl
  lonFrac := rfl
  west := rfl

/-- On a whole degree north and west the map shows the sentence's place. -/
theorem shown_whole_degrees :
    Shown (sentenceAt ⟨false, 37, 0, 40, by decide, by decide, by decide⟩
        ⟨true, 6, 0, 0, by decide, by decide, by decide⟩)
      ⟨false, 37, 0, 40, by decide, by decide, by decide⟩
      ⟨true, 6, 0, 0, by decide, by decide, by decide⟩ :=
  (shown_iff (reads_sentenceAt _ _)).mpr (by decide)

/-- 31°13.343286' N 121°21.234064' E is shown elsewhere. -/
theorem not_shown_minutes :
    ¬ Shown (sentenceAt ⟨false, 31, 13, 343286, by decide, by decide, by decide⟩
        ⟨false, 121, 21, 234064, by decide, by decide, by decide⟩)
      ⟨false, 31, 13, 343286, by decide, by decide, by decide⟩
      ⟨false, 121, 21, 234064, by decide, by decide, by decide⟩ := by
  rintro ⟨g, p, hg, hp, hnear, -⟩
  obtain ⟨g', hg', hlat, -⟩ := (reads_sentenceAt _ _).updateGPSInfo
  obtain rfl := Option.some.inj (hg.symm.trans hg')
  rw [posicion_gpsInfoToString, hlat] at hp
  split at hp
  · exact absurd hp (by simp)
  · rename_i hs
    obtain rfl := Option.some.inj hp
    have := (near_stored_iff _).mp ⟨fun h => hs (.inl h), hnear⟩
    exact absurd this.1 (by decide)

end Rastreo.Simcom
