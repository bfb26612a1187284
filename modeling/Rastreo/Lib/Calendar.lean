import Mathlib

/-!
# Calendar time

Seconds since 1970-01-01 and the date they fall on, in UTC and in the Gregorian calendar.

* `countOff`: a number counted off by periods of different lengths; `start` undoes it, and there is
  one way to do so (`countOff_start`).
* `gmtime`, `mktime`: a year is a year of an era of 400 and a number of eras, each of 146097 days.
* `mktime_gmtime`, `gmtime_mktime`: the two are inverse on the dates of the calendar (`Tm.Valid`).
* `yearOf_bounds`, `lastSunday_spec`: a date is in its year, and the last Sunday of a month.
-/

namespace Rastreo.Lib

/-! ## Counting off -/

/-- What is before the period `k`. -/
def start (len : Nat → Nat) : Nat → Nat
  | 0 => 0
  | k + 1 => start len k + len k

/-- `d` counted off by the periods from `k` on, `n` of them at most: the period it falls into and
what is left. -/
def countOff (len : Nat → Nat) : Nat → Nat → Nat → Nat × Nat
  | 0, k, d => (k, d)
  | n + 1, k, d => if d < len k then (k, d) else countOff len n (k + 1) (d - len k)

section CountOff

variable {len : Nat → Nat}

theorem start_mono {i j : Nat} (h : i ≤ j) : start len i ≤ start len j := by
  induction h with
  | refl => exact Nat.le_refl _
  | step _ ih => exact ih.trans (Nat.le_add_right _ _)

/-- Nothing is lost. -/
theorem start_countOff (n k d : Nat) :
    start len (countOff len n k d).1 + (countOff len n k d).2 = start len k + d := by
  induction n generalizing k d with
  | zero => rfl
  | succ n ih =>
    unfold countOff
    split
    · rfl
    · rename_i h
      rw [ih]
      simp only [start]
      omega

/-- What is left falls into the period. -/
theorem countOff_lt {n k d : Nat} (h : start len k + d < start len (k + n)) :
    (countOff len n k d).1 < k + n ∧ (countOff len n k d).2 < len (countOff len n k d).1 := by
  induction n generalizing k d with
  | zero =>
    rw [Nat.add_zero] at h
    omega
  | succ n ih =>
    unfold countOff
    split
    · rename_i hd
      exact ⟨by simp, hd⟩
    · rename_i hd
      have hk : k + (n + 1) = k + 1 + n := by omega
      rw [hk] at h ⊢
      have hrest : start len (k + 1) + (d - len k) = start len k + d := by
        rw [start]
        omega
      exact ih (hrest ▸ h)

/-- There is one way to count off. -/
theorem start_inj {i j r s : Nat} (hr : r < len i) (hs : s < len j)
    (h : start len i + r = start len j + s) : i = j ∧ r = s := by
  have hij : i = j := by
    rcases Nat.lt_trichotomy i j with hlt | heq | hgt
    · have hnext : start len (i + 1) ≤ start len j := start_mono hlt
      simp only [start] at hnext
      omega
    · exact heq
    · have hnext : start len (j + 1) ≤ start len i := start_mono hgt
      simp only [start] at hnext
      omega
  subst hij
  exact ⟨rfl, by omega⟩

theorem countOff_start {n k r : Nat} (hk : k < n) (hr : r < len k) :
    countOff len n 0 (start len k + r) = (k, r) := by
  have hbound : start len 0 + (start len k + r) < start len (0 + n) := by
    have hnext : start len (k + 1) ≤ start len n := start_mono hk
    simp only [start, Nat.zero_add] at hnext ⊢
    omega
  obtain ⟨-, hlt⟩ := countOff_lt hbound
  have hsame := @start_countOff len n 0 (start len k + r)
  rw [start, Nat.zero_add] at hsame
  obtain ⟨h₁, h₂⟩ := start_inj hlt hr hsame
  exact Prod.ext h₁ h₂

end CountOff

/-! ## Years and months -/

/-- A year of 366 days. -/
def Leap (y : Nat) : Prop := y % 4 = 0 ∧ (y % 100 ≠ 0 ∨ y % 400 = 0)

instance decidableLeap (y : Nat) : Decidable (Leap y) :=
  inferInstanceAs (Decidable (_ ∧ _))

/-- The days of a year. -/
def yearDays (y : Nat) : Nat := if Leap y then 366 else 365

/-- The days of a month, counted from 0. -/
def monthDays (y m : Nat) : Nat :=
  match m with
  | 1 => if Leap y then 29 else 28
  | 3 | 5 | 8 | 10 => 30
  | _ => 31

/-- The days before a year. -/
theorem start_yearDays (y : Nat) :
    start yearDays y + (y + 99) / 100 = 365 * y + (y + 3) / 4 + (y + 399) / 400 := by
  induction y with
  | zero => rfl
  | succ y ih =>
    by_cases h : Leap y
    · have hy : yearDays y = 366 := if_pos h
      rw [start, hy]
      unfold Leap at h
      omega
    · have hy : yearDays y = 365 := if_neg h
      rw [start, hy]
      unfold Leap at h
      omega

theorem start_monthDays (y : Nat) : start (monthDays y) 12 = yearDays y := by
  simp only [start, monthDays, yearDays]
  split <;> omega

theorem monthDays_le (y m : Nat) : monthDays y m ≤ 31 := by
  unfold monthDays
  split
  · split <;> omega
  all_goals omega

/-! ## Broken-down time -/

/-- `struct tm`. -/
structure Tm where
  tmSec : Int
  tmMin : Int
  tmHour : Int
  tmMday : Int
  tmMon : Int
  tmYear : Int
  tmWday : Int
  tmYday : Int
  tmIsdst : Int
  deriving DecidableEq, Repr

/-- Days of the 400 years of an era. -/
def eraDays : Nat := 146097

/-- Days from the start of the era of year 0 to 1970-01-01. -/
def epochDays : Int := 719528

/-- Days from 1970-01-01 to a date; the month may be any number. -/
def dayNumber (year mon mday : Int) : Int :=
  let year := year + mon / 12
  let y := (year % 400).toNat
  year / 400 * eraDays + start yearDays y + start (monthDays y) (mon % 12).toNat + mday - 1 -
    epochDays

/-- `mktime` in UTC. -/
def mktime (t : Tm) : Int :=
  dayNumber (t.tmYear + 1900) t.tmMon t.tmMday * 86400 + t.tmHour * 3600 + t.tmMin * 60 + t.tmSec

/-- `gmtime_r`. -/
def gmtime (ts : Int) : Tm :=
  let day := ts / 86400 + epochDays
  let y := countOff yearDays 400 0 (day % eraDays).toNat
  let m := countOff (monthDays y.1) 12 0 y.2
  { tmSec := ts % 86400 % 60
    tmMin := ts % 86400 / 60 % 60
    tmHour := ts % 86400 / 3600
    tmMday := m.2 + 1
    tmMon := m.1
    tmYear := day / eraDays * 400 + y.1 - 1900
    tmWday := (ts / 86400 + 4) % 7
    tmYday := y.2
    tmIsdst := 0 }

/-- A date of the calendar and a time of the day. -/
structure Tm.Valid (t : Tm) : Prop where
  sec : 0 ≤ t.tmSec ∧ t.tmSec ≤ 59
  min : 0 ≤ t.tmMin ∧ t.tmMin ≤ 59
  hour : 0 ≤ t.tmHour ∧ t.tmHour ≤ 23
  mon : 0 ≤ t.tmMon ∧ t.tmMon ≤ 11
  mday : 1 ≤ t.tmMday ∧
    t.tmMday ≤ monthDays ((t.tmYear + 1900) % 400).toNat t.tmMon.toNat
  wday : t.tmWday = (dayNumber (t.tmYear + 1900) t.tmMon t.tmMday + 4) % 7

/-- The same second of the same day, with its weekday. -/
structure Tm.Same (t u : Tm) : Prop where
  sec : t.tmSec = u.tmSec
  min : t.tmMin = u.tmMin
  hour : t.tmHour = u.tmHour
  mday : t.tmMday = u.tmMday
  mon : t.tmMon = u.tmMon
  year : t.tmYear = u.tmYear
  wday : t.tmWday = u.tmWday

theorem Tm.Same.mktime_eq {t u : Tm} (h : t.Same u) : mktime t = mktime u := by
  unfold mktime
  rw [h.sec, h.min, h.hour, h.mday, h.mon, h.year]

/-- The parts of the day that `gmtime` counts off. -/
theorem gmtime_counts (ts : Int) :
    ∃ y m d : Nat, y < 400 ∧ m < 12 ∧ d < monthDays y m ∧
      (gmtime ts).tmMday = d + 1 ∧ (gmtime ts).tmMon = m ∧
      (gmtime ts).tmYear = (ts / 86400 + epochDays) / eraDays * 400 + y - 1900 ∧
      ((ts / 86400 + epochDays) % eraDays).toNat = start yearDays y + start (monthDays y) m + d := by
  have hera : start yearDays 400 = eraDays := by
    have h := start_yearDays 400
    unfold eraDays
    omega
  have hlt : start yearDays 0 + ((ts / 86400 + epochDays) % eraDays).toNat <
      start yearDays (0 + 400) := by
    rw [start, Nat.zero_add, Nat.zero_add, hera]
    unfold eraDays
    omega
  obtain ⟨hy, hd⟩ := countOff_lt hlt
  have hys := @start_countOff yearDays 400 0 ((ts / 86400 + epochDays) % eraDays).toNat
  generalize hY : countOff yearDays 400 0 ((ts / 86400 + epochDays) % eraDays).toNat = Y at *
  rw [← start_monthDays] at hd
  have hlt' : start (monthDays Y.1) 0 + Y.2 < start (monthDays Y.1) (0 + 12) := by
    rw [start, Nat.zero_add]
    exact hd
  obtain ⟨hm, hr⟩ := countOff_lt hlt'
  have hms := @start_countOff (monthDays Y.1) 12 0 Y.2
  refine ⟨Y.1, (countOff (monthDays Y.1) 12 0 Y.2).1, (countOff (monthDays Y.1) 12 0 Y.2).2,
    by omega, by omega, hr, ?_, ?_, ?_, ?_⟩
  · simp only [gmtime, hY]
  · simp only [gmtime, hY]
  · simp only [gmtime, hY]
  · simp only [start] at hys hms
    omega

theorem dayNumber_eq (e : Int) {y m : Nat} (hy : y < 400) (hm : m < 12) (mday : Int) :
    dayNumber (e * 400 + y) m mday =
      e * eraDays + start yearDays y + start (monthDays y) m + mday - 1 - epochDays := by
  have hmon : (m : Int) / 12 = 0 ∧ ((m : Int) % 12).toNat = m := by omega
  have hyear : (e * 400 + y + 0) / 400 = e ∧ ((e * 400 + y + 0) % 400).toNat = y := by omega
  unfold dayNumber
  simp only [hmon.1, hmon.2, hyear.1, hyear.2]

theorem dayNumber_gmtime (ts : Int) :
    dayNumber ((gmtime ts).tmYear + 1900) (gmtime ts).tmMon (gmtime ts).tmMday = ts / 86400 := by
  obtain ⟨y, m, d, hy, hm, -, hmday, hmon, hyear, hday⟩ := gmtime_counts ts
  have hera : 0 ≤ (ts / 86400 + epochDays) % eraDays := Int.emod_nonneg _ (by decide)
  have hsplit := Int.mul_ediv_add_emod (ts / 86400 + epochDays) eraDays
  rw [Int.mul_comm] at hsplit
  have hyr : (gmtime ts).tmYear + 1900 = (ts / 86400 + epochDays) / eraDays * 400 + y := by omega
  rw [hyr, hmon, hmday, dayNumber_eq _ hy hm]
  omega

/-- **`mktime` undoes `gmtime`.** -/
theorem mktime_gmtime (ts : Int) : mktime (gmtime ts) = ts := by
  unfold mktime
  rw [dayNumber_gmtime]
  simp only [gmtime]
  omega

theorem valid_gmtime (ts : Int) : (gmtime ts).Valid := by
  obtain ⟨y, m, d, hy, hm, hd, hmday, hmon, hyear, hday⟩ := gmtime_counts ts
  have hy400 : (((gmtime ts).tmYear + 1900) % 400).toNat = y := by omega
  have hmon' : (gmtime ts).tmMon.toNat = m := by omega
  constructor
  · simp only [gmtime]
    omega
  · simp only [gmtime]
    omega
  · simp only [gmtime]
    omega
  · omega
  · rw [hy400, hmon']
    omega
  · rw [dayNumber_gmtime]
    rfl

/-- **`gmtime` undoes `mktime`** on the dates of the calendar. -/
theorem gmtime_mktime {t : Tm} (h : t.Valid) : (gmtime (mktime t)).Same t := by
  obtain ⟨⟨hs0, hs1⟩, ⟨hm0, hm1⟩, ⟨hh0, hh1⟩, ⟨hmon0, hmon1⟩, ⟨hd0, hd1⟩, hw⟩ := h
  have hday : mktime t / 86400 = dayNumber (t.tmYear + 1900) t.tmMon t.tmMday := by
    unfold mktime
    omega
  have hrest : mktime t % 86400 = t.tmHour * 3600 + t.tmMin * 60 + t.tmSec := by
    unfold mktime
    omega
  obtain ⟨e, y, hy, heq⟩ : ∃ (e : Int) (y : Nat), y < 400 ∧ t.tmYear + 1900 = e * 400 + y :=
    ⟨(t.tmYear + 1900) / 400, ((t.tmYear + 1900) % 400).toNat, by omega, by omega⟩
  obtain ⟨m, hm, hmeq⟩ : ∃ m : Nat, m < 12 ∧ t.tmMon = m := ⟨t.tmMon.toNat, by omega, by omega⟩
  have hy400 : ((t.tmYear + 1900) % 400).toNat = y := by omega
  have hm12 : t.tmMon.toNat = m := by omega
  rw [hy400, hm12] at hd1
  obtain ⟨d, hd, hdeq⟩ : ∃ d : Nat, d < monthDays y m ∧ t.tmMday = d + 1 :=
    ⟨(t.tmMday - 1).toNat, by omega, by omega⟩
  have hnum : mktime t / 86400 + epochDays =
      e * eraDays + ((start yearDays y + (start (monthDays y) m + d) : Nat) : Int) := by
    rw [hday, heq, hmeq, hdeq, dayNumber_eq e hy hm]
    push_cast
    ring
  have hdoy : start (monthDays y) m + d < yearDays y := by
    have hnext : start (monthDays y) (m + 1) ≤ start (monthDays y) 12 := start_mono hm
    rw [start_monthDays, start] at hnext
    omega
  have hdoe : start yearDays y + (start (monthDays y) m + d) < eraDays := by
    have hnext : start yearDays (y + 1) ≤ start yearDays 400 := start_mono hy
    have hera := start_yearDays 400
    rw [start] at hnext
    unfold eraDays
    omega
  have hdiv : (mktime t / 86400 + epochDays) / eraDays = e ∧
      ((mktime t / 86400 + epochDays) % eraDays).toNat =
        start yearDays y + (start (monthDays y) m + d) := by
    rw [hnum]
    unfold eraDays at hdoe ⊢
    omega
  have hyears := countOff_start hy hdoy
  have hmonths := countOff_start hm hd
  constructor
  · simp only [gmtime, hrest]
    omega
  · simp only [gmtime, hrest]
    omega
  · simp only [gmtime, hrest]
    omega
  · simp only [gmtime, hdiv.2, hyears, hmonths]
    exact hdeq.symm
  · simp only [gmtime, hdiv.2, hyears, hmonths]
    exact hmeq.symm
  · simp only [gmtime, hdiv.1, hdiv.2, hyears]
    omega
  · simp only [gmtime]
    rw [hday, hw]

/-- The seconds of the years 2000 to 2099. -/
theorem year_gmtime {ts : Int} (h : 946684800 ≤ ts) (h' : ts < 4102444800) :
    100 ≤ (gmtime ts).tmYear ∧ (gmtime ts).tmYear ≤ 199 := by
  obtain ⟨y, m, d, hy, hm, hd, hmday, hmon, hyear, hday⟩ := gmtime_counts ts
  have hera : (ts / 86400 + epochDays) / eraDays = 5 ∧
      ((ts / 86400 + epochDays) % eraDays).toNat ≤ 36524 := by
    unfold epochDays eraDays
    omega
  rw [hera.1] at hyear
  have hcentury : y < 100 := by
    by_contra hge
    have hmono : start yearDays 100 ≤ start yearDays y := start_mono (Nat.le_of_not_lt hge)
    have hdays := start_yearDays 100
    omega
  omega

/-! ## Years and their Sundays -/

/-- The year of a date. -/
def yearOf (ts : Int) : Int := (gmtime ts).tmYear + 1900

/-- The last Sunday of a month, as a day counted from 1970-01-01, which was a Thursday. -/
def lastSunday (year : Int) (m : Nat) : Int :=
  let last := dayNumber year (m + 1 : Nat) 1 - 1
  last - (last + 4) % 7

theorem dayNumber_month {m : Nat} (hm : m < 12) (year mday : Int) :
    dayNumber year m mday =
      dayNumber year 0 1 + start (monthDays (year % 400).toNat) m + (mday - 1) := by
  have hsplit : year = year / 400 * 400 + (year % 400).toNat := by omega
  have hy : (year % 400).toNat < 400 := by omega
  have hmonth := dayNumber_eq (year / 400) hy hm mday
  have hfirst := dayNumber_eq (year / 400) hy (show 0 < 12 by omega) 1
  rw [← hsplit] at hmonth hfirst
  simp only [start] at hfirst
  push_cast at hfirst
  omega

theorem dayNumber_succ (year : Int) :
    dayNumber (year + 1) 0 1 = dayNumber year 0 1 + yearDays (year % 400).toNat := by
  obtain ⟨y, hy⟩ : ∃ y, y = (year % 400).toNat := ⟨_, rfl⟩
  have hfirst := dayNumber_eq (year / 400) (show y < 400 by omega) (show 0 < 12 by omega) 1
  have hnext : start yearDays (y + 1) = start yearDays y + yearDays y := rfl
  have hempty : ∀ len : Nat → Nat, start len 0 = 0 := fun _ => rfl
  rw [← hy]
  rw [show year / 400 * 400 + (y : Int) = year by omega] at hfirst
  by_cases hlast : y = 399
  · -- the next year begins an era
    have hnew := dayNumber_eq (year / 400 + 1) (show 0 < 400 by omega) (show 0 < 12 by omega) 1
    have hera := start_yearDays 400
    rw [show (year / 400 + 1) * 400 + ((0 : Nat) : Int) = year + 1 by omega] at hnew
    subst hlast
    rw [show 399 + 1 = 400 from rfl] at hnext
    rw [hempty, Int.natCast_zero] at hfirst
    rw [hempty, hempty, Int.natCast_zero] at hnew
    unfold eraDays at *
    omega
  · have hnew := dayNumber_eq (year / 400) (show y + 1 < 400 by omega) (show 0 < 12 by omega) 1
    rw [show year / 400 * 400 + ((y + 1 : Nat) : Int) = year + 1 by omega, hnext, hempty,
      Int.natCast_zero] at hnew
    rw [hempty, Int.natCast_zero] at hfirst
    omega

theorem yearDays_ge (y : Nat) : 365 ≤ yearDays y := by
  unfold yearDays
  split <;> omega

/-- Later years begin later. -/
theorem dayNumber_strictMono : StrictMono fun year => dayNumber year 0 1 := by
  refine strictMono_int_of_lt_succ fun year => ?_
  have hlong := yearDays_ge (year % 400).toNat
  have hnext := dayNumber_succ year
  omega

/-- A date is in its year. -/
theorem yearOf_bounds (ts : Int) :
    dayNumber (yearOf ts) 0 1 ≤ ts / 86400 ∧ ts / 86400 < dayNumber (yearOf ts + 1) 0 1 := by
  obtain ⟨y, m, d, hy, hm, hd, hmday, hmon, hyear, -⟩ := gmtime_counts ts
  have hday := dayNumber_gmtime ts
  have hy400 : (yearOf ts % 400).toNat = y := by
    unfold yearOf
    omega
  rw [show (gmtime ts).tmYear + 1900 = yearOf ts from rfl, hmon, hmday, dayNumber_month hm,
    hy400] at hday
  have hnext : start (monthDays y) (m + 1) ≤ start (monthDays y) 12 := start_mono hm
  rw [start_monthDays, start] at hnext
  rw [dayNumber_succ, hy400]
  omega

/-- **It is a Sunday of its month, and the next one is not.** -/
theorem lastSunday_spec {m : Nat} (hm : m < 11) (year : Int) :
    (lastSunday year m + 4) % 7 = 0 ∧ dayNumber year m 1 ≤ lastSunday year m ∧
      lastSunday year m < dayNumber year (m + 1 : Nat) 1 ∧
      dayNumber year (m + 1 : Nat) 1 ≤ lastSunday year m + 7 := by
  have hlong : 28 ≤ monthDays (year % 400).toNat m := by
    unfold monthDays
    split
    · split <;> omega
    all_goals omega
  have hmonth := dayNumber_month (show m < 12 by omega) year 1
  have hnext := dayNumber_month (show m + 1 < 12 by omega) year 1
  simp only [start] at hnext
  unfold lastSunday
  dsimp only
  omega

end Rastreo.Lib
