import Rastreo.Lib.Calendar

/-!
# Local time (`pmz_time.c`)

Local time is UTC with one hour added, and two in summer: from the last Sunday of March, 01:00 UTC,
to the last Sunday of October, 01:00 UTC. `isDst` asks a broken-down time in UTC whether it is
summer.

* **`utcToLocal_summer`**: `pmz_time_utc_to_local` adds what the rule says.
* `pmz_time_local_to_utc` hands the local time to `isDst`, as if it were UTC: it finds summer one
  hour too early in March, and the end of it two hours too early in October.
* **`localToUtc_utcToLocal`**: the hours in which the one does not undo the other.
-/

namespace Rastreo.Drv

open Rastreo.Lib

/-! ## The functions -/

/-- `isDst`. -/
def isDst (ts : Tm) : Bool :=
  if ts.tmMon < 2 ∨ ts.tmMon > 9 then false
  else if ts.tmMon > 2 ∧ ts.tmMon < 9 then true
  else
    let daysRemainigUntilNextSunday := 7 - ts.tmWday
    let remainingDaysOfMonth := 31 - ts.tmMday
    let st := ts.tmHour * 60 + ts.tmMin
    let dst := decide (daysRemainigUntilNextSunday > remainingDaysOfMonth ∧
      (ts.tmWday ≠ 0 ∨ ts.tmWday = 0 ∧ st ≥ 60))
    if ts.tmMon = 2 ∧ dst then true
    else if ts.tmMon = 9 ∧ !dst then true
    else false

/-- `pmz_time_utc_to_local`. -/
def pmzTimeUtcToLocal (utc : Int) : Int :=
  if isDst (gmtime utc) then utc + 7200 else utc + 3600

/-- `pmz_time_local_to_utc`. -/
def pmzTimeLocalToUtc (local' : Int) : Int :=
  if isDst (gmtime local') then local' - 7200 else local' - 3600

/-! ## The rule -/

/-- The last Sunday of March, 01:00 UTC. -/
def summerBegins (year : Int) : Int := lastSunday year 2 * 86400 + 3600

/-- The last Sunday of October, 01:00 UTC. -/
def summerEnds (year : Int) : Int := lastSunday year 9 * 86400 + 3600

/-- Between the two in its year. -/
def Summer (ts : Int) : Prop := summerBegins (yearOf ts) ≤ ts ∧ ts < summerEnds (yearOf ts)

instance decidableSummer (ts : Int) : Decidable (Summer ts) := inferInstanceAs (Decidable (_ ∧ _))

/-- The days before the months that `isDst` tells apart. -/
theorem start_months (y : Nat) :
    59 ≤ start (monthDays y) 2 ∧ start (monthDays y) 2 ≤ 60 ∧
      start (monthDays y) 3 = start (monthDays y) 2 + 31 ∧
      start (monthDays y) 9 = start (monthDays y) 2 + 214 ∧
      start (monthDays y) 10 = start (monthDays y) 2 + 245 := by
  have hfeb : monthDays y 1 = 29 ∨ monthDays y 1 = 28 := by
    show (if Leap y then 29 else 28) = 29 ∨ (if Leap y then 29 else 28) = 28
    split
    · exact .inl rfl
    · exact .inr rfl
  have h2 : start (monthDays y) 2 = 31 + monthDays y 1 := rfl
  have h3 : start (monthDays y) 3 = start (monthDays y) 2 + 31 := rfl
  have h9 : start (monthDays y) 9 = start (monthDays y) 3 + 30 + 31 + 30 + 31 + 31 + 30 := rfl
  have h10 : start (monthDays y) 10 = start (monthDays y) 9 + 31 := rfl
  omega

/-- The last Sundays from the start of the year. -/
theorem lastSunday_eq (year : Int) :
    ∃ before : Nat, start (monthDays (year % 400).toNat) 2 = before ∧
      lastSunday year 2 = dayNumber year 0 1 + before + 30 -
        (dayNumber year 0 1 + before + 30 + 4) % 7 ∧
      lastSunday year 9 = dayNumber year 0 1 + before + 244 -
        (dayNumber year 0 1 + before + 244 + 4) % 7 := by
  obtain ⟨-, -, h3, -, h10⟩ := start_months (year % 400).toNat
  have hmarch := dayNumber_month (show 3 < 12 by omega) year 1
  have hoctober := dayNumber_month (show 10 < 12 by omega) year 1
  refine ⟨_, rfl, ?_, ?_⟩
  · show dayNumber year (3 : Nat) 1 - 1 - (dayNumber year (3 : Nat) 1 - 1 + 4) % 7 = _
    omega
  · show dayNumber year (10 : Nat) 1 - 1 - (dayNumber year (10 : Nat) 1 - 1 + 4) % 7 = _
    omega

/-- What `isDst` asks in a month of 31 days: whether its last Sunday, 01:00, is past. -/
theorem pastLastSunday (ts : Int) {d : Nat} (hd : d < 31) :
    (7 - (ts / 86400 + 4) % 7 > 31 - ((d : Int) + 1) ∧ ((ts / 86400 + 4) % 7 ≠ 0 ∨
        (ts / 86400 + 4) % 7 = 0 ∧ ts % 86400 / 3600 * 60 + ts % 86400 / 60 % 60 ≥ 60)) ↔
      (ts / 86400 - d + 30 - (ts / 86400 - d + 30 + 4) % 7) * 86400 + 3600 ≤ ts := by
  have hst : ts % 86400 / 3600 * 60 + ts % 86400 / 60 % 60 ≥ 60 ↔ 3600 ≤ ts % 86400 := by omega
  have hsplit := Int.mul_ediv_add_emod ts 86400
  have h0 : 0 ≤ ts % 86400 := Int.emod_nonneg _ (by decide)
  have h1 : ts % 86400 < 86400 := Int.emod_lt_of_pos _ (by decide)
  rw [hst]
  generalize ts / 86400 = day at *
  generalize ts % 86400 = rest at *
  subst hsplit
  omega

/-- **`isDst` knows the rule.** -/
theorem isDst_gmtime (ts : Int) : isDst (gmtime ts) = true ↔ Summer ts := by
  obtain ⟨y, m, d, hy, hm, hd, hmday, hmon, hyear, -⟩ := gmtime_counts ts
  obtain ⟨before, hbefore, hmarch, hoctober⟩ := lastSunday_eq (yearOf ts)
  have hday := dayNumber_gmtime ts
  have hy400 : (yearOf ts % 400).toNat = y := by
    unfold yearOf
    omega
  rw [show (gmtime ts).tmYear + 1900 = yearOf ts from rfl, hmon, hmday, dayNumber_month hm,
    hy400] at hday
  rw [hy400] at hbefore
  obtain ⟨h59, h60, h3, h9, h10⟩ := start_months y
  have hmono : ∀ {i j : Nat}, i ≤ j → start (monthDays y) i ≤ start (monthDays y) j := start_mono
  have hnext : start (monthDays y) m + d < start (monthDays y) (m + 1) := by
    rw [start]
    omega
  have hd31 : d < 31 := hd.trans_le (monthDays_le y m)
  have hpast := pastLastSunday ts hd31
  rw [show (ts / 86400 + 4) % 7 = (gmtime ts).tmWday from rfl,
    show ts % 86400 / 3600 = (gmtime ts).tmHour from rfl,
    show ts % 86400 / 60 % 60 = (gmtime ts).tmMin from rfl, ← hmday] at hpast
  unfold Summer summerBegins summerEnds isDst
  dsimp only
  rw [hmon]
  rcases Nat.lt_trichotomy m 2 with hlt | rfl | hgt
  · -- January and February
    have hle := hmono (show m + 1 ≤ 2 from hlt)
    rw [if_pos (by omega)]
    simp only [Bool.false_eq_true, false_iff]
    omega
  · -- March
    rw [if_neg (by omega), if_neg (by omega)]
    simp only [hpast, Nat.cast_ofNat, decide_eq_true_eq, true_and, OfNat.ofNat_eq_ofNat,
      Nat.reduceEqDiff, Bool.not_eq_eq_eq_not, Bool.not_true, decide_eq_false_iff_not, not_le,
      false_and, if_false, Bool.if_false_right, Bool.and_true]
    omega
  rcases Nat.lt_trichotomy m 9 with hlt | rfl | hgt'
  · -- April to September
    have hge := hmono (show 3 ≤ m from hgt)
    have hle := hmono (show m + 1 ≤ 9 from hlt)
    rw [if_neg (by omega), if_pos (by omega)]
    simp only [true_iff]
    omega
  · -- October
    rw [if_neg (by omega), if_neg (by omega)]
    simp only [hpast, Nat.cast_ofNat, OfNat.ofNat_eq_ofNat, Nat.reduceEqDiff, decide_eq_true_eq,
      false_and, if_false, Bool.not_eq_eq_eq_not, Bool.not_true, decide_eq_false_iff_not, not_le,
      true_and, Bool.if_false_right, Bool.and_true]
    omega
  · -- November and December
    have hge := hmono (show 10 ≤ m from hgt')
    rw [if_pos (by omega)]
    simp only [Bool.false_eq_true, false_iff]
    omega

theorem utcToLocal_eq (ts : Int) :
    pmzTimeUtcToLocal ts = if Summer ts then ts + 7200 else ts + 3600 := by
  unfold pmzTimeUtcToLocal
  by_cases h : Summer ts
  · rw [if_pos ((isDst_gmtime ts).mpr h), if_pos h]
  · rw [if_neg (mt (isDst_gmtime ts).mp h), if_neg h]

/-- **Local time follows the rule.** -/
theorem utcToLocal_summer (ts : Int) :
    (pmzTimeUtcToLocal ts = ts + 7200 ↔ Summer ts) ∧
      (pmzTimeUtcToLocal ts = ts + 3600 ↔ ¬ Summer ts) := by
  rw [utcToLocal_eq]
  split
  · rename_i h
    exact ⟨⟨fun _ => h, fun _ => rfl⟩, ⟨fun heq => by omega, fun hn => absurd h hn⟩⟩
  · rename_i h
    exact ⟨⟨fun heq => by omega, fun hs => absurd hs h⟩, ⟨fun _ => h, fun _ => rfl⟩⟩

/-! ## There and back -/

/-- No other second has this local time. -/
def Unambiguous (ts : Int) : Prop := ∀ ts', pmzTimeUtcToLocal ts' = pmzTimeUtcToLocal ts → ts' = ts

/-- The two changes are far from each other, and from the ends of the year. -/
theorem summer_bounds (year : Int) :
    dayNumber year 0 1 + 83 ≤ lastSunday year 2 ∧ lastSunday year 2 + 200 ≤ lastSunday year 9 ∧
      lastSunday year 9 + 50 ≤ dayNumber (year + 1) 0 1 := by
  obtain ⟨before, hbefore, hmarch, hoctober⟩ := lastSunday_eq year
  obtain ⟨h59, h60, -, -, -⟩ := start_months (year % 400).toNat
  have hlong := yearDays_ge (year % 400).toNat
  have hnext := dayNumber_succ year
  omega

/-- Two hours before or after, it may as well be the same year. -/
theorem summer_near {ts ts' : Int} (h : ts - 7200 ≤ ts') (h' : ts' ≤ ts + 7200) :
    Summer ts' ↔ summerBegins (yearOf ts) ≤ ts' ∧ ts' < summerEnds (yearOf ts) := by
  obtain ⟨hb, he⟩ := yearOf_bounds ts
  obtain ⟨hb', he'⟩ := yearOf_bounds ts'
  have hle : yearOf ts' < yearOf ts + 2 := by
    refine dayNumber_strictMono.lt_iff_lt.mp (show dayNumber _ 0 1 < dayNumber _ 0 1 from ?_)
    have hlong := yearDays_ge ((yearOf ts + 1) % 400).toNat
    have hnext := dayNumber_succ (yearOf ts + 1)
    rw [show yearOf ts + 1 + 1 = yearOf ts + 2 by omega] at hnext
    omega
  have hge : yearOf ts < yearOf ts' + 2 := by
    refine dayNumber_strictMono.lt_iff_lt.mp (show dayNumber _ 0 1 < dayNumber _ 0 1 from ?_)
    have hlong := yearDays_ge ((yearOf ts' + 1) % 400).toNat
    have hnext := dayNumber_succ (yearOf ts' + 1)
    rw [show yearOf ts' + 1 + 1 = yearOf ts' + 2 by omega] at hnext
    omega
  obtain ⟨hs, hm, hf⟩ := summer_bounds (yearOf ts)
  obtain ⟨hs', hm', hf'⟩ := summer_bounds (yearOf ts')
  unfold Summer summerBegins summerEnds
  rcases (by omega : yearOf ts' = yearOf ts ∨ yearOf ts' = yearOf ts + 1 ∨
    yearOf ts = yearOf ts' + 1) with heq | heq | heq
  · rw [heq]
  · rw [heq] at hs' hm' hb' ⊢
    omega
  · rw [heq] at hs hm hb ⊢
    omega

section RoundTrip

variable {ts : Int}

/-- The local time and back, by the changes of the year. -/
theorem localToUtc_cases (ts : Int) :
    pmzTimeLocalToUtc (pmzTimeUtcToLocal ts) = ts ↔
      ¬ (summerBegins (yearOf ts) - 3600 ≤ ts ∧ ts < summerBegins (yearOf ts)) ∧
      ¬ (summerEnds (yearOf ts) - 7200 ≤ ts ∧ ts < summerEnds (yearOf ts)) := by
  obtain ⟨-, hm, -⟩ := summer_bounds (yearOf ts)
  have hutc := isDst_gmtime ts
  have hsummer := @summer_near ts (ts + 7200) (by omega) (by omega)
  have hwinter := @summer_near ts (ts + 3600) (by omega) (by omega)
  rw [← isDst_gmtime] at hsummer hwinter
  unfold Summer at hutc
  unfold summerBegins summerEnds at *
  unfold pmzTimeLocalToUtc pmzTimeUtcToLocal
  by_cases h : isDst (gmtime ts) = true
  · rw [if_pos h]
    have hin := hutc.mp h
    split
    · rename_i hl
      have hlocal := hsummer.mp hl
      omega
    · rename_i hl
      have hlocal := mt hsummer.mpr hl
      omega
  · rw [if_neg h]
    have hin := mt hutc.mpr h
    split
    · rename_i hl
      have hlocal := hwinter.mp hl
      omega
    · rename_i hl
      have hlocal := mt hwinter.mpr hl
      omega

/-- **The hour that is repeated in October.** -/
theorem unambiguous_iff (ts : Int) : Unambiguous ts ↔
    ¬ (summerEnds (yearOf ts) - 3600 ≤ ts ∧ ts < summerEnds (yearOf ts) + 3600) := by
  obtain ⟨-, hm, -⟩ := summer_bounds (yearOf ts)
  have hnow := @summer_near ts ts (by omega) (by omega)
  constructor
  · rintro h ⟨hfrom, hto⟩
    by_cases hfirst : ts < summerEnds (yearOf ts)
    · -- an hour later the clocks have been put back
      have hlater := @summer_near ts (ts + 3600) (by omega) (by omega)
      have hin : Summer ts := hnow.mpr ⟨by unfold summerBegins summerEnds at *; omega, hfirst⟩
      have hout : ¬ Summer (ts + 3600) := by
        rw [hlater]
        omega
      have hsame := h (ts + 3600) (by rw [utcToLocal_eq, utcToLocal_eq, if_pos hin, if_neg hout]; omega)
      omega
    · -- an hour before they had not
      have hbefore := @summer_near ts (ts - 3600) (by omega) (by omega)
      have hout : ¬ Summer ts := by
        rw [hnow]
        omega
      have hin : Summer (ts - 3600) :=
        hbefore.mpr ⟨by unfold summerBegins summerEnds at *; omega, by omega⟩
      have hsame := h (ts - 3600) (by rw [utcToLocal_eq, utcToLocal_eq, if_pos hin, if_neg hout]; omega)
      omega
  · intro h ts' heq
    rw [utcToLocal_eq, utcToLocal_eq] at heq
    by_cases hs : Summer ts
    · by_cases hs' : Summer ts'
      · rw [if_pos hs, if_pos hs'] at heq
        omega
      · rw [if_pos hs, if_neg hs'] at heq
        have hin := hnow.mp hs
        rw [@summer_near ts ts' (by omega) (by omega)] at hs'
        omega
    · by_cases hs' : Summer ts'
      · rw [if_neg hs, if_pos hs'] at heq
        have hin := (@summer_near ts ts' (by omega) (by omega)).mp hs'
        rw [hnow] at hs
        omega
      · rw [if_neg hs, if_neg hs'] at heq
        omega

/-- **Local time is taken back to the UTC it came from** except in two hours of the year. -/
theorem localToUtc_utcToLocal (h : Unambiguous ts) :
    pmzTimeLocalToUtc (pmzTimeUtcToLocal ts) = ts ↔
      ¬ (summerBegins (yearOf ts) - 3600 ≤ ts ∧ ts < summerBegins (yearOf ts)) ∧
      ¬ (summerEnds (yearOf ts) - 7200 ≤ ts ∧ ts < summerEnds (yearOf ts) - 3600) := by
  have hout := (unambiguous_iff ts).mp h
  rw [localToUtc_cases]
  omega

end RoundTrip

/-- 2024-03-31, 01:00 UTC: the first second of summer time, right after the hour that goes wrong. -/
theorem localToUtc_firstOfSummer :
    pmzTimeLocalToUtc (pmzTimeUtcToLocal 1711846800) = 1711846800 :=
  (localToUtc_utcToLocal ((unambiguous_iff 1711846800).mpr (by decide +kernel))).mpr
    (by decide +kernel)

/-- 2024-03-31, 00:30 UTC: half past one, local time, before the clocks are put forward. -/
theorem not_localToUtc_utcToLocal :
    ¬ ∀ ts, Unambiguous ts → pmzTimeLocalToUtc (pmzTimeUtcToLocal ts) = ts := by
  intro hall
  have hback := hall 1711845000 ((unambiguous_iff _).mpr (by decide +kernel))
  exact absurd hback (by decide +kernel)

end Rastreo.Drv
