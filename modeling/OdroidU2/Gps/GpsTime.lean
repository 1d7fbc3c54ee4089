import Mathlib
import OdroidU2.Foundations.Calendar
import OdroidU2.Gps.ExactLibc

/-!
# GPS Time

`utc_to_gps` turns a time into the week and the second of the week that the receiver counts
from 6 January 1980.  It numbers the days with `jul_days`, a closed formula of nested floors,
and over exact arithmetic that formula grows by one from each date of the calendar to the
next, through every month end, leap day and century.

- `julDays_next` — the day number of the next date
- `utc_to_gps_exact` — week and second of the week count the seconds since the GPS epoch
-/

namespace OdroidU2.Gps

open OdroidU2.Foundations

/-! ## §1 Broken-Down Time -/

/-- The first day of the clock, 1 January 1970. -/
def unixEpoch : Date := Date.newYear 1970

/-- The GPS epoch, 6 January 1980. -/
def gpsEpoch : Date :=
  { Date.newYear 1980 with
    day := 6
    day_pos := by decide
    day_le := by decide }

/-- A date in the fields of a `struct tm`: years from 1900, months from zero. -/
def tmOf (date : Date) (secondOfDay : Int) : Tm where
  tmYear := date.year - 1900
  tmMon := date.month - 1
  tmMday := date.day
  tmHour := secondOfDay / 3600
  tmMin := secondOfDay / 60 % 60
  tmSec := secondOfDay % 60

/-- `gmtime_r`: the Gregorian date and the time of day that many seconds after the epoch. -/
def gmtimeR (time : Int) : Tm :=
  tmOf (Date.next^[(time / 86400).toNat] unixEpoch) (time % 86400)

/-! ## §2 The Functions of `odroid_gps.c` -/

/-- `jul_days`: the sum is computed in `double` and returned as an `int`. -/
def julDays (R : Type) [Libc R] (tmDay : Tm) : Int :=
  let lit : Int → R := Libc.ofInt
  let afterFebruary : R := Libc.floor (lit ((tmDay.tmMon + 10).tdiv 12))
  let leapDays : R :=
    Libc.floor (Libc.div (Libc.mul (lit 7) (Libc.add afterFebruary (lit (tmDay.tmYear + 1900))))
      (lit 4))
  let century : R :=
    Libc.floor (Libc.div (Libc.add afterFebruary (lit (tmDay.tmYear + 1899))) (lit 100))
  let centuryDays : R :=
    Libc.floor (Libc.div (Libc.mul (lit 3) (Libc.add century (lit 1))) (lit 4))
  let monthDays : R := Libc.floor (lit ((275 * (tmDay.tmMon + 1)).tdiv 9))
  let years : R := lit (367 * (tmDay.tmYear + 1900))
  let days : R := Libc.add (Libc.sub (Libc.sub years leapDays) centuryDays) monthDays
  Libc.trunc (Libc.sub (Libc.add (Libc.add days (lit tmDay.tmMday)) (lit 1721028)) (lit 2400000))

/-- The `struct tm` of 6 January 1980; `utc_to_gps` leaves the time of day unset, and
`jul_days` does not read it. -/
def tmGps : Tm where
  tmYear := 80
  tmMon := 0
  tmMday := 6
  tmHour := 0
  tmMin := 0
  tmSec := 0

/-- `utc_to_gps`: what the pointers `tow` and `week` point to afterwards, a null pointer
being `none`. -/
def utcToGps (R : Type) [Libc R] (time : Int) (tow week : Option Int) :
    Option Int × Option Int :=
  if tow.isNone || week.isNone then (tow, week)
  else
    let tmUtc := gmtimeR time
    let daysCnt := julDays R tmUtc - julDays R tmGps
    let day := daysCnt.tmod 7
    (some (day * 86400 + ((tmUtc.tmHour * 60) + tmUtc.tmMin) * 60 + tmUtc.tmSec),
      some (Libc.trunc (Libc.floor (Libc.ofInt (daysCnt.tdiv 7) : R))))

/-! ## §3 The Day Number -/

/-- The textbook form of the formula, months counted from one. -/
def dayNumber (year month day : Int) : Int :=
  367 * year - 7 * ((month + 9) / 12 + year) / 4 -
    3 * (((month + 9) / 12 + (year - 1)) / 100 + 1) / 4 + 275 * month / 9 + day + 1721028 - 2400000

theorem trunc_intCast (n : Int) : Libc.trunc (n : ℚ) = n := by
  show (if (0 : ℚ) ≤ n then ⌊(n : ℚ)⌋ else ⌈(n : ℚ)⌉) = n
  rw [Int.floor_intCast, Int.ceil_intCast, ite_self]

/-- Over exact arithmetic the floors are integer divisions. -/
theorem julDays_tmOf (d : Date) (s : Int) :
    julDays ℚ (tmOf d s) = dayNumber d.year d.month d.day := by
  have hpos := d.month_pos
  -- in exact arithmetic each `floor` is an integer division
  have hquarter (a : Int) : ⌊(a : ℚ) / 4⌋ = a / 4 := Rat.floor_intCast_div_natCast a 4
  have hcentury (a : Int) : ⌊(a : ℚ) / 100⌋ = a / 100 := Rat.floor_intCast_div_natCast a 100
  -- and each division of C is of a number that is not negative
  have hmon : (((d.month : Int) - 1 + 10).tdiv 12) = ((d.month : Int) + 9) / 12 := by
    rw [Int.tdiv_eq_ediv_of_nonneg (by omega)]
    omega
  have hdays : (275 * (d.month : Int)).tdiv 9 = 275 * (d.month : Int) / 9 :=
    Int.tdiv_eq_ediv_of_nonneg (by omega)
  have hyear : d.year - 1900 + 1899 = d.year - 1 := by omega
  simp only [julDays, tmOf, Libc.ofInt, Libc.floor, Libc.div, Libc.mul, Libc.add, Libc.sub,
    Int.floor_intCast, hmon, hdays, hyear, sub_add_cancel]
  rw_mod_cast [hcentury, hquarter, hquarter, trunc_intCast]
  rfl

/-- The floor over four years gains one more in a year that four does not divide. -/
theorem leapDays_succ (year : Int) :
    7 * (1 + year) / 4 = 7 * year / 4 + if year % 4 = 0 then 1 else 2 := by
  obtain h | h | h | h : year % 4 = 0 ∨ year % 4 = 1 ∨ year % 4 = 2 ∨ year % 4 = 3 := by omega
  all_goals
    rw [h]
    simp
    omega

/-- The floor over centuries drops a day where a century begins that 400 does not divide. -/
theorem centuryDays_succ (year : Int) :
    3 * (year / 100 + 1) / 4 = 3 * ((year - 1) / 100 + 1) / 4 +
      if year % 100 = 0 ∧ year % 400 ≠ 0 then 1 else 0 := by
  by_cases hfirst : year % 100 = 0
  · -- the first year of a century is a leap year in one century out of four
    have hdiv : (year - 1) / 100 = year / 100 - 1 := by omega
    obtain h | h | h | h : year / 100 % 4 = 0 ∨ year / 100 % 4 = 1 ∨ year / 100 % 4 = 2 ∨
        year / 100 % 4 = 3 := by omega
    all_goals
      rw [hdiv]
      split_ifs <;> omega
  · -- any other year belongs to the century of the one before
    have hdiv : (year - 1) / 100 = year / 100 := by omega
    simp [hfirst, hdiv]

/-- The day after the last of February, in a leap year as in a common one. -/
theorem dayNumber_march (year : Int) :
    dayNumber year 3 1 = dayNumber year 2 (daysInMonth year 2) + 1 := by
  have hleap := leapDays_succ year
  have hcentury := centuryDays_succ year
  -- February has 29 days or 28
  by_cases h : IsLeap year
  · simp [dayNumber, daysInMonth, h]
    unfold IsLeap at h
    split_ifs at hleap hcentury <;> omega
  · simp [dayNumber, daysInMonth, h]
    unfold IsLeap at h
    split_ifs at hleap hcentury <;> omega

/-- The day after the last of a month is the first of the month that follows. -/
theorem dayNumber_succ_month (year : Int) (month : Nat) (hpos : 0 < month) (hlt : month < 12) :
    dayNumber year (month + 1) 1 = dayNumber year month (daysInMonth year month) + 1 := by
  by_cases hfeb : month = 2
  · subst hfeb
    exact dayNumber_march year
  · -- in a month of fixed length only the day and the month term change
    interval_cases month <;> simp [dayNumber, daysInMonth] at hfeb ⊢ <;> omega

/-- The day after the last of December is the first of January. -/
theorem dayNumber_succ_year (year : Int) :
    dayNumber (year + 1) 1 1 = dayNumber year 12 (daysInMonth year 12) + 1 := by
  simp [dayNumber, daysInMonth]
  omega

/-- The day number grows by one from date to date. -/
theorem julDays_next (d : Date) (s s' : Int) :
    julDays ℚ (tmOf d.next s') = julDays ℚ (tmOf d s) + 1 := by
  have hpos := d.month_pos
  rw [julDays_tmOf, julDays_tmOf]
  -- the next day of the month, the first of the next month, New Year
  obtain ⟨hy, hm, hd⟩ | ⟨hlast, hlt, hy, hm, hd⟩ | ⟨hlast, hdec, hy, hm, hd⟩ := d.next_cases
  · rw [hy, hm, hd]
    simp only [dayNumber]
    push_cast
    omega
  · rw [hy, hm, hd, hlast]
    exact_mod_cast dayNumber_succ_month d.year d.month hpos hlt
  · rw [hy, hm, hd, hlast, hdec]
    exact_mod_cast dayNumber_succ_year d.year

/-- Counted in exact arithmetic, the day numbers of two dates differ by the days between
them. -/
theorem julDays_sub {d e : Date} (h : d ≤ e) (s s' : Int) :
    julDays ℚ (tmOf e s) - julDays ℚ (tmOf d s') = d.daysUntil e := by
  have hdays (c : Date) (s : Int) : julDays ℚ (tmOf c s) = julDays ℚ (tmOf c 0) := by
    rw [julDays_tmOf, julDays_tmOf]
  rw [hdays e, hdays d]
  exact Date.countsDays_sub (f := fun c => julDays ℚ (tmOf c 0)) (fun c => julDays_next c 0 0) h

/-! ## §4 Week and Second of the Week -/

/-- The date of 6 January 1980 is the one `utc_to_gps` counts from. -/
theorem tmGps_eq : tmGps = tmOf gpsEpoch 0 := rfl

/-- The day number of the date `gmtime_r` gives. -/
theorem julDays_gmtimeR {t : Int} (h : 0 ≤ t) :
    julDays ℚ (gmtimeR t) = julDays ℚ tmGps - 3657 + t / 86400 := by
  have hdays : ((t / 86400).toNat : Int) = t / 86400 := Int.toNat_of_nonneg (by omega)
  have hiter := Date.countsDays (f := fun d => julDays ℚ (tmOf d (t % 86400)))
    (fun d => julDays_next d _ _) unixEpoch (t / 86400).toNat
  have hunix : julDays ℚ (tmOf unixEpoch (t % 86400)) = julDays ℚ tmGps - 3657 := by
    rw [tmGps_eq, julDays_tmOf, julDays_tmOf]
    simp [dayNumber, unixEpoch, gpsEpoch, Date.newYear, Date.firstOf]
  calc julDays ℚ (gmtimeR t)
      = julDays ℚ (tmOf unixEpoch (t % 86400)) + ((t / 86400).toNat : Int) := hiter
    _ = julDays ℚ tmGps - 3657 + t / 86400 := by rw [hunix, hdays]

theorem utcToGps_of_le {t : Int} (h : 315964800 ≤ t) (tow week : Int) :
    ∃ tow' week', utcToGps ℚ t (some tow) (some week) = (some tow', some week') ∧
      0 ≤ tow' ∧ tow' < 604800 ∧ week' * 604800 + tow' = t - 315964800 := by
  have hcnt : julDays ℚ (gmtimeR t) - julDays ℚ tmGps = t / 86400 - 3657 := by
    rw [julDays_gmtimeR (by omega)]
    omega
  have hnonneg : 0 ≤ t / 86400 - 3657 := by omega
  have hweek (n : Int) : Libc.trunc (Libc.floor (Libc.ofInt n : ℚ)) = n := by
    simp only [Libc.floor, Libc.ofInt, Int.floor_intCast, trunc_intCast]
  refine ⟨(t / 86400 - 3657) % 7 * 86400 + t % 86400, (t / 86400 - 3657) / 7, ?_, ?_, ?_, ?_⟩
  · simp only [utcToGps, Option.isNone_some, Bool.or_self, Bool.false_eq_true, if_false, hcnt,
      hweek, Int.tmod_eq_emod_of_nonneg hnonneg, Int.tdiv_eq_ediv_of_nonneg hnonneg]
    -- hours, minutes and seconds make up the second of the day
    have hclock : (t % 86400 / 3600 * 60 + t % 86400 / 60 % 60) * 60 + t % 86400 % 60 =
        t % 86400 := by omega
    simp only [gmtimeR, tmOf]
    rw [add_assoc, hclock]
  all_goals omega

/-- From the GPS epoch on, `utc_to_gps` sets the week and the second of the week that count
the seconds since then, and the day numbers it computes them from count the days of the
calendar. -/
theorem utc_to_gps_exact :
    (∀ t : Int, 315964800 ≤ t → ∀ tow week : Int, ∃ tow' week' : Int,
      utcToGps ℚ t (some tow) (some week) = (some tow', some week') ∧
        0 ≤ tow' ∧ tow' < 604800 ∧ week' * 604800 + tow' = t - 315964800) ∧
      ∀ d : Date, gpsEpoch ≤ d →
        julDays ℚ (tmOf d 0) - julDays ℚ (tmOf gpsEpoch 0) = (gpsEpoch.daysUntil d : Int) :=
  ⟨fun _ h => utcToGps_of_le h, fun _ h => julDays_sub h 0 0⟩

/-- The day after the last of February 2012, a leap day. -/
def marchFirst : Date := Date.firstOf 2012 3 (by decide) (by decide)

/-- One second after its midnight, in the week 1677 of GPS. -/
theorem utc_to_gps_exact_after_leap_day :
    utcToGps ℚ 1330560001 (some 0) (some 0) = (some 345601, some 1677) ∧
      julDays ℚ (tmOf marchFirst 0) - julDays ℚ (tmOf gpsEpoch 0) =
        (gpsEpoch.daysUntil marchFirst : Int) := by
  obtain ⟨tow, week, heq, hlow, hhigh, hsum⟩ := utc_to_gps_exact.1 1330560001 (by decide) 0 0
  have hweek : week = 1677 := by omega
  have htow : tow = 345601 := by omega
  rw [heq, hweek, htow]
  exact ⟨rfl, utc_to_gps_exact.2 marchFirst (by decide)⟩

end OdroidU2.Gps
