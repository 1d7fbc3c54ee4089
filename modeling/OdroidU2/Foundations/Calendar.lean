import Mathlib

/-!
# The Gregorian Calendar

The proleptic Gregorian calendar as a succession of dates: a date is a year, a month and a
day that the month has, and every date has a next one.  Dates are ordered by year, month and
day, and the days between two dates are the dates from the one up to the other.

- `Date.lt_next_iff` — nothing lies between a date and the next
- `Date.exists_iterate_next` — every later date is reached day by day
- `Date.countsDays` — a number that grows by one from day to day counts days
-/

namespace OdroidU2.Foundations

/-! ## §1 Dates -/

/-- Is this a leap year?  Every fourth year is, save the centuries that 400 does not divide. -/
def IsLeap (year : Int) : Prop := year % 4 = 0 ∧ (year % 100 ≠ 0 ∨ year % 400 = 0)

instance (year : Int) : Decidable (IsLeap year) := inferInstanceAs (Decidable (_ ∧ _))

/-- The days of a month, months counted from one. -/
def daysInMonth (year : Int) (month : Nat) : Nat :=
  if month = 2 then if IsLeap year then 29 else 28
  else if month = 4 ∨ month = 6 ∨ month = 9 ∨ month = 11 then 30
  else 31

theorem daysInMonth_pos (year : Int) (month : Nat) : 0 < daysInMonth year month := by
  unfold daysInMonth
  split_ifs <;> decide

/-- A date of the calendar. -/
@[ext]
structure Date where
  year : Int
  month : Nat
  day : Nat
  month_pos : 0 < month
  month_le : month ≤ 12
  day_pos : 0 < day
  day_le : day ≤ daysInMonth year month

namespace Date

/-- The first day of a month. -/
def firstOf (year : Int) (month : Nat) (hpos : 0 < month) (hle : month ≤ 12) : Date where
  year := year
  month := month
  day := 1
  month_pos := hpos
  month_le := hle
  day_pos := Nat.one_pos
  day_le := daysInMonth_pos year month

/-- The first day of a year. -/
def newYear (year : Int) : Date := firstOf year 1 Nat.one_pos (by decide)

/-- The next day. -/
def next (d : Date) : Date :=
  if hday : d.day < daysInMonth d.year d.month then
    { d with day := d.day + 1, day_pos := Nat.succ_pos _, day_le := hday }
  else if hmonth : d.month < 12 then firstOf d.year (d.month + 1) (Nat.succ_pos _) hmonth
  else newYear (d.year + 1)

/-- What the next day is: a day of the same month, or the first of the month after a last
day, which in December is January. -/
theorem next_cases (d : Date) :
    (d.next.year = d.year ∧ d.next.month = d.month ∧ d.next.day = d.day + 1) ∨
      (d.day = daysInMonth d.year d.month ∧ d.month < 12 ∧
        d.next.year = d.year ∧ d.next.month = d.month + 1 ∧ d.next.day = 1) ∨
      (d.day = daysInMonth d.year d.month ∧ d.month = 12 ∧
        d.next.year = d.year + 1 ∧ d.next.month = 1 ∧ d.next.day = 1) := by
  have hday := d.day_le
  have hmonth := d.month_le
  unfold next
  split
  · -- a day inside the month
    exact .inl ⟨rfl, rfl, rfl⟩
  · next hlast =>
    have hlast : d.day = daysInMonth d.year d.month := by omega
    split
    · -- the last day of a month that is not December
      next hlt => exact .inr (.inl ⟨hlast, hlt, rfl, rfl, rfl⟩)
    · -- the thirty-first of December
      next hdec => exact .inr (.inr ⟨hlast, by omega, rfl, rfl, rfl⟩)

/-! ## §2 The Order -/

/-- Dates by year, month and day. -/
instance : LinearOrder Date :=
  LinearOrder.lift' (fun d => toLex (d.year, toLex (d.month, d.day))) fun d e h => by
    obtain ⟨hyear, hrest⟩ := Prod.mk.inj (toLex.injective h)
    obtain ⟨hmonth, hday⟩ := Prod.mk.inj (toLex.injective hrest)
    exact Date.ext hyear hmonth hday

theorem lt_def {d e : Date} :
    d < e ↔ d.year < e.year ∨ d.year = e.year ∧
      (d.month < e.month ∨ d.month = e.month ∧ d.day < e.day) := by
  show toLex (d.year, toLex (d.month, d.day)) < toLex (e.year, toLex (e.month, e.day)) ↔ _
  simp only [Prod.Lex.toLex_lt_toLex]

/-- Nothing lies between a date and the next. -/
theorem lt_next_iff {c d : Date} : c < d.next ↔ c ≤ d := by
  have hc := c.day_le
  have hmonth := c.month_le
  have hpos := c.month_pos
  have hday := c.day_pos
  rw [← not_lt, lt_def, lt_def]
  -- in the month of `d` the days of `c` are at most its last
  have hsame : c.year = d.year → c.month = d.month → c.day ≤ daysInMonth d.year d.month := by
    intro hyear hmonth
    rw [← hyear, ← hmonth]
    exact hc
  obtain ⟨hy, hm, hd⟩ | ⟨hlast, hlt, hy, hm, hd⟩ | ⟨hlast, hdec, hy, hm, hd⟩ := d.next_cases <;>
    rw [hy, hm, hd] <;> omega

theorem lt_next (d : Date) : d < d.next := lt_next_iff.mpr le_rfl

theorem next_le_of_lt {c d : Date} (h : c < d) : c.next ≤ d := by
  rw [← not_lt, lt_next_iff, not_le]
  exact h

/-! ## §3 Day by Day -/

/-- A number that is larger for later dates. -/
def ordinal (d : Date) : Int := (d.year * 13 + d.month) * 32 + d.day

theorem ordinal_lt {d e : Date} (h : d < e) : d.ordinal < e.ordinal := by
  -- a month counts 31 days in `ordinal`, so it is enough that none is longer
  have hd : d.day ≤ 31 := d.day_le.trans (by unfold daysInMonth; split_ifs <;> decide)
  have hdm := d.month_le
  have hem := e.month_pos
  have hed := e.day_pos
  rw [lt_def] at h
  unfold ordinal
  omega

/-- Every later date is reached day by day. -/
theorem exists_iterate_next {d e : Date} (h : d ≤ e) : ∃ n : Nat, next^[n] d = e := by
  -- the distance left to `e` falls from day to day
  induction hk : (e.ordinal - d.ordinal).toNat using Nat.strong_induction_on generalizing d with
  | _ k ih =>
    rcases h.eq_or_lt with heq | hlt
    · exact ⟨0, heq⟩
    · have hcloser := ordinal_lt d.lt_next
      have hfar := ordinal_lt hlt
      obtain ⟨n, hn⟩ := ih _ (by omega) (next_le_of_lt hlt) rfl
      exact ⟨n + 1, hn⟩

/-- The days from a date up to another, the second not included. -/
noncomputable def daysUntil (d e : Date) : Nat := (Set.Ico d e).ncard

theorem daysUntil_iterate (d : Date) (n : Nat) :
    (Set.Ico d (next^[n] d)).Finite ∧ daysUntil d (next^[n] d) = n ∧ d ≤ next^[n] d := by
  -- one more day is one more element of the interval, and the interval is finite, without which
  -- `ncard` would say nothing
  induction n with
  | zero => exact ⟨by simp, by simp [daysUntil], le_rfl⟩
  | succ n ih =>
    obtain ⟨hfinite, hcount, hle⟩ := ih
    rw [Function.iterate_succ_apply']
    -- there is no date between a day and the next one
    have hinsert : Set.Ico d (next (next^[n] d)) = insert (next^[n] d) (Set.Ico d (next^[n] d)) := by
      ext c
      simp only [Set.mem_Ico, Set.mem_insert_iff, lt_next_iff]
      constructor
      · intro ⟨hlow, hhigh⟩
        exact hhigh.eq_or_lt.imp_right fun hlt => ⟨hlow, hlt⟩
      · rintro (rfl | ⟨hlow, hhigh⟩)
        · exact ⟨hle, le_rfl⟩
        · exact ⟨hlow, hhigh.le⟩
    -- the new day lies beyond every day counted so far
    refine ⟨hinsert ▸ hfinite.insert _, ?_, hle.trans (lt_next _).le⟩
    rw [daysUntil, hinsert, Set.ncard_insert_of_notMem (by simp) hfinite]
    exact congrArg Nat.succ hcount

/-- A number that grows by one from day to day counts days. -/
theorem countsDays {f : Date → Int} (hnext : ∀ d, f d.next = f d + 1) (d : Date) (n : Nat) :
    f (next^[n] d) = f d + n := by
  induction n with
  | zero => simp
  | succ n ih =>
    rw [Function.iterate_succ_apply', hnext, ih]
    push_cast
    omega

theorem countsDays_sub {f : Date → Int} (hnext : ∀ d, f d.next = f d + 1) {d e : Date}
    (h : d ≤ e) : f e - f d = daysUntil d e := by
  obtain ⟨n, rfl⟩ := exists_iterate_next h
  rw [countsDays hnext, (daysUntil_iterate d n).2.1]
  omega

end Date

end OdroidU2.Foundations
