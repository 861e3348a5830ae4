import Mathlib.Order.Monotone.Basic
import Mathlib.Tactic.IntervalCases
import SpanCourier.Time.Calendar
import SpanCourier.Total

/-!
# the calendar counts days

A year of the Gregorian calendar has 365 days and a leap year one more: every fourth year is one, but of
the years that end a century only every fourth.  A date is real if its month has the day, and it counts
the days of all years before its own, of all months before its own and of its own month.  The date of a
day is real and counts that day, for as many years as there are.

* `Date.count`           the number of a date, counted by years, months and days;
* `Date.count_eq`        the same in closed form;
* `isReal_ofDay`, `count_ofDay`   the date of a day;
* `count_lt_count`       an earlier date counts less.
-/

namespace SpanCourier

def IsLeap (y : Nat) : Prop := 4 ∣ y ∧ (¬ 100 ∣ y ∨ 400 ∣ y)

instance (y : Nat) : Decidable (IsLeap y) := inferInstanceAs (Decidable (_ ∧ _))

def yearLength (y : Nat) : Nat := if IsLeap y then 366 else 365

def monthLength (y : Nat) : Nat → Nat
  | 2 => if IsLeap y then 29 else 28
  | 4 | 6 | 9 | 11 => 30
  | _ => 31

/-- number of days of the years before a year, from the year 0 on -/
def daysBeforeYear (y : Nat) : Nat := total yearLength (List.range y)

/-- number of days of a year before a month -/
def daysBeforeMonth (y m : Nat) : Nat := total (monthLength y) (List.range' 1 (m - 1))

namespace Date

/-- the year has the month, and the month the day -/
structure IsReal (d : Date) : Prop where
  month_pos : 1 ≤ d.month
  month_le : d.month ≤ 12
  day_pos : 1 ≤ d.day
  day_le : d.day ≤ monthLength d.year d.month

/-- number of days from 1 January of the year 0 to a date -/
def count (d : Date) : Nat :=
  daysBeforeYear d.year + daysBeforeMonth d.year d.month + (d.day - 1)

end Date

/-! ## years -/

theorem daysBeforeYear_succ (y : Nat) :
    daysBeforeYear (y + 1) = daysBeforeYear y + yearLength y := by
  rw [daysBeforeYear, List.range_succ, total_append, total_cons, total_nil, Nat.add_zero]
  rfl

/-- the days before a year, by the leap years among those before it -/
theorem daysBeforeYear_eq (y : Nat) :
    daysBeforeYear (y + 1) + y / 100 = 365 * (y + 1) + y / 4 + y / 400 + 1 := by
  induction y with
  | zero => rfl
  | succ y ih =>
    rw [daysBeforeYear_succ]
    by_cases h : IsLeap (y + 1)
    · rw [yearLength, if_pos h]
      unfold IsLeap at h
      omega
    · rw [yearLength, if_neg h]
      unfold IsLeap at h
      omega

theorem daysBeforeYear_of_pos {y : Nat} (h : 1 ≤ y) :
    daysBeforeYear y + (y - 1) / 100 = 365 * y + (y - 1) / 4 + (y - 1) / 400 + 1 := by
  obtain ⟨y, rfl⟩ := Nat.exists_eq_add_of_le' h
  exact daysBeforeYear_eq y

theorem daysBeforeYear_mono : Monotone daysBeforeYear :=
  monotone_nat_of_le_succ fun y => by
    rw [daysBeforeYear_succ]
    exact Nat.le_add_right _ _

/-! ## months -/

theorem february_add (y : Nat) : monthLength y 2 + 337 = yearLength y := by
  rw [monthLength, yearLength]
  split <;> rfl

theorem monthLength_le (y m : Nat) : monthLength y m ≤ 31 := by
  unfold monthLength
  split
  · split <;> decide
  all_goals decide

theorem daysBeforeMonth_succ (y : Nat) {m : Nat} (h : 1 ≤ m) :
    daysBeforeMonth y (m + 1) = daysBeforeMonth y m + monthLength y m := by
  obtain ⟨m, rfl⟩ : ∃ k, m = k + 1 := ⟨m - 1, by omega⟩
  rw [daysBeforeMonth, daysBeforeMonth, Nat.add_sub_cancel, Nat.add_sub_cancel, List.range'_1_concat,
    total_append, total_cons, total_nil, Nat.add_zero, Nat.add_comm 1 m]

theorem daysBeforeMonth_mono (y : Nat) : Monotone (daysBeforeMonth y) := by
  refine monotone_nat_of_le_succ fun m => ?_
  rcases Nat.eq_zero_or_pos m with rfl | hm
  · exact Nat.le_refl _
  · rw [daysBeforeMonth_succ y hm]
    exact Nat.le_add_right _ _

theorem daysBeforeMonth_of_lt {y m : Nat} (hpos : 1 ≤ m) (hlt : m < 3) :
    daysBeforeMonth y m = 31 * (m - 1) := by
  interval_cases m <;> rfl

/-- from March on the months have the same lengths in every year -/
theorem daysBeforeMonth_of_le {y m : Nat} (h : m ≤ 9) :
    daysBeforeMonth y (m + 3) + 306 = yearLength y + daysBefore m := by
  rw [← february_add, daysBeforeMonth]
  interval_cases m <;> simp only [List.range', total_cons, total_nil, monthLength, daysBefore] <;> omega

namespace Date

/-- the days that a date counts by years, months and days are those from March of the year 0, and sixty
more -/
theorem count_eq {d : Date} (hpos : 1 ≤ d.month) (hle : d.month ≤ 12)
    (hstart : 1 ≤ d.year ∨ 3 ≤ d.month) : d.count = d.toDay + 60 := by
  rw [count, toDay]
  by_cases h : d.month < 3
  · have hyear := daysBeforeYear_eq (d.year - 1)
    have hmonth := daysBeforeMonth_of_lt (y := d.year) hpos h
    rw [Nat.sub_add_cancel (by omega)] at hyear
    simp only [if_pos h, daysBefore]
    omega
  · have hyear := daysBeforeYear_eq d.year
    have hmonth := daysBeforeMonth_of_le (y := d.year) (m := d.month - 3) (by omega)
    rw [daysBeforeYear_succ] at hyear
    rw [Nat.sub_add_cancel (by omega)] at hmonth
    simp only [if_neg h]
    omega

/-! ## the date of a day -/

/-- the date of a day of a year that starts with March -/
def ofYearDay (year inYear : Nat) : Date :=
  let m := (5 * inYear + 2) / 153
  let day := inYear - daysBefore m + 1
  if m < 10 then ⟨year, m + 3, day⟩ else ⟨year + 1, m - 9, day⟩

/-- the day `inYear` of the year from March on, which has a leap day if the next year is a leap year -/
structure IsYearDay (year inYear : Nat) : Prop where
  le : inYear ≤ 365
  leap : inYear = 365 → IsLeap (year + 1)

/-- a day lies in an era of four hundred years, in one of its centuries, in one of the runs of four years
of that, and in one year of these -/
theorem exists_yearDay (n : Nat) : ∃ year inYear, ofDay n = ofYearDay year inYear
    ∧ IsYearDay year inYear ∧ n + year / 100 = year * 365 + year / 4 + year / 400 + inYear := by
  refine ⟨_, _, rfl, ?_⟩
  generalize hera : n / 146097 = era
  generalize hinEra : n % 146097 = inEra
  generalize hcentury : min 3 (inEra / 36524) = century
  generalize hinCentury : inEra - century * 36524 = inCentury
  generalize hquad : inCentury / 1461 = quad
  generalize hinQuad : inCentury % 1461 = inQuad
  generalize hinQuadYear : min 3 (inQuad / 365) = inQuadYear
  generalize hinYear : inQuad - inQuadYear * 365 = inYear
  -- only the last century of an era and the last year of four have one day more
  have hn : n = era * 146097 + inEra := by omega
  have hE : inEra = century * 36524 + inCentury ∧ century ≤ 3
      ∧ (inCentury < 36524 ∨ inCentury = 36524 ∧ century = 3) := by omega
  have hC : inCentury = quad * 1461 + inQuad ∧ quad ≤ 24 := by omega
  have hQ : inQuad = inQuadYear * 365 + inYear ∧ inQuadYear ≤ 3
      ∧ (inYear < 365 ∨ inYear = 365 ∧ inQuadYear = 3) := by omega
  clear hera hinEra hcentury hinCentury hquad hinQuad hinQuadYear hinYear
  refine ⟨⟨by omega, fun h => ?_⟩, by omega⟩
  unfold IsLeap
  omega

theorem isReal_ofYearDay {year inYear : Nat} (h : IsYearDay year inYear) :
    (ofYearDay year inYear).IsReal := by
  have hle := h.le
  unfold ofYearDay
  generalize hm : (5 * inYear + 2) / 153 = m
  have hm11 : m ≤ 11 := by omega
  dsimp only
  by_cases hlt : m < 10
  · rw [if_pos hlt]
    have hday : inYear - daysBefore m + 1 ≤ monthLength year (m + 3) := by
      unfold daysBefore
      clear hm11
      interval_cases m <;> simp only [monthLength] <;> omega
    exact ⟨Nat.le_add_left 1 _, by show m + 3 ≤ 12; omega, Nat.le_add_left 1 _, hday⟩
  · rw [if_neg hlt]
    have hday : inYear - daysBefore m + 1 ≤ monthLength (year + 1) (m - 9) := by
      rcases (by omega : m = 10 ∨ m = 11) with rfl | rfl
      · show inYear - 306 + 1 ≤ 31
        omega
      · show inYear - 337 + 1 ≤ if IsLeap (year + 1) then 29 else 28
        have hleap := h.leap
        split
        · omega
        · rename_i hnot
          have hne : inYear ≠ 365 := fun heq => hnot (hleap heq)
          omega
    exact ⟨by show 1 ≤ m - 9; omega, by show m - 9 ≤ 12; omega, Nat.le_add_left 1 _, hday⟩

theorem toDay_ofYearDay {year inYear : Nat} (h : IsYearDay year inYear) :
    (ofYearDay year inYear).toDay + year / 100 = year * 365 + year / 4 + year / 400 + inYear := by
  have hle := h.le
  unfold ofYearDay
  generalize hm : (5 * inYear + 2) / 153 = m
  dsimp only
  by_cases hlt : m < 10
  · rw [if_pos hlt, toDay]
    simp only [if_neg (by omega : ¬ m + 3 < 3), Nat.add_sub_cancel, daysBefore]
    omega
  · rw [if_neg hlt, toDay]
    simp only [if_pos (by omega : m - 9 < 3), Nat.add_sub_cancel,
      Nat.sub_add_cancel (by omega : 9 ≤ m), daysBefore]
    omega

/-- the date of a day is one of the calendar -/
theorem isReal_ofDay (n : Nat) : (ofDay n).IsReal := by
  obtain ⟨year, inYear, hdate, hday, -⟩ := exists_yearDay n
  rw [hdate]
  exact isReal_ofYearDay hday

theorem toDay_ofDay (n : Nat) : (ofDay n).toDay = n := by
  obtain ⟨year, inYear, hdate, hday, hn⟩ := exists_yearDay n
  have h := toDay_ofYearDay hday
  rw [hdate]
  omega

theorem march_le_ofDay (n : Nat) : 1 ≤ (ofDay n).year ∨ 3 ≤ (ofDay n).month := by
  obtain ⟨year, inYear, hdate, -, -⟩ := exists_yearDay n
  rw [hdate, ofYearDay]
  split
  · exact Or.inr (Nat.le_add_left 3 _)
  · exact Or.inl (Nat.le_add_left 1 _)

/-- the date of a day counts that day, after the sixty before March of the year 0 -/
theorem count_ofDay (n : Nat) : (ofDay n).count = n + 60 := by
  have hreal := isReal_ofDay n
  rw [count_eq hreal.month_pos hreal.month_le (march_le_ofDay n), toDay_ofDay]

/-! ## earlier dates count less -/

/-- a date is earlier than another: by its year, then its month, then its day -/
def IsBefore (d e : Date) : Prop :=
  d.year < e.year ∨ d.year = e.year ∧ (d.month < e.month ∨ d.month = e.month ∧ d.day < e.day)

theorem not_isBefore_self (d : Date) : ¬ d.IsBefore d := by
  unfold IsBefore
  omega

theorem isBefore_or (d e : Date) : d.IsBefore e ∨ d = e ∨ e.IsBefore d := by
  rw [Date.mk.injEq]
  unfold IsBefore
  omega

/-- a date comes before all of the next month -/
theorem IsReal.lt_daysBeforeMonth {d : Date} (h : d.IsReal) :
    daysBeforeMonth d.year d.month + (d.day - 1) < daysBeforeMonth d.year (d.month + 1) := by
  have hpos := h.day_pos
  have hle := h.day_le
  rw [daysBeforeMonth_succ d.year h.month_pos]
  omega

theorem daysBeforeMonth_thirteen (y : Nat) : daysBeforeMonth y 13 = yearLength y := by
  have h : daysBeforeMonth y 12 + 306 = yearLength y + 275 := daysBeforeMonth_of_le (Nat.le_refl 9)
  rw [daysBeforeMonth_succ y (by decide)]
  show daysBeforeMonth y 12 + 31 = yearLength y
  omega

/-- a date comes before all of the next year -/
theorem IsReal.count_lt {d : Date} (h : d.IsReal) : d.count < daysBeforeYear (d.year + 1) := by
  have hlt := h.lt_daysBeforeMonth
  have hmono : daysBeforeMonth d.year (d.month + 1) ≤ daysBeforeMonth d.year 13 :=
    daysBeforeMonth_mono d.year (Nat.succ_le_succ h.month_le)
  have hyear := daysBeforeMonth_thirteen d.year
  rw [daysBeforeYear_succ, count]
  omega

theorem daysBeforeYear_le_count (d : Date) : daysBeforeYear d.year ≤ d.count := by
  rw [count, Nat.add_assoc]
  exact Nat.le_add_right _ _

theorem count_lt_count {d e : Date} (hd : d.IsReal) (h : d.IsBefore e) :
    d.count < e.count := by
  rcases h with hyear | ⟨hyear, hmonth | ⟨hmonth, hday⟩⟩
  · calc d.count < daysBeforeYear (d.year + 1) := hd.count_lt
      _ ≤ daysBeforeYear e.year := daysBeforeYear_mono hyear
      _ ≤ e.count := e.daysBeforeYear_le_count
  · have hlt := hd.lt_daysBeforeMonth
    have hmono : daysBeforeMonth d.year (d.month + 1) ≤ daysBeforeMonth d.year e.month :=
      daysBeforeMonth_mono d.year hmonth
    rw [count, count, ← hyear]
    omega
  · have hpos := hd.day_pos
    rw [count, count, ← hyear, ← hmonth]
    omega

end Date

end SpanCourier
