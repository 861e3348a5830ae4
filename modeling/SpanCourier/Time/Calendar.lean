import SpanCourier.Text.Utf8

/-!
# dates of the Gregorian calendar

Days are counted from 1 March of the year 0, so that the leap day ends a year.  Four hundred years
are an era of 146097 days: four centuries of 36524 days and one day more; a century is 25 runs of
four years of 1461 days, the last of them a day shorter unless it ends the era; a run of four years
is four years of 365 days and one day more.

* `Date.ofDay`         the date of a day;
* `Date.toDay`         the day of a date;
* `annotationText`     the date and time of day of a number of microseconds since 1970.
-/

namespace SpanCourier

/-- a date of the Gregorian calendar, continued to all years -/
structure Date where
  year : Nat
  month : Nat
  day : Nat
  deriving DecidableEq, Inhabited

/-- the first of March of the year 0, counted back from 1970 -/
def daysTo1970 : Nat := 719468

/-- number of days before each month of a year that starts with March -/
def daysBefore (m : Nat) : Nat := (153 * m + 2) / 5

namespace Date

/-- the date of a day counted from 1 March of the year 0 -/
def ofDay (n : Nat) : Date :=
  let era := n / 146097
  let inEra := n % 146097
  let century := min 3 (inEra / 36524)
  let inCentury := inEra - century * 36524
  let quad := inCentury / 1461
  let inQuad := inCentury % 1461
  let inQuadYear := min 3 (inQuad / 365)
  let inYear := inQuad - inQuadYear * 365
  let year := era * 400 + century * 100 + quad * 4 + inQuadYear
  let m := (5 * inYear + 2) / 153
  let day := inYear - daysBefore m + 1
  if m < 10 then ⟨year, m + 3, day⟩ else ⟨year + 1, m - 9, day⟩

def toDay (d : Date) : Nat :=
  let y := if d.month < 3 then d.year - 1 else d.year
  let m := if d.month < 3 then d.month + 9 else d.month - 3
  y * 365 + y / 4 - y / 100 + y / 400 + daysBefore m + (d.day - 1)

end Date

def padded (w n : Nat) : String :=
  let digits := toString n
  String.ofList (List.replicate (w - digits.length) '0') ++ digits

/-- four digits, or a plus sign and all digits from the year 10000 on -/
def yearText (y : Nat) : String := if y < 10000 then padded 4 y else "+" ++ toString y

/-- the last microsecond that the calendar of annotations covers, at the end of the year 262142 -/
def lastCalendarMicro : Nat := 8210266876799999999

def timeOfDayText (micros : Nat) : String :=
  let seconds := micros / 1000000
  padded 2 (seconds / 3600) ++ ":" ++ padded 2 (seconds / 60 % 60) ++ ":" ++ padded 2 (seconds % 60)
    ++ "." ++ padded 6 (micros % 1000000)

def microsPerDay : Nat := 86400000000

/-- the date and time of day of a number of microseconds since 1970, such as
`2017-01-12 (00:27:44.123456)`; past the end of the calendar the number itself -/
def annotationText (micros : UInt64) : String :=
  let n := micros.toNat
  if n ≤ lastCalendarMicro then
    let date := Date.ofDay (n / microsPerDay + daysTo1970)
    yearText date.year ++ "-" ++ padded 2 date.month ++ "-" ++ padded 2 date.day
      ++ " (" ++ timeOfDayText (n % microsPerDay) ++ ")"
  else toString n

end SpanCourier
