/-!
# The Gregorian calendar

Day numbers and dates of the proleptic Gregorian calendar.  Day 0 is the first
of January 1970.  Years are counted from March inside eras of 400 years, so a
leap day is the last day of its year.
-/

namespace Tarpit.Time

/-- A date; months and days count from 1. -/
structure Date where
  year : Int
  month : Nat
  day : Nat
  deriving DecidableEq, Repr

def isLeap (year : Int) : Bool :=
  year % 4 == 0 && (year % 100 != 0 || year % 400 == 0)

/-- The days of a month of a year. -/
def daysInMonth (year : Int) (month : Nat) : Nat :=
  if month = 2 then (if isLeap year then 29 else 28)
  else if month = 4 ∨ month = 6 ∨ month = 9 ∨ month = 11 then 30
  else 31

def Date.isValid (d : Date) : Bool :=
  1 ≤ d.month && d.month ≤ 12 && 1 ≤ d.day && d.day ≤ daysInMonth d.year d.month

/-- The century of a day of an era; the last one takes the leap day of the era. -/
def centuryOfEra (dayOfEra : Int) : Int :=
  min (dayOfEra / 36524) 3

/-- The year of a day of four years; the last one takes the leap day. -/
def yearOfFour (dayOfFour : Int) : Int :=
  min (dayOfFour / 365) 3

/-- The year of a day of an era. -/
def yearOfEra (dayOfEra : Int) : Int :=
  let century := centuryOfEra dayOfEra
  let dayOfCentury := dayOfEra - 36524 * century
  100 * century + 4 * (dayOfCentury / 1461) + yearOfFour (dayOfCentury % 1461)

/-- The days of an era before one of its years. -/
def daysBeforeYear (yearOfEra : Int) : Int :=
  365 * yearOfEra + yearOfEra / 4 - yearOfEra / 100

/-- The days of a year that starts in March before one of its months, March being 0. -/
def daysBeforeMonth (month : Int) : Int :=
  (153 * month + 2) / 5

def dateOfDay (day : Int) : Date :=
  let shifted := day + 719468
  let era := shifted / 146097
  let dayOfEra := shifted % 146097
  let yoe := yearOfEra dayOfEra
  let dayOfYear := dayOfEra - daysBeforeYear yoe
  let monthFromMarch := (5 * dayOfYear + 2) / 153
  let month := if monthFromMarch < 10 then monthFromMarch + 3 else monthFromMarch - 9
  { year := yoe + era * 400 + (if month ≤ 2 then 1 else 0)
    month := month.toNat
    day := (dayOfYear - daysBeforeMonth monthFromMarch + 1).toNat }

def Date.dayNumber (d : Date) : Int :=
  let year := if d.month ≤ 2 then d.year - 1 else d.year
  let monthFromMarch : Int := if d.month ≤ 2 then (d.month : Int) + 9 else (d.month : Int) - 3
  let dayOfYear := daysBeforeMonth monthFromMarch + (d.day : Int) - 1
  year / 400 * 146097 + (daysBeforeYear (year % 400) + dayOfYear) - 719468

/-- A day of an era lies in its year, which has at most 366 days. -/
theorem yearOfEra_bounds {n : Int} (h0 : 0 ≤ n) (h1 : n < 146097) :
    0 ≤ yearOfEra n ∧ yearOfEra n < 400 ∧ 0 ≤ n - daysBeforeYear (yearOfEra n) ∧
      n - daysBeforeYear (yearOfEra n) ≤ 365 := by
  have hc0 : 0 ≤ centuryOfEra n ∧ centuryOfEra n ≤ 3 ∧ 0 ≤ n - 36524 * centuryOfEra n ∧
      n - 36524 * centuryOfEra n ≤ 36524 := by
    unfold centuryOfEra
    omega
  unfold yearOfEra
  simp only
  generalize centuryOfEra n = c at *
  generalize hdoc : n - 36524 * c = doc at *
  have hy : 0 ≤ yearOfFour (doc % 1461) ∧ yearOfFour (doc % 1461) ≤ 3 ∧
      0 ≤ doc % 1461 - 365 * yearOfFour (doc % 1461) ∧
      doc % 1461 - 365 * yearOfFour (doc % 1461) ≤ 365 := by
    unfold yearOfFour
    omega
  generalize yearOfFour (doc % 1461) = y at *
  have hq : 0 ≤ doc / 1461 ∧ doc / 1461 ≤ 24 := by omega
  have hsplit : doc = 1461 * (doc / 1461) + doc % 1461 := by omega
  generalize doc / 1461 = q at *
  generalize doc % 1461 = r at *
  have hfour : (100 * c + 4 * q + y) / 4 = 25 * c + q := by omega
  have hhundred : (100 * c + 4 * q + y) / 100 = c := by omega
  unfold daysBeforeYear
  rw [hfour, hhundred]
  omega

/-- The day number of the date of a day is that day. -/
theorem dayNumber_dateOfDay (day : Int) : (dateOfDay day).dayNumber = day := by
  have hpos : 0 ≤ (day + 719468) % 146097 := by omega
  have hlt : (day + 719468) % 146097 < 146097 := by omega
  obtain ⟨hy0, hy1, hd0, hd1⟩ := yearOfEra_bounds hpos hlt
  have hsplit : (day + 719468) / 146097 * 146097 + (day + 719468) % 146097 - 719468 = day := by
    omega
  unfold dateOfDay Date.dayNumber daysBeforeMonth
  simp only
  generalize (day + 719468) / 146097 = era at *
  generalize (day + 719468) % 146097 = doe at *
  generalize yearOfEra doe = yoe at *
  have hdoe : daysBeforeYear yoe + (doe - daysBeforeYear yoe) = doe := by omega
  generalize doe - daysBeforeYear yoe = doy at *
  have hm0 : 0 ≤ (5 * doy + 2) / 153 ∧ (5 * doy + 2) / 153 ≤ 11 := by omega
  have hback : (153 * ((5 * doy + 2) / 153) + 2) / 5 ≤ doy := by omega
  generalize (5 * doy + 2) / 153 = mp at *
  by_cases hmp : mp < 10
  · have hmonth : ¬ (mp + 3).toNat ≤ 2 := by omega
    have hmonth' : ¬ mp + 3 ≤ 2 := by omega
    have hcast : ((mp + 3).toNat : Int) - 3 = mp := by omega
    simp only [hmp, if_true, hmonth, if_false, hmonth', hcast]
    have hmod : (yoe + era * 400 + 0) % 400 = yoe := by omega
    have hdiv : (yoe + era * 400 + 0) / 400 = era := by omega
    rw [hmod, hdiv]
    omega
  · have hmonth : (mp - 9).toNat ≤ 2 := by omega
    have hmonth' : mp - 9 ≤ 2 := by omega
    have hcast : ((mp - 9).toNat : Int) + 9 = mp := by omega
    simp only [hmp, if_false, hmonth, if_true, hmonth', hcast]
    have hmod : (yoe + era * 400 + 1 - 1) % 400 = yoe := by omega
    have hdiv : (yoe + era * 400 + 1 - 1) / 400 = era := by omega
    rw [hmod, hdiv]
    omega

example : dateOfDay 0 = Date.mk 1970 1 1 := by decide

end Tarpit.Time
