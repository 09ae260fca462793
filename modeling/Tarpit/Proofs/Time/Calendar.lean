import Tarpit.Time.Calendar

/-!
# Dates of days

The date of a day number is one that the calendar has.
-/

namespace Tarpit.Time

/-- A year from March has its 366th day only before a leap year. -/
theorem isLeap_of_last_day {n : Int} (h0 : 0 ≤ n) (h1 : n < 146097)
    (hlast : n - daysBeforeYear (yearOfEra n) = 365) (era : Int) :
    isLeap (yearOfEra n + era * 400 + 1) = true := by
  have hc0 : 0 ≤ centuryOfEra n ∧ centuryOfEra n ≤ 3 ∧ 0 ≤ n - 36524 * centuryOfEra n ∧
      n - 36524 * centuryOfEra n ≤ 36524 ∧
      (centuryOfEra n < 3 → n - 36524 * centuryOfEra n ≤ 36523) := by
    unfold centuryOfEra
    omega
  unfold yearOfEra at *
  simp only at *
  generalize centuryOfEra n = c at *
  generalize hdoc : n - 36524 * c = doc at *
  have hy : 0 ≤ yearOfFour (doc % 1461) ∧ yearOfFour (doc % 1461) ≤ 3 ∧
      (doc % 1461 - 365 * yearOfFour (doc % 1461) = 365 →
        yearOfFour (doc % 1461) = 3 ∧ doc % 1461 = 1460) := by
    unfold yearOfFour
    omega
  generalize yearOfFour (doc % 1461) = y at *
  have hq : 0 ≤ doc / 1461 ∧ doc / 1461 ≤ 24 := by omega
  have hsplit : doc = 1461 * (doc / 1461) + doc % 1461 := by omega
  generalize doc / 1461 = q at *
  generalize doc % 1461 = r at *
  have hfour : (100 * c + 4 * q + y) / 4 = 25 * c + q := by omega
  have hhundred : (100 * c + 4 * q + y) / 100 = c := by omega
  have hday : r - 365 * y = 365 := by
    unfold daysBeforeYear at hlast
    rw [hfour, hhundred] at hlast
    omega
  obtain ⟨rfl, rfl⟩ := hy.2.2 hday
  have hleap : (100 * c + 4 * q + 3 + era * 400 + 1) % 4 = 0 := by omega
  have hcentury : (100 * c + 4 * q + 3 + era * 400 + 1) % 100 ≠ 0 ∨
      (100 * c + 4 * q + 3 + era * 400 + 1) % 400 = 0 := by
    by_cases hlate : q = 24
    · right
      omega
    · left
      omega
  simp only [isLeap, hleap, Bool.and_eq_true, Bool.or_eq_true, bne_iff_ne, ne_eq, beq_iff_eq]
  exact ⟨trivial, hcentury⟩

theorem isValid_dateOfDay (day : Int) : (dateOfDay day).isValid = true := by
  have hpos : 0 ≤ (day + 719468) % 146097 := by omega
  have hlt : (day + 719468) % 146097 < 146097 := by omega
  obtain ⟨hy0, hy1, hd0, hd1⟩ := yearOfEra_bounds hpos hlt
  have hleap := fun hlast => isLeap_of_last_day hpos hlt hlast ((day + 719468) / 146097)
  unfold dateOfDay
  simp only
  generalize (day + 719468) / 146097 = era at *
  generalize (day + 719468) % 146097 = doe at *
  generalize yearOfEra doe = yoe at *
  generalize doe - daysBeforeYear yoe = doy at *
  have hm0 : 0 ≤ (5 * doy + 2) / 153 ∧ (5 * doy + 2) / 153 ≤ 11 := by omega
  generalize hmonth : (5 * doy + 2) / 153 = mp at *
  unfold daysBeforeMonth
  by_cases hfebruary : mp = 11
  · -- The last day of February is there in leap years only.
    subst hfebruary
    have hshort : 28 ≤ if isLeap (yoe + era * 400 + 1) then 29 else 28 := by
      split
      · omega
      · omega
    by_cases hlast : doy = 365
    · simp [Date.isValid, daysInMonth, hleap hlast, hlast]
    · simp [Date.isValid, daysInMonth]
      omega
  · have hcases : mp = 0 ∨ mp = 1 ∨ mp = 2 ∨ mp = 3 ∨ mp = 4 ∨ mp = 5 ∨ mp = 6 ∨ mp = 7 ∨ mp = 8 ∨
        mp = 9 ∨ mp = 10 := by
      omega
    rcases hcases with rfl | rfl | rfl | rfl | rfl | rfl | rfl | rfl | rfl | rfl | rfl
    all_goals simp [Date.isValid, daysInMonth]
    all_goals omega

end Tarpit.Time
