/-
Module: Chief.Foundation.Calendar
Layer: Foundation
Purpose: The proleptic Gregorian calendar as day counts, in the branch-free civil-calendar form, and
  the proof that the two conversions invert each other.
Trusted boundary: none
Main exports: CivilDate, civilFromDays, daysFromCivil, daysFromCivil_civilFromDays,
  civilFromDays_month, civilFromDays_day, year_bounds
-/
import Mathlib.Tactic.IntervalCases
import Mathlib.Tactic.Common

namespace Chief.Foundation

/-- A year, a month from one to twelve and a day of the month. -/
structure CivilDate where
  year : Int
  month : Int
  day : Int
deriving DecidableEq, Repr

/-- The civil date of a day counted from 1970-01-01. -/
def civilFromDays (days : Int) : CivilDate :=
  let z := days + 719468
  let era := z / 146097
  let doe := z % 146097
  let yoe := (doe - doe / 1460 + doe / 36524 - doe / 146096) / 365
  let y := yoe + era * 400
  let doy := doe - (365 * yoe + yoe / 4 - yoe / 100)
  let mp := (5 * doy + 2) / 153
  let d := doy - (153 * mp + 2) / 5 + 1
  let m := if mp < 10 then mp + 3 else mp - 9
  { year := if m ≤ 2 then y + 1 else y, month := m, day := d }

/-- The day count of a civil date. -/
def daysFromCivil (year month day : Int) : Int :=
  let y := if month ≤ 2 then year - 1 else year
  let era := y / 400
  let yoe := y - era * 400
  let mp := if month > 2 then month - 3 else month + 9
  let doy := (153 * mp + 2) / 5 + day - 1
  let doe := yoe * 365 + yoe / 4 - yoe / 100 + doy
  era * 146097 + doe - 719468

/-- The year of the era a day of the era falls in. -/
private def yearOfEra (doe : Int) : Int :=
  (doe - doe / 1460 + doe / 36524 - doe / 146096) / 365

private theorem yearOfEra_bounds {doe : Int} (low : 0 ≤ doe) (high : doe < 146097) :
    0 ≤ yearOfEra doe ∧ yearOfEra doe < 400 := by
  unfold yearOfEra
  omega

/-- The year of the era split into centuries, leap cycles and years: the day of the year stays
within one year of it. -/
private theorem dayOfYear_split {doe : Int} (century cycle rest : Int) (low : 0 ≤ doe)
    (high : doe < 146097) (centuryLow : 0 ≤ century) (centuryHigh : century ≤ 3)
    (cycleLow : 0 ≤ cycle) (cycleHigh : cycle ≤ 24) (restLow : 0 ≤ rest) (restHigh : rest ≤ 3)
    (year : 100 * century + 4 * cycle + rest = yearOfEra doe) :
    0 ≤ doe - (36524 * century + 1461 * cycle + 365 * rest) ∧
      doe - (36524 * century + 1461 * cycle + 365 * rest) ≤ 366 := by
  unfold yearOfEra at year
  interval_cases century
  all_goals
    constructor
    · interval_cases rest <;> omega
    · interval_cases rest <;> omega

private theorem dayOfYear_bounds {doe : Int} (low : 0 ≤ doe) (high : doe < 146097) :
    0 ≤ doe - (365 * yearOfEra doe + yearOfEra doe / 4 - yearOfEra doe / 100) ∧
      doe - (365 * yearOfEra doe + yearOfEra doe / 4 - yearOfEra doe / 100) ≤ 366 := by
  have bounds := yearOfEra_bounds low high
  have split := dayOfYear_split (yearOfEra doe / 100) (yearOfEra doe % 100 / 4)
    (yearOfEra doe % 4) low high (by omega) (by omega) (by omega) (by omega) (by omega) (by omega)
    (by omega)
  omega

/-- The date of a day in the terms the proofs compute with: the era, the year of the era and the
day of the year it was read from. -/
private theorem civilFromDays_parts (days : Int) :
    ∃ era yoe doy : Int, 0 ≤ yoe ∧ yoe < 400 ∧ 0 ≤ doy ∧ doy ≤ 366 ∧
      days = era * 146097 + (yoe * 365 + yoe / 4 - yoe / 100 + doy) - 719468 ∧
      civilFromDays days =
        { year := if (if (5 * doy + 2) / 153 < 10 then (5 * doy + 2) / 153 + 3
              else (5 * doy + 2) / 153 - 9) ≤ 2 then yoe + era * 400 + 1 else yoe + era * 400
          month := if (5 * doy + 2) / 153 < 10 then (5 * doy + 2) / 153 + 3
            else (5 * doy + 2) / 153 - 9
          day := doy - (153 * ((5 * doy + 2) / 153) + 2) / 5 + 1 } := by
  have low : 0 ≤ (days + 719468) % 146097 := Int.emod_nonneg _ (by decide)
  have high : (days + 719468) % 146097 < 146097 := Int.emod_lt_of_pos _ (by decide)
  have year := yearOfEra_bounds low high
  have day := dayOfYear_bounds low high
  refine ⟨(days + 719468) / 146097, yearOfEra ((days + 719468) % 146097), _,
    year.1, year.2, day.1, day.2, ?_, rfl⟩
  omega

/-- Rendering a day and reading it back is the identity. -/
theorem daysFromCivil_civilFromDays (days : Int) :
    daysFromCivil (civilFromDays days).year (civilFromDays days).month
      (civilFromDays days).day = days := by
  obtain ⟨era, yoe, doy, yoeLow, yoeHigh, doyLow, doyHigh, count, date⟩ :=
    civilFromDays_parts days
  rw [date, daysFromCivil, count]
  generalize shape : (5 * doy + 2) / 153 = mp
  have mpBounds : 0 ≤ mp ∧ mp ≤ 11 := by omega
  rcases lt_or_ge mp 10 with spring | winter
  · simp only [spring, if_true]
    rw [if_neg (by omega), if_neg (by omega), if_pos (by omega)]
    have eraBack : (yoe + era * 400) / 400 = era := by omega
    rw [eraBack]
    have yoeBack : yoe + era * 400 - era * 400 = yoe := by omega
    rw [yoeBack]
    omega
  · simp only [not_lt.mpr winter, if_false]
    rw [if_pos (by omega), if_pos (by omega), if_neg (by omega)]
    have eraBack : (yoe + era * 400 + 1 - 1) / 400 = era := by omega
    rw [eraBack]
    have yoeBack : yoe + era * 400 + 1 - 1 - era * 400 = yoe := by omega
    rw [yoeBack]
    omega

theorem civilFromDays_month (days : Int) :
    1 ≤ (civilFromDays days).month ∧ (civilFromDays days).month ≤ 12 := by
  obtain ⟨era, yoe, doy, -, -, doyLow, doyHigh, -, date⟩ := civilFromDays_parts days
  rw [date]
  dsimp only
  split <;> omega

theorem civilFromDays_day (days : Int) :
    1 ≤ (civilFromDays days).day ∧ (civilFromDays days).day ≤ 31 := by
  obtain ⟨era, yoe, doy, -, -, doyLow, doyHigh, -, date⟩ := civilFromDays_parts days
  rw [date]
  dsimp only
  omega

/-- The days from -999-01-01 to 9999-12-31 are the ones whose year takes four characters. -/
theorem year_bounds {days : Int} :
    (-999 ≤ (civilFromDays days).year ∧ (civilFromDays days).year ≤ 9999) ↔
      (daysFromCivil (-999) 1 1 ≤ days ∧ days ≤ daysFromCivil 9999 12 31) := by
  obtain ⟨era, yoe, doy, yoeLow, yoeHigh, doyLow, doyHigh, count, date⟩ :=
    civilFromDays_parts days
  have first : daysFromCivil (-999) 1 1 = -1084405 := by decide
  have last : daysFromCivil 9999 12 31 = 2932896 := by decide
  rw [date, first, last]
  dsimp only
  -- Only in the first and the last era does the day within the era matter.
  rcases lt_trichotomy era (-3) with before | rfl | afterFirst
  · split <;> split <;> omega
  · split <;> split <;> omega
  · rcases lt_trichotomy era 24 with between | rfl | beyond
    · split <;> split <;> omega
    · split <;> split <;> omega
    · split <;> split <;> omega

end Chief.Foundation
