/-
Module: Chief.Isotime
Layer: Model
Purpose: ISO-8601 rendering and parsing of epoch milliseconds: `iso_millis`, `parse_iso_millis` and
  `schedule_due_millis`.
Trusted boundary: human-reviewed translation
Main exports: isoMillis, parseIsoMillis, scheduleDueMillis, Readable, parseIsoMillis_isoMillis,
  eq_of_parseIsoMillis_isoMillis, readable_of_mem_range
-/
import Chief.Foundation.Text
import Chief.Foundation.Calendar
import Mathlib.Data.Int.Basic

namespace Chief

open Foundation

/-- Two-digit field of a rendering. -/
private def twoDigits (n : Int) : List Char := signPadded 2 n

/-- The characters of `iso_millis`. The month and the day are in their ranges, so the `u32`
conversions of the source never take their fallback. -/
def isoChars (epochMillis : Int) : List Char :=
  let days := epochMillis / 86400000
  let millisOfDay := epochMillis % 86400000
  let date := civilFromDays days
  signPadded 4 date.year ++ '-' :: (twoDigits date.month ++ '-' :: (twoDigits date.day ++ 'T' ::
    (twoDigits (millisOfDay / 3600000) ++ ':' :: (twoDigits (millisOfDay / 60000 % 60) ++ ':' ::
      (twoDigits (millisOfDay / 1000 % 60) ++ '.' ::
        (signPadded 3 (millisOfDay % 1000) ++ ['Z']))))))

/-- ISO-8601 rendering with exactly three fractional digits, UTC. -/
def isoMillis (epochMillis : Int) : String := String.ofList (isoChars epochMillis)

/-- The characters from `start` up to `stop`. -/
private def slice (text : List Char) (start stop : Nat) : List Char :=
  (text.drop start).take (stop - start)

/-- The optional `.fff` between the seconds and the `Z`. -/
def parseFraction (fraction : List Char) : Option Int :=
  match fraction with
  | [] => some 0
  | '.' :: digits =>
      if digits.length ≤ 3 then
        (parseDigits digits).map fun value => Int.ofNat (value * 10 ^ (3 - digits.length))
      else none
  | _ => none

/-- `parse_iso_millis` on characters. Every accepted byte is ASCII, so byte offsets and character
offsets agree on every text the parser accepts. -/
def parseIsoChars (text : List Char) : Option Int := do
  guard (20 ≤ text.length ∧ text.getLast? = some 'Z')
  let year ← parseSigned (slice text 0 4)
  let month ← parseSigned (slice text 5 7)
  let day ← parseSigned (slice text 8 10)
  let hour ← parseSigned (slice text 11 13)
  let minute ← parseSigned (slice text 14 16)
  let second ← parseSigned (slice text 17 19)
  guard (text[4]? = some '-' ∧ text[7]? = some '-' ∧ text[10]? = some 'T')
  guard (text[13]? = some ':' ∧ text[16]? = some ':')
  guard (1 ≤ month ∧ month ≤ 12 ∧ 1 ≤ day ∧ day ≤ 31)
  guard (¬ (hour > 23 ∨ minute > 59 ∨ second > 60))
  let millis ← parseFraction (text.drop 19).dropLast
  let days := daysFromCivil year month day
  some (days * 86400000 + hour * 3600000 + minute * 60000 + second * 1000 + millis)

/-- Parse `YYYY-MM-DDTHH:MM:SS[.fff]Z` into epoch milliseconds. -/
def parseIsoMillis (text : String) : Option Int := parseIsoChars text.toList

/-- A schedule deadline, failing closed: an unreadable one is due now. -/
def scheduleDueMillis (text : String) : Int := (parseIsoMillis text).getD 0

/-- Whether a timestamp can be read at all. -/
def Readable (text : String) : Prop := (parseIsoMillis text).isSome = true

instance (text : String) : Decidable (Readable text) :=
  inferInstanceAs (Decidable (_ = true))

theorem readable_of_parse {text : String} {millis : Int} (parsed : parseIsoMillis text = some millis) :
    Readable text := by
  rw [Readable, parsed]
  rfl

/-! ### Reading a rendering back -/

private theorem signPadded_length_four {year : Int} (low : -999 ≤ year) (high : year ≤ 9999) :
    (signPadded 4 year).length = 4 := by
  cases year with
  | ofNat year =>
      exact length_zeroPadded_of_lt (by decide) (by simp at high; omega)
  | negSucc year =>
      have short : year + 1 < 10 ^ 3 := by omega
      simp [signPadded, length_zeroPadded_of_lt (by decide) short]

private theorem signPadded_long {year : Int} (outside : ¬ (-999 ≤ year ∧ year ≤ 9999)) :
    ∃ first rest, signPadded 4 year = first :: rest ∧ 4 ≤ rest.length ∧
      ∀ c ∈ rest, c.isDigit = true := by
  cases year with
  | ofNat year =>
      have long := width_lt_length_zeroPadded (show 0 < 4 by decide)
        (show 10 ^ 4 ≤ year by simp at outside; omega)
      cases digits : zeroPadded 4 year with
      | nil => exact absurd digits (zeroPadded_ne_nil 4 year)
      | cons first rest =>
          refine ⟨first, rest, digits, by simp [digits] at long; omega, fun c member => ?_⟩
          exact isDigit_of_mem_zeroPadded (digits ▸ List.mem_cons_of_mem first member)
  | negSucc year =>
      have long := width_lt_length_zeroPadded (show 0 < 3 by decide)
        (show 10 ^ 3 ≤ year + 1 by omega)
      exact ⟨'-', zeroPadded 3 (year + 1), rfl, by omega,
        fun c member => isDigit_of_mem_zeroPadded member⟩

private theorem length_twoDigits {n : Int} (low : 0 ≤ n) (high : n ≤ 99) :
    (twoDigits n).length = 2 := by
  obtain ⟨n, rfl⟩ := Int.eq_ofNat_of_zero_le low
  exact length_zeroPadded_of_lt (by decide) (by omega)

private theorem length_threeDigits {n : Int} (low : 0 ≤ n) (high : n ≤ 999) :
    (signPadded 3 n).length = 3 := by
  obtain ⟨n, rfl⟩ := Int.eq_ofNat_of_zero_le low
  exact length_zeroPadded_of_lt (by decide) (by omega)

/-- A full-width fraction is its own value. -/
private theorem parseFraction_threeDigits {n : Int} (low : 0 ≤ n) (high : n ≤ 999) :
    parseFraction ('.' :: signPadded 3 n) = some n := by
  have width := length_threeDigits low high
  obtain ⟨n, rfl⟩ := Int.eq_ofNat_of_zero_le low
  have digits : signPadded 3 (n : Int) = zeroPadded 3 n := rfl
  rw [digits] at width ⊢
  simp [parseFraction, width]

/-- Fields of the canonical widths are read from their canonical places. -/
private theorem parseIsoChars_canonical {year month day hour minute second fraction : List Char}
    (yearWidth : year.length = 4) (monthWidth : month.length = 2) (dayWidth : day.length = 2)
    (hourWidth : hour.length = 2) (minuteWidth : minute.length = 2)
    (secondWidth : second.length = 2) (fractionWidth : fraction.length = 3) :
    parseIsoChars (year ++ '-' :: (month ++ '-' :: (day ++ 'T' :: (hour ++ ':' :: (minute ++ ':' ::
        (second ++ '.' :: (fraction ++ ['Z']))))))) = (do
      let y ← parseSigned year
      let mo ← parseSigned month
      let d ← parseSigned day
      let h ← parseSigned hour
      let mi ← parseSigned minute
      let s ← parseSigned second
      guard (1 ≤ mo ∧ mo ≤ 12 ∧ 1 ≤ d ∧ d ≤ 31)
      guard (¬ (h > 23 ∨ mi > 59 ∨ s > 60))
      let millis ← parseFraction ('.' :: fraction)
      some (daysFromCivil y mo d * 86400000 + h * 3600000 + mi * 60000 + s * 1000 + millis)) := by
  obtain ⟨y₀, y₁, y₂, y₃, rfl⟩ := List.length_eq_four.mp yearWidth
  obtain ⟨m₀, m₁, rfl⟩ := List.length_eq_two.mp monthWidth
  obtain ⟨d₀, d₁, rfl⟩ := List.length_eq_two.mp dayWidth
  obtain ⟨h₀, h₁, rfl⟩ := List.length_eq_two.mp hourWidth
  obtain ⟨i₀, i₁, rfl⟩ := List.length_eq_two.mp minuteWidth
  obtain ⟨s₀, s₁, rfl⟩ := List.length_eq_two.mp secondWidth
  obtain ⟨f₀, f₁, f₂, rfl⟩ := List.length_eq_three.mp fractionWidth
  simp [parseIsoChars, slice, guard]

private theorem guard_bind {α : Type} {condition : Prop} [Decidable condition] (holds : condition)
    (next : Unit → Option α) : (guard condition : Option Unit).bind next = next () := by
  simp [guard, holds]

/-- A rendering whose year takes four characters reads back as the instant it was made from. -/
theorem parseIsoChars_isoChars {n : Int}
    (inRange : -999 ≤ (civilFromDays (n / 86400000)).year ∧
      (civilFromDays (n / 86400000)).year ≤ 9999) :
    parseIsoChars (isoChars n) = some n := by
  have month := civilFromDays_month (n / 86400000)
  have day := civilFromDays_day (n / 86400000)
  rw [isoChars, parseIsoChars_canonical (signPadded_length_four inRange.1 inRange.2)
    (length_twoDigits (by omega) (by omega)) (length_twoDigits (by omega) (by omega))
    (length_twoDigits (by omega) (by omega)) (length_twoDigits (by omega) (by omega))
    (length_twoDigits (by omega) (by omega)) (length_threeDigits (by omega) (by omega)),
    parseFraction_threeDigits (by omega) (by omega)]
  simp only [twoDigits, parseSigned_signPadded, Option.bind_eq_bind, Option.bind_some,
    daysFromCivil_civilFromDays]
  rw [guard_bind (by omega), guard_bind (by omega), Option.some.injEq]
  omega

/-- A rendering with a longer year has a digit where the first dash belongs. -/
private theorem parseIsoChars_isoChars_none {n : Int}
    (outside : ¬ (-999 ≤ (civilFromDays (n / 86400000)).year ∧
      (civilFromDays (n / 86400000)).year ≤ 9999)) :
    parseIsoChars (isoChars n) = none := by
  obtain ⟨first, rest, shape, long, digits⟩ := signPadded_long outside
  have notDash : (isoChars n)[4]? ≠ some '-' := by
    have here : 3 < rest.length := by omega
    simp only [isoChars, shape, List.cons_append, List.getElem?_cons_succ,
      List.getElem?_append_left here, List.getElem?_eq_getElem here]
    intro dash
    have digit := digits rest[3] (List.getElem_mem here)
    rw [Option.some.inj dash] at digit
    exact absurd digit (by decide)
  simp [parseIsoChars, notDash, guard]

@[simp] theorem parseIsoMillis_isoMillis {n : Int}
    (inRange : -999 ≤ (civilFromDays (n / 86400000)).year ∧
      (civilFromDays (n / 86400000)).year ≤ 9999) :
    parseIsoMillis (isoMillis n) = some n := by
  rw [parseIsoMillis, isoMillis, String.toList_ofList, parseIsoChars_isoChars inRange]

/-- Whatever is read back from a rendering is the rendered instant. -/
theorem eq_of_parseIsoMillis_isoMillis {n m : Int} (parsed : parseIsoMillis (isoMillis n) = some m) :
    m = n := by
  by_cases inRange : -999 ≤ (civilFromDays (n / 86400000)).year ∧
      (civilFromDays (n / 86400000)).year ≤ 9999
  · rw [parseIsoMillis_isoMillis inRange] at parsed
    exact (Option.some.inj parsed).symm
  · rw [parseIsoMillis, isoMillis, String.toList_ofList,
      parseIsoChars_isoChars_none inRange] at parsed
    cases parsed

/-- The first and the last instant whose rendering can be read back. -/
def firstReadableMillis : Int := -93692592000000

def lastReadableMillis : Int := 253402300799999

/-- An instant that `isoMillis` renders as a timestamp `parseIsoMillis` accepts. -/
def ReadableInstant (n : Int) : Prop := firstReadableMillis ≤ n ∧ n ≤ lastReadableMillis

instance (n : Int) : Decidable (ReadableInstant n) := inferInstanceAs (Decidable (_ ∧ _))

theorem readableInstant_iff {n : Int} :
    ReadableInstant n ↔ -999 ≤ (civilFromDays (n / 86400000)).year ∧
      (civilFromDays (n / 86400000)).year ≤ 9999 := by
  have first : daysFromCivil (-999) 1 1 = -1084405 := by decide
  have last : daysFromCivil 9999 12 31 = 2932896 := by decide
  rw [year_bounds, first, last, ReadableInstant, firstReadableMillis, lastReadableMillis]
  omega

theorem parseIsoMillis_of_readable {n : Int} (readable : ReadableInstant n) :
    parseIsoMillis (isoMillis n) = some n :=
  parseIsoMillis_isoMillis (readableInstant_iff.mp readable)

/-- A rendering is readable exactly for the readable instants. -/
theorem readable_isoMillis_iff {n : Int} : Readable (isoMillis n) ↔ ReadableInstant n := by
  constructor
  · intro readable
    by_contra outside
    rw [readableInstant_iff] at outside
    rw [Readable, parseIsoMillis, isoMillis, String.toList_ofList,
      parseIsoChars_isoChars_none outside] at readable
    cases readable
  · intro readable
    exact readable_of_parse (parseIsoMillis_of_readable readable)

end Chief
