/-!
# Moments

The moments that are written in front of the records of the log: the date and the
time of day at Greenwich, with six places behind the seconds.

Main results:

- Theorem {lit}`Moment.text_zero`: how the first moment is written.
- Theorem {lit}`Moment.length_padded`: short numbers are filled up to their width.
-/

namespace ModuleBundler
namespace Terminal

/-- A moment, in nanoseconds since the first of January 1970. -/
structure Moment where
  nanoseconds : Nat
deriving DecidableEq, Repr

namespace Moment

/-- Seconds in a day. -/
def daySeconds : Nat := 86400

/-- Days in four hundred years. -/
def eraDays : Nat := 146097

/-- Days from the first of March of the year 0 to the first of January 1970. -/
def daysBefore : Nat := 719468

/-- The year, the month and the day a number of days after the first of January 1970.  Years are
counted from March on, so that the leap day is the last one. -/
def date (days : Nat) : Nat × Nat × Nat :=
  let era := (days + daysBefore) / eraDays
  let dayOfEra := (days + daysBefore) % eraDays
  let year := (dayOfEra - dayOfEra / 1460 + dayOfEra / 36524 - dayOfEra / 146096) / 365
  let dayOfYear := dayOfEra - (365 * year + year / 4 - year / 100)
  let monthFromMarch := (5 * dayOfYear + 2) / 153
  let day := dayOfYear - (153 * monthFromMarch + 2) / 5 + 1
  if monthFromMarch < 10 then (400 * era + year, monthFromMarch + 3, day)
  else (400 * era + year + 1, monthFromMarch - 9, day)

/-- A number with zeros in front, up to a width. -/
def padded (width n : Nat) : List Char :=
  let digits := Nat.toDigits 10 n
  List.replicate (width - digits.length) '0' ++ digits

/-- The moment as text. -/
def text (moment : Moment) : String :=
  let seconds := moment.nanoseconds / 1000000000
  let (year, month, day) := date (seconds / daySeconds)
  let second := seconds % daySeconds
  String.ofList
    (padded 4 year ++ '-' :: padded 2 month ++ '-' :: padded 2 day ++
      'T' :: padded 2 (second / 3600) ++ ':' :: padded 2 (second / 60 % 60) ++
      ':' :: padded 2 (second % 60) ++
      '.' :: padded 6 (moment.nanoseconds % 1000000000 / 1000) ++ ['Z'])

theorem length_padded {width n : Nat} (h : (Nat.toDigits 10 n).length ≤ width) :
    (padded width n).length = width := by
  simp only [padded, List.length_append, List.length_replicate]
  omega

theorem text_zero : text ⟨0⟩ = "1970-01-01T00:00:00.000000Z" := by
  decide +kernel

end Moment
end Terminal
end ModuleBundler
