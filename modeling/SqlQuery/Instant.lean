/-!
# Points in time

A point in time is a count of seconds since the start of 1970 and a part of a
second in nanoseconds; a leap second is written as a part of more than one
second. `Instant.text` is its date and time of day in UTC, with as many digits
for the part of a second as it needs, in groups of three.
-/

namespace SqlQuery

/-- A point in time, in seconds and nanoseconds since the start of 1970 in UTC. -/
structure Instant where
  seconds : Int
  nanos : Nat
deriving DecidableEq, Repr, Inhabited

namespace Instant

/-- The calendar date of a day counted from the start of 1970: year, month, day.
The count is moved to the first of March of year 0, so that a leap day ends a
cycle of 400 years, 146097 days. -/
def civil (day : Int) : Int × Nat × Nat :=
  let shifted := day + 719468
  let era := Int.fdiv shifted 146097
  let dayOfEra := (Int.fmod shifted 146097).toNat
  let yearOfEra := (dayOfEra - dayOfEra / 1460 + dayOfEra / 36524 - dayOfEra / 146096) / 365
  let dayOfYear := dayOfEra - (365 * yearOfEra + yearOfEra / 4 - yearOfEra / 100)
  let shiftedMonth := (5 * dayOfYear + 2) / 153
  let day := dayOfYear - (153 * shiftedMonth + 2) / 5 + 1
  let month := if shiftedMonth < 10 then shiftedMonth + 3 else shiftedMonth - 9
  (era * 400 + yearOfEra + (if month ≤ 2 then 1 else 0), month, day)

/-- A number with zeros before it up to a width. -/
def padded (width n : Nat) : String :=
  let digits := Nat.toDigits 10 n
  String.ofList (List.replicate (width - digits.length) '0' ++ digits)

/-- A year: four digits from 0 to 9999, with a sign and at least four beyond. -/
def yearText (year : Int) : String :=
  if 0 ≤ year ∧ year ≤ 9999 then padded 4 year.toNat
  else (if year < 0 then "-" else "+") ++ padded 4 year.natAbs

/-- The part of a second: nothing, or three, six or nine digits after a point,
the fewest that are exact. -/
def fraction (nanos : Nat) : String :=
  if nanos = 0 then ""
  else if nanos % 1000000 = 0 then "." ++ padded 3 (nanos / 1000000)
  else if nanos % 1000 = 0 then "." ++ padded 6 (nanos / 1000)
  else "." ++ padded 9 nanos

/-- The date and time of day in UTC, without a zone. -/
def text (t : Instant) : String :=
  let date := civil (Int.fdiv t.seconds 86400)
  let clock := (Int.fmod t.seconds 86400).toNat
  let second := clock % 60 + t.nanos / 1000000000
  yearText date.1 ++ "-" ++ padded 2 date.2.1 ++ "-" ++ padded 2 date.2.2 ++ "T"
    ++ padded 2 (clock / 3600) ++ ":" ++ padded 2 (clock / 60 % 60) ++ ":" ++ padded 2 second
    ++ fraction (t.nanos % 1000000000)

/-- The first and last second that have a date: years of at most six digits. -/
def firstSecond : Int := -8334601228800

/-- The last second that has a date. -/
def lastSecond : Int := 8210266876799

/-- The point in time of a count of seconds and nanoseconds; more than a second of
nanoseconds is a leap second, which only ends a minute. -/
def ofUnix? (seconds : Int) (nanos : Nat) : Option Instant :=
  if seconds < firstSecond ∨ lastSecond < seconds then none
  else if 2000000000 ≤ nanos then none
  else if 1000000000 ≤ nanos ∧ Int.fmod seconds 60 ≠ 59 then none
  else some ⟨seconds, nanos⟩

end Instant

end SqlQuery
