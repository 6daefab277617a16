/-!
# Dates

The date and time of a count of seconds since the start of 1970, in the Gregorian calendar without
leap seconds. Years have a sign outside `0 … 9999`.
-/

namespace ClusterControl.Calendar

structure Date where
  year : Int
  month : Nat
  day : Nat
deriving DecidableEq, Repr

def firstYear : Int := -262143

def lastYear : Int := 262142

/-- The date of a day, counted from the first of March of the year zero. Years are taken to start
in March, so that a leap day ends its year; four hundred of them have 146097 days. -/
def dateOfMarchDay (n : Int) : Date :=
  let era := n.fdiv 146097
  let dayOfEra := (n.fmod 146097).toNat
  let yearOfEra :=
    (dayOfEra - dayOfEra / 1460 + dayOfEra / 36524 - dayOfEra / 146096) / 365
  let dayOfYear := dayOfEra - (365 * yearOfEra + yearOfEra / 4 - yearOfEra / 100)
  let m := (5 * dayOfYear + 2) / 153
  let day := dayOfYear - (153 * m + 2) / 5 + 1
  let month := if m < 10 then m + 3 else m - 9
  let year := yearOfEra + era * 400
  ⟨if month ≤ 2 then year + 1 else year, month, day⟩

/-- The first of January 1970, counted from the first of March of the year zero. -/
def epochDay : Int := 719468

def dateOfSeconds (n : Int) : Date := dateOfMarchDay (n.fdiv 86400 + epochDay)

/-- A time in seconds since the start of 1970, within the years that a date can have. -/
structure Timestamp where
  seconds : Int
  firstYear_le : firstYear ≤ (dateOfSeconds seconds).year
  le_lastYear : (dateOfSeconds seconds).year ≤ lastYear
deriving DecidableEq

namespace Timestamp

def date (t : Timestamp) : Date := dateOfSeconds t.seconds

def ofSeconds? (n : Int) : Option Timestamp :=
  if h : firstYear ≤ (dateOfSeconds n).year ∧ (dateOfSeconds n).year ≤ lastYear then
    some ⟨n, h.1, h.2⟩
  else none

def padded (width n : Nat) : String :=
  let ds := Nat.toDigits 10 n
  String.ofList (List.replicate (width - ds.length) '0' ++ ds)

def yearText (year : Int) : String :=
  if 0 ≤ year ∧ year ≤ 9999 then padded 4 year.toNat
  else (if year < 0 then "-" else "+") ++ padded 4 year.natAbs

/-- Date and time with the mark of universal time. -/
def text (t : Timestamp) : String :=
  let d := t.date
  let s := (t.seconds.fmod 86400).toNat
  yearText d.year ++ "-" ++ padded 2 d.month ++ "-" ++ padded 2 d.day ++ "T" ++
    padded 2 (s / 3600) ++ ":" ++ padded 2 (s / 60 % 60) ++ ":" ++ padded 2 (s % 60) ++ "Z"

end Timestamp

end ClusterControl.Calendar
