import ContractMigration.Numeric.Decimal

/-!
# Timestamps

Points in time are whole seconds since the beginning of 1970 in universal time, written as a date and a time of day
in the calendar with leap years. Years begin in March inside the computation, so that the leap day is the last day
of a year and the months before it have a fixed pattern of lengths.
-/

namespace ContractMigration

/-- A day of the calendar. -/
structure Date where
  year : Int
  month : Nat
  day : Nat
deriving DecidableEq, Repr

/-- The date of a day, given by the number of days since the beginning of 1970. -/
def Date.ofDays (days : Int) : Date :=
  let shifted := days + 719468
  let era := shifted / 146097
  let dayOfEra := (shifted % 146097).toNat
  let yearOfEra := (dayOfEra - dayOfEra / 1460 + dayOfEra / 36524 - dayOfEra / 146096) / 365
  let dayOfYear := dayOfEra - (365 * yearOfEra + yearOfEra / 4 - yearOfEra / 100)
  let monthFromMarch := (5 * dayOfYear + 2) / 153
  let month := if monthFromMarch < 10 then monthFromMarch + 3 else monthFromMarch - 9
  { year := era * 400 + yearOfEra + if month ≤ 2 then 1 else 0
    month
    day := dayOfYear - (153 * monthFromMarch + 2) / 5 + 1 }

/-- A number below one hundred with two digits. -/
def twoDigits (n : Nat) : String :=
  String.ofList (Numeric.digitsPadded 2 n)

/-- A point in time as a date and a time of day. -/
def timestamp (seconds : Int) : String :=
  let date := Date.ofDays (seconds / 86400)
  let ofDay := (seconds % 86400).toNat
  toString date.year ++ "-" ++ twoDigits date.month ++ "-" ++ twoDigits date.day ++ "T" ++ twoDigits (ofDay / 3600) ++
    ":" ++ twoDigits (ofDay / 60 % 60) ++ ":" ++ twoDigits (ofDay % 60) ++ "Z"

end ContractMigration
