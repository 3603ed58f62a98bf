import AtariTos.Time.Packed

namespace AtariTos

structure DateTime where
  year : Int
  month : Nat
  day : Nat
  hour : Nat
  minute : Nat
  second : Nat
deriving DecidableEq, Repr

/-- An instant, with the seconds by which local time is ahead of it. -/
structure Clock where
  unix : Int := 0
  offset : Int := 0
deriving DecidableEq, Repr

namespace DateTime

/-- Year, month and day of a day counted from 1970-01-01. The count restarts every 400 years on
a first of March, so that the leap day ends each year. -/
def ofDay (days : Int) : Int × Nat × Nat :=
  let shifted := days + 719468
  let era := shifted / 146097
  let dayOfEra := (shifted % 146097).toNat
  let yearOfEra := (dayOfEra - dayOfEra / 1460 + dayOfEra / 36524 - dayOfEra / 146096) / 365
  let dayOfYear := dayOfEra - (365 * yearOfEra + yearOfEra / 4 - yearOfEra / 100)
  let monthFromMarch := (5 * dayOfYear + 2) / 153
  let day := dayOfYear - (153 * monthFromMarch + 2) / 5 + 1
  let month := if monthFromMarch < 10 then monthFromMarch + 3 else monthFromMarch - 9
  let year := era * 400 + yearOfEra
  (if month ≤ 2 then year + 1 else year, month, day)

def ofSeconds (seconds : Int) : DateTime :=
  let (year, month, day) := ofDay (seconds / 86400)
  let rest := (seconds % 86400).toNat
  ⟨year, month, day, rest / 3600, rest / 60 % 60, rest % 60⟩

def date (d : DateTime) : UInt16 :=
  dateWord d.year d.month.toUInt8 d.day.toUInt8

def time (d : DateTime) : UInt16 :=
  timeWord d.hour.toUInt8 d.minute.toUInt8 d.second.toUInt8

end DateTime

namespace Clock

def now (clock : Clock) : DateTime :=
  DateTime.ofSeconds (clock.unix + clock.offset)

end Clock

end AtariTos
