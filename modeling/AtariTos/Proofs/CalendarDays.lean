import AtariTos.Time.Calendar
import Mathlib.Order.Monotone.Basic
import Mathlib.Tactic.IntervalCases

namespace AtariTos

namespace DateTime

/-- Every fourth year has a leap day, but of those that end a century only every fourth. -/
def IsLeap (year : Int) : Prop :=
  year % 4 = 0 ∧ (year % 100 ≠ 0 ∨ year % 400 = 0)

instance (year : Int) : Decidable (IsLeap year) :=
  inferInstanceAs (Decidable (_ ∧ _))

def daysInMonth (year : Int) : Nat → Nat
  | 2 => if IsLeap year then 29 else 28
  | 4 | 6 | 9 | 11 => 30
  | _ => 31

/-- The days of the first months of a year. -/
def daysOfMonths (year : Int) : Nat → Nat
  | 0 => 0
  | month + 1 => daysOfMonths year month + daysInMonth year (month + 1)

/-- The days from the start of year 1 to the start of another one. -/
def daysOfYears (year : Int) : Int :=
  365 * (year - 1) + (year - 1) / 4 - (year - 1) / 100 + (year - 1) / 400

/-- A day counted from 1970-01-01. -/
def dayNumber (year : Int) (month day : Nat) : Int :=
  daysOfYears year - daysOfYears 1970 + daysOfMonths year (month - 1) + day - 1

structure IsDate (year : Int) (month day : Nat) : Prop where
  month_pos : 1 ≤ month
  month_le : month ≤ 12
  day_pos : 1 ≤ day
  day_le : day ≤ daysInMonth year month

/-- The date is one of the calendar, and the time one of the day. -/
structure IsValid (d : DateTime) : Prop where
  date : IsDate d.year d.month d.day
  hour : d.hour < 24
  minute : d.minute < 60
  second : d.second < 60

def seconds (d : DateTime) : Int :=
  dayNumber d.year d.month d.day * 86400 + (3600 * d.hour + 60 * d.minute + d.second : Nat)

variable {year year' : Int} {month month' day day' : Nat} {d d' : DateTime}

theorem daysOfYears_succ (year : Int) :
    daysOfYears (year + 1) = daysOfYears year + daysOfMonths year 12 := by
  by_cases leap : IsLeap year
  · have months : daysOfMonths year 12 = 366 := by simp [daysOfMonths, daysInMonth, leap]
    unfold IsLeap at leap
    rw [months, daysOfYears, daysOfYears]
    omega
  · have months : daysOfMonths year 12 = 365 := by simp [daysOfMonths, daysInMonth, leap]
    unfold IsLeap at leap
    rw [months, daysOfYears, daysOfYears]
    omega

theorem daysOfYears_mono {year year' : Int} (h : year ≤ year') :
    daysOfYears year ≤ daysOfYears year' := by
  rw [daysOfYears, daysOfYears]
  omega

theorem daysOfMonths_mono (year : Int) : Monotone (daysOfMonths year) :=
  monotone_nat_of_le_succ fun _ => Nat.le_add_right _ _

theorem daysInMonth_le (year : Int) (month : Nat) : daysInMonth year month ≤ 31 := by
  unfold daysInMonth
  split
  · split <;> omega
  all_goals omega

theorem IsDate.dayNumber_bounds (date : IsDate year month day) :
    daysOfYears year + daysOfMonths year (month - 1) ≤
        dayNumber year month day + daysOfYears 1970 ∧
      dayNumber year month day + daysOfYears 1970 <
        daysOfYears year + daysOfMonths year month := by
  obtain ⟨month_pos, _, day_pos, day_le⟩ := date
  obtain ⟨before, rfl⟩ := Nat.exists_eq_add_of_le' month_pos
  rw [dayNumber, Nat.add_sub_cancel, daysOfMonths]
  omega

theorem IsDate.dayNumber_lt (date : IsDate year month day) (date' : IsDate year' month' day')
    (earlier : year < year' ∨ year = year' ∧ (month < month' ∨ month = month' ∧ day < day')) :
    dayNumber year month day < dayNumber year' month' day' := by
  have above := date.dayNumber_bounds.2
  have below := date'.dayNumber_bounds.1
  rcases earlier with earlier | ⟨rfl, earlier | ⟨rfl, earlier⟩⟩
  · have inYear : daysOfMonths year month ≤ daysOfMonths year 12 :=
      daysOfMonths_mono year date.month_le
    have next := daysOfYears_succ year
    have years : daysOfYears (year + 1) ≤ daysOfYears year' := daysOfYears_mono earlier
    omega
  · have months : daysOfMonths year month ≤ daysOfMonths year (month' - 1) :=
      daysOfMonths_mono year (Nat.le_sub_one_of_lt earlier)
    omega
  · rw [dayNumber, dayNumber]
    omega

theorem IsDate.dayNumber_lt_iff (date : IsDate year month day) (date' : IsDate year' month' day') :
    dayNumber year month day < dayNumber year' month' day' ↔
      year < year' ∨ year = year' ∧ (month < month' ∨ month = month' ∧ day < day') := by
  refine ⟨fun less => ?_, date.dayNumber_lt date'⟩
  by_contra later
  by_cases same : year = year' ∧ month = month' ∧ day = day'
  · obtain ⟨rfl, rfl, rfl⟩ := same
    exact lt_irrefl _ less
  · have greater := date'.dayNumber_lt date (by omega)
    exact lt_asymm less greater

theorem IsDate.eq_of_dayNumber (date : IsDate year month day) (date' : IsDate year' month' day')
    (same : dayNumber year month day = dayNumber year' month' day') :
    year = year' ∧ month = month' ∧ day = day' := by
  have before := (date.dayNumber_lt_iff date').not.mp same.not_lt
  have behind := (date'.dayNumber_lt_iff date).not.mp same.not_gt
  omega

theorem IsValid.eq_of_seconds (valid : d.IsValid) (valid' : d'.IsValid)
    (same : d.seconds = d'.seconds) : d = d' := by
  obtain ⟨date, hour, minute, second⟩ := valid
  obtain ⟨date', hour', minute', second'⟩ := valid'
  rw [seconds, seconds] at same
  obtain ⟨years, months, days⟩ := date.eq_of_dayNumber date' (by omega)
  obtain ⟨year, month, day, h, m, s⟩ := d
  obtain ⟨year', month', day', h', m', s'⟩ := d'
  dsimp only at *
  rw [mk.injEq]
  omega

/-- The year of a cycle of 400 years that a day of it lies in, if years start in March. -/
def yearOfEra (day : Nat) : Nat :=
  (day - day / 1460 + day / 36524 - day / 146096) / 365

/-- The date of a day counted from the first of March. -/
def fromMarch (year : Int) (day : Nat) : Int × Nat × Nat :=
  let month := (5 * day + 2) / 153
  (if month < 10 then year else year + 1, if month < 10 then month + 3 else month - 9,
    day - (153 * month + 2) / 5 + 1)

/-- The cycle is made of centuries, these of cycles of four years, and only the last year of four may
have a day more than the others. -/
theorem exists_parts_of_era {days : Nat} (h : days < 146097) :
    ∃ century cycle year day, century ≤ 3 ∧ cycle ≤ 24 ∧ year ≤ 3 ∧
      (day < 365 ∨ day = 365 ∧ year = 3 ∧ (cycle = 24 → century = 3)) ∧
      days = 36524 * century + 1461 * cycle + 365 * year + day := by
  obtain ⟨century, rest, century_le, split, rest_le⟩ : ∃ century rest, century ≤ 3 ∧
      days = 36524 * century + rest ∧ (rest < 36524 ∨ rest = 36524 ∧ century = 3) :=
    ⟨min (days / 36524) 3, days - 36524 * min (days / 36524) 3, by omega, by omega, by omega⟩
  obtain ⟨year, day, year_le, rest_eq, last⟩ : ∃ year day, year ≤ 3 ∧
      rest % 1461 = 365 * year + day ∧ (day < 365 ∨ day = 365 ∧ year = 3) :=
    ⟨min (rest % 1461 / 365) 3, rest % 1461 - 365 * min (rest % 1461 / 365) 3, by omega, by omega,
      by omega⟩
  exact ⟨century, rest / 1461, year, day, century_le, by omega, year_le, by omega, by omega⟩

/-- Every 1460 days one is a leap day, except for centuries, so that years of 365 days are left. -/
theorem yearOfEra_eq {century cycle year day : Nat} (century_le : century ≤ 3)
    (cycle_le : cycle ≤ 24) (year_le : year ≤ 3)
    (day_lt : day < 365 ∨ day = 365 ∧ year = 3 ∧ (cycle = 24 → century = 3)) :
    yearOfEra (36524 * century + 1461 * cycle + 365 * year + day) =
      100 * century + 4 * cycle + year := by
  unfold yearOfEra
  generalize start : 36524 * century + 1461 * cycle + 365 * year + day = days
  have centuries : days / 36524 = century + days / 146096 := by
    have inside : days < 36524 * (century + 1) ∨ days = 146096 ∧ century = 3 := by omega
    rcases inside with inside | ⟨rfl, rfl⟩
    · have notLast : days < 146096 := by omega
      omega
    · rfl
  obtain ⟨late, cycles, late_cases⟩ : ∃ late, days / 1460 = 25 * century + cycle + late ∧
      (late = 0 ∧ 24 * century + cycle + 365 * year + day < 1460 ∨
        late = 1 ∧ 1460 ≤ 24 * century + cycle + 365 * year + day) :=
    ⟨days / 1460 - (25 * century + cycle), by omega⟩
  have late_le : late ≤ day := by omega
  have day_lt' : day - late < 365 := by omega
  have numerator : days - days / 1460 + days / 36524 - days / 146096 =
      365 * (100 * century + 4 * cycle + year) + (day - late) := by
    rw [centuries, cycles]
    omega
  rw [numerator]
  omega

theorem yearOfEra_cases {days : Nat} (h : days < 146097) :
    ∃ day, let year := yearOfEra days
      year < 400 ∧ days = 365 * year + year / 4 - year / 100 + day ∧
        (day < 365 ∨ day = 365 ∧ IsLeap (year + 1)) := by
  obtain ⟨century, cycle, year, day, century_le, cycle_le, year_le, day_lt, rfl⟩ :=
    exists_parts_of_era h
  refine ⟨day, ?_⟩
  rw [yearOfEra_eq century_le cycle_le year_le day_lt]
  have fours : (100 * century + 4 * cycle + year) / 4 = 25 * century + cycle := by omega
  have hundreds : (100 * century + 4 * cycle + year) / 100 = century := by omega
  refine ⟨by omega, ?_, day_lt.imp_right fun ⟨last, whole, cycles⟩ => ⟨last, ?_⟩⟩
  · rw [fours, hundreds]
    omega
  · unfold IsLeap
    omega

theorem dayNumber_march (era : Int) {year : Nat} (year_lt : year < 400) :
    dayNumber (era * 400 + year) 3 1 =
      era * 146097 + (365 * year + year / 4 - year / 100 : Nat) - 719468 := by
  by_cases leap : IsLeap (era * 400 + year)
  · have months : daysOfMonths (era * 400 + year) (3 - 1) = 60 := by
      simp [daysOfMonths, daysInMonth, leap]
    unfold IsLeap at leap
    rw [dayNumber, months, daysOfYears, daysOfYears]
    omega
  · have months : daysOfMonths (era * 400 + year) (3 - 1) = 59 := by
      simp [daysOfMonths, daysInMonth, leap]
    unfold IsLeap at leap
    rw [dayNumber, months, daysOfYears, daysOfYears]
    omega

theorem isLeap_era_iff (era year : Int) : IsLeap (era * 400 + year) ↔ IsLeap year := by
  unfold IsLeap
  omega

theorem exists_fromMarch (days : Int) :
    ∃ (year : Int) (day : Nat), (day < 365 ∨ day = 365 ∧ IsLeap (year + 1)) ∧
      ofDay days = fromMarch year day ∧ dayNumber year 3 1 + day = days := by
  have inEra : ((days + 719468) % 146097).toNat < 146097 := by omega
  obtain ⟨day, year_lt, split, inYear⟩ := yearOfEra_cases inEra
  unfold ofDay
  dsimp only
  rw [← yearOfEra]
  generalize yearOfEra ((days + 719468) % 146097).toNat = year at year_lt split inYear ⊢
  refine ⟨(days + 719468) / 146097 * 400 + year, day, ?_, ?_, ?_⟩
  · rwa [Int.add_assoc, isLeap_era_iff]
  · have day_eq : ((days + 719468) % 146097).toNat - (365 * year + year / 4 - year / 100) = day := by
      rw [split, Nat.add_sub_cancel_left]
    have month_lt : (5 * day + 2) / 153 < 12 := by
      clear split day_eq
      omega
    rw [day_eq, fromMarch]
    by_cases early : (5 * day + 2) / 153 < 10
    · rw [if_pos early, if_pos early, if_neg (by omega)]
    · rw [if_neg early, if_neg early, if_pos (by omega)]
  · rw [dayNumber_march _ year_lt]
    omega

/-- From March on five months in a row have 153 days. -/
theorem daysOfMonths_fromMarch (year : Int) (h : month ≤ 10) :
    daysOfMonths year (month + 2) = daysOfMonths year 2 + (153 * month + 2) / 5 := by
  interval_cases month <;> simp [daysOfMonths, daysInMonth]

theorem isDate_fromMarch (inYear : day < 365 ∨ day = 365 ∧ IsLeap (year + 1)) :
    let date := fromMarch year day
    IsDate date.1 date.2.1 date.2.2 ∧
      dayNumber date.1 date.2.1 date.2.2 = dayNumber year 3 1 + day := by
  unfold fromMarch
  have month_lt : (5 * day + 2) / 153 < 12 := by omega
  generalize month_eq : (5 * day + 2) / 153 = month at month_lt
  dsimp only
  have march : dayNumber year 3 1 + day =
      daysOfYears year - daysOfYears 1970 + daysOfMonths year 2 + day := by
    rw [dayNumber, show 3 - 1 = 2 from rfl]
    omega
  rw [march]
  by_cases early : month < 10
  · have before := daysOfMonths_fromMarch year early.le
    have behind : daysOfMonths year (month + 1 + 2) = _ := daysOfMonths_fromMarch year early
    have next : daysOfMonths year (month + 1 + 2) =
        daysOfMonths year (month + 2) + daysInMonth year (month + 3) := rfl
    rw [if_pos early, if_pos early]
    refine ⟨⟨by omega, by omega, by omega, by omega⟩, ?_⟩
    rw [dayNumber, show month + 3 - 1 = month + 2 from rfl, before]
    omega
  · -- January and February belong to the year after.
    have months : daysOfMonths year 12 = daysOfMonths year 2 + 306 :=
      daysOfMonths_fromMarch year (le_refl 10)
    have years := daysOfYears_succ year
    rw [if_neg early, if_neg early]
    obtain rfl | rfl : month = 10 ∨ month = 11 := by omega
    · have past : daysOfMonths (year + 1) (10 - 9 - 1) = 0 := rfl
      have january : daysInMonth (year + 1) (10 - 9) = 31 := rfl
      refine ⟨⟨by omega, by omega, by omega, by omega⟩, ?_⟩
      rw [dayNumber, years, months, past]
      omega
    · have past : daysOfMonths (year + 1) (11 - 9 - 1) = 31 := rfl
      have february : daysInMonth (year + 1) (11 - 9) = if IsLeap (year + 1) then 29 else 28 := rfl
      refine ⟨⟨by omega, by omega, by omega, ?_⟩, ?_⟩
      · rw [february]
        split
        · omega
        next short =>
          have inShort : day < 365 := inYear.resolve_right fun last => short last.2
          omega
      · rw [dayNumber, years, months, past]
        omega

theorem isDate_ofDay (days : Int) :
    let date := ofDay days
    IsDate date.1 date.2.1 date.2.2 ∧ dayNumber date.1 date.2.1 date.2.2 = days := by
  obtain ⟨year, day, inYear, date, number⟩ := exists_fromMarch days
  rw [date, ← number]
  exact isDate_fromMarch inYear

theorem isValid_ofSeconds (instant : Int) :
    (ofSeconds instant).IsValid ∧ (ofSeconds instant).seconds = instant := by
  obtain ⟨date, number⟩ := isDate_ofDay (instant / 86400)
  refine ⟨⟨date, ?_, ?_, ?_⟩, ?_⟩
  · show (instant % 86400).toNat / 3600 < 24
    omega
  · exact Nat.mod_lt _ (by decide)
  · exact Nat.mod_lt _ (by decide)
  · rw [seconds, ofSeconds]
    dsimp only
    rw [number]
    omega

theorem IsValid.ofSeconds_seconds (valid : d.IsValid) : ofSeconds d.seconds = d := by
  obtain ⟨valid', same⟩ := isValid_ofSeconds d.seconds
  exact valid'.eq_of_seconds valid same

end DateTime

end AtariTos
