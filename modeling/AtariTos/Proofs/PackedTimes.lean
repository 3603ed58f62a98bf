import AtariTos.Proofs.CalendarDays
import Mathlib.Data.Set.Defs

namespace AtariTos

theorem toNat_or_shiftLeft {low field shift : UInt16} {n : Nat} (shifted : shift.toNat = n)
    (inWord : n < 16) (small : low.toNat < 2 ^ n) (fits : 2 ^ n * field.toNat < 2 ^ 16) :
    (low ||| field <<< shift).toNat = 2 ^ n * field.toNat + low.toNat := by
  have moved : (field <<< shift).toNat = 2 ^ n * field.toNat := by
    rw [UInt16.toNat_shiftLeft, shifted, Nat.mod_eq_of_lt inWord, Nat.shiftLeft_eq, Nat.mul_comm,
      Nat.mod_eq_of_lt fits]
  rw [UInt16.toNat_or, moved, Nat.or_comm, Nat.two_pow_add_eq_or_of_lt small]

theorem toNat_fields {low middle high shift : UInt16} {n : Nat} (shifted : shift.toNat = n)
    (inWord : n < 16) (small : low.toNat < 2 ^ 5)
    (small' : 2 ^ 5 * middle.toNat + low.toNat < 2 ^ n) (fits : 2 ^ n * high.toNat < 2 ^ 16) :
    (low ||| middle <<< 5 ||| high <<< shift).toNat =
      2 ^ n * high.toNat + (2 ^ 5 * middle.toNat + low.toNat) := by
  have room : 2 ^ n < 2 ^ 16 := Nat.pow_lt_pow_right (by decide) inWord
  have five : (5 : UInt16).toNat = 5 := rfl
  have lower : (low ||| middle <<< 5).toNat = 2 ^ 5 * middle.toNat + low.toNat :=
    toNat_or_shiftLeft five (by decide) small (by omega)
  rw [← lower] at small' ⊢
  exact toNat_or_shiftLeft shifted inWord small' fits

theorem toNat_mod_of_byte (byte : UInt8) (size : UInt16) :
    (byte.toUInt16 % size).toNat = byte.toNat % size.toNat := by
  rw [UInt16.toNat_mod, UInt8.toNat_toUInt16]

theorem toNat_packedYear (year : Int) :
    (packedYear year).toNat = (max 0 (min 127 (year - 1980))).toNat := by
  have small : (max 0 (min 127 (year - 1980))).toNat < UInt16.size := by
    have size : UInt16.size = 65536 := rfl
    omega
  exact UInt16.toNat_ofNat_of_lt' small

theorem toNat_dateWord (year : Int) (month day : UInt8) :
    (dateWord year month day).toNat =
      512 * (max 0 (min 127 (year - 1980))).toNat + (32 * (month.toNat % 16) + day.toNat % 32) := by
  have dayBits : (day.toUInt16 % (32 : UInt16)).toNat = day.toNat % 32 := toNat_mod_of_byte day 32
  have monthBits : (month.toUInt16 % (16 : UInt16)).toNat = month.toNat % 16 :=
    toNat_mod_of_byte month 16
  have nine : (9 : UInt16).toNat = 9 := rfl
  have yearBits := toNat_packedYear year
  rw [dateWord, toNat_fields nine, dayBits, monthBits, yearBits]
  all_goals omega

theorem toNat_timeWord (hour minute second : UInt8) :
    (timeWord hour minute second).toNat =
      2048 * (hour.toNat % 32) + (32 * (minute.toNat % 64) + second.toNat / 2 % 32) := by
  have secondBits : ((second / 2).toUInt16 % (32 : UInt16)).toNat = second.toNat / 2 % 32 := by
    rw [toNat_mod_of_byte, UInt8.toNat_div]
    rfl
  have minuteBits : (minute.toUInt16 % (64 : UInt16)).toNat = minute.toNat % 64 :=
    toNat_mod_of_byte minute 64
  have hourBits : (hour.toUInt16 % (32 : UInt16)).toNat = hour.toNat % 32 :=
    toNat_mod_of_byte hour 32
  have eleven : (11 : UInt16).toNat = 11 := rfl
  rw [timeWord, toNat_fields eleven, secondBits, minuteBits, hourBits]
  all_goals omega

theorem toNat_dateTimeLong (date time : UInt16) :
    (dateTimeLong date time).toNat = 65536 * date.toNat + time.toNat := by
  have low : time.toNat < 2 ^ 16 := time.toNat_lt
  have high : date.toNat < 2 ^ 16 := date.toNat_lt
  have moved : (date.toUInt32 <<< 16).toNat = 2 ^ 16 * date.toNat := by
    have sixteen : (16 : UInt32).toNat % 32 = 16 := rfl
    rw [UInt32.toNat_shiftLeft, UInt16.toNat_toUInt32, sixteen, Nat.shiftLeft_eq]
    omega
  rw [dateTimeLong, UInt32.toNat_or, moved, UInt16.toNat_toUInt32,
    ← Nat.two_pow_add_eq_or_of_lt low]

section Years

variable {years : Set Int32} {year : Int32} {month day : UInt8} {word : UInt16}

/-- Dates of a month and a day are packed in each year of a set. The years since 1980 are cut to
what seven bits hold, and a later year never gives a smaller word. -/
structure ClampsYears (years : Set Int32) (month day : UInt8) : Prop where
  packs : ∀ year ∈ years, ∃ word, dateWord? year month day = some word ∧
    (word >>> 9).toNat = (max 0 (min 127 (year.toInt - 1980))).toNat ∧
    word.toNat % 512 = 32 * (month.toNat % 16) + day.toNat % 32
  ascends : ∀ year ∈ years, ∀ year' ∈ years, year ≤ year' → ∀ word word',
    dateWord? year month day = some word → dateWord? year' month day = some word' → word ≤ word'

theorem dateWord?_eq_some_iff :
    dateWord? year month day = some word ↔
      Int32.minValue.toInt + 1980 ≤ year.toInt ∧ dateWord year.toInt month day = word := by
  unfold dateWord?
  split
  next near => simp only [Option.some.injEq, iff_and_self]; omega
  next far =>
    simp only [reduceCtorEq, false_iff, not_and]
    omega

/-- Dates are packed in all years but the first 1980 of those that an integer of 32 bits can count,
whose distance from 1980 is out of its range. -/
theorem clampsYears_iff :
    ClampsYears years month day ↔ ∀ year ∈ years, Int32.minValue.toInt + 1980 ≤ year.toInt := by
  constructor
  · intro clamps year member
    obtain ⟨word, packed, _⟩ := clamps.packs year member
    exact (dateWord?_eq_some_iff.mp packed).1
  · intro near
    refine ⟨fun year member => ?_, fun year _ year' _ later word word' packed packed' => ?_⟩
    · refine ⟨_, dateWord?_eq_some_iff.mpr ⟨near year member, rfl⟩, ?_, ?_⟩
      · have nine : (9 : UInt16).toNat % 16 = 9 := rfl
        rw [UInt16.toNat_shiftRight, nine, Nat.shiftRight_eq_div_pow, toNat_dateWord]
        omega
      · rw [toNat_dateWord]
        omega
    · obtain ⟨_, rfl⟩ := dateWord?_eq_some_iff.mp packed
      obtain ⟨_, rfl⟩ := dateWord?_eq_some_iff.mp packed'
      have later := Int32.le_iff_toInt_le.mp later
      rw [UInt16.le_iff_toNat_le, toNat_dateWord, toNat_dateWord]
      omega

/-- In the least year of all there is nothing to clamp. -/
theorem not_clampsYears_leastYear :
    dateWord? Int32.minValue 1 1 = none ∧ ¬∀ month day, ClampsYears Set.univ month day := by
  have none : dateWord? Int32.minValue 1 1 = none := by decide
  refine ⟨none, fun clamps => ?_⟩
  obtain ⟨word, packed, _⟩ := (clamps 1 1).packs Int32.minValue trivial
  rw [none] at packed
  cases packed

end Years

namespace DateTime

variable {d d' : DateTime}

/-- Date and time of day in one longword, as they are stored for a program. -/
def packed (d : DateTime) : UInt32 :=
  dateTimeLong d.date d.time

/-- A number of bits of a longword, from a bit on. -/
def bitField (long : UInt32) (first count : Nat) : Nat :=
  long.toNat / 2 ^ first % 2 ^ count

/-- The fields of a longword, read as a date and a time of day. -/
def ofPacked (long : UInt32) : DateTime where
  year := bitField long 25 7 + 1980
  month := bitField long 21 4
  day := bitField long 16 5
  hour := bitField long 11 5
  minute := bitField long 5 6
  second := 2 * bitField long 0 5

theorem toNat_date (date : IsDate d.year d.month d.day) (years : 1980 ≤ d.year ∧ d.year ≤ 2107) :
    d.date.toNat = 512 * (d.year - 1980).toNat + (32 * d.month + d.day) := by
  obtain ⟨first, last⟩ := years
  have day_le := date.day_le.trans (daysInMonth_le _ _)
  have month_le := date.month_le
  rw [DateTime.date, toNat_dateWord, UInt8.toNat_ofNat', UInt8.toNat_ofNat']
  omega

theorem IsValid.toNat_time (valid : d.IsValid) :
    d.time.toNat = 2048 * d.hour + (32 * d.minute + d.second / 2) := by
  obtain ⟨_, hour, minute, second⟩ := valid
  rw [DateTime.time, toNat_timeWord, UInt8.toNat_ofNat', UInt8.toNat_ofNat', UInt8.toNat_ofNat']
  omega

theorem IsValid.toNat_packed (valid : d.IsValid) (years : 1980 ≤ d.year ∧ d.year ≤ 2107) :
    d.packed.toNat =
      65536 * (512 * (d.year - 1980).toNat + (32 * d.month + d.day)) +
        (2048 * d.hour + (32 * d.minute + d.second / 2)) := by
  rw [packed, toNat_dateTimeLong, toNat_date valid.date years, valid.toNat_time]

/-- Packed words compare as the times that they stand for, counted in units of two seconds. -/
theorem IsValid.packed_le_iff (valid : d.IsValid) (valid' : d'.IsValid)
    (years : 1980 ≤ d.year ∧ d.year ≤ 2107) (years' : 1980 ≤ d'.year ∧ d'.year ≤ 2107) :
    d.packed ≤ d'.packed ↔ d.seconds / 2 ≤ d'.seconds / 2 := by
  rw [UInt32.le_iff_toNat_le, valid.toNat_packed years, valid'.toNat_packed years', seconds, seconds]
  have before := valid.date.dayNumber_lt_iff valid'.date
  have behind := valid'.date.dayNumber_lt_iff valid.date
  have day_le := valid.date.day_le.trans (daysInMonth_le _ _)
  have day_le' := valid'.date.day_le.trans (daysInMonth_le _ _)
  obtain ⟨date, hour, minute, second⟩ := valid
  obtain ⟨date', hour', minute', second'⟩ := valid'
  have month_le := date.month_le
  have month_le' := date'.month_le
  obtain ⟨first, last⟩ := years
  obtain ⟨first', last'⟩ := years'
  generalize dayNumber d.year d.month d.day = days at *
  generalize dayNumber d'.year d'.month d'.day = days' at *
  rcases lt_trichotomy days days' with less | same | greater
  · have earlier := before.mp less
    omega
  · have same_date : d.year = d'.year ∧ d.month = d'.month ∧ d.day = d'.day := by
      omega
    omega
  · have later := behind.mp greater
    omega

theorem IsValid.ofPacked_packed (valid : d.IsValid) (years : 1980 ≤ d.year ∧ d.year ≤ 2107) :
    ofPacked d.packed = { d with second := d.second / 2 * 2 } := by
  have number := valid.toNat_packed years
  have day_le := valid.date.day_le.trans (daysInMonth_le _ _)
  obtain ⟨date, hour, minute, second⟩ := valid
  have month_le := date.month_le
  obtain ⟨first, last⟩ := years
  unfold ofPacked bitField
  rw [number, mk.injEq]
  refine ⟨?_, ?_, ?_, ?_, ?_, ?_⟩ <;> omega

theorem dateWord?_of_mem (years : 1980 ≤ d.year ∧ d.year ≤ 2107) :
    dateWord? (Int32.ofInt d.year) d.month.toUInt8 d.day.toUInt8 = some d.date := by
  obtain ⟨first, last⟩ := years
  have year : (Int32.ofInt d.year).toInt = d.year := by
    refine Int32.toInt_ofInt_of_le ?_ ?_ <;> omega
  refine dateWord?_eq_some_iff.mpr ⟨?_, ?_⟩
  · rw [year]
    have least : Int32.minValue.toInt = -2147483648 := rfl
    omega
  · rw [year]
    rfl

/-- Of two times in the years 1980 to 2107 the later one never has the smaller word, and a word that
is not greater belongs to a time that is not later, but for one of two seconds. The fields of the
word are those of the time, with an even second. It is packed without a year being clamped or out of
range, and the seconds that order times are those from which the calendar tells them. -/
theorem packed_order_and_fields (valid : d.IsValid) (valid' : d'.IsValid)
    (years : 1980 ≤ d.year ∧ d.year ≤ 2107) (years' : 1980 ≤ d'.year ∧ d'.year ≤ 2107) :
    (d.seconds ≤ d'.seconds → d.packed ≤ d'.packed) ∧
    (d.packed ≤ d'.packed → d.seconds / 2 ≤ d'.seconds / 2) ∧
    ofPacked d.packed = { d with second := d.second / 2 * 2 } ∧
    dateWord? (Int32.ofInt d.year) d.month.toUInt8 d.day.toUInt8 = some d.date ∧
    ofSeconds d.seconds = d := by
  have order := valid.packed_le_iff valid' years years'
  refine ⟨fun later => ?_, order.mp, valid.ofPacked_packed years, dateWord?_of_mem years,
    valid.ofSeconds_seconds⟩
  exact order.mpr (Int.ediv_le_ediv (by decide) later)

def leapDayEnd : DateTime :=
  ⟨2000, 2, 29, 23, 59, 59⟩

def marchStart : DateTime :=
  ⟨2000, 3, 1, 0, 0, 0⟩

theorem packed_order_and_fields_leapDay :
    (leapDayEnd.IsValid ∧ marchStart.IsValid ∧ 1980 ≤ leapDayEnd.year ∧ leapDayEnd.year ≤ 2107 ∧
      1980 ≤ marchStart.year ∧ marchStart.year ≤ 2107 ∧ leapDayEnd.seconds ≤ marchStart.seconds) ∧
    leapDayEnd.packed ≤ marchStart.packed ∧
    ofPacked leapDayEnd.packed = ⟨2000, 2, 29, 23, 59, 58⟩ ∧
    ofSeconds leapDayEnd.seconds = leapDayEnd := by
  have valid : leapDayEnd.IsValid :=
    ⟨⟨by decide, by decide, by decide, by decide⟩, by decide, by decide, by decide⟩
  have valid' : marchStart.IsValid :=
    ⟨⟨by decide, by decide, by decide, by decide⟩, by decide, by decide, by decide⟩
  have years : 1980 ≤ leapDayEnd.year ∧ leapDayEnd.year ≤ 2107 := ⟨by decide, by decide⟩
  have years' : 1980 ≤ marchStart.year ∧ marchStart.year ≤ 2107 := ⟨by decide, by decide⟩
  have later : leapDayEnd.seconds ≤ marchStart.seconds := by decide
  obtain ⟨order, _, fields, _, instant⟩ := packed_order_and_fields valid valid' years years'
  exact ⟨⟨valid, valid', years.1, years.2, years'.1, years'.2, later⟩, order later, fields, instant⟩

end DateTime

end AtariTos
