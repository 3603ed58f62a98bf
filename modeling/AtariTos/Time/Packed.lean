namespace AtariTos

/-- Years since 1980, held between 0 and 127. -/
def packedYear (year : Int) : UInt16 :=
  (max 0 (min 127 (year - 1980))).toNat.toUInt16

/-- Day in bits 0 to 4, month in 5 to 8, years since 1980 in 9 to 15. -/
def dateWord (year : Int) (month day : UInt8) : UInt16 :=
  let dayBits : UInt16 := day.toUInt16 % 32
  let monthBits : UInt16 := month.toUInt16 % 16
  dayBits ||| monthBits <<< 5 ||| packedYear year <<< 9

/-- The packed date of a 32-bit year, unless the distance from 1980 leaves 32 bits. -/
def dateWord? (year : Int32) (month day : UInt8) : Option UInt16 :=
  if Int32.minValue.toInt ≤ year.toInt - 1980 then some (dateWord year.toInt month day) else none

/-- Half the second in bits 0 to 4, minute in 5 to 10, hour in 11 to 15. -/
def timeWord (hour minute second : UInt8) : UInt16 :=
  let secondBits : UInt16 := (second / 2).toUInt16 % 32
  let minuteBits : UInt16 := minute.toUInt16 % 64
  let hourBits : UInt16 := hour.toUInt16 % 32
  secondBits ||| minuteBits <<< 5 ||| hourBits <<< 11

def dateTimeLong (date time : UInt16) : UInt32 :=
  (date.toUInt32 <<< 16) ||| time.toUInt32

end AtariTos
