import ForgeCore.Library.Text

/-!
# Lease timestamps

The fixed `YYYY-MM-DDTHH:MM:SSZ` codec of the claim engine, over the civil
calendar.  Unix seconds are integers; the source's `i64` arithmetic on them
never leaves its range.
-/

namespace ForgeCore.Claims

open Text

/-- The language's `/` and `%` on signed integers truncate towards zero. -/
def isLeapYear (year : Int) : Bool :=
  (year.tmod 4 = 0 && year.tmod 100 ≠ 0) || year.tmod 400 = 0

def daysInMonth (year month : Int) : Option Int :=
  if month ∈ [1, 3, 5, 7, 8, 10, 12] then some 31
  else if month ∈ [4, 6, 9, 11] then some 30
  else if month = 2 then
    if isLeapYear year then some 29 else some 28
  else none

def daysFromCivil (year month day : Int) : Int :=
  let shifted := if month ≤ 2 then year - 1 else year
  let era := (if shifted ≥ 0 then shifted else shifted - 399).tdiv 400
  let yearOfEra := shifted - era * 400
  let monthAdjusted := if month > 2 then month - 3 else month + 9
  let dayOfYear := (153 * monthAdjusted + 2).tdiv 5 + day - 1
  let dayOfEra := yearOfEra * 365 + yearOfEra.tdiv 4 - yearOfEra.tdiv 100 + dayOfYear
  era * 146097 + dayOfEra - 719468

/-- The civil date `(year, month, day)` of a day count. -/
def civilFromDays (days : Int) : Int × Int × Int :=
  let shifted := days + 719468
  let era := (if shifted ≥ 0 then shifted else shifted - 146096).tdiv 146097
  let dayOfEra := shifted - era * 146097
  let yearOfEra :=
    (dayOfEra - dayOfEra.tdiv 1460 + dayOfEra.tdiv 36524 - dayOfEra.tdiv 146096).tdiv 365
  let year := yearOfEra + era * 400
  let dayOfYear := dayOfEra - (365 * yearOfEra + yearOfEra.tdiv 4 - yearOfEra.tdiv 100)
  let monthPrime := (5 * dayOfYear + 2).tdiv 153
  let day := dayOfYear - (153 * monthPrime + 2).tdiv 5 + 1
  let month := if monthPrime < 10 then monthPrime + 3 else monthPrime - 9
  (if month ≤ 2 then year + 1 else year, month, day)

/-- Unix seconds of a fixed-shape timestamp, or `none` on any deviation. -/
def rfc3339ToUnix (timestamp : String) : Option Int := do
  let bytes := asBytes timestamp
  if bytes.length ≠ 20 || bytes[19]? ≠ some 90 then
    none
  let year ← parseI64 (← getRange bytes 0 4)
  if bytes[4]? ≠ some 45 || bytes[7]? ≠ some 45 ||
      bytes[10]? ≠ some 84 || bytes[13]? ≠ some 58 || bytes[16]? ≠ some 58 then
    none
  let month ← parseI64 (← getRange bytes 5 7)
  let day ← parseI64 (← getRange bytes 8 10)
  let hour ← parseI64 (← getRange bytes 11 13)
  let minute ← parseI64 (← getRange bytes 14 16)
  let second ← parseI64 (← getRange bytes 17 19)
  let maxDay ← daysInMonth year month
  if !(1 ≤ day && day ≤ maxDay) || !(0 ≤ hour && hour ≤ 23) ||
      !(0 ≤ minute && minute ≤ 59) || !(0 ≤ second && second ≤ 59) then
    none
  let days := daysFromCivil year month day
  some (days * 86400 + hour * 3600 + minute * 60 + second)

/-- `YYYY-MM-DDTHH:MM:SSZ` of unix seconds.  Years outside `0..9999` print
with a sign or with more digits, and such a text does not parse back. -/
def unixToRfc3339 (unix : Int) : String :=
  let days := unix / 86400
  let seconds := unix % 86400
  let (year, month, day) := civilFromDays days
  let hour := seconds.tdiv 3600
  let minute := (seconds.tmod 3600).tdiv 60
  let second := seconds.tmod 60
  zeroPadded 4 year ++ "-" ++ zeroPadded 2 month ++ "-" ++
    zeroPadded 2 day ++ "T" ++ zeroPadded 2 hour ++ ":" ++
    zeroPadded 2 minute ++ ":" ++ zeroPadded 2 second ++ "Z"

end ForgeCore.Claims
