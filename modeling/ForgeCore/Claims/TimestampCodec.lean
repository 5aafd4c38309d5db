import ForgeCore.Claims.Calendar
import ForgeCore.Library.Decimal

/-!
# Timestamps

The printed timestamps are read back as the second that they name, and what
is read is a valid date.
-/

namespace ForgeCore.Claims

open List Text

/-! ## The fields of a timestamp -/

/-- The numbers of a timestamp. -/
structure Stamp where
  year : Int
  month : Nat
  day : Nat
  hour : Nat
  minute : Nat
  second : Nat
deriving DecidableEq, Repr

variable {stamp : Stamp} {bytes : List UInt8} {timestamp : String}

namespace Stamp

def seconds (stamp : Stamp) : Nat :=
  stamp.hour * 3600 + stamp.minute * 60 + stamp.second

def unix (stamp : Stamp) : Int :=
  daysFromCivil stamp.year stamp.month stamp.day * 86400 + stamp.seconds

def text (stamp : Stamp) : String :=
  zeroPadded 4 stamp.year ++ "-" ++ zeroPadded 2 stamp.month ++ "-" ++
    zeroPadded 2 stamp.day ++ "T" ++ zeroPadded 2 stamp.hour ++ ":" ++
    zeroPadded 2 stamp.minute ++ ":" ++ zeroPadded 2 stamp.second ++ "Z"

structure Valid (stamp : Stamp) : Prop where
  date : ValidDate stamp.year stamp.month stamp.day
  hour : stamp.hour ≤ 23
  minute : stamp.minute ≤ 59
  second : stamp.second ≤ 59

def ofUnix (unix : Int) : Stamp :=
  let date := civilFromDays (unix / 86400)
  let seconds := (unix % 86400).toNat
  { year := date.1
    month := date.2.1.toNat
    day := date.2.2.toNat
    hour := seconds / 3600
    minute := seconds % 3600 / 60
    second := seconds % 60 }

theorem Valid.seconds_lt (valid : stamp.Valid) : stamp.seconds < 86400 := by
  obtain ⟨-, hour, minute, second⟩ := valid
  rw [seconds]
  omega

theorem text_ofUnix (unix : Int) : (ofUnix unix).text = unixToRfc3339 unix := by
  obtain ⟨valid, -⟩ := civilFromDays_spec (unix / 86400)
  obtain ⟨maxDay, -, first, -⟩ := valid.dayRange
  have month : ((civilFromDays (unix / 86400)).2.1.toNat : Int) =
      (civilFromDays (unix / 86400)).2.1 := by
    have low := valid.monthRange.1
    omega
  have day : ((civilFromDays (unix / 86400)).2.2.toNat : Int) =
      (civilFromDays (unix / 86400)).2.2 := by
    omega
  have nonnegative : 0 ≤ unix % 86400 := by omega
  have hour : (((unix % 86400).toNat / 3600 : Nat) : Int) = (unix % 86400).tdiv 3600 := by
    rw [Int.tdiv_eq_ediv_of_nonneg nonnegative]
    omega
  have minute : (((unix % 86400).toNat % 3600 / 60 : Nat) : Int) =
      ((unix % 86400).tmod 3600).tdiv 60 := by
    rw [Int.tmod_eq_emod_of_nonneg nonnegative, Int.tdiv_eq_ediv_of_nonneg (by omega)]
    omega
  have second : (((unix % 86400).toNat % 60 : Nat) : Int) = (unix % 86400).tmod 60 := by
    rw [Int.tmod_eq_emod_of_nonneg nonnegative]
    omega
  simp only [text, ofUnix, month, day, hour, minute, second]
  rfl

theorem ofUnix_valid (unix : Int) : (ofUnix unix).Valid := by
  obtain ⟨valid, -⟩ := civilFromDays_spec (unix / 86400)
  obtain ⟨maxDay, known, first, last⟩ := valid.dayRange
  have low := valid.monthRange.1
  refine ⟨?_, ?_, ?_, ?_⟩
  · simp only [ofUnix]
    rw [Int.toNat_of_nonneg (by omega), Int.toNat_of_nonneg (by omega)]
    exact valid
  · simp only [ofUnix]
    omega
  · simp only [ofUnix]
    omega
  · simp only [ofUnix]
    omega

theorem unix_ofUnix (unix : Int) : (ofUnix unix).unix = unix := by
  obtain ⟨valid, counted⟩ := civilFromDays_spec (unix / 86400)
  obtain ⟨maxDay, -, first, -⟩ := valid.dayRange
  have low := valid.monthRange.1
  have days : daysFromCivil (ofUnix unix).year (ofUnix unix).month
      (ofUnix unix).day = unix / 86400 := by
    simp only [ofUnix]
    rw [Int.toNat_of_nonneg (by omega), Int.toNat_of_nonneg (by omega)]
    exact counted
  rw [Stamp.unix, days]
  simp only [seconds, ofUnix]
  omega

theorem Valid.unique {other : Stamp} (valid : stamp.Valid)
    (otherValid : other.Valid) (same : stamp.unix = other.unix) : stamp = other := by
  have short := valid.seconds_lt
  have otherShort := otherValid.seconds_lt
  rw [unix, unix] at same
  have sameDays : daysFromCivil stamp.year stamp.month stamp.day =
      daysFromCivil other.year other.month other.day := by
    omega
  have sameSeconds : stamp.seconds = other.seconds := by omega
  obtain ⟨sameYear, sameMonth, sameDay⟩ := validDate_unique valid.date otherValid.date sameDays
  obtain ⟨-, hour, minute, second⟩ := valid
  obtain ⟨-, otherHour, otherMinute, otherSecond⟩ := otherValid
  rw [seconds, seconds] at sameSeconds
  cases stamp
  cases other
  simp only [Stamp.mk.injEq]
  simp only at *
  omega

theorem ofUnix_unix (valid : stamp.Valid) : ofUnix stamp.unix = stamp :=
  (ofUnix_valid _).unique valid (unix_ofUnix _)

end Stamp

/-- The digits of a timestamp, field by field. -/
structure StampBytes where
  year : List UInt8
  month : List UInt8
  day : List UInt8
  hour : List UInt8
  minute : List UInt8
  second : List UInt8

namespace StampBytes

def join (fields : StampBytes) : List UInt8 :=
  fields.year ++ 45 :: (fields.month ++ 45 :: (fields.day ++
    84 :: (fields.hour ++ 58 :: (fields.minute ++ 58 :: (fields.second ++ [90])))))

/-- Each field has its width. -/
structure Sized (fields : StampBytes) : Prop where
  year : fields.year.length = 4
  month : fields.month.length = 2
  day : fields.day.length = 2
  hour : fields.hour.length = 2
  minute : fields.minute.length = 2
  second : fields.second.length = 2

/-- Each field is the decimal text of its number. -/
structure Reads (fields : StampBytes) (stamp : Stamp) : Prop where
  year : parseI64 fields.year = some stamp.year
  month : parseI64 fields.month = some (stamp.month : Int)
  day : parseI64 fields.day = some (stamp.day : Int)
  hour : parseI64 fields.hour = some (stamp.hour : Int)
  minute : parseI64 fields.minute = some (stamp.minute : Int)
  second : parseI64 fields.second = some (stamp.second : Int)

end StampBytes

theorem split_at {index : Nat} {byte : UInt8} (found : bytes[index]? = some byte) :
    bytes = bytes.take index ++ byte :: bytes.drop (index + 1) := by
  obtain ⟨inside, isByte⟩ := List.getElem?_eq_some_iff.mp found
  conv_lhs => rw [← take_append_drop index bytes]
  rw [drop_eq_getElem_cons inside, isByte]

def stampBytes (bytes : List UInt8) : StampBytes where
  year := bytes.take 4
  month := (bytes.drop 5).take 2
  day := (bytes.drop 8).take 2
  hour := (bytes.drop 11).take 2
  minute := (bytes.drop 14).take 2
  second := (bytes.drop 17).take 2

theorem stampBytes_sized (length : bytes.length = 20) : (stampBytes bytes).Sized := by
  constructor <;> simp [stampBytes, length]

theorem join_stampBytes (length : bytes.length = 20)
    (dash : bytes[4]? = some 45) (dash' : bytes[7]? = some 45)
    (time : bytes[10]? = some 84) (colon : bytes[13]? = some 58)
    (colon' : bytes[16]? = some 58) (zone : bytes[19]? = some 90) :
    bytes = (stampBytes bytes).join := by
  have split {start : Nat} {byte : UInt8} (found : bytes[start + 2]? = some byte) :
      bytes.drop start = (bytes.drop start).take 2 ++ byte :: bytes.drop (start + 3) := by
    have dropped : (bytes.drop start)[2]? = some byte := by
      rw [getElem?_drop, found]
    have parts := split_at dropped
    rw [drop_drop] at parts
    exact parts
  have nothing : bytes.drop 20 = [] := by
    rw [drop_eq_nil_iff, length]
  calc
    bytes = bytes.take 4 ++ 45 :: bytes.drop 5 := split_at dash
    _ = (stampBytes bytes).join := by
      rw [split dash', split time, split colon, split colon', split zone, nothing]
      rfl

theorem getRange_eq {field : List UInt8} {start stop : Nat}
    (found : getRange bytes start stop = some field) :
    field = (bytes.drop start).take (stop - start) := by
  rw [getRange] at found
  split at found
  · exact (Option.some.inj found).symm
  · cases found

theorem reads_of_rfc3339ToUnix {unix : Int} (parsed : rfc3339ToUnix timestamp = some unix) :
    ∃ stamp : Stamp, (asBytes timestamp).length = 20 ∧
      asBytes timestamp = (stampBytes (asBytes timestamp)).join ∧
      (stampBytes (asBytes timestamp)).Reads stamp ∧ stamp.Valid ∧ stamp.unix = unix := by
  rw [rfc3339ToUnix] at parsed
  simp only at parsed
  split at parsed
  · cases parsed
  next sized =>
  obtain ⟨yearBytes, yearRange, parsed⟩ := Option.bind_eq_some_iff.mp parsed
  obtain ⟨year, yearRead, parsed⟩ := Option.bind_eq_some_iff.mp parsed
  split at parsed
  · cases parsed
  next separated =>
  obtain ⟨monthBytes, monthRange, parsed⟩ := Option.bind_eq_some_iff.mp parsed
  obtain ⟨month, monthRead, parsed⟩ := Option.bind_eq_some_iff.mp parsed
  obtain ⟨dayBytes, dayRange, parsed⟩ := Option.bind_eq_some_iff.mp parsed
  obtain ⟨day, dayRead, parsed⟩ := Option.bind_eq_some_iff.mp parsed
  obtain ⟨hourBytes, hourRange, parsed⟩ := Option.bind_eq_some_iff.mp parsed
  obtain ⟨hour, hourRead, parsed⟩ := Option.bind_eq_some_iff.mp parsed
  obtain ⟨minuteBytes, minuteRange, parsed⟩ := Option.bind_eq_some_iff.mp parsed
  obtain ⟨minute, minuteRead, parsed⟩ := Option.bind_eq_some_iff.mp parsed
  obtain ⟨secondBytes, secondRange, parsed⟩ := Option.bind_eq_some_iff.mp parsed
  obtain ⟨second, secondRead, parsed⟩ := Option.bind_eq_some_iff.mp parsed
  obtain ⟨maxDay, known, parsed⟩ := Option.bind_eq_some_iff.mp parsed
  split at parsed
  · cases parsed
  next inRange =>
  clear * - sized separated yearRange yearRead monthRange monthRead dayRange
    dayRead hourRange hourRead minuteRange minuteRead secondRange secondRead known parsed inRange
  simp only [Bool.or_eq_true, decide_eq_true_eq, not_or, ne_eq, not_not,
    Bool.not_eq_eq_eq_not, Bool.not_true, Bool.and_eq_false_iff,
    decide_eq_false_iff_not, not_le, not_lt] at sized separated inRange
  obtain ⟨⟨⟨dayIn, hourIn⟩, minuteIn⟩, secondIn⟩ := inRange
  have monthIn := daysInMonth_isSome known
  have total := Option.some.inj parsed
  refine ⟨⟨year, month.toNat, day.toNat, hour.toNat, minute.toNat,
    second.toNat⟩, sized.1, ?_, ?_, ?_, ?_⟩
  · obtain ⟨⟨⟨⟨dash, dash'⟩, time⟩, colon⟩, colon'⟩ := separated
    exact join_stampBytes sized.1 dash dash' time colon colon' sized.2
  · rw [getRange_eq yearRange] at yearRead
    rw [getRange_eq monthRange] at monthRead
    rw [getRange_eq dayRange] at dayRead
    rw [getRange_eq hourRange] at hourRead
    rw [getRange_eq minuteRange] at minuteRead
    rw [getRange_eq secondRange] at secondRead
    refine ⟨yearRead, ?_, ?_, ?_, ?_, ?_⟩ <;> rw [Int.toNat_of_nonneg (by omega)] <;> assumption
  · refine ⟨?_, ?_, ?_, ?_⟩
    · rw [Int.toNat_of_nonneg (by omega), Int.toNat_of_nonneg (by omega)]
      exact ⟨monthIn, maxDay, known, by omega, by omega⟩
    all_goals (simp only; omega)
  · rw [← total, Stamp.unix, Int.toNat_of_nonneg (by omega),
      Int.toNat_of_nonneg (by omega), Stamp.seconds]
    simp only
    omega

theorem ascii_of_parseI64 {value : Int} (parsed : parseI64 bytes = some value) :
    ∃ first rest, bytes = first :: rest ∧ first < 128 := by
  cases signedDigits_of_parseI64 parsed with
  | plus present read | minus present read => exact ⟨_, _, rfl, by decide⟩
  | plain present read =>
    cases bytes with
    | nil => exact absurd rfl present
    | cons first rest =>
      have range := head_of_parseDigits read
      refine ⟨first, rest, rfl, ?_⟩
      rw [UInt8.lt_iff_toNat_lt]
      exact lt_of_le_of_lt range.2 (by decide)

theorem isCharBoundary_append (front rest : List UInt8) {first : UInt8} (ascii : first < 128) :
    isCharBoundary (front ++ first :: rest) front.length = true := by
  simp [isCharBoundary, ascii]

theorem getRange_append {front field rest : List UInt8} {next : UInt8}
    {value : Int} (parsed : parseI64 field = some value) (ascii : next < 128) :
    getRange (front ++ (field ++ next :: rest)) front.length
      (front.length + field.length) = some field := by
  obtain ⟨first, others, rfl, firstAscii⟩ := ascii_of_parseI64 parsed
  have starts := isCharBoundary_append front (others ++ next :: rest) firstAscii
  have stops := isCharBoundary_append (front ++ first :: others) rest ascii
  rw [length_append, append_assoc] at stops
  rw [cons_append] at stops ⊢
  rw [getRange, starts, stops]
  simp

theorem getRange_join {fields : StampBytes} {front field rest : List UInt8}
    {start stop : Nat} {next : UInt8} {value : Int}
    (isJoin : fields.join = front ++ (field ++ next :: rest))
    (parsed : parseI64 field = some value) (ascii : next < 128) (starts : front.length = start)
    (stops : front.length + field.length = stop) :
    getRange fields.join start stop = some field := by
  rw [isJoin, ← starts, ← stops]
  have found := @getRange_append front field rest next value parsed ascii
  rw [found]

theorem rfc3339ToUnix_of_reads {fields : StampBytes}
    (sized : fields.Sized) (bytes : asBytes timestamp = fields.join) (reads : fields.Reads stamp)
    (valid : stamp.Valid) : rfc3339ToUnix timestamp = some stamp.unix := by
  obtain ⟨yearSize, monthSize, daySize, hourSize, minuteSize, secondSize⟩ := sized
  have length : fields.join.length = 20 := by
    simp [StampBytes.join, yearSize, monthSize, daySize, hourSize, minuteSize, secondSize]
  have year : getRange fields.join 0 4 = some fields.year :=
    @getRange_join fields [] fields.year _ 0 4 45 _ rfl reads.year
      (by decide) rfl (by simp [yearSize])
  have month : getRange fields.join 5 7 = some fields.month :=
    @getRange_join fields (fields.year ++ [45]) fields.month _ 5 7 45 _
      (by simp [StampBytes.join]; rfl) reads.month (by decide)
      (by simp [yearSize]) (by simp [yearSize, monthSize])
  have day : getRange fields.join 8 10 = some fields.day :=
    @getRange_join fields (fields.year ++ 45 :: (fields.month ++ [45]))
      fields.day _ 8 10 84 _ (by simp [StampBytes.join]; rfl) reads.day
      (by decide) (by simp [yearSize, monthSize]) (by simp [yearSize, monthSize, daySize])
  have hour : getRange fields.join 11 13 = some fields.hour := @getRange_join fields
      (fields.year ++ 45 :: (fields.month ++ 45 :: (fields.day ++ [84])))
      fields.hour _ 11 13 58 _ (by simp [StampBytes.join]; rfl) reads.hour
      (by decide) (by simp [yearSize, monthSize, daySize])
      (by simp [yearSize, monthSize, daySize, hourSize])
  have minute : getRange fields.join 14 16 = some fields.minute := @getRange_join fields
      (fields.year ++ 45 :: (fields.month ++ 45 :: (fields.day ++ 84 :: (fields.hour ++ [58]))))
      fields.minute _ 14 16 58 _ (by simp [StampBytes.join]; rfl) reads.minute (by decide)
      (by simp [yearSize, monthSize, daySize, hourSize])
      (by simp [yearSize, monthSize, daySize, hourSize, minuteSize])
  have second : getRange fields.join 17 19 = some fields.second := @getRange_join fields
      (fields.year ++ 45 :: (fields.month ++ 45 :: (fields.day ++
        84 :: (fields.hour ++ 58 :: (fields.minute ++ [58])))))
      fields.second [] 17 19 90 _ (by simp [StampBytes.join]) reads.second (by decide)
      (by simp [yearSize, monthSize, daySize, hourSize, minuteSize])
      (by simp [yearSize, monthSize, daySize, hourSize, minuteSize, secondSize])
  have separated : fields.join[4]? = some 45 ∧ fields.join[7]? = some 45 ∧
      fields.join[10]? = some 84 ∧ fields.join[13]? = some 58 ∧
      fields.join[16]? = some 58 ∧ fields.join[19]? = some 90 := by
    simp [StampBytes.join, yearSize, monthSize, daySize, hourSize, minuteSize, secondSize]
  obtain ⟨dash, dash', time, colon, colon', zone⟩ := separated
  obtain ⟨⟨-, maxDay, known, first, last⟩, hourIn, minuteIn, secondIn⟩ := valid
  have inRange : (!(decide (1 ≤ (stamp.day : Int)) && decide ((stamp.day : Int) ≤ maxDay)) ||
      !(decide (0 ≤ (stamp.hour : Int)) && decide ((stamp.hour : Int) ≤ 23)) ||
      !(decide (0 ≤ (stamp.minute : Int)) && decide ((stamp.minute : Int) ≤ 59)) ||
      !(decide (0 ≤ (stamp.second : Int)) && decide ((stamp.second : Int) ≤ 59))) = false := by
    simp only [Bool.or_eq_false_iff, Bool.not_eq_eq_eq_not, Bool.not_false,
      Bool.and_eq_true, decide_eq_true_eq]
    omega
  simp only [rfc3339ToUnix, bytes, length, zone, year, reads.year, dash,
    dash', time, colon, colon', month, reads.month, day, reads.day, hour,
    reads.hour, minute, reads.minute, second, reads.second, known, inRange,
    Option.bind_eq_bind, Option.bind_some, ne_eq, not_true_eq_false,
    decide_false, Bool.or_false, Bool.false_eq_true, if_false]
  rw [Stamp.unix, Stamp.seconds]
  congr 1
  push_cast
  omega

/-- The years that fit the four places of the year field; a sign takes one
of them. -/
def PrintableYear (year : Int) : Prop := -999 ≤ year ∧ year ≤ 9999

instance PrintableYear.decidable (year : Int) : Decidable (PrintableYear year) :=
  inferInstanceAs (Decidable (_ ∧ _))

def yearBytes (year : Int) : List UInt8 :=
  if year < 0 then 45 :: paddedBytes 3 year.natAbs
  else paddedBytes 4 year.natAbs

def Stamp.printed (stamp : Stamp) : StampBytes where
  year := yearBytes stamp.year
  month := paddedBytes 2 stamp.month
  day := paddedBytes 2 stamp.day
  hour := paddedBytes 2 stamp.hour
  minute := paddedBytes 2 stamp.minute
  second := paddedBytes 2 stamp.second

theorem daysInMonth_le {year month maxDay : Int}
    (known : daysInMonth year month = some maxDay) : maxDay ≤ 31 := by
  rw [daysInMonth] at known
  split at known
  · cases known
    decide
  split at known
  · cases known
    decide
  split at known
  · split at known <;> cases known <;> decide
  · cases known

theorem Stamp.Valid.small (valid : stamp.Valid) :
    stamp.month < 100 ∧ stamp.day < 100 ∧ stamp.hour < 100 ∧
      stamp.minute < 100 ∧ stamp.second < 100 := by
  obtain ⟨⟨monthRange, maxDay, known, -, last⟩, hour, minute, second⟩ := valid
  have atMost := daysInMonth_le known
  omega

theorem yearBytes_sized {year : Int} : (yearBytes year).length = 4 := by
  rw [yearBytes]
  split <;> simp

theorem Stamp.printed_sized (stamp : Stamp) : stamp.printed.Sized := by
  constructor <;> simp [Stamp.printed, yearBytes_sized]

theorem parseDigits_paddedBytes {width value : Nat} (fits : value < 10 ^ width) :
    parseDigits 0 (paddedBytes width value) = some value := by
  rw [parseDigits_eq_some, length_paddedBytes]
  exact ⟨fits, rfl⟩

theorem parseI64_paddedBytes {width value : Nat}
    (fits : value < 10 ^ (width + 1)) (small : value < 10000) :
    parseI64 (paddedBytes (width + 1) value) = some (value : Int) := by
  apply parseI64_of_digits
  · intro empty
    have length := congrArg List.length empty
    simp at length
  · exact parseDigits_paddedBytes fits
  · rw [inI64_iff, i64Min, i64Max]
    omega

theorem parseI64_yearBytes {year : Int} (printable : PrintableYear year) :
    parseI64 (yearBytes year) = some year := by
  obtain ⟨low, high⟩ := printable
  rw [yearBytes]
  split
  · next negative =>
    have value : -(year.natAbs : Int) = year := by omega
    rw [parseI64_of_minus _ (parseDigits_paddedBytes (by omega)), value]
    · rw [inI64_iff, i64Min, i64Max]
      omega
    · intro empty
      have length := congrArg List.length empty
      simp at length
  · next nonnegative =>
    have value : (year.natAbs : Int) = year := by omega
    rw [parseI64_paddedBytes (by omega) (by omega), value]

theorem Stamp.Valid.printed_reads (valid : stamp.Valid) (printable : PrintableYear stamp.year) :
    stamp.printed.Reads stamp := by
  obtain ⟨month, day, hour, minute, second⟩ := valid.small
  refine ⟨parseI64_yearBytes printable, ?_, ?_, ?_, ?_, ?_⟩ <;>
    exact parseI64_paddedBytes (by omega) (by omega)

theorem asBytes_year {year : Int} (printable : PrintableYear year) :
    asBytes (zeroPadded 4 year) = yearBytes year := by
  obtain ⟨low, high⟩ := printable
  rw [yearBytes]
  split
  · next negative =>
    have value : year = -(year.natAbs : Int) := by omega
    conv_lhs => rw [value]
    exact asBytes_zeroPadded_neg (by omega) (by omega)
  · next nonnegative =>
    have value : year = (year.natAbs : Int) := by omega
    conv_lhs => rw [value]
    exact asBytes_zeroPadded (by omega)

theorem Stamp.Valid.asBytes_text (valid : stamp.Valid) (printable : PrintableYear stamp.year) :
    asBytes stamp.text = stamp.printed.join := by
  obtain ⟨month, day, hour, minute, second⟩ := valid.small
  have two {value : Nat} (small : value < 100) :
      asBytes (zeroPadded 2 value) = paddedBytes 2 value := asBytes_zeroPadded (by omega)
  have dash : asBytes "-" = [45] := by decide
  have time : asBytes "T" = [84] := by decide
  have colon : asBytes ":" = [58] := by decide
  have zone : asBytes "Z" = [90] := by decide
  simp only [Stamp.text, asBytes_append, asBytes_year printable, two month,
    two day, two hour, two minute, two second, dash, time, colon, zone,
    Stamp.printed, StampBytes.join, append_assoc, cons_append, nil_append]

theorem rfc3339ToUnix_unixToRfc3339 {unix : Int}
    (printable : PrintableYear (Stamp.ofUnix unix).year) :
    rfc3339ToUnix (unixToRfc3339 unix) = some unix := by
  have valid := Stamp.ofUnix_valid unix
  rw [← Stamp.text_ofUnix, rfc3339ToUnix_of_reads (Stamp.printed_sized _)
      (valid.asBytes_text printable) (valid.printed_reads printable) valid, Stamp.unix_ofUnix]

def stampShape : List (Nat × List Char) :=
  [(4, ['-']), (2, ['-']), (2, ['T']), (2, [':']), (2, [':']), (2, ['Z'])]

def Stamp.values (stamp : Stamp) : List Nat :=
  [stamp.year.toNat, stamp.month, stamp.day, stamp.hour, stamp.minute, stamp.second]

theorem Stamp.Valid.fitsShape (valid : stamp.Valid)
    (high : stamp.year ≤ 9999) : FitsShape stampShape stamp.values := by
  obtain ⟨month, day, hour, minute, second⟩ := valid.small
  simp only [stampShape, Stamp.values, FitsShape, and_true]
  omega

theorem Stamp.Valid.toList_text (valid : stamp.Valid)
    (low : 0 ≤ stamp.year) (high : stamp.year ≤ 9999) :
    stamp.text.toList = joinDigits stampShape stamp.values := by
  obtain ⟨month, day, hour, minute, second⟩ := valid.small
  have two {value : Nat} (small : value < 100) : zeroPadded 2 value =
        String.ofList ((lastDigits 2 value).map Nat.digitChar) := zeroPadded_ofNat (by omega)
  have four : zeroPadded 4 stamp.year =
      String.ofList ((lastDigits 4 stamp.year.toNat).map Nat.digitChar) := by
    conv_lhs => rw [← Int.toNat_of_nonneg low]
    exact zeroPadded_ofNat (by omega)
  simp only [Stamp.text, four, two month, two day, two hour, two minute,
    two second, String.toList_append, String.toList_ofList, joinDigits,
    stampShape, Stamp.values, append_assoc, append_nil]
  rfl

/-- A later second has later fields. -/
theorem Stamp.Valid.values_lt {later : Stamp} (valid : stamp.Valid)
    (laterValid : later.Valid) (low : 0 ≤ stamp.year)
    (laterLow : 0 ≤ later.year) (before : stamp.unix < later.unix) :
    stamp.values < later.values := by
  have short := valid.seconds_lt
  have laterShort := laterValid.seconds_lt
  rw [Stamp.unix, Stamp.unix] at before
  have ordered : DateLt stamp.year stamp.month stamp.day later.year later.month later.day ∨
      (stamp.year = later.year ∧ (stamp.month : Int) = later.month ∧
        (stamp.day : Int) = later.day) ∧ stamp.seconds < later.seconds := by
    by_contra unordered
    rw [not_or] at unordered
    obtain ⟨notBefore, notSame⟩ := unordered
    by_cases same : stamp.year = later.year ∧
        (stamp.month : Int) = later.month ∧ (stamp.day : Int) = later.day
    · obtain ⟨sameYear, sameMonth, sameDay⟩ := same
      rw [sameYear, sameMonth, sameDay] at before
      exact notSame ⟨⟨sameYear, sameMonth, sameDay⟩, by omega⟩
    · have after : DateLt later.year later.month later.day stamp.year stamp.month stamp.day := by
        unfold DateLt at notBefore ⊢
        omega
      have days := daysFromCivil_lt laterValid.date valid.date after
      omega
  obtain ⟨-, hour, minute, second⟩ := valid
  obtain ⟨-, laterHour, laterMinute, laterSecond⟩ := laterValid
  simp only [Stamp.values, cons_lt_cons_iff]
  unfold DateLt Stamp.seconds at ordered
  have irrefl : ¬([] : List Nat) < [] := lt_irrefl _
  simp only [irrefl, and_false, or_false]
  omega

theorem unixToRfc3339_lt {unix later : Int}
    (low : 0 ≤ (Stamp.ofUnix unix).year) (high : (Stamp.ofUnix unix).year ≤ 9999)
    (laterLow : 0 ≤ (Stamp.ofUnix later).year) (laterHigh : (Stamp.ofUnix later).year ≤ 9999)
    (before : unix < later) : unixToRfc3339 unix < unixToRfc3339 later := by
  have valid := Stamp.ofUnix_valid unix
  have laterValid := Stamp.ofUnix_valid later
  rw [← Stamp.text_ofUnix, ← Stamp.text_ofUnix, String.lt_iff_toList_lt,
    valid.toList_text low high, laterValid.toList_text laterLow laterHigh]
  apply joinDigits_lt (valid.fitsShape high) (laterValid.fitsShape laterHigh)
  apply valid.values_lt laterValid low laterLow
  rwa [Stamp.unix_ofUnix, Stamp.unix_ofUnix]

/-- The field starts with a digit, and not with a sign. -/
def unsigned (field : List UInt8) : Bool :=
  field.head?.any fun first => (digitValue first).isSome

/-- No field has a sign, but for the year, which may be negative. -/
structure FixedShape (timestamp : String) : Prop where
  year : unsigned (stampBytes (asBytes timestamp)).year = true ∨
    (stampBytes (asBytes timestamp)).year.head? = some 45 ∧
      (stampBytes (asBytes timestamp)).year ≠ [45, 48, 48, 48]
  month : unsigned (stampBytes (asBytes timestamp)).month = true
  day : unsigned (stampBytes (asBytes timestamp)).day = true
  hour : unsigned (stampBytes (asBytes timestamp)).hour = true
  minute : unsigned (stampBytes (asBytes timestamp)).minute = true
  second : unsigned (stampBytes (asBytes timestamp)).second = true

theorem unsigned_cons {first : UInt8} {rest : List UInt8} :
    unsigned (first :: rest) = (digitValue first).isSome := rfl

theorem unsigned_paddedBytes (width value : Nat) :
    unsigned (paddedBytes (width + 1) value) = true := by
  cases digits : lastDigits (width + 1) value with
  | nil =>
    have length := congrArg List.length digits
    simp at length
  | cons first rest =>
    have small : first < 10 := by
      apply @lastDigits_lt (width + 1) value
      rw [digits]
      exact mem_cons_self
    rw [paddedBytes, digits, map_cons, unsigned_cons, digitValue_eq_some.mpr ⟨small, rfl⟩]
    rfl

theorem paddedBytes_of_unsigned {field : List UInt8} {value : Int}
    (parsed : parseI64 field = some value) (noSign : unsigned field = true) :
    value.toNat < 10 ^ field.length ∧ 0 ≤ value ∧ field = paddedBytes field.length value.toNat := by
  cases signedDigits_of_parseI64 parsed with
  | plus present read | minus present read =>
    exact absurd noSign (by rw [unsigned_cons]; decide)
  | plain present read =>
    obtain ⟨fits, isPadded⟩ := parseDigits_eq_some.mp read
    rw [Int.toNat_natCast]
    exact ⟨fits, by omega, isPadded⟩

theorem field_eq_paddedBytes {field : List UInt8} {value : Nat}
    (sized : field.length = 2) (parsed : parseI64 field = some (value : Int))
    (noSign : unsigned field = true) : field = paddedBytes 2 value := by
  obtain ⟨-, -, isPadded⟩ := paddedBytes_of_unsigned parsed noSign
  rwa [sized, Int.toNat_natCast] at isPadded

/-- A year field without a plus sign or a negative zero is a printed one. -/
theorem year_eq_yearBytes {field : List UInt8} {year : Int}
    (sized : field.length = 4) (parsed : parseI64 field = some year)
    (shape : unsigned field = true ∨ field.head? = some 45 ∧ field ≠ [45, 48, 48, 48]) :
    PrintableYear year ∧ field = yearBytes year := by
  rcases shape with noSign | ⟨minus, nonzero⟩
  · obtain ⟨fits, nonnegative, isPadded⟩ := paddedBytes_of_unsigned parsed noSign
    rw [sized] at fits isPadded
    refine ⟨⟨by omega, by omega⟩, ?_⟩
    rw [yearBytes, if_neg (by omega), isPadded]
    congr 1
    omega
  · cases signedDigits_of_parseI64 parsed with
    | plus present read =>
      have different : (43 : UInt8) ≠ 45 := by decide
      exact absurd (Option.some.inj minus) different
    | plain present read =>
      cases field with
      | nil => cases minus
      | cons first rest =>
        have range := head_of_parseDigits read
        rw [Option.some.inj minus] at range
        exact absurd range.1 (by decide)
    | @minus digits value present read =>
      obtain ⟨fits, isPadded⟩ := parseDigits_eq_some.mp read
      have three : digits.length = 3 := by simpa using sized
      rw [three] at fits isPadded
      have positive : 0 < value := by
        by_contra zero
        have isZero : value = 0 := by omega
        rw [isZero] at isPadded
        exact nonzero (congrArg (List.cons 45) (isPadded.trans (by decide)))
      refine ⟨⟨by omega, by omega⟩, ?_⟩
      rw [yearBytes, if_pos (by omega), isPadded, Int.natAbs_neg, Int.natAbs_natCast]

theorem asBytes_injective : Function.Injective asBytes := by
  intro left right same
  have decoded := fromUtf8_asBytes left
  rw [same, fromUtf8_asBytes] at decoded
  exact (Option.some.inj decoded).symm

theorem unixToRfc3339_of_fixedShape {unix : Int} (parsed : rfc3339ToUnix timestamp = some unix)
    (shape : FixedShape timestamp) : unixToRfc3339 unix = timestamp := by
  obtain ⟨stamp, length, isJoin, reads, valid, rfl⟩ := reads_of_rfc3339ToUnix parsed
  have sized := stampBytes_sized length
  obtain ⟨printable, year⟩ := year_eq_yearBytes sized.year reads.year shape.year
  have fields : stampBytes (asBytes timestamp) = stamp.printed := by
    have month := field_eq_paddedBytes sized.month reads.month shape.month
    have day := field_eq_paddedBytes sized.day reads.day shape.day
    have hour := field_eq_paddedBytes sized.hour reads.hour shape.hour
    have minute := field_eq_paddedBytes sized.minute reads.minute shape.minute
    have second := field_eq_paddedBytes sized.second reads.second shape.second
    rw [Stamp.printed, ← year, ← month, ← day, ← hour, ← minute, ← second]
  apply asBytes_injective
  rw [← Stamp.text_ofUnix, Stamp.ofUnix_unix valid,
    valid.asBytes_text printable, ← fields, ← isJoin]

theorem printable_of_length {year : Int} (length : (asBytes (zeroPadded 4 year)).length = 4) :
    PrintableYear year := by
  have atLeast := length_le_length_asBytes (zeroPadded 4 year)
  rw [length, zeroPadded] at atLeast
  simp only [String.toList_append, length_append, String.toList_ofList, Nat.repr] at atLeast
  by_contra unprintable
  rw [PrintableYear, not_and_or, not_le, not_le] at unprintable
  rcases unprintable with low | high
  · have digits := @length_toDigits year.natAbs 3 (by omega)
    rw [if_pos (by omega)] at atLeast
    have sign : "-".toList.length = 1 := rfl
    omega
  · have digits := @length_toDigits year.natAbs 4 (by omega)
    omega

theorem stampBytes_join {fields : StampBytes} (sized : fields.Sized) :
    stampBytes fields.join = fields := by
  obtain ⟨year, month, day, hour, minute, second⟩ := sized
  cases fields
  simp only at year month day hour minute second
  simp (disch := omega) [stampBytes, StampBytes.join, drop_append,
    drop_eq_nil_of_le, year, month, day, hour, minute, second]

theorem yearBytes_shape {year : Int} (printable : PrintableYear year) :
    unsigned (yearBytes year) = true ∨ (yearBytes year).head? = some 45 ∧
      yearBytes year ≠ [45, 48, 48, 48] := by
  rw [yearBytes]
  split
  · next negative =>
    refine Or.inr ⟨rfl, ?_⟩
    intro isZero
    have digits : parseDigits 0 (paddedBytes 3 year.natAbs) = some 0 := by
      rw [cons_inj_right] at isZero
      rw [isZero]
      decide
    obtain ⟨low, -⟩ := printable
    rw [parseDigits_paddedBytes (by omega), Option.some.injEq] at digits
    omega
  · exact Or.inl (unsigned_paddedBytes 3 _)

theorem fixedShape_unixToRfc3339 {unix : Int} (printable : PrintableYear (Stamp.ofUnix unix).year) :
    FixedShape (unixToRfc3339 unix) := by
  have valid := Stamp.ofUnix_valid unix
  have fields : stampBytes (asBytes (unixToRfc3339 unix)) = (Stamp.ofUnix unix).printed := by
    rw [← Stamp.text_ofUnix, valid.asBytes_text printable, stampBytes_join (Stamp.printed_sized _)]
  refine ⟨?_, ?_, ?_, ?_, ?_, ?_⟩ <;> rw [fields]
  · exact yearBytes_shape printable
  all_goals exact unsigned_paddedBytes 1 _

theorem printable_of_unixToRfc3339 {unix : Int}
    (length : (asBytes (unixToRfc3339 unix)).length = 20) :
    PrintableYear (Stamp.ofUnix unix).year := by
  have valid := Stamp.ofUnix_valid unix
  obtain ⟨month, day, hour, minute, second⟩ := valid.small
  have two {value : Nat} (small : value < 100) : (asBytes (zeroPadded 2 value)).length = 2 := by
    rw [asBytes_zeroPadded (by omega), length_paddedBytes]
  have dash : (asBytes "-").length = 1 := by decide
  have time : (asBytes "T").length = 1 := by decide
  have colon : (asBytes ":").length = 1 := by decide
  have zone : (asBytes "Z").length = 1 := by decide
  rw [← Stamp.text_ofUnix] at length
  simp only [Stamp.text, asBytes_append, length_append, two month,
    two day, two hour, two minute, two second, dash, time, colon, zone] at length
  apply printable_of_length
  omega

theorem rfc3339ToUnix_unixToRfc3339_eq (unix : Int) :
    rfc3339ToUnix (unixToRfc3339 unix) =
      if PrintableYear (Stamp.ofUnix unix).year then some unix else none := by
  split
  · next printable => exact rfc3339ToUnix_unixToRfc3339 printable
  · next unprintable =>
    cases parsed : rfc3339ToUnix (unixToRfc3339 unix) with
    | none => rfl
    | some other =>
      obtain ⟨stamp, length, -⟩ := reads_of_rfc3339ToUnix parsed
      exact absurd (printable_of_unixToRfc3339 length) unprintable

def civilYear (unix : Int) : Int := (civilFromDays (unix / 86400)).1

/-- Printed timestamps are read back and ordered like their seconds.  A text
that is read is the one that its second prints exactly when no field of it
has a sign; only a year may be negative. -/
theorem timestamp_codec_exact_iff_unsigned
    (unix other : Int)
    (timestamp : String) :
    (0 ≤ civilYear unix →
      civilYear unix ≤ 9999 →
      rfc3339ToUnix (unixToRfc3339 unix) = some unix) ∧
    (0 ≤ civilYear unix →
      civilYear unix ≤ 9999 →
      0 ≤ civilYear other →
      civilYear other ≤ 9999 →
      (unixToRfc3339 unix < unixToRfc3339 other ↔ unix < other)) ∧
    (rfc3339ToUnix timestamp = some unix →
      (unixToRfc3339 unix = timestamp ↔ FixedShape timestamp)) := by
  refine ⟨?_, ?_, ?_⟩
  · intro low high
    have atLeast : -999 ≤ civilYear unix := by omega
    exact rfc3339ToUnix_unixToRfc3339 ⟨atLeast, high⟩
  · intro low high otherLow otherHigh
    constructor
    · intro before
      by_contra notBefore
      rcases eq_or_lt_of_le (not_lt.mp notBefore) with same | after
      · rw [same] at before
        exact lt_irrefl _ before
      · exact lt_asymm before (unixToRfc3339_lt otherLow otherHigh low high after)
    · exact unixToRfc3339_lt low high otherLow otherHigh
  · intro parsed
    constructor
    · intro printed
      obtain ⟨stamp, length, -⟩ := reads_of_rfc3339ToUnix parsed
      rw [← printed] at length ⊢
      exact fixedShape_unixToRfc3339 (printable_of_unixToRfc3339 length)
    · exact unixToRfc3339_of_fixedShape parsed

/-- A plus sign in the month is read, but it is not printed. -/
theorem timestamp_codec_takes_sign :
    ¬∀ (timestamp : String) (unix : Int), rfc3339ToUnix timestamp = some unix →
      unixToRfc3339 unix = timestamp := by
  intro exact
  have parsed : rfc3339ToUnix "2026-+1-01T00:00:00Z" = some 1767225600 := by
    decide +kernel
  have printed := exact _ _ parsed
  have different : unixToRfc3339 1767225600 ≠ "2026-+1-01T00:00:00Z" := by
    decide +kernel
  exact different printed

/-- The first second of 2026. -/
theorem timestamp_codec_exact_iff_unsigned_2026 :
    rfc3339ToUnix (unixToRfc3339 1767225600) = some 1767225600 ∧
      unixToRfc3339 1767225600 < unixToRfc3339 1767225601 ∧ FixedShape "2026-01-01T00:00:00Z" := by
  obtain ⟨reads, orders, shape⟩ := timestamp_codec_exact_iff_unsigned 1767225600 1767225601
      "2026-01-01T00:00:00Z"
  have parsed : rfc3339ToUnix "2026-01-01T00:00:00Z" = some 1767225600 := by
    decide +kernel
  refine ⟨reads (by decide) (by decide), ?_, ?_⟩
  · exact (orders (by decide) (by decide) (by decide) (by decide)).mpr (by decide)
  · exact (shape parsed).mp (by decide +kernel)

end ForgeCore.Claims
