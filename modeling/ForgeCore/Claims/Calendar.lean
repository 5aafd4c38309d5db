import ForgeCore.Claims.Timestamp

/-!
# The civil calendar

The conversions between days and dates are inverse to each other on valid
dates.
-/

namespace ForgeCore.Claims

/-! ## Floor form of the conversions -/

/-- Days before the first of March of a year, up to a constant. -/
def marchDays (year : Int) : Int :=
  365 * year + year / 4 - year / 100 + year / 400

def monthDays (month : Int) : Int := (153 * month + 2) / 5

def marchYear (year month : Int) : Int :=
  if month ≤ 2 then year - 1 else year

def marchMonth (month : Int) : Int :=
  if month > 2 then month - 3 else month + 9

theorem tdiv_era (year : Int) :
    (if year ≥ 0 then year else year - 399).tdiv 400 = year / 400 := by
  split
  · next nonnegative => exact Int.tdiv_eq_ediv_of_nonneg nonnegative
  · rw [Int.tdiv_eq_ediv]
    simp only [Int.sign]
    omega

theorem tdiv_dayEra (days : Int) :
    (if days ≥ 0 then days else days - 146096).tdiv 146097 = days / 146097 := by
  split
  · next nonnegative => exact Int.tdiv_eq_ediv_of_nonneg nonnegative
  · rw [Int.tdiv_eq_ediv]
    simp only [Int.sign]
    omega

variable {year month day dayOfEra century olympiad : Int}

theorem daysFromCivil_eq (monthLow : 1 ≤ month) : daysFromCivil year month day =
      marchDays (marchYear year month) + monthDays (marchMonth month) + day - 719469 := by
  have adjusted : 0 ≤ 153 * marchMonth month + 2 := by
    rw [marchMonth]
    split <;> omega
  simp only [daysFromCivil, tdiv_era]
  rw [← marchYear, ← marchMonth, Int.tdiv_eq_ediv_of_nonneg adjusted,
    Int.tdiv_eq_ediv_of_nonneg (by omega), Int.tdiv_eq_ediv_of_nonneg (by omega)]
  unfold marchDays monthDays
  omega

/-- A day of an era by centuries, olympiads, years and days.  A year has a
day 365 only when it ends with a leap day. -/
structure EraParts (dayOfEra century olympiad year day : Int) : Prop where
  centuryRange : 0 ≤ century ∧ century ≤ 3
  olympiadRange : 0 ≤ olympiad ∧ olympiad ≤ 24
  yearRange : 0 ≤ year ∧ year ≤ 3
  dayRange : 0 ≤ day ∧ day ≤ 365
  leapDay : day = 365 → year = 3 ∧ (olympiad = 24 → century = 3)
  total : dayOfEra = 36524 * century + 1461 * olympiad + 365 * year + day

theorem exists_eraParts (low : 0 ≤ dayOfEra) (high : dayOfEra < 146097) :
    ∃ century olympiad year day, EraParts dayOfEra century olympiad year day := by
  obtain ⟨century, centuryIs⟩ : ∃ century,
      century = if dayOfEra = 146096 then 3 else dayOfEra / 36524 := ⟨_, rfl⟩
  obtain ⟨inCentury, inCenturyIs⟩ : ∃ rest, rest = dayOfEra - 36524 * century := ⟨_, rfl⟩
  obtain ⟨inOlympiad, inOlympiadIs⟩ : ∃ rest,
      rest = inCentury - 1461 * (inCentury / 1461) := ⟨_, rfl⟩
  obtain ⟨year, yearIs⟩ : ∃ year,
      year = if inOlympiad = 1460 then 3 else inOlympiad / 365 := ⟨_, rfl⟩
  refine ⟨century, inCentury / 1461, year, inOlympiad - 365 * year, ?_⟩
  split at centuryIs <;> split at yearIs <;> refine ⟨?_, ?_, ?_, ?_, ?_, ?_⟩ <;> omega

theorem EraParts.yearOfEra (parts : EraParts dayOfEra century olympiad year day) :
    (dayOfEra - dayOfEra / 1460 + dayOfEra / 36524 - dayOfEra / 146096) / 365 =
      100 * century + 4 * olympiad + year := by
  obtain ⟨centuryRange, olympiadRange, yearRange, dayRange, leapDay, total⟩ := parts
  -- The last day of an era is counted by two of the divisions at once.
  have inCentury : dayOfEra < 36524 * (century + 1) ∨ dayOfEra = 146096 ∧ century = 3 := by
    by_cases leap : day = 365
    · have ends := leapDay leap
      omega
    · omega
  have centuries : dayOfEra / 36524 - dayOfEra / 146096 = century := by
    rcases inCentury with before | ⟨last, isLast⟩
    · have atLeast : 36524 * century ≤ dayOfEra := by omega
      have quotient : dayOfEra / 36524 = century := by omega
      have small : dayOfEra / 146096 = 0 := by omega
      omega
    · omega
  have olympiads : dayOfEra / 1460 = 25 * century + olympiad ∧
          24 * century + olympiad + 365 * year + day < 1460 ∨
        dayOfEra / 1460 = 25 * century + olympiad + 1 ∧
          1460 ≤ 24 * century + olympiad + 365 * year + day := by
    omega
  have numerator : dayOfEra - dayOfEra / 1460 + dayOfEra / 36524 - dayOfEra / 146096 =
        dayOfEra - dayOfEra / 1460 + century := by
    omega
  rw [numerator]
  rcases olympiads with ⟨quotient, short⟩ | ⟨quotient, long⟩ <;> rw [quotient] <;> omega

theorem EraParts.dayOfYear (parts : EraParts dayOfEra century olympiad year day) :
    dayOfEra - (365 * (100 * century + 4 * olympiad + year) +
      (100 * century + 4 * olympiad + year) / 4 - (100 * century + 4 * olympiad + year) / 100) =
      day := by
  obtain ⟨centuryRange, olympiadRange, yearRange, dayRange, leapDay, total⟩ := parts
  have olympiads : (100 * century + 4 * olympiad + year) / 4 = 25 * century + olympiad := by
    omega
  have centuries : (100 * century + 4 * olympiad + year) / 100 = century := by
    omega
  omega

/-- The months of a March-based year, and the day in the month. -/
structure MonthParts (dayOfYear month day : Int) : Prop where
  monthRange : 0 ≤ month ∧ month ≤ 11
  dayRange : 1 ≤ day
  inMonth : monthDays month + day ≤ monthDays (month + 1)
  total : dayOfYear = monthDays month + day - 1

theorem monthParts (low : 0 ≤ dayOfYear) (high : dayOfYear ≤ 365) :
    MonthParts dayOfYear ((5 * dayOfYear + 2) / 153)
      (dayOfYear - (153 * ((5 * dayOfYear + 2) / 153) + 2) / 5 + 1) := by
  refine ⟨?_, ?_, ?_, ?_⟩
  · omega
  · omega
  · rw [monthDays, monthDays]
    omega
  · rw [monthDays]
    omega

/-- A date of the proleptic Gregorian calendar. -/
structure ValidDate (year month day : Int) : Prop where
  monthRange : 1 ≤ month ∧ month ≤ 12
  dayRange : ∃ maxDay, daysInMonth year month = some maxDay ∧ 1 ≤ day ∧ day ≤ maxDay

theorem isLeapYear_iff (year : Int) :
    isLeapYear year = true ↔ year % 4 = 0 ∧ year % 100 ≠ 0 ∨ year % 400 = 0 := by
  simp only [isLeapYear, Bool.or_eq_true, Bool.and_eq_true,
    decide_eq_true_eq, ne_eq, decide_not, Bool.not_eq_eq_eq_not,
    Bool.not_true, decide_eq_false_iff_not, ← Int.dvd_iff_tmod_eq_zero, Int.dvd_iff_emod_eq_zero]

/-- February ends the March-based year; all other months have the lengths of
the month table. -/
theorem daysInMonth_eq (low : 1 ≤ month)
    (high : month ≤ 12) :
    daysInMonth year month = some
        (if month = 2 then marchDays year - marchDays (year - 1) - 337
        else
          monthDays (marchMonth month + 1) - monthDays (marchMonth month)) := by
  have february : (if isLeapYear year then some (29 : Int) else some 28) =
      some (marchDays year - marchDays (year - 1) - 337) := by
    unfold marchDays
    by_cases leap : isLeapYear year = true
    · rw [if_pos leap]
      rw [isLeapYear_iff] at leap
      congr 1
      omega
    · rw [if_neg leap]
      rw [isLeapYear_iff] at leap
      congr 1
      omega
  by_cases isFebruary : month = 2
  · subst isFebruary
    simpa [daysInMonth] using february
  · rw [if_neg isFebruary]
    have which : month = 1 ∨ month = 3 ∨ month = 4 ∨ month = 5 ∨ month = 6 ∨
        month = 7 ∨ month = 8 ∨ month = 9 ∨ month = 10 ∨ month = 11 ∨ month = 12 := by
      omega
    rcases which with
        rfl | rfl | rfl | rfl | rfl | rfl | rfl | rfl | rfl | rfl | rfl <;>
      rfl

theorem daysInMonth_isSome (known : daysInMonth year month = some maxDay) :
    1 ≤ month ∧ month ≤ 12 := by
  rw [daysInMonth] at known
  split at known
  · next member => simp at member; omega
  split at known
  · next member => simp at member; omega
  split at known
  · omega
  · cases known

/-- A date counted in years that begin in March. -/
structure MarchDate (year month day : Int) : Prop where
  monthRange : 0 ≤ month ∧ month ≤ 11
  first : 1 ≤ day
  inMonth : month < 11 → monthDays month + day ≤ monthDays (month + 1)
  inYear : month = 11 → 337 + day ≤ marchDays (year + 1) - marchDays year

theorem validDate_iff (low : 1 ≤ month) (high : month ≤ 12) :
    ValidDate year month day ↔ MarchDate (marchYear year month) (marchMonth month) day := by
  have lengths := @daysInMonth_eq year month low high
  by_cases isFebruary : month = 2
  · subst isFebruary
    simp only [if_true] at lengths
    have sameYear : year - 1 + 1 = year := by omega
    simp only [marchYear, marchMonth, le_refl, if_true, gt_iff_lt, lt_self_iff_false, if_false]
    constructor
    · rintro ⟨-, maxDay, known, first, last⟩
      rw [lengths, Option.some.injEq] at known
      refine ⟨by omega, first, by omega, ?_⟩
      intro _
      rw [sameYear]
      omega
    · rintro ⟨-, first, -, inYear⟩
      rw [sameYear] at inYear
      exact ⟨by omega, _, lengths, first, by omega⟩
  · rw [if_neg isFebruary] at lengths
    have notLast : marchMonth month < 11 ∧ 0 ≤ marchMonth month := by
      rw [marchMonth]
      split <;> omega
    constructor
    · rintro ⟨-, maxDay, known, first, last⟩
      rw [lengths, Option.some.injEq] at known
      exact ⟨by omega, first, by omega, by omega⟩
    · rintro ⟨-, first, inMonth, -⟩
      exact ⟨⟨low, high⟩, _, lengths, first, by omega⟩

variable {later laterYear laterMonth laterDay : Int}

theorem marchDays_mono (before : year ≤ later) : marchDays year ≤ marchDays later := by
  unfold marchDays
  omega

theorem monthDays_mono (before : month ≤ later) : monthDays month ≤ monthDays later := by
  unfold monthDays
  omega

theorem marchDays_succ (year : Int) : marchDays year + 365 ≤ marchDays (year + 1) := by
  unfold marchDays
  omega

theorem MarchDate.le_year (date : MarchDate year month day) :
    marchDays year + monthDays month + day ≤ marchDays (year + 1) := by
  obtain ⟨monthRange, -, inMonth, inYear⟩ := date
  have atLeast := marchDays_succ year
  have last : monthDays 11 = 337 := by decide
  by_cases isLast : month = 11
  · subst isLast
    have ends := inYear rfl
    omega
  · have ends := inMonth (by omega)
    have table := @monthDays_mono (month + 1) 11 (by omega)
    omega

theorem monthDays_nonneg (low : 0 ≤ month) : 0 ≤ monthDays month := by
  unfold monthDays
  omega

theorem MarchDate.lt
    (date : MarchDate year month day) (later : MarchDate laterYear laterMonth laterDay)
    (before : year < laterYear ∨ year = laterYear ∧
      (month < laterMonth ∨ month = laterMonth ∧ day < laterDay)) :
    marchDays year + monthDays month + day <
      marchDays laterYear + monthDays laterMonth + laterDay := by
  have first := later.first
  rcases before with earlierYear | ⟨rfl, earlierMonth | ⟨rfl, earlierDay⟩⟩
  · have inYear := date.le_year
    have years := @marchDays_mono (year + 1) laterYear (by omega)
    have months := monthDays_nonneg later.monthRange.1
    omega
  · have upper := later.monthRange.2
    have inMonth := date.inMonth (by omega)
    have months := @monthDays_mono (month + 1) laterMonth (by omega)
    omega
  · omega

def DateLt (year month day laterYear laterMonth laterDay : Int) : Prop :=
  year < laterYear ∨ year = laterYear ∧ (month < laterMonth ∨ month = laterMonth ∧ day < laterDay)

theorem daysFromCivil_lt
    (date : ValidDate year month day) (later : ValidDate laterYear laterMonth laterDay)
    (before : DateLt year month day laterYear laterMonth laterDay) :
    daysFromCivil year month day < daysFromCivil laterYear laterMonth laterDay := by
  obtain ⟨low, high⟩ := date.monthRange
  obtain ⟨laterLow, laterHigh⟩ := later.monthRange
  rw [daysFromCivil_eq low, daysFromCivil_eq laterLow]
  have marchBefore : marchYear year month < marchYear laterYear laterMonth ∨
      marchYear year month = marchYear laterYear laterMonth ∧
        (marchMonth month < marchMonth laterMonth ∨
          marchMonth month = marchMonth laterMonth ∧ day < laterDay) := by
    unfold DateLt at before
    simp only [marchYear, marchMonth]
    split <;> split <;> split <;> split <;> omega
  have days := ((validDate_iff low high).mp date).lt
    ((validDate_iff laterLow laterHigh).mp later) marchBefore
  omega

theorem validDate_unique (date : ValidDate year month day)
    (other : ValidDate otherYear otherMonth otherDay) (same : daysFromCivil year month day =
      daysFromCivil otherYear otherMonth otherDay) :
    year = otherYear ∧ month = otherMonth ∧ day = otherDay := by
  by_contra different
  have ordered : DateLt year month day otherYear otherMonth otherDay ∨
      DateLt otherYear otherMonth otherDay year month day := by
    unfold DateLt
    omega
  rcases ordered with before | after
  · have less := daysFromCivil_lt date other before
    omega
  · have less := daysFromCivil_lt other date after
    omega

/-- A date whose month is counted from March, as a civil one. -/
def civilOfMarch (year month day : Int) : Int × Int × Int :=
  let civilMonth := if month < 10 then month + 3 else month - 9
  (if civilMonth ≤ 2 then year + 1 else year, civilMonth, day)

theorem civilFromDays_eq (parts : EraParts (days + 719468 - (days + 719468) / 146097 * 146097)
      century olympiad year day) :
    civilFromDays days = civilOfMarch (100 * century + 4 * olympiad + year +
      (days + 719468) / 146097 * 400) ((5 * day + 2) / 153)
      (day - (153 * ((5 * day + 2) / 153) + 2) / 5 + 1) := by
  obtain ⟨low, high⟩ := parts.dayRange
  have monthLow : 0 ≤ (5 * day + 2) / 153 := by omega
  have yearLow : 0 ≤ 100 * century + 4 * olympiad + year := by
    have centuryLow := parts.centuryRange.1
    have olympiadLow := parts.olympiadRange.1
    have first := parts.yearRange.1
    omega
  have dayLow : 0 ≤ days + 719468 - (days + 719468) / 146097 * 146097 := by
    omega
  have yearOfEra := parts.yearOfEra
  have dayOfYear := parts.dayOfYear
  simp only [civilFromDays, tdiv_dayEra]
  generalize days + 719468 - (days + 719468) / 146097 * 146097 = dayOfEra at *
  have positive : 0 ≤ dayOfEra - dayOfEra / 1460 + dayOfEra / 36524 - dayOfEra / 146096 := by
    omega
  rw [Int.tdiv_eq_ediv_of_nonneg dayLow, Int.tdiv_eq_ediv_of_nonneg dayLow,
    Int.tdiv_eq_ediv_of_nonneg dayLow, Int.tdiv_eq_ediv_of_nonneg positive,
    yearOfEra, Int.tdiv_eq_ediv_of_nonneg yearLow, Int.tdiv_eq_ediv_of_nonneg yearLow, dayOfYear,
    Int.tdiv_eq_ediv_of_nonneg (by omega), Int.tdiv_eq_ediv_of_nonneg (by omega)]
  rfl

theorem marchDays_parts (parts : EraParts dayOfEra century olympiad year day) (era : Int) :
    marchDays (100 * century + 4 * olympiad + year + era * 400) + day =
      146097 * era + dayOfEra := by
  obtain ⟨centuryRange, olympiadRange, yearRange, -, -, total⟩ := parts
  have olympiads : (100 * century + 4 * olympiad + year + era * 400) / 4 =
        25 * century + olympiad + 100 * era := by
    omega
  have centuries : (100 * century + 4 * olympiad + year + era * 400) / 100 = century + 4 * era := by
    omega
  have eras : (100 * century + 4 * olympiad + year + era * 400) / 400 = era := by
    omega
  rw [marchDays, olympiads, centuries, eras]
  omega

theorem EraParts.inYear (parts : EraParts dayOfEra century olympiad year day) (era : Int) :
    marchDays (100 * century + 4 * olympiad + year + era * 400) + day <
      marchDays (100 * century + 4 * olympiad + year + era * 400 + 1) := by
  obtain ⟨centuryRange, olympiadRange, yearRange, dayRange, leapDay, -⟩ := parts
  by_cases leap : day = 365
  · obtain ⟨rfl, ends⟩ := leapDay leap
    unfold marchDays
    by_cases last : olympiad = 24
    · rw [last, ends last]
      omega
    · omega
  · have long := marchDays_succ (100 * century + 4 * olympiad + year + era * 400)
    omega

theorem civilFromDays_spec (days : Int) :
    ValidDate (civilFromDays days).1 (civilFromDays days).2.1 (civilFromDays days).2.2 ∧
      daysFromCivil (civilFromDays days).1 (civilFromDays days).2.1
      (civilFromDays days).2.2 = days := by
  obtain ⟨century, olympiad, year, day, parts⟩ :=
    @exists_eraParts (days + 719468 - (days + 719468) / 146097 * 146097) (by omega) (by omega)
  have months := monthParts parts.dayRange.1 parts.dayRange.2
  have inYear := parts.inYear ((days + 719468) / 146097)
  have counted := marchDays_parts parts ((days + 719468) / 146097)
  rw [civilFromDays_eq parts]
  generalize 100 * century + 4 * olympiad + year + (days + 719468) / 146097 * 400 = marchBased at *
  generalize (5 * day + 2) / 153 = month at *
  obtain ⟨monthRange, first, inMonth, total⟩ := months
  generalize day - (153 * month + 2) / 5 + 1 = dayOfMonth at *
  have sameYear : marchYear (civilOfMarch marchBased month dayOfMonth).1
      (civilOfMarch marchBased month dayOfMonth).2.1 = marchBased := by
    simp only [civilOfMarch, marchYear]
    split <;> split <;> omega
  have sameMonth : marchMonth (civilOfMarch marchBased month dayOfMonth).2.1 = month := by
    simp only [civilOfMarch, marchMonth]
    split <;> split <;> omega
  have range : 1 ≤ (civilOfMarch marchBased month dayOfMonth).2.1 ∧
      (civilOfMarch marchBased month dayOfMonth).2.1 ≤ 12 := by
    simp only [civilOfMarch]
    split <;> omega
  rw [validDate_iff range.1 range.2, daysFromCivil_eq range.1, sameYear, sameMonth]
  refine ⟨⟨monthRange, first, fun _ => inMonth, ?_⟩, ?_⟩
  · rintro rfl
    have last : monthDays 11 = 337 := by decide
    simp only [civilOfMarch]
    omega
  · simp only [civilOfMarch]
    omega

end ForgeCore.Claims
