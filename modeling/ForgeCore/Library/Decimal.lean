import ForgeCore.Library.Text

/-!
# Decimal numerals

Padded numerals as bytes, and their parsing.
-/

namespace ForgeCore.Text

open List

/-- The last `width` decimal digits of a number. -/
def lastDigits : Nat → Nat → List Nat
  | 0, _ => []
  | width + 1, value => lastDigits width (value / 10) ++ [value % 10]

def digitByte (digit : Nat) : UInt8 := UInt8.ofNat (48 + digit)

def paddedBytes (width value : Nat) : List UInt8 :=
  (lastDigits width value).map digitByte

@[simp] theorem length_lastDigits (width value : Nat) :
    (lastDigits width value).length = width := by
  induction width generalizing value with
  | zero => rfl
  | succ width ih =>
    simp [lastDigits, ih]

@[simp] theorem length_paddedBytes (width value : Nat) :
    (paddedBytes width value).length = width := by
  simp [paddedBytes]

variable {width value digit : Nat} {bytes : List UInt8}

theorem lastDigits_lt (member : digit ∈ lastDigits width value) : digit < 10 := by
  induction width generalizing value with
  | zero => cases member
  | succ width ih =>
    rw [lastDigits, mem_append, mem_singleton] at member
    rcases member with front | rfl
    · exact ih front
    · omega

theorem paddedBytes_succ (width value : Nat) :
    paddedBytes (width + 1) value = paddedBytes width (value / 10) ++ [digitByte (value % 10)] := by
  simp [paddedBytes, lastDigits]

theorem lastDigits_zero (width : Nat) : lastDigits width 0 = List.replicate width 0 := by
  induction width with
  | zero => rfl
  | succ width ih =>
    rw [lastDigits, Nat.zero_div, ih, replicate_succ']

theorem toDigits_step (large : 10 ≤ value) :
    Nat.toDigits 10 value = Nat.toDigits 10 (value / 10) ++ [Nat.digitChar (value % 10)] := by
  have split := Nat.toDigits_append_toDigits (b := 10) (n := value / 10)
    (d := value % 10) (by decide) (by omega) (by omega)
  rw [Nat.toDigits_of_lt_base (by omega : value % 10 < 10)] at split
  rw [split]
  congr 1
  omega

theorem padded_toDigits (fits : value < 10 ^ (width + 1)) :
    List.replicate (width + 1 - (Nat.toDigits 10 value).length) '0' ++ Nat.toDigits 10 value =
      (lastDigits (width + 1) value).map Nat.digitChar := by
  induction width generalizing value with
  | zero =>
    have small : value < 10 := by simpa using fits
    rw [Nat.toDigits_of_lt_base small]
    simp [lastDigits, Nat.mod_eq_of_lt small]
  | succ width ih =>
    by_cases small : value < 10
    · rw [Nat.toDigits_of_lt_base small, lastDigits,
        Nat.div_eq_of_lt small, lastDigits_zero, Nat.mod_eq_of_lt small]
      simp
    · have fewer : value / 10 < 10 ^ (width + 1) := by
        rw [Nat.div_lt_iff_lt_mul (by decide), ← Nat.pow_succ]
        exact fits
      rw [toDigits_step (by omega), lastDigits, map_append, ← ih fewer, length_append]
      simp [Nat.add_sub_add_right]

theorem asBytes_digits {digits : List Nat} (small : ∀ digit ∈ digits, digit < 10) :
    asBytes (String.ofList (digits.map Nat.digitChar)) = digits.map digitByte := by
  have one : ∀ digit < 10, String.utf8EncodeChar (Nat.digitChar digit) = [digitByte digit] := by
    decide
  rw [asBytes, String.toList_ofList]
  induction digits with
  | nil => rfl
  | cons digit rest ih =>
    rw [map_cons, map_cons, flatMap_cons, one digit (small digit mem_cons_self),
      ih fun other member => small other (mem_cons_of_mem _ member)]
    rfl

theorem zeroPadded_ofNat (fits : value < 10 ^ (width + 1)) : zeroPadded (width + 1) value =
      String.ofList ((lastDigits (width + 1) value).map Nat.digitChar) := by
  rw [← padded_toDigits fits]
  have nonnegative : ¬(value : Int) < 0 := by omega
  simp [zeroPadded, nonnegative, Nat.repr, String.ofList_append]

theorem asBytes_zeroPadded (fits : value < 10 ^ (width + 1)) :
    asBytes (zeroPadded (width + 1) value) = paddedBytes (width + 1) value := by
  rw [zeroPadded_ofNat fits, asBytes_digits fun digit => lastDigits_lt, paddedBytes]

theorem asBytes_zeroPadded_neg (positive : 0 < value) (fits : value < 10 ^ (width + 1)) :
    asBytes (zeroPadded (width + 2) (-value)) = 45 :: paddedBytes (width + 1) value := by
  have negative : -(value : Int) < 0 := by omega
  have printed : zeroPadded (width + 2) (-value) = "-" ++ zeroPadded (width + 1) value := by
    have nonnegative : ¬(value : Int) < 0 := by omega
    have shorter : width + 2 - (1 + (Nat.repr value).length) =
        width + 1 - (Nat.repr value).length := by
      omega
    simp only [zeroPadded, if_pos negative, if_neg nonnegative,
      Int.natAbs_neg, Int.natAbs_natCast, String.append_assoc]
    have signWidth : "-".length = 1 := rfl
    simp [signWidth, shorter]
  rw [printed, asBytes_append, asBytes_zeroPadded fits]
  rfl

theorem digitValue_eq_some :
    digitValue byte = some digit ↔ digit < 10 ∧ byte = digitByte digit := by
  have low : (48 : UInt8) ≤ byte ↔ 48 ≤ byte.toNat := UInt8.le_iff_toNat_le
  have high : byte ≤ 57 ↔ byte.toNat ≤ 57 := UInt8.le_iff_toNat_le
  have same (small : digit < 10) : byte = digitByte digit ↔ byte.toNat = 48 + digit := by
    rw [← UInt8.toNat_inj, digitByte, UInt8.toNat_ofNat', Nat.mod_eq_of_lt (by omega)]
  simp only [digitValue, Bool.and_eq_true, decide_eq_true_eq, low, high]
  constructor
  · intro read
    split at read
    · next inRange =>
      have value := Option.some.inj read
      have small : digit < 10 := by omega
      exact ⟨small, (same small).mpr (by omega)⟩
    · cases read
  · rintro ⟨small, isDigit⟩
    have value := (same small).mp isDigit
    rw [if_pos (by omega)]
    congr 1
    omega

theorem parseDigits_append (value : Nat) (front : List UInt8) (last : UInt8) :
    parseDigits value (front ++ [last]) = (parseDigits value front).bind fun read =>
      (digitValue last).map fun digit => 10 * read + digit := by
  induction front generalizing value with
  | nil =>
    simp only [nil_append, parseDigits, Option.bind_some]
    cases digitValue last <;> rfl
  | cons first rest ih =>
    rw [cons_append, parseDigits, parseDigits]
    cases digitValue first with
    | none => rfl
    | some digit => exact ih _

/-- A run of digits is read as the number that it pads. -/
theorem parseDigits_eq_some : parseDigits 0 bytes = some value ↔
      value < 10 ^ bytes.length ∧ bytes = paddedBytes bytes.length value := by
  induction bytes using List.reverseRecOn generalizing value with
  | nil =>
    simp only [parseDigits, Option.some.injEq, length_nil, Nat.pow_zero,
      Nat.lt_one_iff, paddedBytes, lastDigits, map_nil, and_true]
    exact eq_comm
  | append_singleton front last ih =>
    rw [parseDigits_append, length_append, length_singleton, paddedBytes_succ]
    constructor
    · intro read
      obtain ⟨before, frontRead, lastRead⟩ := Option.bind_eq_some_iff.mp read
      obtain ⟨digit, digitRead, rfl⟩ := Option.map_eq_some_iff.mp lastRead
      obtain ⟨fits, isPadded⟩ := ih.mp frontRead
      obtain ⟨small, isDigit⟩ := digitValue_eq_some.mp digitRead
      have quotient : (10 * before + digit) / 10 = before := by omega
      have remainder : (10 * before + digit) % 10 = digit := by omega
      rw [quotient, remainder, ← isPadded, ← isDigit, Nat.pow_succ]
      exact ⟨by omega, rfl⟩
    · rintro ⟨fits, isPadded⟩
      obtain ⟨isFront, isLast⟩ := append_inj isPadded (by simp)
      rw [Nat.pow_succ] at fits
      have frontRead := ih.mpr ⟨(by omega : value / 10 < 10 ^ front.length), isFront⟩
      have lastRead : digitValue last = some (value % 10) := digitValue_eq_some.mpr
          ⟨by omega, List.singleton_inj.mp isLast⟩
      rw [frontRead, Option.bind_some, lastRead, Option.map_some]
      congr 1
      omega

theorem inI64_iff {value : Int} : inI64 value = true ↔ i64Min ≤ value ∧ value ≤ i64Max := by
  simp [inI64]

theorem digitByte_toNat (small : digit < 10) : (digitByte digit).toNat = 48 + digit := by
  rw [digitByte, UInt8.toNat_ofNat', Nat.mod_eq_of_lt (by omega)]

/-- The three forms of a number that parses. -/
inductive SignedDigits : List UInt8 → Int → Prop where
  | plus {digits : List UInt8} {value : Nat} (present : digits ≠ [])
      (read : parseDigits 0 digits = some value) :
      SignedDigits (43 :: digits) value
  | minus {digits : List UInt8} {value : Nat} (present : digits ≠ [])
      (read : parseDigits 0 digits = some value) :
      SignedDigits (45 :: digits) (-value)
  | plain {digits : List UInt8} {value : Nat} (present : digits ≠ [])
      (read : parseDigits 0 digits = some value) :
      SignedDigits digits value

theorem signedDigits_of_parseI64 {value : Int}
    (parsed : parseI64 bytes = some value) : SignedDigits bytes value := by
  have digits {bytes : List UInt8} {read : Nat}
      (magnitude : (if bytes = [] then none else parseDigits 0 bytes) = some read) :
      bytes ≠ [] ∧ parseDigits 0 bytes = some read := by
    split at magnitude
    · cases magnitude
    · next present => exact ⟨present, magnitude⟩
  simp only [parseI64] at parsed
  split at parsed
  · next found signed =>
    split at parsed
    · cases parsed
      split at signed <;>
        obtain ⟨read, magnitude, rfl⟩ := Option.map_eq_some_iff.mp signed
      · exact .plus (digits magnitude).1 (digits magnitude).2
      · obtain ⟨number, isRead, isNumber⟩ := Option.bind_eq_some_iff.mp magnitude
        cases isNumber
        exact .minus (digits isRead).1 (digits isRead).2
      · exact .plain (digits magnitude).1 (digits magnitude).2
    · cases parsed
  · cases parsed

theorem head_of_parseDigits (read : parseDigits 0 (first :: rest) = some value) :
    48 ≤ first.toNat ∧ first.toNat ≤ 57 := by
  rw [parseDigits] at read
  split at read
  · next digit found =>
    obtain ⟨small, rfl⟩ := digitValue_eq_some.mp found
    rw [digitByte_toNat small]
    omega
  · cases read

theorem parseI64_of_digits (present : bytes ≠ []) (read : parseDigits 0 bytes = some value)
    (fits : inI64 value = true) : parseI64 bytes = some (value : Int) := by
  cases bytes with
  | nil => exact absurd rfl present
  | cons first rest =>
    have range := head_of_parseDigits read
    have notPlus : first ≠ 43 := by
      rintro rfl
      exact absurd range.1 (by decide)
    have notMinus : first ≠ 45 := by
      rintro rfl
      exact absurd range.1 (by decide)
    simp [parseI64, notPlus, notMinus, read, fits]

theorem parseI64_of_minus (present : bytes ≠ []) (read : parseDigits 0 bytes = some value)
    (fits : inI64 (-value) = true) : parseI64 (45 :: bytes) = some (-(value : Int)) := by
  simp [parseI64, present, read, fits]

section Order

variable {α : Type} [LinearOrder α]

theorem append_lt_append {front front' back back' : List α}
    (sameLength : front.length = front'.length) (less : front < front') :
    front ++ back < front' ++ back' := by
  induction front generalizing front' with
  | nil =>
    cases front' with
    | nil => exact absurd less (lt_irrefl _)
    | cons head tail => cases sameLength
  | cons head tail ih =>
    cases front' with
    | nil => cases sameLength
    | cons head' tail' =>
      rw [cons_append, cons_append, cons_lt_cons_iff]
      rcases List.cons_lt_cons_iff.mp less with headLess | ⟨same, tailLess⟩
      · exact Or.inl headLess
      · exact Or.inr ⟨same, ih (Nat.succ.inj sameLength) tailLess⟩

theorem append_lt_append_left (front : List α)
    (less : back < back') : front ++ back < front ++ back' := by
  induction front with
  | nil => exact less
  | cons head tail ih =>
    rw [cons_append, cons_append, cons_lt_cons_iff]
    exact Or.inr ⟨rfl, ih⟩

end Order

theorem digits_lt {left right : Nat} (rightFits : right < 10 ^ width) (less : left < right) :
    (lastDigits width left).map Nat.digitChar < (lastDigits width right).map Nat.digitChar := by
  induction width generalizing left right with
  | zero =>
    rw [Nat.pow_zero] at rightFits
    omega
  | succ width ih =>
    rw [Nat.pow_succ] at rightFits
    rw [lastDigits, lastDigits, map_append, map_append]
    by_cases higher : left / 10 < right / 10
    · apply append_lt_append
      · simp
      · exact ih (by omega) higher
    · have same : left / 10 = right / 10 := by omega
      have lower : left % 10 < right % 10 := by omega
      have chars : ∀ small < 10, ∀ large < 10, small < large →
          Nat.digitChar small < Nat.digitChar large := by
        decide
      rw [same]
      apply append_lt_append_left
      rw [map_singleton, map_singleton, cons_lt_cons_iff]
      exact Or.inl (chars _ (by omega) _ (by omega) lower)

def joinDigits : List (Nat × List Char) → List Nat → List Char
  | (width, separator) :: shape, value :: values =>
    (lastDigits width value).map Nat.digitChar ++ (separator ++ joinDigits shape values)
  | _, _ => []

def FitsShape : List (Nat × List Char) → List Nat → Prop
  | (width, _) :: shape, value :: values => value < 10 ^ width ∧ FitsShape shape values
  | [], [] => True
  | _, _ => False

/-- Texts of one shape are ordered like the lists of their numbers. -/
theorem joinDigits_lt (fits : FitsShape shape values)
    (fits' : FitsShape shape values') (less : values < values') :
    joinDigits shape values < joinDigits shape values' := by
  induction shape generalizing values values' with
  | nil =>
    cases values with
    | cons value values => cases fits
    | nil =>
      cases values' with
      | nil => exact absurd less (lt_irrefl _)
      | cons value values => cases fits'
  | cons first shape ih =>
    obtain ⟨width, separator⟩ := first
    cases values with
    | nil => cases fits
    | cons value values =>
      cases values' with
      | nil => cases fits'
      | cons value' values' =>
        rw [joinDigits, joinDigits]
        rcases List.cons_lt_cons_iff.mp less with
          smaller | ⟨same, restLess⟩
        · apply append_lt_append
          · simp
          · exact digits_lt fits'.1 smaller
        · rw [same]
          apply append_lt_append_left
          apply append_lt_append_left
          exact ih fits.2 fits'.2 restLess

theorem length_toDigits {count : Nat} (large : 10 ^ count ≤ value) :
    count < (Nat.toDigits 10 value).length := by
  induction count generalizing value with
  | zero =>
    exact length_pos_of_ne_nil Nat.toDigits_ne_nil
  | succ count ih =>
    rw [Nat.pow_succ] at large
    have positive : 0 < 10 ^ count := Nat.pow_pos (by decide)
    rw [toDigits_step (by omega), length_append]
    have shorter := @ih (value / 10) (by omega)
    simp only [length_singleton]
    omega

end ForgeCore.Text
