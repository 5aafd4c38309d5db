import Mathlib

/-!
# Strings as the source's language sees them

Byte views, slices at character boundaries, separators, white space and the
decimal parser and printer of the standard library.  A string is a Lean
`String`; its bytes are the UTF-8 encoding of its characters.
-/

namespace ForgeCore.Text

open List

def asBytes (text : String) : List UInt8 :=
  text.toList.flatMap String.utf8EncodeChar

theorem asBytes_append (first second : String) :
    asBytes (first ++ second) = asBytes first ++ asBytes second := by
  simp [asBytes, String.toList_append]

theorem length_asBytes (text : String) : (asBytes text).length = text.utf8ByteSize := by
  have bytes : text.toByteArray = (asBytes text).toByteArray := by
    conv_lhs => rw [← String.ofList_toList (s := text)]
    rw [String.toByteArray_ofList, List.utf8Encode, asBytes]
  rw [← String.size_toByteArray, bytes, size_toByteArray]

theorem length_le_length_asBytes (text : String) : text.toList.length ≤ (asBytes text).length := by
  rw [asBytes]
  induction text.toList with
  | nil => exact le_refl _
  | cons first rest ih =>
    have positive := first.utf8Size_pos
    rw [flatMap_cons, length_append, length_cons, String.length_utf8EncodeChar]
    omega

/-- Neither inside the encoding of a character nor past the end. -/
def isCharBoundary (bytes : List UInt8) (index : Nat) : Bool :=
  if index = bytes.length then
    true
  else
    match bytes[index]? with
    | some byte => byte < 128 || 192 ≤ byte
    | none => false

/-- `str::get(start..stop)`, on the bytes of the string. -/
def getRange (bytes : List UInt8) (start stop : Nat) : Option (List UInt8) :=
  if start ≤ stop && isCharBoundary bytes start &&
      isCharBoundary bytes stop then
    some ((bytes.drop start).take (stop - start))
  else
    none

/-- Split at every character that `separator` accepts.  The result is never
empty, and adjacent separators leave empty parts between them. -/
def splitChars (separator : Char → Bool) : List Char → List (List Char)
  | [] => [[]]
  | head :: tail =>
    if separator head then
      [] :: splitChars separator tail
    else
      match splitChars separator tail with
      | [] => [[head]]
      | part :: rest => (head :: part) :: rest

/-- `str::split` with a set of separator characters. -/
def split (separator : Char → Bool) (text : String) : List String :=
  (splitChars separator text.toList).map String.ofList

/-- `String::from_utf8`. -/
def fromUtf8 (bytes : List UInt8) : Option String :=
  bytes.toByteArray.utf8Decode?.map fun chars => String.ofList chars.toList

theorem fromUtf8_asBytes (text : String) : fromUtf8 (asBytes text) = some text := by
  have decoded : (asBytes text).toByteArray.utf8Decode? = some text.toList.toArray :=
    utf8Decode?_utf8Encode
  rw [fromUtf8, decoded]
  simp

variable {text : String} {separator : Char → Bool}

theorem fromUtf8_eq_some : fromUtf8 bytes = some text ↔ bytes = asBytes text := by
  constructor
  · intro decoded
    obtain ⟨chars, found, rfl⟩ := Option.map_eq_some_iff.mp decoded
    have present : bytes.toByteArray.utf8Decode?.isSome = true := by
      simp [found]
    have encoded := ByteArray.utf8Encode_get_utf8Decode? (b := bytes.toByteArray) (h := present)
    have chosen : bytes.toByteArray.utf8Decode?.get present = chars := by
      simp [found]
    rw [chosen] at encoded
    have same := congrArg (fun array => array.data.toList) encoded
    simpa [asBytes, List.utf8Encode, data_toByteArray] using same.symm
  · rintro rfl
    exact fromUtf8_asBytes text

theorem splitChars_ne_nil (separator : Char → Bool) (chars : List Char) :
    splitChars separator chars ≠ [] := by
  cases chars with
  | nil => simp [splitChars]
  | cons head tail =>
    rw [splitChars]
    split
    · simp
    · split <;> simp

theorem splitChars_append (marked : separator mark = true) (before after : List Char) :
    splitChars separator (before ++ mark :: after) =
      splitChars separator before ++ splitChars separator after := by
  induction before with
  | nil => simp [splitChars, marked]
  | cons head tail ih =>
    rw [cons_append, splitChars, splitChars, ih]
    split
    · rfl
    · cases parts : splitChars separator tail with
      | nil => exact absurd parts (splitChars_ne_nil separator tail)
      | cons part rest => rfl

theorem splitChars_clean (clean : ∀ char ∈ part, separator char = false) :
    splitChars separator part = [part] := by
  induction part with
  | nil => rfl
  | cons head tail ih =>
    have headClean := clean head mem_cons_self
    rw [splitChars, if_neg (by simp [headClean]), ih
        (fun char member => clean char (mem_cons_of_mem _ member))]

def stripCarriageReturn (line : List Char) : List Char :=
  if line.getLast? = some '\r' then line.dropLast else line

/-- The lines of a text, from its parts between line feeds.  The last part
is a line only when it is not empty, and it keeps a carriage return. -/
def linesOfParts : List (List Char) → List (List Char)
  | [] => []
  | [last] => if last.isEmpty then [] else [last]
  | part :: next :: rest => stripCarriageReturn part :: linesOfParts (next :: rest)

/-- `str::lines`. -/
def lines (text : String) : List String :=
  (linesOfParts (splitChars (· = '\n') text.toList)).map String.ofList

/-- Empty, or ended by a line feed. -/
def wholeLines (text : String) : Bool :=
  text.toList.getLast?.all (· = '\n')

theorem linesOfParts_append (first : List (List Char)) (present : second ≠ []) :
    linesOfParts (first ++ second) = first.map stripCarriageReturn ++ linesOfParts second := by
  induction first with
  | nil => rfl
  | cons part rest ih =>
    cases known : rest ++ second with
    | nil => exact absurd (List.append_eq_nil_iff.mp known).2 present
    | cons next others =>
      rw [known] at ih
      rw [cons_append, known, linesOfParts, ih]
      rfl

theorem lines_append (whole : wholeLines text = true) (rest : String) :
    lines (text ++ rest) = lines text ++ lines rest := by
  have parts := splitChars_ne_nil (· = '\n') rest.toList
  have chars : (text ++ rest).toList = text.toList ++ rest.toList := String.toList_append
  unfold lines
  rw [chars, ← map_append]
  congr 1
  rcases eq_nil_or_concat text.toList with empty | ⟨front, last, split⟩
  · simp [empty, splitChars, linesOfParts]
  · have ended : last = '\n' := by
      simpa [wholeLines, split] using whole
    subst ended
    rw [split, concat_eq_append, append_assoc, singleton_append,
      splitChars_append (by simp), splitChars_append (by simp),
      linesOfParts_append _ parts, linesOfParts_append _ (by simp [splitChars])]
    simp [splitChars, linesOfParts]

theorem lines_singleton
    (oneLine : '\n' ∉ line.toList) (noReturn : line.toList.getLast? ≠ some '\r') :
    lines (line ++ "\n") = [line] := by
  have chars : (line ++ "\n").toList = line.toList ++ ['\n'] := by
    simp [String.toList_append]
  have clean : ∀ char ∈ line.toList, decide (char = '\n') = false := by
    intro char member
    simp only [decide_eq_false_iff_not]
    rintro rfl
    exact oneLine member
  rw [lines, chars, splitChars_append (by simp), splitChars_clean clean]
  simp [splitChars, linesOfParts, stripCarriageReturn, noReturn]

theorem wholeLines_append_lineFeed (text : String) : wholeLines (text ++ "\n") = true := by
  simp [wholeLines, String.toList_append]

/-- The Unicode `White_Space` property. -/
def isWhitespace (char : Char) : Bool :=
  let code := char.toNat
  (9 ≤ code && code ≤ 13) || code = 0x20 || code = 0x85 || code = 0xA0 || code = 0x1680 ||
    (0x2000 ≤ code && code ≤ 0x200A) || code = 0x2028 ||
    code = 0x2029 || code = 0x202F || code = 0x205F || code = 0x3000

/-- `char::is_control`: the Unicode category `Cc`. -/
def isControl (char : Char) : Bool :=
  char.toNat < 0x20 || (0x7F ≤ char.toNat && char.toNat < 0xA0)

/-- `str::trim`. -/
def trim (text : String) : String :=
  String.ofList (((text.toList.dropWhile isWhitespace).reverse.dropWhile isWhitespace).reverse)

/-- Nothing but white space. -/
def isBlank (text : String) : Bool :=
  (trim text).isEmpty

/-- `to_ascii_lowercase`: characters outside ASCII are left alone. -/
def toAsciiLowercase (text : String) : String :=
  String.ofList (text.toList.map Char.toLower)

def i64Min : Int := -9223372036854775808

def i64Max : Int := 9223372036854775807

def inI64 (value : Int) : Bool :=
  i64Min ≤ value && value ≤ i64Max

/-- `i64::checked_add`. -/
def checkedAdd (left right : Int) : Option Int :=
  if inI64 (left + right) then some (left + right) else none

/-- `i64::try_from` on an unsigned value. -/
def i64TryFrom (value : Nat) : Option Int :=
  if (value : Int) ≤ i64Max then some value else none

def digitValue (byte : UInt8) : Option Nat :=
  if 48 ≤ byte && byte ≤ 57 then some (byte.toNat - 48) else none

/-- The value of a run of ASCII digits, most significant first. -/
def parseDigits : Nat → List UInt8 → Option Nat
  | value, [] => some value
  | value, byte :: rest =>
    match digitValue byte with
    | some digit => parseDigits (10 * value + digit) rest
    | none => none

/-- `str::parse::<i64>`: an optional sign and at least one digit. -/
def parseI64 (bytes : List UInt8) : Option Int :=
  let magnitude (digits : List UInt8) : Option Nat :=
    if digits = [] then none else parseDigits 0 digits
  let signed : Option Int :=
    match bytes with
    | 43 :: digits => (magnitude digits).map Int.ofNat
    | 45 :: digits => (magnitude digits).map fun value => -(value : Int)
    | digits => (magnitude digits).map Int.ofNat
  match signed with
  | some value => if inI64 value then some value else none
  | none => none

/-- `format!("{value:0width}")`: zeros go between the sign and the digits. -/
def zeroPadded (width : Nat) (value : Int) : String :=
  let digits := Nat.repr value.natAbs
  let sign := if value < 0 then "-" else ""
  let missing := width - (sign.length + digits.length)
  sign ++ String.ofList (List.replicate missing '0') ++ digits

end ForgeCore.Text
