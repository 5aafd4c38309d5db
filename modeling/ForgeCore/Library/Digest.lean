import ForgeCore.Library.Text

/-!
# Digests as text

Lower-case hexadecimal text of a digest, the `sha256:` form of it, and their
decoders.
-/

namespace ForgeCore.Digest

open Text

/-- A 32-byte digest function.  Nothing is assumed about its values. -/
abbrev Sha256 := List UInt8 → Vector UInt8 32

def hexDigit (value : Nat) : Char :=
  "0123456789abcdef".toList.getD value '0'

/-- `format!("{byte:02x}")`. -/
def hexByte (byte : UInt8) : List Char :=
  [hexDigit (byte.toNat / 16), hexDigit (byte.toNat % 16)]

def hexText (bytes : List UInt8) : List Char :=
  bytes.flatMap hexByte

def formatSha256 (bytes : List UInt8) : String :=
  "sha256:" ++ String.ofList (hexText bytes)

/-- An ASCII hexadecimal digit that is not upper case. -/
def isLowerHexByte (byte : UInt8) : Bool :=
  (48 ≤ byte && byte ≤ 57) || (97 ≤ byte && byte ≤ 102)

/-- `str::strip_prefix`. -/
def stripPrefix? (start text : String) : Option String :=
  if start.toList.isPrefixOf text.toList then
    some (String.ofList (text.toList.drop start.toList.length))
  else
    none

def isSha256Token (value : String) : Bool :=
  match stripPrefix? "sha256:" value with
  | some hex => (asBytes hex).length = 64 && (asBytes hex).all isLowerHexByte
  | none => false

theorem stripPrefix?_append (start rest : String) :
    stripPrefix? start (start ++ rest) = some rest := by
  simp [stripPrefix?, String.toList_append]

private theorem hexDigit_encoded :
    ∀ value < 16, ∃ byte, String.utf8EncodeChar (hexDigit value) = [byte] ∧
      isLowerHexByte byte = true := by
  intro value small
  interval_cases value <;> exact ⟨_, rfl, by decide⟩

theorem asBytes_hexText (bytes : List UInt8) :
    (asBytes (String.ofList (hexText bytes))).length = 2 * bytes.length ∧
      (asBytes (String.ofList (hexText bytes))).all isLowerHexByte = true := by
  simp only [asBytes, String.toList_ofList]
  induction bytes with
  | nil => exact ⟨rfl, rfl⟩
  | cons byte rest ih =>
    obtain ⟨high, highEq, highHex⟩ :=
      hexDigit_encoded (byte.toNat / 16) (by have := byte.toNat_lt; omega)
    obtain ⟨low, lowEq, lowHex⟩ := hexDigit_encoded (byte.toNat % 16) (Nat.mod_lt _ (by decide))
    simp only [hexText, List.flatMap_cons, hexByte, List.cons_append,
      List.nil_append, highEq, lowEq] at ih ⊢
    constructor
    · simp only [List.length_cons, ih.1]
      omega
    · simp only [List.all_cons, highHex, lowHex, Bool.true_and, ih.2]

variable {bytes : List UInt8}

theorem exists_digit_of_mem_hexText (member : digit ∈ hexText bytes) :
    ∃ value < 16, digit = hexDigit value := by
  obtain ⟨byte, -, inside⟩ := List.mem_flatMap.mp member
  have small := byte.toNat_lt
  rcases List.mem_cons.mp inside with high | low
  · exact ⟨byte.toNat / 16, by omega, high⟩
  · exact ⟨byte.toNat % 16, by omega, List.mem_singleton.mp low⟩

theorem length_hexText (bytes : List UInt8) : (hexText bytes).length = 2 * bytes.length := by
  induction bytes with
  | nil => rfl
  | cons byte rest ih =>
    have split : hexText (byte :: rest) = hexByte byte ++ hexText rest := rfl
    rw [split, List.length_append, ih, List.length_cons]
    simp only [hexByte, List.length_cons, List.length_nil]
    omega

theorem isSha256Token_formatSha256 (length : bytes.length = 32) :
    isSha256Token (formatSha256 bytes) = true := by
  obtain ⟨hexLength, hexDigits⟩ := asBytes_hexText bytes
  simp only [isSha256Token, formatSha256, stripPrefix?_append, hexLength, hexDigits, length]
  rfl

/-! ## Reading hexadecimal text -/

def decodeNibble (value : UInt8) : Option UInt8 :=
  if 48 ≤ value ∧ value ≤ 57 then
    some (value - 48)
  else if 97 ≤ value ∧ value ≤ 102 then
    some (value - 97 + 10)
  else
    none

/-- The bytes of pairs of lower-case digits. -/
def decodePairs : List UInt8 → Option (List UInt8)
  | high :: low :: rest => do
    let highNibble ← decodeNibble high
    let lowNibble ← decodeNibble low
    let decoded ← decodePairs rest
    return (highNibble <<< 4 ||| lowNibble) :: decoded
  | _ => some []

/-- A field of exactly `size` bytes. -/
def decodeFixed (size : Nat) (value : String) : Option (List UInt8) :=
  if (asBytes value).length ≠ size * 2 then
    none
  else
    decodePairs (asBytes value)

theorem decodeNibble_hexDigit :
    ∀ value < 16, ∃ byte, String.utf8EncodeChar (hexDigit value) = [byte] ∧
      decodeNibble byte = some (UInt8.ofNat value) := by
  intro value small
  interval_cases value <;> exact ⟨_, rfl, by decide⟩

theorem joined_nibbles (byte : UInt8) :
    UInt8.ofNat (byte.toNat / 16) <<< 4 ||| UInt8.ofNat (byte.toNat % 16) = byte := by
  revert byte
  decide +kernel

theorem decodePairs_hexText (bytes : List UInt8) :
    decodePairs ((hexText bytes).flatMap String.utf8EncodeChar) = some bytes := by
  induction bytes with
  | nil => rfl
  | cons byte rest ih =>
    have small : byte.toNat < 256 := byte.toNat_lt
    obtain ⟨high, highEncoded, highDecoded⟩ := decodeNibble_hexDigit (byte.toNat / 16) (by omega)
    obtain ⟨low, lowEncoded, lowDecoded⟩ := decodeNibble_hexDigit (byte.toNat % 16) (by omega)
    have split : (hexText (byte :: rest)).flatMap String.utf8EncodeChar =
          high :: low :: (hexText rest).flatMap String.utf8EncodeChar := by
      simp [hexText, hexByte, highEncoded, lowEncoded]
    rw [split, decodePairs, highDecoded, lowDecoded, ih]
    exact congrArg (fun first => some (first :: rest)) (joined_nibbles byte)

theorem decodeFixed_hexText (length : bytes.length = size) :
    decodeFixed size (String.ofList (hexText bytes)) = some bytes := by
  have sized := (asBytes_hexText bytes).1
  rw [decodeFixed, if_neg (by rw [sized, length]; omega), asBytes, String.toList_ofList]
  exact decodePairs_hexText bytes

theorem hexText_inj
    {first second : List UInt8} (same : hexText first = hexText second) :
    first = second := by
  have decoded := decodePairs_hexText first
  rw [same, decodePairs_hexText] at decoded
  exact (Option.some.inj decoded).symm

theorem formatSha256_inj {first second : List UInt8}
    (same : formatSha256 first = formatSha256 second) : first = second := by
  have chars := congrArg String.toList same
  simp only [formatSha256, String.toList_append, String.toList_ofList] at chars
  exact hexText_inj (List.append_cancel_left chars)

/-- `char::to_digit(16)`, on a byte. -/
def toDigit16 (byte : UInt8) : Option Nat :=
  if 48 ≤ byte ∧ byte ≤ 57 then some (byte.toNat - 48)
  else if 97 ≤ byte ∧ byte ≤ 102 then some (byte.toNat - 87)
  else if 65 ≤ byte ∧ byte ≤ 70 then some (byte.toNat - 55)
  else none

/-- `u8::from_str_radix` of two bytes: a leading plus sign is a sign. -/
def fromStrRadix16 (high low : UInt8) : Option Nat :=
  if high = 43 then toDigit16 low
  else do return 16 * (← toDigit16 high) + (← toDigit16 low)

end ForgeCore.Digest
