import ForgeCore.Library.Machine
import ForgeCore.Rekor.Inclusion

/-!
# Signed checkpoints

`parse_signed_checkpoint`: the tree head of a log, and the text that its
signatures cover.  Base64 decoding is a parameter.
-/

namespace ForgeCore.Rekor

open List Text Digest Machine

inductive RekorParseError where
  | checkpointFormatInvalid
  | checkpointNoteInvalid
  | checkpointOriginMissing
  | checkpointTreeSizeInvalid (source : String)
  | checkpointRootHashBase64Invalid (source : String)
deriving DecidableEq, Repr

/-- What is read from a signed checkpoint. -/
structure ParsedCheckpoint where
  signedBody : String
  treeSize : Nat
  rootHash : String
  signatures : List (List UInt8)
deriving DecidableEq, Repr

def parseU64Digits : Nat → List UInt8 → Except String Nat
  | value, [] => .ok value
  | value, byte :: rest =>
    match digitValue byte with
    | none => .error "invalid digit found in string"
    | some digit =>
      if u64Max < 10 * value + digit then
        .error "number too large to fit in target type"
      else
        parseU64Digits (10 * value + digit) rest

/-- `str::parse::<u64>`: a plus sign may stand before the digits. -/
def parseU64 : List UInt8 → Except String Nat
  | [] => .error "cannot parse integer from empty string"
  | [43] => .error "invalid digit found in string"
  | 43 :: digits => parseU64Digits 0 digits
  | digits => parseU64Digits 0 digits

/-- `trim_matches` of a quotation mark. -/
def trimQuotes (chars : List Char) : List Char :=
  ((chars.dropWhile (· = '\x22')).reverse.dropWhile (· = '\x22')).reverse

/-- `split_once` at an empty line. -/
def splitAtEmptyLine : List Char → Option (List Char × List Char)
  | [] => none
  | '\n' :: '\n' :: rest => some ([], rest)
  | first :: rest => (splitAtEmptyLine rest).map fun (note, after) => (first :: note, after)

/-- `split_whitespace`. -/
def words (text : String) : List String :=
  (split isWhitespace text).filter (· ≠ "")

section Parser

variable (base64 : List UInt8 → Except String (List UInt8))

def decodeCheckpointSignature (line : String) : Option (List UInt8) := do
  let signed ←
    (stripPrefix? "—" (trim line)).or (stripPrefix? "--" (trim line))
  let signature ← (words (trim signed))[1]?
  let decoded ← (base64 (asBytes signature)).toOption
  if 4 < decoded.length then some (decoded.drop 4) else none

def signedBodyOf (origin : String) (treeSize : Nat) (rootHash : String)
    (other : List String) : String :=
  other.foldl (fun body item => if item = "" then body else body ++ item ++ "\n")
    (origin ++ "\n" ++ Nat.repr treeSize ++ "\n" ++ rootHash ++ "\n")

def parseSignedCheckpoint (checkpoint : String) : Except RekorParseError ParsedCheckpoint :=
  match splitAtEmptyLine (trimQuotes checkpoint.toList) with
  | none => .error .checkpointFormatInvalid
  | some (note, signatures) =>
    match split (· = '\n') (String.ofList note) with
    | origin :: size :: rootHash :: other =>
      if trim origin = "" then
        .error .checkpointOriginMissing
      else
        match parseU64 (asBytes size), base64 (asBytes rootHash) with
        | .error source, _ => .error (.checkpointTreeSizeInvalid source)
        | .ok _, .error source => .error (.checkpointRootHashBase64Invalid source)
        | .ok treeSize, .ok bytes =>
          .ok
            { signedBody := signedBodyOf origin treeSize rootHash other
              treeSize := treeSize
              rootHash := hexBytes bytes
              signatures := ((lines (String.ofList signatures)).filter (trim · ≠ "")).filterMap
                    (decodeCheckpointSignature base64) }
    | _ => .error .checkpointNoteInvalid

end Parser

theorem splitChars_parts {separator : Char → Bool} :
    ∀ part ∈ splitChars separator chars, ∀ char ∈ part, separator char = false := by
  induction chars with
  | nil => simp [splitChars]
  | cons head tail ih =>
    intro part member char inside
    rw [splitChars] at member
    split at member
    · rcases List.mem_cons.mp member with rfl | later
      · cases inside
      · exact ih part later char inside
    · next plain =>
      cases parts : splitChars separator tail with
      | nil => exact absurd parts (splitChars_ne_nil separator tail)
      | cons first rest =>
        rw [parts] at member ih
        rcases List.mem_cons.mp member with rfl | later
        · rcases List.mem_cons.mp inside with rfl | inFirst
          · simpa using plain
          · exact ih first mem_cons_self char inFirst
        · exact ih part (mem_cons_of_mem _ later) char inside

theorem signedBodyOf_starts (origin : String) (treeSize : Nat)
    (rootHash : String) (other : List String) :
    ∃ rest, (signedBodyOf origin treeSize rootHash other).toList =
      origin.toList ++ '\n' :: ((Nat.repr treeSize).toList ++
      '\n' :: (rootHash.toList ++ '\n' :: rest)) := by
  have grows (items : List String) (body : String) : ∃ rest, (items.foldl (fun body item =>
        if item = "" then body else body ++ item ++ "\n") body).toList = body.toList ++ rest := by
    induction items generalizing body with
    | nil => exact ⟨[], by simp⟩
    | cons item items ih =>
      rw [foldl_cons]
      split
      · exact ih body
      · obtain ⟨rest, grown⟩ := ih (body ++ item ++ "\n")
        exact ⟨_, by rw [grown]; simp [String.toList_append]; rfl⟩
  obtain ⟨rest, grown⟩ := grows other
    (origin ++ "\n" ++ Nat.repr treeSize ++ "\n" ++ rootHash ++ "\n")
  refine ⟨rest, ?_⟩
  rw [signedBodyOf, grown]
  simp [String.toList_append]

theorem lineFeed_not_mem_repr (value : Nat) :
    ∀ char ∈ (Nat.repr value).toList, decide (char = '\n') = false := by
  intro char member
  rw [Nat.repr, String.toList_ofList] at member
  have digit := Nat.isDigit_of_mem_toDigits (by decide) (by decide) member
  rw [decide_eq_false_iff_not]
  rintro rfl
  cases digit

/-- The first lines of the signed text are the origin, the size and the root
hash. -/
theorem parsed_lines {base64 : List UInt8 → Except String (List UInt8)}
    (accepted : parseSignedCheckpoint base64 checkpoint = .ok parsed) :
    ∃ origin rootHash rest bytes, splitChars (· = '\n') parsed.signedBody.toList =
      origin :: (Nat.repr parsed.treeSize).toList :: rootHash :: rest ∧
      base64 (asBytes (String.ofList rootHash)) = .ok bytes ∧ parsed.rootHash = hexBytes bytes := by
  unfold parseSignedCheckpoint at accepted
  split at accepted
  · cases accepted
  · next note signatures _ =>
    split at accepted
    · next origin size rootHash other noteLines =>
      split at accepted
      · cases accepted
      · split at accepted
        · cases accepted
        · cases accepted
        · next treeSize bytes _ decoded =>
          cases accepted
          have clean : ∀ line ∈ [origin, rootHash], ∀ char ∈ line.toList,
              decide (char = '\n') = false := by
            intro line member
            have inNote : line ∈ split (· = '\n') (String.ofList note) := by
              rw [noteLines]
              simp only [mem_cons, not_mem_nil, or_false] at member
              rcases member with rfl | rfl <;> simp
            obtain ⟨part, inParts, rfl⟩ := List.mem_map.mp inNote
            rw [String.toList_ofList]
            exact splitChars_parts part inParts
          obtain ⟨rest, starts⟩ := signedBodyOf_starts origin treeSize rootHash other
          refine ⟨origin.toList, rootHash.toList, splitChars (· = '\n') rest, bytes, ?_, ?_, rfl⟩
          · dsimp only
            rw [starts, splitChars_append (by simp), splitChars_clean (clean origin (by simp)),
              splitChars_append (by simp), splitChars_clean (lineFeed_not_mem_repr treeSize),
              splitChars_append (by simp), splitChars_clean (clean rootHash (by simp))]
            rfl
          · rw [String.ofList_toList]
            exact decoded
    · cases accepted

/-- Two checkpoints with one signed text have one tree head. -/
theorem signed_body_determines_head (base64 : List UInt8 → Except String (List UInt8))
    (first second : String) (parsed other : ParsedCheckpoint)
    (firstAccepted : parseSignedCheckpoint base64 first = .ok parsed)
    (secondAccepted : parseSignedCheckpoint base64 second = .ok other)
    (sameBody : parsed.signedBody = other.signedBody) :
    parsed.treeSize = other.treeSize ∧ parsed.rootHash = other.rootHash := by
  obtain ⟨_, rootText, _, bytes, lines, decoded, printed⟩ := parsed_lines firstAccepted
  obtain ⟨_, otherText, _, otherBytes, otherLines, otherDecoded,
    otherPrinted⟩ := parsed_lines secondAccepted
  rw [sameBody, otherLines] at lines
  injection lines with _ tail
  injection tail with sizes tail
  injection tail with rootTexts _
  rw [rootTexts, decoded] at otherDecoded
  cases otherDecoded
  exact ⟨(Nat.repr_injective (String.toList_inj.mp sizes)).symm, printed.trans otherPrinted.symm⟩

def sampleBase64 (text : List UInt8) : Except String (List UInt8) :=
  if text = asBytes "AA==" then .ok [0]
  else if text = asBytes "AQIDBAU=" then .ok [1, 2, 3, 4, 5]
  else .error "Invalid padding"

def unsignedCheckpoint : ParsedCheckpoint :=
  ⟨"log\n7\nAA==\n", 7, "00", []⟩

def signedCheckpoint : ParsedCheckpoint :=
  ⟨"log\n7\nAA==\n", 7, "00", [[5]]⟩

/-- A plus sign and a signature stand outside the signed text. -/
theorem signed_body_determines_head_signature :
    parseSignedCheckpoint sampleBase64 "log\n7\nAA==\n\n" = .ok unsignedCheckpoint ∧
      parseSignedCheckpoint sampleBase64 "log\n+7\nAA==\n\n-- log AQIDBAU=" =
        .ok signedCheckpoint ∧
      unsignedCheckpoint ≠ signedCheckpoint ∧
      unsignedCheckpoint.treeSize = signedCheckpoint.treeSize ∧
      unsignedCheckpoint.rootHash = signedCheckpoint.rootHash := by
  have plain : parseSignedCheckpoint sampleBase64 "log\n7\nAA==\n\n" =
      .ok unsignedCheckpoint := by decide +kernel
  have signed : parseSignedCheckpoint sampleBase64 "log\n+7\nAA==\n\n-- log AQIDBAU=" =
      .ok signedCheckpoint := by decide +kernel
  exact ⟨plain, signed, by decide, signed_body_determines_head _ _ _ _ _ plain signed rfl⟩

end ForgeCore.Rekor
