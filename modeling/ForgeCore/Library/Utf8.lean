import ForgeCore.Library.Text

/-!
# Reading UTF-8 with replacement

Bytes that are no UTF-8 are read as the replacement character, one for every
longest piece that could have begun a character.  Text in front of such bytes
is read as it was written, and a line feed is only read where one stands.
-/

namespace ForgeCore.Text

open List

def decodeChar (bytes : List UInt8) : Option Char :=
  bytes.toByteArray.utf8DecodeChar? 0

theorem decodeChar_append (char : Char) (rest : List UInt8) :
    decodeChar (String.utf8EncodeChar char ++ rest) = some char := by
  rw [decodeChar, toByteArray_append]
  exact ByteArray.utf8DecodeChar?_utf8EncodeChar_append

variable {bytes : List UInt8} {char : Char}

theorem eq_of_decodeChar (decoded : decodeChar bytes = some char) :
    ∃ rest, bytes = String.utf8EncodeChar char ++ rest := by
  obtain ⟨rest, same⟩ := ByteArray.exists_of_utf8DecodeChar?_eq_some decoded
  refine ⟨rest.data.toList, ?_⟩
  have lists := congrArg (fun array => array.data.toList) same
  simpa [data_toByteArray] using lists

theorem utf8EncodeChar_ascii (ascii : byte < (128 : UInt8)) :
    String.utf8EncodeChar (Char.ofNat byte.toNat) = [byte] ∧ byte.IsUTF8FirstByte := by
  have each : ∀ number : Fin 128,
      String.utf8EncodeChar (Char.ofNat number) = [UInt8.ofNat number] ∧
        (UInt8.ofNat number).IsUTF8FirstByte := by
    decide +kernel
  simpa using each ⟨byte.toNat, ascii⟩

theorem utf8EncodeChar_lineFeed : String.utf8EncodeChar '\n' = [10] := by
  decide

/-- An ASCII byte is written for its own character only. -/
theorem eq_of_mem_utf8EncodeChar
    (ascii : byte < (128 : UInt8)) (member : byte ∈ String.utf8EncodeChar char) :
    char = Char.ofNat byte.toNat := by
  obtain ⟨encodes, begins⟩ := utf8EncodeChar_ascii ascii
  obtain ⟨index, inside, found⟩ := List.mem_iff_getElem.mp member
  rw [← found, UInt8.isUTF8FirstByte_getElem_utf8EncodeChar] at begins
  subst begins
  cases encoded : String.utf8EncodeChar char with
  | nil =>
    rw [encoded] at inside
    cases inside
  | cons first rest =>
    have isFirst : first = byte := by simpa [encoded] using found
    have decoded := decodeChar_append char []
    have same := decodeChar_append (Char.ofNat byte.toNat) rest
    rw [append_nil, encoded, isFirst] at decoded
    rw [encodes, singleton_append, decoded] at same
    exact Option.some.inj same

theorem mem_asBytes (ascii : byte < (128 : UInt8)) :
    byte ∈ asBytes text ↔ Char.ofNat byte.toNat ∈ text.toList := by
  rw [asBytes, mem_flatMap]
  constructor
  · rintro ⟨char, member, inside⟩
    rw [← eq_of_mem_utf8EncodeChar ascii inside]
    exact member
  · intro member
    exact ⟨_, member, by rw [(utf8EncodeChar_ascii ascii).1]; exact mem_singleton_self byte⟩

theorem lineFeed_mem_asBytes : (10 : UInt8) ∈ asBytes text ↔ '\n' ∈ text.toList :=
  mem_asBytes (by decide)

def isContinuation (byte : UInt8) : Bool :=
  0x80 ≤ byte && byte ≤ 0xBF

/-- The bytes that may follow the first byte of a character. -/
def secondAccepted (lead second : UInt8) : Bool :=
  if lead = 0xE0 then 0xA0 ≤ second && second ≤ 0xBF
  else if lead = 0xED then 0x80 ≤ second && second ≤ 0x9F
  else if lead = 0xF0 then 0x90 ≤ second && second ≤ 0xBF
  else if lead = 0xF4 then 0x80 ≤ second && second ≤ 0x8F
  else if 0xC2 ≤ lead && lead ≤ 0xF3 then isContinuation second
  else false

/-- The length of the piece that is replaced, where no character stands. -/
def invalidLength : List UInt8 → Nat
  | lead :: second :: rest =>
    if secondAccepted lead second then
      if 0xF0 ≤ lead && rest.head?.any isContinuation then 3 else 2
    else
      1
  | _ => 1

def lossyChars : Nat → List UInt8 → List Char
  | _, [] => []
  | 0, _ :: _ => []
  | fuel + 1, bytes@(_ :: _) =>
    match decodeChar bytes with
    | some char => char :: lossyChars fuel (bytes.drop char.utf8Size)
    | none => Char.ofNat 0xFFFD :: lossyChars fuel (bytes.drop (invalidLength bytes))

/-- `String::from_utf8_lossy`.  Every piece takes at least one byte, so a
fuel of the length never runs out. -/
def fromUtf8Lossy (bytes : List UInt8) : String :=
  String.ofList (lossyChars bytes.length bytes)

theorem lossyChars_nil (fuel : Nat) : lossyChars fuel [] = [] := by
  cases fuel <;> rfl

theorem invalidLength_pos (bytes : List UInt8) : 0 < invalidLength bytes := by
  unfold invalidLength
  split
  · split
    · split <;> decide
    · decide
  · decide

theorem lossyChars_encoded (char : Char) (rest : List UInt8) (fuel : Nat) :
    lossyChars (fuel + 1) (String.utf8EncodeChar char ++ rest) = char :: lossyChars fuel rest := by
  have decoded := decodeChar_append char rest
  have size : (String.utf8EncodeChar char).length = char.utf8Size :=
    String.length_utf8EncodeChar char
  have behind : (String.utf8EncodeChar char ++ rest).drop char.utf8Size = rest := by
    rw [← size, drop_left]
  cases bytes : String.utf8EncodeChar char ++ rest with
  | nil =>
    have empty := (List.append_eq_nil_iff.mp bytes).1
    have positive := char.utf8Size_pos
    rw [← size, empty] at positive
    cases positive
  | cons byte others =>
    rw [bytes] at decoded behind
    simp only [lossyChars, decoded, behind]

/-- Fuel beyond the length makes no difference. -/
theorem lossyChars_of_le (first : Nat) :
    ∀ (second : Nat) (bytes : List UInt8), bytes.length ≤ first → bytes.length ≤ second →
      lossyChars first bytes = lossyChars second bytes := by
  induction first with
  | zero =>
    intro second bytes firstEnough secondEnough
    have empty : bytes = [] := List.length_eq_zero_iff.mp (Nat.le_zero.mp firstEnough)
    rw [empty, lossyChars_nil, lossyChars_nil]
  | succ first ih =>
    intro second bytes firstEnough secondEnough
    cases bytes with
    | nil => rw [lossyChars_nil, lossyChars_nil]
    | cons byte rest =>
      cases second with
      | zero => simp at secondEnough
      | succ second =>
        have shorter : ∀ count, 0 < count → ((byte :: rest).drop count).length ≤ first ∧
                ((byte :: rest).drop count).length ≤ second := by
          intro count positive
          rw [length_drop]
          omega
        rw [lossyChars, lossyChars]
        cases decoded : decodeChar (byte :: rest) with
        | some char =>
          obtain ⟨left, right⟩ := shorter _ char.utf8Size_pos
          simp only [ih second _ left right]
        | none =>
          obtain ⟨left, right⟩ := shorter _ (invalidLength_pos (byte :: rest))
          simp only [ih second _ left right]

theorem lossyChars_append (chars : List Char) (rest : List UInt8) :
    ∀ fuel, (chars.flatMap String.utf8EncodeChar ++ rest).length ≤ fuel →
      lossyChars fuel (chars.flatMap String.utf8EncodeChar ++ rest) =
      chars ++ lossyChars rest.length rest := by
  induction chars with
  | nil =>
    intro fuel enough
    exact lossyChars_of_le fuel rest.length rest enough le_rfl
  | cons char chars ih =>
    intro fuel enough
    have size := String.length_utf8EncodeChar char
    have positive := char.utf8Size_pos
    rw [flatMap_cons, append_assoc, length_append, size] at enough
    obtain ⟨fuel, rfl⟩ : ∃ less, fuel = less + 1 := ⟨fuel - 1, by omega⟩
    rw [flatMap_cons, append_assoc, lossyChars_encoded, ih fuel (by omega), cons_append]

theorem fromUtf8Lossy_append (text : String) (rest : List UInt8) :
    fromUtf8Lossy (asBytes text ++ rest) = text ++ fromUtf8Lossy rest := by
  rw [fromUtf8Lossy, asBytes, lossyChars_append _ _ _ le_rfl,
    String.ofList_append, String.ofList_toList]
  rfl

theorem fromUtf8Lossy_nil : fromUtf8Lossy [] = "" :=
  rfl

theorem fromUtf8Lossy_asBytes (text : String) : fromUtf8Lossy (asBytes text) = text := by
  have read := fromUtf8Lossy_append text []
  rw [append_nil, fromUtf8Lossy_nil, String.append_empty] at read
  exact read

/-- A line feed is only read where one stands. -/
theorem lineFeed_mem_lossyChars (fuel : Nat) :
    ∀ bytes : List UInt8, '\n' ∈ lossyChars fuel bytes → (10 : UInt8) ∈ bytes := by
  induction fuel with
  | zero =>
    intro bytes member
    cases bytes <;> cases member
  | succ fuel ih =>
    intro bytes member
    cases bytes with
    | nil => cases member
    | cons byte rest =>
      rw [lossyChars] at member
      cases decoded : decodeChar (byte :: rest) with
      | some char =>
        simp only [decoded, mem_cons] at member
        rcases member with isChar | later
        · obtain ⟨others, same⟩ := eq_of_decodeChar decoded
          rw [same, ← isChar, utf8EncodeChar_lineFeed]
          simp
        · exact mem_of_mem_drop (ih _ later)
      | none =>
        simp only [decoded, mem_cons] at member
        rcases member with isChar | later
        · exact absurd isChar (by decide)
        · exact mem_of_mem_drop (ih _ later)

theorem lineFeed_mem_fromUtf8Lossy (member : '\n' ∈ (fromUtf8Lossy bytes).toList) :
    (10 : UInt8) ∈ bytes := by
  rw [fromUtf8Lossy, String.toList_ofList] at member
  exact lineFeed_mem_lossyChars _ _ member

/-- The bytes are a part of one character, but not the whole of it. -/
def PartOf (char : Char) (bytes : List UInt8) : Prop :=
  ∃ before after, String.utf8EncodeChar char = before ++ bytes ++ after ∧ (before ≠ [] ∨ after ≠ [])

theorem PartOf.drop (part : PartOf char bytes) {count : Nat} (positive : 0 < count)
    (nonempty : bytes ≠ []) : PartOf char (bytes.drop count) := by
  obtain ⟨before, after, encoded, -⟩ := part
  refine ⟨before ++ bytes.take count, after, ?_, .inl ?_⟩
  · rw [encoded, append_assoc before (bytes.take count), take_append_drop]
  · intro empty
    have taken := (List.append_eq_nil_iff.mp empty).2
    rcases List.take_eq_nil_iff.mp taken with zero | noBytes
    · exact absurd zero (by omega)
    · exact nonempty noBytes

theorem decodeChar_part (part : PartOf char bytes) : decodeChar bytes = none := by
  cases decoded : decodeChar bytes with
  | none => rfl
  | some other =>
    exfalso
    obtain ⟨before, after, encoded, proper⟩ := part
    obtain ⟨rest, isOther⟩ := eq_of_decodeChar decoded
    have size := other.utf8Size_pos
    rw [← String.length_utf8EncodeChar] at size
    cases before with
    | nil =>
      have again := decodeChar_append other (rest ++ after)
      have whole := decodeChar_append char []
      rw [append_nil, encoded, nil_append, isOther, append_assoc, again] at whole
      cases whole
      rw [isOther, nil_append, append_assoc] at encoded
      have nothing := List.self_eq_append_right.mp encoded
      rcases proper with noBefore | noAfter
      · exact noBefore rfl
      · exact noAfter (List.append_eq_nil_iff.mp nothing).2
    | cons head others =>
      -- A character does not begin inside another one.
      cases first : String.utf8EncodeChar other with
      | nil =>
        rw [first] at size
        cases size
      | cons lead tail =>
        have leads : (String.utf8EncodeChar other)[0].IsUTF8FirstByte := by
          rw [UInt8.isUTF8FirstByte_getElem_utf8EncodeChar]
        have inside : (String.utf8EncodeChar char)[(head :: others).length]? = some lead := by
          rw [encoded, isOther, first]
          simp
        obtain ⟨bound, found⟩ := List.getElem?_eq_some_iff.mp inside
        have isLead : lead.IsUTF8FirstByte := by
          simpa [first] using leads
        rw [← found, UInt8.isUTF8FirstByte_getElem_utf8EncodeChar] at isLead
        cases isLead

theorem lossyChars_part (fuel : Nat) : ∀ {bytes : List UInt8}, PartOf char bytes →
      ∀ read ∈ lossyChars fuel bytes, read = Char.ofNat 0xFFFD := by
  induction fuel with
  | zero =>
    intro bytes _ read member
    cases bytes <;> cases member
  | succ fuel ih =>
    intro bytes part read member
    cases bytes with
    | nil => cases member
    | cons byte rest =>
      rw [lossyChars] at member
      simp only [decodeChar_part part, mem_cons] at member
      rcases member with isMark | later
      · exact isMark
      · exact ih (part.drop (invalidLength_pos _) (cons_ne_nil _ _)) read later

/-- The first bytes of a text are whole characters and a part of one. -/
theorem take_encoded (chars : List Char) (count : Nat) :
    ∃ before after part, chars = before ++ after ∧
      (chars.flatMap String.utf8EncodeChar).take count =
      before.flatMap String.utf8EncodeChar ++ part ∧ (part = [] ∨ ∃ char, PartOf char part) ∧
      (count < (chars.flatMap String.utf8EncodeChar).length → after ≠ []) := by
  induction chars generalizing count with
  | nil => exact ⟨[], [], [], rfl, by simp, .inl rfl, by simp⟩
  | cons char rest ih =>
    rw [flatMap_cons]
    by_cases inside : count < (String.utf8EncodeChar char).length
    · refine ⟨[], char :: rest, (String.utf8EncodeChar char).take count, rfl, ?_,
          .inr ⟨char, [], (String.utf8EncodeChar char).drop count, ?_,
            .inr ?_⟩, fun _ => cons_ne_nil _ _⟩
      · rw [take_append_of_le_length inside.le]
        rfl
      · rw [nil_append, take_append_drop]
      · intro empty
        have dropped := List.drop_eq_nil_iff.mp empty
        omega
    · obtain ⟨before, after, part, split, taken, isPart, proper⟩ :=
        ih (count - (String.utf8EncodeChar char).length)
      refine ⟨char :: before, after, part, ?_, ?_, isPart, ?_⟩
      · rw [split, cons_append]
      · rw [take_append, take_of_length_le (Nat.not_lt.mp inside),
          taken, flatMap_cons, append_assoc]
      · intro short
        apply proper
        rw [length_append] at short
        omega

theorem fromUtf8Lossy_take (text : String) (count : Nat) :
    ∃ before after marks, text.toList = before ++ after ∧
      (fromUtf8Lossy ((asBytes text).take count)).toList = before ++ marks ∧
      (∀ mark ∈ marks, mark = Char.ofNat 0xFFFD) ∧
      (count < (asBytes text).length → after ≠ []) := by
  obtain ⟨before, after, part, split, taken, isPart, proper⟩ := take_encoded text.toList count
  refine ⟨before, after, (fromUtf8Lossy part).toList, split, ?_, ?_, proper⟩
  · have bytes : (asBytes text).take count = asBytes (String.ofList before) ++ part := by
      rw [asBytes, taken, asBytes, String.toList_ofList]
    rw [bytes, fromUtf8Lossy_append, String.toList_append, String.toList_ofList]
  · rcases isPart with empty | ⟨char, isPart⟩
    · rw [empty]
      simp [fromUtf8Lossy_nil]
    · rw [fromUtf8Lossy, String.toList_ofList]
      exact lossyChars_part _ isPart

end ForgeCore.Text
