import ForgeCore.Library.Utf8

/-!
# The filter for YAML aliases

The byte scanner that refuses anchors and aliases, and what it sees as one.
-/

namespace ForgeCore.DomainPacks

open List Text

/-- `u8::is_ascii_whitespace`. -/
def isAsciiWhitespace (byte : UInt8) : Bool :=
  byte = 32 || byte = 9 || byte = 10 || byte = 12 || byte = 13

def opensComment (previous : Option UInt8) : Bool :=
  previous.all isAsciiWhitespace

/-- White space or a byte that ends an indicator stands before the mark. -/
def opensNode (previous : Option UInt8) : Bool :=
  previous.all fun byte => isAsciiWhitespace byte || [45, 63, 58, 44, 91, 123].contains byte

def beginsName (next : UInt8) : Bool :=
  !(isAsciiWhitespace next || [44, 91, 93, 123, 125].contains next)

/-- Where the scan is: in plain text, in quotes or in a comment. -/
inductive ScanMode where
  | plain
  | singleQuoted
  | doubleQuoted
  | comment
  deriving DecidableEq, Repr

/-- The loop on the bytes that are left, behind the previous byte; it finds an
anchor or alias.  In a quoted text two bytes may be taken at once. -/
def findsAlias : ScanMode → Option UInt8 → List UInt8 → Bool
  | _, _, [] => false
  | .comment, _, byte :: rest =>
    findsAlias (if byte = 10 then .plain else .comment) (some byte) rest
  | .doubleQuoted, _, [_] => false
  | .doubleQuoted, _, byte :: next :: rest =>
    if byte = 92 then
      findsAlias .doubleQuoted (some next) rest
    else
      findsAlias (if byte = 34 then .plain else .doubleQuoted) (some byte) (next :: rest)
  | .singleQuoted, _, [_] => false
  | .singleQuoted, _, byte :: next :: rest =>
    if byte = 39 && next = 39 then
      findsAlias .singleQuoted (some next) rest
    else
      findsAlias (if byte = 39 then .plain else .singleQuoted) (some byte) (next :: rest)
  | .plain, previous, byte :: rest =>
    if byte = 34 then
      findsAlias .doubleQuoted (some byte) rest
    else if byte = 39 then
      findsAlias .singleQuoted (some byte) rest
    else if byte = 35 && opensComment previous then
      findsAlias .comment (some byte) rest
    else if (byte = 38 || byte = 42) && opensNode previous && rest.head?.any beginsName then
      true
    else
      findsAlias .plain (some byte) rest

def rejectYamlAliasSyntax (raw : List UInt8) (path : String) : Except String Unit :=
  if findsAlias .plain none raw then
    .error ("domain-pack: '" ++ path ++
      "' uses YAML anchor/alias syntax; bounded authority documents must be alias-free")
  else
    .ok ()

/-! ## Where an alias is seen -/

/-- The inside of a text in quotation marks: a backslash takes the byte behind
it along. -/
inductive Escaped : List UInt8 → Prop
  | nil : Escaped []
  | byte (byte : UInt8) (rest : List UInt8) (other : byte ≠ 34 ∧ byte ≠ 92) :
      Escaped rest → Escaped (byte :: rest)
  | pair (byte : UInt8) (rest : List UInt8) : Escaped rest → Escaped (92 :: byte :: rest)

/-- Behind the previous byte, an anchor or alias stands where every quotation
mark, apostrophe and comment in front of it is closed again. -/
inductive Exposed : Option UInt8 → List UInt8 → Prop
  | marked {previous : Option UInt8} {mark next : UInt8} {rest : List UInt8}
      (isMark : mark = 38 ∨ mark = 42) (opened : opensNode previous = true)
      (named : beginsName next = true) : Exposed previous (mark :: next :: rest)
  | plain {previous : Option UInt8} {byte : UInt8} {rest : List UInt8}
      (other : byte ≠ 34 ∧ byte ≠ 39 ∧ ¬ (byte = 35 ∧ opensComment previous = true)) :
      Exposed (some byte) rest → Exposed previous (byte :: rest)
  | doubleQuoted {previous : Option UInt8} {body rest : List UInt8} (inside : Escaped body) :
      Exposed (some 34) rest → Exposed previous (34 :: (body ++ 34 :: rest))
  | singleQuoted {previous : Option UInt8} {body rest : List UInt8} (inside : 39 ∉ body) :
      Exposed (some 39) rest → Exposed previous (39 :: (body ++ 39 :: rest))
  | comment {previous : Option UInt8} {body rest : List UInt8}
      (opened : opensComment previous = true) (inside : 10 ∉ body) :
      Exposed (some 10) rest → Exposed previous (35 :: (body ++ 10 :: rest))

section Modes

variable {previous : Option UInt8} {raw : List UInt8}

/-- A mode that only waits for one byte is left behind the first one. -/
theorem leaves_behind_close
    {inside : Option UInt8 → List UInt8 → Bool} {outside : List UInt8 → Bool} {close : UInt8}
    (empty : ∀ previous, inside previous [] = false)
    (step : ∀ previous byte rest, inside previous (byte :: rest) =
      if byte = close then outside rest else inside (some byte) rest) :
    inside previous raw = true ↔ ∃ body rest, raw = body ++ close :: rest ∧
      close ∉ body ∧ outside rest = true := by
  induction raw generalizing previous with
  | nil => simp [empty]
  | cons byte rest ih =>
    rw [step]
    constructor
    · intro found
      by_cases ends : byte = close
      · rw [if_pos ends] at found
        exact ⟨[], rest, by rw [ends, nil_append], not_mem_nil, found⟩
      · rw [if_neg ends, ih] at found
        obtain ⟨body, behind, rfl, clean, found⟩ := found
        exact ⟨byte :: body, behind, rfl, by simp [clean, Ne.symm ends], found⟩
    · rintro ⟨body, behind, split, clean, found⟩
      cases body with
      | nil =>
        cases split
        rw [if_pos rfl]
        exact found
      | cons first others =>
        cases split
        rw [mem_cons, not_or] at clean
        rw [if_neg (Ne.symm clean.1), ih]
        exact ⟨others, behind, rfl, clean.2, found⟩

theorem findsAlias_comment :
    findsAlias .comment previous raw = true ↔ ∃ body rest, raw = body ++ 10 :: rest ∧
      10 ∉ body ∧ findsAlias .plain (some 10) rest = true := by
  apply leaves_behind_close
  · intro previous
    rw [findsAlias]
  · intro previous byte rest
    rw [findsAlias]
    by_cases ends : byte = 10
    · rw [if_pos ends, if_pos ends, ends]
    · rw [if_neg ends, if_neg ends]

/-- Two apostrophes leave the quoted text and enter it again. -/
theorem findsAlias_singleQuoted_cons (byte : UInt8) :
    findsAlias .singleQuoted previous (byte :: raw) =
      findsAlias (if byte = 39 then .plain else .singleQuoted) (some byte) raw := by
  cases raw with
  | nil => rw [findsAlias, findsAlias]
  | cons next rest =>
    rw [findsAlias]
    split
    · next both =>
      simp only [Bool.and_eq_true, decide_eq_true_eq] at both
      rw [if_pos both.1, both.2, findsAlias]
      rfl
    · rfl

theorem findsAlias_singleQuoted :
    findsAlias .singleQuoted previous raw = true ↔ ∃ body rest, raw = body ++ 39 :: rest ∧
      39 ∉ body ∧ findsAlias .plain (some 39) rest = true := by
  apply leaves_behind_close
  · intro previous
    rw [findsAlias]
  · intro previous byte rest
    rw [findsAlias_singleQuoted_cons]
    by_cases ends : byte = 39
    · rw [if_pos ends, if_pos ends, ends]
    · rw [if_neg ends, if_neg ends]

theorem findsAlias_doubleQuoted_cons {byte : UInt8} (other : byte ≠ 92) :
    findsAlias .doubleQuoted previous (byte :: raw) =
      findsAlias (if byte = 34 then .plain else .doubleQuoted) (some byte) raw := by
  cases raw with
  | nil => rw [findsAlias, findsAlias]
  | cons next rest => rw [findsAlias, if_neg other]

theorem findsAlias_of_escaped {body rest : List UInt8} (inside : Escaped body)
    (found : findsAlias .plain (some 34) rest = true) :
    findsAlias .doubleQuoted previous (body ++ 34 :: rest) = true := by
  induction inside generalizing previous with
  | nil =>
    rw [nil_append, findsAlias_doubleQuoted_cons (by decide), if_pos rfl]
    exact found
  | byte byte others other _ ih =>
    rw [cons_append, findsAlias_doubleQuoted_cons other.2, if_neg other.1]
    exact ih
  | pair byte others _ ih =>
    rw [cons_append, cons_append, findsAlias, if_pos rfl]
    exact ih

theorem escaped_of_findsAlias (found : findsAlias .doubleQuoted previous raw = true) :
    ∃ body rest, raw = body ++ 34 :: rest ∧ Escaped body ∧
      findsAlias .plain (some 34) rest = true := by
  induction length : raw.length using Nat.strong_induction_on generalizing previous raw with
  | _ _ ih =>
    subst length
    match raw with
    | [] => simp [findsAlias] at found
    | byte :: rest =>
      by_cases escapes : byte = 92
      · match rest with
        | [] => simp [findsAlias] at found
        | next :: rest =>
          rw [findsAlias, if_pos escapes] at found
          obtain ⟨body, behind, rfl, inside, found⟩ := ih _ (by simp) found rfl
          exact ⟨92 :: next :: body, behind, by rw [escapes]; rfl, .pair next body inside, found⟩
      · rw [findsAlias_doubleQuoted_cons escapes] at found
        by_cases ends : byte = 34
        · rw [if_pos ends] at found
          exact ⟨[], rest, by rw [ends, nil_append], .nil, ends ▸ found⟩
        · rw [if_neg ends] at found
          obtain ⟨body, behind, rfl, inside, found⟩ := ih _ (by simp) found rfl
          exact ⟨byte :: body, behind, rfl, .byte byte body ⟨ends, escapes⟩ inside, found⟩

/-- The scanner finds an anchor or alias exactly where one is exposed. -/
theorem findsAlias_iff_exposed : findsAlias .plain previous raw = true ↔ Exposed previous raw := by
  constructor
  · intro found
    induction length : raw.length using Nat.strong_induction_on generalizing previous raw with
    | _ _ ih =>
      subst length
      cases raw with
      | nil => simp [findsAlias] at found
      | cons byte rest =>
        rw [findsAlias] at found
        split_ifs at found with isDouble isSingle isComment isAlias
        · obtain ⟨body, behind, rfl, inside, found⟩ := escaped_of_findsAlias found
          rw [isDouble]
          exact .doubleQuoted inside (ih _ (by simp; omega) found rfl)
        · obtain ⟨body, behind, rfl, inside, found⟩ := findsAlias_singleQuoted.mp found
          rw [isSingle]
          exact .singleQuoted inside (ih _ (by simp; omega) found rfl)
        · obtain ⟨body, behind, rfl, inside, found⟩ := findsAlias_comment.mp found
          rw [Bool.and_eq_true, decide_eq_true_eq] at isComment
          rw [isComment.1]
          exact .comment isComment.2 inside (ih _ (by simp; omega) found rfl)
        · simp only [Bool.and_eq_true, Bool.or_eq_true, decide_eq_true_eq] at isAlias
          obtain ⟨⟨isMark, opened⟩, named⟩ := isAlias
          cases rest with
          | nil => cases named
          | cons next rest => exact .marked isMark opened named
        · refine .plain ⟨isDouble, isSingle, ?_⟩ (ih _ (by simp) found rfl)
          simpa using isComment
  · intro exposed
    induction exposed with
    | @marked previous mark next rest isMark opened named =>
      rw [findsAlias]
      rcases isMark with rfl | rfl <;> simp [opened, named]
    | @plain previous byte rest other _ ih =>
      rw [findsAlias, if_neg other.1, if_neg other.2.1, if_neg (by simpa using other.2.2), ih]
      exact ite_self true
    | doubleQuoted inside _ ih =>
      rw [findsAlias, if_pos rfl]
      exact findsAlias_of_escaped inside ih
    | singleQuoted inside _ ih =>
      rw [findsAlias, if_neg (by decide), if_pos rfl, findsAlias_singleQuoted]
      exact ⟨_, _, rfl, inside, ih⟩
    | comment opened inside _ ih =>
      rw [findsAlias, if_neg (by decide), if_neg (by decide), if_pos (by simp [opened]),
        findsAlias_comment]
      exact ⟨_, _, rfl, inside, ih⟩

end Modes

/-- A document is rejected exactly when an anchor or alias is exposed. -/
theorem alias_rejected_iff_exposed (raw : List UInt8) (path : String) :
    (∃ message, rejectYamlAliasSyntax raw path = .error message) ↔ Exposed none raw := by
  rw [← findsAlias_iff_exposed, rejectYamlAliasSyntax]
  cases findsAlias .plain none raw with
  | true => simp
  | false => simp

/-- A key and a plain scalar on one line. -/
structure PlainLine where
  key : String
  value : String
  deriving DecidableEq, Repr

def PlainLine.text (line : PlainLine) : List UInt8 :=
  asBytes (line.key ++ ": " ++ line.value ++ "\n")

def PlainLine.WellFormed (line : PlainLine) : Prop :=
  line.key ≠ "" ∧ (∀ char ∈ line.key.toList, char.isAlpha = true) ∧
    '\n' ∉ line.value.toList ∧ ∀ char ∈ line.value.toList.head?, char ∉ ['"', '\'', '#']

def PlainLine.StartsAlias (line : PlainLine) : Prop :=
  ∃ mark letter rest, line.value.toList = mark :: letter :: rest ∧
    (mark = '&' ∨ mark = '*') ∧ letter.isAlpha = true

section PlainLines

variable {previous : Option UInt8} {front rest : List UInt8}

/-- What is exposed behind a line without quotation marks and apostrophes is
exposed in front of it, also when the line has a comment. -/
theorem Exposed.behind_line
    (clean : ∀ byte ∈ front, byte ≠ 34 ∧ byte ≠ 39 ∧ byte ≠ 10)
    (exposed : Exposed (some 10) rest) :
    Exposed previous (front ++ 10 :: rest) := by
  induction front generalizing previous with
  | nil => exact .plain ⟨by decide, by decide, fun opens => absurd opens.1 (by decide)⟩ exposed
  | cons byte others ih =>
    rw [forall_mem_cons] at clean
    by_cases opens : byte = 35 ∧ opensComment previous = true
    · obtain ⟨rfl, opened⟩ := opens
      exact .comment opened (fun feed => (clean.2 10 feed).2.2 rfl) exposed
    · exact .plain ⟨clean.1.1, clean.1.2.1, opens⟩ (ih clean.2)

theorem Exposed.behind_plain
    {byte : UInt8} (clean : ∀ other ∈ front ++ [byte], other ≠ 34 ∧ other ≠ 39 ∧ other ≠ 35)
    (exposed : Exposed (some byte) rest) :
    Exposed previous (front ++ byte :: rest) := by
  induction front generalizing previous with
  | nil =>
    have plain := clean byte (by simp)
    exact .plain ⟨plain.1, plain.2.1, fun opens => plain.2.2 opens.1⟩ exposed
  | cons first others ih =>
    rw [cons_append, forall_mem_cons] at clean
    exact .plain ⟨clean.1.1, clean.1.2.1, fun opens => clean.1.2.2 opens.1⟩ (ih clean.2)

theorem PlainLine.text_eq (line : PlainLine) :
    line.text = (asBytes line.key ++ [58]) ++ 32 :: (asBytes line.value ++ [10]) := by
  have colon : asBytes ": " = [58, 32] := by decide
  have feed : asBytes "\n" = [10] := by decide
  rw [PlainLine.text, asBytes_append, asBytes_append, asBytes_append, colon, feed]
  simp

/-- A byte for a character that is no letter does not occur in a key. -/
theorem PlainLine.WellFormed.not_mem_key
    {line : PlainLine} (wellFormed : line.WellFormed) {byte : UInt8} (ascii : byte < 128)
    (other : (Char.ofNat byte.toNat).isAlpha = false) :
    byte ∉ asBytes line.key := by
  intro member
  have letter := wellFormed.2.1 _ ((mem_asBytes ascii).mp member)
  rw [other] at letter
  cases letter

theorem beginsName_of_isAlpha {letter : Char} (isLetter : letter.isAlpha = true) :
    ∃ byte, String.utf8EncodeChar letter = [byte] ∧ beginsName byte = true := by
  have each : ∀ number : Fin 128, (Char.ofNat number).isAlpha = true →
      String.utf8EncodeChar (Char.ofNat number) = [UInt8.ofNat number] ∧
        beginsName (UInt8.ofNat number) = true := by
    decide +kernel
  have small : letter.toNat < 128 := by
    simp only [Char.isAlpha, Char.isUpper, Char.isLower, Bool.or_eq_true, Bool.and_eq_true,
      decide_eq_true_eq, UInt32.le_iff_toNat_le, ge_iff_le] at isLetter
    rcases isLetter with ⟨-, upper⟩ | ⟨-, lower⟩
    · exact lt_of_le_of_lt upper (by decide)
    · exact lt_of_le_of_lt lower (by decide)
  have here := each ⟨letter.toNat, small⟩
  rw [Char.ofNat_toNat] at here
  exact ⟨_, here isLetter⟩

theorem PlainLine.WellFormed.exposed
    {line : PlainLine} (wellFormed : line.WellFormed) (starts : line.StartsAlias) :
    Exposed previous (line.text ++ rest) := by
  obtain ⟨mark, letter, others, value, isMark, isLetter⟩ := starts
  obtain ⟨byte, encoded, named⟩ := beginsName_of_isAlpha isLetter
  have bytes : asBytes line.value =
      String.utf8EncodeChar mark ++ byte :: others.flatMap String.utf8EncodeChar := by
    rw [asBytes, value, flatMap_cons, flatMap_cons, encoded]
    rfl
  rw [PlainLine.text_eq, append_assoc, cons_append, bytes]
  apply Exposed.behind_plain
  · intro other member
    simp only [append_assoc, mem_append, mem_cons, not_mem_nil, or_false] at member
    rcases member with inKey | rfl | rfl
    · refine ⟨?_, ?_, ?_⟩ <;> rintro rfl <;>
        exact wellFormed.not_mem_key (by decide) (by decide) inKey
    · decide
    · decide
  · rcases isMark with rfl | rfl
    · exact .marked (.inl rfl) (by decide) named
    · exact .marked (.inr rfl) (by decide) named

/-- In a document of plain lines without quotation marks and apostrophes in
their values, a value that begins with an anchor or alias is refused. -/
theorem plain_alias_is_rejected
    (lines : List PlainLine)
    (wellFormed : ∀ line ∈ lines, line.WellFormed)
    (unquoted : ∀ line ∈ lines, '"' ∉ line.value.toList ∧ '\'' ∉ line.value.toList)
    (starts : ∃ line ∈ lines, line.StartsAlias)
    (path : String) :
    ∃ message, rejectYamlAliasSyntax (lines.flatMap PlainLine.text) path = .error message := by
  have exposed (previous : Option UInt8) : Exposed previous (lines.flatMap PlainLine.text) := by
    induction lines generalizing previous with
    | nil => simp at starts
    | cons line others ih =>
      rw [forall_mem_cons] at wellFormed unquoted
      rw [flatMap_cons]
      obtain ⟨found, member, startsAlias⟩ := starts
      rcases List.mem_cons.mp member with rfl | later
      · exact wellFormed.1.exposed startsAlias
      · have behind := ih wellFormed.2 unquoted.2 ⟨found, later, startsAlias⟩ (some 10)
        rw [PlainLine.text_eq, ← cons_append, ← append_assoc, append_assoc _ [10], singleton_append]
        apply Exposed.behind_line _ behind
        intro byte inLine
        simp only [append_assoc, mem_append, mem_cons, not_mem_nil, or_false] at inLine
        rcases inLine with inKey | rfl | rfl | inValue
        · refine ⟨?_, ?_, ?_⟩ <;> rintro rfl <;>
            exact wellFormed.1.not_mem_key (by decide) (by decide) inKey
        · decide
        · decide
        · refine ⟨?_, ?_, ?_⟩ <;> rintro rfl
          · exact unquoted.1.1 ((mem_asBytes (by decide)).mp inValue)
          · exact unquoted.1.2 ((mem_asBytes (by decide)).mp inValue)
          · exact wellFormed.1.2.2.1 ((mem_asBytes (by decide)).mp inValue)
  rw [rejectYamlAliasSyntax, findsAlias_iff_exposed.mpr (exposed none)]
  exact ⟨_, rfl⟩

end PlainLines

/-- An apostrophe in an earlier plain value hides an alias. -/
theorem alias_hidden_by_apostrophe :
    let lines : List PlainLine := [⟨"note", "it's plain"⟩, ⟨"copy", "*shared"⟩]
    (∀ line ∈ lines, line.WellFormed) ∧ (∃ line ∈ lines, line.StartsAlias) ∧
      rejectYamlAliasSyntax (lines.flatMap PlainLine.text) "pack.yaml" = .ok () := by
  refine ⟨?_, ⟨⟨"copy", "*shared"⟩, by simp, '*', 's', _, rfl, .inr rfl, by decide⟩, ?_⟩
  · intro line member
    have either : line = ⟨"note", "it's plain"⟩ ∨ line = ⟨"copy", "*shared"⟩ := by
      simpa using member
    rcases either with rfl | rfl
    · exact ⟨by decide, by simp, by simp, by simp⟩
    · exact ⟨by decide, by simp, by simp, by simp⟩
  · decide +kernel

end ForgeCore.DomainPacks
