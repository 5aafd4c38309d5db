import ForgeCore.Library.Codec

/-!
# JSON values

Values, the text that the serializer writes for them, and that the text
determines the value.
-/

namespace ForgeCore

open List

def isNumberChar (char : Char) : Bool :=
  char.isDigit || ['-', '+', '.', 'e', 'E'].contains char

/-- A nonempty text of number characters. -/
structure NumberText where
  chars : List Char
  nonempty : chars ≠ []
  shaped : chars.all isNumberChar = true
deriving DecidableEq

inductive Json where
  | null
  | bool (value : Bool)
  | number (text : NumberText)
  | string (value : String)
  | array (items : List Json)
  | object (fields : List (String × Json))

namespace Json

def get (value : Json) (name : String) : Option Json :=
  match value with
  | object fields => (fields.find? (fun field => field.1 = name)).map Prod.snd
  | _ => none

def asStr (value : Json) : Option String :=
  match value with
  | string text => some text
  | _ => none

def decimal (value : Nat) : NumberText where
  chars := Nat.toDigits 10 value
  nonempty := Nat.toDigits_ne_nil
  shaped := by
    rw [all_eq_true]
    intro char member
    have digit : char.isDigit = true := Nat.isDigit_of_mem_toDigits (by decide) (by decide) member
    rw [isNumberChar, digit, Bool.true_or]

theorem decimal_injective : Function.Injective decimal := by
  intro left right same
  have chars : Nat.toDigits 10 left = Nat.toDigits 10 right := congrArg NumberText.chars same
  rw [← Nat.ofDigitChars_ten_toDigits (n := left), chars, Nat.ofDigitChars_ten_toDigits]

def nat (value : Nat) : Json :=
  number (decimal value)

/-- The characters that are written as an escape. -/
def escapes : List (Char × List Char) :=
  [('\x22', ['\\', '\x22']), ('\\', ['\\', '\\']), (Char.ofNat 8, ['\\', 'b']), ('\t', ['\\', 't']),
    ('\n', ['\\', 'n']), (Char.ofNat 12, ['\\', 'f']), ('\r', ['\\', 'r'])] ++
  (((List.range 32).filter fun code =>
      !([8, 9, 10, 12, 13].contains code)).map fun code =>
    (Char.ofNat code, ['\\', 'u', '0', '0', Nat.digitChar (code / 16), Nat.digitChar (code % 16)]))

def escape (char : Char) : List Char :=
  match escapes.find? (fun entry => entry.1 = char) with
  | some entry => entry.2
  | none => [char]

def quoted (value : String) : List Char :=
  '\x22' :: (value.toList.flatMap escape ++ ['\x22'])

mutual

/-- Compact text, as `serde_json::to_string` writes it. -/
def render : Json → List Char
  | null => ['n', 'u', 'l', 'l']
  | bool true => ['t', 'r', 'u', 'e']
  | bool false => ['f', 'a', 'l', 's', 'e']
  | number text => text.chars
  | string value => quoted value
  | array [] => ['[', ']']
  | array (item :: rest) => '[' :: (render item ++ renderItems rest)
  | object [] => ['\x7b', '\x7d']
  | object (field :: rest) =>
    '\x7b' :: (quoted field.1 ++ ':' :: (render field.2 ++ renderFields rest))

def renderItems : List Json → List Char
  | [] => [']']
  | item :: rest => ',' :: (render item ++ renderItems rest)

def renderFields : List (String × Json) → List Char
  | [] => ['\x7d']
  | field :: rest => ',' :: (quoted field.1 ++ ':' :: (render field.2 ++ renderFields rest))

end

/-! ## Escapes are a prefix code -/

theorem escapes_prefixFree :
    ∀ first ∈ escapes, ∀ second ∈ escapes, first.2.isPrefixOf second.2 = true → first = second := by
  decide +kernel

theorem escapes_head : ∀ entry ∈ escapes, entry.2.head? = some '\\' := by
  decide +kernel

theorem escapes_plain : ∀ entry ∈ escapes, '\n' ∉ entry.2 := by
  decide +kernel

theorem escape_cases (char : Char) : (∃ entry ∈ escapes, entry.1 = char ∧ escape char = entry.2) ∨
      (∀ entry ∈ escapes, entry.1 ≠ char) ∧ escape char = [char] := by
  unfold escape
  cases found : escapes.find? (fun entry => entry.1 = char) with
  | some entry =>
    have named := find?_some found
    exact Or.inl ⟨entry, mem_of_find?_eq_some found, by simpa using named, rfl⟩
  | none =>
    refine Or.inr ⟨fun entry member same => ?_, rfl⟩
    have missing := List.find?_eq_none.mp found entry member
    exact missing (decide_eq_true same)

theorem escapes_mark :
    (∃ entry ∈ escapes, entry.1 = '\\') ∧ ∃ entry ∈ escapes, entry.1 = '\x22' := by
  decide +kernel

/-- The first character of an escape: the mark, or a character that is
neither the mark nor a quote. -/
theorem escape_head (char : Char) : ∃ first rest, escape char = first :: rest ∧ first ≠ '\x22' ∧
      (first = '\\' ∨ escape char = [char]) := by
  rcases escape_cases char with ⟨entry, member, -, written⟩ | ⟨plain, written⟩
  · have head := escapes_head entry member
    obtain ⟨rest, shape⟩ := List.head?_eq_some_iff.mp head
    exact ⟨'\\', rest, by rw [written, shape], by decide, Or.inl rfl⟩
  · obtain ⟨entry, member, isQuote⟩ := escapes_mark.2
    refine ⟨char, [], written, ?_, Or.inr written⟩
    rintro rfl
    exact plain entry member isQuote

theorem escape_append_inj (same : escape left ++ leftRest = escape right ++ rightRest) :
    left = right ∧ leftRest = rightRest := by
  have prefixFree {first second : Char × List Char}
      (inFirst : first ∈ escapes) (inSecond : second ∈ escapes)
      (shorter : first.2 <+: second.2) : first = second :=
    escapes_prefixFree first inFirst second inSecond (List.isPrefixOf_iff_prefix.mpr shorter)
  rcases escape_cases left with
      ⟨first, inFirst, rfl, leftText⟩ | ⟨leftPlain, leftText⟩ <;>
    rcases escape_cases right with
      ⟨second, inSecond, rfl, rightText⟩ | ⟨rightPlain, rightText⟩
  · rw [leftText, rightText] at same
    have entries : first = second := by
      rcases prefix_or_prefix_of_prefix (prefix_append first.2 leftRest)
          (same ▸ prefix_append second.2 rightRest) with
        shorter | shorter
      · exact prefixFree inFirst inSecond shorter
      · exact (prefixFree inSecond inFirst shorter).symm
    subst entries
    exact ⟨rfl, append_cancel_left same⟩
  · obtain ⟨rest, shape⟩ := List.head?_eq_some_iff.mp (escapes_head first inFirst)
    rw [leftText, rightText, shape] at same
    obtain ⟨entry, member, isMark⟩ := escapes_mark.1
    injection same with head
    exact absurd (isMark.trans head) (rightPlain entry member)
  · obtain ⟨rest, shape⟩ := List.head?_eq_some_iff.mp (escapes_head second inSecond)
    rw [leftText, rightText, shape] at same
    obtain ⟨entry, member, isMark⟩ := escapes_mark.1
    injection same with head
    exact absurd (isMark.trans head.symm) (leftPlain entry member)
  · rw [leftText, rightText] at same
    injection same with head tail
    exact ⟨head, tail⟩

theorem escaped_append_inj (left right : List Char) (leftRest rightRest : List Char)
    (same : left.flatMap escape ++ '\x22' :: leftRest =
      right.flatMap escape ++ '\x22' :: rightRest) : left = right ∧ leftRest = rightRest := by
  induction left generalizing right with
  | nil =>
    cases right with
    | nil => simpa using same
    | cons char rest =>
      obtain ⟨first, more, shape, notQuote, -⟩ := escape_head char
      simp only [flatMap_nil, nil_append, flatMap_cons, shape, cons_append] at same
      injection same with head
      exact absurd head.symm notQuote
  | cons char rest ih =>
    cases right with
    | nil =>
      obtain ⟨first, more, shape, notQuote, -⟩ := escape_head char
      simp only [flatMap_nil, nil_append, flatMap_cons, shape, cons_append] at same
      injection same with head
      exact absurd head notQuote
    | cons other others =>
      simp only [flatMap_cons, append_assoc] at same
      obtain ⟨rfl, tails⟩ := escape_append_inj same
      obtain ⟨rfl, sameRest⟩ := ih others tails
      exact ⟨rfl, sameRest⟩

theorem quoted_append_inj {left right : String} {leftRest rightRest : List Char}
    (same : quoted left ++ leftRest = quoted right ++ rightRest) :
    left = right ∧ leftRest = rightRest := by
  simp only [quoted, cons_append, append_assoc, nil_append] at same
  injection same with _ tails
  obtain ⟨sameText, sameRest⟩ := escaped_append_inj _ _ _ _ tails
  exact ⟨String.toList_inj.mp sameText, sameRest⟩

/-! ## The text determines the value -/

/-- What can follow a value: nothing that would go on with a number. -/
def Stops (rest : List Char) : Prop :=
  ∀ char, rest.head? = some char → isNumberChar char = false

theorem number_append_inj {left right : NumberText} {leftRest rightRest : List Char}
    (leftStops : Stops leftRest) (rightStops : Stops rightRest)
    (same : left.chars ++ leftRest = right.chars ++ rightRest) :
    left = right ∧ leftRest = rightRest := by
  have cut (text : NumberText) {rest : List Char} (stops : Stops rest) :
      (text.chars ++ rest).takeWhile isNumberChar = text.chars := by
    rw [takeWhile_append_of_pos (List.all_eq_true.mp text.shaped)]
    cases rest with
    | nil => simp
    | cons char more => simp [stops char rfl]
  have chars : left.chars = right.chars := by
    rw [← cut left leftStops, same, cut right rightStops]
  refine ⟨?_, ?_⟩
  · cases left
    cases right
    simp_all
  · rw [chars] at same
    exact append_cancel_left same

/-- The first character of a value that is not a number. -/
def mark : Json → Option Char
  | null => some 'n'
  | bool true => some 't'
  | bool false => some 'f'
  | number _ => none
  | string _ => some '\x22'
  | array _ => some '['
  | object _ => some '\x7b'

theorem render_mark (marked : mark value = some char) :
    (∃ rest, render value = char :: rest) ∧ isNumberChar char = false := by
  match value with
  | null | bool true | bool false | string _ | array [] | array (_ :: _)
  | object [] | object (_ :: _) =>
    cases marked
    exact ⟨⟨_, by rw [render]; try rfl⟩, by decide⟩

theorem render_unmarked (unmarked : mark value = none) :
    ∃ first rest, render value = first :: rest ∧ isNumberChar first = true := by
  match value with
  | number text =>
    obtain ⟨first, rest, shape⟩ := exists_cons_of_ne_nil text.nonempty
    have shaped := text.shaped
    rw [shape, all_cons, Bool.and_eq_true] at shaped
    exact ⟨first, rest, by rw [render, shape], shaped.1⟩

/-- Texts that begin alike belong to values of one kind. -/
theorem mark_eq_of_render {left right : Json} {leftRest rightRest : List Char}
    (same : render left ++ leftRest = render right ++ rightRest) : mark left = mark right := by
  cases leftMark : mark left with
  | some char =>
    obtain ⟨⟨rest, shape⟩, notNumber⟩ := render_mark leftMark
    cases rightMark : mark right with
    | some other =>
      obtain ⟨⟨more, otherShape⟩, -⟩ := render_mark rightMark
      rw [shape, otherShape, cons_append, cons_append] at same
      injection same with head
      rw [head]
    | none =>
      obtain ⟨first, more, otherShape, isNumber⟩ := render_unmarked rightMark
      rw [shape, otherShape, cons_append, cons_append] at same
      injection same with head
      rw [head, isNumber] at notNumber
      cases notNumber
  | none =>
    obtain ⟨first, rest, shape, isNumber⟩ := render_unmarked leftMark
    cases rightMark : mark right with
    | none => rfl
    | some other =>
      obtain ⟨⟨more, otherShape⟩, notNumber⟩ := render_mark rightMark
      rw [shape, otherShape, cons_append, cons_append] at same
      injection same with head
      rw [← head, isNumber] at notNumber
      cases notNumber

theorem render_ne_close (value : Json) (rest more : List Char) :
    render value ++ rest ≠ ']' :: more := by
  intro same
  cases marked : mark value with
  | some char =>
    obtain ⟨⟨others, shape⟩, -⟩ := render_mark marked
    rw [shape, cons_append] at same
    injection same with head
    subst head
    match value with
    | null | bool true | bool false | string _ | array _ | object _ =>
      simp [mark] at marked
  | none =>
    obtain ⟨first, others, shape, isNumber⟩ := render_unmarked marked
    rw [shape, cons_append] at same
    injection same with head
    rw [head] at isNumber
    revert isNumber
    decide

theorem stops_items (items : List Json) (rest : List Char) : Stops (renderItems items ++ rest) := by
  cases items with
  | nil | cons item more => simp [Stops, renderItems]; decide

theorem stops_fields (fields : List (String × Json)) (rest : List Char) :
    Stops (renderFields fields ++ rest) := by
  cases fields with
  | nil | cons field more => simp [Stops, renderFields]; decide

mutual

/-- No two values share their text, whatever follows them. -/
theorem render_append_inj :
    ∀ (left right : Json) (leftRest rightRest : List Char), Stops leftRest → Stops rightRest →
        render left ++ leftRest = render right ++ rightRest → left = right ∧ leftRest = rightRest
  | null, right, _, _, _, _, same => by
    match right, mark_eq_of_render same with
    | null, _ => simpa [render] using same
  | bool true, right, _, _, _, _, same => by
    match right, mark_eq_of_render same with
    | bool true, _ => simpa [render] using same
  | bool false, right, _, _, _, _, same => by
    match right, mark_eq_of_render same with
    | bool false, _ => simpa [render] using same
  | number text, right, _, _, leftStops, rightStops, same => by
    match right, mark_eq_of_render same with
    | number other, _ =>
      simp only [render] at same
      obtain ⟨sameText, sameRest⟩ := number_append_inj leftStops rightStops same
      exact ⟨by rw [sameText], sameRest⟩
  | string value, right, _, _, _, _, same => by
    match right, mark_eq_of_render same with
    | string other, _ =>
      simp only [render] at same
      obtain ⟨sameText, sameRest⟩ := quoted_append_inj same
      exact ⟨by rw [sameText], sameRest⟩
  | array [], right, leftRest, rightRest, _, _, same => by
    match right, mark_eq_of_render same with
    | array [], _ => simpa [render] using same
    | array (other :: others), _ =>
      simp only [render, cons_append, append_assoc, nil_append, List.cons.injEq, true_and] at same
      exact absurd same.symm (render_ne_close other _ _)
  | array (item :: rest), right, leftRest, rightRest, _, _, same => by
    match right, mark_eq_of_render same with
    | array [], _ =>
      simp only [render, cons_append, append_assoc, nil_append, List.cons.injEq, true_and] at same
      exact absurd same (render_ne_close item _ _)
    | array (other :: others), _ =>
      obtain ⟨sameItems, sameRest⟩ :=
        renderItems_append_inj (item :: rest) (other :: others) leftRest rightRest
          (by simpa [render, renderItems] using same)
      exact ⟨by rw [sameItems], sameRest⟩
  | object [], right, leftRest, rightRest, _, _, same => by
    match right, mark_eq_of_render same with
    | object [], _ => simpa [render] using same
    | object (other :: others), _ => simp [render, quoted] at same
  | object ((name, value) :: rest), right, leftRest, rightRest, _, _, same => by
      match right, mark_eq_of_render same with
      | object [], _ => simp [render, quoted] at same
      | object (other :: others), _ =>
        obtain ⟨sameFields, sameRest⟩ :=
          renderFields_append_inj ((name, value) :: rest) (other :: others) leftRest rightRest
            (by simpa [render, renderFields] using same)
        exact ⟨by rw [sameFields], sameRest⟩

theorem renderItems_append_inj :
    ∀ (left right : List Json) (leftRest rightRest : List Char),
      renderItems left ++ leftRest = renderItems right ++ rightRest →
        left = right ∧ leftRest = rightRest
  | [], right, _, _, same => by
    cases right with
    | nil => simpa [renderItems] using same
    | cons other others => simp [renderItems] at same
  | item :: rest, right, _, _, same => by
    cases right with
    | nil => simp [renderItems] at same
    | cons other others =>
      simp only [renderItems, cons_append, append_assoc, List.cons.injEq, true_and] at same
      obtain ⟨sameItem, sameTail⟩ := render_append_inj item other _ _ (stops_items _ _)
          (stops_items _ _) same
      obtain ⟨sameItems, sameRest⟩ := renderItems_append_inj rest others _ _ sameTail
      exact ⟨by rw [sameItem, sameItems], sameRest⟩

theorem renderFields_append_inj :
    ∀ (left right : List (String × Json)) (leftRest rightRest : List Char),
      renderFields left ++ leftRest = renderFields right ++ rightRest →
        left = right ∧ leftRest = rightRest
  | [], right, _, _, same => by
    cases right with
    | nil => simpa [renderFields] using same
    | cons other others => simp [renderFields] at same
  | (name, value) :: rest, right, _, _, same => by
    cases right with
    | nil => simp [renderFields] at same
    | cons field others =>
      obtain ⟨otherName, other⟩ := field
      simp only [renderFields, cons_append, append_assoc, List.cons.injEq, true_and] at same
      obtain ⟨sameName, sameValue⟩ := quoted_append_inj same
      simp only [List.cons.injEq, true_and] at sameValue
      obtain ⟨sameField, sameTail⟩ := render_append_inj value other _ _ (stops_fields _ _)
          (stops_fields _ _) sameValue
      obtain ⟨sameFields, sameRest⟩ := renderFields_append_inj rest others _ _ sameTail
      exact ⟨by rw [sameName, sameField, sameFields], sameRest⟩

end

theorem render_object_append_inj
    (same : render (.object left) ++ leftRest = render (.object right) ++ rightRest) :
    left = right ∧ leftRest = rightRest := by
  cases left with
  | nil =>
    cases right with
    | nil => simpa [render] using same
    | cons other others => simp [render, quoted] at same
  | cons field rest =>
    cases right with
    | nil => simp [render, quoted] at same
    | cons other others =>
      -- The fields of an object are written like further fields.
      simp only [render, cons_append, append_assoc, List.cons.injEq, true_and] at same
      have further : renderFields (field :: rest) ++ leftRest =
            renderFields (other :: others) ++ rightRest := by
        simpa only [renderFields, cons_append, append_assoc, List.cons.injEq, true_and] using same
      exact renderFields_append_inj _ _ _ _ further

theorem render_injective : Function.Injective render := by
  intro left right same
  have nothing : Stops [] := by simp [Stops]
  exact (render_append_inj left right [] [] nothing nothing (by rw [same])).1

/-! ## The text is one line -/

theorem lineFeed_not_mem_escape (char : Char) : '\n' ∉ escape char := by
  rcases escape_cases char with ⟨entry, member, -, written⟩ | ⟨plain, written⟩
  · rw [written]
    exact escapes_plain entry member
  · rw [written, mem_singleton]
    rintro rfl
    exact plain ('\n', ['\\', 'n']) (by decide +kernel) rfl

theorem lineFeed_not_mem_quoted (value : String) : '\n' ∉ quoted value := by
  simp [quoted, lineFeed_not_mem_escape]

mutual

theorem lineFeed_not_mem_render : ∀ value : Json, '\n' ∉ render value
  | null | bool true | bool false | array [] | object [] => by
    simp [render]
  | number text => by
    intro member
    rw [render] at member
    have shaped := List.all_eq_true.mp text.shaped '\n' member
    revert shaped
    decide
  | string value => by
    rw [render]
    exact lineFeed_not_mem_quoted value
  | array (item :: rest) => by
    simp [render, lineFeed_not_mem_render item, lineFeed_not_mem_items rest]
  | object ((name, value) :: rest) => by
    simp [render, lineFeed_not_mem_quoted, lineFeed_not_mem_render value,
      lineFeed_not_mem_fields rest]

theorem lineFeed_not_mem_items :
    ∀ items : List Json, '\n' ∉ renderItems items
  | [] => by simp [renderItems]
  | item :: rest => by
    simp [renderItems, lineFeed_not_mem_render item, lineFeed_not_mem_items rest]

theorem lineFeed_not_mem_fields :
    ∀ fields : List (String × Json), '\n' ∉ renderFields fields
  | [] => by simp [renderFields]
  | (name, value) :: rest => by
    simp [renderFields, lineFeed_not_mem_quoted,
      lineFeed_not_mem_render value, lineFeed_not_mem_fields rest]

end

theorem getLast?_renderFields (fields : List (String × Json)) :
    (renderFields fields).getLast? = some '\x7d' := by
  induction fields with
  | nil => rfl
  | cons field rest ih =>
    rw [renderFields, getLast?_cons, getLast?_append, getLast?_cons, getLast?_append, ih]
    rfl

theorem getLast?_render_object (fields : List (String × Json)) :
    (render (object fields)).getLast? = some '\x7d' := by
  cases fields with
  | nil => rfl
  | cons field rest =>
    rw [render, getLast?_cons, getLast?_append,
      getLast?_cons, getLast?_append, getLast?_renderFields]
    rfl

/-! ## Optional and named values -/

/-- An optional value; a missing one is `null`. -/
def optionJson {value : Type} (toJson : value → Json) : Option value → Json
  | none => .null
  | some item => toJson item

theorem optionJson_injective
    {value : Type} {toJson : value → Json} (injective : Function.Injective toJson)
    (notNull : ∀ item, toJson item ≠ null) : Function.Injective (optionJson toJson) := by
  intro left right same
  cases left with
  | none =>
    cases right with
    | none => rfl
    | some item => exact absurd same.symm (notNull item)
  | some item =>
    cases right with
    | none => exact absurd same (notNull item)
    | some other => rw [injective same]

theorem stringJson_injective : Function.Injective Json.string := by
  intro left right same
  exact Json.string.inj same

theorem optionString_injective : Function.Injective (optionJson Json.string) :=
  optionJson_injective stringJson_injective (by simp)

/-- A name under which a value is written as a string. -/
def nameJson {value : Type} (name : value → String) (item : value) : Json :=
  .string (name item)

theorem optionName_injective
    {value : Type} {name : value → String} (injective : Function.Injective name) :
    Function.Injective (optionJson (nameJson name)) := by
  apply optionJson_injective
  · intro left right same
    exact injective (Json.string.inj same)
  · intro item
    simp [nameJson]

theorem optionNat_injective : Function.Injective (optionJson Json.nat) := by
  apply optionJson_injective
  · intro left right same
    exact Json.decimal_injective (Json.number.inj same)
  · intro item
    simp [Json.nat]

instance : DecidableEq Json := fun left right =>
  decidable_of_iff (render left = render right) render_injective.eq_iff

end Json

end ForgeCore
