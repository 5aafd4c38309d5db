import ForgeCore.EventLog.Stream

/-!
# Streams of lines

A file of serialized events is read back event by event, and stays readable
under appends.
-/

namespace ForgeCore.EventLog

open List Machine Text

section Text

/-- A text that neither begins nor ends with white space is not trimmed. -/
theorem trim_of_marks (opened : text.toList.head? = some first)
    (closed : text.toList.getLast? = some last) (firstMark : isWhitespace first = false)
    (lastMark : isWhitespace last = false) : trim text = text := by
  cases chars : text.toList with
  | nil =>
    rw [chars] at opened
    cases opened
  | cons head tail =>
    have isHead : head = first := by simpa [chars] using opened
    have front : (head :: tail).dropWhile isWhitespace = head :: tail := by
      rw [dropWhile_cons_of_neg (by simp [isHead, firstMark])]
    have reversed : (head :: tail).reverse.head? = some last := by
      rw [head?_reverse, ← chars, closed]
    cases back : (head :: tail).reverse with
    | nil => simp at back
    | cons final others =>
      have isFinal : final = last := by simpa [back] using reversed
      have behind : (final :: others).dropWhile isWhitespace = final :: others := by
        rw [dropWhile_cons_of_neg (by simp [isFinal, lastMark])]
      rw [trim, chars, front, back, behind, ← back, reverse_reverse, ← chars, String.ofList_toList]

end Text

section Codec

variable {Event Projection Diagnostic : Type}
variable {domain : EventSourced Event Projection Diagnostic}
variable {codec : EventCodec Event} {wellFormed : Event → Prop}

variable (codec) in
def streamText (events : List Event) : String :=
  events.foldr (fun event text => codec.toJson event ++ "\n" ++ text) ""

theorem asBytes_streamText (events : List Event) :
    asBytes (streamText codec events) = eventLines codec events := by
  induction events with
  | nil => rfl
  | cons event rest ih =>
    have lineFeed : asBytes "\n" = [10] := by decide
    rw [streamText, foldr_cons, ← streamText, asBytes_append,
      asBytes_append, ih, lineFeed, eventLines, eventLines, flatMap_cons, eventLine]

section

variable (lawful : codec.Lawful wellFormed)

include lawful

theorem trim_toJson (event : Event) :
    trim (codec.toJson event) = codec.toJson event :=
  trim_of_marks (of_decide_eq_true (lawful.opened event))
    (of_decide_eq_true (lawful.closed event)) (by decide) (by decide)

theorem toJson_ne_empty (event : Event) :
    (codec.toJson event).isEmpty = false := by
  have opened := of_decide_eq_true (lawful.opened event)
  rw [Bool.eq_false_iff]
  intro empty
  rw [String.isEmpty_iff.mp empty] at opened
  cases opened

theorem lines_eventLine (event : Event) :
    lines (codec.toJson event ++ "\n") = [codec.toJson event] := by
  apply lines_singleton (lawful.oneLine event)
  rw [of_decide_eq_true (lawful.closed event)]
  decide

theorem lines_streamText (events : List Event) (rest : String) :
    lines (streamText codec events ++ rest) = events.map codec.toJson ++ lines rest := by
  induction events with
  | nil => rw [streamText, foldr_nil, String.empty_append]; rfl
  | cons event others ih =>
    rw [streamText, foldr_cons, ← streamText, String.append_assoc,
      lines_append (wholeLines_append_lineFeed _), ih, lines_eventLine lawful, map_cons]
    rfl

end

variable (domain) in
theorem replayLines_events (lawful : codec.Lawful wellFormed) {events : List Event}
    (formed : ∀ event ∈ events, wellFormed event) (totalLines : Nat) (rest : List String) :
    ∀ (index : Nat) (projection : Projection), replayLines domain codec totalLines index
          (events.map codec.toJson ++ rest) projection =
        replayLines domain codec totalLines (index + events.length) rest
          (events.foldl (applyEvent domain) projection) := by
  induction events with
  | nil =>
    intro index projection
    rfl
  | cons event others ih =>
    intro index projection
    have read := lawful.roundTrip event (formed event mem_cons_self)
    have othersFormed : ∀ other ∈ others, wellFormed other :=
      fun other member => formed other (mem_cons_of_mem _ member)
    rw [map_cons, cons_append, replayLines, trim_toJson lawful]
    simp only [toJson_ne_empty lawful, Bool.false_eq_true, if_false, read]
    rw [ih othersFormed, length_cons, foldl_cons, Nat.add_assoc, Nat.add_comm 1]

variable (domain) in
theorem replayBytes_append (lawful : codec.Lawful wellFormed) {events : List Event}
    (formed : ∀ event ∈ events, wellFormed event) (rest : List UInt8) :
    replayBytes domain codec (eventLines codec events ++ rest) = replayLines domain codec
        (events.length + (lines (fromUtf8Lossy rest)).length)
        events.length (lines (fromUtf8Lossy rest)) (replay domain events) := by
  rw [replayBytes, ← asBytes_streamText, fromUtf8Lossy_append]
  simp only [lines_streamText lawful]
  rw [replayLines_events domain lawful formed, length_append, length_map, Nat.zero_add]
  rfl

variable (domain) in
theorem replayBytes_eventLines (lawful : codec.Lawful wellFormed)
    (formed : ∀ event ∈ events, wellFormed event) :
    replayBytes domain codec (eventLines codec events) = .ok (replay domain events) := by
  have read := replayBytes_append domain lawful formed []
  rw [append_nil] at read
  exact read

theorem exists_first_malformed (refused : ¬ ∀ event ∈ events, wellFormed event) :
    ∃ before event after, events = before ++ event :: after ∧
      (∀ other ∈ before, wellFormed other) ∧ ¬ wellFormed event := by
  induction events with
  | nil =>
    exact absurd (fun _ member => absurd member not_mem_nil) refused
  | cons head tail ih =>
    by_cases headFormed : wellFormed head
    · have tailRefused : ¬ ∀ event ∈ tail, wellFormed event := by
        intro tailFormed
        exact refused (List.forall_mem_cons.mpr ⟨headFormed, tailFormed⟩)
      obtain ⟨before, event, after, split, beforeFormed, malformed⟩ := ih tailRefused
      refine ⟨head :: before, event, after, ?_, ?_, malformed⟩
      · rw [split, cons_append]
      · exact List.forall_mem_cons.mpr ⟨headFormed, beforeFormed⟩
    · exact ⟨[], head, tail, rfl, fun _ member => absurd member not_mem_nil, headFormed⟩

theorem fromJson_malformed (lawful : codec.Lawful wellFormed) (malformed : ¬ wellFormed event) :
    ∃ source, codec.fromJson (codec.toJson event) = .error source := by
  cases read : codec.fromJson (codec.toJson event) with
  | error source => exact ⟨source, rfl⟩
  | ok other =>
    have same := lawful.faithful event other read
    rw [same] at read
    exact absurd (lawful.checked _ _ read) malformed

/-- A line that the reader refuses makes the stream unreadable, whatever
follows. -/
theorem replayBytes_refused (lawful : codec.Lawful wellFormed)
    (formed : ∀ event ∈ events, wellFormed event)
    (malformed : ¬ wellFormed event) (rest : List UInt8) :
    ∃ error, replayBytes domain codec (eventLines codec events ++ (eventLine codec event ++ rest)) =
      .error error := by
  obtain ⟨source, refused⟩ := fromJson_malformed lawful malformed
  have lineFeed : asBytes "\n" = [10] := by decide
  have read : lines (fromUtf8Lossy (eventLine codec event ++ rest)) =
      codec.toJson event :: lines (fromUtf8Lossy rest) := by
    rw [eventLine, ← lineFeed, ← asBytes_append, fromUtf8Lossy_append,
      lines_append (wholeLines_append_lineFeed _), lines_eventLine lawful]
    rfl
  rw [replayBytes_append domain lawful formed, read, replayLines, trim_toJson lawful]
  simp only [toJson_ne_empty lawful, Bool.false_eq_true, if_false, refused,
    lawful.opened, lawful.closed, Bool.not_true, Bool.or_self, Bool.and_false]
  exact ⟨_, rfl⟩

theorem replayBytes_malformed (lawful : codec.Lawful wellFormed) {events : List Event}
    (formed : ∀ event ∈ events, wellFormed event) {event : Event}
    (malformed : ¬ wellFormed event) (rest : List Event) : ∃ error, replayBytes domain codec
      (eventLines codec (events ++ event :: rest)) = .error error := by
  have split : eventLines codec (events ++ event :: rest) = eventLines codec events ++
          (eventLine codec event ++ eventLines codec rest) := by
    rw [eventLines, flatMap_append, flatMap_cons]
    rfl
  rw [split]
  exact replayBytes_refused lawful formed malformed (eventLines codec rest)

variable (domain) in
/-- The numbers are those from one on. -/
def Numbered (events : List Event) : Prop :=
  events.map domain.sequence = List.range' 1 events.length

variable (domain) in
def applied (events : List Event) : Projection :=
  events.foldl (fun projection event =>
      domain.advanceSequence (domain.apply projection event) (domain.sequence event))
    domain.empty

theorem numbered_nil : Numbered domain [] :=
  rfl

theorem numbered_concat : Numbered domain (events ++ [event]) ↔ Numbered domain events ∧
      domain.sequence event = events.length + 1 := by
  rw [Numbered, Numbered, map_append, length_append,
    length_singleton, range'_concat, Nat.one_mul, map_cons, map_nil, Nat.add_comm 1]
  constructor
  · intro same
    obtain ⟨front, last⟩ := append_inj' same rfl
    exact ⟨front, List.singleton_inj.mp last⟩
  · intro parts
    rw [parts.1, parts.2]

theorem applied_concat (events : List Event) (event : Event) :
    applied domain (events ++ [event]) = domain.advanceSequence
      (domain.apply (applied domain events) event) (domain.sequence event) := by
  rw [applied, foldl_append]
  rfl

theorem sequenceOf_applied (numbered : Numbered domain events) :
    domain.sequenceOf (applied domain events) = events.length := by
  induction events using List.reverseRecOn with
  | nil => exact domain.sequenceOf_empty
  | append_singleton events event ih =>
    rw [applied_concat, domain.sequenceOf_advance,
      (numbered_concat.mp numbered).2, length_append, length_singleton]

theorem replay_numbered (numbered : Numbered domain events) :
    replay domain events = applied domain events := by
  induction events using List.reverseRecOn with
  | nil => rfl
  | append_singleton events event ih =>
    obtain ⟨front, last⟩ := numbered_concat.mp numbered
    have current := sequenceOf_applied front
    rw [replay, foldl_append, ← replay, ih front, applied_concat, foldl_cons, foldl_nil, applyEvent]
    have isNew : ¬ (domain.sequence event ≤ domain.sequenceOf (applied domain events)) := by
      omega
    simp [isNew]

theorem nextSequence_eq_ok {sequence : Nat} :
    nextSequence domain projection = .ok sequence ↔ domain.sequenceOf projection < u64Max ∧
      sequence = domain.sequenceOf projection + 1 := by
  rw [← checkedSucc_eq_some, nextSequence]
  cases checkedSucc (domain.sequenceOf projection) with
  | none => simp
  | some next => simp

variable (domain codec wellFormed) in
/-- The file holds whole lines, of events that the reader accepts, numbered
from one. -/
structure Sound (file : List UInt8) (events : List Event) : Prop where
  file_eq : file = eventLines codec events
  formed : ∀ event ∈ events, wellFormed event
  numbered : Numbered domain events

theorem sound_nil : Sound domain codec wellFormed [] [] :=
  ⟨rfl, fun _ member => absurd member not_mem_nil, numbered_nil⟩

theorem eventLines_append (first second : List Event) :
    eventLines codec (first ++ second) = eventLines codec first ++ eventLines codec second :=
  flatMap_append

namespace Sound

variable {file : List UInt8} {events : List Event}

section

variable (sound : Sound domain codec wellFormed file events)

include sound

theorem replay_eq (lawful : codec.Lawful wellFormed) :
    replayBytes domain codec file = .ok (applied domain events) := by
  rw [sound.file_eq, replayBytes_eventLines domain lawful sound.formed,
    replay_numbered sound.numbered]

theorem appendAll
    (formed : ∀ event ∈ new, wellFormed event)
    (numbered : Numbered domain (events ++ new)) :
    Sound domain codec wellFormed (file ++ eventLines codec new)
      (events ++ new) where
  file_eq := by rw [sound.file_eq, eventLines_append]
  formed := by
    intro event member
    rcases List.mem_append.mp member with before | after
    · exact sound.formed event before
    · exact formed event after
  numbered := numbered

theorem append {event : Event} (formed : wellFormed event)
    (numbered : domain.sequence event = events.length + 1) :
    Sound domain codec wellFormed (append codec file event) (events ++ [event]) := by
  have line : eventLines codec [event] = eventLine codec event := flatMap_singleton _ _
  have whole := sound.appendAll (fun other member => List.mem_singleton.mp member ▸ formed)
      (numbered_concat.mpr ⟨sound.numbered, numbered⟩)
  rw [line] at whole
  exact whole

theorem append_or_unreadable
    (lawful : codec.Lawful wellFormed) (numbered : Numbered domain (events ++ new)) :
    Sound domain codec wellFormed (file ++ eventLines codec new) (events ++ new) ∨ ∃ error,
      replayBytes domain codec (file ++ eventLines codec new) = .error error := by
  by_cases formed : ∀ event ∈ new, wellFormed event
  · exact .inl (sound.appendAll formed numbered)
  · right
    obtain ⟨before, event, after, rfl, beforeFormed, refused⟩ := exists_first_malformed formed
    have allFormed : ∀ other ∈ events ++ before, wellFormed other := by
      intro other member
      rcases List.mem_append.mp member with old | inBefore
      · exact sound.formed other old
      · exact beforeFormed other inBefore
    rw [sound.file_eq, ← eventLines_append, ← append_assoc]
    exact replayBytes_malformed lawful allFormed refused after

end

end Sound

/-! ## The strict validator accepts sound files -/

theorem splitChars_streamText (lawful : codec.Lawful wellFormed) (events : List Event) :
    splitChars (· = '\n') (streamText codec events).toList =
      events.map (fun event => (codec.toJson event).toList) ++ [[]] := by
  induction events with
  | nil => rfl
  | cons event rest ih =>
    have clean : ∀ char ∈ (codec.toJson event).toList, decide (char = '\n') = false := by
      intro char member
      simp only [decide_eq_false_iff_not]
      rintro rfl
      exact lawful.oneLine event member
    have chars : (streamText codec (event :: rest)).toList = (codec.toJson event).toList ++
            '\n' :: (streamText codec rest).toList := by
      rw [streamText, foldr_cons, ← streamText]
      simp [String.toList_append]
    rw [chars, splitChars_append (by simp), splitChars_clean clean, ih]
    rfl

theorem splitTerminator_streamText (lawful : codec.Lawful wellFormed) (events : List Event) :
    splitTerminator (streamText codec events) = events.map codec.toJson := by
  rw [splitTerminator, splitChars_streamText lawful]
  simp [String.ofList_toList]

def previousNumber (count : Nat) : Option Nat :=
  if count = 0 then none else some count

/-- Events that continue the numbers are accepted one after another. -/
theorem validateLines_events (lawful : codec.Lawful wellFormed) (events : List Event) :
    ∀ count : Nat, (∀ event ∈ events, wellFormed event) → events.map domain.sequence =
      List.range' (count + 1) events.length → count + events.length ≤ u64Max →
      validateLines domain codec count (previousNumber count) (events.map codec.toJson) =
      .ok () := by
  induction events with
  | nil =>
    intro count _ _ _
    rfl
  | cons event rest ih =>
    intro count formed numbered bounded
    rw [length_cons] at numbered bounded
    rw [map_cons, range'_succ] at numbered
    obtain ⟨number, laterNumbers⟩ := List.cons.inj numbered
    have read := lawful.roundTrip event (formed event mem_cons_self)
    have expected : expectedSequence (previousNumber count) = some (count + 1) := by
      rw [previousNumber]
      split
      · next zero =>
        rw [zero]
        rfl
      · exact checkedSucc_eq_some.mpr ⟨by omega, rfl⟩
    have later := ih (count + 1) (fun other member => formed other (mem_cons_of_mem _ member))
        laterNumbers (by omega)
    rw [map_cons, validateLines, trim_toJson lawful]
    simp only [toJson_ne_empty lawful, Bool.false_eq_true, if_false, read,
      number, expected, ne_eq, not_true_eq_false]
    exact later

theorem Sound.validates (sound : Sound domain codec wellFormed file events)
    (lawful : codec.Lawful wellFormed) (bounded : events.length ≤ u64Max) :
    validateStrictSnapshotStream domain codec file = .ok () := by
  cases events using List.reverseRecOn with
  | nil =>
    rw [sound.file_eq]
    rfl
  | append_singleton events event =>
    have bytes := sound.file_eq
    have ended : file.getLast? = some 10 := by
      rw [bytes, eventLines_append, eventLines, eventLines,
        flatMap_singleton, eventLine, ← append_assoc, getLast?_concat]
    have present : file.isEmpty = false := by
      rw [Bool.eq_false_iff]
      intro empty
      rw [List.isEmpty_iff.mp empty] at ended
      cases ended
    have text : fromUtf8 file = some (streamText codec (events ++ [event])) := by
      rw [bytes, ← asBytes_streamText, fromUtf8_asBytes]
    rw [validateStrictSnapshotStream]
    simp only [present, Bool.false_eq_true, if_false, ended, ne_eq,
      not_true_eq_false, text, splitTerminator_streamText lawful]
    exact validateLines_events lawful _ 0 sound.formed sound.numbered
        (by rw [Nat.zero_add]; exact bounded)

end Codec

end ForgeCore.EventLog
