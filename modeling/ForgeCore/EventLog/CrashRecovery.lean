import ForgeCore.EventLog.Json

/-!
# Appends that a crash cuts off

An append replays the stream, numbers its event and writes one line.  A crash
leaves the beginning of the line.  Replay skips such a line when it is visibly
cut, but the next append writes right behind it, on the same line.
-/

namespace ForgeCore.EventLog

open List Machine Text

section Run

variable {Event Projection Diagnostic : Type}
variable (domain : EventSourced Event Projection Diagnostic)
variable (codec : EventCodec Event)

/-- The event that a caller writes under the next number, and how many bytes
of its line a crash leaves, if there is one. -/
structure AppendRequest where
  make : Projection → Nat → Event
  cut : Option Nat
  numbered : ∀ projection sequence, domain.sequence (make projection sequence) = sequence

/-- What the caller of an append learns. -/
inductive AppendReport (Event : Type) where
  | acknowledged (event : Event)
  | failed (error : EventLogError)
  | crashed

/-- Replay, number and append, under the lock of the stream. -/
def appendNext (file : List UInt8) (request : AppendRequest domain) :
    List UInt8 × AppendReport Event :=
  match replayBytes domain codec file with
  | .error error => (file, .failed error)
  | .ok projection =>
    match nextSequence domain projection with
    | .error error => (file, .failed error)
    | .ok sequence =>
      let event := request.make projection sequence
      match request.cut with
      | none => (append codec file event, .acknowledged event)
      | some count => (file ++ (eventLine codec event).take count, .crashed)

/-- The file, and what was acknowledged on the way to it. -/
structure StreamHistory (Event : Type) where
  file : List UInt8
  acknowledged : List Event

def StreamHistory.start : StreamHistory Event := ⟨[], []⟩

def StreamHistory.step (history : StreamHistory Event)
    (request : AppendRequest domain) : StreamHistory Event :=
  match appendNext domain codec history.file request with
  | (file, .acknowledged event) => ⟨file, history.acknowledged ++ [event]⟩
  | (file, _) => { history with file := file }

def streamHistory (requests : List (AppendRequest domain)) : StreamHistory Event :=
  requests.foldl (StreamHistory.step domain codec) .start

/-- A replay succeeds, with every acknowledged event among those that it
applies, numbered from one. -/
def StreamHistory.Recovers (history : StreamHistory Event) : Prop :=
  ∃ events, Numbered domain events ∧ history.acknowledged.Sublist events ∧
      (replayBytes domain codec history.file = .ok (applied domain events) ∨ ∃ diagnostic,
          replayBytes domain codec history.file = .ok
              (domain.recordDiagnostic (applied domain events) diagnostic))

/-- What a crash leaves of an event is the whole object or visibly cut. -/
def VisiblyCut (event : Event) (count : Nat) : Prop :=
  count < (asBytes (codec.toJson event)).length → endsWithChar '\x7d' (trim (fromUtf8Lossy
          ((asBytes (codec.toJson event)).take count))) = false

/-- The append begins on a line of its own, its event can be read back, and a
crash cuts it visibly. -/
def AppendRequest.Meets (wellFormed : Event → Prop) (file : List UInt8)
    (request : AppendRequest domain) : Prop :=
  (file = [] ∨ file.getLast? = some 10) ∧ ∀ projection sequence,
      replayBytes domain codec file = .ok projection →
        nextSequence domain projection = .ok sequence →
          wellFormed (request.make projection sequence) ∧ ∀ count, request.cut = some count →
              VisiblyCut codec (request.make projection sequence) count

end Run

variable {text : String}

/-! ## A line that is cut -/

theorem trim_head (opened : text.toList.head? = some first) (mark : isWhitespace first = false) :
    (trim text).toList.head? = some first := by
  cases chars : text.toList with
  | nil =>
    rw [chars] at opened
    cases opened
  | cons head tail =>
    have isHead : head = first := by simpa [chars] using opened
    have front : (head :: tail).dropWhile isWhitespace = head :: tail :=
      dropWhile_cons_of_neg (by simp [isHead, mark])
    have kept : (trim text).toList = (head :: tail).rdropWhile isWhitespace := by
      rw [trim, String.toList_ofList, chars, front, List.rdropWhile]
    have present : (head :: tail).rdropWhile isWhitespace ≠ [] := by
      rw [ne_eq, rdropWhile_eq_nil_iff]
      intro blank
      have headBlank := blank head mem_cons_self
      rw [isHead, mark] at headBlank
      cases headBlank
    obtain ⟨rest, whole⟩ := rdropWhile_prefix isWhitespace (head :: tail)
    rw [kept]
    cases trimmed : (head :: tail).rdropWhile isWhitespace with
    | nil => exact absurd trimmed present
    | cons newHead others =>
      rw [trimmed, cons_append] at whole
      rw [head?_cons, (List.cons.inj whole).1, isHead]

theorem lines_unterminated (present : text ≠ "") (oneLine : '\n' ∉ text.toList) :
    lines text = [text] := by
  have clean : ∀ char ∈ text.toList, decide (char = '\n') = false := by
    intro char member
    simp only [decide_eq_false_iff_not]
    rintro rfl
    exact oneLine member
  have nonempty : text.toList.isEmpty = false := by
    rw [Bool.eq_false_iff, ne_eq, List.isEmpty_iff]
    intro empty
    exact present (String.toList_inj.mp empty)
  rw [lines, splitChars_clean clean, linesOfParts, nonempty]
  simp

section Recovery

variable {Event Projection Diagnostic : Type}
variable {domain : EventSourced Event Projection Diagnostic}
variable {codec : EventCodec Event} {wellFormed : Event → Prop}

variable {count : Nat} {events : List Event} {event : Event} {history : StreamHistory Event}

/-- The beginning of an object is read as one line that opens it. -/
theorem lines_cut
    (lawful : codec.Lawful wellFormed) (event : Event)
    (positive : 0 < count) :
    let line := fromUtf8Lossy ((asBytes (codec.toJson event)).take count)
    lines line = [line] ∧ startsWithChar '\x7b' (trim line) = true := by
  intro line
  have opened := of_decide_eq_true (lawful.opened event)
  obtain ⟨rest, isText⟩ : ∃ rest, codec.toJson event = "\x7b" ++ rest := by
    obtain ⟨tail, chars⟩ := List.head?_eq_some_iff.mp opened
    refine ⟨String.ofList tail, String.toList_inj.mp ?_⟩
    simp [chars]
  have brace : asBytes "\x7b" = [123] := by decide
  obtain ⟨less, rfl⟩ : ∃ less, count = less + 1 := ⟨count - 1, by omega⟩
  have isLine : line = "\x7b" ++ fromUtf8Lossy ((asBytes rest).take less) := by
    simp only [line]
    rw [isText, asBytes_append, brace, singleton_append,
      take_succ_cons, ← singleton_append, ← brace, fromUtf8Lossy_append]
  have lineOpened : line.toList.head? = some '\x7b' := by
    rw [isLine, String.toList_append]
    rfl
  constructor
  · apply lines_unterminated
    · intro empty
      rw [empty] at lineOpened
      cases lineOpened
    · intro member
      have inBytes := lineFeed_mem_fromUtf8Lossy member
      have inText := lineFeed_mem_asBytes.mp (mem_of_mem_take inBytes)
      exact lawful.oneLine event inText
  · exact decide_eq_true (trim_head lineOpened (by decide))

variable (domain) in
/-- A line that is visibly cut is skipped. -/
theorem replayBytes_cut
    (lawful : codec.Lawful wellFormed) (formed : ∀ event ∈ events, wellFormed event)
    (positive : 0 < count) (inside : count < (asBytes (codec.toJson event)).length)
    (visible : VisiblyCut codec event count) :
    ∃ diagnostic, replayBytes domain codec (eventLines codec events ++
      (asBytes (codec.toJson event)).take count) = .ok
      (domain.recordDiagnostic (replay domain events) diagnostic) := by
  have isOpen := visible inside
  obtain ⟨oneLine, opened⟩ := lines_cut lawful event positive
  rw [replayBytes_append domain lawful formed, oneLine]
  generalize fromUtf8Lossy ((asBytes (codec.toJson event)).take count) = line at isOpen opened
  have present : (trim line).isEmpty = false := by
    rw [Bool.eq_false_iff]
    intro empty
    rw [String.isEmpty_iff.mp empty] at opened
    cases opened
  have refused : ∃ source, codec.fromJson (trim line) = .error source := by
    cases read : codec.fromJson (trim line) with
    | error source => exact ⟨source, rfl⟩
    | ok other =>
      have isClosed := lawful.object line other read opened
      rw [isOpen] at isClosed
      cases isClosed
  obtain ⟨source, refused⟩ := refused
  refine ⟨domain.diagnosticTornFinalLineSkipped (events.length + 1) source, ?_⟩
  simp only [replayLines, present, Bool.false_eq_true, if_false, refused,
    isOpen, Bool.not_false, Bool.or_true, length_singleton, le_refl,
    decide_true, Bool.and_self, if_true]

variable (domain) in
theorem replayBytes_unterminated
    (lawful : codec.Lawful wellFormed) (formed : ∀ other ∈ events ++ [event], wellFormed other) :
    replayBytes domain codec (eventLines codec events ++ asBytes (codec.toJson event)) =
      .ok (replay domain (events ++ [event])) := by
  have read := lawful.roundTrip event (formed event (by simp))
  have present : codec.toJson event ≠ "" := by
    intro empty
    have nonempty := toJson_ne_empty lawful event
    rw [empty] at nonempty
    cases nonempty
  rw [replayBytes_append domain lawful
      (fun other member => formed other (mem_append_left _ member)), fromUtf8Lossy_asBytes,
    lines_unterminated present (lawful.oneLine event), replayLines, trim_toJson lawful]
  simp only [toJson_ne_empty lawful, Bool.false_eq_true, if_false, read, replayLines]
  rw [replay, replay, foldl_append]
  rfl

/-! ## Runs that never write behind a cut line -/

/-- The file holds whole lines only, with every acknowledged event. -/
structure StreamHistory.Clean (domain : EventSourced Event Projection Diagnostic)
    (codec : EventCodec Event) (wellFormed : Event → Prop)
    (history : StreamHistory Event) (events : List Event) : Prop where
  sound : Sound domain codec wellFormed history.file events
  acknowledged : history.acknowledged.Sublist events

theorem StreamHistory.Clean.recovers
    (lawful : codec.Lawful wellFormed) (clean : history.Clean domain codec wellFormed events) :
    history.Recovers domain codec :=
  ⟨events, clean.sound.numbered, clean.acknowledged, .inl (clean.sound.replay_eq lawful)⟩

/-- Whole lines, or a last line that no append may follow. -/
def StreamHistory.Settled (domain : EventSourced Event Projection Diagnostic)
    (codec : EventCodec Event) (wellFormed : Event → Prop) (history : StreamHistory Event) : Prop :=
  (∃ events, history.Clean domain codec wellFormed events) ∨ (history.Recovers domain codec ∧
      ¬ (history.file = [] ∨ history.file.getLast? = some 10))

theorem not_ended_of_cut
    (lawful : codec.Lawful wellFormed) (front : List UInt8) (event : Event)
    (positive : 0 < count) :
    let file := front ++ (asBytes (codec.toJson event)).take count
    ¬ (file = [] ∨ file.getLast? = some 10) := by
  intro file
  have present : (asBytes (codec.toJson event)).take count ≠ [] := by
    intro empty
    obtain ⟨-, opened⟩ := lines_cut lawful event positive
    rw [empty] at opened
    cases opened
  have noLineFeed : (10 : UInt8) ∉ (asBytes (codec.toJson event)).take count := by
    intro member
    exact lawful.oneLine event (lineFeed_mem_asBytes.mp (mem_of_mem_take member))
  intro ended
  rcases ended with empty | last
  · exact present (List.append_eq_nil_iff.mp empty).2
  · rw [getLast?_append_of_ne_nil _ present] at last
    exact noLineFeed (mem_of_getLast? last)

theorem StreamHistory.Clean.cut
    (lawful : codec.Lawful wellFormed)
    (clean : history.Clean domain codec wellFormed events)
    (formed : wellFormed event)
    (numbered : domain.sequence event = events.length + 1)
    (visible : VisiblyCut codec event count) :
    StreamHistory.Settled domain codec wellFormed
      { history with
        file := history.file ++ (eventLine codec event).take count } := by
  have appended := clean.sound.append formed numbered
  have kept := clean.acknowledged.trans (sublist_append_left events [event])
  by_cases whole : (eventLine codec event).length ≤ count
  · rw [take_of_length_le whole]
    exact .inl ⟨events ++ [event], appended, kept⟩
  · rw [eventLine, length_append, length_singleton] at whole
    have inside : count ≤ (asBytes (codec.toJson event)).length := by omega
    have isCut : (eventLine codec event).take count = (asBytes (codec.toJson event)).take count :=
      take_append_of_le_length inside
    rw [isCut]
    by_cases none : count = 0
    · rw [none, take_zero, append_nil]
      exact .inl ⟨events, clean.sound, clean.acknowledged⟩
    · have positive : 0 < count := Nat.pos_of_ne_zero none
      refine .inr ⟨?_, not_ended_of_cut lawful _ event positive⟩
      rw [clean.sound.file_eq]
      by_cases proper : count < (asBytes (codec.toJson event)).length
      · obtain ⟨diagnostic, skipped⟩ :=
          replayBytes_cut domain lawful clean.sound.formed positive proper visible
        rw [replay_numbered clean.sound.numbered] at skipped
        exact ⟨events, clean.sound.numbered, clean.acknowledged, .inr ⟨diagnostic, skipped⟩⟩
      · have read := replayBytes_unterminated domain lawful appended.formed
        rw [replay_numbered appended.numbered] at read
        refine ⟨events ++ [event], appended.numbered, kept, .inl ?_⟩
        simp only
        rw [take_of_length_le (by omega), read]

theorem StreamHistory.Settled.step
    (lawful : codec.Lawful wellFormed) (settled : history.Settled domain codec wellFormed)
    (meets : request.Meets domain codec wellFormed history.file) :
    (history.step domain codec request).Settled domain codec wellFormed := by
  obtain ⟨onOwnLine, formed⟩ := meets
  obtain ⟨events, clean⟩ | ⟨-, stuck⟩ := settled
  · have replayed := clean.sound.replay_eq lawful
    rw [StreamHistory.step, appendNext]
    cases next : nextSequence domain (applied domain events) with
    | error error =>
      simp only [replayed, next]
      exact .inl ⟨events, clean.sound, clean.acknowledged⟩
    | ok sequence =>
      obtain ⟨eventFormed, visible⟩ := formed _ _ replayed next
      have number := (nextSequence_eq_ok.mp next).2
      rw [sequenceOf_applied clean.sound.numbered] at number
      have numbered := (request.numbered (applied domain events) sequence).trans number
      cases cut : request.cut with
      | some count =>
        simp only [replayed, next]
        exact clean.cut lawful eventFormed numbered (visible count cut)
      | none =>
        simp only [replayed, next]
        refine .inl ⟨_, clean.sound.append eventFormed numbered, ?_⟩
        exact clean.acknowledged.append (List.Sublist.refl _)
  · exact absurd onOwnLine stuck

end Recovery

/-- In a run whose appends each begin on a line of their own, write an event
that can be read back, and are cut visibly, every replay succeeds and applies
every acknowledged event, numbered from one. -/
theorem acknowledged_events_recover
    {Event Projection Diagnostic : Type}
    (domain : EventSourced Event Projection Diagnostic)
    (codec : EventCodec Event)
    (wellFormed : Event → Prop)
    (lawful : codec.Lawful wellFormed)
    (requests : List (AppendRequest domain))
    (meets : ∀ (before : List (AppendRequest domain))
      (request : AppendRequest domain)
      (after : List (AppendRequest domain)),
      requests = before ++ request :: after →
      request.Meets domain codec wellFormed (streamHistory domain codec before).file) :
    (streamHistory domain codec requests).Recovers domain codec := by
  have settled : (streamHistory domain codec requests).Settled domain codec wellFormed := by
    induction requests using List.reverseRecOn with
    | nil =>
      exact .inl ⟨[], sound_nil, List.Sublist.refl _⟩
    | append_singleton requests request ih =>
      rw [streamHistory, foldl_append, ← streamHistory]
      apply StreamHistory.Settled.step lawful
      · apply ih
        intro before other after split
        apply meets before other (after ++ [request])
        rw [split, append_assoc, cons_append]
      · exact meets requests request [] rfl
  obtain ⟨events, clean⟩ | ⟨recovers, -⟩ := settled
  · exact clean.recovers lawful
  · exact recovers

/-! ## A line that two appends share -/

namespace Sample

def request (cut : Option Nat) : AppendRequest memoryDomain where
  make := fun _ sequence => .admitted sequence 0 entry
  cut := cut
  numbered := fun _ _ => rfl

theorem entry_formed (sequence : Nat) : (MemoryEvent.admitted sequence 0 entry).WellFormed := by
  have bound : entry.confidence ≤ maxConfidence := by decide
  exact bound

theorem next_first (fresh : projection.sequence = 0) :
    nextSequence memoryDomain projection = .ok 1 := by
  have current : memoryDomain.sequenceOf projection = 0 := fresh
  rw [nextSequence_eq_ok, current]
  decide

theorem next_empty : nextSequence memoryDomain memoryDomain.empty = .ok 1 :=
  next_first rfl

theorem next_skipped (diagnostic : ProjectionDiagnostic) :
    nextSequence memoryDomain (memoryDomain.recordDiagnostic memoryDomain.empty diagnostic) =
      .ok 1 :=
  next_first rfl

theorem take_one (event : MemoryEvent) : (asBytes (memoryCodec.toJson event)).take 1 = [123] ∧
      1 < (asBytes (memoryCodec.toJson event)).length := by
  obtain ⟨field, fields, isObject⟩ := MemoryEvent.toJson_objects event
  obtain ⟨rest, text⟩ := render_object_cons field fields
  have brace : String.utf8EncodeChar '\x7b' = [123] := by decide
  have quote : String.utf8EncodeChar '\x22' = [34] := by decide
  simp [memoryCodec, objectCodec, valueText, asBytes, isObject, text, brace, quote]

theorem visiblyCut_one (event : MemoryEvent) : VisiblyCut memoryCodec event 1 := by
  intro _
  rw [(take_one event).1]
  have brace : asBytes "\x7b" = [123] := by decide
  rw [← brace, fromUtf8Lossy_asBytes]
  decide

theorem replay_empty : replayBytes memoryDomain memoryCodec [] = .ok memoryDomain.empty :=
  replayBytes_eventLines memoryDomain memoryCodec_lawful
    (fun _ member => absurd member not_mem_nil)

theorem replay_brace : ∃ diagnostic, replayBytes memoryDomain memoryCodec [123] =
      .ok (memoryDomain.recordDiagnostic memoryDomain.empty diagnostic) := by
  have cut := take_one (.admitted 1 0 entry)
  obtain ⟨diagnostic, skipped⟩ := replayBytes_cut memoryDomain memoryCodec_lawful
      (fun _ member => absurd member not_mem_nil) Nat.one_pos cut.2 (visiblyCut_one _)
  rw [cut.1] at skipped
  exact ⟨diagnostic, skipped⟩

/-- An event behind a lone brace makes a line that is no event. -/
theorem replay_glued : ∃ error, replayBytes memoryDomain memoryCodec
      ([123] ++ eventLine memoryCodec (.admitted 1 0 entry)) = .error error := by
  have lawful := memoryCodec_lawful
  have brace : asBytes "\x7b" = [123] := by decide
  have lineFeed : asBytes "\n" = [10] := by decide
  generalize MemoryEvent.admitted 1 0 entry = event
  obtain ⟨source, refused⟩ : ∃ source, memoryCodec.fromJson ("\x7b" ++ memoryCodec.toJson event) =
          .error source := fromJson_glued MemoryEvent.toJson_objects event
  have closed := of_decide_eq_true (lawful.closed event)
  have chars : ("\x7b" ++ memoryCodec.toJson event).toList =
        '\x7b' :: (memoryCodec.toJson event).toList := by
    simp
  have opened : ("\x7b" ++ memoryCodec.toJson event).toList.head? = some '\x7b' := by
    rw [chars]
    rfl
  have gluedClosed : ("\x7b" ++ memoryCodec.toJson event).toList.getLast? = some '\x7d' := by
    rw [chars, getLast?_cons, closed]
    rfl
  have oneLine : '\n' ∉ ("\x7b" ++ memoryCodec.toJson event).toList := by
    rw [chars, mem_cons, not_or]
    exact ⟨by decide, lawful.oneLine event⟩
  have trimmed := trim_of_marks opened gluedClosed (by decide) (by decide)
  have present : ("\x7b" ++ memoryCodec.toJson event).isEmpty = false := by
    rw [Bool.eq_false_iff]
    intro empty
    rw [String.isEmpty_iff.mp empty] at opened
    cases opened
  have bytes : [123] ++ eventLine memoryCodec event =
        asBytes ("\x7b" ++ memoryCodec.toJson event ++ "\n") := by
    rw [asBytes_append, asBytes_append, brace, lineFeed, eventLine, append_assoc]
  rw [bytes, replayBytes, fromUtf8Lossy_asBytes,
    lines_singleton oneLine (by rw [gluedClosed]; decide)]
  simp only [replayLines, trimmed, present, refused, startsWithChar,
    endsWithChar, opened, gluedClosed, Bool.false_eq_true, if_false,
    decide_true, Bool.not_true, Bool.or_self, Bool.and_false]
  exact ⟨_, rfl⟩

end Sample

/-- The first admission is cut after one byte, the second is acknowledged:
the stream cannot be replayed any more. -/
theorem append_behind_cut_is_lost :
    ¬ (streamHistory memoryDomain memoryCodec
      [Sample.request (some 1), Sample.request none]).Recovers memoryDomain memoryCodec := by
  obtain ⟨diagnostic, brace⟩ := Sample.replay_brace
  obtain ⟨error, glued⟩ := Sample.replay_glued
  have first : StreamHistory.step memoryDomain memoryCodec .start
          (Sample.request (some 1)) = ⟨[123], []⟩ := by
    have cut := Sample.take_one (.admitted 1 0 Sample.entry)
    have line : (eventLine memoryCodec (.admitted 1 0 Sample.entry)).take 1 = [123] := by
      rw [eventLine, take_append_of_le_length cut.2.le, cut.1]
    simp only [StreamHistory.step, appendNext, StreamHistory.start,
      Sample.replay_empty, Sample.next_empty, Sample.request, line, nil_append]
  have second : (StreamHistory.step memoryDomain memoryCodec ⟨[123], []⟩
          (Sample.request none)).file =
        [123] ++ eventLine memoryCodec (.admitted 1 0 Sample.entry) := by
    simp only [StreamHistory.step, appendNext, brace, Sample.next_skipped, Sample.request, append]
  rintro ⟨events, -, -, replayed⟩
  rw [streamHistory, foldl_cons, foldl_cons, foldl_nil, first, second, glued] at replayed
  rcases replayed with whole | ⟨_, cut⟩
  · cases whole
  · cases cut

/-- An admission that is acknowledged and one that is cut after a byte. -/
theorem acknowledged_events_recover_cut_last :
    (streamHistory memoryDomain memoryCodec
      [Sample.request none, Sample.request (some 1)]).Recovers memoryDomain memoryCodec := by
  apply acknowledged_events_recover memoryDomain memoryCodec
    MemoryEvent.WellFormed memoryCodec_lawful
  intro before request after split
  match before with
  | [] =>
    obtain ⟨rfl, -⟩ := List.cons.inj split
    refine ⟨.inl rfl, ?_⟩
    intro projection sequence _ _
    refine ⟨Sample.entry_formed sequence, ?_⟩
    intro count isCut
    cases isCut
  | [only] =>
    obtain ⟨rfl, later⟩ := List.cons.inj split
    obtain ⟨rfl, -⟩ := List.cons.inj later
    refine ⟨.inr ?_, ?_⟩
    · simp only [streamHistory, foldl_cons, foldl_nil,
        StreamHistory.step, appendNext, StreamHistory.start,
        Sample.replay_empty, Sample.next_empty, Sample.request, append, eventLine, ← append_assoc]
      exact getLast?_concat
    · intro projection sequence _ _
      refine ⟨Sample.entry_formed sequence, ?_⟩
      intro count isCut
      cases isCut
      exact Sample.visiblyCut_one _
  | _ :: _ :: _ =>
    have lengths := congrArg List.length split
    simp at lengths

end ForgeCore.EventLog
