import ForgeCore.EventLog.CrashRecovery

/-!
# Replay of a stream that is cut anywhere

A stream of whole lines is cut after any number of bytes.  Replay tells a cut
line by its first and last character, so it goes wrong exactly where the cut
leaves a line that looks closed, or where the reader refuses a whole event.
-/

namespace ForgeCore.EventLog

open List Machine Text

section Cut

variable {Event Projection Diagnostic : Type}
variable (domain : EventSourced Event Projection Diagnostic)
variable (codec : EventCodec Event)

/-- The events whose lines are complete in the first bytes, and the event that
the cut falls into with the bytes that are left for it. -/
def cutAt : Nat → List Event → List Event × Option (Event × Nat)
  | _, [] => ([], none)
  | count, event :: rest =>
    if (eventLine codec event).length ≤ count then
      let later := cutAt (count - (eventLine codec event).length) rest
      (event :: later.1, later.2)
    else
      ([], some (event, count))

/-- The cut only takes the line feed of the event. -/
def MissesLineFeed (event : Event) (left : Nat) : Prop :=
  left = (asBytes (codec.toJson event)).length

/-- A replay of the first bytes succeeds with exactly the complete events.  A
skipped line leaves its diagnostic, and an event that only misses its line
feed may count. -/
def ToleratesCut (events : List Event) (count : Nat) : Prop :=
  ∃ projection, replayBytes domain codec ((eventLines codec events).take count) = .ok projection ∧
      (projection = replay domain (cutAt codec count events).1 ∨ (∃ diagnostic, projection =
            domain.recordDiagnostic (replay domain (cutAt codec count events).1) diagnostic) ∨
        ∃ event left, (cutAt codec count events).2 = some (event, left) ∧
            MissesLineFeed codec event left ∧ projection =
              replay domain ((cutAt codec count events).1 ++ [event]))

/-- The reader accepts the complete events, and the event that the cut falls
into is visibly cut or can be read. -/
def CutsVisibly (wellFormed : Event → Prop) (events : List Event) (count : Nat) : Prop :=
  (∀ event ∈ (cutAt codec count events).1, wellFormed event) ∧
    ∀ event left, (cutAt codec count events).2 = some (event, left) → VisiblyCut codec event left ∧
        (MissesLineFeed codec event left → wellFormed event)

/-- No proper beginning of an event is read as an event. -/
def EventCodec.RefusesBeginnings : Prop :=
  ∀ event text, text.toList <+: (codec.toJson event).toList → text ≠ codec.toJson event →
      ∃ source, codec.fromJson text = .error source

variable {domain codec} {wellFormed : Event → Prop}

theorem take_eventLines (events : List Event) (count : Nat) :
    (eventLines codec events).take count = eventLines codec (cutAt codec count events).1 ++
        (match (cutAt codec count events).2 with
          | none => []
          | some (event, left) => (eventLine codec event).take left) := by
  induction events generalizing count with
  | nil => simp [eventLines, cutAt]
  | cons event rest ih =>
    have split : eventLines codec (event :: rest) =
        eventLine codec event ++ eventLines codec rest := flatMap_cons
    rw [split, cutAt]
    by_cases complete : (eventLine codec event).length ≤ count
    · rw [if_pos complete, take_append, take_of_length_le complete, ih, ← append_assoc]
      rfl
    · rw [if_neg complete, take_append_of_le_length (Nat.le_of_not_le complete)]
      rfl

variable {count : Nat}

theorem cutAt_singleton (inside : count ≤ (asBytes (codec.toJson event)).length) :
    cutAt codec count [event] = ([], some (event, count)) := by
  rw [cutAt, if_neg]
  rw [eventLine, length_append, length_singleton]
  omega

theorem left_of_cutAt (cut : (cutAt codec count events).2 = some (event, left)) :
    left ≤ (asBytes (codec.toJson event)).length := by
  induction events generalizing count with
  | nil => cases cut
  | cons first rest ih =>
    rw [cutAt] at cut
    by_cases complete : (eventLine codec first).length ≤ count
    · rw [if_pos complete] at cut
      exact ih cut
    · rw [if_neg complete] at cut
      cases cut
      rw [eventLine, length_append, length_singleton] at complete
      omega

/-! ## Lines that make replay fail -/

variable (domain) in
theorem replayBytes_looksClosed (lawful : codec.Lawful wellFormed)
    (formed : ∀ event ∈ events, wellFormed event) (bytes : List UInt8) (oneLine :
      lines (fromUtf8Lossy bytes) = [fromUtf8Lossy bytes])
    (opened : startsWithChar '\x7b' (trim (fromUtf8Lossy bytes)) = true)
    (closed : endsWithChar '\x7d' (trim (fromUtf8Lossy bytes)) = true) (refused :
      codec.fromJson (trim (fromUtf8Lossy bytes)) = .error source) :
    ∃ error, replayBytes domain codec (eventLines codec events ++ bytes) = .error error := by
  have present : (trim (fromUtf8Lossy bytes)).isEmpty = false := by
    rw [Bool.eq_false_iff]
    intro empty
    rw [String.isEmpty_iff.mp empty] at opened
    cases opened
  rw [replayBytes_append domain lawful formed, oneLine, replayLines]
  simp only [present, Bool.false_eq_true, if_false, refused, opened, closed,
    Bool.not_true, Bool.or_self, Bool.and_false]
  exact ⟨_, rfl⟩

theorem trim_isPrefix
    (opened : text.toList.head? = some first) (mark : isWhitespace first = false) :
    (trim text).toList <+: text.toList := by
  obtain ⟨rest, chars⟩ := List.head?_eq_some_iff.mp opened
  have front : text.toList.dropWhile isWhitespace = text.toList := by
    rw [chars]
    exact dropWhile_cons_of_neg (by simp [mark])
  rw [trim, String.toList_ofList, front]
  exact rdropWhile_prefix isWhitespace text.toList

theorem trim_getLast (ended : text.toList.getLast? = some last) (mark : isWhitespace last = false) :
    (trim text).toList.getLast? = some last := by
  obtain ⟨front, chars⟩ := List.getLast?_eq_some_iff.mp ended
  have kept : ∃ others, text.toList.dropWhile isWhitespace = others ++ [last] := by
    rw [chars, dropWhile_append]
    split
    · refine ⟨[], ?_⟩
      rw [dropWhile_cons_of_neg (by simp [mark]), nil_append]
    · exact ⟨_, rfl⟩
  obtain ⟨others, kept⟩ := kept
  rw [trim, String.toList_ofList, kept, reverse_concat,
    dropWhile_cons_of_neg (by simp [mark]), getLast?_reverse, head?_cons]

/-- What looks closed is a beginning of the event without replacements. -/
theorem looksClosed_isPrefix (lawful : codec.Lawful wellFormed)
    (inside : count < (asBytes (codec.toJson event)).length) (closed : endsWithChar '\x7d' (trim
      (fromUtf8Lossy ((asBytes (codec.toJson event)).take count))) = true) :
    (trim (fromUtf8Lossy ((asBytes (codec.toJson event)).take count))).toList <+:
      (codec.toJson event).toList ∧ trim
      (fromUtf8Lossy ((asBytes (codec.toJson event)).take count)) ≠ codec.toJson event := by
  obtain ⟨before, after, marks, split, read, replaced, proper⟩ :=
    fromUtf8Lossy_take (codec.toJson event) count
  have remains := proper inside
  generalize fromUtf8Lossy ((asBytes (codec.toJson event)).take count) = line at read closed
  have closed := of_decide_eq_true closed
  have noMarks : marks = [] := by
    cases marks using List.reverseRecOn with
    | nil => rfl
    | append_singleton others mark =>
      exfalso
      have isMark := replaced mark (by simp)
      have ended : line.toList.getLast? = some (Char.ofNat 0xFFFD) := by
        rw [read, ← append_assoc, getLast?_concat, isMark]
      rw [trim_getLast ended (by decide)] at closed
      exact absurd (Option.some.inj closed) (by decide)
  rw [noMarks, append_nil] at read
  have begins : line.toList <+: (codec.toJson event).toList := by
    rw [split, read]
    exact prefix_append before after
  have opened : line.toList.head? = some '\x7b' := by
    obtain ⟨rest, whole⟩ := begins
    have eventOpened := of_decide_eq_true (lawful.opened event)
    cases chars : line.toList with
    | nil =>
      rw [trim, chars] at closed
      cases closed
    | cons head tail =>
      rw [← whole, chars] at eventOpened
      exact eventOpened
  refine ⟨(trim_isPrefix opened (by decide)).trans begins, ?_⟩
  intro same
  have shorter := (trim_isPrefix opened (by decide)).length_le
  rw [same, split, read, length_append] at shorter
  have positive := List.length_pos_iff.mpr remains
  omega

theorem cutsVisibly_of_toleratesCut
    (lawful : codec.Lawful wellFormed) (refusing : codec.RefusesBeginnings)
    (tolerates : ToleratesCut domain codec events count) :
    CutsVisibly codec wellFormed events count := by
  obtain ⟨projection, replayed, -⟩ := tolerates
  rw [take_eventLines] at replayed
  have formed : ∀ event ∈ (cutAt codec count events).1, wellFormed event := by
    by_contra refused
    obtain ⟨before, event, after, split, beforeFormed, malformed⟩ := exists_first_malformed refused
    have bytes : eventLines codec (before ++ event :: after) = eventLines codec before ++
          (eventLine codec event ++ eventLines codec after) := by
      rw [eventLines, flatMap_append, flatMap_cons]
      rfl
    rw [split, bytes, append_assoc, append_assoc] at replayed
    obtain ⟨error, failed⟩ := replayBytes_refused lawful beforeFormed malformed _
    rw [failed] at replayed
    cases replayed
  refine ⟨formed, ?_⟩
  intro event left cut
  have bound := left_of_cutAt cut
  rw [cut] at replayed
  dsimp only at replayed
  rw [eventLine, take_append_of_le_length bound] at replayed
  constructor
  · intro inside
    by_contra looksClosed
    rw [Bool.not_eq_false] at looksClosed
    have positive : 0 < left := by
      by_contra zero
      rw [Nat.eq_zero_of_not_pos zero, take_zero, fromUtf8Lossy_nil] at looksClosed
      cases looksClosed
    obtain ⟨oneLine, opened⟩ := lines_cut lawful event positive
    obtain ⟨begins, proper⟩ := looksClosed_isPrefix lawful inside looksClosed
    obtain ⟨source, refused⟩ := refusing event _ begins proper
    obtain ⟨error, failed⟩ := replayBytes_looksClosed domain lawful formed _ oneLine opened
        looksClosed refused
    rw [failed] at replayed
    cases replayed
  · intro missing
    by_contra malformed
    obtain ⟨source, refused⟩ := fromJson_malformed lawful malformed
    have present : codec.toJson event ≠ "" := by
      intro empty
      have nonempty := toJson_ne_empty lawful event
      rw [empty] at nonempty
      cases nonempty
    have read : fromUtf8Lossy ((asBytes (codec.toJson event)).take left) = codec.toJson event := by
      rw [missing, take_length, fromUtf8Lossy_asBytes]
    obtain ⟨error, failed⟩ := replayBytes_looksClosed domain lawful formed
        ((asBytes (codec.toJson event)).take left)
        (by rw [read]; exact lines_unterminated present (lawful.oneLine event))
        (by rw [read, trim_toJson lawful]; exact lawful.opened event)
        (by rw [read, trim_toJson lawful]; exact lawful.closed event)
        (by rw [read, trim_toJson lawful]; exact refused)
    rw [failed] at replayed
    cases replayed

theorem toleratesCut_of_cutsVisibly (lawful : codec.Lawful wellFormed)
    (visibly : CutsVisibly codec wellFormed events count) :
    ToleratesCut domain codec events count := by
  obtain ⟨formed, cutVisibly⟩ := visibly
  have whole := replayBytes_eventLines domain lawful formed
  rw [ToleratesCut, take_eventLines]
  cases cut : (cutAt codec count events).2 with
  | none =>
    rw [append_nil]
    exact ⟨_, whole, .inl rfl⟩
  | some pair =>
    obtain ⟨event, left⟩ := pair
    have bound := left_of_cutAt cut
    obtain ⟨visible, readable⟩ := cutVisibly event left cut
    dsimp only
    rw [eventLine, take_append_of_le_length bound]
    rcases Nat.eq_zero_or_pos left with rfl | positive
    · rw [take_zero, append_nil]
      exact ⟨_, whole, .inl rfl⟩
    rcases Nat.lt_or_eq_of_le bound with inside | missing
    · obtain ⟨diagnostic, skipped⟩ := replayBytes_cut domain lawful formed positive inside visible
      exact ⟨_, skipped, .inr (.inl ⟨diagnostic, rfl⟩)⟩
    · rw [missing, take_length]
      have allFormed : ∀ other ∈ (cutAt codec count events).1 ++ [event], wellFormed other := by
        intro other member
        rcases List.mem_append.mp member with complete | last
        · exact formed other complete
        · rw [List.mem_singleton.mp last]
          exact readable missing
      exact ⟨_, replayBytes_unterminated domain lawful allFormed,
          .inr (.inr ⟨event, _, rfl, rfl, rfl⟩)⟩

/-- A log that is cut after some bytes replays to its complete events exactly
when the reader accepts these and the event at the cut is visibly cut or can
be read. -/
theorem torn_tail_tolerated_iff_visibly_cut
    (domain : EventSourced Event Projection Diagnostic)
    (codec : EventCodec Event)
    (wellFormed : Event → Prop)
    (lawful : codec.Lawful wellFormed)
    (refusing : codec.RefusesBeginnings)
    (events : List Event)
    (count : Nat) :
    ToleratesCut domain codec events count ↔ CutsVisibly codec wellFormed events count :=
  ⟨cutsVisibly_of_toleratesCut lawful refusing, toleratesCut_of_cutsVisibly lawful⟩

end Cut

variable {Event : Type} {toValue : Event → Json} {wellFormed : Event → Prop}

/-! ## Events that are written as objects -/

theorem objectCodec_refusesBeginnings (objects : Objects toValue) :
    (objectCodec toValue wellFormed).RefusesBeginnings := by
  intro event text begins proper
  cases read : (objectCodec toValue wellFormed).fromJson text with
  | error source => exact ⟨source, rfl⟩
  | ok other =>
    exfalso
    obtain ⟨rest, whole⟩ := begins
    have written := (fromJson_eq_ok read).2
    obtain ⟨field, fields, isObject⟩ := objects event
    obtain ⟨otherField, otherFields, otherObject⟩ := objects other
    have same : (Json.object (otherField :: otherFields)).render ++ rest =
          (Json.object (field :: fields)).render ++ [] := by
      rw [append_nil, ← isObject, ← otherObject]
      simpa only [← written, objectCodec, valueText, String.toList_ofList] using whole
    obtain ⟨-, nothing⟩ := Json.render_object_append_inj same
    apply proper
    rw [nothing, append_nil] at whole
    exact String.toList_inj.mp whole

/-- An event is written as an object in an object, and still looks closed
without its last byte. -/
theorem looksClosed_variant (nested : toValue event = variantJson name fields) :
    ¬ VisiblyCut (objectCodec toValue wellFormed) event
      ((asBytes ((objectCodec toValue wellFormed).toJson event)).length - 1) := by
  obtain ⟨front, inner⟩ : ∃ front, (variantJson name fields).render =
          (front ++ ['\x7d']) ++ ['\x7d'] := by
    have closed := Json.getLast?_render_object fields
    obtain ⟨inside, chars⟩ := List.getLast?_eq_some_iff.mp closed
    refine ⟨'\x7b' :: (Json.quoted name ++ ':' :: inside), ?_⟩
    simp [variantJson, Json.render, Json.renderFields, chars]
  have text : (objectCodec toValue wellFormed).toJson event =
      String.ofList (front ++ ['\x7d']) ++ "\x7d" := by
    apply String.toList_inj.mp
    simp [objectCodec, valueText, nested, inner]
  have brace : asBytes "\x7d" = [125] := by decide
  have ended : (String.ofList (front ++ ['\x7d'])).toList.getLast? = some '\x7d' := by
    rw [String.toList_ofList, getLast?_concat]
  intro visible
  rw [VisiblyCut, text, asBytes_append, brace, length_append,
    length_singleton, Nat.add_sub_cancel, take_left,
    fromUtf8Lossy_asBytes, endsWithChar, trim_getLast ended (by decide)] at visible
  exact absurd (visible (Nat.lt_succ_self _)) (by decide)

theorem not_toleratesCut_variant {Projection Diagnostic : Type}
    {domain : EventSourced Event Projection Diagnostic}
    (objects : Objects toValue) (injective : Function.Injective toValue)
    {event : Event} {name : String} {fields : List (String × Json)}
    (nested : toValue event = variantJson name fields) :
    ¬ ToleratesCut domain (objectCodec toValue wellFormed) [event]
      ((asBytes ((objectCodec toValue wellFormed).toJson event)).length - 1) := by
  intro tolerates
  have visibly := cutsVisibly_of_toleratesCut (objectCodec_lawful objects injective)
      (objectCodec_refusesBeginnings objects) tolerates
  rw [CutsVisibly, cutAt_singleton (Nat.sub_le _ _)] at visibly
  exact looksClosed_variant nested (visibly.2 _ _ rfl).1

theorem not_toleratesCut_memoryEvent (event : MemoryEvent) :
    ¬ ToleratesCut memoryDomain memoryCodec [event]
      ((asBytes (memoryCodec.toJson event)).length - 1) := by
  obtain ⟨name, fields, nested⟩ : ∃ name fields, event.toJson = variantJson name fields := by
    cases event <;> exact ⟨_, _, rfl⟩
  exact not_toleratesCut_variant MemoryEvent.toJson_objects MemoryEvent.toJson_injective nested

/-- An admission that loses its closing brace and its line feed. -/
theorem cut_before_last_brace_is_fatal :
    ¬ ToleratesCut memoryDomain memoryCodec [.admitted 1 0 Sample.entry] ((asBytes
      (memoryCodec.toJson (.admitted 1 0 Sample.entry))).length - 1) :=
  not_toleratesCut_memoryEvent (.admitted 1 0 Sample.entry)

/-- A memory event of which one byte is left. -/
theorem torn_tail_tolerated_first_byte :
    ToleratesCut memoryDomain memoryCodec [.admitted 1 0 Sample.entry] 1 := by
  apply (torn_tail_tolerated_iff_visibly_cut memoryDomain memoryCodec
    MemoryEvent.WellFormed memoryCodec_lawful
    (objectCodec_refusesBeginnings MemoryEvent.toJson_objects) _ _).mpr
  have short := (Sample.take_one (.admitted 1 0 Sample.entry)).2
  rw [CutsVisibly, cutAt_singleton short.le]
  refine ⟨fun _ member => absurd member not_mem_nil, ?_⟩
  intro event left isCut
  cases isCut
  exact ⟨Sample.visiblyCut_one _, fun _ => Sample.entry_formed 1⟩

end ForgeCore.EventLog
