import ForgeCore.Library.Machine
import ForgeCore.Library.Utf8

/-!
# Event streams

A stream is a file of events, one JSON object on a line.  Replay ignores an
event whose number is not new, and skips a last line that is visibly cut.
-/

namespace ForgeCore.EventLog

open Machine Text

/-! ## A domain and its events -/

/-- What a domain does with its events.  The number of the last event is kept
apart from the rest of the projection. -/
structure EventSourced (Event Projection Diagnostic : Type) where
  sequence : Event → Nat
  empty : Projection
  apply : Projection → Event → Projection
  recordDiagnostic : Projection → Diagnostic → Projection
  sequenceOf : Projection → Nat
  advanceSequence : Projection → Nat → Projection
  diagnosticOutOfOrderEventIgnored : Nat → Nat → Diagnostic
  diagnosticTornFinalLineSkipped : Nat → String → Diagnostic
  sequenceOf_empty : sequenceOf empty = 0
  sequenceOf_advance : ∀ projection number, sequenceOf (advanceSequence projection number) = number
  sequenceOf_diagnostic : ∀ projection diagnostic,
      sequenceOf (recordDiagnostic projection diagnostic) = sequenceOf projection

/-- How events are written on a line and read back. -/
structure EventCodec (Event : Type) where
  toJson : Event → String
  fromJson : String → Except String Event

def startsWithChar (mark : Char) (text : String) : Bool :=
  text.toList.head? = some mark

def endsWithChar (mark : Char) (text : String) : Bool :=
  text.toList.getLast? = some mark

/-- What is known of the serializer: an event is one object on one line, the
reader returns what was written or nothing at all, and an object that it
accepts is closed.  `wellFormed` is what the reader checks of an event. -/
structure EventCodec.Lawful {Event : Type} (codec : EventCodec Event)
    (wellFormed : Event → Prop) : Prop where
  oneLine : ∀ event, '\n' ∉ (codec.toJson event).toList
  opened : ∀ event, startsWithChar '\x7b' (codec.toJson event) = true
  closed : ∀ event, endsWithChar '\x7d' (codec.toJson event) = true
  roundTrip : ∀ event, wellFormed event → codec.fromJson (codec.toJson event) = .ok event
  faithful : ∀ event other, codec.fromJson (codec.toJson event) = .ok other → other = event
  checked : ∀ text event, codec.fromJson text = .ok event → wellFormed event
  object : ∀ text event, codec.fromJson (trim text) = .ok event →
      startsWithChar '\x7b' (trim text) = true → endsWithChar '\x7d' (trim text) = true

/-! ## Diagnostics

Both domains report with the same codes and texts. -/

inductive ProjectionSeverity where
  | warning
  | error
deriving DecidableEq, Repr

structure ProjectionDiagnostic where
  severity : ProjectionSeverity
  code : String
  message : String
deriving DecidableEq, Repr

def outOfOrderEventIgnored (eventSeq projectionSeq : Nat) : ProjectionDiagnostic where
  severity := .warning
  code := "out_of_order_event_ignored"
  message := "event sequence " ++ toString eventSeq ++ " <= projection sequence " ++
      toString projectionSeq ++ "; ignored"

def tornFinalLineSkipped (lineNumber : Nat) (source : String) : ProjectionDiagnostic where
  severity := .warning
  code := "torn_final_line_skipped"
  message := "skipped incomplete final line " ++ toString lineNumber ++ ": " ++ source

/-- Why a log cannot be replayed or extended. -/
inductive EventLogError where
  | parse (lineNumber : Nat) (source : String)
  | sequenceExhausted
deriving DecidableEq, Repr

section Stream

variable {Event Projection Diagnostic : Type}
variable (domain : EventSourced Event Projection Diagnostic)
variable (codec : EventCodec Event)

def eventLine (event : Event) : List UInt8 :=
  asBytes (codec.toJson event) ++ [10]

def eventLines (events : List Event) : List UInt8 :=
  events.flatMap (eventLine codec)

def append (file : List UInt8) (event : Event) : List UInt8 :=
  file ++ eventLine codec event

def nextSequence (projection : Projection) : Except EventLogError Nat :=
  match checkedSucc (domain.sequenceOf projection) with
  | some sequence => .ok sequence
  | none => .error .sequenceExhausted

def applyEvent (projection : Projection) (event : Event) : Projection :=
  let eventSeq := domain.sequence event
  let current := domain.sequenceOf projection
  if 0 < current && eventSeq ≤ current then
    domain.recordDiagnostic projection (domain.diagnosticOutOfOrderEventIgnored eventSeq current)
  else
    domain.advanceSequence (domain.apply projection event) eventSeq

def replay (events : List Event) : Projection :=
  events.foldl (applyEvent domain) domain.empty

def replayLines (totalLines : Nat) :
    Nat → List String → Projection → Except EventLogError Projection
  | _, [], projection => .ok projection
  | index, rawLine :: rest, projection =>
    let line := trim rawLine
    if line.isEmpty then
      replayLines totalLines (index + 1) rest projection
    else
      match codec.fromJson line with
      | .ok event => replayLines totalLines (index + 1) rest (applyEvent domain projection event)
      | .error source =>
        let finalLine := totalLines ≤ index + 1
        if finalLine &&
            (!startsWithChar '\x7b' line || !endsWithChar '\x7d' line) then
          .ok (domain.recordDiagnostic projection (domain.diagnosticTornFinalLineSkipped (index + 1)
                source))
        else
          .error (.parse (index + 1) source)

def replayBytes (bytes : List UInt8) : Except EventLogError Projection :=
  let all := lines (fromUtf8Lossy bytes)
  replayLines domain codec all.length 0 all domain.empty

/-- The length of the longest valid beginning. -/
def validUpTo : Nat → List UInt8 → Nat
  | 0, _ => 0
  | fuel + 1, bytes =>
    match decodeChar bytes with
    | some char => char.utf8Size + validUpTo fuel (bytes.drop char.utf8Size)
    | none => 0

def lineNumberAt (bytes : List UInt8) (offset : Nat) : Nat :=
  (bytes.take offset).count 10 + 1

/-- `str::split_terminator('\n')`. -/
def splitTerminator (text : String) : List String :=
  let parts := splitChars (· = '\n') text.toList
  let kept :=
    if parts.getLast? = some [] then parts.dropLast else parts
  kept.map String.ofList

def expectedSequence : Option Nat → Option Nat
  | none => some 1
  | some previous => checkedSucc previous

def validateLines : Nat → Option Nat → List String → Except EventLogError Unit
  | _, _, [] => .ok ()
  | index, previous, rawLine :: rest =>
    let currentLine := index + 1
    if (trim rawLine).isEmpty then
      .error (.parse currentLine "event-log snapshot contains an empty record")
    else
      match codec.fromJson rawLine with
      | .error source => .error (.parse currentLine source)
      | .ok event =>
        match expectedSequence previous with
        | none => .error .sequenceExhausted
        | some expected =>
          if domain.sequence event ≠ expected then
            .error (.parse currentLine ("event-log snapshot sequence is " ++
                toString (domain.sequence event) ++ ", expected " ++ toString expected))
          else
            validateLines (index + 1) (some (domain.sequence event)) rest

def validateStrictSnapshotStream (bytes : List UInt8) : Except EventLogError Unit :=
  if bytes.isEmpty then
    .ok ()
  else if bytes.getLast? ≠ some 10 then
    .error (.parse (lineNumberAt bytes bytes.length)
      ("event-log snapshot ends without a complete newline-delimited " ++ "record"))
  else
    match fromUtf8 bytes with
    | none =>
      -- The bytes end with a line feed, so no piece is merely incomplete.
      let valid := validUpTo bytes.length bytes
      .error (.parse (lineNumberAt bytes valid)
        ("event-log snapshot is not UTF-8: invalid utf-8 sequence of " ++
          toString (invalidLength (bytes.drop valid)) ++ " bytes from index " ++ toString valid))
    | some text => validateLines domain codec 0 none (splitTerminator text)

end Stream

end ForgeCore.EventLog
