import ForgeCore.Library.Durable
import ForgeCore.Library.Json
import ForgeCore.Effects.Prepared

/-!
# The effect write-ahead log

One JSON record a line.  The serializer is a parameter; what the store relies
on is that a record is one line of text that reads back.
-/

namespace ForgeCore.Effects

open Claims (ActorRole)
open Digest Text

structure EffectExecutionProvenance where
  schemaVersion : String
  digest : String
  document : Json
deriving DecidableEq

structure EffectReplayCommitBinding where
  keyHash : String
  intentDigest : String
  commitDigest : String
  reservationRevision : Nat
deriving DecidableEq, Repr

structure EffectReplayCompletion where
  keyHash : String
  reservationRevision : Nat
  consumedRevision : Nat
  consumedSeq : Nat
  recovered : Bool
deriving DecidableEq, Repr

/-- The before-image of one target. -/
structure EffectWalOriginal where
  existed : Bool
  content : Content
  contentHash : String
deriving DecidableEq, Repr

structure EffectWalTargetMetadata where
  operationId : StableId
  targetKind : EffectTargetKind
  accessMode : AccessMode
  contentHash : Option String
  byteLen : Nat
  actorAgentId : StableId
  actorRole : ActorRole
  destructive : Bool
  redactionHint : StableId
deriving DecidableEq, Repr

/-- The file that an effect created, told apart from later ones. -/
structure EffectWalCreatedObjectIdentity where
  volumeSerialNumber : Nat
  fileIndex : Nat
  creationTime : Nat
  fileAttributes : Nat
deriving DecidableEq, Repr

structure EffectWalCreateEstablished where
  root : EffectWalCreatedObjectIdentity
  parent : EffectWalCreatedObjectIdentity
  file : EffectWalCreatedObjectIdentity
deriving DecidableEq, Repr

/-- How far a transaction has come. -/
inductive EffectWalStage where
  | begin
  | beforeImage
  | createEstablished (progress : EffectWalCreateEstablished)
  | writeApplied
  | commit
  | rollbackComplete
  | recoveredRollback
  | replayConsumed
deriving DecidableEq, Repr

/-- One line of the log. -/
structure EffectWalRecord where
  schemaVersion : String
  txId : String
  stage : EffectWalStage
  effectId : StableId
  targetRef : Option String
  physicalTargetRef : Option String
  targetMetadata : Option EffectWalTargetMetadata
  original : Option EffectWalOriginal
  diagnostic : Option String
  executionProvenance : Option EffectExecutionProvenance
  replayBinding : Option EffectReplayCommitBinding
  replayCompletion : Option EffectReplayCompletion
deriving DecidableEq

namespace EffectWalRecord

def ofStage (txId : String) (effectId : StableId) (stage : EffectWalStage) : EffectWalRecord where
  schemaVersion := "0.1"
  txId := txId
  stage := stage
  effectId := effectId
  targetRef := none
  physicalTargetRef := none
  targetMetadata := none
  original := none
  diagnostic := none
  executionProvenance := none
  replayBinding := none
  replayCompletion := none

def begin (txId : String) (effectId : StableId) : EffectWalRecord :=
  ofStage txId effectId .begin

def beginWithAuthority (txId : String) (effectId : StableId)
    (provenance : EffectExecutionProvenance)
    (binding : EffectReplayCommitBinding) : EffectWalRecord :=
  { begin txId effectId with
    executionProvenance := some provenance
    replayBinding := some binding }

def beforeImage (sha256 : Sha256) (txId : String) (effectId : StableId)
    (write : PreparedWrite) (original : OriginalFileState) : EffectWalRecord :=
  { ofStage txId effectId .beforeImage with
    targetRef := some write.reference
    physicalTargetRef := some write.physicalReference
    original := some
      { existed := original.existed
        content := original.content
        contentHash := sha256ContentHash sha256 original.content } }

def writeApplied (sha256 : Sha256) (txId : String)
    (effect : ToolEffectContract) (write : PreparedWrite) : EffectWalRecord :=
  { ofStage txId effect.id .writeApplied with
    targetRef := some write.reference
    physicalTargetRef := some write.physicalReference
    targetMetadata := some
      { operationId := effect.operationRef
        targetKind := write.targetKind
        accessMode := write.accessMode.asContract
        contentHash :=
          if write.accessMode.isDelete then none
          else some (sha256ContentHash sha256 write.content)
        byteLen := write.content.length
        actorAgentId := effect.actor.agentId
        actorRole := effect.actor.role
        destructive := write.destructive
        redactionHint := ⟨"raw_content_not_indexed"⟩ } }

def replayConsumed (txId : String) (effectId : StableId) (binding : EffectReplayCommitBinding)
    (completion : EffectReplayCompletion) : EffectWalRecord :=
  { ofStage txId effectId .replayConsumed with
    replayBinding := some binding
    replayCompletion := some completion }

def closes (record : EffectWalRecord) : Bool :=
  record.stage == .commit || record.stage == .rollbackComplete || record.stage == .recoveredRollback

end EffectWalRecord

/-- The JSON serializer of records and its reader, on one line of text. -/
structure WalCodec where
  encode : EffectWalRecord → String
  decode : String → Except String EffectWalRecord

/-- A record reads back, and its text is one line that ends the way the text
of a JSON object ends. -/
structure WalCodec.Lawful (codec : WalCodec) : Prop where
  roundTrip : ∀ record, codec.decode (codec.encode record) = .ok record
  oneLine : ∀ record, '\n' ∉ (codec.encode record).toList
  closed : ∀ record, (codec.encode record).toList.getLast? = some '}'

structure WalLineError where
  lineNumber : Nat
  source : String
deriving DecidableEq, Repr

/-- Parse the lines from a given index on.  Only a last line without its line
feed may be unreadable; it is dropped with a diagnostic. -/
def parseLines (decode : String → Except String EffectWalRecord) (truncated : Bool) :
    Nat → List String → Except WalLineError (List EffectWalRecord × List String)
  | _, [] => .ok ([], [])
  | index, line :: rest =>
    match decode line with
    | .ok record =>
      (parseLines decode truncated (index + 1) rest).map
        fun (records, diagnostics) => (record :: records, diagnostics)
    | .error source =>
      if truncated && rest.isEmpty then
        .ok ([], ["ignored truncated final WAL line " ++ toString (index + 1) ++ ": " ++ source])
      else
        .error { lineNumber := index + 1, source }

def parseEffectWalRecordsForRecovery (codec : WalCodec) (text : String) :
    Except WalLineError (List EffectWalRecord × List String) :=
  parseLines codec.decode (!wholeLines text) 0 (lines text)

/-- Transactions that have begun and not ended, in the order of their first
begin record. -/
def incompleteWalTransactions (records : List EffectWalRecord) : List String :=
  let begun := ((records.filter (·.stage = .begin)).map (·.txId)).foldl
      (fun seen txId => if seen.contains txId then seen else seen ++ [txId])
      []
  begun.filter fun txId =>
    !(records.any fun record => record.closes && record.txId = txId)

/-! ## The log in the tree -/

/-- Where an effect store keeps its files, and its serializers. -/
structure EffectStore where
  root : String
  walRelativePath : String
  sha256 : Sha256
  codec : WalCodec

namespace EffectStore

variable (store : EffectStore)

def walPath : Option Path :=
  normalizedEffectRelativePath store.walRelativePath

def recordLine (record : EffectWalRecord) : String :=
  store.codec.encode record ++ "\n"

def appendEffectWalRecord (record : EffectWalRecord) :
    Durable.Computation FileTree (Except AppendJsonLineError Unit) :=
  match reservedStatePath store.walRelativePath with
  | some reserved => pure (.error (.reservedStatePath store.walRelativePath reserved))
  | none =>
    match store.walPath with
    | none => pure (.error (.invalidRelativePath store.walRelativePath))
    | some relative =>
      .step fun tree =>
        match FileTree.appendFile relative
            (asBytes (store.recordLine record)) tree with
        | (after, .ok ()) => (after, .ok ())
        | (after, .error failure) =>
          (after, .error (.openFile (PathText.join store.root relative) failure.message))

def readLog (log : Option Content) : Option (List EffectWalRecord) :=
  match log with
  | none => some []
  | some bytes =>
    (fromUtf8 bytes).bind fun text =>
      if wholeLines text then
        (parseEffectWalRecordsForRecovery store.codec text).toOption.map Prod.fst
      else
        none

end EffectStore

/-! ## Reading back what was appended -/

theorem parseLines_append {decode : String → Except String EffectWalRecord}
    (firstParsed : parseLines decode false index first = .ok (firstRecords, firstNotes))
    (secondParsed : ∀ later, parseLines decode false later second =
      .ok (secondRecords, secondNotes)) : parseLines decode false index (first ++ second) =
      .ok (firstRecords ++ secondRecords, firstNotes ++ secondNotes) := by
  induction first generalizing index firstRecords firstNotes with
  | nil =>
    cases firstParsed
    exact secondParsed index
  | cons line rest ih =>
    rw [List.cons_append, parseLines]
    rw [parseLines] at firstParsed
    cases decoded : decode line with
    | error source =>
      rw [decoded] at firstParsed
      simp at firstParsed
    | ok record =>
      rw [decoded] at firstParsed
      obtain ⟨⟨records, notes⟩, restParsed, pairEq⟩ := Checked.map_eq_ok.mp firstParsed
      cases pairEq
      simp [ih restParsed, Except.map]

variable {store : EffectStore}

/-- The log reads back with the appended record at its end. -/
theorem readLog_append (lawful : store.codec.Lawful)
    (reads : store.readLog log = some records) (record : EffectWalRecord) :
    store.readLog (some (log.getD [] ++ asBytes (store.recordLine record))) =
      some (records ++ [record]) := by
  have noReturn : (store.codec.encode record).toList.getLast? ≠ some '\r' := by
    rw [lawful.closed record]
    decide
  have newLine : lines (store.recordLine record) = [store.codec.encode record] :=
    lines_singleton (lawful.oneLine record) noReturn
  have newParsed : ∀ later, parseLines store.codec.decode false later
        [store.codec.encode record] = .ok ([record], []) := by
    intro later
    simp [parseLines, lawful.roundTrip record, Except.map]
  have newWhole (text : String) : wholeLines (text ++ store.recordLine record) = true := by
    rw [EffectStore.recordLine, ← String.append_assoc]
    exact wholeLines_append_lineFeed _
  cases log with
  | none =>
    cases reads
    have whole := newWhole ""
    rw [String.empty_append] at whole
    simp [EffectStore.readLog, fromUtf8_asBytes, whole, newLine, newParsed,
      parseEffectWalRecordsForRecovery, Except.toOption]
  | some bytes =>
    obtain ⟨text, decoded, parsed⟩ := Option.bind_eq_some_iff.mp reads
    split at parsed
    · next whole =>
      obtain ⟨⟨found, notes⟩, parsedOk, rfl⟩ := Option.map_eq_some_iff.mp parsed
      have parsedLines : parseLines store.codec.decode false 0
          (lines text) = .ok (found, notes) := by
        unfold parseEffectWalRecordsForRecovery at parsedOk
        rw [whole] at parsedOk
        cases result : parseLines store.codec.decode false 0 (lines text) with
        | error failure => simp [result, Except.toOption] at parsedOk
        | ok pair =>
          simp only [Bool.not_true, result, Except.toOption, Option.some.injEq] at parsedOk
          rw [parsedOk]
      rw [fromUtf8_eq_some.mp decoded, Option.getD_some, ← asBytes_append]
      simp only [EffectStore.readLog, fromUtf8_asBytes, Option.bind_some, newWhole text, if_true]
      rw [parseEffectWalRecordsForRecovery, newWhole text,
        lines_append whole, newLine, Bool.not_true, parseLines_append parsedLines newParsed]
      rfl
    · cases parsed

end ForgeCore.Effects
