import ForgeCore.ClaimWal.Compaction

/-!
# Appending to the claim log

A crash ends an append after any number of bytes.  A rotation publishes its
files and then replaces the log, which is moved away before the new one is
linked in; a crash may fall between the two.  A log that was linked in keeps
its older name, so that later appends replace it as a whole too.
-/

namespace ForgeCore.ClaimWal

open Claims ForgeCore.Frame Machine

/-! ## The parts of an append -/

/-- The log and the immutable files beside it.  A log that is missing reads as
an empty one; a linked log has a second name and is not written in place. -/
structure WalState where
  file : Bytes
  files : CheckpointFiles
  linked : Bool

def WalState.pristine : WalState := ⟨[], .pristine, false⟩

/-- The limits that make a log due for rotation. -/
structure ClaimWalRotationOptions where
  maxWalBytes : Nat
  maxRecords : Nat
  maxReplayMillis : Nat
deriving DecidableEq, Repr

def ClaimWalRotationOptions.default : ClaimWalRotationOptions :=
  ⟨64 * 1024 * 1024, 100000, 250⟩

inductive ClaimWalRotationReason where
  | walSizeBytes
  | recordCount
  | replayDurationMillis
deriving DecidableEq, Repr

def rotationReason (walBytes recordCount replayMillis : Nat)
    (options : ClaimWalRotationOptions) : Option ClaimWalRotationReason :=
  if options.maxWalBytes < walBytes then
    some .walSizeBytes
  else if options.maxRecords < recordCount then
    some .recordCount
  else if options.maxReplayMillis < replayMillis then
    some .replayDurationMillis
  else
    none

/-- The names, digests and anchors that a rotation chooses for the files it
publishes. -/
structure PublishedGeneration where
  snapshotPath : String
  snapshotCrc32c : UInt32
  archivedWalPath : String
  archivedWalSha256 : String
  generationPath : String
  generationSha256 : String
  generationAnchor : ClaimWalFileAnchorBinding
  createdAtMs : Nat
deriving DecidableEq, Repr

def PublishedGeneration.checkpointPayload (generation : PublishedGeneration)
    (stamp : RotationStamp) : ClaimWalCheckpointPayload where
  schemaVersion := claimCheckpointPayloadSchemaVersion
  snapshotPath := generation.snapshotPath
  snapshotCrc32c := generation.snapshotCrc32c
  lastSeqInSnapshot := stamp.lastSeq
  archivedWalPath := some generation.archivedWalPath
  archivedWalSha256 := some generation.archivedWalSha256
  generationPath := some generation.generationPath
  generationSha256 := some generation.generationSha256
  generationAnchor := some generation.generationAnchor
  createdAt := stamp.createdAt
  createdAtMs := stamp.createdAtMs

/-- The directories are there from now on; `opened` is what a reader finds in
the new generation. -/
def CheckpointFiles.publish (files : CheckpointFiles)
    (payload : ClaimWalCheckpointPayload) (seq : Nat)
    (opened : Except ClaimWalStopReason ClaimWalSnapshotPayload) : CheckpointFiles where
  residue := true
  witness := fun selected selectedSeq =>
    if selected = payload ∧ selectedSeq = seq then opened
    else files.witness selected selectedSeq

/-! ## Replacing the log -/

/-- Where a process is lost while it replaces the log. -/
inductive ReplacementLoss where
  /-- The log is still in its place. -/
  | staged
  /-- The log is away, and nothing or an empty file is in its place. -/
  | moved
  /-- The new log is in place, and nothing has been read back. -/
  | installed
deriving DecidableEq, Repr

/-- How far a replacement of the active log came. -/
inductive ReplacementOutcome where
  | kept
  | away
  | installed
deriving DecidableEq, Repr

/-- `replace_retained_file_two_phase_from_expected` on the log.  A new log that
does not validate is taken out again and the previous one linked back. -/
def replaceActiveWal (state : WalState) (bytes : Bytes) (validates : Bool) :
    Option ReplacementLoss → WalState × ReplacementOutcome
  | some .staged => (state, .kept)
  | some .moved => ({ state with file := [], linked := false }, .away)
  | some .installed => ({ state with file := bytes, linked := true }, .installed)
  | none =>
    if validates then ({ state with file := bytes, linked := true }, .installed)
    else ({ state with linked := true }, .kept)

inductive ClaimWalAppendError where
  | recoveryStopped (stopReason : ClaimWalStopReason)
      (lastGoodOffset originalLen : Nat)
  | sequenceOverflow (lastSeq : Nat)
  | payloadTooLarge (byteLen maxByteLen : Nat)
  | rotateWal
deriving DecidableEq, Repr

/-- Where the process ends during an append. -/
inductive AppendEnding where
  | beforeRepair
  | afterBytes (count : Nat)
  | inReplacement (loss : ReplacementLoss)
  | inRotation (loss : ReplacementLoss)
  | beforeReturn
  | returns
deriving DecidableEq, Repr

/-- The loss of a process that replaces the log for a record.  Bytes of the
record only go to the staged copy. -/
def AppendEnding.appendLoss : AppendEnding → Option ReplacementLoss
  | afterBytes _ => some .staged
  | inReplacement loss => some loss
  | _ => none

def AppendEnding.rotationLoss : AppendEnding → Option ReplacementLoss
  | inRotation loss => some loss
  | _ => none

/-- An append, what a rotation in it would choose, the measured time of its
recovery, and how it ends. -/
structure AppendAttempt where
  operation : ClaimWalOperation
  claimContract : ClaimContract
  recordedAt : String
  recoveryElapsedMs : Nat
  generation : PublishedGeneration
  ending : AppendEnding
deriving DecidableEq, Repr

def AppendAttempt.payload (attempt : AppendAttempt) : ClaimWalPayload :=
  ⟨"0.1", attempt.operation, attempt.recordedAt, attempt.claimContract⟩

/-- What the caller of an append learns. -/
inductive AppendReport where
  | acknowledged (seq bytesAppended : Nat)
  | failed (error : ClaimWalAppendError)
  | crashed
deriving DecidableEq, Repr

/-- An append that has ended: the store, what the caller heard, the record
that was written to its last byte with the rotation behind it, and whether a
replacement was left unfinished, with files that no log selects. -/
structure AppendStep where
  state : WalState
  report : AppendReport
  events : List LogEvent
  unfinished : Bool

section Append

variable (prims : ClaimWalPrimitives)

def lifecyclePayloadBytes (payload : ClaimWalPayload) : Except ClaimWalAppendError Bytes :=
  let payloadBytes := prims.toJson payload
  if defaultMaxPayloadLen < payloadBytes.length then
    .error (.payloadTooLarge payloadBytes.length defaultMaxPayloadLen)
  else
    .ok payloadBytes

def recoveredAppendable (recovery : ClaimWalRecovery) : Bool :=
  recovery.stopReason = .cleanEof || recovery.repaired

/-- What a rotation leaves when it returns or is cut off. -/
inductive RotationOutcome where
  | refused
  | abandoned
  | lost
  | rotated (stamp : RotationStamp)
deriving DecidableEq, Repr

/-- What a reader finds in a published generation.  The writer bounds neither
the generation nor the snapshot. -/
def openedSnapshot (generation : PublishedGeneration) (snapshot : ClaimWalSnapshotPayload) :
    Except ClaimWalStopReason ClaimWalSnapshotPayload :=
  if 2 * defaultMaxPayloadLen < generation.generationAnchor.byteLength then
    .error .checkpointGenerationInvalid
  else if defaultMaxPayloadLen < (prims.snapshotToJson snapshot).length then
    .error .checkpointSnapshotInvalid
  else
    .ok snapshot

/-- The new log is one checkpoint record; it is read back before it counts. -/
def replaceActiveWalWithCheckpoint (state : WalState) (checkpointSeq : Nat)
    (payload : ClaimWalCheckpointPayload) (stamp : RotationStamp)
    (loss : Option ReplacementLoss) : WalState × RotationOutcome :=
  let checkpointBytes := prims.checkpointToJson payload
  let bytes := (claimFormat prims).encode checkpointSeq recordTypeCheckpointRef checkpointBytes
  let verified : Bool := (readClaimWal prims state.files bytes).stopReason = .cleanEof
  if defaultMaxPayloadLen < checkpointBytes.length then
    (state, .abandoned)
  else
    match replaceActiveWal state bytes verified loss with
    | (after, .kept) => (after, .abandoned)
    | (after, .away) => (after, .lost)
    | (after, .installed) => (after, if verified then .rotated stamp else .lost)

/-- A rotation publishes its files first.  The log selects them once it is
replaced. -/
def rotateClaimWalUnderLock (state : WalState) (recovery : ClaimWalRecovery) (createdAt : String)
    (generation : PublishedGeneration) (loss : Option ReplacementLoss) :
    WalState × RotationOutcome :=
  if !recoveredAppendable recovery then
    (state, .refused)
  else
    match checkedSucc recovery.lastObservedSeq with
    | none => (state, .refused)
    | some checkpointSeq =>
      let stamp : RotationStamp := ⟨createdAt, generation.createdAtMs, recovery.lastObservedSeq⟩
      let payload := generation.checkpointPayload stamp
      let opened :=
        openedSnapshot prims generation (snapshotOf stamp (projectClaimWalRecovery recovery))
      replaceActiveWalWithCheckpoint prims
        { state with files := state.files.publish payload checkpointSeq opened }
        checkpointSeq payload stamp loss

/-- The rotation of a log that is read once more, without a repair. -/
def rotateClaimWal (state : WalState) (createdAt : String)
    (generation : PublishedGeneration) (loss : Option ReplacementLoss) :
    WalState × RotationOutcome :=
  rotateClaimWalUnderLock prims state (recoverClaimWalFile prims state.files state.file false).2
    createdAt generation loss

def maybeRotateAfterAppend (state : WalState) (recovery : ClaimWalRecovery)
    (attempt : AppendAttempt) (record : ClaimWalRecord) : AppendStep :=
  let heard (report : AppendReport) : AppendReport :=
    if attempt.ending = .returns then report else .crashed
  let acknowledged := AppendReport.acknowledged record.seq record.recordLen
  match rotationReason
      (saturatingAdd recovery.lastGoodOffset record.recordLen)
      (saturatingAdd recovery.validRecordCount 1) attempt.recoveryElapsedMs .default with
  | none => ⟨state, heard acknowledged, [.append record], false⟩
  | some _ =>
    match rotateClaimWal prims state attempt.recordedAt
        attempt.generation attempt.ending.rotationLoss with
    | (after, .refused) => ⟨after, heard (.failed .rotateWal), [.append record], false⟩
    | (after, .abandoned) =>
      ⟨after, heard (.failed .rotateWal), [.append record], !state.files.residue⟩
    | (after, .lost) => ⟨after, heard (.failed .rotateWal), [.append record], true⟩
    | (after, .rotated stamp) => ⟨after, heard acknowledged, [.append record, .rotate stamp], false⟩

def AppendAttempt.record (attempt : AppendAttempt) (file : Bytes)
    (seq : Nat) (recordBytes : Bytes) : ClaimWalRecord where
  seq := seq
  operation := attempt.operation
  payload := attempt.payload
  offset := file.length
  recordLen := recordBytes.length

/-- The bytes of the record go behind the repaired file, whole or cut; a linked
log is replaced by one that ends with them. -/
def writeRecord (state : WalState) (recovery : ClaimWalRecovery)
    (attempt : AppendAttempt) (seq : Nat) (payloadBytes : Bytes) : AppendStep :=
  let recordBytes := (claimFormat prims).encode seq attempt.operation.recordType payloadBytes
  let record := attempt.record state.file seq recordBytes
  if state.linked then
    match replaceActiveWal state (state.file ++ recordBytes) true attempt.ending.appendLoss with
    | (after, .kept) => ⟨after, .crashed, [], false⟩
    | (after, .away) => ⟨after, .crashed, [], true⟩
    | (after, .installed) =>
      if attempt.ending.appendLoss = none then
        maybeRotateAfterAppend prims after recovery attempt record
      else
        ⟨after, .crashed, [.append record], false⟩
  else
    match attempt.ending with
    | .afterBytes count =>
      ⟨{ state with file := state.file ++ recordBytes.take count },
        .crashed, if recordBytes.length ≤ count then [.append record] else [],
        false⟩
    | _ =>
      maybeRotateAfterAppend prims
        { state with file := state.file ++ recordBytes } recovery attempt
        record

def appendClaimWalRecord (state : WalState) (attempt : AppendAttempt) : AppendStep :=
  if attempt.ending = .beforeRepair then
    ⟨state, .crashed, [], false⟩
  else
    let (file, recovery) := recoverClaimWalFile prims state.files state.file true
    let repaired : WalState := { state with file := file }
    if !recoveredAppendable recovery then
      ⟨repaired, .failed (.recoveryStopped recovery.stopReason
          recovery.lastGoodOffset recovery.originalLen), [], false⟩
    else
      match checkedSucc recovery.lastObservedSeq with
      | none => ⟨repaired, .failed (.sequenceOverflow recovery.lastObservedSeq), [], false⟩
      | some seq =>
        match lifecyclePayloadBytes prims attempt.payload with
        | .error error => ⟨repaired, .failed error, [], false⟩
        | .ok payloadBytes => writeRecord prims repaired recovery attempt seq payloadBytes

inductive ClaimWalRotationError where
  | recoveryStopped (stopReason : ClaimWalStopReason)
      (lastGoodOffset originalLen : Nat)
  | sequenceOverflow (lastSeq : Nat)
  | verifyWal
deriving DecidableEq, Repr

structure ClaimWalRotationResult where
  rotated : Bool
  reason : Option ClaimWalRotationReason
  checkpointSeq : Option Nat
  lastSeqInSnapshot : Nat
  compactedRecords : Nat
deriving DecidableEq, Repr

def rotateClaimWalIfNeeded (state : WalState) (createdAt : String)
    (options : ClaimWalRotationOptions) (recoveryElapsedMs : Nat)
    (generation : PublishedGeneration) :
    WalState × Except ClaimWalRotationError ClaimWalRotationResult :=
  let (file, recovery) := recoverClaimWalFile prims state.files state.file true
  let repaired : WalState := { state with file := file }
  if !recoveredAppendable recovery then
    (repaired, .error (.recoveryStopped recovery.stopReason recovery.lastGoodOffset
        recovery.originalLen))
  else
    match rotationReason recovery.originalLen recovery.validRecordCount
        recoveryElapsedMs options with
    | none =>
      (repaired, .ok
          { rotated := false
            reason := none
            checkpointSeq := none
            lastSeqInSnapshot := recovery.lastObservedSeq
            compactedRecords := recovery.validRecordCount })
    | some reason =>
      match rotateClaimWalUnderLock prims repaired recovery createdAt
          generation none with
      -- A recovery that got this far is refused for its last number only.
      | (after, .refused) => (after, .error (.sequenceOverflow recovery.lastObservedSeq))
      | (after, .abandoned) | (after, .lost) => (after, .error .verifyWal)
      | (after, .rotated stamp) =>
        (after, .ok
            { rotated := true
              reason := some reason
              checkpointSeq := checkedSucc stamp.lastSeq
              lastSeqInSnapshot := stamp.lastSeq
              compactedRecords := recovery.validRecordCount })

/-- Appends, and recoveries by readers, which may repair. -/
inductive WalAction where
  | append (attempt : AppendAttempt)
  | recover (repair : Bool)
deriving DecidableEq, Repr

/-- What a history of actions leaves: the store, and every append with how it
ended. -/
structure WalHistory where
  state : WalState
  appends : List (AppendAttempt × AppendStep)

def WalHistory.start : WalHistory := ⟨.pristine, []⟩

def WalHistory.step (history : WalHistory) : WalAction → WalHistory
  | .append attempt =>
    let step := appendClaimWalRecord prims history.state attempt
    ⟨step.state, history.appends ++ [(attempt, step)]⟩
  | .recover repair =>
    let (file, _) := recoverClaimWalFile prims history.state.files history.state.file repair
    { history with state := { history.state with file := file } }

def walHistory (actions : List WalAction) : WalHistory :=
  actions.foldl (WalHistory.step prims) .start

end Append

def WalHistory.events (history : WalHistory) : List LogEvent :=
  history.appends.flatMap fun entry => entry.2.events

def WalHistory.acknowledged (history : WalHistory) : List Nat :=
  history.appends.filterMap fun entry =>
    match entry.2.report with
    | .acknowledged seq _ => some seq
    | _ => none

/-- Some replacement was left unfinished. -/
def WalHistory.unfinished (history : WalHistory) : Bool :=
  history.appends.any fun entry => entry.2.unfinished

end ForgeCore.ClaimWal
