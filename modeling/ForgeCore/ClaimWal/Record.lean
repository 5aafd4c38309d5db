import ForgeCore.Library.Digest
import ForgeCore.Library.Frame
import ForgeCore.Library.Machine
import ForgeCore.Library.PathText
import ForgeCore.Claims.Contract

/-!
# The claim log

Records, codec and recovery of the write-ahead log of claim lifecycle events.
The file is its bytes, and an absent file is an empty one.  `crc32c`,
`serde_json` and the canonical serializer come in as `ClaimWalPrimitives`.
-/

namespace ForgeCore.ClaimWal

open Claims ForgeCore.Frame Machine

def defaultMaxPayloadLen : Nat := 16 * 1024 * 1024

def recordTypeCheckpointRef : UInt8 := 4

inductive ClaimWalOperation where
  | acquire
  | release
  | heartbeat
  | handoffRecorded
  | reconcileStatus
deriving DecidableEq, Repr

def ClaimWalOperation.recordType : ClaimWalOperation → UInt8
  | .acquire => 1
  | .release => 2
  | .heartbeat => 3
  | .handoffRecorded => 5
  | .reconcileStatus => 7

def ClaimWalOperation.fromRecordType (value : UInt8) : Option ClaimWalOperation :=
  if value = 1 then some .acquire
  else if value = 2 then some .release
  else if value = 3 then some .heartbeat
  else if value = 5 then some .handoffRecorded
  else if value = 7 then some .reconcileStatus
  else none

/-- What a lifecycle record says. -/
structure ClaimWalPayload where
  schemaVersion : String
  operation : ClaimWalOperation
  recordedAt : String
  claimContract : ClaimContract
deriving DecidableEq, Repr

structure ClaimWalFileAnchorBinding where
  schemaVersion : String
  anchorRelativePath : String
  nonce : String
  contentDigest : String
  byteLength : Nat
deriving DecidableEq, Repr

/-- The first record of a log that continues a snapshot. -/
structure ClaimWalCheckpointPayload where
  schemaVersion : String
  snapshotPath : String
  snapshotCrc32c : UInt32
  lastSeqInSnapshot : Nat
  archivedWalPath : Option String
  archivedWalSha256 : Option String
  generationPath : Option String
  generationSha256 : Option String
  generationAnchor : Option ClaimWalFileAnchorBinding
  createdAt : String
  createdAtMs : Nat
deriving DecidableEq, Repr

structure ClaimWalSnapshotClaim where
  claimContract : ClaimContract
  lastSeq : Nat
  lastOperation : ClaimWalOperation
  recordedAt : String
deriving DecidableEq, Repr

/-- The claims that a rotation writes out. -/
structure ClaimWalSnapshotPayload where
  schemaVersion : String
  createdAt : String
  createdAtMs : Nat
  lastSeq : Nat
  latestClaims : List ClaimWalSnapshotClaim
deriving DecidableEq, Repr

/-- A decoded lifecycle record and where it stands. -/
structure ClaimWalRecord where
  seq : Nat
  operation : ClaimWalOperation
  payload : ClaimWalPayload
  offset : Nat
  recordLen : Nat
deriving DecidableEq, Repr

structure ClaimWalCheckpointRecord where
  seq : Nat
  payload : ClaimWalCheckpointPayload
  snapshot : ClaimWalSnapshotPayload
  offset : Nat
  recordLen : Nat
deriving DecidableEq, Repr

/-- Why the decoder stops. -/
inductive ClaimWalStopReason where
  | cleanEof
  | truncatedHeader
  | invalidHeader
  | payloadTooLarge
  | truncatedPayload
  | payloadChecksumMismatch
  | unsupportedRecordType
  | sequenceGap
  | payloadDecodeFailed
  | checkpointNotAtStart
  | checkpointSnapshotInvalid
  | checkpointArchiveInvalid
  | checkpointGenerationInvalid
deriving DecidableEq, Repr

def ClaimWalStopReason.ofFrame : FrameStop → ClaimWalStopReason
  | .truncatedHeader => .truncatedHeader
  | .invalidHeader => .invalidHeader
  | .payloadTooLarge => .payloadTooLarge
  | .truncatedPayload => .truncatedPayload
  | .payloadChecksumMismatch => .payloadChecksumMismatch

/-- What a byte cut of a sound log can stop at. -/
def ClaimWalStopReason.isCut : ClaimWalStopReason → Bool
  | .cleanEof | .truncatedHeader | .truncatedPayload => true
  | _ => false

def isRepairableStopReason : ClaimWalStopReason → Bool
  | .cleanEof | .checkpointSnapshotInvalid | .checkpointArchiveInvalid
  | .checkpointGenerationInvalid | .checkpointNotAtStart => false
  | _ => true

/-- What is read from a log, up to where it stops. -/
structure ClaimWalRecovery where
  records : List ClaimWalRecord
  checkpoint : Option ClaimWalCheckpointRecord
  lastObservedSeq : Nat
  validRecordCount : Nat
  lastGoodOffset : Nat
  originalLen : Nat
  repaired : Bool
  stopReason : ClaimWalStopReason
deriving DecidableEq, Repr

/-- The code outside the repository that the log is built on. -/
structure ClaimWalPrimitives where
  crc32c : Bytes → UInt32
  toJson : ClaimWalPayload → Bytes
  fromJson : Bytes → Option ClaimWalPayload
  checkpointToJson : ClaimWalCheckpointPayload → Bytes
  checkpointFromJson : Bytes → Option ClaimWalCheckpointPayload
  snapshotToJson : ClaimWalSnapshotPayload → Bytes

/-- A payload decodes to what was encoded. -/
structure ClaimWalPrimitives.Lawful (prims : ClaimWalPrimitives) : Prop where
  fromJson_toJson : ∀ payload, prims.fromJson (prims.toJson payload) = some payload
  checkpointFromJson_toJson : ∀ payload, prims.checkpointFromJson (prims.checkpointToJson payload) =
        some payload

/-- The immutable files that rotations have published.  `residue` is whether
any of their directories is there; `witness` opens the generation that a
checkpoint selects and returns its snapshot. -/
structure CheckpointFiles where
  residue : Bool
  witness : ClaimWalCheckpointPayload → Nat → Except ClaimWalStopReason ClaimWalSnapshotPayload

/-- A store in which no rotation ever began. -/
def CheckpointFiles.pristine : CheckpointFiles :=
  ⟨false, fun _ _ => .error .checkpointGenerationInvalid⟩

section Codec

variable (prims : ClaimWalPrimitives) (files : CheckpointFiles)

theorem claimFlags_lt : 4 < 256 ^ 2 := by decide

/-- Frames with magic `FMW1` and version 1.  The reader also lets the flag of
skippable records pass. -/
def claimFormat : Format where
  magic := [70, 77, 87, 49]
  version := 1
  flags := 4
  flagsAccepted := fun flags => flags = 4 || flags = 5
  maxPayloadLen := defaultMaxPayloadLen
  crc := prims.crc32c
  magic_length := rfl
  flags_lt := claimFlags_lt
  flags_accepted := rfl
  maxPayloadLen_lt := by decide

inductive DecodeRecordOutcome where
  | known (record : ClaimWalRecord)
  | checkpoint (record : ClaimWalCheckpointRecord)
  | skippedUnknown (seq recordLen : Nat)
  | stop (reason : ClaimWalStopReason)
deriving DecidableEq, Repr

def decodeCheckpointRecord (offset : Nat) (frame : DecodedFrame) : DecodeRecordOutcome :=
  if offset ≠ 0 then
    .stop .checkpointNotAtStart
  else
    match prims.checkpointFromJson frame.payload with
    | none => .stop .payloadDecodeFailed
    | some payload =>
      if prims.checkpointToJson payload ≠ frame.payload then
        .stop .checkpointGenerationInvalid
      else
        match checkedSucc payload.lastSeqInSnapshot with
        | none => .stop .sequenceGap
        | some expected =>
          if frame.seq ≠ expected then
            .stop .sequenceGap
          else
            match files.witness payload frame.seq with
            | .error reason => .stop reason
            | .ok snapshot =>
              .checkpoint
                { seq := frame.seq
                  payload
                  snapshot
                  offset
                  recordLen := frame.recordLen }

def decodeLifecycleRecord (offset : Nat) (operation : ClaimWalOperation)
    (frame : DecodedFrame) : DecodeRecordOutcome :=
  match prims.fromJson frame.payload with
  | none => .stop .payloadDecodeFailed
  | some payload =>
    if payload.operation ≠ operation then
      .stop .payloadDecodeFailed
    else
      .known
        { seq := frame.seq
          operation
          payload
          offset
          recordLen := frame.recordLen }

def decodeRecordAt (remaining : Bytes) (offset expectedSeq : Nat) : DecodeRecordOutcome :=
  match (claimFormat prims).decode remaining with
  | .error stop => .stop (.ofFrame stop)
  | .ok frame =>
    if frame.recordType = recordTypeCheckpointRef then
      decodeCheckpointRecord prims files offset frame
    else if frame.seq ≠ expectedSeq then
      .stop .sequenceGap
    else
      match ClaimWalOperation.fromRecordType frame.recordType with
      | none =>
        -- The only other flag that a frame can carry here.
        if frame.flags = 5 then
          .skippedUnknown frame.seq frame.recordLen
        else
          .stop .unsupportedRecordType
      | some operation => decodeLifecycleRecord prims offset operation frame

/-- The state of the loop over the records. -/
structure DecodeState where
  records : List ClaimWalRecord
  checkpoint : Option ClaimWalCheckpointRecord
  offset : Nat
  expectedSeq : Nat
  lastObservedSeq : Nat
  validRecordCount : Nat

def DecodeState.initial : DecodeState := ⟨[], none, 0, 1, 0, 0⟩

/-- The loop of `decode_prefix` on the bytes from the current offset.  Every
record takes at least one byte, so a fuel of the remaining length never runs
out. -/
def decodeLoop : Nat → Bytes → DecodeState → DecodeState × ClaimWalStopReason
  | _, [], state => (state, .cleanEof)
  | 0, _ :: _, state => (state, .truncatedHeader)
  | fuel + 1, remaining@(_ :: _), state =>
    match decodeRecordAt prims files remaining state.offset
        state.expectedSeq with
    | .known record =>
      decodeLoop fuel (remaining.drop record.recordLen)
        { state with
          records := state.records ++ [record]
          offset := state.offset + record.recordLen
          expectedSeq := saturatingAdd state.expectedSeq 1
          lastObservedSeq := record.seq
          validRecordCount := state.validRecordCount + 1 }
    | .checkpoint record =>
      decodeLoop fuel (remaining.drop record.recordLen)
        { state with
          checkpoint := some record
          offset := state.offset + record.recordLen
          expectedSeq := saturatingAdd record.seq 1
          lastObservedSeq := record.seq
          validRecordCount := state.validRecordCount + 1 }
    | .skippedUnknown seq recordLen =>
      decodeLoop fuel (remaining.drop recordLen)
        { state with
          offset := state.offset + recordLen
          expectedSeq := saturatingAdd state.expectedSeq 1
          lastObservedSeq := seq
          validRecordCount := state.validRecordCount + 1 }
    | .stop reason => (state, reason)

def decodePrefix (bytes : Bytes) : ClaimWalRecovery :=
  let (state, stopReason) := decodeLoop prims files bytes.length bytes .initial
  { records := state.records
    checkpoint := state.checkpoint
    lastObservedSeq := state.lastObservedSeq
    validRecordCount := state.validRecordCount
    lastGoodOffset := state.offset
    originalLen := bytes.length
    repaired := false
    stopReason }

/-! ## The generation that a log declares -/

/-- The names of a relative path, with `.` left out. -/
def safeRelativePath (value : String) : Option (List String) :=
  let parts := PathText.components value
  let names := parts.filterMap fun part =>
    match part with
    | .normal name => some name
    | _ => none
  if parts.any (fun part => part = .parentDir || part = .rootDir) then none
  else if names.isEmpty then none
  else some names

def pathToWalString (names : List String) : String :=
  "/".intercalate names

def contentHashHex (value : String) : Option String :=
  if Digest.isSha256Token value then Digest.stripPrefix? "sha256:" value
  else none

def generationRelativePath (checkpointSeq : Nat) (digest : String) : Option (List String) :=
  (contentHashHex digest).map fun hex =>
    ["wal", "checkpoints", "claims.checkpoint." ++ Text.zeroPadded 20 checkpointSeq ++ "." ++
        hex ++ ".json"]

def checkpointGenerationRelativePath
    (checkpoint : ClaimWalCheckpointPayload) (checkpointSeq : Nat) : Option (List String) := do
  let digest ← checkpoint.generationSha256
  let declared ← checkpoint.generationPath
  let path ← safeRelativePath declared
  let expected ← generationRelativePath checkpointSeq digest
  if path = expected && pathToWalString path = declared then some path
  else none

def claimAnchorBindingMatches (binding : ClaimWalFileAnchorBinding)
    (expectedDirectory : List String) (expectedDigest : String) (expectedByteLength : Nat) : Bool :=
  match safeRelativePath binding.anchorRelativePath with
  | none => false
  | some path =>
    path.dropLast = expectedDirectory && binding.contentDigest = expectedDigest &&
        binding.byteLength = expectedByteLength

def claimCheckpointPayloadSchemaVersion : String := "0.4"

def claimGenerationAnchorRelativeDir : List String :=
  ["wal", "checkpoint-authority", "generations"]

def activeWalDeclaresRequiredGeneration (bytes : Bytes) : Bool :=
  match (claimFormat prims).decode bytes with
  | .error _ => false
  | .ok frame =>
    if frame.recordType ≠ recordTypeCheckpointRef then
      false
    else
      match prims.checkpointFromJson frame.payload with
      | none => false
      | some checkpoint =>
        if checkpoint.schemaVersion ≠ claimCheckpointPayloadSchemaVersion ||
            prims.checkpointToJson checkpoint ≠ frame.payload then
          false
        else
          match checkpoint.generationSha256 with
          | none => false
          | some digest =>
            Digest.isSha256Token digest && (checkpointGenerationRelativePath checkpoint
                frame.seq).isSome && checkpoint.generationAnchor.any fun binding =>
                claimAnchorBindingMatches binding claimGenerationAnchorRelativeDir digest
                  binding.byteLength

/-- Checkpoint files that the log does not select make it unreadable. -/
def rejectUnselectedCheckpointResidue (recovery : ClaimWalRecovery) : ClaimWalRecovery :=
  { recovery with
    records := []
    checkpoint := none
    lastObservedSeq := 0
    validRecordCount := 0
    lastGoodOffset := 0
    repaired := false
    stopReason := .checkpointGenerationInvalid }

def readClaimWal (file : Bytes) : ClaimWalRecovery :=
  let decoded := decodePrefix prims files file
  if decoded.checkpoint.isNone &&
      !activeWalDeclaresRequiredGeneration prims file && files.residue then
    rejectUnselectedCheckpointResidue decoded
  else
    decoded

/-- Recovery under the lock: the file as it is left, and what it says. -/
def recoverClaimWalFile (file : Bytes) (repair : Bool) : Bytes × ClaimWalRecovery :=
  let recovery := readClaimWal prims files file
  if repair && recovery.lastGoodOffset < recovery.originalLen &&
      isRepairableStopReason recovery.stopReason then
    (file.take recovery.lastGoodOffset, { recovery with repaired := true })
  else
    (file, recovery)

end Codec

end ForgeCore.ClaimWal
