import ForgeCore.Library.ByteLines
import ForgeCore.Library.Digest
import ForgeCore.Library.Frame
import ForgeCore.Library.Machine

/-!
# The workflow action replay log

The records that bind an action packet and an origin event to a planned
ledger record, and the recovery that checks every line of the file.  The file
is its bytes.  SHA-256, canonical JSON and its reader are outside the
repository and come in as `ReplayPrimitives`.
-/

namespace ForgeCore.ActionReplay

open Text Digest ForgeCore.Frame Machine

def workflowActionReplaySchemaVersion : String := "0.1"

def workflowActionReplayMaxBytes : Nat := 8 * 1024 * 1024

def workflowActionReplayMaxRecords : Nat := 20000

def genesisRecordDigest : String :=
  "sha256:0000000000000000000000000000000000000000000000000000000000000000"

inductive WorkflowActionReplayOperation where
  | reserve
  | commit
  deriving DecidableEq, Repr

inductive WorkflowActionReplayState where
  | reserved
  | committed
  deriving DecidableEq, Repr

/-- A record without the digest that closes it. -/
structure UnsignedRecord where
  schemaVersion : String
  sequence : Nat
  operation : WorkflowActionReplayOperation
  keyHash : String
  actionPacketDigest : String
  originEventIdHash : String
  plannedLedgerRecordDigest : String
  priorRecordDigest : String
  deriving DecidableEq, Repr

/-- A record with its digest, one line of the file. -/
structure StoredRecord where
  unsigned : UnsignedRecord
  recordDigest : String
  deriving DecidableEq, Repr

/-- What the log knows of one request. -/
structure WorkflowActionReplayEntry where
  keyHash : String
  actionPacketDigest : String
  originEventIdHash : String
  plannedLedgerRecordDigest : String
  state : WorkflowActionReplayState
  reservedSequence : Nat
  committedSequence : Option Nat
  deriving DecidableEq, Repr

structure WorkflowActionReplayRecovery where
  entries : Std.ExtTreeMap String WorkflowActionReplayEntry
  validRecordCount : Nat
  lastSequence : Nat
  lastRecordDigest : String
  walBytes : Nat

inductive WorkflowActionReplayCapacityKind where
  | bytes
  | records
  deriving DecidableEq, Repr

/-- The errors that the contents of the log or of a request can cause. -/
inductive WorkflowActionReplayError where
  | invalidInput (field reason : String)
  | corruptWal (path : String) (line : Nat) (reason : String)
  | capacityExceeded
      (kind : WorkflowActionReplayCapacityKind) (limit observed : Nat)
  | sequenceOverflow (lastSequence : Nat)
  | bindingMismatch (keyHash field : String)
  | packetReplayConflict (actionPacketDigest : String)
  | originReplayConflict (originEventIdHash : String)
  | reservationMissing (keyHash : String)
  deriving DecidableEq, Repr

def WorkflowActionReplayCapacityKind.name : WorkflowActionReplayCapacityKind → String
  | bytes => "Bytes"
  | records => "Records"

/-- The `Display` text. -/
def WorkflowActionReplayError.text : WorkflowActionReplayError → String
  | invalidInput field reason => "invalid " ++ field ++ ": " ++ reason
  | corruptWal path line reason =>
    "WAL " ++ path ++ " is corrupt at line " ++ toString line ++ ": " ++ reason
  | capacityExceeded kind limit observed =>
    "workflow action replay " ++ kind.name ++
      " capacity exceeded: limit=" ++ toString limit ++ ", observed=" ++ toString observed
  | sequenceOverflow lastSequence => "WAL sequence overflow after " ++ toString lastSequence
  | bindingMismatch keyHash field => "replay binding " ++ field ++ " mismatch for " ++ keyHash
  | packetReplayConflict actionPacketDigest =>
    "action packet " ++ actionPacketDigest ++ " is already bound to a different origin"
  | originReplayConflict originEventIdHash =>
    "origin " ++ originEventIdHash ++ " is already bound to a different action packet"
  | reservationMissing keyHash => "replay reservation " ++ keyHash ++ " does not exist"

/-- Hashing and JSON, which the repository imports. -/
structure ReplayPrimitives where
  sha256 : Sha256
  /-- `serde_json_canonicalizer::to_vec` at the type of an unsigned record. -/
  unsignedToVec : UnsignedRecord → Bytes
  /-- `serde_json_canonicalizer::to_vec` at the type of a stored record. -/
  storedToVec : StoredRecord → Bytes
  /-- `serde_json::from_slice` at the type of a stored record. -/
  fromSlice : Bytes → Except String StoredRecord
  walPath : String

/-- What the log needs of canonical JSON: a record is one line of it, and the
reader gives the record back.  Canonical JSON has the numbers of ECMAScript,
whose integers are exact below `2 ^ 53`. -/
structure ReplayPrimitives.Lawful (prims : ReplayPrimitives) : Prop where
  storedToVec_ne_nil : ∀ record, prims.storedToVec record ≠ []
  lineFeed_not_mem : ∀ record, ByteLines.lineFeed ∉ prims.storedToVec record
  fromSlice_storedToVec : ∀ record : StoredRecord, record.unsigned.sequence < 2 ^ 53 →
      prims.fromSlice (prims.storedToVec record) = .ok record

def originHashDomain : Bytes :=
  asBytes "forge-method:workflow-action-origin:v1" ++ [0]

def keyHashDomain : Bytes :=
  asBytes "forge-method:workflow-action-replay-key:v1" ++ [0]

/-- The length in eight little-endian bytes, and the value. -/
def lengthPrefixed (value : Bytes) : Bytes :=
  leBytes 8 (min value.length u64Max) ++ value

section Digests

variable (prims : ReplayPrimitives)

def formatDigest (bytes : Bytes) : String :=
  formatSha256 (prims.sha256 bytes).toList

def originHash (originEventId : String) : String :=
  formatDigest prims (originHashDomain ++ lengthPrefixed (asBytes originEventId))

def replayKeyHash (packetDigest originEventIdHash : String) : String :=
  formatDigest prims (keyHashDomain ++ lengthPrefixed (asBytes packetDigest) ++
      lengthPrefixed (asBytes originEventIdHash))

def digestCanonical (record : UnsignedRecord) : String :=
  formatDigest prims (prims.unsignedToVec record)

theorem isSha256Token_formatDigest (bytes : Bytes) :
    isSha256Token (formatDigest prims bytes) = true :=
  isSha256Token_formatSha256 Vector.length_toList

end Digests

/-! ## Validation and projection of a record -/

def nextSequence (lastSequence : Nat) : Except WorkflowActionReplayError Nat :=
  match checkedSucc lastSequence with
  | some sequence => .ok sequence
  | none => .error (.sequenceOverflow lastSequence)

/-- The first field that differs is the one that is named. -/
def validateBinding (entry : WorkflowActionReplayEntry)
    (packetDigest originEventIdHash ledgerDigest : String) :
    Except WorkflowActionReplayError Unit :=
  if entry.actionPacketDigest ≠ packetDigest then
    .error (.bindingMismatch entry.keyHash "action_packet_digest")
  else if entry.originEventIdHash ≠ originEventIdHash then
    .error (.bindingMismatch entry.keyHash "origin_event_id")
  else if entry.plannedLedgerRecordDigest ≠ ledgerDigest then
    .error (.bindingMismatch entry.keyHash "planned_ledger_record_digest")
  else
    .ok ()

/-- The three maps that the recovery loop fills. -/
structure Projection where
  entries : Std.ExtTreeMap String WorkflowActionReplayEntry := ∅
  packetKeys : Std.ExtTreeMap String String := ∅
  originKeys : Std.ExtTreeMap String String := ∅

/-- The state of the loop over the lines. -/
structure Scan where
  projection : Projection := {}
  lastSequence : Nat := 0
  lastRecordDigest : String := genesisRecordDigest
  validRecordCount : Nat := 0

def UnsignedRecord.reservedEntry (record : UnsignedRecord) : WorkflowActionReplayEntry where
  keyHash := record.keyHash
  actionPacketDigest := record.actionPacketDigest
  originEventIdHash := record.originEventIdHash
  plannedLedgerRecordDigest := record.plannedLedgerRecordDigest
  state := .reserved
  reservedSequence := record.sequence
  committedSequence := none

def WorkflowActionReplayEntry.committedAt (entry : WorkflowActionReplayEntry) (sequence : Nat) :
    WorkflowActionReplayEntry :=
  { entry with
    state := .committed
    committedSequence := some sequence }

/-- The fields of a record that must be digests, under their names. -/
def StoredRecord.digestFields (record : StoredRecord) : List (String × String) :=
  [("key_hash", record.unsigned.keyHash),
    ("action_packet_digest", record.unsigned.actionPacketDigest),
    ("origin_event_id_hash", record.unsigned.originEventIdHash), ("planned_ledger_record_digest",
      record.unsigned.plannedLedgerRecordDigest),
    ("prior_record_digest", record.unsigned.priorRecordDigest),
    ("record_digest", record.recordDigest)]

section Recovery

variable (prims : ReplayPrimitives)

def corrupt (line : Nat) (reason : String) : WorkflowActionReplayError :=
  .corruptWal prims.walPath line reason

/-- `map_err(|error| corrupt(path, line, &error.to_string()))`. -/
def orCorrupt {value : Type} (line : Nat) (result : Except WorkflowActionReplayError value) :
    Except WorkflowActionReplayError value :=
  match result with
  | .ok item => .ok item
  | .error error => .error (corrupt prims line error.text)

def validateStoredRecord (line : Nat) (record : StoredRecord)
    (lastSequence : Nat) (lastDigest : String) : Except WorkflowActionReplayError Unit := do
  if record.unsigned.schemaVersion ≠ workflowActionReplaySchemaVersion then
    throw (corrupt prims line "unsupported schema version")
  let expectedSequence ←
    orCorrupt prims line (nextSequence lastSequence)
  if record.unsigned.sequence ≠ expectedSequence then
    throw (corrupt prims line "sequence gap")
  if record.unsigned.priorRecordDigest ≠ lastDigest then
    throw (corrupt prims line "record chain mismatch")
  match record.digestFields.find? (fun field => !isSha256Token field.2) with
  | some field => throw (corrupt prims line ("invalid " ++ field.1))
  | none =>
    if record.recordDigest ≠ digestCanonical prims record.unsigned then
      throw (corrupt prims line "record digest mismatch")
    if record.unsigned.keyHash ≠ replayKeyHash prims record.unsigned.actionPacketDigest
          record.unsigned.originEventIdHash then
      throw (corrupt prims line "derived key mismatch")

def applyRecord
    (line : Nat) (record : UnsignedRecord) (projection : Projection) :
    Except WorkflowActionReplayError Projection :=
  match record.operation with
  | .reserve =>
    if projection.entries.contains record.keyHash then
      .error (corrupt prims line "duplicate reserve")
    else if projection.packetKeys.contains record.actionPacketDigest then
      .error (corrupt prims line "packet rebound to another key")
    else if projection.originKeys.contains record.originEventIdHash then
      .error (corrupt prims line "origin rebound to another key")
    else
      .ok
        { entries := projection.entries.insert record.keyHash record.reservedEntry
          packetKeys := projection.packetKeys.insert record.actionPacketDigest
              record.keyHash
          originKeys := projection.originKeys.insert record.originEventIdHash
              record.keyHash }
  | .commit =>
    match projection.entries[record.keyHash]? with
    | none => .error (corrupt prims line "commit without reserve")
    | some entry => do
      orCorrupt prims line
        (validateBinding entry record.actionPacketDigest
          record.originEventIdHash record.plannedLedgerRecordDigest)
      if entry.state = .committed then
        throw (corrupt prims line "duplicate commit")
      return { projection with
        entries := projection.entries.insert record.keyHash
            (entry.committedAt record.sequence) }

def readLine (number : Nat) (scan : Scan) (line : Bytes) : Except WorkflowActionReplayError Scan :=
  if line = [] then
    .error (corrupt prims number "blank record")
  else if workflowActionReplayMaxRecords ≤ scan.validRecordCount then
    .error (.capacityExceeded .records workflowActionReplayMaxRecords (scan.validRecordCount + 1))
  else
    match prims.fromSlice line with
    | .error error => .error (corrupt prims number ("JSON decode failed: " ++ error))
    | .ok record => do
      validateStoredRecord prims number record scan.lastSequence scan.lastRecordDigest
      let projection ←
        applyRecord prims number record.unsigned scan.projection
      return {
        projection := projection
        lastSequence := record.unsigned.sequence
        lastRecordDigest := record.recordDigest
        validRecordCount := scan.validRecordCount + 1 }

/-- The loop over the lines; `done` lines come before them. -/
def readLines (done : Nat) (scan : Scan) : List Bytes → Except WorkflowActionReplayError Scan
  | [] => .ok scan
  | line :: rest => do
    let next ← readLine prims (done + 1) scan line
    readLines (done + 1) next rest

def Scan.recovery (scan : Scan) (walBytes : Nat) : WorkflowActionReplayRecovery where
  entries := scan.projection.entries
  validRecordCount := scan.validRecordCount
  lastSequence := scan.lastSequence
  lastRecordDigest := scan.lastRecordDigest
  walBytes := walBytes

/-- `recover_workflow_action_replay_file_under_lock`. -/
def recoverWorkflowActionReplay (wal : Bytes) :
    Except WorkflowActionReplayError WorkflowActionReplayRecovery :=
  if workflowActionReplayMaxBytes < wal.length then
    .error (.capacityExceeded .bytes workflowActionReplayMaxBytes wal.length)
  else if wal ≠ [] ∧ ByteLines.endsWithLineFeed wal = false then
    .error (corrupt prims (ByteLines.cut wal).length "truncated final record")
  else if wal = [] then
    .ok (Scan.recovery {} 0)
  else do
    let scan ←
      readLines prims 0 {} (ByteLines.cut (ByteLines.stripLineFeed wal))
    return scan.recovery wal.length

end Recovery

end ForgeCore.ActionReplay
