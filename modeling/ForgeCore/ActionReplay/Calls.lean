import ForgeCore.ActionReplay.Wal
import ForgeCore.Library.Durable

/-!
# Reserving and committing an action

Each call holds the replay lock from its recovery to its last append.  One
append is one durable step; the process may be lost before any of them.
-/

namespace ForgeCore.ActionReplay

open Text Digest ForgeCore.Frame Machine
open Durable

/-- A request as the caller hands it in. -/
structure ActionRequest where
  actionPacketDigest : String
  originEventId : String
  plannedLedgerRecordDigest : String
  deriving DecidableEq, Repr

def validateDigest (field value : String) : Except WorkflowActionReplayError Unit :=
  if isSha256Token value then
    .ok ()
  else
    .error (.invalidInput field "must be a lowercase sha256:<64-hex> token")

def validateOrigin (value : String) : Except WorkflowActionReplayError Unit :=
  if trim value = "" then
    .error (.invalidInput "origin_event_id" "must not be blank")
  else if 1024 < (asBytes value).length then
    .error (.invalidInput "origin_event_id" "must not exceed 1024 bytes")
  else if value.toList.any isControl then
    .error (.invalidInput "origin_event_id" "must not contain control characters")
  else
    .ok ()

def ActionRequest.validate (request : ActionRequest) : Except WorkflowActionReplayError Unit := do
  validateDigest "action_packet_digest" request.actionPacketDigest
  validateOrigin request.originEventId
  validateDigest "planned_ledger_record_digest" request.plannedLedgerRecordDigest

/-- What a call reports about the entry that it touched. -/
structure WorkflowActionReplayMutation where
  appended : Bool
  sequence : Nat
  bytesAppended : Nat
  entry : WorkflowActionReplayEntry
  deriving DecidableEq, Repr

def existingMutation (entry : WorkflowActionReplayEntry) : WorkflowActionReplayMutation where
  appended := false
  sequence := entry.committedSequence.getD entry.reservedSequence
  bytesAppended := 0
  entry := entry

/-- A commit that still has to write, or one that is already on record. -/
inductive PreparedReplayCommit where
  | existing (entry : WorkflowActionReplayEntry)
  | append (reserveLine : Option Bytes) (commitLine : Bytes)
      (entry : WorkflowActionReplayEntry)
  deriving DecidableEq, Repr

/-- What a call appends, and what it then answers. -/
structure Plan where
  lines : List Bytes
  mutation : WorkflowActionReplayMutation
  deriving DecidableEq, Repr

def ensureCapacity (recovery : WorkflowActionReplayRecovery) (appendLength : Nat) :
    Except WorkflowActionReplayError Unit :=
  if workflowActionReplayMaxRecords < recovery.validRecordCount + 1 then
    .error (.capacityExceeded .records workflowActionReplayMaxRecords
      (recovery.validRecordCount + 1))
  else if workflowActionReplayMaxBytes < saturatingAdd recovery.walBytes appendLength then
    .error (.capacityExceeded .bytes workflowActionReplayMaxBytes
      (saturatingAdd recovery.walBytes appendLength))
  else
    .ok ()

def rejectCrossKeyReplay (recovery : WorkflowActionReplayRecovery)
    (packetDigest originEventIdHash : String) : Except WorkflowActionReplayError Unit :=
  if (recovery.entries.toList.map Prod.snd).any
      (fun entry => entry.actionPacketDigest = packetDigest) then
    .error (.packetReplayConflict packetDigest)
  else if (recovery.entries.toList.map Prod.snd).any
      (fun entry => entry.originEventIdHash = originEventIdHash) then
    .error (.originReplayConflict originEventIdHash)
  else
    .ok ()

section Calls

variable (prims : ReplayPrimitives)

def ActionRequest.originHash (request : ActionRequest) : String :=
  ActionReplay.originHash prims request.originEventId

def ActionRequest.keyHash (request : ActionRequest) : String :=
  replayKeyHash prims request.actionPacketDigest (request.originHash prims)

/-- The record of one operation on the pair of a request. -/
def ActionRequest.record (request : ActionRequest) (operation : WorkflowActionReplayOperation)
    (sequence : Nat) (priorRecordDigest : String) : UnsignedRecord where
  schemaVersion := workflowActionReplaySchemaVersion
  sequence := sequence
  operation := operation
  keyHash := request.keyHash prims
  actionPacketDigest := request.actionPacketDigest
  originEventIdHash := request.originHash prims
  plannedLedgerRecordDigest := request.plannedLedgerRecordDigest
  priorRecordDigest := priorRecordDigest

def signed (record : UnsignedRecord) : StoredRecord where
  unsigned := record
  recordDigest := digestCanonical prims record

def encodeLine (record : UnsignedRecord) : Bytes :=
  prims.storedToVec (signed prims record) ++ [ByteLines.lineFeed]

def ActionRequest.validateBinding (request : ActionRequest) (entry : WorkflowActionReplayEntry) :
    Except WorkflowActionReplayError Unit :=
  ActionReplay.validateBinding entry request.actionPacketDigest
    (request.originHash prims) request.plannedLedgerRecordDigest

/-- The part of `reserve_workflow_action` before its append. -/
def planReserve (request : ActionRequest) (wal : Bytes) :
    Except WorkflowActionReplayError Plan := do
  request.validate
  let recovery ← recoverWorkflowActionReplay prims wal
  match recovery.entries[request.keyHash prims]? with
  | some existing =>
    request.validateBinding prims existing
    return ⟨[], existingMutation existing⟩
  | none =>
    rejectCrossKeyReplay recovery request.actionPacketDigest (request.originHash prims)
    let sequence ← nextSequence recovery.lastSequence
    let record := request.record prims .reserve sequence recovery.lastRecordDigest
    let bytes := encodeLine prims record
    ensureCapacity recovery bytes.length
    return ⟨[bytes], {
      appended := true
      sequence := sequence
      bytesAppended := bytes.length
      entry := record.reservedEntry }⟩

/-- The part of `commit_workflow_action` before its append. -/
def planCommit (request : ActionRequest) (wal : Bytes) : Except WorkflowActionReplayError Plan := do
  request.validate
  let recovery ← recoverWorkflowActionReplay prims wal
  match recovery.entries[request.keyHash prims]? with
  | none => throw (.reservationMissing (request.keyHash prims))
  | some existing =>
    request.validateBinding prims existing
    if existing.state = .committed then
      return ⟨[], existingMutation existing⟩
    let sequence ← nextSequence recovery.lastSequence
    let bytes := encodeLine prims (request.record prims .commit sequence recovery.lastRecordDigest)
    ensureCapacity recovery bytes.length
    return ⟨[bytes], {
      appended := true
      sequence := sequence
      bytesAppended := bytes.length
      entry := existing.committedAt sequence }⟩

def beginWorkflowActionReplayReservation (request : ActionRequest) (wal : Bytes) :
    Except WorkflowActionReplayError PreparedReplayCommit := do
  request.validate
  let recovery ← recoverWorkflowActionReplay prims wal
  match recovery.entries[request.keyHash prims]? with
  | some existing =>
    request.validateBinding prims existing
    if existing.state = .committed then
      return .existing existing
    let sequence ← nextSequence recovery.lastSequence
    let commitLine :=
      encodeLine prims (request.record prims .commit sequence recovery.lastRecordDigest)
    ensureCapacity recovery commitLine.length
    return .append none commitLine (existing.committedAt sequence)
  | none =>
    rejectCrossKeyReplay recovery request.actionPacketDigest (request.originHash prims)
    let reservedSequence ← nextSequence recovery.lastSequence
    let reserve := request.record prims .reserve reservedSequence recovery.lastRecordDigest
    let reserveLine := encodeLine prims reserve
    ensureCapacity recovery reserveLine.length
    let committedSequence ← nextSequence reservedSequence
    let commitLine := encodeLine prims (request.record prims .commit committedSequence
          (digestCanonical prims reserve))
    ensureCapacity
      { recovery with
        validRecordCount := recovery.validRecordCount + 1
        walBytes := saturatingAdd recovery.walBytes reserveLine.length }
      commitLine.length
    return .append (some reserveLine) commitLine
      (reserve.reservedEntry.committedAt committedSequence)

/-- What `commit_after_authoritative_ledger` appends and answers. -/
def PreparedReplayCommit.plan : PreparedReplayCommit → Plan
  | existing entry => ⟨[], existingMutation entry⟩
  | append reserveLine commitLine entry =>
    ⟨reserveLine.toList ++ [commitLine], {
      appended := true
      sequence := entry.committedSequence.getD entry.reservedSequence
      bytesAppended := saturatingAdd (reserveLine.elim 0 List.length) commitLine.length
      entry := entry }⟩

abbrev Answer := Except WorkflowActionReplayError WorkflowActionReplayMutation

def appendWal (bytes : Bytes) : Computation Bytes Unit :=
  Computation.step fun wal => (wal ++ bytes, ())

def appendAll : List Bytes → Computation Bytes Unit
  | [] => pure ()
  | line :: rest => do
    appendWal line
    appendAll rest

def carryOut (plan : Plan) : Computation Bytes Answer := do
  appendAll plan.lines
  return .ok plan.mutation

def carryOutPlanned (plan : Bytes → Except WorkflowActionReplayError Plan) :
    Computation Bytes Answer := do
  match ← Computation.inspect plan with
  | .error error => return .error error
  | .ok planned => carryOut planned

def reserveWorkflowAction (request : ActionRequest) : Computation Bytes Answer :=
  carryOutPlanned (planReserve prims request)

def commitWorkflowAction (request : ActionRequest) : Computation Bytes Answer :=
  carryOutPlanned (planCommit prims request)

def commitAfterAuthoritativeLedger (prepared : PreparedReplayCommit) : Computation Bytes Answer :=
  carryOut prepared.plan

/-- The log, and the reservation of a process that holds its lock. -/
structure Store where
  wal : Bytes := []
  guard : Option PreparedReplayCommit := none

/-- The calls of a host, each under the lock of the log. -/
inductive Action where
  | reserve (request : ActionRequest)
  | commit (request : ActionRequest)
  | beginGuarded (request : ActionRequest)
  | commitGuarded
  /-- The reservation is dropped, or its process is lost. -/
  | dropGuard
  deriving DecidableEq, Repr

/-- The lock is free again after a call, however the call ends. -/
def settle : Outcome Bytes Answer → Store × Option Answer
  | .lost wal => (⟨wal, none⟩, none)
  | .finished wal _ answer => (⟨wal, none⟩, some answer)

/-- One action of a process that survives the given number of appends, and
the answer if there is one.  A call that finds the lock taken waits. -/
def advance (store : Store) (action : Action) (survives : Nat) : Store × Option Answer :=
  match action, store.guard with
  | .reserve request, none => settle (reserveWorkflowAction prims request survives store.wal)
  | .commit request, none => settle (commitWorkflowAction prims request survives store.wal)
  | .beginGuarded request, none =>
    match
      beginWorkflowActionReplayReservation prims request store.wal
    with
    | .ok prepared => (⟨store.wal, some prepared⟩, none)
    | .error error => (store, some (.error error))
  | .commitGuarded, some prepared =>
    settle (commitAfterAuthoritativeLedger prepared survives store.wal)
  | .dropGuard, _ => (⟨store.wal, none⟩, none)
  | _, _ => (store, none)

/-- The actions with the number of appends that their process survives. -/
abbrev History := List (Action × Nat)

def storeAfter (history : History) : Store :=
  history.foldl (fun store step => (advance prims store step.1 step.2).1) {}

end Calls

end ForgeCore.ActionReplay
