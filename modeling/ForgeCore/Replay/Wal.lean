import ForgeCore.Common
import ForgeCore.Library.Digest
import ForgeCore.Library.Frame
import ForgeCore.Library.Machine

/-!
# The replay log

Records, codec and recovery of the write-ahead log that makes a nonce single
use.  The file is its bytes.  `sha2`, `crc32c` and `serde_json` are outside
the repository and come in as `ReplayPrimitives`.
-/

namespace ForgeCore.Replay

open Text Digest ForgeCore.Frame Machine

def recordTypeReserve : UInt8 := 1

def recordTypeConsume : UInt8 := 2

def replayWalSchemaVersion : String := "0.1"

def replayWalMaxBytes : Nat := 8 * 1024 * 1024

def replayWalMaxRecords : Nat := 10000

def maxPayloadLen : Nat := 1024 * 1024

inductive ReplayWalOperation where
  | reserve
  | consume
  deriving DecidableEq, Repr

def ReplayWalOperation.recordType : ReplayWalOperation → UInt8
  | .reserve => recordTypeReserve
  | .consume => recordTypeConsume

def ReplayWalOperation.fromRecordType (value : UInt8) : Option ReplayWalOperation :=
  if value = recordTypeReserve then some .reserve
  else if value = recordTypeConsume then some .consume
  else none

inductive ReplayReservationState where
  | reserved
  | consumed
  deriving DecidableEq, Repr

/-- What a record says of one key. -/
structure ReplayWalPayload where
  schemaVersion : String
  operation : ReplayWalOperation
  keyHash : String
  intentDigest : String
  commitDigest : String
  revision : Nat
  expectedRevision : Option Nat
  deriving DecidableEq, Repr

structure ReplayWalRecord where
  seq : Nat
  operation : ReplayWalOperation
  payload : ReplayWalPayload
  offset : Nat
  recordLen : Nat
  deriving DecidableEq, Repr

/-- What the log knows of one key. -/
structure ReplayReservation where
  keyHash : String
  intentDigest : String
  commitDigest : String
  revision : Nat
  state : ReplayReservationState
  reservedSeq : Nat
  consumedSeq : Option Nat
  deriving DecidableEq, Repr

abbrev Reservations := Std.TreeMap String ReplayReservation

inductive ReplayWalStopReason where
  | cleanEof
  | truncatedHeader
  | invalidHeader
  | payloadTooLarge
  | truncatedPayload
  | payloadChecksumMismatch
  | unsupportedRecordType
  | sequenceGap
  | payloadDecodeFailed
  | invalidTransition
  | recordCapacityExceeded
  deriving DecidableEq, Repr

def ReplayWalStopReason.ofFrame : FrameStop → ReplayWalStopReason
  | .truncatedHeader => .truncatedHeader
  | .invalidHeader => .invalidHeader
  | .payloadTooLarge => .payloadTooLarge
  | .truncatedPayload => .truncatedPayload
  | .payloadChecksumMismatch => .payloadChecksumMismatch

def isSafeTornTail (reason : ReplayWalStopReason) : Bool :=
  reason = .truncatedHeader || reason = .truncatedPayload

/-- What is read from a log, up to where it stops. -/
structure ReplayWalRecovery where
  records : List ReplayWalRecord
  reservations : Reservations
  lastObservedSeq : Nat
  validRecordCount : Nat
  lastGoodOffset : Nat
  originalLen : Nat
  repaired : Bool
  stopReason : ReplayWalStopReason

def ReplayWalRecovery.isClean (recovery : ReplayWalRecovery) : Bool :=
  recovery.stopReason = .cleanEof || (recovery.repaired && isSafeTornTail recovery.stopReason)

inductive ReplayWalCapacityKind where
  | bytes
  | records
  deriving DecidableEq, Repr

inductive ReplayWalError where
  | invalidInput (field reason : String)
  | capacityExceeded (kind : ReplayWalCapacityKind) (limit observed : Nat)
  | recoveryStopped
      (stopReason : ReplayWalStopReason) (lastGoodOffset originalLen : Nat)
  | payloadTooLarge (byteLen maxByteLen : Nat)
  | sequenceOverflow (lastSeq : Nat)
  | duplicateNonce
      (keyHash : String) (revision : Nat) (state : ReplayReservationState)
  | reservationMissing (keyHash : String)
  | intentDigestMismatch (keyHash : String)
  | commitDigestMismatch (keyHash : String)
  | revisionMismatch (keyHash : String) (expected actual : Nat)
  | revisionOverflow (keyHash : String) (revision : Nat)
  | reservationNotReserved
      (keyHash : String) (state : ReplayReservationState)
  deriving DecidableEq, Repr

/-- The code outside the repository that the log is built on. -/
structure ReplayPrimitives where
  sha256 : Sha256
  crc32c : Bytes → UInt32
  toJson : ReplayWalPayload → Bytes
  fromJson : Bytes → Option ReplayWalPayload

/-- A payload decodes to what was encoded. -/
structure ReplayPrimitives.Lawful (prims : ReplayPrimitives) : Prop where
  fromJson_toJson : ∀ payload, prims.fromJson (prims.toJson payload) = some payload

section Codec

variable (prims : ReplayPrimitives)

/-- Frames with magic `FMR1`, version 1 and exactly the JSON payload flag. -/
def replayFormat : Format where
  magic := [70, 77, 82, 49]
  version := 1
  flags := 4
  flagsAccepted := fun flags => flags = 4
  maxPayloadLen := maxPayloadLen
  crc := prims.crc32c
  magic_length := rfl
  flags_lt := by decide
  flags_accepted := rfl
  maxPayloadLen_lt := by decide

def encodePayloadRecord (seq : Nat) (payload : ReplayWalPayload) : Except ReplayWalError Bytes :=
  let payloadBytes := prims.toJson payload
  if maxPayloadLen < payloadBytes.length then
    .error (.payloadTooLarge payloadBytes.length maxPayloadLen)
  else
    .ok ((replayFormat prims).encode seq payload.operation.recordType payloadBytes)

def decodeRecordAt (remaining : Bytes) (offset expectedSeq : Nat) :
    Except ReplayWalStopReason ReplayWalRecord :=
  match (replayFormat prims).decode remaining with
  | .error stop => .error (.ofFrame stop)
  | .ok frame =>
    if frame.seq ≠ expectedSeq then
      .error .sequenceGap
    else
      match ReplayWalOperation.fromRecordType frame.recordType with
      | none => .error .unsupportedRecordType
      | some operation =>
        match prims.fromJson frame.payload with
        | none => .error .payloadDecodeFailed
        | some payload =>
          if payload.schemaVersion ≠ replayWalSchemaVersion ||
              payload.operation ≠ operation || !isSha256Token payload.keyHash ||
              !isSha256Token payload.intentDigest || !isSha256Token payload.commitDigest then
            .error .payloadDecodeFailed
          else
            .ok
              { seq := frame.seq
                operation := operation
                payload := payload
                offset := offset
                recordLen := frame.recordLen }

/-- The reservations after a record, or `none` for a transition that the
record's operation does not allow. -/
def applyRecord (reservations : Reservations) (record : ReplayWalRecord) : Option Reservations :=
  let payload := record.payload
  match payload.operation with
  | .reserve =>
    if payload.revision ≠ 1 || payload.expectedRevision.isSome ||
        reservations.contains payload.keyHash then
      none
    else
      some (reservations.insert payload.keyHash
        { keyHash := payload.keyHash
          intentDigest := payload.intentDigest
          commitDigest := payload.commitDigest
          revision := 1
          state := .reserved
          reservedSeq := record.seq
          consumedSeq := none })
  | .consume =>
    match reservations[payload.keyHash]? with
    | none => none
    | some current =>
      if current.state = .reserved &&
          current.intentDigest = payload.intentDigest &&
          current.commitDigest = payload.commitDigest &&
          payload.expectedRevision = some current.revision &&
          checkedSucc current.revision = some payload.revision then
        some (reservations.insert payload.keyHash
          { current with
            revision := payload.revision
            state := .consumed
            consumedSeq := some record.seq })
      else
        none

/-- The state of the loop over the records. -/
structure DecodeState where
  records : List ReplayWalRecord
  reservations : Reservations
  offset : Nat
  expectedSeq : Nat

def DecodeState.initial : DecodeState := ⟨[], ∅, 0, 1⟩

/-- The loop of `decode_prefix_with_record_limit` on the bytes from the
current offset.  Every record takes at least one byte, so a fuel of the
remaining length never runs out. -/
def decodeLoop (maxRecords : Nat) : Nat → Bytes → DecodeState → DecodeState × ReplayWalStopReason
  | _, [], state => (state, .cleanEof)
  | 0, _ :: _, state => (state, .truncatedHeader)
  | fuel + 1, remaining@(_ :: _), state =>
    if maxRecords ≤ state.records.length then
      (state, .recordCapacityExceeded)
    else
      match decodeRecordAt prims remaining state.offset
          state.expectedSeq with
      | .error reason => (state, reason)
      | .ok record =>
        match applyRecord state.reservations record with
        | none => (state, .invalidTransition)
        | some reservations =>
          let rest := remaining.drop record.recordLen
          let next : DecodeState :=
            { records := state.records ++ [record]
              reservations := reservations
              offset := state.offset + record.recordLen
              expectedSeq := state.expectedSeq }
          if rest.isEmpty then
            (next, .cleanEof)
          else
            match checkedSucc state.expectedSeq with
            | none => (next, .sequenceGap)
            | some nextSeq =>
              decodeLoop maxRecords fuel rest
                { next with expectedSeq := nextSeq }

def decodePrefixWithRecordLimit (bytes : Bytes) (maxRecords : Nat) : ReplayWalRecovery :=
  let (state, stopReason) := decodeLoop prims maxRecords bytes.length bytes .initial
  { records := state.records
    reservations := state.reservations
    lastObservedSeq := (state.records.getLast?.map (·.seq)).getD 0
    validRecordCount := state.records.length
    lastGoodOffset := state.offset
    originalLen := bytes.length
    repaired := false
    stopReason := stopReason }

def decodePrefix (bytes : Bytes) : ReplayWalRecovery :=
  decodePrefixWithRecordLimit prims bytes replayWalMaxRecords

def recoverReplayWal (file : Bytes) (repair : Bool) :
    Except ReplayWalError (Bytes × ReplayWalRecovery) :=
  if replayWalMaxBytes < file.length then
    .error (.capacityExceeded .bytes replayWalMaxBytes file.length)
  else
    let recovery := decodePrefix prims file
    if recovery.stopReason = .recordCapacityExceeded then
      .error (.capacityExceeded .records replayWalMaxRecords (replayWalMaxRecords + 1))
    else if repair && recovery.lastGoodOffset < file.length &&
        isSafeTornTail recovery.stopReason then
      .ok (file.take recovery.lastGoodOffset,
        { recovery with repaired := true })
    else
      .ok (file, recovery)

end Codec

def ensureAppendable (recovery : ReplayWalRecovery) : Except ReplayWalError Unit :=
  if recovery.isClean then
    .ok ()
  else
    .error (.recoveryStopped recovery.stopReason recovery.lastGoodOffset recovery.originalLen)

def ensureAppendCapacity (recovery : ReplayWalRecovery)
    (recordBytes : Nat) : Except ReplayWalError Unit :=
  let nextRecords := recovery.validRecordCount + 1
  let nextBytes := recovery.lastGoodOffset + recordBytes
  if replayWalMaxRecords < nextRecords then
    .error (.capacityExceeded .records replayWalMaxRecords nextRecords)
  else if replayWalMaxBytes < nextBytes then
    .error (.capacityExceeded .bytes replayWalMaxBytes nextBytes)
  else
    .ok ()

end ForgeCore.Replay
