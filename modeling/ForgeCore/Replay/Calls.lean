import ForgeCore.Replay.Wal

/-!
# Reserving and consuming a nonce

The four calls that write the replay log.  Each holds the replay lock from its
recovery to its append, so a call is one step of the file; a crash may cut the
append after any number of bytes.
-/

namespace ForgeCore.Replay

open Text Digest ForgeCore.Frame Machine

def keyHashDomain : Bytes :=
  asBytes "forge-method:replay-nonce-key:v1" ++ [0]

def validateNonblank (field value : String) : Except ReplayWalError Unit :=
  if trim value = "" then
    .error (.invalidInput field "must not be blank")
  else
    .ok ()

def validateSha256Field (field value : String) : Except ReplayWalError Unit :=
  if isSha256Token value then
    .ok ()
  else
    .error (.invalidInput field "must be a lowercase sha256:<64-hex> token")

def validateExpectedRevision (revision : Nat) : Except ReplayWalError Unit :=
  if revision = 0 then
    .error (.invalidInput "expected_revision" "must be greater than zero")
  else
    .ok ()

def nextSequence (lastSeq : Nat) : Except ReplayWalError Nat :=
  match checkedSucc lastSeq with
  | some seq => .ok seq
  | none => .error (.sequenceOverflow lastSeq)

def lengthPrefixed (value : Bytes) : Bytes :=
  leBytes 8 value.length ++ value

/-- The identity that a nonce has in one log. -/
structure ReplayKey where
  principalId : PrincipalId
  audience : String
  nonce : String
  deriving DecidableEq, Repr

/-- A record that is encoded and checked, and only has to be appended. -/
structure PreparedAppend where
  seq : Nat
  bytes : Bytes
  reservation : ReplayReservation

/-- What a consume has to do after the log is read. -/
inductive ConsumePlan where
  | alreadyConsumed (seq : Nat) (reservation : ReplayReservation)
  | append (prepared : PreparedAppend)

section Calls

variable (prims : ReplayPrimitives)

/-- The hash of the domain and the length-prefixed components. -/
def keyToken (key : ReplayKey) : String :=
  formatSha256 (prims.sha256 (keyHashDomain ++ lengthPrefixed (asBytes key.principalId.value) ++
        lengthPrefixed (asBytes key.audience) ++ lengthPrefixed (asBytes key.nonce))).toList

def replayNonceKeyHash (key : ReplayKey) : Except ReplayWalError String := do
  validateNonblank "principal_id" key.principalId.value
  validateNonblank "audience" key.audience
  validateNonblank "nonce" key.nonce
  return keyToken prims key

def reserveReplayNonceRecovered (recovery : ReplayWalRecovery)
    (keyHash intentDigest commitDigest : String) : Except ReplayWalError PreparedAppend :=
  match recovery.reservations[keyHash]? with
  | some existing => .error (.duplicateNonce keyHash existing.revision existing.state)
  | none => do
    let seq ← nextSequence recovery.lastObservedSeq
    let bytes ← encodePayloadRecord prims seq
      { schemaVersion := replayWalSchemaVersion
        operation := .reserve
        keyHash := keyHash
        intentDigest := intentDigest
        commitDigest := commitDigest
        revision := 1
        expectedRevision := none }
    ensureAppendCapacity recovery bytes.length
    return {
      seq := seq
      bytes := bytes
      reservation :=
        { keyHash := keyHash
          intentDigest := intentDigest
          commitDigest := commitDigest
          revision := 1
          state := .reserved
          reservedSeq := seq
          consumedSeq := none } }

/-- The consume record of a reservation that is still reserved. -/
def prepareConsume (recovery : ReplayWalRecovery) (existing : ReplayReservation)
    (keyHash intentDigest commitDigest : String) (expectedRevision : Nat) :
    Except ReplayWalError PreparedAppend :=
  if existing.revision ≠ expectedRevision then
    .error (.revisionMismatch keyHash expectedRevision existing.revision)
  else
    match checkedSucc expectedRevision with
    | none => .error (.revisionOverflow keyHash expectedRevision)
    | some revision => do
      let seq ← nextSequence recovery.lastObservedSeq
      let bytes ← encodePayloadRecord prims seq
        { schemaVersion := replayWalSchemaVersion
          operation := .consume
          keyHash := keyHash
          intentDigest := intentDigest
          commitDigest := commitDigest
          revision := revision
          expectedRevision := some expectedRevision }
      ensureAppendCapacity recovery bytes.length
      return {
        seq := seq
        bytes := bytes
        reservation :=
          { keyHash := keyHash
            intentDigest := intentDigest
            commitDigest := commitDigest
            revision := revision
            state := .consumed
            reservedSeq := existing.reservedSeq
            consumedSeq := some seq } }

/-- The reservation under a key hash, if it carries these digests. -/
def boundReservation (recovery : ReplayWalRecovery) (keyHash intentDigest commitDigest : String) :
    Except ReplayWalError ReplayReservation :=
  match recovery.reservations[keyHash]? with
  | none => .error (.reservationMissing keyHash)
  | some existing =>
    if existing.intentDigest ≠ intentDigest then
      .error (.intentDigestMismatch keyHash)
    else if existing.commitDigest ≠ commitDigest then
      .error (.commitDigestMismatch keyHash)
    else
      .ok existing

/-- The recovery consume: an exact retry of a consumed binding appends
nothing. -/
def consumeReplayRecovered (recovery : ReplayWalRecovery)
    (keyHash intentDigest commitDigest : String) (expectedRevision : Nat) :
    Except ReplayWalError ConsumePlan := do
  let existing ←
    boundReservation recovery keyHash intentDigest commitDigest
  if existing.state = .consumed then
    let reservationRevision := existing.revision - 1
    if expectedRevision = reservationRevision then
      .ok (.alreadyConsumed (existing.consumedSeq.getD existing.reservedSeq) existing)
    else
      .error (.revisionMismatch keyHash expectedRevision reservationRevision)
  else
    (prepareConsume prims recovery existing keyHash intentDigest
      commitDigest expectedRevision).map .append

/-- The guard: a binding that is not reserved any more is refused. -/
def prepareReplayGuardState (recovery : ReplayWalRecovery)
    (keyHash intentDigest commitDigest : String) (expectedRevision : Nat) :
    Except ReplayWalError PreparedAppend := do
  let existing ←
    boundReservation recovery keyHash intentDigest commitDigest
  if existing.state ≠ .reserved then
    .error (.reservationNotReserved keyHash existing.state)
  else
    prepareConsume prims recovery existing keyHash intentDigest commitDigest expectedRevision

/-- The calls of a host, each under the lock of the log. -/
inductive ReplayCall where
  | reserve (key : ReplayKey) (intentDigest commitDigest : String)
  | consumeNonBoundary
      (key : ReplayKey) (intentDigest commitDigest : String)
      (expectedRevision : Nat)
  | consumeKeyHash
      (keyHash intentDigest commitDigest : String) (expectedRevision : Nat)
  | guardedConsume
      (key : ReplayKey) (intentDigest commitDigest : String)
      (expectedRevision : Nat)
  deriving DecidableEq, Repr

def ReplayCall.validate : ReplayCall → Except ReplayWalError String
  | .reserve key intentDigest commitDigest => do
    validateSha256Field "intent_digest" intentDigest
    validateSha256Field "commit_digest" commitDigest
    replayNonceKeyHash prims key
  | .consumeNonBoundary key intentDigest commitDigest expectedRevision
  | .guardedConsume key intentDigest commitDigest expectedRevision => do
    validateSha256Field "intent_digest" intentDigest
    validateSha256Field "commit_digest" commitDigest
    validateExpectedRevision expectedRevision
    replayNonceKeyHash prims key
  | .consumeKeyHash keyHash intentDigest commitDigest expectedRevision => do
    validateSha256Field "key_hash" keyHash
    validateSha256Field "intent_digest" intentDigest
    validateSha256Field "commit_digest" commitDigest
    validateExpectedRevision expectedRevision
    return keyHash

def ReplayCall.plan (recovery : ReplayWalRecovery) (keyHash : String) :
    ReplayCall → Except ReplayWalError ConsumePlan
  | .reserve _ intentDigest commitDigest =>
    (reserveReplayNonceRecovered prims recovery keyHash intentDigest commitDigest).map .append
  | .consumeNonBoundary _ intentDigest commitDigest expectedRevision
  | .consumeKeyHash _ intentDigest commitDigest expectedRevision =>
    consumeReplayRecovered prims recovery keyHash intentDigest commitDigest expectedRevision
  | .guardedConsume _ intentDigest commitDigest expectedRevision =>
    (prepareReplayGuardState prims recovery keyHash intentDigest
      commitDigest expectedRevision).map .append

/-- What the caller learns, or that the process was cut off. -/
inductive ReplayOutcome where
  | failed (error : ReplayWalError)
  | crashed
  | reserved (seq bytesAppended : Nat) (reservation : ReplayReservation)
  | consumed
      (seq bytesAppended : Nat) (appended : Bool)
      (reservation : ReplayReservation)
  deriving DecidableEq, Repr

def ReplayCall.acknowledge (call : ReplayCall) (prepared : PreparedAppend) : ReplayOutcome :=
  match call with
  | .reserve .. => .reserved prepared.seq prepared.bytes.length prepared.reservation
  | .consumeNonBoundary .. | .consumeKeyHash .. | .guardedConsume .. =>
    .consumed prepared.seq prepared.bytes.length true prepared.reservation

/-- One call on the file.  `cut` is the number of bytes of its append that
reach the disk when the process is lost; without it the call returns. -/
def replayStep (file : Bytes) (call : ReplayCall) (cut : Option Nat) : Bytes × ReplayOutcome :=
  match call.validate prims with
  | .error error => (file, .failed error)
  | .ok keyHash =>
    match recoverReplayWal prims file true with
    | .error error => (file, .failed error)
    | .ok (repaired, recovery) =>
      match ensureAppendable recovery with
      | .error error => (repaired, .failed error)
      | .ok () =>
        match call.plan prims recovery keyHash with
        | .error error => (repaired, .failed error)
        | .ok (.alreadyConsumed seq reservation) => (repaired, .consumed seq 0 false reservation)
        | .ok (.append prepared) =>
          match cut with
          | some written => (repaired ++ prepared.bytes.take written, .crashed)
          | none => (repaired ++ prepared.bytes, call.acknowledge prepared)

def replayFile (history : List (ReplayCall × Option Nat)) : Bytes :=
  history.foldl (fun file entry => (replayStep prims file entry.1 entry.2).1) []

def replayTrace (file : Bytes) : List (ReplayCall × Option Nat) → List (ReplayCall × ReplayOutcome)
  | [] => []
  | entry :: rest =>
    let result := replayStep prims file entry.1 entry.2
    (entry.1, result.2) :: replayTrace result.1 rest

end Calls

end ForgeCore.Replay
