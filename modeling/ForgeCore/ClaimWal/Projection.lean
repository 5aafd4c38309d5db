import ForgeCore.ClaimWal.Record

/-!
# The projection of the claim log

What the records of a log say about every claim: its latest contract, and the
open, released and handed-off ones by id.  A record that does not fit what the
log said before is reported and dropped.
-/

namespace ForgeCore.ClaimWal

open Claims

/-- A claim with the record that set it last. -/
structure ProjectedClaim where
  claimContract : ClaimContract
  lastSeq : Nat
  lastOperation : ClaimWalOperation
  recordedAt : String
  walOffset : Nat
deriving DecidableEq, Repr

inductive DiagnosticSeverity where
  | warning
  | error
deriving DecidableEq, Repr

inductive DiagnosticCode where
  | heartbeatWithoutActiveClaim
  | heartbeatAgentMismatch
  | releaseWithoutActiveClaim
  | releaseAgentMismatch
  | handoffWithoutActiveClaim
  | handoffAgentMismatch
  | reconcileWithoutOpenClaim
  | reconcileAgentMismatch
  | reacquireByDifferentAgent
  | operationStatusMismatch
deriving DecidableEq, Repr

structure ProjectionDiagnostic where
  severity : DiagnosticSeverity
  code : DiagnosticCode
  seq : Nat
  claimId : String
  message : String
deriving DecidableEq, Repr

def projectionWarning (code : DiagnosticCode) (record : ClaimWalRecord)
    (message : String) : ProjectionDiagnostic where
  severity := .warning
  code := code
  seq := record.seq
  claimId := record.payload.claimContract.id.value
  message := message

def projectedClaim (record : ClaimWalRecord) : ProjectedClaim where
  claimContract := record.payload.claimContract
  lastSeq := record.seq
  lastOperation := record.operation
  recordedAt := record.payload.recordedAt
  walOffset := record.offset

abbrev ClaimMap := Std.ExtTreeMap String ProjectedClaim

def ClaimMap.projected (map : ClaimMap) : List ProjectedClaim :=
  map.toList.map Prod.snd

/-! ## How a record is judged -/

inductive MissingOp where
  | heartbeat
  | release
  | reconcile
deriving DecidableEq, Repr

def missingDiagCode : MissingOp → DiagnosticCode
  | .heartbeat => .heartbeatWithoutActiveClaim
  | .release => .releaseWithoutActiveClaim
  | .reconcile => .reconcileWithoutOpenClaim

def mismatchDiagCode : MissingOp → DiagnosticCode
  | .heartbeat => .heartbeatAgentMismatch
  | .release => .releaseAgentMismatch
  | .reconcile => .reconcileAgentMismatch

def missingMessage : MissingOp → String
  | .heartbeat => "heartbeat has no matching active claim"
  | .release => "release has no matching active claim"
  | .reconcile => "reconcile status record has no matching active claim"

/-- What a record of an open claim is refused for, if anything. -/
def matchingActiveClaim (record : ClaimWalRecord) (active : ClaimMap)
    (op : MissingOp) : Option ProjectionDiagnostic :=
  match active[record.payload.claimContract.id.value]? with
  | none => some (projectionWarning (missingDiagCode op) record (missingMessage op))
  | some claim =>
    if claim.claimContract.claim.claimantAgentId ≠
        record.payload.claimContract.claim.claimantAgentId then
      some (projectionWarning (mismatchDiagCode op) record
        "claim lifecycle record agent does not match active claim agent")
    else
      none

/-- A handoff is also taken for a claim that requires one. -/
def acceptsHandoff : ClaimStatus → Bool
  | .active | .stale | .handoffRequired => true
  | .expired | .handoffRecorded | .released => false

def matchingOpenClaimForHandoff (record : ClaimWalRecord)
    (latest : ClaimMap) : Option ProjectionDiagnostic :=
  match latest[record.payload.claimContract.id.value]? with
  | none =>
    some (projectionWarning .handoffWithoutActiveClaim record "handoff has no matching open claim")
  | some claim =>
    if !acceptsHandoff claim.claimContract.status.value then
      some (projectionWarning .handoffWithoutActiveClaim record
        "handoff target is not open or handoff-required")
    else if claim.claimContract.claim.claimantAgentId ≠
        record.payload.claimContract.claim.claimantAgentId then
      some (projectionWarning .handoffAgentMismatch record
        "handoff lifecycle record agent does not match open claim agent")
    else
      none

/-- The operation fits the status of the claim that it carries. -/
def statusMatches (record : ClaimWalRecord) : Bool :=
  let status := record.payload.claimContract.status.value
  match record.operation with
  | .acquire | .heartbeat => status = .active
  | .release => status = .released
  | .handoffRecorded => status = .handoffRecorded
  | .reconcileStatus => status = .stale || status = .expired || status = .handoffRequired

def statusMismatchDiagnostic (record : ClaimWalRecord) : List ProjectionDiagnostic :=
  if statusMatches record then []
  else
    [projectionWarning .operationStatusMismatch record
      "claim WAL operation does not match embedded claim status"]

/-- Reported, but applied all the same. -/
def reacquireDiagnostic (record : ClaimWalRecord) (active : ClaimMap) : List ProjectionDiagnostic :=
  match active[record.payload.claimContract.id.value]? with
  | none => []
  | some claim =>
    if claim.claimContract.claim.claimantAgentId ≠
        record.payload.claimContract.claim.claimantAgentId then
      [projectionWarning .reacquireByDifferentAgent record
        "acquire replaced an active claim held by another agent"]
    else
      []

/-- Every claim by id; the active, released and handed over ones apart. -/
structure ClaimMaps where
  latest : ClaimMap
  active : ClaimMap
  released : ClaimMap
  handoffRecorded : ClaimMap

def ClaimMaps.empty : ClaimMaps := ⟨∅, ∅, ∅, ∅⟩

/-- The state of the loop over the records. -/
structure ProjectionAccumulator where
  maps : ClaimMaps
  diagnostics : List ProjectionDiagnostic
  lastAppliedSeq : Nat
  appliedRecords : Nat

def ProjectionAccumulator.initial : ProjectionAccumulator :=
  ⟨.empty, [], 0, 0⟩

namespace ClaimMaps

variable (maps : ClaimMaps) (claimId : String) (claim : ProjectedClaim)

def acquire : ClaimMaps where
  latest := maps.latest.insert claimId claim
  active := maps.active.insert claimId claim
  released := maps.released.erase claimId
  handoffRecorded := maps.handoffRecorded.erase claimId

def heartbeat : ClaimMaps :=
  { maps with
    latest := maps.latest.insert claimId claim
    active := maps.active.insert claimId claim }

def release : ClaimMaps where
  latest := maps.latest.insert claimId claim
  active := maps.active.erase claimId
  released := maps.released.insert claimId claim
  handoffRecorded := maps.handoffRecorded.erase claimId

def recordHandoff : ClaimMaps where
  latest := maps.latest.insert claimId claim
  active := maps.active.erase claimId
  released := maps.released.erase claimId
  handoffRecorded := maps.handoffRecorded.insert claimId claim

def reconcile : ClaimMaps where
  latest := maps.latest.insert claimId claim
  active :=
    if claim.claimContract.status.value.isOpen then
      maps.active.insert claimId claim
    else
      maps.active.erase claimId
  released := maps.released.erase claimId
  handoffRecorded := maps.handoffRecorded.erase claimId

def seed : ClaimMaps where
  latest := maps.latest.insert claimId claim
  active :=
    if claim.claimContract.status.value.isOpen then
      maps.active.insert claimId claim
    else
      maps.active.erase claimId
  released :=
    if claim.claimContract.status.value = .released then
      maps.released.insert claimId claim
    else
      maps.released.erase claimId
  handoffRecorded :=
    if claim.claimContract.status.value = .handoffRecorded then
      maps.handoffRecorded.insert claimId claim
    else
      maps.handoffRecorded.erase claimId

end ClaimMaps

def seededClaim (claim : ClaimWalSnapshotClaim) : ProjectedClaim where
  claimContract := claim.claimContract
  lastSeq := claim.lastSeq
  lastOperation := claim.lastOperation
  recordedAt := claim.recordedAt
  walOffset := 0

/-- What judges a record, before it is applied. -/
def refusal (maps : ClaimMaps) (record : ClaimWalRecord) : Option ProjectionDiagnostic :=
  match record.operation with
  | .acquire => none
  | .heartbeat => matchingActiveClaim record maps.active .heartbeat
  | .release => matchingActiveClaim record maps.active .release
  | .handoffRecorded => matchingOpenClaimForHandoff record maps.latest
  | .reconcileStatus => matchingActiveClaim record maps.active .reconcile

def appliedMaps (maps : ClaimMaps) (record : ClaimWalRecord) : ClaimMaps :=
  let claimId := record.payload.claimContract.id.value
  let projected := projectedClaim record
  match record.operation with
  | .acquire => maps.acquire claimId projected
  | .heartbeat => maps.heartbeat claimId projected
  | .release => maps.release claimId projected
  | .handoffRecorded => maps.recordHandoff claimId projected
  | .reconcileStatus => maps.reconcile claimId projected

/-- The reports about a record that do not keep it from being applied. -/
def remarks (maps : ClaimMaps) (record : ClaimWalRecord) : List ProjectionDiagnostic :=
  statusMismatchDiagnostic record ++
    match record.operation with
    | .acquire => reacquireDiagnostic record maps.active
    | _ => []

namespace ProjectionAccumulator

def seedSnapshot (accumulator : ProjectionAccumulator)
    (snapshot : ClaimWalSnapshotPayload) : ProjectionAccumulator :=
  { accumulator with
    maps := snapshot.latestClaims.foldl (fun maps claim =>
          maps.seed claim.claimContract.id.value (seededClaim claim))
        accumulator.maps
    lastAppliedSeq := snapshot.lastSeq }

def applyRecord (accumulator : ProjectionAccumulator)
    (record : ClaimWalRecord) : ProjectionAccumulator :=
  let diagnostics := accumulator.diagnostics ++ remarks accumulator.maps record
  match refusal accumulator.maps record with
  | some diagnostic => { accumulator with diagnostics := diagnostics ++ [diagnostic] }
  | none =>
    { maps := appliedMaps accumulator.maps record
      diagnostics
      lastAppliedSeq := record.seq
      appliedRecords := accumulator.appliedRecords + 1 }

end ProjectionAccumulator

abbrev ClaimIdIndex := Std.ExtTreeMap String (List String)

/-- `entry(key).or_default().push(claim_id)`. -/
def pushIndex (index : ClaimIdIndex) (key claimId : String) : ClaimIdIndex :=
  index.alter key fun ids => some (ids.getD [] ++ [claimId])

/-- `sort` and `dedup` of every entry. -/
def sortIndexValues (index : ClaimIdIndex) : ClaimIdIndex :=
  index.map fun _ ids =>
    (ids.mergeSort fun left right => left ≤ right).destutter (· ≠ ·)

/-- The open claims by owner, scope and path. -/
structure ActiveIndexes where
  byAgent : ClaimIdIndex
  byScope : ClaimIdIndex
  byPath : ClaimIdIndex

def indexClaim (indexes : ActiveIndexes) (claimId : String)
    (contract : ClaimContract) : ActiveIndexes where
  byAgent := pushIndex indexes.byAgent contract.claim.claimantAgentId.value claimId
  byScope := pushIndex indexes.byScope contract.scope.id.value claimId
  byPath :=
    contract.scope.paths.foldl (fun index path => pushIndex index path.value claimId) indexes.byPath

def buildActiveIndexes (active : ClaimMap) : ActiveIndexes :=
  let indexes := active.toList.foldl (fun indexes entry =>
        indexClaim indexes entry.1 entry.2.claimContract)
      ⟨∅, ∅, ∅⟩
  ⟨sortIndexValues indexes.byAgent, sortIndexValues indexes.byScope, sortIndexValues indexes.byPath⟩

/-- What is derived from a recovered log. -/
structure ClaimWalProjection where
  lastAppliedSeq : Nat
  appliedRecords : Nat
  claims : List ClaimContract
  maps : ClaimMaps
  indexes : ActiveIndexes
  diagnostics : List ProjectionDiagnostic

/-- What a recovery hands to the projection: the snapshot of the checkpoint
at the front, and the records behind it. -/
structure ClaimLog where
  snapshot : Option ClaimWalSnapshotPayload
  records : List ClaimWalRecord

def ClaimWalRecovery.log (recovery : ClaimWalRecovery) : ClaimLog :=
  ⟨recovery.checkpoint.map (·.snapshot), recovery.records⟩

namespace ClaimLog

def empty : ClaimLog := ⟨none, []⟩

def seeded (snapshot : Option ClaimWalSnapshotPayload) : ProjectionAccumulator :=
  match snapshot with
  | none => .initial
  | some snapshot => ProjectionAccumulator.initial.seedSnapshot snapshot

def accumulate (log : ClaimLog) : ProjectionAccumulator :=
  log.records.foldl ProjectionAccumulator.applyRecord (seeded log.snapshot)

def project (log : ClaimLog) : ClaimWalProjection :=
  let accumulator := log.accumulate
  { lastAppliedSeq := accumulator.lastAppliedSeq
    appliedRecords := accumulator.appliedRecords
    claims := (ClaimMap.projected accumulator.maps.latest).map (·.claimContract)
    maps := accumulator.maps
    indexes := buildActiveIndexes accumulator.maps.active
    diagnostics := accumulator.diagnostics }

end ClaimLog

def projectClaimWalRecovery (recovery : ClaimWalRecovery) : ClaimWalProjection :=
  recovery.log.project

def snapshotClaim (claim : ProjectedClaim) : ClaimWalSnapshotClaim where
  claimContract := claim.claimContract
  lastSeq := claim.lastSeq
  lastOperation := claim.lastOperation
  recordedAt := claim.recordedAt

def snapshotClaimsFromProjection (projection : ClaimWalProjection) : List ClaimWalSnapshotClaim :=
  (ClaimMap.projected projection.maps.latest).map snapshotClaim

/-- When a rotation happens, and the last number of the log it compacts. -/
structure RotationStamp where
  createdAt : String
  createdAtMs : Nat
  lastSeq : Nat
deriving DecidableEq, Repr

def snapshotOf (stamp : RotationStamp) (projection : ClaimWalProjection) :
    ClaimWalSnapshotPayload where
  schemaVersion := "0.1"
  createdAt := stamp.createdAt
  createdAtMs := stamp.createdAtMs
  lastSeq := stamp.lastSeq
  latestClaims := snapshotClaimsFromProjection projection

namespace ClaimLog

def append (log : ClaimLog) (record : ClaimWalRecord) : ClaimLog :=
  { log with records := log.records ++ [record] }

def rotate (log : ClaimLog) (stamp : RotationStamp) : ClaimLog :=
  ⟨some (snapshotOf stamp log.project), []⟩

end ClaimLog

end ForgeCore.ClaimWal
