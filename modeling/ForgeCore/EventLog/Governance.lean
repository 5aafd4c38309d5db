import ForgeCore.Conflict
import ForgeCore.EventLog.Lines

/-!
# The governance ledger

Conflicts are recorded and resolved by events; the projection of a file of
them is the state of the arbitration.
-/

namespace ForgeCore.EventLog

open Machine

/-- The part of the policy that the ledger reads. -/
structure GovernancePolicy where
  authorizedReviewers : List PrincipalId
deriving DecidableEq, Repr

def GovernancePolicy.canArbitrate (policy : GovernancePolicy) (principal : PrincipalId) : Bool :=
  policy.authorizedReviewers.any fun reviewer => reviewer = principal

inductive GovernanceEvent where
  | detected (sequence atUnix : Nat) (conflict : ConflictContract)
  | resolved (sequence atUnix : Nat) (conflictId : StableId)
      (arbiter : PrincipalId) (decision : ResolutionDecision)
  | escalated (sequence atUnix : Nat) (conflictId : StableId)
deriving DecidableEq, Repr

def GovernanceEvent.sequence : GovernanceEvent → Nat
  | .detected sequence _ _ => sequence
  | .resolved sequence _ _ _ _ => sequence
  | .escalated sequence _ _ => sequence

/-- The conflicts by id, as the events leave them. -/
structure ArbitrationProjection where
  sequence : Nat
  conflicts : Std.ExtTreeMap String ConflictContract
  diagnostics : List ProjectionDiagnostic

namespace GovernanceDomain

def resolutionTargetMissing (event : String) (conflictId : StableId) : ProjectionDiagnostic where
  severity := .warning
  code := "resolution_target_missing"
  message := event ++ " event targeted unknown conflict " ++ conflictId.value

def setResolution (projection : ArbitrationProjection) (event : String)
    (conflictId : StableId) (resolution : ConflictResolutionState) : ArbitrationProjection :=
  match projection.conflicts[conflictId.value]? with
  | some conflict =>
    { projection with
      conflicts := projection.conflicts.insert conflictId.value
          { conflict with resolution := resolution } }
  | none =>
    { projection with
      diagnostics := projection.diagnostics ++ [resolutionTargetMissing event conflictId] }

def apply (projection : ArbitrationProjection) : GovernanceEvent → ArbitrationProjection
  | .detected _ _ conflict =>
    { projection with
      conflicts := projection.conflicts.insert conflict.conflictId.value conflict }
  | .resolved _ atUnix conflictId arbiter decision =>
    setResolution projection "Resolved" conflictId (.resolved arbiter atUnix decision)
  | .escalated _ _ conflictId => setResolution projection "Escalated" conflictId .escalated

end GovernanceDomain

def governanceDomain : EventSourced GovernanceEvent ArbitrationProjection ProjectionDiagnostic where
  sequence := GovernanceEvent.sequence
  empty := ⟨0, ∅, []⟩
  apply := GovernanceDomain.apply
  recordDiagnostic projection diagnostic :=
    { projection with
      diagnostics := projection.diagnostics ++ [diagnostic] }
  sequenceOf := ArbitrationProjection.sequence
  advanceSequence projection newSequence :=
    { projection with sequence := newSequence }
  diagnosticOutOfOrderEventIgnored := outOfOrderEventIgnored
  diagnosticTornFinalLineSkipped := tornFinalLineSkipped
  sequenceOf_empty := rfl
  sequenceOf_advance := fun _ _ => rfl
  sequenceOf_diagnostic := fun _ _ => rfl

inductive RecordStatus where
  | recorded (sequence : Nat)
  | alreadyRecorded
  | storeError (error : EventLogError)
deriving DecidableEq, Repr

/-- How an arbitration or an escalation ends; `closed` is `Resolved` for the
one and `Escalated` for the other. -/
inductive ClosingStatus where
  | closed (sequence : Nat)
  | deniedByGate
  | conflictNotFound
  | notPending
  | storeError (error : EventLogError)
deriving DecidableEq, Repr

section Calls

variable (codec : EventCodec GovernanceEvent)

def recordWithDurability (file : List UInt8) (conflict : ConflictContract)
    (nowUnix : Nat) : List UInt8 × RecordStatus :=
  match replayBytes governanceDomain codec file with
  | .error source => (file, .storeError source)
  | .ok projection =>
    if projection.conflicts.contains conflict.conflictId.value then
      (file, .alreadyRecorded)
    else
      match nextSequence governanceDomain projection with
      | .error source => (file, .storeError source)
      | .ok sequence =>
        (append codec file (.detected sequence nowUnix conflict), .recorded sequence)

/-- The common body of arbitration and escalation, with the event that closes
the conflict. -/
def closePending (file : List UInt8) (conflictId : StableId)
    (principal : PrincipalId) (policy : GovernancePolicy)
    (event : Nat → GovernanceEvent) : List UInt8 × ClosingStatus :=
  if !policy.canArbitrate principal then
    (file, .deniedByGate)
  else
    match replayBytes governanceDomain codec file with
    | .error source => (file, .storeError source)
    | .ok projection =>
      match projection.conflicts[conflictId.value]? with
      | none => (file, .conflictNotFound)
      | some conflict =>
        if conflict.resolution ≠ .pending then
          (file, .notPending)
        else
          match nextSequence governanceDomain projection with
          | .error source => (file, .storeError source)
          | .ok sequence => (append codec file (event sequence), .closed sequence)

def arbitrateWithDurability (file : List UInt8) (conflictId : StableId)
    (arbiter : PrincipalId) (decision : ResolutionDecision)
    (policy : GovernancePolicy) (nowUnix : Nat) : List UInt8 × ClosingStatus :=
  closePending codec file conflictId arbiter policy fun sequence =>
    .resolved sequence nowUnix conflictId arbiter decision

def escalateWithDurability (file : List UInt8) (conflictId : StableId)
    (principal : PrincipalId) (policy : GovernancePolicy)
    (nowUnix : Nat) : List UInt8 × ClosingStatus :=
  closePending codec file conflictId principal policy fun sequence =>
    .escalated sequence nowUnix conflictId

/-- One call; each is atomic under the lock of the stream. -/
inductive GovernanceCall where
  | record (conflict : ConflictContract) (nowUnix : Nat)
  | arbitrate (conflictId : StableId) (arbiter : PrincipalId)
      (decision : ResolutionDecision) (policy : GovernancePolicy)
      (nowUnix : Nat)
  | escalate (conflictId : StableId) (principal : PrincipalId)
      (policy : GovernancePolicy) (nowUnix : Nat)
deriving DecidableEq, Repr

def RecordStatus.appended : RecordStatus → Bool
  | .recorded _ => true
  | _ => false

def ClosingStatus.appended : ClosingStatus → Bool
  | .closed _ => true
  | _ => false

/-- The file that a call leaves, and whether it reports an event. -/
def GovernanceCall.run (call : GovernanceCall) (file : List UInt8) : List UInt8 × Bool :=
  match call with
  | .record conflict nowUnix =>
    let (after, status) := recordWithDurability codec file conflict nowUnix
    (after, status.appended)
  | .arbitrate conflictId arbiter decision policy nowUnix =>
    let (after, status) :=
      arbitrateWithDurability codec file conflictId arbiter decision policy nowUnix
    (after, status.appended)
  | .escalate conflictId principal policy nowUnix =>
    let (after, status) := escalateWithDurability codec file conflictId principal policy nowUnix
    (after, status.appended)

def governanceFile (calls : List GovernanceCall) : List UInt8 :=
  calls.foldl (fun file call => (call.run codec file).1) []

end Calls

end ForgeCore.EventLog
