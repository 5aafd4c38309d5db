import ForgeCore.Claims.Contract

/-!
# Tool effect contracts

The declared reads, writes and repair of a tool effect, and their validation.
-/

namespace ForgeCore.Effects

open Claims (ActorRole)

inductive EffectTargetKind where
  | filePath
  | glob
  | stateKey
  | artifactId
  | evidenceId
  | ledgerStream
  | requestStream
  | completionId
deriving DecidableEq, Repr

inductive AccessMode where
  | read
  | write
  | append
  | create
  | delete
deriving DecidableEq, Repr

inductive EffectKind where
  | operationTransaction
  | fileEdit
  | stateWrite
  | artifactWrite
  | evidenceAppend
  | requestAppend
  | commandRun
  | gitStage
deriving DecidableEq, Repr

inductive ConflictCode where
  | readTargetChanged
  | writeTargetChanged
  | writeTargetClaimed
  | expectedStateVersionMismatch
  | completionNowDone
  | pathOutsideScope
  | overlappingWriteSet
  | missingInverseForDestructiveWrite
deriving DecidableEq, Repr

inductive ConflictPolicy where
  | allow
  | block
  | notifyAndRepair
  | driverReview
  | humanReview
deriving DecidableEq, Repr

inductive RepairStrategy where
  | none
  | rebasePlan
  | refreshReads
  | recordRequest
  | runGate
  | askHuman
  | compensateThenRetry
deriving DecidableEq, Repr

inductive InverseKind where
  | none
  | exactRollback
  | logicalCompensation
  | restoreSnapshot
  | appendReversal
  | manualRepair
deriving DecidableEq, Repr

inductive InverseSource where
  | unavailable
  | toolContract
  | mcpAnnotation
  | commandContract
  | snapshot
  | humanApproval
deriving DecidableEq, Repr

structure EffectActor where
  agentId : StableId
  role : ActorRole
deriving DecidableEq, Repr

structure EffectRead where
  targetKind : EffectTargetKind
  reference : String
  expectedHash : Option String
  expectedVersion : Option Nat
  requiredForPlan : Bool
deriving DecidableEq, Repr

/-- A declared write, and how it is to be made. -/
structure EffectWrite where
  targetKind : EffectTargetKind
  reference : String
  accessMode : AccessMode
  expectedHash : Option String
  expectedVersion : Option Nat
  destructive : Bool
deriving DecidableEq, Repr

structure ConflictDetection where
  checkAgainst : StableId
  granularity : StableId
  conflictCodes : List ConflictCode
  policy : ConflictPolicy
deriving DecidableEq, Repr

structure EffectNotification where
  required : Bool
  recipients : List StableId
  requestContractRef : Option RepoPath
deriving DecidableEq, Repr

/-- How a write may be undone. -/
structure InverseMetadata where
  kind : InverseKind
  source : InverseSource
  reference : Option String
  inputMappingRefs : List String
  validationGateRefs : List RepoPath
  reviewRequired : Bool
deriving DecidableEq, Repr

structure EffectRepair where
  strategy : RepairStrategy
  automaticRepairAllowed : Bool
  inverseOperationRef : Option String
  stopIfInverseMissing : Bool
  inverse : InverseMetadata
deriving DecidableEq, Repr

/-- What a tool declares before it acts. -/
structure ToolEffectContract where
  id : StableId
  contractRef : RepoPath
  effectKind : EffectKind
  operationRef : StableId
  actor : EffectActor
  readSet : List EffectRead
  writeSet : List EffectWrite
  conflictDetection : ConflictDetection
  notification : EffectNotification
  repair : EffectRepair
deriving DecidableEq, Repr

structure ToolEffectContractDocument where
  schemaVersion : String
  toolEffectContract : ToolEffectContract
deriving DecidableEq, Repr

inductive DiagnosticSeverity where
  | error
  | warning
deriving DecidableEq, Repr

inductive DiagnosticCode where
  | effectReadSetEmpty
  | effectWriteSetEmpty
  | destructiveEffectMissingInverseOrStop
  | destructiveEffectInverseIncomplete
deriving DecidableEq, Repr

structure Diagnostic where
  severity : DiagnosticSeverity
  code : DiagnosticCode
  path : String
  message : String
deriving DecidableEq, Repr

def Diagnostic.error (code : DiagnosticCode) (path message : String) : Diagnostic :=
  { severity := .error, code, path, message }

def contractField (effect : ToolEffectContract) (field : String) : String :=
  "tool_effect_contract." ++ effect.id.value ++ "." ++ field

def ToolEffectContract.hasInverse (effect : ToolEffectContract) : Bool :=
  effect.repair.inverse.kind != .none && effect.repair.inverse.source != .unavailable &&
    effect.repair.inverse.reference.isSome

def ToolEffectContract.stopsForReview (effect : ToolEffectContract) : Bool :=
  effect.repair.stopIfInverseMissing && !effect.repair.automaticRepairAllowed &&
    (effect.conflictDetection.policy == .humanReview ||
      effect.conflictDetection.policy == .driverReview || effect.conflictDetection.policy == .block)

def validateToolEffect (document : ToolEffectContractDocument) : List Diagnostic :=
  let effect := document.toolEffectContract
  let reads :=
    if effect.readSet.isEmpty then
      [Diagnostic.error .effectReadSetEmpty
        (contractField effect "read_set") "tool effect must declare read_set"]
    else []
  let writes :=
    if effect.writeSet.isEmpty then
      [Diagnostic.error .effectWriteSetEmpty (contractField effect "write_set")
        "tool effect must declare write_set"]
    else []
  let destructive := effect.writeSet.any (·.destructive)
  let missing :=
    if destructive && !effect.hasInverse && !effect.stopsForReview then
      [Diagnostic.error .destructiveEffectMissingInverseOrStop
        (contractField effect "repair.inverse")
        ("destructive effect requires inverse metadata or explicit " ++ "stop/review policy")]
    else []
  let incomplete :=
    if destructive && effect.hasInverse &&
        effect.repair.automaticRepairAllowed &&
        effect.repair.inverse.validationGateRefs.isEmpty then
      [Diagnostic.error .destructiveEffectInverseIncomplete (contractField effect "repair.inverse")
        "automatic inverse repair requires validation gate refs"]
    else []
  reads ++ writes ++ missing ++ incomplete

def errorCount (diagnostics : List Diagnostic) : Nat :=
  diagnostics.countP (·.severity == .error)

def warningCount (diagnostics : List Diagnostic) : Nat :=
  diagnostics.countP (·.severity == .warning)

end ForgeCore.Effects
