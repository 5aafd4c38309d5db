import ForgeCore.Effects.Wal

/-!
# Effect transactions

`apply_file_effect_transaction_with_wal_inner`: every record and every file
operation is one durable step.  A write that fails is undone in the same
process from the captured originals.
-/

namespace ForgeCore.Effects

open Claims (ActorRole)
open Durable

inductive EffectApplicationStatus where
  | applied
  | blocked
  | rolledBack
  | rollbackFailed
deriving DecidableEq, Repr

/-- What is recorded of one written target. -/
structure EffectTargetMetadataRecord where
  schemaVersion : String
  recordedAt : Option String
  operationId : StableId
  effectId : StableId
  logicalRef : String
  physicalRef : String
  targetKind : EffectTargetKind
  accessMode : AccessMode
  contentHash : Option String
  byteLen : Nat
  actorAgentId : StableId
  actorRole : ActorRole
  destructive : Bool
  redactionHint : StableId
deriving DecidableEq, Repr

/-- What an application of an effect reports. -/
structure EffectApplicationResult where
  status : EffectApplicationStatus
  effectId : StableId
  appliedRefs : List String
  metadataRecords : List EffectTargetMetadataRecord
  rolledBack : Bool
  reasons : List EffectApplicationReason
  diagnostics : List String
  validationErrorCount : Nat
  validationWarningCount : Nat
deriving DecidableEq, Repr

def blockedResult (document : ToolEffectContractDocument)
    (reasons : List EffectApplicationReason) (diagnostics : List String) :
    EffectApplicationResult where
  status := .blocked
  effectId := document.toolEffectContract.id
  appliedRefs := []
  metadataRecords := []
  rolledBack := false
  reasons := reasons
  diagnostics := diagnostics
  validationErrorCount := errorCount (validateToolEffect document)
  validationWarningCount := warningCount (validateToolEffect document)

def pushUniqueReason (reasons : List EffectApplicationReason)
    (reason : EffectApplicationReason) : List EffectApplicationReason :=
  if reasons.contains reason then reasons else reasons ++ [reason]

def reservedMutation (reserved : ReservedStatePath) : IoError :=
  .permissionDenied ("EventLog-reserved mutation target: " ++ reserved.debug)

def atomicReplaceFile (path : Path) (content : Content) (expected : Option Content) :
    Computation FileTree (Except IoError Unit) :=
  match reservedNames path with
  | some reserved => pure (.error (reservedMutation reserved))
  | none => .step (FileTree.replaceFile path content expected)

def removeAuthorityFile (path : Path) (expected : Content) :
    Computation FileTree (Except IoError Unit) :=
  match reservedNames path with
  | some reserved => pure (.error (reservedMutation reserved))
  | none => .step (FileTree.removeFile path expected)

/-- A removal is followed by a sync of the parent directory.  The parent of a
path with one name is the empty path, and that is refused. -/
def removeAndSyncParent (path : Path) (expected : Content) :
    Computation FileTree (Except IoError Unit) := do
  match ← removeAuthorityFile path expected with
  | .error failure => pure (.error failure)
  | .ok () => Computation.inspect (FileTree.syncDirectory · path.dropLast)

def capturedContent (existed : Bool) (content : Content) : Option Content :=
  if existed then some content else none

def OriginalFileState.captured (original : OriginalFileState) : Option Content :=
  capturedContent original.existed original.content

namespace EffectStore

variable (store : EffectStore)

def publishPreparedWrite (path : Path) (write : PreparedWrite) (original : OriginalFileState) :
    Computation FileTree (Except IoError Unit) :=
  match write.accessMode, original.captured with
  | .delete, some expected => removeAndSyncParent path expected
  | .delete, none => pure (.error .notFound)
  | _, expected => atomicReplaceFile path write.content expected

def applyError (action : String) (write : PreparedWrite) (source : String) : Except String Unit :=
  .error (action ++ " " ++ write.target ++ ": " ++ source)

def applyPreparedWrite (write : PreparedWrite) (original : OriginalFileState) :
    Computation FileTree (Except String Unit) :=
  match reservedStatePath write.physicalReference with
  | some reserved => pure (applyError "reserved EventLog target rejected" write reserved.debug)
  | none =>
    if original.physicalReference ≠ write.physicalReference ∨
        original.target ≠ write.target ∨ original.installedContent ≠
          (if write.accessMode.isDelete then none
            else some write.content) then
      pure (applyError "retained before-image binding rejected" write
        "prepared write no longer matches its exact captured state")
    else if write.accessMode.isDelete ∧ original.captured = none then
      pure (applyError "retained delete binding rejected" write
        "delete target was absent during exact before-image capture")
    else
      match retainedNames store.root write.physicalReference with
      | .error failure => pure (applyError "descriptor-relative publication" write failure.message)
      | .ok path => do
        match ← publishPreparedWrite path write original with
        | .ok () => pure (.ok ())
        | .error failure =>
          pure (applyError "descriptor-relative publication" write failure.message)

/-! ## Rollback in the same process -/

def restoreOriginal (path : Path) (original : OriginalFileState) (current : Option Content) :
    Computation FileTree (Except IoError Unit) :=
  if current = original.captured then
    pure (.ok ())
  else if current ≠ original.installedContent then
    pure (.error (.invalidData
      "rollback target matches neither the exact original nor installed state"))
  else if original.existed then
    atomicReplaceFile path original.content original.installedContent
  else
    match original.installedContent with
    | some installed => removeAndSyncParent path installed
    | none =>
      pure (.error (.invalidData "rollback has neither an original nor an exact installed file"))

def rollbackOriginal (original : OriginalFileState) : Computation FileTree (Except String Unit) :=
  match reservedStatePath original.physicalReference with
  | some reserved =>
    pure (.error ("rollback blocked EventLog-reserved target " ++
      original.target ++ ": " ++ reserved.debug))
  | none =>
    match retainedNames store.root original.physicalReference with
    | .error failure =>
      pure (.error ("rollback " ++ original.target ++ " failed: " ++ failure.message))
    | .ok path => do
      match ← Computation.inspect (FileTree.readOptional · path) with
      | .error failure =>
        pure (.error ("rollback " ++ original.target ++ " failed: " ++ failure.message))
      | .ok current =>
        match ← restoreOriginal path original current with
        | .ok () => pure (.ok ())
        | .error failure =>
          pure (.error ("rollback " ++ original.target ++ " failed: " ++ failure.message))

/-- Roll back in the given order; a failure does not stop the rest. -/
def rollbackEach : List OriginalFileState → Computation FileTree (Bool × List String)
  | [] => pure (true, [])
  | original :: rest => do
    let result ← rollbackOriginal store original
    let others ← rollbackEach rest
    match result with
    | .ok () => pure others
    | .error diagnostic => pure (false, diagnostic :: others.2)

def rollbackOriginals (originals : List OriginalFileState) :
    Computation FileTree (Bool × List String) :=
  rollbackEach store originals.reverse

def rolledBackResult (document : ToolEffectContractDocument)
    (appliedRefs : List String) (rolledBack closed : Bool)
    (reasons : List EffectApplicationReason) (diagnostics : List String) :
    EffectApplicationResult where
  status := if rolledBack && closed then .rolledBack else .rollbackFailed
  effectId := document.toolEffectContract.id
  appliedRefs := appliedRefs
  metadataRecords := []
  rolledBack := rolledBack
  reasons := reasons
  diagnostics := diagnostics
  validationErrorCount := errorCount (validateToolEffect document)
  validationWarningCount := warningCount (validateToolEffect document)

/-- `rollback_wal_transaction_result`: the closing record is written whether
or not every file could be restored. -/
def rollbackWalTransaction (document : ToolEffectContractDocument)
    (txId : String) (originals : List OriginalFileState)
    (appliedRefs : List String) (reason : EffectApplicationReason) (diagnostic : String) :
    Computation FileTree EffectApplicationResult := do
  let rollback ← rollbackOriginals store originals
  match ← store.appendEffectWalRecord
      (.ofStage txId document.toolEffectContract.id .rollbackComplete) with
  | .ok () =>
    let reasons :=
      if rollback.1 then [reason]
      else pushUniqueReason [reason] .rollbackFailed
    pure (rolledBackResult document appliedRefs rollback.1 true reasons (diagnostic :: rollback.2))
  | .error failure =>
    pure (rolledBackResult document appliedRefs rollback.1 false
      (pushUniqueReason [reason] .rollbackFailed) (diagnostic :: rollback.2 ++
        ["failed to append WAL rollback record: " ++ failure.message]))

def effectTargetMetadataRecord (document : ToolEffectContractDocument)
    (write : PreparedWrite) : EffectTargetMetadataRecord :=
  let effect := document.toolEffectContract
  { schemaVersion := "0.1"
    recordedAt := none
    operationId := effect.operationRef
    effectId := effect.id
    logicalRef := write.reference
    physicalRef := write.physicalReference
    targetKind := write.targetKind
    accessMode := write.accessMode.asContract
    contentHash :=
      if write.accessMode.isDelete then none
      else some (sha256ContentHash store.sha256 write.content)
    byteLen := write.content.length
    actorAgentId := effect.actor.agentId
    actorRole := effect.actor.role
    destructive := write.destructive
    redactionHint := ⟨"raw_content_not_indexed"⟩ }

def appliedResult (document : ToolEffectContractDocument)
    (appliedRefs : List String) (writes : List PreparedWrite) : EffectApplicationResult where
  status := .applied
  effectId := document.toolEffectContract.id
  appliedRefs := appliedRefs
  metadataRecords := writes.map (effectTargetMetadataRecord store document)
  rolledBack := false
  reasons := [.applied]
  diagnostics := []
  validationErrorCount := errorCount (validateToolEffect document)
  validationWarningCount := warningCount (validateToolEffect document)

def commitTransaction (document : ToolEffectContractDocument)
    (txId : String) (captured : List (PreparedWrite × OriginalFileState))
    (appliedRefs : List String) : Computation FileTree EffectApplicationResult := do
  match ← store.appendEffectWalRecord
      (.ofStage txId document.toolEffectContract.id .commit) with
  | .ok () => pure (appliedResult store document appliedRefs (captured.map Prod.fst))
  | .error _ =>
    rollbackWalTransaction store document txId (captured.map Prod.snd)
      appliedRefs .walAppendFailed "failed to append WAL commit record"

/-- The loop over the captured writes, from the targets in `pending` on. -/
def applyWrites (document : ToolEffectContractDocument) (txId : String)
    (captured : List (PreparedWrite × OriginalFileState)) :
    List String → List (PreparedWrite × OriginalFileState) →
      Computation FileTree EffectApplicationResult
  | appliedRefs, [] => commitTransaction store document txId captured appliedRefs
  | appliedRefs, (write, original) :: pending => do
    match ← store.appendEffectWalRecord
        (.beforeImage store.sha256 txId document.toolEffectContract.id write original) with
    | .error _ =>
      -- This path leaves the transaction open in the log.
      let rollback ← rollbackOriginals store (captured.map Prod.snd)
      pure (rolledBackResult document appliedRefs rollback.1 true [.walAppendFailed]
        (("failed to append WAL before image " ++ write.reference) :: rollback.2))
    | .ok () =>
      match ← applyPreparedWrite store write original with
      | .error failure =>
        rollbackWalTransaction store document txId (captured.map Prod.snd) appliedRefs .applyFailed
          ("apply " ++ write.target ++ " failed: " ++ failure)
      | .ok () =>
        match ← store.appendEffectWalRecord
            (.writeApplied store.sha256 txId
              document.toolEffectContract write) with
        | .error failure =>
          rollbackWalTransaction store document txId
            (captured.map Prod.snd) appliedRefs .walAppendFailed
            ("failed to append WAL write-applied " ++ write.reference ++ ": " ++ failure.message)
        | .ok () => applyWrites document txId captured (appliedRefs ++ [write.reference]) pending

/-- Every check that is made before the first record, and the before-images
of the targets. -/
def preflight (document : ToolEffectContractDocument)
    (payloads : List EffectApplicationPayload) (tree : FileTree) : Except EffectApplicationResult
      (List (PreparedWrite × OriginalFileState)) :=
  let effect := document.toolEffectContract
  let invalid :=
    if errorCount (validateToolEffect document) > 0 then
      [EffectApplicationReason.effectValidationErrors]
    else []
  let reads := checkAll (validateFileBackedRead store.sha256 store.root tree) effect.readSet
  let prepared := prepareFileWrites store.sha256 store.root tree payloads effect.writeSet
  let reasons := invalid ++ (reads.1 ++ prepared.1).map Prod.fst
  if reasons ≠ [] then
    .error (blockedResult document reasons ((reads.1 ++ prepared.1).map Prod.snd))
  else
    let revalidated := revalidatePreparedWrites store.sha256 store.root tree prepared.2
    if revalidated.1 ≠ [] then
      .error (blockedResult document (revalidated.1.map Prod.fst) (revalidated.1.map Prod.snd))
    else
      match captureOriginals store.sha256 store.root tree revalidated.2 with
      | .error failure =>
        .error (blockedResult document [.applyFailed]
          ["capture retained before image failed: " ++ failure.message])
      | .ok captured => .ok captured

/-- The authority that a prepared execution puts into its begin record. -/
abbrev PreparedAuthority :=
  EffectExecutionProvenance × EffectReplayCommitBinding

def beginRecord (document : ToolEffectContractDocument) (txId : String)
    (authority : Option PreparedAuthority) : EffectWalRecord :=
  match authority with
  | none => .begin txId document.toolEffectContract.id
  | some (provenance, binding) =>
    .beginWithAuthority txId document.toolEffectContract.id provenance binding

def applyFileEffectTransaction (document : ToolEffectContractDocument)
    (payloads : List EffectApplicationPayload) (txId : String)
    (authority : Option PreparedAuthority) : Computation FileTree EffectApplicationResult := do
  match ← Computation.inspect (preflight store document payloads) with
  | .error blocked => pure blocked
  | .ok captured =>
    match ← store.appendEffectWalRecord
        (beginRecord document txId authority) with
    | .error _ =>
      pure (blockedResult document [.walAppendFailed] ["failed to append WAL begin record"])
    | .ok () => applyWrites store document txId captured [] captured

end EffectStore

end ForgeCore.Effects
