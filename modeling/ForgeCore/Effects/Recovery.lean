import ForgeCore.Effects.Transaction

/-!
# Recovery of the effect log

`recover_effect_wal_under_publication_root`: every transaction that has begun
and not ended is rolled back from the before-images in the log.
-/

namespace ForgeCore.Effects

open Text Durable

inductive EffectWalRecoveryStatus where
  | noop
  | recovered
  | recoveryFailed
deriving DecidableEq, Repr

inductive EffectWalRecoveryReason where
  | noWalFile
  | noRecoveryNeeded
  | incompleteTransactionRecovered
  | storeLockFailed
  | walReadFailed
  | walParseFailed
  | reservedStatePath
  | externalPublicationUnsupported
  | rollbackFailed
deriving DecidableEq, Repr

/-- What a recovery reports. -/
structure EffectWalRecoveryResult where
  status : EffectWalRecoveryStatus
  recoveredTransactions : List String
  reasons : List EffectWalRecoveryReason
  diagnostics : List String
deriving DecidableEq, Repr

def recoveryFailed (reason : EffectWalRecoveryReason)
    (diagnostics : List String) : EffectWalRecoveryResult where
  status := .recoveryFailed
  recoveredTransactions := []
  reasons := [reason]
  diagnostics := diagnostics

def hashMismatch : IoError :=
  .invalidData "WAL before image hash mismatch"

namespace EffectStore

variable (store : EffectStore)

def restoreBeforeImage (path : Path) (original : EffectWalOriginal) :
    Computation FileTree (Except IoError Unit) :=
  if original.existed then
    if sha256ContentHash store.sha256 original.content = original.contentHash then do
      match ← Computation.inspect (FileTree.readOptional · path) with
      | .error failure => pure (.error failure)
      | .ok current =>
        if current = some original.content then pure (.ok ())
        else atomicReplaceFile path original.content current
    else
      pure (.error hashMismatch)
  else do
    match ← Computation.inspect (FileTree.readOptional · path) with
    | .error failure => pure (.error failure)
    | .ok none => pure (.ok ())
    | .ok (some current) => removeAndSyncParent path current

/-- Roll back one before-image.  A record without a target or an original is
passed over. -/
def rollbackBeforeImage (record : EffectWalRecord) : Computation FileTree (Except String Unit) :=
  match record.targetRef, record.original with
  | some targetRef, some original =>
    let physicalRef := record.physicalTargetRef.getD targetRef
    match reservedStatePath physicalRef with
    | some reserved =>
      pure (.error ("WAL rollback blocked EventLog-reserved target " ++
        physicalRef ++ ": " ++ reserved.debug))
    | none =>
      match normalizedEffectRelativePath physicalRef with
      | none => pure (.error ("invalid WAL target path " ++ physicalRef))
      | some path => do
        match ← restoreBeforeImage store path original with
        | .ok () => pure (.ok ())
        | .error failure =>
          pure (.error ("WAL rollback " ++ physicalRef ++ " failed: " ++ failure.message))
  | _, _ => pure (.ok ())

/-- Roll back in the given order; a failure does not stop the rest. -/
def rollbackBeforeImages : List EffectWalRecord → Computation FileTree (Bool × List String)
  | [] => pure (true, [])
  | record :: rest => do
    let result ← rollbackBeforeImage store record
    let others ← rollbackBeforeImages rest
    match result with
    | .ok () => pure others
    | .error diagnostic => pure (false, diagnostic :: others.2)

def beforeImagesOf (records : List EffectWalRecord) (txId : String) : List EffectWalRecord :=
  records.filter fun record =>
    record.txId = txId && record.stage = .beforeImage

def recoveredEffectId (beforeImages : List EffectWalRecord) : StableId :=
  match beforeImages with
  | [] => ⟨"unknown_effect"⟩
  | record :: _ => record.effectId

def recoveryMarker (records : List EffectWalRecord) (txId : String) : EffectWalRecord :=
  .ofStage txId (recoveredEffectId (beforeImagesOf records txId)) .recoveredRollback

/-- What the recovery of one transaction did: rolled back, marker written,
diagnostics. -/
structure TransactionRecovery where
  rolledBack : Bool
  marked : Bool
  diagnostics : List String
deriving DecidableEq, Repr

def recoverTransaction (records : List EffectWalRecord) (txId : String) :
    Computation FileTree TransactionRecovery := do
  let rollback ←
    rollbackBeforeImages store (beforeImagesOf records txId).reverse
  if rollback.1 then
    match ← store.appendEffectWalRecord (recoveryMarker records txId) with
    | .ok () => pure ⟨true, true, rollback.2⟩
    | .error _ =>
      pure ⟨true, false, rollback.2 ++ ["append recovery marker failed for " ++
          PathText.join store.root (store.walPath.getD [])]⟩
  else
    pure ⟨false, false, rollback.2⟩

/-- The transactions in order; the summary is whether all went well, the
recovered ones, and the diagnostics. -/
def recoverTransactions (records : List EffectWalRecord) :
    List String → Computation FileTree (Bool × List String × List String)
  | [] => pure (true, [], [])
  | txId :: rest => do
    let first ← recoverTransaction store records txId
    let others ← recoverTransactions records rest
    pure (first.rolledBack && first.marked && others.1,
      (if first.rolledBack then [txId] else []) ++ others.2.1,
      first.diagnostics ++ others.2.2)

def publicationKind (record : EffectWalRecord) : Option String :=
  record.executionProvenance.bind fun provenance =>
    (provenance.document.get "publication_scope").bind fun scope =>
      (scope.get "kind").bind Json.asStr

def externalPublication (record : EffectWalRecord) : Bool :=
  record.stage == .begin && publicationKind record == some "external_retained_project_tree_v1"

def reservedWalTarget (records : List EffectWalRecord) : Option (String × ReservedStatePath) :=
  records.findSome? fun record =>
    ((record.physicalTargetRef.or record.targetRef).bind reservedStatePath).map (record.txId, ·)

def recoverRecords (records : List EffectWalRecord) (parseDiagnostics : List String) :
    Computation FileTree EffectWalRecoveryResult :=
  if records.any externalPublication then
    pure (recoveryFailed .externalPublicationUnsupported
      [("split-root effect WAL requires `forge-core workflow promotion " ++
        "recover`; generic same-root recovery is forbidden from applying " ++
        "before-images under the Forge state root")])
  else
    match reservedWalTarget records with
    | some (txId, reserved) =>
      pure (recoveryFailed .reservedStatePath ["WAL transaction " ++ txId ++
          " names EventLog-reserved target: " ++ reserved.debug])
    | none =>
      let incomplete := incompleteWalTransactions records
      if incomplete.isEmpty then
        pure
          { status := .noop
            recoveredTransactions := []
            reasons := [.noRecoveryNeeded]
            diagnostics := parseDiagnostics }
      else do
        let summary ← recoverTransactions store records incomplete
        pure
          { status := if summary.1 then .recovered else .recoveryFailed
            recoveredTransactions := summary.2.1
            reasons := [if summary.1 then .incompleteTransactionRecovered
                else .rollbackFailed]
            diagnostics := parseDiagnostics ++ summary.2.2 }

def WalLineError.message (failure : WalLineError) : String :=
  "parse WAL line " ++ toString failure.lineNumber ++ " failed: " ++ failure.source

def recoverText (text : String) : Computation FileTree EffectWalRecoveryResult :=
  match parseEffectWalRecordsForRecovery store.codec text with
  | .error failure => pure (recoveryFailed .walParseFailed [WalLineError.message failure])
  | .ok (records, diagnostics) => recoverRecords store records diagnostics

def recoverEffectWal : Computation FileTree EffectWalRecoveryResult :=
  match reservedStatePath store.walRelativePath with
  | some reserved =>
    pure (recoveryFailed .reservedStatePath
      ["WAL path is reserved for EventLog TCB: " ++ reserved.debug])
  | none =>
    match store.walPath with
    | none => pure (recoveryFailed .walReadFailed ["invalid WAL path " ++ store.walRelativePath])
    | some relative => do
      match ← Computation.inspect (FileTree.read · relative) with
      | .error .notFound =>
        pure
          { status := .noop
            recoveredTransactions := []
            reasons := [.noWalFile]
            diagnostics := [] }
      | .error failure =>
        pure (recoveryFailed .walReadFailed ["read WAL failed: " ++ failure.message])
      | .ok bytes =>
        match fromUtf8 bytes with
        | none => pure (recoveryFailed .walParseFailed ["invalid utf-8 sequence"])
        | some text => recoverText store text

end EffectStore

end ForgeCore.Effects
