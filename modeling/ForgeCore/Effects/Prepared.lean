import ForgeCore.Library.Digest
import ForgeCore.Effects.Targets

/-!
# Prepared writes

The read-only half of an effect transaction: the checks of
`prepare_file_writes` and `revalidate_prepared_writes_retained`, and the exact
before-images of `capture_originals_retained`.
-/

namespace ForgeCore.Effects

open Digest

/-- The bytes for one target. -/
structure EffectApplicationPayload where
  targetRef : String
  content : Content
  contentHash : String
deriving DecidableEq, Repr

/-- Why an effect was blocked or rolled back. -/
inductive EffectApplicationReason where
  | effectValidationErrors
  | internalInvariant
  | storeLockFailed
  | executionProvenanceInvalid
  | walAppendFailed
  | unsupportedTargetKind
  | unsupportedAccessMode
  | invalidTargetPath
  | reservedStatePath
  | missingPayloadForWrite
  | payloadHashMismatch
  | missingExpectedHashForOverwrite
  | expectedHashMismatch
  | targetExistsForCreate
  | targetMissingForWrite
  | targetMissingForDelete
  | applyFailed
  | rollbackFailed
  | applied
deriving DecidableEq, Repr

inductive PreparedAccessMode where
  | create
  | write
  | append
  | delete
deriving DecidableEq, Repr

namespace PreparedAccessMode

def fromContract : AccessMode → Option PreparedAccessMode
  | .create => some .create
  | .write => some .write
  | .append => some .append
  | .delete => some .delete
  | .read => none

def asContract : PreparedAccessMode → AccessMode
  | create => .create
  | write => .write
  | append => .append
  | delete => .delete

def isDelete : PreparedAccessMode → Bool
  | delete => true
  | _ => false

def requiresPayload (mode : PreparedAccessMode) : Bool :=
  !mode.isDelete

end PreparedAccessMode

/-- A write that has passed its checks. -/
structure PreparedWrite where
  reference : String
  physicalReference : String
  target : String
  targetKind : EffectTargetKind
  accessMode : PreparedAccessMode
  destructive : Bool
  expectedHash : Option String
  payloadContent : Option Content
  content : Content
deriving DecidableEq, Repr

/-- What a target held before the effect. -/
structure OriginalFileState where
  target : String
  physicalReference : String
  existed : Bool
  content : Content
  installedContent : Option Content
deriving DecidableEq, Repr

abbrev Refusal := EffectApplicationReason × String

section Preflight

variable (sha256 : Sha256) (root : String) (tree : FileTree)

def sha256ContentHash (content : Content) : String :=
  formatSha256 (sha256 content).toList

/-- `read_authority_file` on a path text. -/
def readAuthorityFile (reference : String) : Except IoError Content :=
  retainedNames root reference >>= tree.read

def authorityLeafExists (reference : String) : Except IoError Bool :=
  match readAuthorityFile root tree reference with
  | .ok _ => .ok true
  | .error .notFound => .ok false
  | .error failure => .error failure

def payloadFor (payloads : List EffectApplicationPayload)
    (targetRef : String) : Option EffectApplicationPayload :=
  payloads.find? (·.targetRef = targetRef)

def checkTargetKind (write : EffectWrite) : Except Refusal Unit :=
  if fileBackedTarget write.targetKind then .ok ()
  else
    .error (.unsupportedTargetKind, "unsupported target kind for " ++ write.reference)

def preparedAccessMode (write : EffectWrite) : Except Refusal PreparedAccessMode :=
  match PreparedAccessMode.fromContract write.accessMode with
  | some mode => .ok mode
  | none =>
    .error (.unsupportedAccessMode,
      "unsupported write access mode for " ++ write.reference ++ ": Read")

def resolveWrite (write : EffectWrite) : Except Refusal (String × String) :=
  match resolveEffectTarget root write.targetKind write.reference with
  | .ok resolved => .ok resolved
  | .error (.reservedStatePath _ reserved) =>
    .error (.reservedStatePath, "write target " ++ write.reference ++
        " is reserved for EventLog TCB: " ++ reserved.debug)
  | .error _ => .error (.invalidTargetPath, "invalid write target path " ++ write.reference)

def missingPayload (reference : String) : Refusal :=
  (.missingPayloadForWrite, "missing payload for " ++ reference)

def selectPayload (payloads : List EffectApplicationPayload)
    (mode : PreparedAccessMode) (reference : String) :
    Except Refusal (Option EffectApplicationPayload) :=
  if mode.requiresPayload then
    match payloadFor payloads reference with
    | none => .error (missingPayload reference)
    | some payload =>
      if sha256ContentHash sha256 payload.content = payload.contentHash then
        .ok (some payload)
      else
        .error (.payloadHashMismatch, "payload hash mismatch for " ++ reference)
  else
    .ok none

def inspectTarget (reference physicalReference : String) : Except Refusal Bool :=
  match authorityLeafExists root tree physicalReference with
  | .ok present => .ok present
  | .error failure =>
    .error (.invalidTargetPath, "retained target inspection " ++ reference ++ " failed: " ++
        failure.message)

/-- Presence rules shared by the first check and by the revalidation. -/
def checkPresence (mode : PreparedAccessMode) (reference : String)
    (present : Bool) : Except Refusal Unit :=
  match mode, present with
  | .create, true => .error (.targetExistsForCreate, "create target exists " ++ reference)
  | .write, false => .error (.targetMissingForWrite, "write target missing " ++ reference)
  | .delete, false => .error (.targetMissingForDelete, "delete target missing " ++ reference)
  | _, _ => .ok ()

def checkOverwriteHash (mode : PreparedAccessMode) (reference : String)
    (expectedHash : Option String) : Except Refusal Unit :=
  if mode = .write && expectedHash.isNone then
    .error (.missingExpectedHashForOverwrite, "write target missing expected hash " ++ reference)
  else
    .ok ()

def checkFreshness (reference physicalReference : String)
    (expectedHash : Option String) : Except Refusal Unit :=
  match expectedHash with
  | none => .ok ()
  | some expected =>
    match readAuthorityFile root tree physicalReference with
    | .ok content =>
      if sha256ContentHash sha256 content = expected then .ok ()
      else
        .error (.expectedHashMismatch, "write freshness mismatch " ++ reference)
    | .error _ => .error (.expectedHashMismatch, "write freshness mismatch " ++ reference)

/-- The content to install.  `unreadable` completes the diagnostic of an
append whose target cannot be read. -/
def preparedContent (mode : PreparedAccessMode) (reference physicalReference unreadable : String)
    (payload : Option Content) : Except Refusal Content :=
  match mode, payload with
  | .delete, _ => .ok []
  | .append, some bytes =>
    match readAuthorityFile root tree physicalReference with
    | .ok current => .ok (current ++ bytes)
    | .error .notFound => .ok bytes
    | .error failure =>
      .error (.invalidTargetPath, "retained append source " ++ reference ++ unreadable ++
          failure.message)
  | _, some bytes => .ok bytes
  | _, none => .error (missingPayload reference)

def prepareFileWrite (payloads : List EffectApplicationPayload)
    (write : EffectWrite) : Except Refusal PreparedWrite := do
  checkTargetKind write
  let accessMode ← preparedAccessMode write
  let resolved ← resolveWrite root write
  let payload ← selectPayload sha256 payloads accessMode write.reference
  let present ← inspectTarget root tree write.reference resolved.2
  checkPresence accessMode write.reference present
  checkOverwriteHash accessMode write.reference write.expectedHash
  checkFreshness sha256 root tree write.reference resolved.2 write.expectedHash
  let content ← preparedContent root tree accessMode write.reference
    resolved.2 " could not be read exactly: " (payload.map (·.content))
  pure
    { reference := write.reference
      physicalReference := resolved.2
      target := resolved.1
      targetKind := write.targetKind
      accessMode
      destructive := write.destructive
      expectedHash := write.expectedHash
      payloadContent := payload.map (·.content)
      content }

def checkUnreserved (write : PreparedWrite) : Except Refusal Unit :=
  match reservedStatePath write.physicalReference with
  | none => .ok ()
  | some reserved =>
    .error (.reservedStatePath, "final write validation blocked EventLog-reserved target " ++
        write.reference ++ ": " ++ reserved.debug)

def revalidatePreparedWrite (write : PreparedWrite) : Except Refusal PreparedWrite := do
  checkUnreserved write
  let present ← inspectTarget root tree write.reference
    write.physicalReference
  checkPresence write.accessMode write.reference present
  checkFreshness sha256 root tree write.reference write.physicalReference write.expectedHash
  let content ← preparedContent root tree write.accessMode write.reference
    write.physicalReference " changed or became unreadable: " write.payloadContent
  pure { write with content }

/-- Every element through a check; the refusals are all collected. -/
def checkAll {input output : Type} (check : input → Except Refusal output) :
    List input → List Refusal × List output
  | [] => ([], [])
  | item :: rest =>
    match check item, checkAll check rest with
    | .ok checked, (refusals, outputs) => (refusals, checked :: outputs)
    | .error refusal, (refusals, outputs) => (refusal :: refusals, outputs)

def prepareFileWrites (payloads : List EffectApplicationPayload)
    (writeSet : List EffectWrite) : List Refusal × List PreparedWrite :=
  checkAll (prepareFileWrite sha256 root tree payloads) writeSet

def revalidatePreparedWrites (writes : List PreparedWrite) : List Refusal × List PreparedWrite :=
  checkAll (revalidatePreparedWrite sha256 root tree) writes

/-- The reads that carry a hash must still have it. -/
def validateFileBackedRead (read : EffectRead) : Except Refusal Unit :=
  if fileBackedTarget read.targetKind then
    match read.expectedHash with
    | none => .ok ()
    | some expected =>
      match effectTargetPhysicalReference read.targetKind
          read.reference with
      | .error _ => .error (.invalidTargetPath, "invalid read target path " ++ read.reference)
      | .ok physicalRef =>
        match readAuthorityFile root tree physicalRef with
        | .ok content =>
          if sha256ContentHash sha256 content = expected then .ok ()
          else
            .error (.expectedHashMismatch, "read freshness mismatch " ++ read.reference)
        | .error _ => .error (.expectedHashMismatch, "read freshness mismatch " ++ read.reference)
  else
    .ok ()

def expectedPresence : PreparedAccessMode → Option Bool
  | .create => some false
  | .write | .delete => some true
  | .append => none

def captureOriginal (write : PreparedWrite) : Except IoError (PreparedWrite × OriginalFileState) :=
  (match readAuthorityFile root tree write.physicalReference with
    | .ok content => .ok (true, content)
    | .error .notFound => .ok (false, [])
    | .error failure => .error failure) >>= fun (existed, content) =>
  if (expectedPresence write.accessMode).any (· != existed) then
    .error (.invalidData "retained target presence changed before exact before-image capture")
  else if write.expectedHash.any (fun expected =>
      !existed || sha256ContentHash sha256 content != expected) then
    .error (.invalidData "retained target digest changed before exact before-image capture")
  else
    (match write.accessMode, write.payloadContent with
      | .append, some payload => .ok (content ++ payload)
      | .append, none => .error (.invalidData "retained append lost its exact payload binding")
      | _, _ => .ok write.content) >>= fun installed =>
    .ok ({ write with content := installed },
      { target := write.target
        physicalReference := write.physicalReference
        existed
        content
        installedContent :=
          if write.accessMode.isDelete then none else some installed })

def captureOriginals :
    List PreparedWrite → Except IoError (List (PreparedWrite × OriginalFileState))
  | [] => .ok []
  | write :: rest =>
    captureOriginal sha256 root tree write >>= fun captured =>
      (captureOriginals rest).map (captured :: ·)

end Preflight

end ForgeCore.Effects
