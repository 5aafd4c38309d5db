import ForgeCore.Claims.RepoPaths
import ForgeCore.Claims.Timestamp

/-!
# The claim lifecycle engine

`acquire`, `heartbeat`, `release`, `record_handoff` and the reconciliation
pass, as pure decisions on claims and an injected clock.
-/

namespace ForgeCore.Claims

open Text

/-- What a claim is asked for with. -/
structure AcquireRequest where
  scopeKind : ClaimScopeKind
  scopeId : ScopeId
  principalId : Option PrincipalId
  agentId : StableId
  role : ActorRole
  ttlSeconds : Nat
  heartbeatIntervalSeconds : Nat
  paths : List RepoPath
  productArea : Option StableId
  expectedStateVersion : Option Nat
  deriving DecidableEq, Repr

structure RecordHandoffRequest where
  recorderAgentId : StableId
  summary : String
  evidenceRefs : List String
  deriving DecidableEq, Repr

def AcquireRequest.defaultKind (request : AcquireRequest) : ClaimKind :=
  match request.scopeKind with
  | .story => .story
  | .lane => .lane
  | .productArea => .productArea
  | .integration | .integrationState => .integration
  | .project => .driver

/-- Why the engine refuses a call. -/
inductive ClaimRejection where
  | alreadyClaimedByOther
      (scopeId : ScopeId) (holder : StableId) (expiresAt : String)
      (conflict : Option ConflictContract)
  | pathAlreadyClaimed
      (path : RepoPath) (blockingClaimId : ClaimId) (holder : StableId)
      (expiresAt : String) (conflict : Option ConflictContract)
  | notClaimant
      (claimId : ClaimId) (claimant requestedBy : StableId)
  | expiredRequiresHandoff (claimId : ClaimId)
  | illegalTransition (claimId : ClaimId) (source target : ClaimStatus)
  | invalidRequest (field message : String)
  deriving DecidableEq, Repr

/-- A claim that was accepted, or the reason why none was. -/
inductive ClaimLifecycleDecision where
  | accepted (claim : ClaimContract)
  | rejected (rejection : ClaimRejection)
  deriving DecidableEq, Repr

/-- What a pass does to one claim. -/
structure ClaimReconcileTransition where
  claimId : ClaimId
  source : ClaimStatus
  target : ClaimStatus
  reasonCode : StableId
  updated : ClaimContract
  deriving DecidableEq, Repr

structure ClaimReconcileReport where
  scanned : Nat
  transitions : List ClaimReconcileTransition
  deriving DecidableEq, Repr

/-- A lease that does not parse counts as expired. -/
def isExpired (claim : ClaimContract) (now : Int) : Bool :=
  match rfc3339ToUnix claim.lease.expiresAt with
  | some expiry => expiry ≤ now
  | none => true

def isLive (claim : ClaimContract) (now : Int) : Bool :=
  claim.status.value.isOpen && !isExpired claim now

def claimHoldsScope (claim : ClaimContract) (kind : ClaimScopeKind) (id : ScopeId) : Bool :=
  claim.scope.kind = kind && claim.scope.id = id

def scopeKindSlug : ClaimScopeKind → String
  | .project => "project"
  | .productArea => "product_area"
  | .story => "story"
  | .lane => "lane"
  | .integration => "integration"
  | .integrationState => "integration_state"

def defaultExpiryPolicy : ExpiryPolicy where
  onExpiry := .recordHandoffRequest
  handoffRequired := true
  releaseWithoutHandoffAllowed := false
  reclaimPolicy := .driverReview
  handoffRequestRef := some ⟨"contracts/requests/claim-expiry-handoff-request.yaml"⟩

structure ConflictActor where
  principal : Option PrincipalId
  agent : StableId
  deriving DecidableEq, Repr

/-- The principal of an actor, with the agent id standing in for a claim that
predates principals. -/
def ConflictActor.identity (actor : ConflictActor) : PrincipalId :=
  actor.principal.getD ⟨actor.agent.value⟩

/-- The structured conflict of two distinct principals.  Sorting the two makes
its id the same whichever side asked. -/
def buildConflict
    (requester holder : ConflictActor) (scopeKind : IntentScopeKind)
    (contestedTarget : String) (reason : ConflictDetectionReason)
    (now : Int) : Option ConflictContract :=
  let principalA := requester.identity
  let principalB := holder.identity
  if principalA = principalB then
    none
  else
    let (low, high) :=
      if principalA.value ≤ principalB.value then
        (principalA.value, principalB.value)
      else
        (principalB.value, principalA.value)
    some
      { conflictId := ⟨"conflict." ++ low ++ "." ++ high ++ "." ++ contestedTarget⟩
        intentA := ⟨principalA.value⟩
        intentB := ⟨principalB.value⟩
        principalA := principalA
        principalB := principalB
        contestedScope := ⟨scopeKind, ⟨contestedTarget⟩⟩
        detectionReason := reason
        detectedAt := now.toNat
        resolution := .pending }

def checkedLeaseExpiry (now : Int) (ttlSeconds : Nat) (field : String) :
    Except ClaimRejection Int :=
  match i64TryFrom ttlSeconds with
  | none =>
    .error (.invalidRequest field "lease ttl_seconds exceeds the supported signed epoch range")
  | some ttl =>
    match checkedAdd now ttl with
    | none =>
      .error (.invalidRequest field
        "lease expires_at would overflow the supported signed epoch range")
    | some expiry => .ok expiry

/-- A non-live claim that still withholds its scope until a handoff. -/
def awaitsHandoff (claim : ClaimContract) (now : Int) : Bool :=
  (claim.status.value.isOpen && isExpired claim now && claim.expiryPolicy.handoffRequired) ||
    claim.status.value = .handoffRequired

/-- The claim that an accepted `acquire` creates. -/
def acquiredClaim (request : AcquireRequest) (now expiry : Int) : ClaimContract where
  id := ⟨"claim." ++ scopeKindSlug request.scopeKind ++ "." ++
      request.scopeId.value ++ "." ++ request.scopeId.value⟩
  contractRef := ⟨"contracts/claims/claim-contract-v0.yaml"⟩
  claim :=
    { kind := request.defaultKind
      claimantPrincipalId := request.principalId
      claimantAgentId := request.agentId
      claimantRole := request.role
      registryRef := none }
  scope :=
    { kind := request.scopeKind
      id := request.scopeId
      productArea := request.productArea
      paths := request.paths }
  lease :=
    { acquiredAt := unixToRfc3339 now
      lastHeartbeatAt := unixToRfc3339 now
      expiresAt := unixToRfc3339 expiry
      ttlSeconds := request.ttlSeconds
      heartbeatIntervalSeconds := request.heartbeatIntervalSeconds
      expectedStateVersion := request.expectedStateVersion.getD 0 }
  status :=
    { value := .active
      evaluatedAt := unixToRfc3339 now
      reasonCode := none }
  expiryPolicy := defaultExpiryPolicy
  evidenceRefs := []

def heartbeat (claim : ClaimContract) (agentId : StableId) (now : Int) : ClaimLifecycleDecision :=
  if claim.claim.claimantAgentId ≠ agentId then
    .rejected (.notClaimant claim.id claim.claim.claimantAgentId agentId)
  else if claim.status.value = .handoffRequired then
    .rejected (.expiredRequiresHandoff claim.id)
  else if !claim.status.value.isOpen then
    .rejected (.illegalTransition claim.id claim.status.value .active)
  else if isExpired claim now then
    .rejected (.expiredRequiresHandoff claim.id)
  else
    match checkedLeaseExpiry now claim.lease.ttlSeconds
        "lease.ttl_seconds" with
    | .error rejection => .rejected rejection
    | .ok expiry =>
      .accepted
        { claim with
          lease :=
            { claim.lease with
              lastHeartbeatAt := unixToRfc3339 now
              expiresAt := unixToRfc3339 expiry }
          status :=
            { value := .active
              evaluatedAt := unixToRfc3339 now
              reasonCode := none } }

def release (claim : ClaimContract) (agentId : StableId) (now : Int) : ClaimLifecycleDecision :=
  if claim.claim.claimantAgentId ≠ agentId then
    .rejected (.notClaimant claim.id claim.claim.claimantAgentId agentId)
  else if claim.status.value = .handoffRequired then
    .rejected (.expiredRequiresHandoff claim.id)
  else if !claim.status.value.isOpen then
    .rejected (.illegalTransition claim.id claim.status.value .released)
  else if isExpired claim now &&
      (claim.expiryPolicy.handoffRequired || !claim.expiryPolicy.releaseWithoutHandoffAllowed) then
    .rejected (.expiredRequiresHandoff claim.id)
  else
    .accepted
      { claim with
        status :=
          { value := .released
            evaluatedAt := unixToRfc3339 now
            reasonCode := some ⟨"released_by_claimant"⟩ } }

def extendEvidence (existing added : List String) : List String :=
  added.foldl (fun refs ref => if ref ∈ refs then refs else refs ++ [ref]) existing

def recordHandoff (claim : ClaimContract) (request : RecordHandoffRequest) (now : Int) :
    ClaimLifecycleDecision :=
  let illegal : ClaimLifecycleDecision :=
    .rejected (.illegalTransition claim.id claim.status.value .handoffRecorded)
  let recorded : ClaimLifecycleDecision := .accepted
      { claim with
        status :=
          { value := .handoffRecorded
            evaluatedAt := unixToRfc3339 now
            reasonCode := some ⟨"handoff_recorded_by_" ++ request.recorderAgentId.value⟩ }
        evidenceRefs := extendEvidence claim.evidenceRefs request.evidenceRefs }
  if trim request.summary = "" then
    .rejected (.invalidRequest "summary" "handoff summary is required")
  else if !claim.expiryPolicy.handoffRequired then
    illegal
  else
    match claim.status.value with
    | .active | .stale => if isExpired claim now then recorded else illegal
    | .handoffRequired => recorded
    | .expired | .handoffRecorded | .released => illegal

def heartbeatStaleReason (claim : ClaimContract) (now : Int) : Option StableId :=
  match rfc3339ToUnix claim.lease.lastHeartbeatAt with
  | none => some ⟨"last_heartbeat_unparseable"⟩
  | some lastHeartbeat =>
    match i64TryFrom claim.lease.heartbeatIntervalSeconds with
    | none => some ⟨"heartbeat_interval_unrepresentable"⟩
    | some interval =>
      match checkedAdd lastHeartbeat interval with
      | none => some ⟨"heartbeat_stale_at_overflow"⟩
      | some staleAt =>
        if staleAt ≤ now then some ⟨"heartbeat_overdue"⟩ else none

def reconciledTransition (claim : ClaimContract) (now : Int) (target : ClaimStatus)
    (reasonCode : StableId) : ClaimReconcileTransition where
  claimId := claim.id
  source := claim.status.value
  target := target
  reasonCode := reasonCode
  updated :=
    { claim with
      status :=
        { value := target
          evaluatedAt := unixToRfc3339 now
          reasonCode := some reasonCode } }

def reconcileClaim (claim : ClaimContract) (now : Int) : Option ClaimReconcileTransition :=
  if claim.status.value.isOpen && isExpired claim now then
    let target : ClaimStatus :=
      if claim.expiryPolicy.handoffRequired then .handoffRequired
      else .expired
    some (reconciledTransition claim now target ⟨"lease_expired"⟩)
  else
    match claim.status.value with
    | .active => (heartbeatStaleReason claim now).map (reconciledTransition claim now .stale)
    | .stale | .expired | .handoffRequired | .handoffRecorded
    | .released => none

def reconcileClaims (claims : List ClaimContract) (now : Int) : ClaimReconcileReport where
  scanned := claims.length
  transitions := claims.filterMap fun claim => reconcileClaim claim now

section Acquire

variable (toLowercase : String → String)

def firstOverlappingPath (requested existing : List RepoPath) : Option RepoPath :=
  requested.find? fun requestedPath =>
    existing.any (repoPathsOverlap toLowercase requestedPath)

def scopeRejection (request : AcquireRequest) (now : Int) (claim : ClaimContract) :
    Option ClaimRejection :=
  if !claimHoldsScope claim request.scopeKind request.scopeId then
    none
  else if isLive claim now then
    some (.alreadyClaimedByOther request.scopeId claim.claim.claimantAgentId claim.lease.expiresAt
      (buildConflict ⟨request.principalId, request.agentId⟩
        ⟨claim.claim.claimantPrincipalId, claim.claim.claimantAgentId⟩
        .project request.scopeId.value .authorityScopeOverlap now))
  else if awaitsHandoff claim now then
    some (.expiredRequiresHandoff claim.id)
  else
    none

def pathRejection (request : AcquireRequest) (now : Int) (claim : ClaimContract) :
    Option ClaimRejection :=
  match firstOverlappingPath toLowercase request.paths
      claim.scope.paths with
  | none => none
  | some path =>
    if isLive claim now then
      some (.pathAlreadyClaimed path claim.id claim.claim.claimantAgentId claim.lease.expiresAt
        (buildConflict ⟨request.principalId, request.agentId⟩
          ⟨claim.claim.claimantPrincipalId, claim.claim.claimantAgentId⟩
          .pathPrefix path.value .pathOverlap now))
    else if awaitsHandoff claim now then
      some (.expiredRequiresHandoff claim.id)
    else
      none

def acquire (active : List ClaimContract) (request : AcquireRequest) (now : Int) :
    ClaimLifecycleDecision :=
  match active.findSome? (scopeRejection request now) with
  | some rejection => .rejected rejection
  | none =>
    match active.findSome? (pathRejection toLowercase request now) with
    | some rejection => .rejected rejection
    | none =>
      match checkedLeaseExpiry now request.ttlSeconds
          "ttl_seconds" with
      | .error rejection => .rejected rejection
      | .ok expiry => .accepted (acquiredClaim request now expiry)

end Acquire

end ForgeCore.Claims
