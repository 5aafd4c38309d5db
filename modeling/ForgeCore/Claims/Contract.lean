import ForgeCore.Conflict

/-!
# Claim contracts

The documents that the claim bus reads and writes.
-/

namespace ForgeCore.Claims

inductive ClaimKind where
  | driver
  | lane
  | story
  | productArea
  | integration
  deriving DecidableEq, Repr

inductive ActorRole where
  | driver
  | worker
  | human
  | runtime
  | unknown
  deriving DecidableEq, Repr

inductive ClaimScopeKind where
  | project
  | productArea
  | story
  | lane
  | integration
  | integrationState
  deriving DecidableEq, Repr

inductive ClaimStatus where
  | active
  | stale
  | expired
  | handoffRequired
  | handoffRecorded
  | released
  deriving DecidableEq, Repr

inductive ExpiryAction where
  | recordHandoffRequest
  | driverReview
  | humanReview
  | blockUntilRecovered
  deriving DecidableEq, Repr

inductive ReclaimPolicy where
  | sameAgentOnly
  | driverReview
  | ownerReview
  | humanReview
  | forbidden
  deriving DecidableEq, Repr

/-- What is claimed, and by whom. -/
structure ClaimIdentity where
  kind : ClaimKind
  claimantPrincipalId : Option PrincipalId
  claimantAgentId : StableId
  claimantRole : ActorRole
  registryRef : Option RepoPath
  deriving DecidableEq, Repr

/-- The scope of a claim and its paths. -/
structure ClaimScope where
  kind : ClaimScopeKind
  id : ScopeId
  productArea : Option StableId
  paths : List RepoPath
  deriving DecidableEq, Repr

/-- When a claim was taken, renewed and ends. -/
structure ClaimLease where
  acquiredAt : String
  lastHeartbeatAt : String
  expiresAt : String
  ttlSeconds : Nat
  heartbeatIntervalSeconds : Nat
  expectedStateVersion : Nat
  deriving DecidableEq, Repr

structure ClaimStatusRecord where
  value : ClaimStatus
  evaluatedAt : String
  reasonCode : Option StableId
  deriving DecidableEq, Repr

structure ExpiryPolicy where
  onExpiry : ExpiryAction
  handoffRequired : Bool
  releaseWithoutHandoffAllowed : Bool
  reclaimPolicy : ReclaimPolicy
  handoffRequestRef : Option RepoPath
  deriving DecidableEq, Repr

/-- A claim as it is stored. -/
structure ClaimContract where
  id : ClaimId
  contractRef : RepoPath
  claim : ClaimIdentity
  scope : ClaimScope
  lease : ClaimLease
  status : ClaimStatusRecord
  expiryPolicy : ExpiryPolicy
  evidenceRefs : List String
  deriving DecidableEq, Repr

def ClaimStatus.isOpen : ClaimStatus → Bool
  | .active | .stale => true
  | .expired | .handoffRequired | .handoffRecorded | .released => false

end ForgeCore.Claims
