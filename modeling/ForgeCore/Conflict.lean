import ForgeCore.Common

/-!
# Conflict contracts

A conflict between two intents, and how it was decided.
-/

namespace ForgeCore

inductive IntentScopeKind where
  | project
  | repo
  | pathPrefix
  | memoryEntry
deriving DecidableEq, Repr

structure IntentScope where
  kind : IntentScopeKind
  target : StableId
deriving DecidableEq, Repr

inductive ConflictDetectionReason where
  | pathOverlap
  | authorityScopeOverlap
  | concurrentMutate
deriving DecidableEq, Repr

inductive ResolutionDecision where
  | awardedTo (principal : PrincipalId)
  | bothReleased
  | splitScope
deriving DecidableEq, Repr

inductive ConflictResolutionState where
  | pending
  | resolved (arbiter : PrincipalId) (decidedAt : Nat)
      (decision : ResolutionDecision)
  | escalated
deriving DecidableEq, Repr

/-- A recorded conflict between two principals. -/
structure ConflictContract where
  conflictId : StableId
  intentA : StableId
  intentB : StableId
  principalA : PrincipalId
  principalB : PrincipalId
  contestedScope : IntentScope
  detectionReason : ConflictDetectionReason
  detectedAt : Nat
  resolution : ConflictResolutionState
deriving DecidableEq, Repr

end ForgeCore
