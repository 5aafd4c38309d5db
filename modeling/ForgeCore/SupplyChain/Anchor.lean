import ForgeCore.Library.Machine
import ForgeCore.SupplyChain.Verification

/-!
# The registry anchor

The monotonic head of one registry, the capabilities that it issues, and the
selection of one record from a capability.  A call that may change the anchor
returns the anchor that it leaves behind next to its result.
-/

namespace ForgeCore.SupplyChain

open Text Checked Machine

/-- The head of one registry, and every revocation so far. -/
structure DomainPackRegistryAnchor where
  registryId : StableId
  audience : StableId
  generation : Nat
  snapshotDigest : Option String
  trustPolicyDigest : Option String
  cumulativeRevocations : List DomainPackPackageRevocation
  cumulativeRevocationDigest : String
  deriving DecidableEq, Repr

/-- An observation of the anchor, to be compared before the head moves. -/
structure DomainPackRegistryAnchorVersion where
  registryId : StableId
  audience : StableId
  generation : Nat
  snapshotDigest : Option String
  trustPolicyDigest : Option String
  cumulativeRevocationDigest : String
  deriving DecidableEq, Repr

/-- The capability to select from a verified snapshot. -/
structure AnchoredDomainPackSupplyChainSnapshot where
  verified : VerifiedDomainPackSupplyChainSnapshot
  cumulativeRevocations : List DomainPackPackageRevocation
  cumulativeRevocationDigest : String
  deriving DecidableEq, Repr

structure DomainPackRegistryAnchorReplayAudit where
  registryId : StableId
  audience : StableId
  generation : Nat
  snapshotDigest : String
  trustPolicyDigest : String
  cumulativeRevocations : List DomainPackPackageRevocation
  cumulativeRevocationDigest : String
  deriving DecidableEq, Repr

inductive DomainPackRegistryAnchorAdvance where
  | advanced (capability : AnchoredDomainPackSupplyChainSnapshot)
  | replay (capability : AnchoredDomainPackSupplyChainSnapshot)
      (audit : DomainPackRegistryAnchorReplayAudit)
  deriving DecidableEq, Repr

def DomainPackRegistryAnchorAdvance.capability :
    DomainPackRegistryAnchorAdvance → AnchoredDomainPackSupplyChainSnapshot
  | advanced capability => capability
  | replay capability _ => capability

def validateAnchorIdentity (registryId audience : StableId) : Checked Unit :=
  require (!(isBlank registryId.value || isBlank audience.value))
    (.invalidRegistryAnchor "registry id and audience must not be blank")

section Opening

variable (prims : SupplyChainPrimitives)

def newTrustOnFirstUse (registryId audience : StableId) : Checked DomainPackRegistryAnchor := do
  validateAnchorIdentity registryId audience
  let cumulativeRevocationDigest ←
    domainPackCumulativeRevocationDigest prims []
  return {
    registryId := registryId
    audience := audience
    generation := 0
    snapshotDigest := none
    trustPolicyDigest := none
    cumulativeRevocations := []
    cumulativeRevocationDigest := cumulativeRevocationDigest }

def fromOperatorProtectedHead (registryId audience : StableId)
    (generation : Nat) (snapshotDigest trustPolicyDigest : String)
    (cumulativeRevocations : List DomainPackPackageRevocation)
    (cumulativeRevocationDigest : String) : Checked DomainPackRegistryAnchor := do
  validateAnchorIdentity registryId audience
  require (generation ≠ 0)
    (.invalidRegistryAnchor "a restored head must have a non-zero generation")
  requireDigest snapshotDigest "registry_anchor.snapshot_digest" false
  requireDigest trustPolicyDigest "registry_anchor.trust_policy_digest" false
  requireDigest cumulativeRevocationDigest "registry_anchor.cumulative_revocation_digest" false
  let facts ← canonicalRevocationFacts cumulativeRevocations
  let expected ← domainPackCumulativeRevocationDigest prims facts
  require (cumulativeRevocationDigest = expected) (.invalidRegistryAnchor
      "cumulative revocation digest does not bind the supplied facts")
  return {
    registryId := registryId
    audience := audience
    generation := generation
    snapshotDigest := some snapshotDigest
    trustPolicyDigest := some trustPolicyDigest
    cumulativeRevocations := facts
    cumulativeRevocationDigest := cumulativeRevocationDigest }

end Opening

def DomainPackRegistryAnchor.version (anchor : DomainPackRegistryAnchor) :
    DomainPackRegistryAnchorVersion where
  registryId := anchor.registryId
  audience := anchor.audience
  generation := anchor.generation
  snapshotDigest := anchor.snapshotDigest
  trustPolicyDigest := anchor.trustPolicyDigest
  cumulativeRevocationDigest := anchor.cumulativeRevocationDigest

def DomainPackRegistryAnchorVersion.matches (version : DomainPackRegistryAnchorVersion)
    (anchor : DomainPackRegistryAnchor) : Bool :=
  version.registryId = anchor.registryId && version.audience = anchor.audience &&
    version.generation = anchor.generation && version.snapshotDigest = anchor.snapshotDigest &&
    version.trustPolicyDigest = anchor.trustPolicyDigest &&
    version.cumulativeRevocationDigest = anchor.cumulativeRevocationDigest

def ensureCumulativeRevocations
    (prior candidate : List DomainPackPackageRevocation) : Checked Unit :=
  let facts :=
    Collect.map (fun fact : DomainPackPackageRevocation => fact.recordDigest) id candidate
  prior.forM fun fact => do
    let candidateFact ←
      found facts[fact.recordDigest]?
        (.registryAnchorCumulativeRevocationMismatch fact.recordDigest)
    require (candidateFact = fact) (.registryAnchorCumulativeRevocationMismatch fact.recordDigest)

/-- The anchored policy, once there is one, is the candidate's. -/
def ensureTrustPolicy (anchor : DomainPackRegistryAnchor)
    (candidate : VerifiedDomainPackSupplyChainSnapshot) : Checked Unit :=
  match anchor.trustPolicyDigest with
  | some anchored =>
    require (candidate.trustPolicyDigest = anchored) (.registryAnchorTrustPolicyMismatch anchored
        candidate.trustPolicyDigest)
  | none => .ok ()

/-- The checks before the generations are compared. -/
def ensureContinuation (anchor : DomainPackRegistryAnchor)
    (expected : DomainPackRegistryAnchorVersion)
    (candidate : VerifiedDomainPackSupplyChainSnapshot) : Checked Unit := do
  require (expected.matches anchor) .registryAnchorCompareAndSwapConflict
  require (!(candidate.registryId ≠ anchor.registryId || candidate.audience ≠ anchor.audience))
    (.registryAnchorIdentityMismatch anchor.registryId.value
      candidate.registryId.value anchor.audience.value candidate.audience.value)
  ensureTrustPolicy anchor candidate
  ensureCumulativeRevocations anchor.cumulativeRevocations candidate.currentRevocations
  require (anchor.generation ≤ candidate.generation)
    (.registrySnapshotStale anchor.generation candidate.generation)

def replayHead (anchor : DomainPackRegistryAnchor)
    (candidate : VerifiedDomainPackSupplyChainSnapshot) :
    Checked DomainPackRegistryAnchorAdvance := do
  let anchoredDigest := anchor.snapshotDigest.getD ""
  require (candidate.snapshotDigest = anchoredDigest)
    (.registrySnapshotFork anchor.generation anchoredDigest candidate.snapshotDigest)
  require (candidate.currentRevocationDigest = anchor.cumulativeRevocationDigest)
    (.registryAnchorCumulativeRevocationMismatch "<cumulative-revocation-digest>")
  return .replay
    { verified := candidate
      cumulativeRevocations := anchor.cumulativeRevocations
      cumulativeRevocationDigest := anchor.cumulativeRevocationDigest }
    { registryId := anchor.registryId
      audience := anchor.audience
      generation := anchor.generation
      snapshotDigest := anchoredDigest
      trustPolicyDigest := anchor.trustPolicyDigest.getD ""
      cumulativeRevocations := anchor.cumulativeRevocations
      cumulativeRevocationDigest := anchor.cumulativeRevocationDigest }

def ensureSuccessor (anchor : DomainPackRegistryAnchor)
    (candidate : VerifiedDomainPackSupplyChainSnapshot) : Checked Unit := do
  let directSuccessor ←
    found (checkedSucc anchor.generation) .registryAnchorGenerationOverflow
  require (candidate.generation = directSuccessor)
    (.registrySnapshotGenerationSkip anchor.generation candidate.generation)
  if anchor.generation = 0 then
    require candidate.previousSnapshotDigest.isNone
      (.registrySnapshotPredecessorMismatch candidate.generation "<genesis>"
        candidate.previousSnapshotDigest)
  else
    require (candidate.previousSnapshotDigest = anchor.snapshotDigest)
      (.registrySnapshotPredecessorMismatch candidate.generation
        (anchor.snapshotDigest.getD "") candidate.previousSnapshotDigest)

def DomainPackRegistryAnchor.advanceTo (anchor : DomainPackRegistryAnchor)
    (candidate : VerifiedDomainPackSupplyChainSnapshot) : DomainPackRegistryAnchor where
  registryId := anchor.registryId
  audience := anchor.audience
  generation := candidate.generation
  snapshotDigest := some candidate.snapshotDigest
  trustPolicyDigest := some candidate.trustPolicyDigest
  cumulativeRevocations := candidate.currentRevocations
  cumulativeRevocationDigest := candidate.currentRevocationDigest

def compareAndAdvance (anchor : DomainPackRegistryAnchor)
    (expected : DomainPackRegistryAnchorVersion)
    (candidate : VerifiedDomainPackSupplyChainSnapshot) :
    DomainPackRegistryAnchor × Checked DomainPackRegistryAnchorAdvance :=
  match ensureContinuation anchor expected candidate with
  | .error failure => (anchor, .error failure)
  | .ok () =>
    if candidate.generation = anchor.generation then
      (anchor, replayHead anchor candidate)
    else
      match ensureSuccessor anchor candidate with
      | .error failure => (anchor, .error failure)
      | .ok () =>
        let next := anchor.advanceTo candidate
        (next, .ok (.advanced
          { verified := candidate
            cumulativeRevocations := next.cumulativeRevocations
            cumulativeRevocationDigest := next.cumulativeRevocationDigest }))

/-- A selected record, and the rule that allowed it. -/
structure SelectedDomainPackSupplyChainRecord where
  registryId : StableId
  audience : StableId
  generation : Nat
  snapshotDigest : String
  recordDigest : String
  packageDigest : String
  contentDigest : String
  trustPolicyDigest : String
  trustRuleId : StableId
  disposition : DomainPackTrustDisposition
  sourceAssurance : DomainPackSourceAssurance
  deriving DecidableEq, Repr

def AnchoredDomainPackSupplyChainSnapshot.currentRevocation
    (anchored : AnchoredDomainPackSupplyChainSnapshot)
    (recordDigest : String) : Option DomainPackPackageRevocation :=
  anchored.cumulativeRevocations.find? (·.recordDigest = recordDigest)

def AnchoredDomainPackSupplyChainSnapshot.isCurrentlyRevoked
    (anchored : AnchoredDomainPackSupplyChainSnapshot) (recordDigest : String) : Bool :=
  (anchored.currentRevocation recordDigest).isSome

def ruleMatches (record : DomainPackRegistryPackageRecord) (rule : DomainPackTrustRule) : Bool :=
  rule.pack.publisher = record.identity.publisher && rule.pack.name = record.identity.name &&
    rule.packageDigest.all (· = record.packageDigest) && rule.contentDigest.all
      (· = record.artifacts.content.binding.canonicalSha256)

def ruleSpecificity (rule : DomainPackTrustRule) : Nat :=
  rule.packageDigest.isSome.toNat + rule.contentDigest.isSome.toNat

/-- The rules that match, the most specific ones first. -/
def matchingRules (policy : DomainPackTrustPolicy) (record : DomainPackRegistryPackageRecord) :
    List (Nat × DomainPackTrustRule) :=
  ((policy.rules.filter (ruleMatches record)).map fun rule =>
    (ruleSpecificity rule, rule)).mergeSort fun left right =>
      right.1 < left.1 || (left.1 = right.1 && left.2.ruleId.value ≤ right.2.ruleId.value)

def selectTrustRule (policy : DomainPackTrustPolicy) (record : DomainPackRegistryPackageRecord) :
    Checked (DomainPackTrustDisposition × StableId) :=
  match matchingRules policy record with
  | [] => .ok (policy.defaultDisposition, ⟨"domain-pack.trust.default-disposition"⟩)
  | (specificity, first) :: rest =>
    if (((specificity, first) :: rest).takeWhile
        (·.1 = specificity)).any (fun entry => entry.2.disposition ≠ first.disposition) then
      .error (.selectedRecordAmbiguousTrustRule record.recordDigest)
    else
      .ok (first.disposition, first.ruleId)

section Selection

variable (prims : SupplyChainPrimitives)

def selectDomainPackSupplyChainRecord (anchored : AnchoredDomainPackSupplyChainSnapshot)
    (record : DomainPackRegistryPackageRecord)
    (policyDocument : DomainPackTrustPolicyDocument) (nowUnix : Nat) :
    Checked SelectedDomainPackSupplyChainRecord := do
  let verified := anchored.verified
  require (policyDocument.schemaVersion = domainPackLifecycleSchemaVersion)
    (.unsupportedSchemaVersion "domain pack trust policy" policyDocument.schemaVersion)
  validatePolicy prims policyDocument
  let policy := policyDocument.domainPackTrustPolicy
  require (policy.audience = verified.audience)
    (.audienceMismatch verified.audience.value policy.audience.value)
  let trustPolicyDigest ←
    canonicalDigest prims (.trustPolicy policyDocument)
  require (trustPolicyDigest = verified.trustPolicyDigest)
    (.selectedRecordPolicyMismatch verified.trustPolicyDigest trustPolicyDigest)
  require (verified.authority = .candidateOnly)
    (.invalidSnapshot "domain_pack_supply_chain_registry.authority"
      "anchored registry is not candidate-only")
  require (verified.issuedAtUnix ≤ nowUnix) (.snapshotNotYetValid verified.issuedAtUnix nowUnix)
  require (nowUnix < verified.expiresAtUnix) (.snapshotExpired verified.expiresAtUnix nowUnix)
  let entry ←
    found (verified.entries.find? (·.record = record))
      (.selectedRecordNotAnchored record.recordDigest)
  require (!anchored.isCurrentlyRevoked entry.record.recordDigest)
    (.revokedRecord entry.record.recordDigest)
  let rule ← selectTrustRule policy entry.record
  let sourceAssurance := DomainPackSourceAssurance.supplyChainVerified
  require (policy.minimumActivationAssurance.rank ≤ sourceAssurance.rank)
    (.selectedRecordBelowMinimumAssurance entry.record.recordDigest
      policy.minimumActivationAssurance sourceAssurance)
  require (rule.1 ≠ .reject) (.selectedRecordRejected entry.record.recordDigest rule.2.value)
  return {
    registryId := verified.registryId
    audience := verified.audience
    generation := verified.generation
    snapshotDigest := verified.snapshotDigest
    recordDigest := entry.record.recordDigest
    packageDigest := entry.record.packageDigest
    contentDigest := entry.record.artifacts.content.binding.canonicalSha256
    trustPolicyDigest := verified.trustPolicyDigest
    trustRuleId := rule.2
    disposition := rule.1
    sourceAssurance := sourceAssurance }

end Selection

end ForgeCore.SupplyChain
