import ForgeCore.Common
import ForgeCore.Library.Checked
import ForgeCore.Library.Digest

/-!
# Domain Pack documents

The request, the candidates and the registry that a resolution reads.  A
document that is digested as a whole carries its digest as a field, because
the digest also covers fields that the resolution never reads.
-/

namespace ForgeCore.DomainPacks

open List

/-- Publisher, name, namespace and version of a package. -/
structure DomainPackIdentity where
  publisher : StableId
  name : StableId
  namespaceId : StableId
  version : String
deriving DecidableEq, Repr

/-- A package without its version. -/
structure DomainPackCoordinate where
  publisher : StableId
  name : StableId
deriving DecidableEq, Repr

structure DomainPackVersionReference where
  publisher : StableId
  name : StableId
  version : String
deriving DecidableEq, Repr

structure DomainPackCompatibility where
  packSchemaRequirement : String
  forgeCoreRequirement : String
deriving DecidableEq, Repr

structure DomainPackArtifactBinding where
  artifactRef : RepoPath
  rawSha256 : String
  canonicalSha256 : String
deriving DecidableEq, Repr

structure DomainPackContentBinding where
  contentRef : RepoPath
  rawSha256 : String
  canonicalSha256 : String
deriving DecidableEq, Repr

structure DomainPackDependency where
  pack : DomainPackCoordinate
  versionRequirement : String
  requiredContentDigest : Option String
deriving DecidableEq, Repr

structure DomainPackConflict where
  pack : DomainPackCoordinate
  versionRequirement : String
deriving DecidableEq, Repr

/-- What a package says of itself. -/
structure DomainPackManifest where
  identity : DomainPackIdentity
  compatibility : DomainPackCompatibility
  licenseText : DomainPackArtifactBinding
  content : DomainPackContentBinding
  dependencies : List DomainPackDependency
  conflicts : List DomainPackConflict
deriving DecidableEq, Repr

structure DomainPackCandidateInput where
  manifestBinding : DomainPackArtifactBinding
  manifestSchemaVersion : String
  manifest : DomainPackManifest
  contentSchemaVersion : String
  contentPack : DomainPackVersionReference
deriving DecidableEq, Repr

structure DomainPackPackageBinding where
  packageRef : RepoPath
  packageDigest : String
  manifest : DomainPackArtifactBinding
  content : DomainPackContentBinding
  license : DomainPackArtifactBinding
  fixtures : List DomainPackArtifactBinding
deriving DecidableEq, Repr

/-- A candidate.  `canonicalDigest` is the digest of its canonical JSON, empty
when it does not serialize. -/
structure DomainPackResolutionCandidate where
  input : DomainPackCandidateInput
  package : DomainPackPackageBinding
  registryRecordDigest : Option String
  canonicalDigest : String
deriving DecidableEq, Repr

inductive DomainPackRemoteArtifactKind where
  | manifest
  | content
  | license
  | fixture
deriving DecidableEq, Repr

structure DomainPackRemoteArtifactDescriptor where
  kind : DomainPackRemoteArtifactKind
  binding : DomainPackArtifactBinding
  objectPath : RepoPath
deriving DecidableEq, Repr

structure DomainPackRegistryArtifactSet where
  manifest : DomainPackRemoteArtifactDescriptor
  content : DomainPackRemoteArtifactDescriptor
  license : DomainPackRemoteArtifactDescriptor
  fixtures : List DomainPackRemoteArtifactDescriptor
deriving DecidableEq, Repr

structure DomainPackRegistryPackageRecord where
  identity : DomainPackIdentity
  packageDigest : String
  manifestDigest : String
  contentDigest : String
  licenseDigest : String
  fixtureDigests : List String
  artifacts : DomainPackRegistryArtifactSet
  namespaceGrantId : StableId
  publisherCredentialId : StableId
  recordDigest : String
deriving DecidableEq, Repr

inductive DomainPackRegistryMirrorTransport where
  | https (baseUrl : String)
  | operatorProvisionedLocal (locationId : StableId)
deriving DecidableEq, Repr

structure DomainPackRegistryMirror where
  mirrorId : StableId
  transport : DomainPackRegistryMirrorTransport
deriving DecidableEq, Repr

inductive DomainPackCredentialStatus where
  | active
  | revoked
deriving DecidableEq, Repr

structure DomainPackPublisherCredential where
  credentialId : StableId
  publisher : StableId
  status : DomainPackCredentialStatus
  validFromUnix : Nat
  validUntilUnix : Nat
deriving DecidableEq, Repr

structure DomainPackNamespaceGrant where
  grantId : StableId
  publisher : StableId
  namespacePrefix : StableId
  validFromUnix : Nat
  validUntilUnix : Nat
deriving DecidableEq, Repr

structure DomainPackSupplyChainRegistry where
  schemaVersion : String
  registryId : StableId
  audience : StableId
  issuedAtUnix : Nat
  expiresAtUnix : Nat
  publisherCredentials : List DomainPackPublisherCredential
  namespaceGrants : List DomainPackNamespaceGrant
  mirrors : List DomainPackRegistryMirror
  packages : List DomainPackRegistryPackageRecord
  /-- The record digests that are revoked. -/
  revocations : List String
  snapshotDigest : String
deriving DecidableEq, Repr

inductive DomainPackResolutionRootReason where
  | existingProjectRoot
  | installIntent
  | upgradeIntent
  | persistentDomainRequirement
  | rollbackIntent
deriving DecidableEq, Repr

structure DomainPackResolutionRoot where
  pack : DomainPackCoordinate
  versionRequirement : String
  requiredContentDigest : Option String
  reason : DomainPackResolutionRootReason
deriving DecidableEq, Repr

/-- The current lock.  `payloadDigest` is the digest of its canonical
payload. -/
structure DomainPackExactLock where
  schemaVersion : String
  projectId : StableId
  packages : List DomainPackIdentity
  payloadDigest : Option String
  lockDigest : String
deriving DecidableEq, Repr

/-- The roots to resolve and the candidates at hand. -/
structure DomainPackResolutionRequest where
  schemaVersion : String
  requestId : StableId
  projectId : StableId
  forgeCoreVersion : String
  coreBundleDigest : String
  corePolicySetDigest : String
  requirementsSchemaVersion : String
  requirementsProjectId : StableId
  roots : List DomainPackResolutionRoot
  currentLock : Option DomainPackExactLock
  registrySnapshotDigest : String
  candidates : List DomainPackResolutionCandidate
deriving DecidableEq, Repr

inductive DomainPackResolutionIssueCode where
  | unsupportedSchemaVersion
  | invalidIdentity
  | invalidDigest
  | invalidVersionRequirement
  | registryDigestMismatch
  | registryRecordMissing
  | registryRecordMismatch
  | registryExpired
  | registrySignatureInvalid
  | publisherSignatureInvalid
  | namespaceNotGranted
  | revokedPackage
  | explicitlyUntrusted
  | duplicateVersionEquivocation
  | missingRoot
  | missingDependency
  | incompatibleDependency
  | dependencyCycle
  | declaredConflict
  | prereleaseNotExplicit
  | currentLockMismatch
  | resourceLimitExceeded
  | compositionBlocked
deriving DecidableEq, Repr

abbrev DomainPackResolutionIssue := Checked.Issue DomainPackResolutionIssueCode

structure DomainPackRejectedCandidate where
  identity : DomainPackIdentity
  packageDigest : String
  reasons : List DomainPackResolutionIssueCode
deriving DecidableEq, Repr

structure DomainPackResolutionDependencyEdge where
  source : DomainPackVersionReference
  target : DomainPackVersionReference
  requiredContentDigest : Option String
deriving DecidableEq, Repr

/-- A selected package.  The assurances that the source writes next to it are
constants of the resolution. -/
structure DomainPackResolvedPackage where
  identity : DomainPackIdentity
  package : DomainPackPackageBinding
  registryRecordDigest : String
  namespaceGrantId : StableId
  dependencies : List DomainPackDependency
  deterministicOrder : Nat
deriving DecidableEq, Repr

inductive DomainPackResolutionStatus where
  | resolved
  | blocked
deriving DecidableEq, Repr

/-- The answer to a request. -/
structure DomainPackResolutionProjection where
  requestId : StableId
  status : DomainPackResolutionStatus
  selected : List DomainPackResolvedPackage
  dependencyEdges : List DomainPackResolutionDependencyEdge
  rejected : List DomainPackRejectedCandidate
  issues : List DomainPackResolutionIssue
deriving DecidableEq, Repr

/-- An ASCII letter or digit, a dot, an underscore or a hyphen. -/
def isIdByte (byte : UInt8) : Bool :=
  (48 ≤ byte && byte ≤ 57) || (65 ≤ byte && byte ≤ 90) ||
    (97 ≤ byte && byte ≤ 122) || byte = 46 || byte = 95 || byte = 45

def validId (value : String) : Bool :=
  let bytes := Text.asBytes value
  let outer (byte : UInt8) : Bool := byte = 46 || byte = 45
  !bytes.isEmpty && bytes.length ≤ 256 && !bytes.head?.any outer &&
    !bytes.getLast?.any outer && bytes.all isIdByte

def validDigest (value : String) : Bool := Digest.isSha256Token value

def validIdentity (identity : DomainPackIdentity) : Bool :=
  validId identity.publisher.value && validId identity.name.value &&
    validId identity.namespaceId.value

def validCoordinate (coordinate : DomainPackCoordinate) : Bool :=
  validId coordinate.publisher.value && validId coordinate.name.value

def coordinateKeyParts (publisher name : String) : String :=
  publisher ++ "::" ++ name

def coordinateKey (coordinate : DomainPackCoordinate) : String :=
  coordinateKeyParts coordinate.publisher.value coordinate.name.value

def DomainPackIdentity.coordinate (identity : DomainPackIdentity) : DomainPackCoordinate :=
  ⟨identity.publisher, identity.name⟩

def identityKey (identity : DomainPackIdentity) : String :=
  identity.publisher.value ++ "::" ++ identity.name.value ++ "::" ++ identity.version

def versionReference (identity : DomainPackIdentity) : DomainPackVersionReference :=
  ⟨identity.publisher, identity.name, identity.version⟩

def candidateIdentity (candidate : DomainPackResolutionCandidate) : DomainPackIdentity :=
  candidate.input.manifest.identity

def candidateOrderKey (candidate : DomainPackResolutionCandidate) : String :=
  candidate.canonicalDigest

def namespaceIsGranted (namespaceId start : String) : Bool :=
  validId namespaceId && validId start && (namespaceId = start ||
      (Digest.stripPrefix? start namespaceId).any fun suffix =>
        suffix.toList.head? = some '.')

theorem colon_notMem_of_validId {value : String}
    (valid : validId value = true) : ':' ∉ value.toList := by
  intro member
  simp only [validId, Bool.and_eq_true, all_eq_true] at valid
  have byte : (58 : UInt8) ∈ Text.asBytes value :=
    List.mem_flatMap.mpr ⟨':', member, List.mem_singleton.mpr rfl⟩
  exact absurd (valid.2 58 byte) (by decide)

/-- A text with a single pair of separators is cut at that pair only. -/
theorem append_pair_inj {item : Type} {separator : item} {first second first' second' : List item}
    (firstClean : separator ∉ first) (secondClean : separator ∉ second)
    (same : first ++ separator :: separator :: second =
      first' ++ separator :: separator :: second') : first = first' ∧ second = second' := by
  rcases List.append_eq_append_iff.mp same with
    ⟨between, rfl, tail⟩ | ⟨between, rfl, tail⟩
  · match between with
    | [] =>
      simp only [nil_append, List.cons.injEq, true_and] at tail
      exact ⟨(append_nil first).symm, tail⟩
    | [other] =>
      simp only [singleton_append, List.cons.injEq] at tail
      exact absurd (tail.2.2 ▸ mem_cons_self) secondClean
    | other :: another :: rest =>
      simp only [cons_append, List.cons.injEq] at tail
      refine absurd ?_ secondClean
      rw [tail.2.2]
      exact mem_append_right _ mem_cons_self
  · match between with
    | [] =>
      simp only [nil_append, List.cons.injEq, true_and] at tail
      exact ⟨append_nil first', tail.symm⟩
    | other :: rest =>
      simp only [cons_append, List.cons.injEq] at tail
      refine absurd ?_ firstClean
      rw [← tail.1]
      exact mem_append_right _ mem_cons_self

theorem coordinateKey_inj {valid other : DomainPackCoordinate}
    (isValid : validCoordinate valid = true)
    (same : coordinateKey valid = coordinateKey other) : valid = other := by
  rw [validCoordinate, Bool.and_eq_true] at isValid
  have chars := congrArg String.toList same
  simp only [coordinateKey, coordinateKeyParts, String.toList_append, append_assoc] at chars
  obtain ⟨publisher, name⟩ := append_pair_inj (colon_notMem_of_validId isValid.1)
      (colon_notMem_of_validId isValid.2) chars
  obtain ⟨⟨validPublisher⟩, ⟨validName⟩⟩ := valid
  obtain ⟨⟨otherPublisher⟩, ⟨otherName⟩⟩ := other
  cases String.toList_inj.mp publisher
  cases String.toList_inj.mp name
  rfl

end ForgeCore.DomainPacks
