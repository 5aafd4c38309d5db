import ForgeCore.DomainPacks.RemoteMetadata

/-!
# Supply-chain documents

The trust policy of an operator and the registry snapshot that it judges, with
every field that a digest or a signature covers.
-/

namespace ForgeCore.SupplyChain

open DomainPacks (DomainPackIdentity DomainPackCoordinate
  DomainPackArtifactBinding DomainPackCredentialStatus
  DomainPackNamespaceGrant DomainPackRegistryMirrorTransport
  DomainPackRemoteArtifactKind)

def domainPackLifecycleSchemaVersion : String := "0.5"

inductive DomainPackCandidateAuthority where
  | candidateOnly
  deriving DecidableEq, Repr

inductive DomainPackRegistryTrustRole where
  | registrySigner
  | registryRevoker
  deriving DecidableEq, Repr

/-- A key that the operator trusts for a role. -/
structure DomainPackRegistryTrustKey where
  keyId : StableId
  role : DomainPackRegistryTrustRole
  publicKeyHex : String
  status : DomainPackCredentialStatus
  validFromUnix : Nat
  validUntilUnix : Nat
  deriving DecidableEq, Repr

inductive DomainPackSourceAssurance where
  | explicitlyUntrusted
  | localExplicit
  | supplyChainVerified
  deriving DecidableEq, Repr

def DomainPackSourceAssurance.rank : DomainPackSourceAssurance → Nat
  | explicitlyUntrusted => 0
  | localExplicit => 1
  | supplyChainVerified => 2

inductive DomainPackTrustDisposition where
  | reject
  | inspectOnly
  | activateDeclarativeKnowledge
  | activateDeclarativeKnowledgeAndBoundBuiltIns
  deriving DecidableEq, Repr

/-- What becomes of the records of one package. -/
structure DomainPackTrustRule where
  ruleId : StableId
  pack : DomainPackCoordinate
  packageDigest : Option String
  contentDigest : Option String
  disposition : DomainPackTrustDisposition
  deriving DecidableEq, Repr

/-- The keys, the threshold and the rules of an operator. -/
structure DomainPackTrustPolicy where
  policyId : StableId
  policyVersion : String
  audience : StableId
  authority : DomainPackCandidateAuthority
  registryKeys : List DomainPackRegistryTrustKey
  requiredRegistrySignatureThreshold : Nat
  minimumActivationAssurance : DomainPackSourceAssurance
  rules : List DomainPackTrustRule
  defaultDisposition : DomainPackTrustDisposition
  deriving DecidableEq, Repr

structure DomainPackTrustPolicyDocument where
  schemaVersion : String
  domainPackTrustPolicy : DomainPackTrustPolicy
  deriving DecidableEq, Repr

inductive DomainPackRemoteArtifactMediaType where
  | applicationYaml
  | applicationJson
  | textPlain
  | applicationOctetStream
  deriving DecidableEq, Repr

structure DomainPackRemoteArtifactDescriptor where
  kind : DomainPackRemoteArtifactKind
  binding : DomainPackArtifactBinding
  objectPath : RepoPath
  byteLength : Nat
  mediaType : DomainPackRemoteArtifactMediaType
  deriving DecidableEq, Repr

structure DomainPackRegistryArtifactSet where
  manifest : DomainPackRemoteArtifactDescriptor
  content : DomainPackRemoteArtifactDescriptor
  license : DomainPackRemoteArtifactDescriptor
  fixtures : List DomainPackRemoteArtifactDescriptor
  deriving DecidableEq, Repr

structure DomainPackRegistryMirror where
  mirrorId : StableId
  priority : Nat
  transport : DomainPackRegistryMirrorTransport
  deriving DecidableEq, Repr

/-- A key under which a publisher signs. -/
structure DomainPackPublisherCredential where
  credentialId : StableId
  publisher : StableId
  publicKeyHex : String
  status : DomainPackCredentialStatus
  validFromUnix : Nat
  validUntilUnix : Nat
  deriving DecidableEq, Repr

/-- The part of a package record that its digest and signature cover. -/
structure PackageRecordSubject where
  identity : DomainPackIdentity
  packageDigest : String
  manifestDigest : String
  contentDigest : String
  licenseDigest : String
  fixtureDigests : List String
  artifacts : DomainPackRegistryArtifactSet
  namespaceGrantId : StableId
  publisherCredentialId : StableId
  deriving DecidableEq, Repr

structure DomainPackRegistryPackageRecord extends PackageRecordSubject where
  publisherSignatureHex : String
  recordDigest : String
  deriving DecidableEq, Repr

inductive DomainPackRevocationReason where
  | keyCompromise
  | provenanceFailure
  | packageTamper
  | operatorPolicy
  | supersededUnsafe
  deriving DecidableEq, Repr

/-- A record that must not be used any more. -/
structure DomainPackPackageRevocation where
  recordDigest : String
  reason : DomainPackRevocationReason
  explanation : String
  revokedAtUnix : Nat
  deriving DecidableEq, Repr

structure DomainPackRegistrySignature where
  signerKeyId : StableId
  role : DomainPackRegistryTrustRole
  signatureHex : String
  deriving DecidableEq, Repr

structure DomainPackSupplyChainRegistry where
  registryId : StableId
  registryVersion : String
  audience : StableId
  authority : DomainPackCandidateAuthority
  generation : Nat
  previousSnapshotDigest : Option String
  issuedAtUnix : Nat
  expiresAtUnix : Nat
  publisherCredentials : List DomainPackPublisherCredential
  namespaceGrants : List DomainPackNamespaceGrant
  mirrors : List DomainPackRegistryMirror
  packages : List DomainPackRegistryPackageRecord
  revocations : List DomainPackPackageRevocation
  snapshotDigest : String
  signatures : List DomainPackRegistrySignature
  deriving DecidableEq, Repr

structure DomainPackSupplyChainRegistryDocument where
  schemaVersion : String
  domainPackSupplyChainRegistry : DomainPackSupplyChainRegistry
  deriving DecidableEq, Repr

/-! ## What the remote metadata check reads -/

def DomainPackRemoteArtifactDescriptor.metadata (descriptor : DomainPackRemoteArtifactDescriptor) :
    DomainPacks.DomainPackRemoteArtifactDescriptor where
  kind := descriptor.kind
  binding := descriptor.binding
  objectPath := descriptor.objectPath

def DomainPackRegistryArtifactSet.metadata (artifacts : DomainPackRegistryArtifactSet) :
    DomainPacks.DomainPackRegistryArtifactSet where
  manifest := artifacts.manifest.metadata
  content := artifacts.content.metadata
  license := artifacts.license.metadata
  fixtures := artifacts.fixtures.map DomainPackRemoteArtifactDescriptor.metadata

def DomainPackRegistryPackageRecord.metadata (record : DomainPackRegistryPackageRecord) :
    DomainPacks.DomainPackRegistryPackageRecord where
  identity := record.identity
  packageDigest := record.packageDigest
  manifestDigest := record.manifestDigest
  contentDigest := record.contentDigest
  licenseDigest := record.licenseDigest
  fixtureDigests := record.fixtureDigests
  artifacts := record.artifacts.metadata
  namespaceGrantId := record.namespaceGrantId
  publisherCredentialId := record.publisherCredentialId
  recordDigest := record.recordDigest

/-- The registry without the fields that only digests and signatures read. -/
def DomainPackSupplyChainRegistryDocument.metadata
    (document : DomainPackSupplyChainRegistryDocument) :
    DomainPacks.DomainPackSupplyChainRegistry :=
  let registry := document.domainPackSupplyChainRegistry
  { schemaVersion := document.schemaVersion
    registryId := registry.registryId
    audience := registry.audience
    issuedAtUnix := registry.issuedAtUnix
    expiresAtUnix := registry.expiresAtUnix
    publisherCredentials := registry.publisherCredentials.map fun credential =>
        { credentialId := credential.credentialId
          publisher := credential.publisher
          status := credential.status
          validFromUnix := credential.validFromUnix
          validUntilUnix := credential.validUntilUnix }
    namespaceGrants := registry.namespaceGrants
    mirrors := registry.mirrors.map fun mirror => ⟨mirror.mirrorId, mirror.transport⟩
    packages := registry.packages.map DomainPackRegistryPackageRecord.metadata
    revocations := registry.revocations.map DomainPackPackageRevocation.recordDigest
    snapshotDigest := registry.snapshotDigest }

end ForgeCore.SupplyChain
