import ForgeCore.Library.Collect
import ForgeCore.Library.Digest
import ForgeCore.Library.Ed25519
import ForgeCore.SupplyChain.Contract

/-!
# Verification of a registry snapshot

The checks of one snapshot against the trust policy of an operator, in the
order in which they run.  Canonical JSON, SHA-256, Ed25519 and the derived
`Debug` texts are outside the repository and come in as
`SupplyChainPrimitives`.
-/

namespace ForgeCore.SupplyChain

open Text Checked Digest Ed25519
open DomainPacks (DomainPackIdentity DomainPackNamespaceGrant
  DomainPackRemoteAcquisitionContractError
  validateRemoteAcquisitionMetadata)

inductive DomainPackSupplyChainError where
  | unsupportedSchemaVersion (document found : String)
  | invalidPolicy (path message : String)
  | invalidSnapshot (path message : String)
  | audienceMismatch (expected found : String)
  | snapshotNotYetValid (issuedAtUnix nowUnix : Nat)
  | snapshotExpired (expiresAtUnix nowUnix : Nat)
  | snapshotDigestMismatch (expected actual : String)
  | registryKeyNotFound (keyId : String)
  | registryKeyNotActive (keyId : String)
  | registryKeyRoleMismatch (keyId : String)
  | registryKeyOutsideValidity (keyId : String)
  | registrySignatureDuplicate (keyId : String)
  | registrySignatureInvalid (keyId : String)
  | registrySignatureThresholdNotMet (required verified : Nat)
  | publisherCredentialNotFound (credentialId : String)
  | publisherCredentialNotActive (credentialId : String)
  | publisherCredentialOutsideValidity (credentialId : String)
  | publisherIdentityMismatch (credentialId expected found : String)
  | publisherSignatureInvalid (credentialId recordDigest : String)
  | recordDigestMismatch (recordDigest actual : String)
  | namespaceGrantNotFound (grantId : String)
  | namespaceGrantOutsideValidity (grantId : String)
  | namespacePublisherMismatch (grantId publisher : String)
  | namespaceNotGranted (grantId namespaceId : String)
  | reservedCoreNamespace (namespaceId : String)
  | revokedRecord (recordDigest : String)
  | duplicateRecord (coordinateVersion : String)
  | packageEquivocation
      (coordinateVersion firstRecordDigest secondRecordDigest : String)
  | invalidRegistryAnchor (message : String)
  | registryAnchorIdentityMismatch
      (expectedRegistryId foundRegistryId expectedAudience foundAudience : String)
  | registryAnchorTrustPolicyMismatch
      (anchoredTrustPolicyDigest candidateTrustPolicyDigest : String)
  | registryAnchorCompareAndSwapConflict
  | registrySnapshotStale (anchoredGeneration candidateGeneration : Nat)
  | registrySnapshotFork
      (generation : Nat) (anchoredDigest candidateDigest : String)
  | registrySnapshotGenerationSkip
      (anchoredGeneration candidateGeneration : Nat)
  | registrySnapshotPredecessorMismatch
      (generation : Nat) (expectedDigest : String)
      (foundDigest : Option String)
  | registryAnchorGenerationOverflow
  | registryAnchorCumulativeRevocationMismatch (recordDigest : String)
  | selectedRecordNotAnchored (recordDigest : String)
  | selectedRecordPolicyMismatch
      (anchoredTrustPolicyDigest candidateTrustPolicyDigest : String)
  | selectedRecordAmbiguousTrustRule (recordDigest : String)
  | selectedRecordRejected (recordDigest ruleId : String)
  | selectedRecordBelowMinimumAssurance
      (recordDigest : String) (minimum actual : DomainPackSourceAssurance)
  | invalidPublicKey (subjectId : String)
  | invalidSignatureEncoding (subjectId : String)
  | canonicalization (message : String)
  deriving DecidableEq, Repr

abbrev Checked (value : Type) := Except DomainPackSupplyChainError value

/-! ## Subjects of digests and signatures -/

/-- The part of a snapshot that its digest and signatures cover. -/
structure RegistrySnapshotSubject where
  schemaVersion : String
  registryId : StableId
  registryVersion : String
  audience : StableId
  authority : DomainPackCandidateAuthority
  generation : Nat
  previousSnapshotDigest : Option String
  issuedAtUnix : Nat
  expiresAtUnix : Nat
  publisherCredentials : List DomainPackPublisherCredential
  namespaceGrants : List DomainPackNamespaceGrant
  mirrors : List DomainPackRegistryMirror
  packages : List DomainPackRegistryPackageRecord
  revocations : List DomainPackPackageRevocation
  deriving DecidableEq, Repr

def registrySnapshotSubject (document : DomainPackSupplyChainRegistryDocument) :
    RegistrySnapshotSubject :=
  let registry := document.domainPackSupplyChainRegistry
  { schemaVersion := document.schemaVersion
    registryId := registry.registryId
    registryVersion := registry.registryVersion
    audience := registry.audience
    authority := registry.authority
    generation := registry.generation
    previousSnapshotDigest := registry.previousSnapshotDigest
    issuedAtUnix := registry.issuedAtUnix
    expiresAtUnix := registry.expiresAtUnix
    publisherCredentials := registry.publisherCredentials
    namespaceGrants := registry.namespaceGrants
    mirrors := registry.mirrors
    packages := registry.packages
    revocations := registry.revocations }

/-- The values that are written as canonical JSON. -/
inductive CanonicalSubject where
  | packageRecord (record : PackageRecordSubject)
  | publisherEnvelope (schemaVersion : String)
      (registryId audience : StableId) (record : PackageRecordSubject)
  | registrySnapshot (snapshot : RegistrySnapshotSubject)
  | registrySignatureEnvelope (signerKeyId : StableId)
      (role : DomainPackRegistryTrustRole)
      (snapshot : RegistrySnapshotSubject)
  | trustPolicy (document : DomainPackTrustPolicyDocument)
  | revocations (facts : List DomainPackPackageRevocation)
  deriving DecidableEq, Repr

/-- What is imported from outside the repository. -/
structure SupplyChainPrimitives where
  sha256 : Digest.Sha256
  /-- `serde_json::to_value`, then `serde_json_canonicalizer::to_vec`. -/
  canonicalize : CanonicalSubject → Except String (List UInt8)
  ed25519 : Verifier
  /-- The derived `Debug` text. -/
  debugText : DomainPackRemoteAcquisitionContractError → String

def domainPackPublisherSignatureDomain : List UInt8 :=
  asBytes "forge-method:domain-pack-publisher:v1" ++ [0]

def domainPackRegistrySignatureDomain : List UInt8 :=
  asBytes "forge-method:domain-pack-registry-snapshot:v1" ++ [0]

section Subjects

variable (prims : SupplyChainPrimitives)

def canonicalBytes (subject : CanonicalSubject) : Checked (List UInt8) :=
  (prims.canonicalize subject).mapError .canonicalization

def rawDigest (bytes : List UInt8) : String :=
  Digest.formatSha256 (prims.sha256 bytes).toList

def canonicalDigest (subject : CanonicalSubject) : Checked String := do
  let bytes ← canonicalBytes prims subject
  return rawDigest prims bytes

def domainSeparatedBytes (domain : List UInt8) (subject : CanonicalSubject) :
    Checked (List UInt8) := do
  let canonical ← canonicalBytes prims subject
  return domain ++ canonical

def domainPackPackageRecordDigest (record : PackageRecordSubject) : Checked String :=
  canonicalDigest prims (.packageRecord record)

def domainPackPublisherSigningBytes (registryId audience : StableId)
    (record : PackageRecordSubject) : Checked (List UInt8) :=
  domainSeparatedBytes prims domainPackPublisherSignatureDomain
    (.publisherEnvelope domainPackLifecycleSchemaVersion registryId audience record)

def domainPackRegistrySnapshotDigest
    (document : DomainPackSupplyChainRegistryDocument) : Checked String :=
  canonicalDigest prims (.registrySnapshot (registrySnapshotSubject document))

def domainPackRegistrySigningBytes (document : DomainPackSupplyChainRegistryDocument)
    (signerKeyId : StableId) (role : DomainPackRegistryTrustRole) : Checked (List UInt8) :=
  domainSeparatedBytes prims domainPackRegistrySignatureDomain
    (.registrySignatureEnvelope signerKeyId role (registrySnapshotSubject document))

end Subjects

def isSha256Token (value : String) : Bool :=
  (asBytes value).length = 71 && (asBytes "sha256:").isPrefixOf (asBytes value) &&
    ((asBytes value).drop 7).all Digest.isLowerHexByte

theorem isSha256Token_formatSha256 (length : bytes.length = 32) :
    isSha256Token (Digest.formatSha256 bytes) = true := by
  obtain ⟨hexLength, hexDigits⟩ := Digest.asBytes_hexText bytes
  have split : asBytes (Digest.formatSha256 bytes) =
        asBytes "sha256:" ++ asBytes (String.ofList (Digest.hexText bytes)) := by
    simp [Digest.formatSha256, asBytes]
  have seven : (asBytes "sha256:").length = 7 := by decide
  have dropped : (asBytes (Digest.formatSha256 bytes)).drop 7 =
        asBytes (String.ofList (Digest.hexText bytes)) := by
    rw [split, ← seven, List.drop_left]
  rw [isSha256Token, dropped, hexDigits, split, List.length_append, seven, hexLength, length]
  simp

def requireDigest (value path : String) (policy : Bool) : Checked Unit :=
  require (isSha256Token value) (if policy then
      .invalidPolicy path "digest must be sha256: plus 64 lowercase hexadecimal characters"
    else
      .invalidSnapshot path "digest must be sha256: plus 64 lowercase hexadecimal characters")

def timeInclusive (value start stop : Nat) : Bool :=
  start ≤ value && value ≤ stop

def namespaceIsWithin (namespaceId start : String) : Bool :=
  namespaceId = start || (Digest.stripPrefix? start namespaceId).any fun suffix =>
      suffix.toList.head? = some '.'

def namespacePrefixesOverlap (left right : String) : Bool :=
  namespaceIsWithin left right || namespaceIsWithin right left

def identityKey (identity : DomainPackIdentity) : String :=
  identity.publisher.value ++ "::" ++ identity.name.value ++ "@" ++
    identity.version ++ "#" ++ identity.namespaceId.value

def validateDocumentHeaders (policyDocument : DomainPackTrustPolicyDocument)
    (snapshot : DomainPackSupplyChainRegistryDocument) (nowUnix : Nat) : Checked Unit := do
  let policy := policyDocument.domainPackTrustPolicy
  let registry := snapshot.domainPackSupplyChainRegistry
  require (policyDocument.schemaVersion = domainPackLifecycleSchemaVersion)
    (.unsupportedSchemaVersion "domain pack trust policy" policyDocument.schemaVersion)
  require (snapshot.schemaVersion = domainPackLifecycleSchemaVersion)
    (.unsupportedSchemaVersion "domain pack supply-chain registry" snapshot.schemaVersion)
  require (policy.audience = registry.audience)
    (.audienceMismatch policy.audience.value registry.audience.value)
  require (registry.issuedAtUnix < registry.expiresAtUnix)
    (.invalidSnapshot "domain_pack_supply_chain_registry.expires_at_unix"
      "expiry must be later than issuance")
  require (registry.issuedAtUnix ≤ nowUnix) (.snapshotNotYetValid registry.issuedAtUnix nowUnix)
  require (nowUnix < registry.expiresAtUnix) (.snapshotExpired registry.expiresAtUnix nowUnix)
  require (registry.generation ≠ 0) (.invalidSnapshot "domain_pack_supply_chain_registry.generation"
      "generation must be greater than zero")
  require (registry.generation ≠ 1 || registry.previousSnapshotDigest.isNone) (.invalidSnapshot
      "domain_pack_supply_chain_registry.previous_snapshot_digest"
      "generation one cannot name a predecessor")
  require (registry.generation ≤ 1 || registry.previousSnapshotDigest.isSome) (.invalidSnapshot
      "domain_pack_supply_chain_registry.previous_snapshot_digest"
      "later generations require an exact predecessor digest")
  match registry.previousSnapshotDigest with
  | some digest =>
    requireDigest digest "domain_pack_supply_chain_registry.previous_snapshot_digest" false
  | none => return ()

/-- The sets and the counter of the loop over the registry keys. -/
structure PolicyKeys where
  keyIds : List String := []
  signerKeyMaterial : List (List UInt8) := []
  signerCount : Nat := 0

section Policy

variable (prims : SupplyChainPrimitives)

def validatePolicyKey (seen : PolicyKeys)
    (key : DomainPackRegistryTrustKey) : Checked PolicyKeys := do
  let path := "domain_pack_trust_policy.registry_keys." ++ key.keyId.value
  require (!seen.keyIds.contains key.keyId.value)
    (.invalidPolicy path "registry key id occurs more than once")
  require (key.validFromUnix < key.validUntilUnix)
    (.invalidPolicy path "registry key validity window is empty")
  let bytes ←
    found (decodeFixed 32 key.publicKeyHex) (.invalidPublicKey key.keyId.value)
  require (prims.ed25519.isKey bytes) (.invalidPublicKey key.keyId.value)
  if key.role = .registrySigner then
    require (!seen.signerKeyMaterial.contains bytes) (.invalidPolicy path
        "distinct registry signer ids must use distinct keys")
    return {
      keyIds := key.keyId.value :: seen.keyIds
      signerKeyMaterial := bytes :: seen.signerKeyMaterial
      signerCount := seen.signerCount + 1 }
  else
    return { seen with keyIds := key.keyId.value :: seen.keyIds }

def validateOptionalDigest (digest : Option String) (path : String) : Checked Unit :=
  match digest with
  | some value => requireDigest value path true
  | none => .ok ()

def validatePolicyRule (ruleIds : List String)
    (rule : DomainPackTrustRule) : Checked (List String) := do
  require (!ruleIds.contains rule.ruleId.value)
    (.invalidPolicy ("domain_pack_trust_policy.rules." ++ rule.ruleId.value)
      "trust rule id occurs more than once")
  validateOptionalDigest rule.packageDigest "domain_pack_trust_policy.rules.package_digest"
  validateOptionalDigest rule.contentDigest "domain_pack_trust_policy.rules.content_digest"
  return rule.ruleId.value :: ruleIds

def validatePolicy (document : DomainPackTrustPolicyDocument) : Checked Unit := do
  let policy := document.domainPackTrustPolicy
  require (policy.authority = .candidateOnly) (.invalidPolicy "domain_pack_trust_policy.authority"
      "trust policy must remain candidate-only")
  require (!(isBlank policy.policyId.value || isBlank policy.policyVersion ||
      isBlank policy.audience.value)) (.invalidPolicy "domain_pack_trust_policy"
      "policy id, version, and audience must not be blank")
  require (policy.requiredRegistrySignatureThreshold ≠ 0) (.invalidPolicy
      "domain_pack_trust_policy.required_registry_signature_threshold"
      "signature threshold must be greater than zero")
  let keys ← policy.registryKeys.foldlM (validatePolicyKey prims) {}
  require (policy.requiredRegistrySignatureThreshold ≤ keys.signerCount) (.invalidPolicy
      "domain_pack_trust_policy.required_registry_signature_threshold"
      "signature threshold exceeds configured registry signer count")
  let _ ← policy.rules.foldlM validatePolicyRule []

/-! ## The shape of the snapshot -/

def validateCredential (credentialIds : List String) (credential : DomainPackPublisherCredential) :
    Checked (List String) := do
  let path :=
    "domain_pack_supply_chain_registry.publisher_credentials." ++ credential.credentialId.value
  require (!credentialIds.contains credential.credentialId.value)
    (.invalidSnapshot path "publisher credential id occurs more than once")
  require (credential.validFromUnix < credential.validUntilUnix)
    (.invalidSnapshot path "publisher credential validity window is empty")
  let bytes ←
    found (decodeFixed 32 credential.publicKeyHex) (.invalidPublicKey credential.credentialId.value)
  require (prims.ed25519.isKey bytes) (.invalidPublicKey credential.credentialId.value)
  return credential.credentialId.value :: credentialIds

/-- The set and the map of the loop over the grants. -/
structure SeenGrants where
  grantIds : List String := []
  grantsByPrefix : Std.ExtTreeMap String String := ∅

def validateGrant (seen : SeenGrants) (grant : DomainPackNamespaceGrant) : Checked SeenGrants := do
  let path := "domain_pack_supply_chain_registry.namespace_grants." ++ grant.grantId.value
  require (!seen.grantIds.contains grant.grantId.value)
    (.invalidSnapshot path "namespace grant id occurs more than once")
  require (grant.validFromUnix < grant.validUntilUnix)
    (.invalidSnapshot path "namespace grant validity window is empty")
  let start := grant.namespacePrefix.value
  match seen.grantsByPrefix.toList.find? (fun other =>
      other.2 ≠ grant.publisher.value && namespacePrefixesOverlap other.1 start) with
  | some other =>
    throw (.invalidSnapshot path ("namespace prefix '" ++ start ++ "' overlaps publisher '" ++
        other.2 ++ "'"))
  | none =>
    require (!seen.grantsByPrefix.contains start)
      (.invalidSnapshot path "namespace prefix occurs more than once")
    return {
      grantIds := grant.grantId.value :: seen.grantIds
      grantsByPrefix := seen.grantsByPrefix.insert start grant.publisher.value }

def revocationPath (revocation : DomainPackPackageRevocation) : String :=
  "domain_pack_supply_chain_registry.revocations." ++ revocation.recordDigest

def validateRevocation (revocations : List String)
    (revocation : DomainPackPackageRevocation) : Checked (List String) := do
  requireDigest revocation.recordDigest
    "domain_pack_supply_chain_registry.revocations.record_digest" false
  require (!revocations.contains revocation.recordDigest)
    (.invalidSnapshot (revocationPath revocation) "record revocation occurs more than once")
  require (!isBlank revocation.explanation) (.invalidSnapshot (revocationPath revocation)
      "revocation explanation must not be blank")
  return revocation.recordDigest :: revocations

def validateSnapshotShape (registry : DomainPackSupplyChainRegistry) : Checked Unit := do
  require (registry.authority = .candidateOnly)
    (.invalidSnapshot "domain_pack_supply_chain_registry.authority"
      "registry must remain candidate-only")
  require (!(isBlank registry.registryId.value ||
      isBlank registry.registryVersion || isBlank registry.audience.value))
    (.invalidSnapshot "domain_pack_supply_chain_registry"
      "registry id, version, and audience must not be blank")
  requireDigest registry.snapshotDigest "domain_pack_supply_chain_registry.snapshot_digest" false
  require (!(registry.publisherCredentials.isEmpty ||
      registry.namespaceGrants.isEmpty || registry.packages.isEmpty || registry.signatures.isEmpty))
    (.invalidSnapshot "domain_pack_supply_chain_registry"
      "credentials, grants, packages, and signatures must not be empty")
  let _ ←
    registry.publisherCredentials.foldlM (validateCredential prims) []
  let _ ← registry.namespaceGrants.foldlM validateGrant {}
  let _ ← registry.revocations.foldlM validateRevocation []

structure VerifiedDomainPackRegistrySignerAudit where
  keyId : StableId
  publicKeyFingerprint : String
  signatureFingerprint : String
  deriving DecidableEq, Repr

def validateRegistrySignerKey (key : DomainPackRegistryTrustKey)
    (signature : DomainPackRegistrySignature)
    (registry : DomainPackSupplyChainRegistry) : Checked Unit := do
  let keyId := key.keyId.value
  require (key.status = .active) (.registryKeyNotActive keyId)
  require (!(key.role ≠ .registrySigner || signature.role ≠ .registrySigner ||
      signature.role ≠ key.role)) (.registryKeyRoleMismatch keyId)
  require (timeInclusive registry.issuedAtUnix key.validFromUnix key.validUntilUnix &&
      timeInclusive registry.expiresAtUnix key.validFromUnix key.validUntilUnix)
    (.registryKeyOutsideValidity keyId)

/-- The sets and the result of the loop over the signatures. -/
structure VerifiedSigners where
  seenKeyIds : List String := []
  verifiedKeyMaterial : List (List UInt8) := []
  audits : List VerifiedDomainPackRegistrySignerAudit := []

def registryKeyById (policy : DomainPackTrustPolicy) (keyId : String) :
    Option DomainPackRegistryTrustKey :=
  (Collect.map (fun key : DomainPackRegistryTrustKey => key.keyId.value) id
    policy.registryKeys)[keyId]?

def verifyRegistrySignature (policy : DomainPackTrustPolicy)
    (snapshot : DomainPackSupplyChainRegistryDocument)
    (signers : VerifiedSigners) (signature : DomainPackRegistrySignature) :
    Checked VerifiedSigners := do
  let keyId := signature.signerKeyId.value
  require (!signers.seenKeyIds.contains keyId) (.registrySignatureDuplicate keyId)
  let key ← found (registryKeyById policy keyId) (.registryKeyNotFound keyId)
  validateRegistrySignerKey key signature snapshot.domainPackSupplyChainRegistry
  let publicKeyBytes ←
    found (decodeFixed 32 key.publicKeyHex) (.invalidPublicKey keyId)
  require (!signers.verifiedKeyMaterial.contains publicKeyBytes) (.registrySignatureDuplicate keyId)
  require (prims.ed25519.isKey publicKeyBytes) (.invalidPublicKey keyId)
  let signatureBytes ←
    found (decodeFixed 64 signature.signatureHex) (.invalidSignatureEncoding keyId)
  let signingBytes ←
    domainPackRegistrySigningBytes prims snapshot signature.signerKeyId signature.role
  require (prims.ed25519.verifyStrict publicKeyBytes signingBytes signatureBytes)
    (.registrySignatureInvalid keyId)
  return {
    seenKeyIds := keyId :: signers.seenKeyIds
    verifiedKeyMaterial := publicKeyBytes :: signers.verifiedKeyMaterial
    audits := signers.audits ++ [{
      keyId := signature.signerKeyId
      publicKeyFingerprint := rawDigest prims publicKeyBytes
      signatureFingerprint := rawDigest prims signatureBytes }] }

def verifyRegistrySignatures (policyDocument : DomainPackTrustPolicyDocument)
    (snapshot : DomainPackSupplyChainRegistryDocument) :
    Checked (List VerifiedDomainPackRegistrySignerAudit) := do
  let policy := policyDocument.domainPackTrustPolicy
  let signers ←
    snapshot.domainPackSupplyChainRegistry.signatures.foldlM
      (verifyRegistrySignature prims policy snapshot) {}
  require (policy.requiredRegistrySignatureThreshold ≤ signers.audits.length)
    (.registrySignatureThresholdNotMet
      policy.requiredRegistrySignatureThreshold signers.audits.length)
  return signers.audits.mergeSort fun left right =>
    left.keyId.value ≤ right.keyId.value

end Policy

/-- One registry package whose publisher signature and ownership were
verified. -/
structure VerifiedDomainPackSupplyChainEntry where
  record : DomainPackRegistryPackageRecord
  publisherKeyFingerprint : String
  deriving DecidableEq, Repr

/-- The map and the result of the loop over the packages. -/
structure VerifiedRecords where
  coordinateVersions : Std.ExtTreeMap String String := ∅
  entries : List VerifiedDomainPackSupplyChainEntry := []

/-- The digests of a record under their names. -/
def recordDigestFields (record : DomainPackRegistryPackageRecord) : List (String × String) :=
  [("package_digest", record.packageDigest), ("manifest_digest", record.manifestDigest),
    ("content_digest", record.contentDigest), ("license_digest", record.licenseDigest),
    ("record_digest", record.recordDigest)] ++
  record.fixtureDigests.map fun digest => ("fixture_digests", digest)

def validateRecordDigests (record : DomainPackRegistryPackageRecord) : Checked Unit := do
  (recordDigestFields record).forM fun field =>
    requireDigest field.2 field.1 false
  require (!(isBlank record.identity.publisher.value || isBlank record.identity.name.value ||
      isBlank record.identity.namespaceId.value || isBlank record.identity.version))
    (.invalidSnapshot "domain_pack_supply_chain_registry.packages.identity"
      "package identity fields must not be blank")

def isReservedNamespace (namespaceId : String) : Bool :=
  namespaceId = "core" || "core.".toList.isPrefixOf namespaceId.toList ||
    namespaceId = "forge.core" || "forge.core.".toList.isPrefixOf namespaceId.toList

def validateRecordNamespace (record : DomainPackRegistryPackageRecord)
    (grant : DomainPackNamespaceGrant) (registry : DomainPackSupplyChainRegistry) (nowUnix : Nat) :
    Checked Unit := do
  let namespaceId := record.identity.namespaceId.value
  require (!isReservedNamespace namespaceId) (.reservedCoreNamespace namespaceId)
  require (timeInclusive registry.issuedAtUnix grant.validFromUnix grant.validUntilUnix &&
      timeInclusive nowUnix grant.validFromUnix grant.validUntilUnix)
    (.namespaceGrantOutsideValidity grant.grantId.value)
  require (grant.publisher = record.identity.publisher)
    (.namespacePublisherMismatch grant.grantId.value record.identity.publisher.value)
  require (namespaceIsWithin namespaceId grant.namespacePrefix.value)
    (.namespaceNotGranted grant.grantId.value namespaceId)

def coordinateVersion (identity : DomainPackIdentity) : String :=
  identity.publisher.value ++ "::" ++ identity.name.value ++ "@" ++ identity.version

def credentialById (registry : DomainPackSupplyChainRegistry)
    (credentialId : String) : Option DomainPackPublisherCredential :=
  (Collect.map (fun credential : DomainPackPublisherCredential =>
      credential.credentialId.value) id
    registry.publisherCredentials)[credentialId]?

def grantById (registry : DomainPackSupplyChainRegistry)
    (grantId : String) : Option DomainPackNamespaceGrant :=
  (Collect.map (fun grant : DomainPackNamespaceGrant => grant.grantId.value) id
    registry.namespaceGrants)[grantId]?

section Packages

variable (prims : SupplyChainPrimitives)

/-- The credential that signs a record, checked against the record. -/
def validateRecordCredential (registry : DomainPackSupplyChainRegistry) (nowUnix : Nat)
    (record : DomainPackRegistryPackageRecord) : Checked DomainPackPublisherCredential := do
  let credentialId := record.publisherCredentialId.value
  let credential ←
    found (credentialById registry credentialId) (.publisherCredentialNotFound credentialId)
  require (credential.status = .active) (.publisherCredentialNotActive credentialId)
  require (timeInclusive registry.issuedAtUnix credential.validFromUnix credential.validUntilUnix &&
      timeInclusive nowUnix credential.validFromUnix credential.validUntilUnix &&
      timeInclusive registry.expiresAtUnix credential.validFromUnix credential.validUntilUnix)
    (.publisherCredentialOutsideValidity credentialId)
  require (credential.publisher = record.identity.publisher)
    (.publisherIdentityMismatch credentialId credential.publisher.value
      record.identity.publisher.value)
  return credential

/-- The publisher signature of a record; the result is the public key. -/
def verifyPublisherSignature (registry : DomainPackSupplyChainRegistry)
    (record : DomainPackRegistryPackageRecord) (credential : DomainPackPublisherCredential) :
    Checked (List UInt8) := do
  let credentialId := credential.credentialId.value
  let publicKeyBytes ←
    found (decodeFixed 32 credential.publicKeyHex) (.invalidPublicKey credentialId)
  require (prims.ed25519.isKey publicKeyBytes) (.invalidPublicKey credentialId)
  let signatureBytes ←
    found (decodeFixed 64 record.publisherSignatureHex) (.invalidSignatureEncoding credentialId)
  let signingBytes ←
    domainPackPublisherSigningBytes prims registry.registryId
      registry.audience record.toPackageRecordSubject
  require (prims.ed25519.verifyStrict publicKeyBytes signingBytes signatureBytes)
    (.publisherSignatureInvalid credentialId record.recordDigest)
  return publicKeyBytes

def verifyPackageRecord (registry : DomainPackSupplyChainRegistry) (nowUnix : Nat)
    (verified : VerifiedRecords) (record : DomainPackRegistryPackageRecord) :
    Checked VerifiedRecords := do
  validateRecordDigests record
  let actualRecordDigest ←
    domainPackPackageRecordDigest prims record.toPackageRecordSubject
  require (actualRecordDigest = record.recordDigest)
    (.recordDigestMismatch record.recordDigest actualRecordDigest)
  let version := coordinateVersion record.identity
  match verified.coordinateVersions[version]? with
  | some previous =>
    if previous = record.recordDigest then
      throw (.duplicateRecord version)
    else
      throw (.packageEquivocation version previous record.recordDigest)
  | none =>
    let credential ← validateRecordCredential registry nowUnix record
    let grant ←
      found (grantById registry record.namespaceGrantId.value)
        (.namespaceGrantNotFound record.namespaceGrantId.value)
    validateRecordNamespace record grant registry nowUnix
    let publicKeyBytes ←
      verifyPublisherSignature prims registry record credential
    return {
      coordinateVersions := verified.coordinateVersions.insert version record.recordDigest
      entries := verified.entries ++ [{
        record := record
        publisherKeyFingerprint := rawDigest prims publicKeyBytes }] }

def verifyPackageRecords (snapshot : DomainPackSupplyChainRegistryDocument) (nowUnix : Nat) :
    Checked (List VerifiedDomainPackSupplyChainEntry) := do
  let registry := snapshot.domainPackSupplyChainRegistry
  let verified ←
    registry.packages.foldlM (verifyPackageRecord prims registry nowUnix) {}
  return verified.entries.mergeSort fun left right =>
    identityKey left.record.identity ≤ identityKey right.record.identity

/-- The facts by their record; a second fact of one record is refused. -/
def collectRevocation (facts : Std.ExtTreeMap String DomainPackPackageRevocation)
    (revocation : DomainPackPackageRevocation) :
    Checked (Std.ExtTreeMap String DomainPackPackageRevocation) := do
  requireDigest revocation.recordDigest
    "domain_pack_supply_chain_registry.revocations.record_digest" false
  require (!isBlank revocation.explanation) (.invalidSnapshot (revocationPath revocation)
      "revocation explanation must not be blank")
  require (!facts.contains revocation.recordDigest) (.invalidSnapshot (revocationPath revocation)
      "record revocation occurs more than once")
  return facts.insert revocation.recordDigest revocation

def canonicalRevocationFacts (revocations : List DomainPackPackageRevocation) :
    Checked (List DomainPackPackageRevocation) := do
  let facts ← revocations.foldlM collectRevocation ∅
  return facts.toList.map Prod.snd

def domainPackCumulativeRevocationDigest
    (revocations : List DomainPackPackageRevocation) : Checked String := do
  let facts ← canonicalRevocationFacts revocations
  canonicalDigest prims (.revocations facts)

/-- A snapshot that has passed every check. -/
structure VerifiedDomainPackSupplyChainSnapshot where
  authority : DomainPackCandidateAuthority
  registryId : StableId
  audience : StableId
  generation : Nat
  previousSnapshotDigest : Option String
  issuedAtUnix : Nat
  expiresAtUnix : Nat
  verifiedAtUnix : Nat
  snapshotDigest : String
  trustPolicyDigest : String
  registrySigners : List VerifiedDomainPackRegistrySignerAudit
  mirrors : List DomainPackRegistryMirror
  entries : List VerifiedDomainPackSupplyChainEntry
  grants : List DomainPackNamespaceGrant
  currentRevocations : List DomainPackPackageRevocation
  currentRevocationDigest : String
  deriving DecidableEq, Repr

def verifyDomainPackSupplyChainSnapshot (policyDocument : DomainPackTrustPolicyDocument)
    (snapshotDocument : DomainPackSupplyChainRegistryDocument)
    (nowUnix : Nat) : Checked VerifiedDomainPackSupplyChainSnapshot := do
  validateDocumentHeaders policyDocument snapshotDocument nowUnix
  validatePolicy prims policyDocument
  let registry := snapshotDocument.domainPackSupplyChainRegistry
  validateSnapshotShape prims registry
  (validateRemoteAcquisitionMetadata snapshotDocument.metadata).mapError
    fun error =>
      .invalidSnapshot "domain_pack_supply_chain_registry.remote_metadata" (prims.debugText error)
  let snapshotDigest ←
    domainPackRegistrySnapshotDigest prims snapshotDocument
  require (registry.snapshotDigest = snapshotDigest)
    (.snapshotDigestMismatch registry.snapshotDigest snapshotDigest)
  let registrySigners ←
    verifyRegistrySignatures prims policyDocument snapshotDocument
  let entries ← verifyPackageRecords prims snapshotDocument nowUnix
  let currentRevocations ← canonicalRevocationFacts registry.revocations
  let currentRevocationDigest ←
    domainPackCumulativeRevocationDigest prims currentRevocations
  let trustPolicyDigest ←
    canonicalDigest prims (.trustPolicy policyDocument)
  return {
    authority := registry.authority
    registryId := registry.registryId
    audience := registry.audience
    generation := registry.generation
    previousSnapshotDigest := registry.previousSnapshotDigest
    issuedAtUnix := registry.issuedAtUnix
    expiresAtUnix := registry.expiresAtUnix
    verifiedAtUnix := nowUnix
    snapshotDigest := registry.snapshotDigest
    trustPolicyDigest := trustPolicyDigest
    registrySigners := registrySigners
    mirrors := registry.mirrors
    entries := entries
    grants := registry.namespaceGrants
    currentRevocations := currentRevocations
    currentRevocationDigest := currentRevocationDigest }

end Packages

end ForgeCore.SupplyChain
