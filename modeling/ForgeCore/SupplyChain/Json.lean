import ForgeCore.Library.Json
import ForgeCore.SupplyChain.Verification

/-!
# Canonical documents

The canonical form of what is digested and signed.
-/

namespace ForgeCore.SupplyChain

open Json
open DomainPacks (DomainPackIdentity DomainPackCoordinate
  DomainPackArtifactBinding DomainPackCredentialStatus
  DomainPackNamespaceGrant DomainPackRegistryMirrorTransport
  DomainPackRemoteArtifactKind)

def DomainPackCandidateAuthority.toJson : DomainPackCandidateAuthority → Json
  | candidateOnly => .string "candidate_only"

def credentialStatusJson : DomainPackCredentialStatus → Json
  | .active => .string "active"
  | .revoked => .string "revoked"

def DomainPackRegistryTrustRole.toJson : DomainPackRegistryTrustRole → Json
  | registrySigner => .string "registry_signer"
  | registryRevoker => .string "registry_revoker"

def DomainPackRegistryTrustKey.toJson (key : DomainPackRegistryTrustKey) : Json :=
  .object [("key_id", nameJson StableId.value key.keyId),
      ("public_key_hex", .string key.publicKeyHex),
      ("role", key.role.toJson),
      ("status", credentialStatusJson key.status),
      ("valid_from_unix", Json.nat key.validFromUnix),
      ("valid_until_unix", Json.nat key.validUntilUnix)]

def DomainPackSourceAssurance.toJson : DomainPackSourceAssurance → Json
  | explicitlyUntrusted => .string "explicitly_untrusted"
  | localExplicit => .string "local_explicit"
  | supplyChainVerified => .string "supply_chain_verified"

def DomainPackTrustDisposition.toJson : DomainPackTrustDisposition → Json
  | reject => .string "reject"
  | inspectOnly => .string "inspect_only"
  | activateDeclarativeKnowledge => .string "activate_declarative_knowledge"
  | activateDeclarativeKnowledgeAndBoundBuiltIns =>
    .string "activate_declarative_knowledge_and_bound_built_ins"

def coordinateJson (coordinate : DomainPackCoordinate) : Json :=
  .object [("name", nameJson StableId.value coordinate.name),
      ("publisher", nameJson StableId.value coordinate.publisher)]

def DomainPackTrustRule.toJson (rule : DomainPackTrustRule) : Json :=
  .object [("content_digest", optionJson .string rule.contentDigest),
      ("disposition", rule.disposition.toJson),
      ("pack", coordinateJson rule.pack),
      ("package_digest", optionJson .string rule.packageDigest),
      ("rule_id", nameJson StableId.value rule.ruleId)]

def DomainPackTrustPolicy.toJson (policy : DomainPackTrustPolicy) : Json :=
  .object [("audience", nameJson StableId.value policy.audience),
      ("authority", policy.authority.toJson),
      ("default_disposition", policy.defaultDisposition.toJson),
      ("minimum_activation_assurance", policy.minimumActivationAssurance.toJson),
      ("policy_id", nameJson StableId.value policy.policyId),
      ("policy_version", .string policy.policyVersion),
      ("registry_keys", .array (policy.registryKeys.map DomainPackRegistryTrustKey.toJson)),
      ("required_registry_signature_threshold", Json.nat policy.requiredRegistrySignatureThreshold),
      ("rules", .array (policy.rules.map DomainPackTrustRule.toJson))]

def DomainPackTrustPolicyDocument.toJson (document : DomainPackTrustPolicyDocument) : Json :=
  .object [("domain_pack_trust_policy", document.domainPackTrustPolicy.toJson),
      ("schema_version", .string document.schemaVersion)]

def artifactKindJson : DomainPackRemoteArtifactKind → Json
  | .manifest => .string "manifest"
  | .content => .string "content"
  | .license => .string "license"
  | .fixture => .string "fixture"

def DomainPackRemoteArtifactMediaType.toJson : DomainPackRemoteArtifactMediaType → Json
  | applicationYaml => .string "application_yaml"
  | applicationJson => .string "application_json"
  | textPlain => .string "text_plain"
  | applicationOctetStream => .string "application_octet_stream"

def bindingJson (binding : DomainPackArtifactBinding) : Json :=
  .object [("artifact_ref", .string binding.artifactRef.value),
      ("canonical_sha256", .string binding.canonicalSha256),
      ("raw_sha256", .string binding.rawSha256)]

def DomainPackRemoteArtifactDescriptor.toJson
    (descriptor : DomainPackRemoteArtifactDescriptor) : Json :=
  .object [("binding", bindingJson descriptor.binding),
      ("byte_length", Json.nat descriptor.byteLength),
      ("kind", artifactKindJson descriptor.kind),
      ("media_type", descriptor.mediaType.toJson),
      ("object_path", .string descriptor.objectPath.value)]

def DomainPackRegistryArtifactSet.toJson (artifacts : DomainPackRegistryArtifactSet) : Json :=
  .object [("content", artifacts.content.toJson),
      ("fixtures", .array (artifacts.fixtures.map DomainPackRemoteArtifactDescriptor.toJson)),
      ("license", artifacts.license.toJson),
      ("manifest", artifacts.manifest.toJson)]

def identityJson (identity : DomainPackIdentity) : Json :=
  .object [("name", nameJson StableId.value identity.name),
      ("namespace", nameJson StableId.value identity.namespaceId),
      ("publisher", nameJson StableId.value identity.publisher),
      ("version", .string identity.version)]

/-- The members of a record; the stored form has two more. -/
def recordMembers (record : PackageRecordSubject)
    (signature digest : List (String × Json)) : Json :=
  .object ([("artifacts", record.artifacts.toJson),
      ("content_digest", .string record.contentDigest),
      ("fixture_digests", .array (record.fixtureDigests.map Json.string)),
      ("identity", identityJson record.identity),
      ("license_digest", .string record.licenseDigest),
      ("manifest_digest", .string record.manifestDigest),
      ("namespace_grant_id", nameJson StableId.value record.namespaceGrantId),
      ("package_digest", .string record.packageDigest),
      ("publisher_credential_id", nameJson StableId.value record.publisherCredentialId)] ++
    signature ++ digest)

def PackageRecordSubject.toJson (record : PackageRecordSubject) : Json :=
  recordMembers record [] []

def DomainPackRegistryPackageRecord.toJson (record : DomainPackRegistryPackageRecord) : Json :=
  recordMembers record.toPackageRecordSubject
    [("publisher_signature_hex", .string record.publisherSignatureHex)]
    [("record_digest", .string record.recordDigest)]

def transportJson : DomainPackRegistryMirrorTransport → Json
  | .https baseUrl => .object [("base_url", .string baseUrl), ("kind", .string "https")]
  | .operatorProvisionedLocal locationId =>
    .object [("kind", .string "operator_provisioned_local"),
        ("location_id", nameJson StableId.value locationId)]

def DomainPackRegistryMirror.toJson (mirror : DomainPackRegistryMirror) : Json :=
  .object [("mirror_id", nameJson StableId.value mirror.mirrorId),
      ("priority", Json.nat mirror.priority),
      ("transport", transportJson mirror.transport)]

def DomainPackPublisherCredential.toJson (credential : DomainPackPublisherCredential) : Json :=
  .object [("credential_id", nameJson StableId.value credential.credentialId),
      ("public_key_hex", .string credential.publicKeyHex),
      ("publisher", nameJson StableId.value credential.publisher),
      ("status", credentialStatusJson credential.status),
      ("valid_from_unix", Json.nat credential.validFromUnix),
      ("valid_until_unix", Json.nat credential.validUntilUnix)]

def grantJson (grant : DomainPackNamespaceGrant) : Json :=
  .object [("grant_id", nameJson StableId.value grant.grantId),
      ("namespace_prefix", nameJson StableId.value grant.namespacePrefix),
      ("publisher", nameJson StableId.value grant.publisher),
      ("valid_from_unix", Json.nat grant.validFromUnix),
      ("valid_until_unix", Json.nat grant.validUntilUnix)]

def DomainPackRevocationReason.toJson : DomainPackRevocationReason → Json
  | keyCompromise => .string "key_compromise"
  | provenanceFailure => .string "provenance_failure"
  | packageTamper => .string "package_tamper"
  | operatorPolicy => .string "operator_policy"
  | supersededUnsafe => .string "superseded_unsafe"

def DomainPackPackageRevocation.toJson (revocation : DomainPackPackageRevocation) : Json :=
  .object [("explanation", .string revocation.explanation),
      ("reason", revocation.reason.toJson),
      ("record_digest", .string revocation.recordDigest),
      ("revoked_at_unix", Json.nat revocation.revokedAtUnix)]

def RegistrySnapshotSubject.toJson (snapshot : RegistrySnapshotSubject) : Json :=
  .object [("audience", nameJson StableId.value snapshot.audience),
      ("authority", snapshot.authority.toJson),
      ("expires_at_unix", Json.nat snapshot.expiresAtUnix),
      ("generation", Json.nat snapshot.generation),
      ("issued_at_unix", Json.nat snapshot.issuedAtUnix),
      ("mirrors", .array (snapshot.mirrors.map DomainPackRegistryMirror.toJson)),
      ("namespace_grants", .array (snapshot.namespaceGrants.map grantJson)),
      ("packages", .array (snapshot.packages.map DomainPackRegistryPackageRecord.toJson)),
      ("previous_snapshot_digest", optionJson .string snapshot.previousSnapshotDigest),
      ("publisher_credentials",
        .array (snapshot.publisherCredentials.map DomainPackPublisherCredential.toJson)),
      ("registry_id", nameJson StableId.value snapshot.registryId),
      ("registry_version", .string snapshot.registryVersion),
      ("revocations", .array (snapshot.revocations.map DomainPackPackageRevocation.toJson)),
      ("schema_version", .string snapshot.schemaVersion)]

def CanonicalSubject.toJson : CanonicalSubject → Json
  | packageRecord record => record.toJson
  | publisherEnvelope schemaVersion registryId audience record =>
    .object [("audience", nameJson StableId.value audience),
        ("record", record.toJson),
        ("registry_id", nameJson StableId.value registryId),
        ("schema_version", .string schemaVersion)]
  | registrySnapshot snapshot => snapshot.toJson
  | registrySignatureEnvelope signerKeyId role snapshot =>
    .object [("role", role.toJson),
        ("signer_key_id", nameJson StableId.value signerKeyId),
        ("snapshot", snapshot.toJson)]
  | trustPolicy document => document.toJson
  | revocations facts => .array (facts.map DomainPackPackageRevocation.toJson)

def CanonicalSubject.toVec (subject : CanonicalSubject) : List UInt8 :=
  subject.toJson.render.flatMap String.utf8EncodeChar

end ForgeCore.SupplyChain
