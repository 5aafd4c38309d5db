import ForgeCore.Library.Dotted
import ForgeCore.SupplyChain.Anchor

/-!
# What the checks give

For each checked function of the verification, what holds when it succeeds,
one field for each of its checks.
-/

namespace ForgeCore.SupplyChain

open Text Checked Digest Ed25519 Dotted
open DomainPacks (DomainPackIdentity DomainPackNamespaceGrant validateRemoteAcquisitionMetadata)

def ValidAt (time start stop : Nat) : Prop :=
  start ≤ time ∧ time ≤ stop

theorem timeInclusive_iff : timeInclusive value start stop = true ↔ ValidAt value start stop := by
  simp [timeInclusive, ValidAt]

/-- The namespace is the granted one, or continues it after a dot. -/
def LiesUnder (namespaceId start : StableId) : Prop :=
  Under '.' namespaceId.value.toList start.value.toList

variable {prims : SupplyChainPrimitives} {registry : DomainPackSupplyChainRegistry}
  {snapshot : DomainPackSupplyChainRegistryDocument}
  {policyDocument : DomainPackTrustPolicyDocument} {record : DomainPackRegistryPackageRecord}
  {nowUnix : Nat} {namespaceId start : StableId} {result : PUnit}

theorem stripPrefix?_eq_some {start text rest : String} :
    Digest.stripPrefix? start text = some rest ↔ text = start ++ rest := by
  constructor
  · intro stripped
    unfold Digest.stripPrefix? at stripped
    split at stripped
    · next continues =>
      cases stripped
      obtain ⟨rest, same⟩ := List.isPrefixOf_iff_prefix.mp continues
      apply String.toList_inj.mp
      rw [String.toList_append, String.toList_ofList, ← same, List.drop_left]
    · cases stripped
  · rintro rfl
    exact Digest.stripPrefix?_append start rest

theorem namespaceIsWithin_iff :
    namespaceIsWithin namespaceId.value start.value = true ↔ LiesUnder namespaceId start := by
  simp only [namespaceIsWithin, Bool.or_eq_true, decide_eq_true_eq,
    Option.any_eq_true, LiesUnder, Under, String.toList_inj]
  apply or_congr_right
  constructor
  · rintro ⟨suffix, stripped, dotted⟩
    rw [stripPrefix?_eq_some] at stripped
    obtain ⟨rest, split⟩ := List.head?_eq_some_iff.mp dotted
    exact ⟨rest, by rw [stripped, String.toList_append, split]⟩
  · rintro ⟨rest, continued⟩
    refine ⟨String.ofList ('.' :: rest), ?_, by simp⟩
    rw [stripPrefix?_eq_some]
    apply String.toList_inj.mp
    rw [continued, String.toList_append, String.toList_ofList]

theorem not_liesUnder_of_isReservedNamespace
    (unreserved : isReservedNamespace namespaceId.value = false) :
    ¬LiesUnder namespaceId ⟨"core"⟩ ∧ ¬LiesUnder namespaceId ⟨"forge.core"⟩ := by
  simp only [isReservedNamespace, Bool.or_eq_false_iff, decide_eq_false_iff_not] at unreserved
  obtain ⟨⟨⟨notCore, notBelowCore⟩, notForge⟩, notBelowForge⟩ := unreserved
  have below {start dotted : String} (extends' :
      dotted.toList = start.toList ++ ['.']) (rest : List Char)
      (continued : namespaceId.value.toList = start.toList ++ '.' :: rest) :
      dotted.toList.isPrefixOf namespaceId.value.toList = true := by
    rw [List.isPrefixOf_iff_prefix, continued, extends']
    exact ⟨rest, by simp⟩
  constructor
  · rintro (same | ⟨rest, continued⟩)
    · exact notCore (String.toList_inj.mp same)
    · rw [below (by decide) rest continued] at notBelowCore
      cases notBelowCore
  · rintro (same | ⟨rest, continued⟩)
    · exact notForge (String.toList_inj.mp same)
    · rw [below (by decide) rest continued] at notBelowForge
      cases notBelowForge

/-! ## Registry signatures -/

/-- The key may sign snapshots of the registry. -/
@[mk_iff]
structure SignerKeyChecks (key : DomainPackRegistryTrustKey)
    (signature : DomainPackRegistrySignature)
    (registry : DomainPackSupplyChainRegistry) : Prop where
  active : key.status = .active
  signer : key.role = .registrySigner
  role : signature.role = .registrySigner
  validAtIssue : ValidAt registry.issuedAtUnix key.validFromUnix key.validUntilUnix
  validAtExpiry : ValidAt registry.expiresAtUnix key.validFromUnix key.validUntilUnix

theorem validateRegistrySignerKey_eq_ok {key signature} :
    validateRegistrySignerKey key signature registry = .ok result ↔
      SignerKeyChecks key signature registry := by
  simp only [validateRegistrySignerKey, signerKeyChecks_iff, bind_eq_ok, require_eq_ok,
    exists_const, decide_eq_true_eq, Bool.and_eq_true, timeInclusive_iff, Bool.not_eq_true',
    Bool.or_eq_false_iff, decide_eq_false_iff_not, ne_eq, not_not]
  constructor
  · rintro ⟨active, ⟨⟨signer, role⟩, -⟩, issue, expiry⟩
    exact ⟨active, signer, role, issue, expiry⟩
  · rintro ⟨active, signer, role, issue, expiry⟩
    exact ⟨active, ⟨⟨signer, role⟩, role.trans signer.symm⟩, issue, expiry⟩

def VerifiedSigners.add (prims : SupplyChainPrimitives) (signers : VerifiedSigners)
    (signature : DomainPackRegistrySignature) (publicKey signatureBytes : List UInt8) :
    VerifiedSigners where
  seenKeyIds := signature.signerKeyId.value :: signers.seenKeyIds
  verifiedKeyMaterial := publicKey :: signers.verifiedKeyMaterial
  audits := signers.audits ++ [{
    keyId := signature.signerKeyId
    publicKeyFingerprint := rawDigest prims publicKey
    signatureFingerprint := rawDigest prims signatureBytes }]

/-- A listed key that has not signed before signs the snapshot. -/
structure SignatureChecks (prims : SupplyChainPrimitives) (policy : DomainPackTrustPolicy)
    (snapshot : DomainPackSupplyChainRegistryDocument) (signers : VerifiedSigners)
    (signature : DomainPackRegistrySignature) (key : DomainPackRegistryTrustKey)
    (publicKey signatureBytes : List UInt8) : Prop where
  unseen : signature.signerKeyId.value ∉ signers.seenKeyIds
  known : registryKeyById policy signature.signerKeyId.value = some key
  keyChecks : SignerKeyChecks key signature snapshot.domainPackSupplyChainRegistry
  decoded : decodeFixed 32 key.publicKeyHex = some publicKey
  fresh : publicKey ∉ signers.verifiedKeyMaterial
  isKey : prims.ed25519.isKey publicKey = true
  signatureDecoded : decodeFixed 64 signature.signatureHex = some signatureBytes
  verifies : ∃ signingBytes,
    domainPackRegistrySigningBytes prims snapshot signature.signerKeyId
      signature.role = .ok signingBytes ∧
    prims.ed25519.verifyStrict publicKey signingBytes signatureBytes = true

theorem verifyRegistrySignature_eq_ok {policy signers signature next} :
    verifyRegistrySignature prims policy snapshot signers signature = .ok next ↔
      ∃ key publicKey signatureBytes,
        SignatureChecks prims policy snapshot signers signature key publicKey signatureBytes ∧
        next = signers.add prims signature publicKey signatureBytes := by
  simp only [verifyRegistrySignature, bind_eq_ok, require_eq_ok, found_eq_ok,
    validateRegistrySignerKey_eq_ok, exists_and_left, exists_const, Bool.not_eq_true',
    List.contains_eq_mem, decide_eq_false_iff_not]
  constructor
  · rintro ⟨unseen, key, known, keyChecks, publicKey, decoded, fresh, isKey, signatureBytes,
      signatureDecoded, signingBytes, signing, verified, result⟩
    cases result
    exact ⟨key, publicKey, signatureBytes, ⟨unseen, known, keyChecks, decoded, fresh, isKey,
      signatureDecoded, signingBytes, signing, verified⟩, rfl⟩
  · rintro ⟨key, publicKey, signatureBytes, checks, rfl⟩
    obtain ⟨signingBytes, signing, verified⟩ := checks.verifies
    exact ⟨checks.unseen, key, checks.known, checks.keyChecks, publicKey, checks.decoded,
      checks.fresh, checks.isKey, signatureBytes, checks.signatureDecoded, signingBytes, signing,
      verified, rfl⟩

/-! ## Package records -/

/-- The credential belongs to the publisher of the record and is in force. -/
@[mk_iff]
structure CredentialChecks (registry : DomainPackSupplyChainRegistry) (nowUnix : Nat)
    (record : DomainPackRegistryPackageRecord)
    (credential : DomainPackPublisherCredential) : Prop where
  known : credentialById registry record.publisherCredentialId.value = some credential
  active : credential.status = .active
  validAtIssue : ValidAt registry.issuedAtUnix credential.validFromUnix credential.validUntilUnix
  validNow : ValidAt nowUnix credential.validFromUnix credential.validUntilUnix
  validAtExpiry : ValidAt registry.expiresAtUnix credential.validFromUnix credential.validUntilUnix
  publisher : credential.publisher = record.identity.publisher

theorem validateRecordCredential_eq_ok {credential} :
    validateRecordCredential registry nowUnix record = .ok credential ↔
      CredentialChecks registry nowUnix record credential := by
  simp only [validateRecordCredential, credentialChecks_iff, bind_eq_ok, require_eq_ok,
    found_eq_ok, exists_const, decide_eq_true_eq, Bool.and_eq_true, timeInclusive_iff]
  constructor
  · rintro ⟨known, isKnown, active, ⟨⟨issue, now⟩, expiry⟩, publisher, result⟩
    cases result
    exact ⟨isKnown, active, issue, now, expiry, publisher⟩
  · rintro ⟨isKnown, active, issue, now, expiry, publisher⟩
    exact ⟨credential, isKnown, active, ⟨⟨issue, now⟩, expiry⟩, publisher, rfl⟩

/-- The publisher has signed the record for this registry. -/
structure PublisherChecks (prims : SupplyChainPrimitives)
    (registry : DomainPackSupplyChainRegistry) (record : DomainPackRegistryPackageRecord)
    (credential : DomainPackPublisherCredential) (publicKey : List UInt8) : Prop where
  decoded : decodeFixed 32 credential.publicKeyHex = some publicKey
  isKey : prims.ed25519.isKey publicKey = true
  verifies : ∃ signatureBytes signingBytes,
    decodeFixed 64 record.publisherSignatureHex = some signatureBytes ∧
    domainPackPublisherSigningBytes prims registry.registryId registry.audience
      record.toPackageRecordSubject = .ok signingBytes ∧
    prims.ed25519.verifyStrict publicKey signingBytes signatureBytes = true

theorem verifyPublisherSignature_eq_ok {credential publicKey} :
    verifyPublisherSignature prims registry record credential = .ok publicKey ↔
      PublisherChecks prims registry record credential publicKey := by
  simp only [verifyPublisherSignature, bind_eq_ok, require_eq_ok, found_eq_ok, exists_and_left,
    exists_const]
  constructor
  · rintro ⟨key, decoded, isKey, signatureBytes, signatureDecoded, signingBytes, signing,
      verified, result⟩
    cases result
    exact ⟨decoded, isKey, signatureBytes, signingBytes, signatureDecoded, signing, verified⟩
  · rintro ⟨decoded, isKey, signatureBytes, signingBytes, signatureDecoded, signing, verified⟩
    exact ⟨publicKey, decoded, isKey, signatureBytes, signatureDecoded, signingBytes, signing,
      verified, rfl⟩

/-- The grant gives the namespace of the record to its publisher. -/
@[mk_iff]
structure NamespaceChecks (record : DomainPackRegistryPackageRecord)
    (grant : DomainPackNamespaceGrant) (registry : DomainPackSupplyChainRegistry)
    (nowUnix : Nat) : Prop where
  unreserved : isReservedNamespace record.identity.namespaceId.value = false
  validAtIssue : ValidAt registry.issuedAtUnix grant.validFromUnix grant.validUntilUnix
  validNow : ValidAt nowUnix grant.validFromUnix grant.validUntilUnix
  publisher : grant.publisher = record.identity.publisher
  covers : LiesUnder record.identity.namespaceId grant.namespacePrefix

theorem validateRecordNamespace_eq_ok {grant} :
    validateRecordNamespace record grant registry nowUnix = .ok result ↔
      NamespaceChecks record grant registry nowUnix := by
  simp only [validateRecordNamespace, namespaceChecks_iff, bind_eq_ok, require_eq_ok,
    exists_const, decide_eq_true_eq, Bool.and_eq_true, Bool.not_eq_true', timeInclusive_iff,
    namespaceIsWithin_iff, and_assoc]

def VerifiedRecords.add (prims : SupplyChainPrimitives) (verified : VerifiedRecords)
    (record : DomainPackRegistryPackageRecord) (publicKey : List UInt8) : VerifiedRecords where
  coordinateVersions := verified.coordinateVersions.insert (coordinateVersion record.identity)
    record.recordDigest
  entries := verified.entries ++ [{
    record := record
    publisherKeyFingerprint := rawDigest prims publicKey }]

/-- The record is new, bound by its digest, granted and signed. -/
structure RecordChecks (prims : SupplyChainPrimitives)
    (registry : DomainPackSupplyChainRegistry) (nowUnix : Nat) (verified : VerifiedRecords)
    (record : DomainPackRegistryPackageRecord) (credential : DomainPackPublisherCredential)
    (grant : DomainPackNamespaceGrant) (publicKey : List UInt8) : Prop where
  digests : validateRecordDigests record = .ok ()
  bound : domainPackPackageRecordDigest prims record.toPackageRecordSubject =
    .ok record.recordDigest
  unused : verified.coordinateVersions[coordinateVersion record.identity]? = none
  credentialChecks : CredentialChecks registry nowUnix record credential
  granted : grantById registry record.namespaceGrantId.value = some grant
  namespaceChecks : NamespaceChecks record grant registry nowUnix
  signed : PublisherChecks prims registry record credential publicKey

theorem verifyPackageRecord_eq_ok {verified next} :
    verifyPackageRecord prims registry nowUnix verified record = .ok next ↔
      ∃ credential grant publicKey,
        RecordChecks prims registry nowUnix verified record credential grant publicKey ∧
        next = verified.add prims record publicKey := by
  simp only [verifyPackageRecord, bind_eq_ok, require_eq_ok, decide_eq_true_eq, exists_and_left,
    exists_const]
  constructor
  · rintro ⟨⟨⟩, digests, actual, digested, rfl, accepted⟩
    split at accepted
    · split at accepted <;> cases accepted
    · next unused =>
      simp only [bind_eq_ok, validateRecordCredential_eq_ok, found_eq_ok,
        validateRecordNamespace_eq_ok, verifyPublisherSignature_eq_ok, exists_and_left,
        exists_const] at accepted
      obtain ⟨credential, credentialChecks, grant, granted, namespaceChecks, publicKey, signed,
        result⟩ := accepted
      cases result
      exact ⟨credential, grant, publicKey, ⟨digests, digested, unused, credentialChecks, granted,
        namespaceChecks, signed⟩, rfl⟩
  · rintro ⟨credential, grant, publicKey, checks, rfl⟩
    refine ⟨⟨⟩, checks.digests, record.recordDigest, checks.bound, rfl, ?_⟩
    simp only [checks.unused, bind_eq_ok, validateRecordCredential_eq_ok, found_eq_ok,
      validateRecordNamespace_eq_ok, verifyPublisherSignature_eq_ok, exists_and_left, exists_const]
    exact ⟨credential, checks.credentialChecks, grant, checks.granted, checks.namespaceChecks,
      publicKey, checks.signed, rfl⟩

/-! ## Grants and snapshots -/

/-- No earlier grant has the id or the prefix, and none of another publisher
has a comparable prefix. -/
structure GrantChecks (seen : SeenGrants) (grant : DomainPackNamespaceGrant) : Prop where
  unseen : grant.grantId.value ∉ seen.grantIds
  window : grant.validFromUnix < grant.validUntilUnix
  apart : ∀ other ∈ seen.grantsByPrefix.toList, other.2 ≠ grant.publisher.value →
    namespacePrefixesOverlap other.1 grant.namespacePrefix.value = false
  unused : grant.namespacePrefix.value ∉ seen.grantsByPrefix

theorem validateGrant_eq_ok {seen grant next} :
    validateGrant seen grant = .ok next ↔ GrantChecks seen grant ∧ next = {
      grantIds := grant.grantId.value :: seen.grantIds
      grantsByPrefix := seen.grantsByPrefix.insert grant.namespacePrefix.value
        grant.publisher.value } := by
  simp only [validateGrant, bind_eq_ok, require_eq_ok, exists_const, Bool.not_eq_true',
    List.contains_eq_mem, decide_eq_true_eq, decide_eq_false_iff_not]
  constructor
  · rintro ⟨unseen, window, accepted⟩
    split at accepted
    · cases accepted
    · next noOverlap =>
      obtain ⟨_, unused, result⟩ := bind_eq_ok.mp accepted
      cases result
      refine ⟨⟨unseen, window, ?_, ?_⟩, rfl⟩
      · intro other listed different
        simpa [different] using List.find?_eq_none.mp noOverlap other listed
      · simpa [← Std.ExtTreeMap.contains_iff_mem] using unused
  · rintro ⟨checks, rfl⟩
    refine ⟨checks.unseen, checks.window, ?_⟩
    have noOverlap : seen.grantsByPrefix.toList.find? (fun other =>
        other.2 ≠ grant.publisher.value &&
          namespacePrefixesOverlap other.1 grant.namespacePrefix.value) = none := by
      rw [List.find?_eq_none]
      intro other listed
      simpa using checks.apart other listed
    have unused : seen.grantsByPrefix.contains grant.namespacePrefix.value = false := by
      simpa [← Std.ExtTreeMap.contains_iff_mem] using checks.unused
    simp only [noOverlap, unused]
    rfl

/-- What is asked of a registry before its signatures are looked at. -/
structure ShapeChecks (prims : SupplyChainPrimitives)
    (registry : DomainPackSupplyChainRegistry) : Prop where
  named : isBlank registry.registryId.value = false ∧ isBlank registry.registryVersion = false ∧
    isBlank registry.audience.value = false
  digest : isSha256Token registry.snapshotDigest = true
  filled : registry.publisherCredentials ≠ [] ∧ registry.namespaceGrants ≠ [] ∧
    registry.packages ≠ [] ∧ registry.signatures ≠ []
  credentials : ∃ ids, registry.publisherCredentials.foldlM (validateCredential prims) [] = .ok ids
  grants : ∃ seen, registry.namespaceGrants.foldlM validateGrant {} = .ok seen
  revocations : ∃ digests, registry.revocations.foldlM validateRevocation [] = .ok digests

theorem validateSnapshotShape_eq_ok :
    validateSnapshotShape prims registry = .ok result ↔ ShapeChecks prims registry := by
  simp only [validateSnapshotShape, requireDigest, bind_eq_ok, require_eq_ok, exists_const,
    decide_eq_true_eq, Bool.not_eq_true', Bool.or_eq_false_iff, List.isEmpty_eq_false_iff]
  constructor
  · rintro ⟨-, ⟨⟨id, version⟩, audience⟩, digest,
      ⟨⟨⟨someCredentials, someGrants⟩, somePackages⟩, someSignatures⟩,
      ids, credentials, seen, grants, digests, revocations, -⟩
    exact
      { named := ⟨id, version, audience⟩
        digest := digest
        filled := ⟨someCredentials, someGrants, somePackages, someSignatures⟩
        credentials := ⟨ids, credentials⟩
        grants := ⟨seen, grants⟩
        revocations := ⟨digests, revocations⟩ }
  · intro checks
    obtain ⟨id, version, audience⟩ := checks.named
    obtain ⟨someCredentials, someGrants, somePackages, someSignatures⟩ := checks.filled
    obtain ⟨ids, credentials⟩ := checks.credentials
    obtain ⟨seen, grants⟩ := checks.grants
    obtain ⟨digests, revocations⟩ := checks.revocations
    exact ⟨trivial, ⟨⟨id, version⟩, audience⟩, checks.digest,
      ⟨⟨⟨someCredentials, someGrants⟩, somePackages⟩, someSignatures⟩,
      ids, credentials, seen, grants, digests, revocations, rfl⟩

/-- What stands behind a verified snapshot. -/
structure SnapshotChecks (prims : SupplyChainPrimitives)
    (policyDocument : DomainPackTrustPolicyDocument)
    (snapshot : DomainPackSupplyChainRegistryDocument) (nowUnix : Nat)
    (verified : VerifiedDomainPackSupplyChainSnapshot) : Prop where
  headers : validateDocumentHeaders policyDocument snapshot nowUnix = .ok ()
  policy : validatePolicy prims policyDocument = .ok ()
  shape : ShapeChecks prims snapshot.domainPackSupplyChainRegistry
  metadata : validateRemoteAcquisitionMetadata snapshot.metadata = .ok ()
  digested : domainPackRegistrySnapshotDigest prims snapshot =
    .ok snapshot.domainPackSupplyChainRegistry.snapshotDigest
  signed : verifyRegistrySignatures prims policyDocument snapshot = .ok verified.registrySigners
  packaged : verifyPackageRecords prims snapshot nowUnix = .ok verified.entries
  canonical : canonicalRevocationFacts snapshot.domainPackSupplyChainRegistry.revocations =
    .ok verified.currentRevocations
  revocationsDigested : domainPackCumulativeRevocationDigest prims verified.currentRevocations =
    .ok verified.currentRevocationDigest
  policyDigested : canonicalDigest prims (.trustPolicy policyDocument) =
    .ok verified.trustPolicyDigest

theorem snapshotChecks_of_verify {verified}
    (accepted : verifyDomainPackSupplyChainSnapshot prims policyDocument snapshot nowUnix =
      .ok verified) : SnapshotChecks prims policyDocument snapshot nowUnix verified := by
  simp only [verifyDomainPackSupplyChainSnapshot, bind_eq_ok, require_eq_ok, decide_eq_true_eq,
    validateSnapshotShape_eq_ok, mapError_eq_ok, exists_and_left, exists_const] at accepted
  obtain ⟨⟨⟩, headers, ⟨⟩, policy, shape, ⟨⟩, metadata, digest, digested, same, signers, signed,
    entries, packaged, facts, canonical, factsDigest, revocationsDigested, policyDigest,
    policyDigested, result⟩ := accepted
  cases result
  rw [← same] at digested
  exact ⟨headers, policy, shape, metadata, digested, signed, packaged, canonical,
    revocationsDigested, policyDigested⟩

/-! ## Selection -/

/-- What stands behind a selected record. -/
structure SelectionChecks (prims : SupplyChainPrimitives)
    (anchored : AnchoredDomainPackSupplyChainSnapshot) (record : DomainPackRegistryPackageRecord)
    (policyDocument : DomainPackTrustPolicyDocument) (nowUnix : Nat)
    (selected : SelectedDomainPackSupplyChainRecord) : Prop where
  schema : policyDocument.schemaVersion = domainPackLifecycleSchemaVersion
  policy : validatePolicy prims policyDocument = .ok ()
  audience : policyDocument.domainPackTrustPolicy.audience = anchored.verified.audience
  policyDigested : canonicalDigest prims (.trustPolicy policyDocument) =
    .ok anchored.verified.trustPolicyDigest
  issued : anchored.verified.issuedAtUnix ≤ nowUnix
  unexpired : nowUnix < anchored.verified.expiresAtUnix
  listed : ∃ entry ∈ anchored.verified.entries, entry.record = record
  unrevoked : anchored.currentRevocation record.recordDigest = none
  ruled : selectTrustRule policyDocument.domainPackTrustPolicy record =
    .ok (selected.disposition, selected.trustRuleId)
  assured : policyDocument.domainPackTrustPolicy.minimumActivationAssurance.rank ≤
    DomainPackSourceAssurance.supplyChainVerified.rank
  allowed : selected.disposition ≠ .reject
  digest : selected.recordDigest = record.recordDigest

theorem selectionChecks_of_select {anchored selected}
    (accepted : selectDomainPackSupplyChainRecord prims anchored record policyDocument nowUnix =
      .ok selected) : SelectionChecks prims anchored record policyDocument nowUnix selected := by
  simp only [selectDomainPackSupplyChainRecord, bind_eq_ok, require_eq_ok, found_eq_ok,
    decide_eq_true_eq, exists_and_left, exists_const] at accepted
  obtain ⟨schema, ⟨⟩, policy, audience, digest, policyDigested, rfl, -, issued, unexpired,
    entry, looked, unrevoked, rule, ruled, assured, allowed, result⟩ := accepted
  cases result
  obtain rfl : entry.record = record := by
    simpa using List.find?_some looked
  exact
    { schema := schema
      policy := policy
      audience := audience
      policyDigested := policyDigested
      issued := issued
      unexpired := unexpired
      listed := ⟨entry, List.mem_of_find?_eq_some looked, rfl⟩
      unrevoked := by
        simpa [AnchoredDomainPackSupplyChainSnapshot.isCurrentlyRevoked] using unrevoked
      ruled := ruled
      assured := assured
      allowed := allowed
      digest := rfl }

end ForgeCore.SupplyChain
