import ForgeCore.SupplyChain.Checks
import ForgeCore.SupplyChain.Json

/-!
# Endorsed packages

A registry snapshot that passes verification holds only packages that their
publishers and the registry have signed.
-/

namespace ForgeCore.SupplyChain

open Text Checked Digest Ed25519 Dotted
open DomainPacks (DomainPackIdentity DomainPackNamespaceGrant)

/-- The public key of an active registry signer has signed exactly this
snapshot. -/
structure EndorsesSnapshot (prims : SupplyChainPrimitives)
    (snapshot : DomainPackSupplyChainRegistryDocument)
    (publicKey : List UInt8) (key : DomainPackRegistryTrustKey)
    (signature : DomainPackRegistrySignature) : Prop where
  active : key.status = .active
  signer : key.role = .registrySigner
  validAtIssue : ValidAt snapshot.domainPackSupplyChainRegistry.issuedAtUnix
      key.validFromUnix key.validUntilUnix
  validAtExpiry : ValidAt snapshot.domainPackSupplyChainRegistry.expiresAtUnix
      key.validFromUnix key.validUntilUnix
  decoded : decodeFixed 32 key.publicKeyHex = some publicKey
  verifies : ∃ signatureBytes signingBytes,
    decodeFixed 64 signature.signatureHex = some signatureBytes ∧
    domainPackRegistrySigningBytes prims snapshot key.keyId
      .registrySigner = .ok signingBytes ∧
    prims.ed25519.verifyStrict publicKey signingBytes
      signatureBytes = true

/-- An active credential of the publisher of the record has signed it for the
registry and its audience. -/
structure SignsRecord (prims : SupplyChainPrimitives)
    (registry : DomainPackSupplyChainRegistry) (nowUnix : Nat)
    (record : DomainPackRegistryPackageRecord)
    (credential : DomainPackPublisherCredential) : Prop where
  listed : credential ∈ registry.publisherCredentials
  named : credential.credentialId = record.publisherCredentialId
  publisher : credential.publisher = record.identity.publisher
  active : credential.status = .active
  validAtIssue : ValidAt registry.issuedAtUnix credential.validFromUnix
      credential.validUntilUnix
  validNow : ValidAt nowUnix credential.validFromUnix credential.validUntilUnix
  validAtExpiry : ValidAt registry.expiresAtUnix credential.validFromUnix
      credential.validUntilUnix
  verifies : ∃ publicKey signatureBytes signingBytes,
    decodeFixed 32 credential.publicKeyHex = some publicKey ∧
    decodeFixed 64 record.publisherSignatureHex = some signatureBytes ∧
    domainPackPublisherSigningBytes prims registry.registryId
      registry.audience record.toPackageRecordSubject = .ok signingBytes ∧
    prims.ed25519.verifyStrict publicKey signingBytes
      signatureBytes = true

/-- A grant of the publisher of the record covers its namespace. -/
structure GrantsNamespace (registry : DomainPackSupplyChainRegistry)
    (nowUnix : Nat) (record : DomainPackRegistryPackageRecord)
    (grant : DomainPackNamespaceGrant) : Prop where
  listed : grant ∈ registry.namespaceGrants
  publisher : grant.publisher = record.identity.publisher
  validAtIssue : ValidAt registry.issuedAtUnix grant.validFromUnix grant.validUntilUnix
  validNow : ValidAt nowUnix grant.validFromUnix grant.validUntilUnix
  covers : LiesUnder record.identity.namespaceId grant.namespacePrefix

/-- What is asked of a package record alone. -/
structure CheckedRecord (prims : SupplyChainPrimitives)
    (registry : DomainPackSupplyChainRegistry) (nowUnix : Nat)
    (record : DomainPackRegistryPackageRecord) : Prop where
  signed : ∃ credential, SignsRecord prims registry nowUnix record credential
  granted : ∃ grant, GrantsNamespace registry nowUnix record grant
  unreserved : ¬LiesUnder record.identity.namespaceId ⟨"core"⟩ ∧
      ¬LiesUnder record.identity.namespaceId ⟨"forge.core"⟩
  bound : domainPackPackageRecordDigest prims record.toPackageRecordSubject =
      .ok record.recordDigest

/-- What is asked of every package record of a snapshot. -/
structure EndorsedRecord (prims : SupplyChainPrimitives)
    (registry : DomainPackSupplyChainRegistry) (nowUnix : Nat)
    (record : DomainPackRegistryPackageRecord) : Prop
    extends CheckedRecord prims registry nowUnix record where
  exclusive : ∀ grant ∈ registry.namespaceGrants,
    LiesUnder record.identity.namespaceId grant.namespacePrefix →
      grant.publisher = record.identity.publisher

/-- What a verified snapshot stands for. -/
structure Endorsed (prims : SupplyChainPrimitives) (policyDocument : DomainPackTrustPolicyDocument)
    (snapshot : DomainPackSupplyChainRegistryDocument) (nowUnix : Nat)
    (verified : VerifiedDomainPackSupplyChainSnapshot) : Prop where
  /-- Enough distinct public keys have signed this snapshot. -/
  threshold : ∃ publicKeys : Finset (List UInt8),
    policyDocument.domainPackTrustPolicy.requiredRegistrySignatureThreshold ≤ publicKeys.card ∧
      ∀ publicKey ∈ publicKeys, ∃ key ∈ policyDocument.domainPackTrustPolicy.registryKeys,
        ∃ signature ∈ snapshot.domainPackSupplyChainRegistry.signatures,
          EndorsesSnapshot prims snapshot publicKey key signature
  records : ∀ record ∈ snapshot.domainPackSupplyChainRegistry.packages,
    EndorsedRecord prims snapshot.domainPackSupplyChainRegistry nowUnix
      record
  /-- No two records share publisher, name and version. -/
  distinct : (snapshot.domainPackSupplyChainRegistry.packages.map fun record =>
      (record.identity.publisher, record.identity.name, record.identity.version)).Nodup
  /-- The verified entries are the records of the snapshot. -/
  entries : (verified.entries.map VerifiedDomainPackSupplyChainEntry.record).Perm
      snapshot.domainPackSupplyChainRegistry.packages

variable {namespaceId : StableId}

/-- Grants of different publishers are not comparable. -/
def DisjointGrants (grants : List DomainPackNamespaceGrant) : Prop :=
  ∀ first ∈ grants, ∀ second ∈ grants, first.publisher ≠ second.publisher →
    ¬LiesUnder first.namespacePrefix second.namespacePrefix

/-- What the loop over the grants knows. -/
structure GrantsSeen (done : List DomainPackNamespaceGrant) (seen : SeenGrants) : Prop where
  recorded : ∀ grant ∈ done, seen.grantsByPrefix[grant.namespacePrefix.value]? =
      some grant.publisher.value
  disjoint : DisjointGrants done

theorem grantsSeen_step {done : List DomainPackNamespaceGrant} {seen next : SeenGrants}
    {grant : DomainPackNamespaceGrant} (holds : GrantsSeen done seen)
    (accepted : validateGrant seen grant = .ok next) : GrantsSeen (done ++ [grant]) next := by
  obtain ⟨checks, rfl⟩ := validateGrant_eq_ok.mp accepted
  have absent : seen.grantsByPrefix[grant.namespacePrefix.value]? = none :=
    Std.ExtTreeMap.getElem?_eq_none checks.unused
  -- No earlier grant of another publisher is comparable with this one.
  have apart : ∀ other ∈ done, other.publisher ≠ grant.publisher →
      namespacePrefixesOverlap other.namespacePrefix.value
        grant.namespacePrefix.value = false := by
    intro other member different
    refine checks.apart (other.namespacePrefix.value, other.publisher.value) ?_ ?_
    · exact Std.ExtTreeMap.mem_toList_iff_getElem?_eq_some.mpr (holds.recorded other member)
    · exact fun same => different (stableId_value_injective same)
  constructor
  · intro other member
    rw [Std.ExtTreeMap.getElem?_insert]
    simp only [Std.LawfulEqCmp.compare_eq_iff_eq]
    rcases List.mem_append.mp member with earlier | last
    · have recorded := holds.recorded other earlier
      split
      · next same =>
        rw [← same, absent] at recorded
        cases recorded
      · exact recorded
    · rw [List.mem_singleton.mp last, if_pos rfl]
  · intro first firstMember second secondMember different under
    rw [← namespaceIsWithin_iff] at under
    rcases List.mem_append.mp firstMember with firstEarlier | firstLast
    · rcases List.mem_append.mp secondMember with secondEarlier | secondLast
      · exact holds.disjoint first firstEarlier second secondEarlier different
          (namespaceIsWithin_iff.mp under)
      · rw [List.mem_singleton.mp secondLast] at under different
        have overlapping := apart first firstEarlier different
        simp [namespacePrefixesOverlap, under] at overlapping
    · rw [List.mem_singleton.mp firstLast] at under different
      rcases List.mem_append.mp secondMember with secondEarlier | secondLast
      · have overlapping := apart second secondEarlier different.symm
        simp [namespacePrefixesOverlap, under] at overlapping
      · rw [List.mem_singleton.mp secondLast] at different
        exact different rfl

theorem ShapeChecks.disjointGrants (checks : ShapeChecks prims registry) :
    DisjointGrants registry.namespaceGrants := by
  obtain ⟨seen, granted⟩ := checks.grants
  have start : GrantsSeen [] {} := by
    constructor
    · intro grant member
      cases member
    · intro grant member
      cases member
  have holds := foldlM_invariant start
    (fun done current grant next => @grantsSeen_step done current next grant) granted
  exact holds.disjoint

theorem DisjointGrants.publisher_eq (disjoint : DisjointGrants grants)
    (firstMember : first ∈ grants) (secondMember : second ∈ grants)
    (underFirst : LiesUnder namespaceId first.namespacePrefix)
    (underSecond : LiesUnder namespaceId second.namespacePrefix) :
    first.publisher = second.publisher := by
  by_contra different
  rcases underFirst.comparable underSecond with below | above
  · exact disjoint first firstMember second secondMember different below
  · exact disjoint second secondMember first firstMember (fun same => different same.symm) above

section Signatures

variable {prims : SupplyChainPrimitives} {policy : DomainPackTrustPolicy}
  {snapshot : DomainPackSupplyChainRegistryDocument}

/-- What the loop over the signatures knows. -/
structure SignersSeen (prims : SupplyChainPrimitives) (policy : DomainPackTrustPolicy)
    (snapshot : DomainPackSupplyChainRegistryDocument)
    (done : List DomainPackRegistrySignature) (signers : VerifiedSigners) : Prop where
  distinct : signers.verifiedKeyMaterial.Nodup
  counted : signers.audits.length = signers.verifiedKeyMaterial.length
  endorsing : ∀ publicKey ∈ signers.verifiedKeyMaterial,
    ∃ key ∈ policy.registryKeys, ∃ signature ∈ done,
      EndorsesSnapshot prims snapshot publicKey key signature

theorem signersSeen_step {done : List DomainPackRegistrySignature}
    {signers next : VerifiedSigners} {signature : DomainPackRegistrySignature}
    (holds : SignersSeen prims policy snapshot done signers) (accepted :
      verifyRegistrySignature prims policy snapshot signers signature = .ok next) :
    SignersSeen prims policy snapshot (done ++ [signature]) next := by
  obtain ⟨key, publicKey, signatureBytes, checks, rfl⟩ := verifyRegistrySignature_eq_ok.mp accepted
  obtain ⟨listed, member, sameId, rfl⟩ := Collect.exists_of_getElem?_map checks.known
  have named : listed.keyId = signature.signerKeyId := stableId_value_injective sameId
  have endorses : EndorsesSnapshot prims snapshot publicKey listed signature := by
    obtain ⟨signingBytes, signing, verified⟩ := checks.verifies
    rw [checks.keyChecks.role, ← named] at signing
    exact
      { active := checks.keyChecks.active
        signer := checks.keyChecks.signer
        validAtIssue := checks.keyChecks.validAtIssue
        validAtExpiry := checks.keyChecks.validAtExpiry
        decoded := checks.decoded
        verifies := ⟨signatureBytes, signingBytes, checks.signatureDecoded, signing, verified⟩ }
  constructor
  · exact List.nodup_cons.mpr ⟨checks.fresh, holds.distinct⟩
  · rw [VerifiedSigners.add, List.length_append, holds.counted]
    rfl
  · intro other otherMember
    rcases List.mem_cons.mp otherMember with rfl | earlier
    · exact ⟨listed, member, signature,
        List.mem_append_right done (List.mem_singleton_self signature), endorses⟩
    · obtain ⟨otherKey, otherListed, otherSignature, otherDone, rest⟩ :=
        holds.endorsing other earlier
      exact ⟨otherKey, otherListed, otherSignature, List.mem_append_left _ otherDone, rest⟩

theorem threshold_of_verifyRegistrySignatures
    (verified : verifyRegistrySignatures prims policyDocument snapshot = .ok audits) :
    ∃ publicKeys : Finset (List UInt8),
      policyDocument.domainPackTrustPolicy.requiredRegistrySignatureThreshold ≤ publicKeys.card ∧
      ∀ publicKey ∈ publicKeys, ∃ key ∈ policyDocument.domainPackTrustPolicy.registryKeys,
      ∃ signature ∈ snapshot.domainPackSupplyChainRegistry.signatures,
      EndorsesSnapshot prims snapshot publicKey key signature := by
  obtain ⟨signers, looped, verified⟩ := bind_eq_ok.mp verified
  obtain ⟨_, enough, -⟩ := bind_eq_ok.mp verified
  have start : SignersSeen prims policyDocument.domainPackTrustPolicy snapshot []
        {} :=
    { distinct := List.nodup_nil
      counted := rfl
      endorsing := by
        intro publicKey member
        cases member }
  have holds := foldlM_invariant start
      (fun done current signature next =>
        @signersSeen_step prims policyDocument.domainPackTrustPolicy
          snapshot done current next signature)
      looped
  have enough := of_decide_eq_true (require_eq_ok.mp enough)
  refine ⟨signers.verifiedKeyMaterial.toFinset, ?_, ?_⟩
  · rw [List.toFinset_card_of_nodup holds.distinct, ← holds.counted]
    exact enough
  · intro publicKey member
    exact holds.endorsing publicKey (List.mem_toFinset.mp member)

end Signatures

section Records

variable {prims : SupplyChainPrimitives} {registry : DomainPackSupplyChainRegistry} {nowUnix : Nat}
  {record : DomainPackRegistryPackageRecord}

theorem signsRecord_of_checks (current : CredentialChecks registry nowUnix record credential)
    (signed : PublisherChecks prims registry record credential publicKey) :
    SignsRecord prims registry nowUnix record credential := by
  obtain ⟨listed, member, sameId, rfl⟩ := Collect.exists_of_getElem?_map current.known
  obtain ⟨signatureBytes, signingBytes, signatureDecoded, signing, verified⟩ := signed.verifies
  exact
    { listed := member
      named := stableId_value_injective sameId
      publisher := current.publisher
      active := current.active
      validAtIssue := current.validAtIssue
      validNow := current.validNow
      validAtExpiry := current.validAtExpiry
      verifies := ⟨publicKey, signatureBytes, signingBytes, signed.decoded, signatureDecoded,
        signing, verified⟩ }

theorem grantsNamespace_of_checks
    (known : grantById registry record.namespaceGrantId.value = some grant)
    (checks : NamespaceChecks record grant registry nowUnix) :
    GrantsNamespace registry nowUnix record grant := by
  obtain ⟨listed, member, -, rfl⟩ := Collect.exists_of_getElem?_map known
  exact
    { listed := member
      publisher := checks.publisher
      validAtIssue := checks.validAtIssue
      validNow := checks.validNow
      covers := checks.covers }

theorem RecordChecks.checkedRecord
    (checks : RecordChecks prims registry nowUnix verified record credential grant publicKey) :
    CheckedRecord prims registry nowUnix record where
  signed := ⟨credential, signsRecord_of_checks checks.credentialChecks checks.signed⟩
  granted := ⟨grant, grantsNamespace_of_checks checks.granted checks.namespaceChecks⟩
  unreserved := not_liesUnder_of_isReservedNamespace checks.namespaceChecks.unreserved
  bound := checks.bound

def coordinates (record : DomainPackRegistryPackageRecord) : StableId × StableId × String :=
  (record.identity.publisher, record.identity.name, record.identity.version)

theorem coordinateVersion_eq_of_coordinates (same : coordinates first = coordinates second) :
    coordinateVersion first.identity = coordinateVersion second.identity := by
  simp only [coordinates, Prod.mk.injEq] at same
  rw [coordinateVersion, coordinateVersion, same.1, same.2.1, same.2.2]

/-- What the loop over the packages knows. -/
structure RecordsSeen (prims : SupplyChainPrimitives)
    (registry : DomainPackSupplyChainRegistry) (nowUnix : Nat)
    (done : List DomainPackRegistryPackageRecord) (verified : VerifiedRecords) : Prop where
  entries : verified.entries.map VerifiedDomainPackSupplyChainEntry.record = done
  checked : ∀ record ∈ done, CheckedRecord prims registry nowUnix record
  recorded : ∀ record ∈ done, verified.coordinateVersions[coordinateVersion record.identity]? ≠ none
  distinct : (done.map coordinates).Nodup

theorem recordsSeen_step
    {done : List DomainPackRegistryPackageRecord} {verified next : VerifiedRecords}
    (holds : RecordsSeen prims registry nowUnix done verified) (accepted :
      verifyPackageRecord prims registry nowUnix verified record = .ok next) :
    RecordsSeen prims registry nowUnix (done ++ [record]) next := by
  obtain ⟨credential, grant, publicKey, checks, rfl⟩ := verifyPackageRecord_eq_ok.mp accepted
  constructor
  · rw [VerifiedRecords.add, List.map_append, holds.entries]
    rfl
  · intro other member
    rcases List.mem_append.mp member with earlier | last
    · exact holds.checked other earlier
    · rw [List.mem_singleton.mp last]
      exact checks.checkedRecord
  · intro other member
    rw [VerifiedRecords.add, Std.ExtTreeMap.getElem?_insert]
    simp only [Std.LawfulEqCmp.compare_eq_iff_eq]
    rcases List.mem_append.mp member with earlier | last
    · split
      · simp
      · exact holds.recorded other earlier
    · rw [List.mem_singleton.mp last, if_pos rfl]
      simp
  · rw [List.map_append, List.nodup_append]
    refine ⟨holds.distinct, List.nodup_singleton _, ?_⟩
    intro earlier earlierMember last lastMember same
    obtain ⟨other, otherMember, rfl⟩ := List.mem_map.mp earlierMember
    rw [List.mem_singleton.mp lastMember] at same
    have recorded := holds.recorded other otherMember
    rw [coordinateVersion_eq_of_coordinates same, checks.unused] at recorded
    exact recorded rfl

theorem recordsSeen_of_verifyPackageRecords
    (verified : verifyPackageRecords prims snapshot nowUnix = .ok entries) :
    ∃ records, RecordsSeen prims snapshot.domainPackSupplyChainRegistry nowUnix
      snapshot.domainPackSupplyChainRegistry.packages records ∧ entries.Perm records.entries := by
  obtain ⟨records, looped, sorted⟩ := bind_eq_ok.mp verified
  cases sorted
  have start : RecordsSeen prims snapshot.domainPackSupplyChainRegistry nowUnix []
        {} :=
    { entries := rfl
      checked := by
        intro record member
        cases member
      recorded := by
        intro record member
        cases member
      distinct := List.nodup_nil }
  refine ⟨records, ?_, List.mergeSort_perm _ _⟩
  exact foldlM_invariant start
      (fun done current record next =>
        @recordsSeen_step prims snapshot.domainPackSupplyChainRegistry
          nowUnix record done current next)
      looped

end Records

/-- A snapshot that passes verification is signed by as many distinct keys of
the policy as it asks for.  Each of its records is signed by its publisher,
lies in a namespace that is granted to that publisher and to no other, and is
bound by its digest; the verified entries are these records. -/
theorem verified_packages_are_endorsed
    (prims : SupplyChainPrimitives)
    (policyDocument : DomainPackTrustPolicyDocument)
    (snapshotDocument : DomainPackSupplyChainRegistryDocument)
    (nowUnix : Nat)
    (verified : VerifiedDomainPackSupplyChainSnapshot)
    (accepted : verifyDomainPackSupplyChainSnapshot prims policyDocument
      snapshotDocument nowUnix = .ok verified) :
    Endorsed prims policyDocument snapshotDocument nowUnix verified := by
  have checks := snapshotChecks_of_verify accepted
  obtain ⟨records, seen, sorted⟩ := recordsSeen_of_verifyPackageRecords checks.packaged
  constructor
  · exact threshold_of_verifyRegistrySignatures checks.signed
  · intro record member
    have checked := seen.checked record member
    obtain ⟨own, grants⟩ := checked.granted
    refine ⟨checked, ?_⟩
    intro grant listed under
    rw [← grants.publisher]
    exact checks.shape.disjointGrants.publisher_eq listed grants.listed under grants.covers
  · exact seen.distinct
  · rw [← seen.entries]
    exact sorted.map _

/-! ## Two versions of one package, signed by two keys -/

namespace AcmeRegistry

open Digest

def keyBytes (byte : UInt8) : List UInt8 :=
  List.replicate 32 byte

/-- A digest that repeats the sum of the first bytes, and signatures that
repeat the key. -/
def primitives : SupplyChainPrimitives where
  sha256 bytes := Vector.replicate 32 (bytes.take 64).sum
  canonicalize subject := .ok subject.toVec
  ed25519 :=
    { isKey := fun bytes => bytes.length = 32
      verifyStrict := fun key _ signature => signature = key ++ key }
  debugText _ := ""

/-- The long texts of the documents, each for one repeated byte.  The checks
below are stated for any texts that are read as they should be. -/
structure Texts where
  key : UInt8 → String
  signature : UInt8 → String
  digest : UInt8 → String
  /-- The object with that digest. -/
  address : UInt8 → RepoPath

section Documents

variable (texts : Texts)

def registryTrustKey (keyId : String) (byte : UInt8) : DomainPackRegistryTrustKey where
  keyId := ⟨keyId⟩
  role := .registrySigner
  publicKeyHex := texts.key byte
  status := .active
  validFromUnix := 1000
  validUntilUnix := 9000

def policy : DomainPackTrustPolicyDocument where
  schemaVersion := "0.5"
  domainPackTrustPolicy :=
    { policyId := ⟨"policy.acme"⟩
      policyVersion := "1"
      audience := ⟨"forge"⟩
      authority := .candidateOnly
      registryKeys := [registryTrustKey texts "first" 1, registryTrustKey texts "second" 2]
      requiredRegistrySignatureThreshold := 2
      minimumActivationAssurance := .localExplicit
      rules := []
      defaultDisposition := .inspectOnly }

def artifact (kind : DomainPacks.DomainPackRemoteArtifactKind)
    (mediaType : DomainPackRemoteArtifactMediaType) (path : String) (byte : UInt8) :
    DomainPackRemoteArtifactDescriptor where
  kind := kind
  binding := ⟨⟨path⟩, texts.digest byte, texts.digest byte⟩
  objectPath := texts.address byte
  byteLength := 64
  mediaType := mediaType

def record (version content : String) (package digest : UInt8) :
    DomainPackRegistryPackageRecord where
  identity := ⟨⟨"acme"⟩, ⟨"tools"⟩, ⟨"acme.tools"⟩, version⟩
  packageDigest := texts.digest package
  manifestDigest := texts.digest 0x22
  contentDigest := texts.digest 0x33
  licenseDigest := texts.digest 0x44
  fixtureDigests := []
  artifacts :=
    { manifest := artifact texts .manifest .applicationYaml "pack.yaml" 0x22
      content := artifact texts .content .applicationYaml content 0x33
      license := artifact texts .license .textPlain "LICENSE" 0x44
      fixtures := [] }
  namespaceGrantId := ⟨"acme"⟩
  publisherCredentialId := ⟨"acme-key"⟩
  publisherSignatureHex := texts.signature 3
  recordDigest := texts.digest digest

def older : DomainPackRegistryPackageRecord :=
  record texts "1.0.0" "old.yaml" 0x11 122

def newer : DomainPackRegistryPackageRecord :=
  record texts "1.10.0" "new.yaml" 0x12 133

def credential : DomainPackPublisherCredential where
  credentialId := ⟨"acme-key"⟩
  publisher := ⟨"acme"⟩
  publicKeyHex := texts.key 3
  status := .active
  validFromUnix := 1000
  validUntilUnix := 9000

def grant (owner : String) : DomainPackNamespaceGrant where
  grantId := ⟨owner⟩
  publisher := ⟨owner⟩
  namespacePrefix := ⟨owner⟩
  validFromUnix := 1000
  validUntilUnix := 9000

def endorsement (keyId : String) (byte : UInt8) : DomainPackRegistrySignature where
  signerKeyId := ⟨keyId⟩
  role := .registrySigner
  signatureHex := texts.signature byte

def registry : DomainPackSupplyChainRegistry where
  registryId := ⟨"registry.acme"⟩
  registryVersion := "1"
  audience := ⟨"forge"⟩
  authority := .candidateOnly
  generation := 1
  previousSnapshotDigest := none
  issuedAtUnix := 2000
  expiresAtUnix := 8000
  publisherCredentials := [credential texts]
  namespaceGrants := [grant "acme", grant "beta"]
  mirrors := []
  packages := [older texts, newer texts]
  revocations := []
  snapshotDigest := texts.digest 80
  signatures := [endorsement texts "first" 1, endorsement texts "second" 2]

def snapshot : DomainPackSupplyChainRegistryDocument :=
  ⟨"0.5", registry texts⟩

end Documents

def firstSigner (texts : Texts) : VerifiedSigners :=
  VerifiedSigners.add primitives {} (endorsement texts "first" 1) (keyBytes 1)
    (keyBytes 1 ++ keyBytes 1)

/-- The texts decode to what they repeat, and the digests bind. -/
structure Readable (texts : Texts) : Prop where
  key : ∀ byte, decodeFixed 32 (texts.key byte) = some (keyBytes byte)
  signature : ∀ byte, decodeFixed 64 (texts.signature byte) = some (keyBytes byte ++ keyBytes byte)
  token : ∀ byte, isSha256Token (texts.digest byte) = true ∧
    Digest.isSha256Token (texts.digest byte) = true
  addressed : ∀ byte field, DomainPacks.validateContentAddressedObjectPath (texts.address byte)
    (texts.digest byte) field = .ok ()
  distinct : ∀ first second, texts.address first = texts.address second → first = second
  olderDigested : domainPackPackageRecordDigest primitives (older texts).toPackageRecordSubject =
    .ok (texts.digest 122)
  newerDigested : domainPackPackageRecordDigest primitives (newer texts).toPackageRecordSubject =
    .ok (texts.digest 133)
  snapshotDigested : domainPackRegistrySnapshotDigest primitives (snapshot texts) =
    .ok (texts.digest 80)

theorem not_blank : ∀ value ∈ ["policy.acme", "registry.acme", "forge", "1", "acme", "tools",
      "acme.tools", "1.0.0", "1.10.0"], isBlank value = false := by
  decide +kernel

theorem repoPath_valid : ∀ path ∈ ["pack.yaml", "old.yaml", "new.yaml", "LICENSE"], ∀ field,
      DomainPacks.validateRepoPath ⟨path⟩ field = .ok () := by
  intro path member field
  rw [DomainPacks.validateRepoPath, DomainPacks.refuseIf]
  refine if_neg ?_
  revert path
  decide +kernel

theorem keyBytes_length (byte : UInt8) : (keyBytes byte).length = 32 :=
  List.length_replicate

theorem keys_apart : keyBytes 2 ≠ keyBytes 1 := by
  decide

section Accepted

variable {texts : Texts}

theorem grants_checked :
    ∃ seen, (registry texts).namespaceGrants.foldlM validateGrant {} = .ok seen := by
  have first : GrantChecks {} (grant "acme") := by
    refine ⟨by simp, by decide, ?_, by simp⟩
    intro other listed
    rw [Std.ExtTreeMap.mem_toList_iff_getElem?_eq_some] at listed
    simp at listed
  have second : GrantChecks ⟨["acme"], (∅ : Std.ExtTreeMap String String).insert "acme" "acme"⟩
      (grant "beta") := by
    refine ⟨by simp [grant], by decide, ?_, by simp [grant]⟩
    rintro ⟨start, owner⟩ listed -
    rw [Std.ExtTreeMap.mem_toList_iff_getElem?_eq_some, Std.ExtTreeMap.getElem?_insert] at listed
    obtain rfl : start = "acme" := by
      by_contra other
      simp [Ne.symm other] at listed
    have apart : namespacePrefixesOverlap "acme" "beta" = false := by
      decide +kernel
    exact apart
  have firstSeen := validateGrant_eq_ok.mpr ⟨first, rfl⟩
  have secondSeen := validateGrant_eq_ok.mpr ⟨second, rfl⟩
  rw [registry, List.foldlM_cons, firstSeen, ok_bind, List.foldlM_cons]
  exact ⟨_, bind_eq_ok.mpr ⟨_, secondSeen, rfl⟩⟩

variable (readable : Readable texts)

include readable

theorem policyKey_valid (seen : PolicyKeys) {keyId : String} {byte : UInt8}
    (unseen : keyId ∉ seen.keyIds) (fresh : keyBytes byte ∉ seen.signerKeyMaterial) :
    validatePolicyKey primitives seen (registryTrustKey texts keyId byte) = .ok {
      keyIds := keyId :: seen.keyIds
      signerKeyMaterial := keyBytes byte :: seen.signerKeyMaterial
      signerCount := seen.signerCount + 1 } := by
  have isKey : primitives.ed25519.isKey (keyBytes byte) = true := by
    simp [primitives, keyBytes_length]
  simp only [validatePolicyKey, registryTrustKey, readable.key, found, ok_bind, isKey]
  simp [require, unseen, fresh, ok_bind]

theorem policy_valid : validatePolicy primitives (policy texts) = .ok () := by
  have keys : (policy texts).domainPackTrustPolicy.registryKeys.foldlM
      (validatePolicyKey primitives) {} =
        .ok ⟨["second", "first"], [keyBytes 2, keyBytes 1], 2⟩ := by
    rw [policy, List.foldlM_cons, policyKey_valid readable {} (by simp) (by simp), ok_bind,
      List.foldlM_cons, policyKey_valid readable _ (by simp) (by simp [keys_apart])]
    rfl
  rw [validatePolicy, keys]
  simp [policy, require, not_blank, ok_bind]

theorem snapshot_shaped : ShapeChecks primitives (registry texts) where
  named := by simp [registry, not_blank]
  digest := (readable.token 80).1
  filled := by simp [registry]
  credentials := by
    simp [registry, validateCredential, credential, readable.key, require, found, primitives,
      keyBytes_length, ok_bind]
  grants := grants_checked
  revocations := ⟨[], rfl⟩

theorem record_metadata (version content : String) (package digest : UInt8) (index : Nat)
    (named : content ∈ ["old.yaml", "new.yaml"]) :
    DomainPacks.validatePackageRecordAt index
      (record texts version content package digest).metadata = .ok () := by
  have placed (field : String) : DomainPacks.validateRepoPath ⟨content⟩ field = .ok () :=
    repoPath_valid content (by simp only [List.mem_cons] at named ⊢; tauto) field
  have namesApart : "pack.yaml" ≠ content ∧ content ≠ "LICENSE" := by
    simp only [List.mem_cons, List.not_mem_nil, or_false] at named
    rcases named with rfl | rfl <;> decide
  have apart {first second : UInt8} (different : first ≠ second) :
      texts.address first ≠ texts.address second :=
    fun same => different (readable.distinct first second same)
  simp [DomainPackRegistryPackageRecord.metadata, DomainPackRegistryArtifactSet.metadata,
    DomainPackRemoteArtifactDescriptor.metadata, record, artifact, DomainPacks.refuseIf,
    DomainPacks.checkEach, DomainPacks.validatePackageRecordAt, DomainPacks.requireDigest,
    DomainPacks.validateArtifactSet, DomainPacks.packageDescriptors,
    DomainPacks.validateDescriptorAt, DomainPacks.validateArtifactDescriptor,
    DomainPacks.maxDomainPackRemoteArtifactsPerPackage, readable.token, readable.addressed,
    repoPath_valid, placed, namesApart, apart, ok_bind]

theorem metadata_valid :
    DomainPacks.validateRemoteAcquisitionMetadata (snapshot texts).metadata = .ok () := by
  have first := record_metadata readable "1.0.0" "old.yaml" 0x11 122 0 (by simp)
  have second := record_metadata readable "1.10.0" "new.yaml" 0x12 133 1 (by simp)
  simp [DomainPacks.validateRemoteAcquisitionMetadata,
    DomainPackSupplyChainRegistryDocument.metadata, snapshot, registry, older, newer,
    DomainPacks.refuseIf, DomainPacks.checkEach, DomainPacks.maxDomainPackRemoteMirrors, first,
    second, ok_bind]

theorem signature_checked (signers : VerifiedSigners) {keyId : String} {byte : UInt8}
    (listed : registryTrustKey texts keyId byte ∈
      (policy texts).domainPackTrustPolicy.registryKeys)
    (unseen : keyId ∉ signers.seenKeyIds)
    (fresh : keyBytes byte ∉ signers.verifiedKeyMaterial) :
    verifyRegistrySignature primitives (policy texts).domainPackTrustPolicy (snapshot texts)
      signers (endorsement texts keyId byte) = .ok (signers.add primitives
        (endorsement texts keyId byte) (keyBytes byte) (keyBytes byte ++ keyBytes byte)) := by
  refine verifyRegistrySignature_eq_ok.mpr ⟨registryTrustKey texts keyId byte, _, _, ?_, rfl⟩
  exact
    { unseen := unseen
      known := Collect.getElem?_map_of_nodup (by simp [policy, registryTrustKey]) listed
      keyChecks :=
        { active := rfl
          signer := rfl
          role := rfl
          validAtIssue := by simp [ValidAt, snapshot, registry, registryTrustKey]
          validAtExpiry := by simp [ValidAt, snapshot, registry, registryTrustKey] }
      decoded := readable.key byte
      fresh := fresh
      isKey := by simp [primitives, keyBytes_length]
      signatureDecoded := readable.signature byte
      verifies := ⟨_, rfl, by simp [primitives]⟩ }

theorem signatures_verified :
    ∃ audits, verifyRegistrySignatures primitives (policy texts) (snapshot texts) = .ok audits := by
  have listed : registryTrustKey texts "first" 1 ∈
        (policy texts).domainPackTrustPolicy.registryKeys ∧
      registryTrustKey texts "second" 2 ∈ (policy texts).domainPackTrustPolicy.registryKeys := by
    simp [policy]
  have first := signature_checked readable {} listed.1 (by simp) (by simp)
  have second := signature_checked readable (firstSigner texts) listed.2
    (by simp [firstSigner, VerifiedSigners.add, endorsement])
    (by simp [firstSigner, VerifiedSigners.add, keys_apart])
  obtain ⟨signers, looped, counted⟩ : ∃ signers,
      (snapshot texts).domainPackSupplyChainRegistry.signatures.foldlM (verifyRegistrySignature
        primitives (policy texts).domainPackTrustPolicy (snapshot texts)) {} = .ok signers ∧
      signers.audits.length = 2 :=
    ⟨_, bind_eq_ok.mpr ⟨_, first, bind_eq_ok.mpr ⟨_, second, rfl⟩⟩, rfl⟩
  rw [verifyRegistrySignatures, looped]
  simp [require, counted, policy, ok_bind]

theorem record_verified (verified : VerifiedRecords) {version content : String}
    {package digest : UInt8}
    (named : isBlank version = false)
    (digested : domainPackPackageRecordDigest primitives
      (record texts version content package digest).toPackageRecordSubject =
        .ok (texts.digest digest))
    (unused : verified.coordinateVersions[coordinateVersion
      (record texts version content package digest).identity]? = none) :
    verifyPackageRecord primitives (registry texts) 3000 verified
      (record texts version content package digest) = .ok (verified.add primitives
        (record texts version content package digest) (keyBytes 3)) := by
  have granted : namespaceIsWithin "acme.tools" "acme" = true ∧
      isReservedNamespace "acme.tools" = false := by
    decide +kernel
  refine verifyPackageRecord_eq_ok.mpr ⟨credential texts, grant "acme", _, ?_, rfl⟩
  exact
    { digests := by
        simp [validateRecordDigests, recordDigestFields, record, requireDigest, readable.token,
          not_blank, named, require, ok_bind]
      bound := digested
      unused := unused
      credentialChecks :=
        { known := Collect.getElem?_map_of_nodup (by simp) List.mem_cons_self
          active := rfl
          validAtIssue := by simp [ValidAt, registry, credential]
          validNow := by simp [ValidAt, credential]
          validAtExpiry := by simp [ValidAt, registry, credential]
          publisher := rfl }
      granted := Collect.getElem?_map_of_nodup (by simp [grant]) List.mem_cons_self
      namespaceChecks :=
        { unreserved := granted.2
          validAtIssue := by simp [ValidAt, registry, grant]
          validNow := by simp [ValidAt, grant]
          publisher := rfl
          covers := namespaceIsWithin_iff.mp granted.1 }
      signed :=
        { decoded := readable.key 3
          isKey := by simp [primitives, keyBytes_length]
          verifies := ⟨_, _, readable.signature 3, rfl, by simp [primitives]⟩ } }

theorem records_verified :
    ∃ entries, verifyPackageRecords primitives (snapshot texts) 3000 = .ok entries := by
  have apart : coordinateVersion (older texts).identity ≠
      coordinateVersion (newer texts).identity := by
    simp [coordinateVersion, older, newer, record]
  have first := record_verified readable {} (not_blank "1.0.0" (by simp))
    readable.olderDigested (by simp)
  have second := record_verified readable (.add primitives {} (older texts) (keyBytes 3))
    (not_blank "1.10.0" (by simp)) readable.newerDigested
    (by simpa [VerifiedRecords.add, newer] using apart)
  obtain ⟨verified, looped⟩ : ∃ verified, (registry texts).packages.foldlM
      (verifyPackageRecord primitives (registry texts) 3000) {} = .ok verified :=
    ⟨_, bind_eq_ok.mpr ⟨_, first, bind_eq_ok.mpr ⟨_, second, rfl⟩⟩⟩
  rw [verifyPackageRecords, snapshot, looped]
  exact ⟨_, rfl⟩

theorem snapshot_verified :
    ∃ verified, verifyDomainPackSupplyChainSnapshot primitives (policy texts)
      (snapshot texts) 3000 = .ok verified := by
  have headers : validateDocumentHeaders (policy texts) (snapshot texts) 3000 = .ok () := rfl
  have shaped : validateSnapshotShape primitives
      (snapshot texts).domainPackSupplyChainRegistry = .ok () :=
    validateSnapshotShape_eq_ok.mpr (snapshot_shaped readable)
  have named : (snapshot texts).domainPackSupplyChainRegistry.snapshotDigest =
      texts.digest 80 := rfl
  obtain ⟨audits, signed⟩ := signatures_verified readable
  obtain ⟨entries, packaged⟩ := records_verified readable
  rw [verifyDomainPackSupplyChainSnapshot, headers, ok_bind, policy_valid readable, ok_bind]
  simp only [shaped, ok_bind, metadata_valid readable, Except.mapError,
    readable.snapshotDigested, named, signed, packaged, require, decide_true, if_true]
  exact ⟨_, rfl⟩

end Accepted

def written : Texts where
  key byte := String.ofList (hexText (keyBytes byte))
  signature byte := String.ofList (hexText (keyBytes byte ++ keyBytes byte))
  digest byte := formatSha256 (List.replicate 32 byte)
  address byte := DomainPacks.contentAddress (List.replicate 32 byte)

theorem address_inj (same : DomainPacks.contentAddress (List.replicate 32 first) =
      DomainPacks.contentAddress (List.replicate 32 second)) : first = second := by
  have bytes := hexText_inj (DomainPacks.contentAddress_inj same)
  exact (List.replicate_right_inj (by decide)).mp bytes

theorem canonicalDigest_written {subject : CanonicalSubject} {byte : UInt8}
    (summed : (subject.toVec.take 64).sum = byte) :
    canonicalDigest primitives subject = .ok (written.digest byte) := by
  simp [canonicalDigest, canonicalBytes, primitives, rawDigest, Except.mapError, summed, written]

theorem written_readable : Readable written where
  key _ := decodeFixed_hexText (keyBytes_length _)
  signature _ := decodeFixed_hexText (by simp [keyBytes_length])
  token _ := ⟨isSha256Token_formatSha256 List.length_replicate,
    Digest.isSha256Token_formatSha256 List.length_replicate⟩
  addressed _ field := DomainPacks.validateContentAddressedObjectPath_contentAddress
    List.length_replicate field
  distinct _ _ same := address_inj same
  olderDigested := canonicalDigest_written (by decide +kernel)
  newerDigested := canonicalDigest_written (by decide +kernel)
  snapshotDigested := canonicalDigest_written (by decide +kernel)

end AcmeRegistry

/-- Two keys sign a snapshot with two versions of one package. -/
theorem verified_packages_are_endorsed_acme :
    ∃ verified,
      verifyDomainPackSupplyChainSnapshot AcmeRegistry.primitives
        (AcmeRegistry.policy AcmeRegistry.written)
        (AcmeRegistry.snapshot AcmeRegistry.written) 3000 = .ok verified ∧
      Endorsed AcmeRegistry.primitives (AcmeRegistry.policy AcmeRegistry.written)
        (AcmeRegistry.snapshot AcmeRegistry.written) 3000 verified := by
  obtain ⟨verified, accepted⟩ := AcmeRegistry.snapshot_verified AcmeRegistry.written_readable
  exact ⟨verified, accepted, verified_packages_are_endorsed _ _ _ _ verified accepted⟩


end ForgeCore.SupplyChain
