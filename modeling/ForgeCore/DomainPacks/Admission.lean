import ForgeCore.DomainPacks.RemoteMetadata
import ForgeCore.Library.Multimap

/-!
# Admission of resolution requests

The checks that a request and its candidates pass before the search, with
their issues and limits.
-/

namespace ForgeCore.DomainPacks

open List Checked

/-- The versions and requirements of semantic versioning. -/
structure Semver (Version Requirement : Type) where
  parseVersion : String → Option Version
  versionText : Version → String
  compareVersion : Version → Version → Ordering
  /-- The prerelease identifier, empty for a release. -/
  prerelease : Version → String
  parseRequirement : String → Option Requirement
  accepts : Requirement → Version → Bool
  /-- The prerelease identifiers of the comparators. -/
  comparatorPrereleases : Requirement → List String
  packSchema : Version
  parse_packSchema : parseVersion "0.1.0" = some packSchema

def domainPackSchemaVersion : String := "0.1"

def domainPackLifecycleSchemaVersion : String := "0.5"

def maxDomainPackResolutionCandidates : Nat := 512

def maxDomainPackResolutionVersionsPerCoordinate : Nat := 64

def maxDomainPackResolutionRoots : Nat := 64

def maxDomainPackResolutionDependenciesPerPack : Nat := 64

def maxDomainPackResolutionSearchStates : Nat := 10000

def maxDomainPackResolutionDiagnostics : Nat := 1024

abbrev Issues := List DomainPackResolutionIssue

def issue (issues : Issues) (reported : DomainPackResolutionIssue) : Issues :=
  if issues.length < maxDomainPackResolutionDiagnostics then
    issues ++ [reported]
  else
    issues

def resourceIssueIf (condition : Bool) (path message : String) : Issues :=
  issueIf condition .resourceLimitExceeded path message

def reportAll (issues reported : Issues) : Issues :=
  reported.foldl issue issues

theorem issue_ne_nil (issues : Issues) (reported : DomainPackResolutionIssue) :
    issue issues reported ≠ [] := by
  rw [issue]
  split
  next => simp
  next full =>
    intro empty
    rw [empty] at full
    exact full (show 0 < maxDomainPackResolutionDiagnostics by decide)

theorem reportAll_eq_nil : reportAll issues reported = [] ↔ issues = [] ∧ reported = [] := by
  induction reported generalizing issues with
  | nil => simp [reportAll]
  | cons first rest ih =>
    rw [reportAll, foldl_cons, ← reportAll, ih]
    simp [issue_ne_nil]

section Admission

variable {Version Requirement : Type} (semver : Semver Version Requirement)

def validateSchemas (request : DomainPackResolutionRequest)
    (registry : DomainPackSupplyChainRegistry) : Issues :=
  issueIf (request.schemaVersion ≠ domainPackLifecycleSchemaVersion)
      .unsupportedSchemaVersion "schema_version"
      ("expected 0.5, found " ++ request.schemaVersion) ++
    issueIf (registry.schemaVersion ≠ domainPackLifecycleSchemaVersion)
      .unsupportedSchemaVersion "registry.schema_version"
      ("expected 0.5, found " ++ registry.schemaVersion)

def validateIds (request : DomainPackResolutionRequest)
    (registry : DomainPackSupplyChainRegistry) : Issues :=
  let check (path : String) (value : StableId) : Issues :=
    issueIf (!validId value.value) .invalidIdentity path "invalid stable id"
  check "request_id" request.requestId ++ check "project_id" request.projectId ++
    check "registry.registry_id" registry.registryId ++ check "registry.audience" registry.audience

def validateRequirements (request : DomainPackResolutionRequest) : Issues :=
  issueIf (request.projectId ≠ request.requirementsProjectId)
      .invalidIdentity "requirements.project_id"
      "requirements project differs from resolution project" ++
    issueIf (request.requirementsSchemaVersion ≠ domainPackSchemaVersion)
      .unsupportedSchemaVersion "requirements.schema_version"
      "P6a requirements must use schema 0.1" ++
    issueIf (semver.parseVersion request.forgeCoreVersion).isNone
      .invalidVersionRequirement "forge_core_version"
      "forge core version must be strict semantic version"

def validateDigests (request : DomainPackResolutionRequest)
    (registry : DomainPackSupplyChainRegistry) : Issues :=
  let check (path digest : String) : Issues :=
    issueIf (!validDigest digest) .invalidDigest path "invalid sha256 digest"
  check "registry_snapshot_digest" request.registrySnapshotDigest ++
    check "registry.snapshot_digest" registry.snapshotDigest ++
    check "core.bundle_digest" request.coreBundleDigest ++
    check "core.policy_set_digest" request.corePolicySetDigest

def validateRegistry (request : DomainPackResolutionRequest)
    (registry : DomainPackSupplyChainRegistry) : Issues :=
  issueIf (request.registrySnapshotDigest ≠ registry.snapshotDigest)
      .registryDigestMismatch "registry_snapshot_digest"
      "request does not bind the supplied registry snapshot" ++
    issueIf (registry.expiresAtUnix < registry.issuedAtUnix)
      .registryExpired "registry.expires_at_unix" "registry validity interval is inverted" ++
    issueIf (!(validateRemoteAcquisitionMetadata registry).isOk)
      .registryRecordMismatch "registry.remote_acquisition_metadata"
      "registry remote artifact metadata is structurally invalid"

def validateRootAt (index : Nat) (root : DomainPackResolutionRoot) : Issues :=
  issueIf (!validCoordinate root.pack) .invalidIdentity
      s!"roots.{index}.pack" "invalid root coordinate" ++
    issueIf (semver.parseRequirement root.versionRequirement).isNone
      .invalidVersionRequirement s!"roots.{index}.version_requirement"
      "invalid semantic-version requirement" ++
    issueIf (root.requiredContentDigest.any fun digest => !validDigest digest)
      .invalidDigest s!"roots.{index}.required_content_digest" "invalid sha256 digest"

def validateRoots (request : DomainPackResolutionRequest) : Issues :=
  resourceIssueIf (maxDomainPackResolutionRoots < request.roots.length)
      "roots" "root count exceeds 64" ++ resourceIssueIf
      (maxDomainPackResolutionCandidates < request.candidates.length)
      "candidates" "candidate count exceeds 512" ++ request.roots.zipIdx.flatMap fun entry =>
      validateRootAt semver entry.2 entry.1

def validateCurrentLock (request : DomainPackResolutionRequest) : Issues :=
  match request.currentLock with
  | none => []
  | some lock =>
    issueIf (lock.schemaVersion ≠ domainPackLifecycleSchemaVersion)
        .currentLockMismatch "current_lock.schema_version"
        "current lock has an unsupported schema" ++ issueIf (lock.projectId ≠ request.projectId)
        .currentLockMismatch "current_lock.payload.project_id"
        "current lock belongs to a different project" ++ issueIf (!validDigest lock.lockDigest ||
          lock.payloadDigest ≠ some lock.lockDigest) .invalidDigest "current_lock.lock_digest"
        "current lock digest does not match its canonical payload"

def validateRequestAndRegistry (request : DomainPackResolutionRequest)
    (registry : DomainPackSupplyChainRegistry) : Issues :=
  reportAll [] (validateSchemas request registry ++ validateIds request registry ++
      validateRequirements semver request ++
      validateDigests request registry ++ validateRegistry request registry ++
      validateRoots semver request ++ validateCurrentLock request)

/-- A root of a request without issues names a valid coordinate and a
requirement. -/
theorem root_valid_of_no_issue (clean : validateRequestAndRegistry semver request registry = [])
    (member : root ∈ request.roots) : validCoordinate root.pack = true ∧ ∃ requirement,
      semver.parseRequirement root.versionRequirement = some requirement := by
  have reported := (reportAll_eq_nil.mp clean).2
  simp only [append_eq_nil_iff, validateRoots, flatMap_eq_nil_iff] at reported
  obtain ⟨⟨-, -, rootsClean⟩, -⟩ := reported
  obtain ⟨index, inside, rfl⟩ := List.mem_iff_getElem.mp member
  have rootClean := rootsClean (request.roots[index], index)
      (List.mk_mem_zipIdx_iff_getElem?.mpr (getElem?_eq_getElem inside))
  simp only [validateRootAt, issueIf, append_eq_nil_iff] at rootClean
  obtain ⟨⟨coordinate, requirement⟩, -⟩ := rootClean
  constructor
  · by_contra invalid
    simp [invalid] at coordinate
  · apply Option.isSome_iff_exists.mp
    by_contra missing
    rw [Option.not_isSome_iff_eq_none] at missing
    simp [missing] at requirement

abbrev Codes := List DomainPackResolutionIssueCode

def codeIf (condition : Bool) (code : DomainPackResolutionIssueCode) : Codes :=
  if condition then [code] else []

def codeSet (codes : Codes) : Codes :=
  [.unsupportedSchemaVersion, .invalidIdentity, .invalidDigest,
    .invalidVersionRequirement, .registryDigestMismatch,
    .registryRecordMissing, .registryRecordMismatch, .registryExpired,
    .registrySignatureInvalid, .publisherSignatureInvalid,
    .namespaceNotGranted, .revokedPackage, .explicitlyUntrusted,
    .duplicateVersionEquivocation, .missingRoot, .missingDependency,
    .incompatibleDependency, .dependencyCycle, .declaredConflict,
    .prereleaseNotExplicit, .currentLockMismatch, .resourceLimitExceeded,
    .compositionBlocked].filter fun code => codes.contains code

def validBinding (binding : DomainPackArtifactBinding) : Bool :=
  validDigest binding.rawSha256 && validDigest binding.canonicalSha256

def validateManifest (manifest : DomainPackManifest) (version : Version)
    (forgeCoreVersion : String) : Codes :=
  let forgeCore := semver.parseVersion forgeCoreVersion
  let packRequirement := semver.parseRequirement manifest.compatibility.packSchemaRequirement
  let coreRequirement := semver.parseRequirement manifest.compatibility.forgeCoreRequirement
  codeIf (semver.versionText version ≠ manifest.identity.version) .invalidVersionRequirement ++
    codeIf (packRequirement.isNone || coreRequirement.isNone ||
        manifest.dependencies.any (fun dependency =>
          (semver.parseRequirement dependency.versionRequirement).isNone) ||
        manifest.conflicts.any fun conflict =>
          (semver.parseRequirement conflict.versionRequirement).isNone)
      .invalidVersionRequirement ++
    codeIf (packRequirement.any (fun requirement =>
          !semver.accepts requirement semver.packSchema) ||
        coreRequirement.any fun requirement =>
          forgeCore.all fun version => !semver.accepts requirement version)
      .incompatibleDependency ++
    codeIf (maxDomainPackResolutionDependenciesPerPack < manifest.dependencies.length)
      .resourceLimitExceeded

def validatePackage (candidate : DomainPackResolutionCandidate) : Codes :=
  let manifest := candidate.input.manifest
  let package := candidate.package
  codeIf (!([candidate.input.manifestBinding, package.manifest,
            package.license].all validBinding) || !validDigest package.packageDigest ||
        !validDigest package.content.rawSha256 || !validDigest package.content.canonicalSha256 ||
        !package.fixtures.all validBinding) .invalidDigest ++ codeIf
      (package.manifest ≠ candidate.input.manifestBinding || package.content ≠ manifest.content ||
        package.license ≠ manifest.licenseText) .registryRecordMismatch

def validateCandidateShape (candidate : DomainPackResolutionCandidate)
    (forgeCoreVersion : String) : Codes :=
  let manifest := candidate.input.manifest
  let pack := candidate.input.contentPack
  codeIf (candidate.input.manifestSchemaVersion ≠ domainPackSchemaVersion ||
        candidate.input.contentSchemaVersion ≠ domainPackSchemaVersion) .unsupportedSchemaVersion ++
    codeIf (!validIdentity manifest.identity || pack.publisher ≠ manifest.identity.publisher ||
        pack.name ≠ manifest.identity.name || pack.version ≠ manifest.identity.version)
      .invalidIdentity ++
    match semver.parseVersion manifest.identity.version with
    | none => [.invalidVersionRequirement]
    | some version =>
      validateManifest semver manifest version forgeCoreVersion ++ validatePackage candidate

def sorted (values : List String) : List String :=
  values.insertionSort (· ≤ ·)

def recordMatchesCandidate (record : DomainPackRegistryPackageRecord)
    (candidate : DomainPackResolutionCandidate) : Bool :=
  let package := candidate.package
  let artifacts := record.artifacts
  record.identity = candidateIdentity candidate && record.packageDigest = package.packageDigest &&
    record.manifestDigest = package.manifest.rawSha256 &&
    record.contentDigest = package.content.rawSha256 &&
    record.licenseDigest = package.license.rawSha256 && sorted record.fixtureDigests =
      sorted (package.fixtures.map (·.rawSha256)) &&
    artifacts.manifest.binding = package.manifest &&
    artifacts.content.binding.artifactRef = package.content.contentRef &&
    artifacts.content.binding.rawSha256 = package.content.rawSha256 &&
    artifacts.content.binding.canonicalSha256 = package.content.canonicalSha256 &&
    artifacts.license.binding = package.license &&
    artifacts.fixtures.length = package.fixtures.length &&
    (artifacts.fixtures.zip package.fixtures).all (fun entry =>
      entry.1.binding = entry.2) &&
    validDigest record.recordDigest && validDigest record.packageDigest &&
    validDigest record.manifestDigest && validDigest record.contentDigest &&
    validDigest record.licenseDigest && record.fixtureDigests.all validDigest

/-- The text in front of the first `::`, and the text behind it. -/
def splitColons : List Char → List Char × Option (List Char)
  | [] => ([], none)
  | ':' :: ':' :: rest => ([], some rest)
  | first :: rest =>
    let parts := splitColons rest
    (first :: parts.1, parts.2)

def keyCoordinate (identity : String) : Option String :=
  match splitColons identity.toList with
  | (publisher, some rest) =>
    some (String.ofList publisher ++ "::" ++ String.ofList (splitColons rest).1)
  | (_, none) => none

def recordEquivocationKey (record : DomainPackRegistryPackageRecord) : String :=
  record.packageDigest ++ "|" ++ record.manifestDigest ++ "|" ++
    record.contentDigest ++ "|" ++ record.licenseDigest ++ "|" ++ record.recordDigest

def candidateEquivocationKey (candidate : DomainPackResolutionCandidate) : String :=
  candidate.package.packageDigest ++ "|" ++ candidate.package.manifest.rawSha256 ++ "|" ++
    candidate.package.content.rawSha256 ++ "|" ++ candidate.package.license.rawSha256 ++ "|" ++
    candidate.registryRecordDigest.getD ""

/-- The coordinates with a version that is published in two variants. -/
def equivocatedCoordinates (request : DomainPackResolutionRequest)
    (registry : DomainPackSupplyChainRegistry) : List String :=
  let byExact :=
    Multimap.pushAll (∅ : Std.ExtTreeMap String (List String)) (registry.packages.map (fun record =>
          (identityKey record.identity, recordEquivocationKey record)) ++
        request.candidates.map fun candidate =>
          (identityKey (candidateIdentity candidate), candidateEquivocationKey candidate))
  byExact.toList.filterMap fun entry =>
    if 1 < entry.2.dedup.length then keyCoordinate entry.1 else none

def recordOf (registry : DomainPackSupplyChainRegistry)
    (candidate : DomainPackResolutionCandidate) : Option DomainPackRegistryPackageRecord :=
  let recordByDigest : Std.ExtTreeMap String DomainPackRegistryPackageRecord :=
    .ofList (registry.packages.map fun record =>
      (record.recordDigest, record))
  candidate.registryRecordDigest.bind fun digest => recordByDigest[digest]?

/-- The registry was issued between the two times. -/
def issuedWithin (registry : DomainPackSupplyChainRegistry) (validFrom validUntil : Nat) : Bool :=
  validFrom ≤ registry.issuedAtUnix && registry.issuedAtUnix ≤ validUntil

def grantCovers (registry : DomainPackSupplyChainRegistry)
    (identity : DomainPackIdentity) (grant : DomainPackNamespaceGrant) : Bool :=
  grant.publisher = identity.publisher && namespaceIsGranted identity.namespaceId.value
      grant.namespacePrefix.value && issuedWithin registry grant.validFromUnix grant.validUntilUnix

def credentialCovers (registry : DomainPackSupplyChainRegistry) (identity : DomainPackIdentity)
    (credential : DomainPackPublisherCredential) : Bool :=
  credential.publisher = identity.publisher && credential.status = .active &&
    issuedWithin registry credential.validFromUnix credential.validUntilUnix

def registryReasons (registry : DomainPackSupplyChainRegistry)
    (candidate : DomainPackResolutionCandidate)
    (record : DomainPackRegistryPackageRecord) : Codes :=
  let identity := candidateIdentity candidate
  let grantById : Std.ExtTreeMap String DomainPackNamespaceGrant :=
    .ofList (registry.namespaceGrants.map fun grant =>
      (grant.grantId.value, grant))
  let credentialById : Std.ExtTreeMap String DomainPackPublisherCredential :=
    .ofList (registry.publisherCredentials.map fun credential =>
      (credential.credentialId.value, credential))
  codeIf (candidate.registryRecordDigest.any fun digest =>
        registry.revocations.contains digest)
      .revokedPackage ++
    codeIf (!recordMatchesCandidate record candidate) .registryRecordMismatch ++
    codeIf (!(grantById[record.namespaceGrantId.value]?.any (grantCovers registry identity)))
      .namespaceNotGranted ++
    codeIf (!(credentialById[record.publisherCredentialId.value]?.any
        (credentialCovers registry identity))) .registryRecordMismatch

/-- A candidate that passed admission, with its parsed version. -/
structure Admitted (Version : Type) where
  candidateIndex : Nat
  candidate : DomainPackResolutionCandidate
  record : DomainPackRegistryPackageRecord
  version : Version

variable (request : DomainPackResolutionRequest) (registry : DomainPackSupplyChainRegistry)

def candidateReasons (candidate : DomainPackResolutionCandidate) : Codes :=
  let identity := candidateIdentity candidate
  validateCandidateShape semver candidate request.forgeCoreVersion ++ codeIf
      ((equivocatedCoordinates request registry).contains (coordinateKey identity.coordinate))
      .duplicateVersionEquivocation ++
    match recordOf registry candidate with
    | none => [.registryRecordMissing]
    | some record => registryReasons registry candidate record

def admitCandidate (index : Nat) (candidate : DomainPackResolutionCandidate) :
    Option (Admitted Version) :=
  if (candidateReasons semver request registry candidate).isEmpty then
    match recordOf registry candidate,
        semver.parseVersion (candidateIdentity candidate).version with
    | some record, some version => some ⟨index, candidate, record, version⟩
    | _, _ => none
  else
    none

def consideredCandidates : List (DomainPackResolutionCandidate × Nat) :=
  (request.candidates.take maxDomainPackResolutionCandidates).zipIdx

def admittedCandidates : List (Admitted Version) :=
  (consideredCandidates request).filterMap fun entry =>
    admitCandidate semver request registry entry.2 entry.1

def Admitted.key (admitted : Admitted Version) : String :=
  coordinateKey (candidateIdentity admitted.candidate).coordinate

abbrev Universe (Version : Type) :=
  Std.ExtTreeMap String (List (Admitted Version))

def versionOrder (left right : Admitted Version) : Ordering :=
  (semver.compareVersion right.version left.version).then
    (compare (candidateOrderKey left.candidate) (candidateOrderKey right.candidate))

/-- `sort_by`, which keeps the order of equal items. -/
def sortBy {item : Type} (order : item → item → Ordering) (items : List item) : List item :=
  items.insertionSort fun left right => order left right ≠ .gt

def sortedByCoordinate : Universe Version :=
  (Multimap.pushAll (∅ : Universe Version)
    ((admittedCandidates semver request registry).map fun admitted =>
      (admitted.key, admitted))).map
    fun _ candidates => sortBy (versionOrder semver) candidates

def admittedByCoordinate : Universe Version :=
  (sortedByCoordinate semver request registry).map fun _ candidates =>
    candidates.take maxDomainPackResolutionVersionsPerCoordinate

def versionCountIssues : Issues :=
  (sortedByCoordinate semver request registry).toList.flatMap fun entry =>
    resourceIssueIf (maxDomainPackResolutionVersionsPerCoordinate < entry.2.length)
      ("candidates." ++ entry.1) "version count exceeds 64 for one coordinate"

/-- The candidate is beyond the versions that are kept of its coordinate. -/
def isTruncated (index : Nat) : Bool :=
  (sortedByCoordinate semver request registry).toList.any fun entry =>
    (entry.2.drop maxDomainPackResolutionVersionsPerCoordinate).any (·.candidateIndex = index)

def rejectionCodes (index : Nat) (candidate : DomainPackResolutionCandidate) : Codes :=
  codeSet (candidateReasons semver request registry candidate ++
      codeIf (isTruncated semver request registry index) .resourceLimitExceeded)

/-- The issues that stand before anything is searched. -/
def admissionIssues : Issues :=
  reportAll (validateRequestAndRegistry semver request registry)
    (versionCountIssues semver request registry)

variable {semver request registry}

variable {admitted : Admitted Version} {key : String}

theorem mem_admittedCandidates : admitted ∈ admittedCandidates semver request registry ↔
      admitted.candidateIndex < maxDomainPackResolutionCandidates ∧
      request.candidates[admitted.candidateIndex]? = some admitted.candidate ∧
      candidateReasons semver request registry admitted.candidate = [] ∧
      recordOf registry admitted.candidate = some admitted.record ∧
      semver.parseVersion (candidateIdentity admitted.candidate).version =
      some admitted.version := by
  rw [admittedCandidates, mem_filterMap]
  constructor
  · rintro ⟨⟨candidate, index⟩, member, found⟩
    rw [consideredCandidates, mk_mem_zipIdx_iff_getElem?, getElem?_take] at member
    rw [admitCandidate] at found
    split at member
    next within =>
      split at found
      next clean =>
        split at found
        next record version isRecord isVersion =>
          cases found
          exact ⟨within, member, List.isEmpty_iff.mp clean, isRecord, isVersion⟩
        next => cases found
      next => cases found
    next => cases member
  · rintro ⟨within, member, clean, isRecord, isVersion⟩
    refine ⟨(admitted.candidate, admitted.candidateIndex), ?_, ?_⟩
    · rw [consideredCandidates, mk_mem_zipIdx_iff_getElem?, getElem?_take, if_pos within, member]
    · rw [admitCandidate, clean, isRecord, isVersion]
      rfl

theorem mem_sortBy {item : Type} {order : item → item → Ordering}
    {items : List item} {found : item} : found ∈ sortBy order items ↔ found ∈ items :=
  (perm_insertionSort _ items).mem_iff

theorem mem_values_sortedByCoordinate :
    admitted ∈ Multimap.values (sortedByCoordinate semver request registry) key ↔
      admitted ∈ admittedCandidates semver request registry ∧ admitted.key = key := by
  rw [sortedByCoordinate, Multimap.values_map fun _ => rfl, mem_sortBy, Multimap.mem_values_pushAll]
  constructor
  · rintro (old | added)
    · simp [Multimap.values] at old
    · obtain ⟨other, member, same⟩ := List.mem_map.mp added
      cases same
      exact ⟨member, rfl⟩
  · rintro ⟨member, rfl⟩
    exact Or.inr (List.mem_map.mpr ⟨admitted, member, rfl⟩)

section

variable (within : versionCountIssues semver request registry = [])

include within

theorem length_le_of_no_version_issue
    (found : (key, candidates) ∈ (sortedByCoordinate semver request registry).toList) :
    candidates.length ≤ maxDomainPackResolutionVersionsPerCoordinate := by
  have clean := List.flatMap_eq_nil_iff.mp within (key, candidates) found
  by_contra many
  rw [not_le] at many
  simp [resourceIssueIf, issueIf, many] at clean

theorem not_isTruncated (index : Nat) : isTruncated semver request registry index = false := by
  rw [isTruncated, any_eq_false]
  intro entry member
  have short := length_le_of_no_version_issue within member
  rw [drop_eq_nil_of_le short]
  simp

/-- While no coordinate has too many versions, every admitted candidate can be
chosen. -/
theorem mem_values_admittedByCoordinate :
    admitted ∈ Multimap.values (admittedByCoordinate semver request registry) key ↔
      admitted ∈ admittedCandidates semver request registry ∧ admitted.key = key := by
  rw [← mem_values_sortedByCoordinate, admittedByCoordinate, Multimap.values_map fun _ => take_nil]
  cases looked : (sortedByCoordinate semver request registry)[key]? with
  | none => simp [Multimap.values, looked]
  | some candidates =>
    have short := length_le_of_no_version_issue within
        (Std.ExtTreeMap.mem_toList_iff_getElem?_eq_some.mpr looked)
    rw [Multimap.values_of_getElem? looked, take_of_length_le short]

theorem rejectionCodes_eq_nil (member : admitted ∈ admittedCandidates semver request registry) :
    rejectionCodes semver request registry admitted.candidateIndex admitted.candidate = [] := by
  obtain ⟨-, -, clean, -⟩ := mem_admittedCandidates.mp member
  rw [rejectionCodes, clean, not_isTruncated within]
  rfl

end

theorem admitted_valid (member : admitted ∈ admittedCandidates semver request registry) :
    validIdentity (candidateIdentity admitted.candidate) = true := by
  obtain ⟨-, -, clean, -⟩ := mem_admittedCandidates.mp member
  rw [candidateReasons, append_eq_nil_iff, append_eq_nil_iff] at clean
  obtain ⟨⟨shape, -⟩, -⟩ := clean
  rw [validateCandidateShape, append_eq_nil_iff, append_eq_nil_iff] at shape
  obtain ⟨⟨-, identity⟩, -⟩ := shape
  by_contra invalid
  have reported : validIdentity admitted.candidate.input.manifest.identity =
      false := Bool.eq_false_iff.mpr invalid
  simp [codeIf, reported] at identity

end Admission

end ForgeCore.DomainPacks
