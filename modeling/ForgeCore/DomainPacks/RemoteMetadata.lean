import ForgeCore.DomainPacks.Contract

/-!
# Remote metadata

The checks on mirrors, artifact descriptors and package records that come
from a registry.
-/

namespace ForgeCore.DomainPacks

inductive DomainPackRemoteAcquisitionContractError where
  | invalidIdentifier (path : String)
  | invalidDigest (path : String)
  | invalidLocation (path : String)
  | duplicateArtifact (path : String)
  | duplicateMirror (mirrorId : String)
  | artifactDescriptorSetMismatch (path : String)
deriving DecidableEq, Repr

abbrev ContractCheck := Except DomainPackRemoteAcquisitionContractError Unit

def maxDomainPackRemoteMirrors : Nat := 32

def maxDomainPackRemoteArtifactsPerPackage : Nat := 256

def refuseIf (condition : Bool)
    (error : DomainPackRemoteAcquisitionContractError) : ContractCheck :=
  if condition then .error error else .ok ()

def checkEach {item : Type} (check : Nat → item → ContractCheck)
    (items : List item) : ContractCheck :=
  items.zipIdx.forM fun entry => check entry.2 entry.1

def requiredId (value : StableId) (path : String) : ContractCheck :=
  refuseIf (Text.trim value.value).isEmpty (.invalidIdentifier path)

def requireDigest (value path : String) : ContractCheck :=
  refuseIf (!Digest.isSha256Token value) (.invalidDigest path)

def isAsciiControl (byte : UInt8) : Bool := byte < 32 || byte = 127

def isDotPart (part : String) : Bool :=
  part.isEmpty || part = "." || part = ".."

def validateHttpsBaseUrl (value path : String) : ContractCheck :=
  match Digest.stripPrefix? "https://" value with
  | none => .error (.invalidLocation path)
  | some remainder => do
    refuseIf (remainder.isEmpty || (Text.asBytes value).any isAsciiControl ||
        value.toList.any (['@', '#', '?', '\\'].contains ·)) (.invalidLocation path)
    match Text.split (· == '/') remainder with
    | [] => .error (.invalidLocation path)
    | host :: parts => refuseIf (host.isEmpty || parts.any isDotPart) (.invalidLocation path)

def validateRepoPath (path : RepoPath) (field : String) : ContractCheck :=
  let chars := path.value.toList
  refuseIf (path.value.isEmpty || chars.head? = some '/' ||
      chars.head? = some '\\' || chars.contains '\\' ||
      (Text.asBytes path.value).any isAsciiControl ||
      (Text.split (· == '/') path.value).any isDotPart) (.invalidLocation field)

def validateContentAddressedObjectPath (path : RepoPath)
    (rawSha256 field : String) : ContractCheck := do
  validateRepoPath path field
  requireDigest rawSha256 field
  let hex := (Digest.stripPrefix? "sha256:" rawSha256).getD ""
  refuseIf (path.value ≠ "objects/sha256/" ++ hex) (.invalidLocation field)

section ContentAddress

open List Text Digest

/-- The place of an object in the content-addressed store. -/
def contentAddress (bytes : List UInt8) : RepoPath :=
  ⟨"objects/sha256/" ++ String.ofList (hexText bytes)⟩

theorem contentAddress_inj (same : contentAddress first = contentAddress second) :
    hexText first = hexText second := by
  have chars := congrArg (fun path => path.value.toList) same
  simp only [contentAddress, String.toList_append, String.toList_ofList] at chars
  exact append_cancel_left chars

theorem contentAddress_parts (bytes : List UInt8) :
    Text.split (· == '/') (contentAddress bytes).value =
      ["objects", "sha256", String.ofList (hexText bytes)] := by
  have clean : ∀ digit ∈ hexText bytes, (digit == '/') = false := by
    intro digit member
    obtain ⟨value, small, rfl⟩ := exists_digit_of_mem_hexText member
    interval_cases value <;> decide
  have chars : (contentAddress bytes).value.toList =
      "objects".toList ++ '/' :: ("sha256".toList ++ '/' :: hexText bytes) := by
    simp [contentAddress]
  have marked (before after : List Char) : splitChars (· == '/') (before ++ '/' :: after) =
        splitChars (· == '/') before ++ splitChars (· == '/') after :=
    splitChars_append rfl before after
  have names : splitChars (· == '/') "objects".toList = ["objects".toList] ∧
      splitChars (· == '/') "sha256".toList = ["sha256".toList] := by
    decide +kernel
  rw [Text.split, chars, marked, marked, splitChars_clean clean, names.1, names.2]
  simp

theorem contentAddress_plain (bytes : List UInt8) :
    (asBytes (contentAddress bytes).value).any isAsciiControl = false ∧
      (contentAddress bytes).value.toList.contains '\\' = false := by
  have plain : ∀ char ∈ (contentAddress bytes).value.toList,
      (String.utf8EncodeChar char).any isAsciiControl = false ∧ char ≠ '\\' := by
    intro char member
    simp only [contentAddress, String.toList_append, String.toList_ofList, mem_append] at member
    rcases member with fixed | digit
    · have plainly : "objects/sha256/".toList.all (fun char =>
            !(String.utf8EncodeChar char).any isAsciiControl && char != '\\') = true := by
        decide +kernel
      simpa using List.all_eq_true.mp plainly char fixed
    · obtain ⟨value, small, rfl⟩ := exists_digit_of_mem_hexText digit
      interval_cases value <;> decide
  constructor
  · rw [asBytes, any_flatMap, any_eq_false]
    intro char member
    simp [(plain char member).1]
  · rw [← Bool.not_eq_true, contains_iff_mem]
    intro member
    exact (plain _ member).2 rfl

variable {bytes : List UInt8}

theorem hexText_not_dot (length : bytes.length = 32) :
    isDotPart (String.ofList (hexText bytes)) = false := by
  have long := length_hexText bytes
  have apart (part : String) (short : part.toList.length < 64) :
      String.ofList (hexText bytes) ≠ part := by
    rintro rfl
    rw [String.toList_ofList] at short
    omega
  simp [isDotPart, apart "" (by decide), apart "." (by decide), apart ".." (by decide)]

/-- An object at the address of its digest is where the check looks for
it. -/
theorem validateContentAddressedObjectPath_contentAddress
    (length : bytes.length = 32) (field : String) :
    validateContentAddressedObjectPath (contentAddress bytes)
      (formatSha256 bytes) field = .ok () := by
  obtain ⟨controls, slashes⟩ := contentAddress_plain bytes
  have repoPath : validateRepoPath (contentAddress bytes) field = .ok () := by
    have head : (contentAddress bytes).value.toList.head? = some 'o' := by
      simp [contentAddress]
    rw [validateRepoPath, contentAddress_parts]
    simp only [head, controls, slashes]
    simp [refuseIf, hexText_not_dot length, contentAddress]
    decide +kernel
  have named : (stripPrefix? "sha256:" (formatSha256 bytes)).getD "" =
        String.ofList (hexText bytes) := by
    rw [formatSha256, stripPrefix?_append]
    rfl
  rw [validateContentAddressedObjectPath, repoPath, Checked.ok_bind]
  simp [requireDigest, isSha256Token_formatSha256 length, refuseIf, named,
    contentAddress, Checked.ok_bind]

end ContentAddress

def validateMirrorTransport (transport : DomainPackRegistryMirrorTransport)
    (path : String) : ContractCheck :=
  match transport with
  | .https baseUrl => validateHttpsBaseUrl baseUrl (path ++ ".base_url")
  | .operatorProvisionedLocal locationId => requiredId locationId (path ++ ".location_id")

def validateArtifactDescriptor (descriptor : DomainPackRemoteArtifactDescriptor) (path : String) :
    ContractCheck := do
  validateRepoPath descriptor.binding.artifactRef (path ++ ".binding.artifact_ref")
  requireDigest descriptor.binding.rawSha256 (path ++ ".binding.raw_sha256")
  requireDigest descriptor.binding.canonicalSha256 (path ++ ".binding.canonical_sha256")
  validateContentAddressedObjectPath descriptor.objectPath
    descriptor.binding.rawSha256 (path ++ ".object_path")

def packageDescriptors (artifacts : DomainPackRegistryArtifactSet) :
    List DomainPackRemoteArtifactDescriptor :=
  artifacts.manifest :: artifacts.content :: artifacts.license :: artifacts.fixtures

def validateDescriptorAt (descriptors : List DomainPackRemoteArtifactDescriptor) (path : String)
    (index : Nat) (descriptor : DomainPackRemoteArtifactDescriptor) : ContractCheck := do
  let earlier := descriptors.take index
  validateArtifactDescriptor descriptor (path ++ s!"[{index}]")
  refuseIf (earlier.any (·.binding.artifactRef = descriptor.binding.artifactRef))
    (.duplicateArtifact (path ++ ".binding.artifact_ref"))
  refuseIf (earlier.any (·.objectPath = descriptor.objectPath))
    (.duplicateArtifact (path ++ ".object_path"))

def validateArtifactSet (artifacts : DomainPackRegistryArtifactSet)
    (record : DomainPackRegistryPackageRecord) (path : String) : ContractCheck := do
  let descriptors := packageDescriptors artifacts
  refuseIf (maxDomainPackRemoteArtifactsPerPackage < descriptors.length)
    (.artifactDescriptorSetMismatch path)
  refuseIf (artifacts.manifest.kind ≠ .manifest || artifacts.content.kind ≠ .content ||
      artifacts.license.kind ≠ .license || artifacts.fixtures.any (·.kind ≠ .fixture))
    (.artifactDescriptorSetMismatch path)
  checkEach (validateDescriptorAt descriptors path) descriptors
  refuseIf (record.manifestDigest ≠ artifacts.manifest.binding.rawSha256 ||
      record.contentDigest ≠ artifacts.content.binding.rawSha256 ||
      record.licenseDigest ≠ artifacts.license.binding.rawSha256 ||
      record.fixtureDigests.length ≠ artifacts.fixtures.length ||
      (record.fixtureDigests.zip artifacts.fixtures).any fun entry =>
        entry.1 ≠ entry.2.binding.rawSha256)
    (.artifactDescriptorSetMismatch path)

def validateMirrorAt (mirrors : List DomainPackRegistryMirror)
    (index : Nat) (mirror : DomainPackRegistryMirror) : ContractCheck := do
  let path := s!"domain_pack_supply_chain_registry.mirrors[{index}]"
  requiredId mirror.mirrorId (path ++ ".mirror_id")
  refuseIf ((mirrors.take index).any (·.mirrorId = mirror.mirrorId))
    (.duplicateMirror mirror.mirrorId.value)
  validateMirrorTransport mirror.transport (path ++ ".transport")

def validatePackageRecordAt (index : Nat)
    (record : DomainPackRegistryPackageRecord) : ContractCheck := do
  let path := s!"domain_pack_supply_chain_registry.packages[{index}]"
  requireDigest record.packageDigest (path ++ ".package_digest")
  requireDigest record.manifestDigest (path ++ ".manifest_digest")
  requireDigest record.contentDigest (path ++ ".content_digest")
  requireDigest record.licenseDigest (path ++ ".license_digest")
  requireDigest record.recordDigest (path ++ ".record_digest")
  checkEach (fun fixture digest =>
      requireDigest digest (path ++ s!".fixture_digests[{fixture}]"))
    record.fixtureDigests
  validateArtifactSet record.artifacts record (path ++ ".artifacts")

def validateRemoteAcquisitionMetadata
    (registry : DomainPackSupplyChainRegistry) : ContractCheck := do
  refuseIf (maxDomainPackRemoteMirrors < registry.mirrors.length)
    (.invalidLocation "domain_pack_supply_chain_registry.mirrors")
  checkEach (validateMirrorAt registry.mirrors) registry.mirrors
  checkEach validatePackageRecordAt registry.packages

end ForgeCore.DomainPacks
