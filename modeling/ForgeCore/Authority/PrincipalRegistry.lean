import ForgeCore.Common
import ForgeCore.Library.Checked
import ForgeCore.Library.Digest
import ForgeCore.Library.Ed25519
import ForgeCore.Library.Utf8

/-!
# The registry of principals

`AuthorizedPrincipalRegistry::from_document`.  Keys are compared as texts and
used as bytes.  Two texts stand for the same bytes when they differ in case, or
in a plus sign in the place of a leading zero.
-/

namespace ForgeCore.Authority

open List Text Checked Digest Ed25519

inductive HexDecodeError where
  | oddLength (len : Nat)
  | invalidNibble
  -- The slice ends inside a character, and the code panics.
  | sliced
deriving DecidableEq, Repr

def hexDecodePairs : List UInt8 → Except HexDecodeError (List UInt8)
  | high :: low :: rest =>
    if rest.head?.any isContinuation then .error .sliced
    else
      match fromStrRadix16 high low with
      | none => .error .invalidNibble
      | some value => (hexDecodePairs rest).map (UInt8.ofNat value :: ·)
  | _ => .ok []

def hexDecode (value : String) : Except HexDecodeError (List UInt8) :=
  if (asBytes value).length % 2 ≠ 0 then .error (.oddLength (asBytes value).length)
  else hexDecodePairs (asBytes value)

inductive KeyDecodeError where
  | hex (error : HexDecodeError)
  | length (found : Nat)
  | invalidKey
deriving DecidableEq, Repr

def decodeVerifyingKey (verifier : Verifier) (value : String) :
    Except KeyDecodeError (List UInt8) := do
  let decoded ← (hexDecode value).mapError .hex
  if decoded.length ≠ 32 then .error (.length decoded.length)
  else if verifier.isKey decoded then .ok decoded
  else .error .invalidKey

inductive CallerRole where
  | human
  | driver
  | worker
  | runtime
  | unknown
deriving DecidableEq, Repr

inductive PrincipalCredentialStatus where
  | active
  | revoked
deriving DecidableEq, Repr

/-- A credential of one principal. -/
structure PrincipalRegistryEntry where
  credentialId : String
  principalId : PrincipalId
  agentId : StableId
  role : CallerRole
  publicKeyHex : String
  allowedTools : List StableId
  authorityGrants : List StableId
  status : PrincipalCredentialStatus
deriving DecidableEq, Repr

structure PrincipalRegistryDocument where
  schemaVersion : String
  audience : String
  principals : List PrincipalRegistryEntry
deriving DecidableEq, Repr

inductive PrincipalRegistryIssueCode where
  | emptyAudience
  | emptyRegistry
  | emptyCredentialId
  | emptyPrincipalId
  | emptyAgentId
  | unknownRole
  | invalidPublicKey
  | emptyAllowedTools
  | unknownTool
  | emptyAuthorityGrants
  | duplicateCredentialId
  | duplicatePublicKey
  | duplicateAllowedTool
  | duplicateAuthorityGrant
deriving DecidableEq, Repr

abbrev PrincipalRegistryIssue := Checked.Issue PrincipalRegistryIssueCode

/-- Why a document is not accepted as a registry. -/
inductive PrincipalRegistryError where
  | unsupportedSchemaVersion (found : String)
  | invalid (issues : List PrincipalRegistryIssue)
  | panicked
deriving DecidableEq, Repr

/-- A registry that has passed its checks. -/
structure AuthorizedPrincipalRegistry where
  audience : String
  principals : List PrincipalRegistryEntry
deriving DecidableEq, Repr

def validateStableIdsFrom (path : String) (duplicateCode : PrincipalRegistryIssueCode) :
    Nat → Std.ExtTreeSet String → List StableId → List PrincipalRegistryIssue
  | _, _, [] => []
  | index, seen, value :: rest =>
    issueIf (isBlank value.value || seen.contains value.value) duplicateCode
      (path ++ "[" ++ toString index ++ "]") "values must be non-empty and unique" ++
    validateStableIdsFrom path duplicateCode (index + 1)
      (if isBlank value.value then seen else seen.insert value.value) rest

def validateStableIdList (values : List StableId) (path : String)
    (emptyCode duplicateCode : PrincipalRegistryIssueCode) : List PrincipalRegistryIssue :=
  issueIf values.isEmpty emptyCode path "list must not be empty" ++
    validateStableIdsFrom path duplicateCode 0 ∅ values

section Validation

-- The names of the Command Surface, and the key decoder of the library.
variable (commands : List String) (verifier : Verifier)

def entryIssues (base : String) (credentials : Std.ExtTreeSet String)
    (entry : PrincipalRegistryEntry) : List PrincipalRegistryIssue :=
  (if isBlank entry.credentialId then
    [⟨.emptyCredentialId, base ++ ".credential_id", "credential_id must not be empty"⟩]
  else
    issueIf (credentials.contains entry.credentialId) .duplicateCredentialId
      (base ++ ".credential_id") "credential_id must be unique") ++
  issueIf (isBlank entry.principalId.value) .emptyPrincipalId (base ++ ".principal_id")
    "principal_id must not be empty" ++
  issueIf (isBlank entry.agentId.value) .emptyAgentId (base ++ ".agent_id")
    "agent_id must not be empty" ++
  issueIf (entry.role = .unknown) .unknownRole (base ++ ".role")
    "unknown role cannot authorize mutation"

def listIssues (base : String) (entry : PrincipalRegistryEntry) : List PrincipalRegistryIssue :=
  validateStableIdList entry.allowedTools (base ++ ".allowed_tools") .emptyAllowedTools
    .duplicateAllowedTool ++
  (entry.allowedTools.zipIdx.flatMap fun (tool, index) =>
    issueIf (!commands.contains tool.value) .unknownTool
      (base ++ ".allowed_tools[" ++ toString index ++ "]")
      "tool is not present in the shared Command Surface") ++
  validateStableIdList entry.authorityGrants (base ++ ".authority_grants") .emptyAuthorityGrants
    .duplicateAuthorityGrant

/-- The issues of one key and the keys seen, or nothing when the code panics. -/
def checkKey (path : String) (keys : Std.ExtTreeSet String) (key : String) :
    Option (List PrincipalRegistryIssue × Std.ExtTreeSet String) :=
  match decodeVerifyingKey verifier key with
  | .error (.hex .sliced) => none
  | .error _ =>
    some ([⟨.invalidPublicKey, path,
      "public_key_hex must encode a valid 32-byte ed25519 key"⟩], keys)
  | .ok _ =>
    some (issueIf (keys.contains key) .duplicatePublicKey path
      "public keys must not authorize multiple credentials", keys.insert key)

def validateEntries : Nat → Std.ExtTreeSet String → Std.ExtTreeSet String →
    List PrincipalRegistryEntry → Option (List PrincipalRegistryIssue)
  | _, _, _, [] => some []
  | index, credentials, keys, entry :: rest => do
    let base := "principal_registry.principals[" ++ toString index ++ "]"
    let known := if isBlank entry.credentialId then credentials
      else credentials.insert entry.credentialId
    let (keyIssues, seen) ← checkKey verifier (base ++ ".public_key_hex") keys
      (toAsciiLowercase entry.publicKeyHex)
    let others ← validateEntries (index + 1) known seen rest
    return entryIssues base credentials entry ++ keyIssues ++ listIssues commands base entry ++
      others

def validateContract (document : PrincipalRegistryDocument) :
    Option (List PrincipalRegistryIssue) :=
  (validateEntries commands verifier 0 ∅ ∅ document.principals).map fun entries =>
    issueIf (isBlank document.audience) .emptyAudience "principal_registry.audience"
      "audience must not be empty" ++
    issueIf document.principals.isEmpty .emptyRegistry "principal_registry.principals"
      "at least one principal is required" ++ entries

def fromDocument (document : PrincipalRegistryDocument) :
    Except PrincipalRegistryError AuthorizedPrincipalRegistry :=
  if document.schemaVersion ≠ "0.1" then
    .error (.unsupportedSchemaVersion document.schemaVersion)
  else
    match validateContract commands verifier document with
    | none => .error .panicked
    | some [] => .ok ⟨document.audience, document.principals⟩
    | some issues => .error (.invalid issues)

end Validation

def lowerByte (byte : UInt8) : UInt8 :=
  if 65 ≤ byte ∧ byte ≤ 90 then byte + 32 else byte

/-- Two digits for every byte: in lower case, and zero for a plus sign. -/
def plainSpelling : List UInt8 → List UInt8
  | high :: low :: rest =>
    (if high = 43 then 48 else lowerByte high) :: lowerByte low :: plainSpelling rest
  | _ => []

def spelledDigit (value : Nat) : UInt8 :=
  UInt8.ofNat (if value < 10 then value + 48 else value + 87)

theorem spelledDigit_of_toDigit16 (byte : UInt8) :
    (toDigit16 byte).all (fun value => value < 16 && spelledDigit value == lowerByte byte) =
      true := by
  revert byte
  decide +kernel

theorem spelledDigit_injective :
    ∀ first < 16, ∀ second < 16, spelledDigit first = spelledDigit second → first = second := by
  decide

theorem toDigit16_eq_some (digit : toDigit16 byte = some value) :
    value < 16 ∧ lowerByte byte = spelledDigit value := by
  have spelled := spelledDigit_of_toDigit16 byte
  rw [digit, Option.all_some, Bool.and_eq_true, decide_eq_true_eq, beq_iff_eq] at spelled
  exact ⟨spelled.1, spelled.2.symm⟩

variable {high low : UInt8} {value : Nat}

theorem fromStrRadix16_eq_some (pair : fromStrRadix16 high low = some value) :
    ∃ first < 16, ∃ second < 16, value = 16 * first + second ∧
      (if high = 43 then 48 else lowerByte high) = spelledDigit first ∧
        lowerByte low = spelledDigit second := by
  unfold fromStrRadix16 at pair
  split at pair
  · next plus =>
    obtain ⟨small, spelled⟩ := toDigit16_eq_some pair
    exact ⟨0, by omega, value, small, by omega, by rw [if_pos plus]; rfl, spelled⟩
  · next digit =>
    simp only [Option.bind_eq_bind, Option.bind_eq_some_iff] at pair
    obtain ⟨first, firstDigit, second, secondDigit, last⟩ := pair
    obtain ⟨firstSmall, firstSpelled⟩ := toDigit16_eq_some firstDigit
    obtain ⟨secondSmall, secondSpelled⟩ := toDigit16_eq_some secondDigit
    exact ⟨first, firstSmall, second, secondSmall, (Option.some.inj last).symm,
      by rw [if_neg digit, firstSpelled], secondSpelled⟩

def spelledByte (byte : UInt8) : List UInt8 :=
  [spelledDigit (byte.toNat / 16), spelledDigit (byte.toNat % 16)]

theorem plainSpelling_eq (decodes : hexDecodePairs bytes = .ok decoded) :
    plainSpelling bytes = decoded.flatMap spelledByte := by
  fun_induction plainSpelling bytes generalizing decoded with
  | case1 high low rest ih =>
    unfold hexDecodePairs at decodes
    split at decodes
    · cases decodes
    split at decodes
    · cases decodes
    · next value pair =>
      obtain ⟨others, restDecodes, rfl⟩ := Checked.map_eq_ok.mp decodes
      obtain ⟨first, firstSmall, second, secondSmall, rfl, highSpelled, lowSpelled⟩ :=
        fromStrRadix16_eq_some pair
      have size : (UInt8.ofNat (16 * first + second)).toNat = 16 * first + second := by
        rw [UInt8.toNat_ofNat']
        omega
      have firstDigit : (16 * first + second) / 16 = first := by omega
      have secondDigit : (16 * first + second) % 16 = second := by omega
      rw [ih restDecodes, highSpelled, lowSpelled, flatMap_cons, spelledByte, size,
        firstDigit, secondDigit]
      rfl
  | case2 bytes short =>
    unfold hexDecodePairs at decodes
    split at decodes
    · exact absurd rfl (short _ _ _)
    · cases decodes
      rfl

theorem spelledByte_injective (same : spelledByte first = spelledByte second) : first = second := by
  simp only [spelledByte, List.cons.injEq, and_true] at same
  have firstSmall := first.toNat_lt
  have secondSmall := second.toNat_lt
  have highs := spelledDigit_injective _ (by omega) _ (by omega) same.1
  have lows := spelledDigit_injective _ (by omega) _ (by omega) same.2
  exact UInt8.toNat_inj.mp (by omega)

theorem flatMap_spelledByte_injective {first second : List UInt8}
    (same : first.flatMap spelledByte = second.flatMap spelledByte) : first = second := by
  induction first generalizing second with
  | nil =>
    cases second with
    | nil => rfl
    | cons byte rest => simp [spelledByte] at same
  | cons byte rest ih =>
    cases second with
    | nil => simp [spelledByte] at same
    | cons other others =>
      rw [flatMap_cons, flatMap_cons] at same
      obtain ⟨head, tail⟩ := append_inj same rfl
      rw [spelledByte_injective head, ih tail]

theorem hexDecodePairs_of_key (decoded : decodeVerifyingKey verifier text = .ok key) :
    hexDecodePairs (asBytes text) = .ok key := by
  obtain ⟨bytes, decodes, checked⟩ := Checked.bind_eq_ok.mp decoded
  have same : bytes = key := by
    split_ifs at checked
    exact Except.ok.inj checked
  rw [← same]
  unfold hexDecode at decodes
  split at decodes
  · cases decodes
  · cases known : hexDecodePairs (asBytes text) with
    | error failure =>
      rw [known] at decodes
      cases decodes
    | ok found =>
      rw [known] at decodes
      cases decodes
      rfl

/-- Texts that decode stand for the same bytes exactly when they are spelled
alike. -/
theorem plainSpelling_eq_iff (firstKey : decodeVerifyingKey verifier first = .ok left)
    (secondKey : decodeVerifyingKey verifier second = .ok right) :
    left = right ↔ plainSpelling (asBytes first) = plainSpelling (asBytes second) := by
  rw [plainSpelling_eq (hexDecodePairs_of_key firstKey),
    plainSpelling_eq (hexDecodePairs_of_key secondKey)]
  exact ⟨fun same => by rw [same], flatMap_spelledByte_injective⟩

section Registry

variable {commands : List String} {verifier : Verifier} {index : Nat}
  {credentials keys : Std.ExtTreeSet String} {entries : List PrincipalRegistryEntry}

def PrincipalRegistryEntry.key (verifier : Verifier) (entry : PrincipalRegistryEntry) :
    Except KeyDecodeError (List UInt8) :=
  decodeVerifyingKey verifier (toAsciiLowercase entry.publicKeyHex)

theorem keys_decode
    (clean : validateEntries commands verifier index credentials keys entries = some []) :
    ∀ entry ∈ entries, ∃ key, entry.key verifier = .ok key := by
  induction entries generalizing index credentials keys with
  | nil => simp
  | cons entry rest ih =>
    simp only [validateEntries, Option.bind_eq_bind, Option.bind_eq_some_iff, Prod.exists] at clean
    obtain ⟨keyIssues, seen, checked, others, restClean, last⟩ := clean
    simp only [Option.pure_def, Option.some.injEq, append_eq_nil_iff] at last
    obtain ⟨⟨⟨-, noKeyIssue⟩, -⟩, rfl⟩ := last
    refine List.forall_mem_cons.mpr ⟨?_, ih restClean⟩
    unfold checkKey at checked
    split at checked
    · cases checked
    · cases checked
      cases noKeyIssue
    · next key decoded => exact ⟨key, decoded⟩

/-- In an accepted registry no two entries have the same key exactly when no
two of their texts are spelled alike. -/
theorem one_key_one_credential_iff
    (commands : List String)
    (verifier : Verifier)
    (document : PrincipalRegistryDocument)
    {registry : AuthorizedPrincipalRegistry}
    (accepted : fromDocument commands verifier document = .ok registry) :
    registry.principals = document.principals ∧
    (∀ entry ∈ document.principals, ∃ key, entry.key verifier = .ok key) ∧
    (document.principals.Pairwise (fun first second =>
        first.key verifier ≠ second.key verifier) ↔
      document.principals.Pairwise fun first second =>
        plainSpelling (asBytes (toAsciiLowercase first.publicKeyHex)) ≠
          plainSpelling (asBytes (toAsciiLowercase second.publicKeyHex))) := by
  unfold fromDocument at accepted
  split at accepted
  · cases accepted
  split at accepted
  · cases accepted
  · next clean =>
    cases accepted
    obtain ⟨entries, valid, last⟩ := Option.map_eq_some_iff.mp clean
    obtain ⟨-, rfl⟩ := List.append_eq_nil_iff.mp last
    have decode := keys_decode valid
    refine ⟨rfl, decode, Pairwise.iff_of_mem ?_⟩
    intro first second firstIn secondIn
    obtain ⟨left, firstKey⟩ := decode first firstIn
    obtain ⟨right, secondKey⟩ := decode second secondIn
    rw [ne_eq, ne_eq, ← plainSpelling_eq_iff firstKey secondKey, firstKey, secondKey,
      Except.ok.injEq]
  · cases accepted

end Registry

namespace Sample

/-- The public key of the first test vector of RFC 8032. -/
def key : List UInt8 :=
  [0xd7, 0x5a, 0x98, 0x01, 0x82, 0xb1, 0x0a, 0xb7, 0xd5, 0x4b, 0xfe, 0xd3, 0xc9, 0x64, 0x07, 0x3a,
    0x0e, 0xe1, 0x72, 0xf3, 0xda, 0xa6, 0x23, 0x25, 0xaf, 0x02, 0x1a, 0x68, 0xf7, 0x07, 0x51, 0x1a]

/-- The public key of the second one. -/
def otherKey : List UInt8 :=
  [0x3d, 0x40, 0x17, 0xc3, 0xe8, 0x43, 0x89, 0x5a, 0x92, 0xb7, 0x0a, 0xa7, 0x4d, 0x1b, 0x7e, 0xbc,
    0x9c, 0x98, 0x2c, 0xcf, 0x2e, 0xc4, 0x96, 0x8c, 0xc0, 0xcd, 0x55, 0xf1, 0x2a, 0xf4, 0x66, 0x0c]

def verifier : Verifier := ⟨fun bytes => bytes = key || bytes = otherKey, fun _ _ _ => false⟩

def entry (credentialId publicKeyHex : String) : PrincipalRegistryEntry :=
  ⟨credentialId, ⟨"principal"⟩, ⟨"agent"⟩, .worker, publicKeyHex, [⟨"execute-operation"⟩],
    [⟨"operation.execute"⟩], .active⟩

def plain : PrincipalRegistryEntry :=
  entry "first" "d75a980182b10ab7d54bfed3c964073a0ee172f3daa62325af021a68f707511a"

def other : PrincipalRegistryEntry :=
  entry "second" "3d4017c3e843895a92b70aa74d1b7ebc9c982ccf2ec4968cc0cd55f12af4660c"

/-- The first key with a plus sign in the place of a zero. -/
def signed : PrincipalRegistryEntry :=
  entry "second" "d75a98+182b10ab7d54bfed3c964073a0ee172f3daa62325af021a68f707511a"

end Sample

/-- Two texts of one key are accepted for two credentials. -/
theorem one_key_two_credentials : fromDocument ["execute-operation"] Sample.verifier
        ⟨"0.1", "host", [Sample.plain, Sample.signed]⟩ =
      .ok ⟨"host", [Sample.plain, Sample.signed]⟩ ∧
    Sample.plain.key Sample.verifier = .ok Sample.key ∧
      Sample.signed.key Sample.verifier = .ok Sample.key := by
  decide +kernel

/-- Two credentials with a key each. -/
theorem one_key_one_credential_iff_two :
    [Sample.plain, Sample.other].Pairwise fun first second =>
      first.key Sample.verifier ≠ second.key Sample.verifier := by
  have accepted : fromDocument ["execute-operation"] Sample.verifier
        ⟨"0.1", "host", [Sample.plain, Sample.other]⟩ =
      .ok ⟨"host", [Sample.plain, Sample.other]⟩ := by
    decide +kernel
  apply (one_key_one_credential_iff _ _ _ accepted).2.2.mpr
  decide +kernel

end ForgeCore.Authority
