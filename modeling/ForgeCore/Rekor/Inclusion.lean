import ForgeCore.Library.Digest
import ForgeCore.Library.Merkle

/-!
# Inclusion proofs

`verify_merkle_inclusion` works on the texts of hashes.  Here it is set against
the tree hash of RFC 6962 over the hashes themselves.
-/

namespace ForgeCore.Rekor

open Text Digest

def normalizeSha256Display (value : String) : String :=
  toAsciiLowercase ((stripPrefix? "sha256:" (trim value)).getD (trim value))

/-- `decode_hex`, on texts that were lowered before. -/
def decodeHex (value : String) : Option (List UInt8) :=
  if (asBytes value).length % 2 ≠ 0 then none
  else decodePairs (asBytes value)

def hexToBytes (value : String) : Option (List UInt8) :=
  decodeHex (normalizeSha256Display value)

def constantTimeEqHex (left right : String) : Bool :=
  match hexToBytes left, hexToBytes right with
  | some first, some second => first = second
  | _, _ => false

def hexBytes (content : List UInt8) : String :=
  String.ofList (hexText content)

section Verifier

variable (sha256 : Sha256)

def hexSha256 (content : List UInt8) : String :=
  hexBytes (sha256 content).toList

def hashMerkleNode (left right : String) : String :=
  match hexToBytes left, hexToBytes right with
  | some leftBytes, some rightBytes => hexSha256 sha256 (1 :: (leftBytes ++ rightBytes))
  | _, _ => ""

def verifyMerkleInclusion (leafHash : String) (hashes : List String)
    (logIndex treeSize : Nat) (rootHash : String) : Bool :=
  if treeSize = 0 || treeSize ≤ logIndex then
    false
  else if treeSize = 1 then
    hashes.isEmpty && constantTimeEqHex leafHash rootHash
  else
    constantTimeEqHex (Merkle.walk (hashMerkleNode sha256) hashes leafHash logIndex (treeSize - 1))
      rootHash

/-! ## The tree of RFC 6962 -/

abbrev Hash := Vector UInt8 32

def nodeHash (left right : Hash) : Hash :=
  sha256 (1 :: (left.toList ++ right.toList))

def treeRoot (leaves : List Hash) : Hash :=
  Merkle.root (nodeHash sha256) (sha256 []) leaves

def auditPath (index : Nat) (leaves : List Hash) : List Hash :=
  Merkle.path (nodeHash sha256) (sha256 []) index leaves

end Verifier

/-- The text is a hash in hex, with or without its prefix. -/
def Denotes (text : String) (hash : Hash) : Prop :=
  hexToBytes text = some hash.toList

/-- Every entry of a proof is a hash. -/
def WellFormed (hashes : List String) : Prop :=
  ∀ entry ∈ hashes, ∃ hash, Denotes entry hash

/-- `char::is_ascii_hexdigit`. -/
def isHexDigit (char : Char) : Bool :=
  let code := char.toNat
  (48 ≤ code && code ≤ 57) || (65 ≤ code && code ≤ 70) || (97 ≤ code && code ≤ 102)

def isHexDigest (value : String) : Bool :=
  value.toList.length = 64 && value.toList.all isHexDigit

theorem not_whitespace_of_hexDigit
    (digit : isHexDigit char = true) : isWhitespace char = false := by
  simp only [isHexDigit, Bool.or_eq_true, Bool.and_eq_true, decide_eq_true_eq] at digit
  simp only [isWhitespace, Bool.or_eq_false_iff, Bool.and_eq_false_iff, decide_eq_false_iff_not]
  omega

theorem trim_of_digits (digits : ∀ char ∈ text.toList, isHexDigit char = true) :
    trim text = text := by
  have kept {chars : List Char} (plain : ∀ char ∈ chars, isHexDigit char = true) :
      chars.dropWhile isWhitespace = chars := by
    cases chars with
    | nil => rfl
    | cons first rest =>
      rw [List.dropWhile_cons_of_neg]
      simp [not_whitespace_of_hexDigit (plain first List.mem_cons_self)]
  rw [trim, kept digits, kept (by simpa using digits), List.reverse_reverse, String.ofList_toList]

theorem normalize_of_digits (digits : ∀ char ∈ text.toList, isHexDigit char = true) :
    normalizeSha256Display text = toAsciiLowercase text := by
  have plain : stripPrefix? "sha256:" text = none := by
    unfold stripPrefix?
    rw [if_neg]
    intro begins
    have first : 's' ∈ text.toList := (List.isPrefixOf_iff_prefix.mp begins).subset (by decide)
    exact absurd (digits 's' first) (by decide)
  rw [normalizeSha256Display, trim_of_digits digits, plain, Option.getD_none]

theorem hexDigit_plain : ∀ value < 16, isHexDigit (hexDigit value) = true ∧
      (hexDigit value).toLower = hexDigit value := by
  decide

theorem digits_of_hexBytes (bytes : List UInt8) :
    ∀ char ∈ (hexBytes bytes).toList, isHexDigit char = true := by
  intro char member
  rw [hexBytes, String.toList_ofList] at member
  obtain ⟨value, small, rfl⟩ := exists_digit_of_mem_hexText member
  exact (hexDigit_plain value small).1

theorem hexToBytes_hexBytes (bytes : List UInt8) : hexToBytes (hexBytes bytes) = some bytes := by
  have plain : (hexText bytes).map Char.toLower = (hexText bytes).map id := by
    apply List.map_congr_left
    intro char member
    obtain ⟨value, small, rfl⟩ := exists_digit_of_mem_hexText member
    exact (hexDigit_plain value small).2
  have lowered : toAsciiLowercase (hexBytes bytes) = hexBytes bytes := by
    rw [toAsciiLowercase, hexBytes, String.toList_ofList, plain, List.map_id]
  have sized := (asBytes_hexText bytes).1
  rw [hexToBytes, normalize_of_digits (digits_of_hexBytes bytes), lowered,
    decodeHex, hexBytes, if_neg (by rw [sized]; omega), asBytes, String.toList_ofList]
  exact decodePairs_hexText bytes

section Walks

variable {sha256 : Sha256} {leafHash rootHash : String}
  {hashes : List String} {logIndex treeSize : Nat}

theorem verifyMerkleInclusion_iff :
    verifyMerkleInclusion sha256 leafHash hashes logIndex treeSize rootHash = true ↔
      logIndex < treeSize ∧ (treeSize = 1 → hashes = []) ∧ constantTimeEqHex
      (Merkle.walk (hashMerkleNode sha256) hashes leafHash logIndex
      (treeSize - 1)) rootHash = true := by
  unfold verifyMerkleInclusion
  split
  · next outside =>
    simp only [Bool.or_eq_true, decide_eq_true_eq] at outside
    simp only [Bool.false_eq_true, false_iff, not_and]
    omega
  · next inside =>
    simp only [Bool.or_eq_true, decide_eq_true_eq, not_or] at inside
    split
    · next one =>
      cases hashes with
      | nil => simp [Merkle.walk, show logIndex < treeSize by omega]
      | cons hash rest => simp [one]
    · next several =>
      simp [several, show logIndex < treeSize by omega]

theorem hashMerkleNode_of_bytes {left right : String}
    {first second : List UInt8} (isFirst : hexToBytes left = some first)
    (isSecond : hexToBytes right = some second) :
    hashMerkleNode sha256 left right = hexBytes (sha256 (1 :: (first ++ second))).toList := by
  unfold hashMerkleNode
  simp only [isFirst, isSecond]
  rfl

theorem hashMerkleNode_denotes {left right : String} {first second : Hash}
    (isFirst : Denotes left first) (isSecond : Denotes right second) :
    Denotes (hashMerkleNode sha256 left right) (nodeHash sha256 first second) := by
  rw [Denotes, hashMerkleNode_of_bytes isFirst isSecond]
  exact hexToBytes_hexBytes (nodeHash sha256 first second).toList

theorem walk_denotes {texts : List String} {bytes : List Hash}
    (all : List.Forall₂ Denotes texts bytes) {text : String} {hash : Hash}
    (isHash : Denotes text hash) (index last : Nat) :
    Denotes (Merkle.walk (hashMerkleNode sha256) texts text index last)
      (Merkle.walk (nodeHash sha256) bytes hash index last) := by
  induction all generalizing text hash index last with
  | nil => exact isHash
  | cons first _ ih =>
    unfold Merkle.walk
    split
    · exact ih (hashMerkleNode_denotes first isHash) _ _
    · exact ih (hashMerkleNode_denotes isHash first) _ _

theorem constantTimeEqHex_iff {left right : String} {first : Hash} (isFirst : Denotes left first) :
    constantTimeEqHex left right = true ↔ Denotes right first := by
  unfold Denotes at isFirst ⊢
  unfold constantTimeEqHex
  rw [isFirst]
  cases hexToBytes right with
  | none => simp
  | some second => simp [eq_comm]

theorem printed_denotes (hash : Hash) : Denotes (hexBytes hash.toList) hash :=
  hexToBytes_hexBytes _

/-- The audit path of a leaf is accepted at every index whose walk turns as
the tree does above that leaf. -/
theorem path_accepted (sha256 : Sha256) {leaves : List Hash} {index other : Nat} {leaf : Hash}
    (found : leaves[index]? = some leaf) (inside : other < leaves.length)
    (alike : Merkle.walkSides (Merkle.pathSides index leaves.length).length other
      (leaves.length - 1) = Merkle.pathSides index leaves.length) :
    verifyMerkleInclusion sha256 (hexBytes leaf.toList)
      ((auditPath sha256 index leaves).map fun hash => hexBytes hash.toList)
      other leaves.length (hexBytes (treeRoot sha256 leaves).toList) = true := by
  rw [verifyMerkleInclusion_iff]
  refine ⟨inside, ?_, ?_⟩
  · intro one
    rw [auditPath, Merkle.path_of_short _ (by omega), List.map_nil]
  · have all : List.Forall₂ Denotes ((auditPath sha256 index leaves).map fun hash =>
          hexBytes hash.toList) (auditPath sha256 index leaves) :=
      List.forall₂_map_left_iff.mpr (List.forall₂_same.mpr fun hash _ => printed_denotes hash)
    have walked := @walk_denotes sha256 _ _ all _ _ (printed_denotes leaf)
      other (leaves.length - 1)
    rw [auditPath, Merkle.walk_path found alike] at walked
    exact (constantTimeEqHex_iff walked).mpr (printed_denotes _)

/-- The audit path of RFC 6962 is accepted for every leaf. -/
theorem audit_path_accepted (sha256 : Sha256) (leaves : List Hash) (index : Fin leaves.length) :
    verifyMerkleInclusion sha256 (hexBytes leaves[index].toList)
      ((auditPath sha256 index leaves).map fun hash => hexBytes hash.toList)
      index leaves.length (hexBytes (treeRoot sha256 leaves).toList) = true :=
  path_accepted sha256 (List.getElem?_eq_getElem index.isLt) index.isLt
    (Merkle.walkSides_path index.isLt)

theorem hashMerkleNode_cases (left right : String) :
    (hexToBytes left = none ∨ hexToBytes right = none) ∧ hashMerkleNode sha256 left right = "" ∨
      ¬ (hexToBytes left = none ∨ hexToBytes right = none) ∧
      ∃ hash : Hash, hashMerkleNode sha256 left right = hexBytes hash.toList := by
  unfold hashMerkleNode
  cases hexToBytes left with
  | none => simp
  | some first =>
    cases hexToBytes right with
    | none => simp
    | some second => exact Or.inr ⟨by simp, _, rfl⟩

theorem isHexDigest_hexBytes (hash : Hash) : isHexDigest (hexBytes hash.toList) = true := by
  have digits := digits_of_hexBytes hash.toList
  rw [isHexDigest, List.all_eq_true.mpr digits, hexBytes,
    String.toList_ofList, length_hexText, Vector.length_toList]
  rfl

theorem not_empty_of_digest (digest : isHexDigest value = true) : hexToBytes value ≠ some [] := by
  simp only [isHexDigest, Bool.and_eq_true, decide_eq_true_eq, List.all_eq_true] at digest
  have long := length_le_length_asBytes (toAsciiLowercase value)
  rw [toAsciiLowercase, String.toList_ofList, List.length_map, digest.1] at long
  rw [hexToBytes, normalize_of_digits digest.2, decodeHex, toAsciiLowercase]
  generalize asBytes (String.ofList (value.toList.map Char.toLower)) = bytes at long ⊢
  match bytes, long with
  | high :: low :: rest, _ =>
    rw [decodePairs]
    split <;> simp [Option.bind_eq_some_iff]

theorem nothing_differs {value : String} (digest : isHexDigest value = true) :
    constantTimeEqHex "" value = false := by
  have nothing : hexToBytes "" = some [] := by decide
  have present := not_empty_of_digest digest
  unfold constantTimeEqHex
  simp only [nothing]
  cases known : hexToBytes value with
  | none => rfl
  | some bytes =>
    rw [known] at present
    simpa [eq_comm] using present

theorem constantTimeEqHex_self {value : String} {hash : Hash}
    (isHash : Denotes value hash) : constantTimeEqHex value value = true :=
  (constantTimeEqHex_iff isHash).mpr isHash

/-- The last round of a walk, and when its hash cannot be computed. -/
theorem walk_ends (sha256 : Sha256) (front : List String)
    (entry leafHash : String) (index last : Nat) :
    ∃ left right, Merkle.walk (hashMerkleNode sha256) (front ++ [entry]) leafHash index
      last = hashMerkleNode sha256 left right ∧
      ((hexToBytes left = none ∨ hexToBytes right = none) ↔ hexToBytes entry = none ∨
      front = [] ∧ hexToBytes leafHash = none) := by
  obtain ⟨side, ends⟩ :=
    @Merkle.walk_concat _ (hashMerkleNode sha256) front entry leafHash index last
  have undecoded : hexToBytes (Merkle.walk (hashMerkleNode sha256) front
      leafHash index last) = none ↔ front = [] ∧ hexToBytes leafHash = none := by
    rcases List.eq_nil_or_concat' front with rfl | ⟨earlier, before, rfl⟩
    · simp [Merkle.walk]
    · obtain ⟨side, ends⟩ :=
        @Merkle.walk_concat _ (hashMerkleNode sha256) earlier before leafHash index last
      have known : hexToBytes (Merkle.join (hashMerkleNode sha256)
          (Merkle.walk (hashMerkleNode sha256) earlier leafHash index last) (side, before)) ≠
          none := by
        unfold Merkle.join
        split <;>
        · rcases @hashMerkleNode_cases sha256 _ _ with ⟨-, nothing⟩ | ⟨-, hash, printed⟩
          · rw [nothing]
            decide
          · rw [printed, hexToBytes_hexBytes]
            simp
      rw [ends]
      simpa using known
  rw [← undecoded]
  unfold Merkle.join at ends
  split at ends
  · exact ⟨_, _, ends, Iff.rfl⟩
  · exact ⟨_, _, ends, or_comm⟩

/-- A proof with a malformed entry is refused for every root exactly when the
last hash cannot be computed, or the proof is not looked at. -/
theorem malformed_proof_refused_iff
    (sha256 : Sha256)
    (leafHash : String)
    (hashes : List String)
    (logIndex treeSize : Nat)
    (malformed : ∃ entry ∈ hashes, ∀ hash, ¬ Denotes entry hash) :
    (∀ rootHash,
      isHexDigest rootHash = true →
      verifyMerkleInclusion sha256 leafHash hashes logIndex treeSize rootHash = false) ↔
    treeSize ≤ 1 ∨
      treeSize ≤ logIndex ∨
      hashes.getLast?.bind hexToBytes = none ∨
      hashes.length = 1 ∧ hexToBytes leafHash = none := by
  obtain ⟨bad, member, -⟩ := malformed
  obtain ⟨front, entry, rfl⟩ :=
    (List.eq_nil_or_concat' hashes).resolve_left (List.ne_nil_of_mem member)
  obtain ⟨left, right, ends, undecoded⟩ :=
    walk_ends sha256 front entry leafHash logIndex (treeSize - 1)
  have last : (front ++ [entry]).getLast?.bind hexToBytes = hexToBytes entry := by simp
  have one : (front ++ [entry]).length = 1 ↔ front = [] := by simp
  rw [last, one, ← undecoded]
  constructor
  · intro refused
    by_contra looked
    rw [not_or, not_or, Nat.not_le, Nat.not_le] at looked
    obtain ⟨several, inside, decoded⟩ := looked
    rcases @hashMerkleNode_cases sha256 left right with
      ⟨missing, -⟩ | ⟨-, hash, printed⟩
    · exact decoded missing
    · have accepted : verifyMerkleInclusion sha256 leafHash
          (front ++ [entry]) logIndex treeSize (hexBytes hash.toList) = true := by
        rw [verifyMerkleInclusion_iff, ends, printed]
        exact ⟨inside, by omega, constantTimeEqHex_self (hexToBytes_hexBytes hash.toList)⟩
      rw [refused _ (isHexDigest_hexBytes hash)] at accepted
      cases accepted
  · intro unlooked rootHash digest
    by_contra accepted
    rw [Bool.not_eq_false, verifyMerkleInclusion_iff, ends] at accepted
    obtain ⟨inside, short, equal⟩ := accepted
    rcases unlooked with small | outside | missing
    · exact absurd (short (by omega)) (by simp)
    · omega
    · rcases @hashMerkleNode_cases sha256 left right with
        ⟨-, nothing⟩ | ⟨decoded, -⟩
      · rw [nothing, nothing_differs digest] at equal
        cases equal
      · exact decoded missing

end Walks

/-! ## A tree of three leaves -/

namespace Sample

def emptyLeaf : Hash :=
  #v[110, 52, 11, 156, 255, 179, 122, 152, 156, 165, 68, 230, 187, 120, 10,
    44, 120, 144, 29, 63, 179, 55, 56, 118, 133, 17, 163, 6, 23, 175, 160, 29]

/-- The leaf hash of the entry `x`. -/
def xLeaf : Hash :=
  #v[60, 126, 155, 201, 48, 220, 147, 240, 31, 166, 153, 133, 239, 36, 45,
    159, 158, 134, 31, 60, 83, 85, 170, 36, 206, 94, 244, 180, 184, 167, 12, 203]

def yLeaf : Hash :=
  #v[53, 83, 235, 53, 26, 218, 199, 12, 245, 202, 164, 254, 250, 28, 175, 140,
    236, 114, 100, 3, 254, 75, 52, 193, 79, 27, 184, 217, 128, 194, 11, 149]

def pairNode : Hash :=
  #v[178, 218, 115, 181, 30, 78, 254, 209, 193, 90, 135, 234, 45, 251, 80, 34,
    0, 246, 252, 182, 41, 120, 11, 16, 43, 157, 226, 174, 161, 28, 99, 65]

def topNode : Hash :=
  #v[60, 147, 105, 112, 196, 94, 167, 251, 214, 226, 210, 159, 254, 254, 218, 150,
    173, 24, 143, 89, 58, 208, 127, 110, 244, 6, 74, 237, 13, 2, 232, 204]

def content (left right : Hash) : List UInt8 :=
  left.toList ++ right.toList

def sha256 (bytes : List UInt8) : Hash :=
  if bytes = 1 :: content emptyLeaf xLeaf then pairNode
  else if bytes = 1 :: content pairNode yLeaf then topNode
  else Vector.replicate 32 0

def leaves : List Hash := [emptyLeaf, xLeaf, yLeaf]

theorem pair_hash : nodeHash sha256 emptyLeaf xLeaf = pairNode := by
  decide +kernel

theorem top_hash : nodeHash sha256 pairNode yLeaf = topNode := by
  decide +kernel

theorem treeRoot_leaves : treeRoot sha256 leaves = topNode := by
  simp [treeRoot, leaves, Merkle.root, Merkle.splitAt, Nat.log2_def, List.take,
    pair_hash, top_hash]

theorem isRoot : Denotes (hexBytes topNode.toList) (treeRoot sha256 leaves) := by
  rw [treeRoot_leaves]
  exact printed_denotes _

theorem accepted {index : Nat} (inside : index < 3) (left : Merkle.standsLeft index 2 = true) :
    verifyMerkleInclusion sha256 (hexBytes yLeaf.toList)
      [hexBytes pairNode.toList] index 3 (hexBytes topNode.toList) = true := by
  have joined := @hashMerkleNode_denotes sha256 _ _ _ _ (printed_denotes pairNode)
    (printed_denotes yLeaf)
  rw [top_hash] at joined
  rw [verifyMerkleInclusion_iff, Merkle.walk, if_pos left]
  exact ⟨inside, by decide, (constantTimeEqHex_iff joined).mpr (printed_denotes _)⟩

end Sample

/-- An entry that is no hash makes the walk go on from nothing, and the next
entry holds both children of the root. -/
theorem malformed_proof_accepted :
    ¬ ∀ (leafHash : String) (hashes : List String) (logIndex treeSize : Nat)
      (rootHash : String), isHexDigest rootHash = true →
      (∃ entry ∈ hashes, ∀ hash, ¬ Denotes entry hash) →
      verifyMerkleInclusion Sample.sha256 leafHash hashes logIndex treeSize rootHash = false := by
  intro refused
  have noHash : hexToBytes "zz" = none := by decide
  have nothing : hexToBytes "" = some [] := by decide
  let children := Sample.emptyLeaf.toList ++ Sample.xLeaf.toList
  have first : hashMerkleNode Sample.sha256 "" "zz" = "" := by
    rcases @hashMerkleNode_cases Sample.sha256 "" "zz" with
      ⟨-, empty⟩ | ⟨decoded, -⟩
    · exact empty
    · exact absurd (Or.inr noHash) decoded
  have second : hashMerkleNode Sample.sha256 "" (hexBytes children) =
      hexBytes Sample.pairNode.toList := by
    rw [hashMerkleNode_of_bytes nothing (hexToBytes_hexBytes children)]
    exact congrArg (fun hash : Hash => hexBytes hash.toList) Sample.pair_hash
  have accepted : verifyMerkleInclusion Sample.sha256 ""
      ["zz", hexBytes children] 0 4 (hexBytes Sample.pairNode.toList) = true := by
    rw [verifyMerkleInclusion_iff, Merkle.walk, if_neg (by decide),
      Merkle.walk, if_neg (by decide), first, second]
    exact ⟨by decide, by decide, constantTimeEqHex_self (printed_denotes Sample.pairNode)⟩
  rw [refused _ _ 0 4 _ (isHexDigest_hexBytes Sample.pairNode)
    ⟨"zz", by simp, by simp [Denotes, noHash]⟩] at accepted
  cases accepted

/-- A single entry that is no hash. -/
theorem malformed_proof_refused_iff_last :
    hexToBytes "zz" = none ∧ verifyMerkleInclusion Sample.sha256 "" ["zz"] 0 2
      (hexBytes (List.replicate 32 0)) = false := by
  have noHash : hexToBytes "zz" = none := by decide
  refine ⟨noHash, ?_⟩
  apply (malformed_proof_refused_iff Sample.sha256 "" ["zz"] 0 2
      ⟨"zz", by simp, by simp [Denotes, noHash]⟩).mpr (Or.inr (Or.inr (Or.inl noHash)))
  exact isHexDigest_hexBytes (Vector.replicate 32 0)

end ForgeCore.Rekor
