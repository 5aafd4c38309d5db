import ForgeCore.Claims.Engine
import ForgeCore.Library.Collect

/-!
# Checking a write against the claims

`check_write_against_claims`: every target of a write is free, governed by a
claim of the writer, or blocked by a live claim of somebody else.
-/

namespace ForgeCore.Claims

open List Text

inductive ConflictCode where
  | readTargetChanged
  | writeTargetChanged
  | writeTargetClaimed
  | expectedStateVersionMismatch
  | completionNowDone
  | pathOutsideScope
  | overlappingWriteSet
  | missingInverseForDestructiveWrite
  deriving DecidableEq, Repr

/-- The claim that stands in the way of a target. -/
structure BlockDetail where
  blockedPath : RepoPath
  blockingClaimId : ClaimId
  claimant : StableId
  claimantPrincipalId : Option PrincipalId
  conflictCode : ConflictCode
  deriving DecidableEq, Repr

/-- The verdict on all targets of a write. -/
inductive WriteCheck where
  | ok (governedBySelf ungoverned : List RepoPath)
  | blocked (blocks : List BlockDetail)
  deriving DecidableEq, Repr

def WriteCheck.isBlocked : WriteCheck → Bool
  | .ok _ _ => false
  | .blocked _ => true

/-- The verdict on one target. -/
inductive TargetClass where
  | ungoverned
  | governedBySelf
  | blockedBy (detail : BlockDetail)
  deriving DecidableEq, Repr

/-- The writer; a principal is named in principal mode only. -/
structure Writer where
  principalId : Option PrincipalId
  agentId : StableId
  deriving DecidableEq, Repr

/-- In principal mode a claim without a principal is somebody else's. -/
def Writer.holds (writer : Writer) (claim : ClaimContract) : Bool :=
  claim.claim.claimantAgentId = writer.agentId && writer.principalId.all fun principalId =>
      claim.claim.claimantPrincipalId = some principalId

def blockDetail (target : RepoPath) (claim : ClaimContract) : BlockDetail where
  blockedPath := target
  blockingClaimId := claim.id
  claimant := claim.claim.claimantAgentId
  claimantPrincipalId := claim.claim.claimantPrincipalId
  conflictCode := .writeTargetClaimed

section Check

variable (toLowercase : String → String)

def scopeCoversAny (claim : ClaimContract) (target : List String) : Bool :=
  claim.scope.paths.any fun path =>
    claimPathCovers toLowercase path.value target

/-- The loop over the claims.  It goes on behind a claim of the writer, since
a claim of somebody else still blocks. -/
def scanClaims (target : RepoPath) (writer : Writer) (now : Int) :
    Bool → List ClaimContract → TargetClass
  | seenLiveSelf, [] => if seenLiveSelf then .governedBySelf else .ungoverned
  | seenLiveSelf, claim :: rest =>
    if !isLive claim now then
      scanClaims target writer now seenLiveSelf rest
    else if !scopeCoversAny toLowercase claim
        (normalizeSegments toLowercase target.value) then
      scanClaims target writer now seenLiveSelf rest
    else if writer.holds claim then
      scanClaims target writer now true rest
    else
      .blockedBy (blockDetail target claim)

def classifyTarget (target : RepoPath) (claims : List ClaimContract)
    (writer : Writer) (now : Int) : TargetClass :=
  if escapesRepoRoot (normalizeSegments toLowercase target.value) then
    .ungoverned
  else
    scanClaims toLowercase target writer now false claims

/-- What the loop over the targets has collected. -/
structure Classified where
  blocks : List BlockDetail
  governedBySelf : List RepoPath
  ungoverned : List RepoPath

def Classified.add (classified : Classified) (target : RepoPath) : TargetClass → Classified
  | .ungoverned => { classified with ungoverned := classified.ungoverned ++ [target] }
  | .governedBySelf =>
    { classified with
      governedBySelf := classified.governedBySelf ++ [target] }
  | .blockedBy detail => { classified with blocks := classified.blocks ++ [detail] }

def orderedClaims (claims : List ClaimContract) : List ClaimContract :=
  claims.mergeSort fun left right => left.id.value ≤ right.id.value

def classifyTargets (targets : List RepoPath) (writer : Writer)
    (claims : List ClaimContract) (now : Int) : Classified :=
  targets.foldl (fun classified target =>
      classified.add target (classifyTarget toLowercase target (orderedClaims claims) writer now))
    ⟨[], [], []⟩

def checkWriteAgainstClaimsInternal (targets : List RepoPath)
    (writer : Writer) (claims : List ClaimContract) (now : Int) : WriteCheck :=
  let classified := classifyTargets toLowercase targets writer claims now
  if classified.blocks.isEmpty then
    .ok classified.governedBySelf classified.ungoverned
  else
    .blocked classified.blocks

def checkWriteAgainstClaimsForPrincipal (targets : List RepoPath)
    (writerPrincipalId : PrincipalId) (writerAgentId : StableId)
    (claims : List ClaimContract) (now : Int) : WriteCheck :=
  checkWriteAgainstClaimsInternal toLowercase targets
    ⟨some writerPrincipalId, writerAgentId⟩ claims now

/-! ## What a target is covered by -/

variable {toLowercase} (writer : Writer) (claims : List ClaimContract)
  (now : Int) (target : RepoPath)

variable (toLowercase) in
def LiveCover (claim : ClaimContract) : Prop :=
  isLive claim now = true ∧ scopeCoversAny toLowercase claim
      (normalizeSegments toLowercase target.value) = true

variable (toLowercase) in
def Escapes : Prop :=
  escapesRepoRoot (normalizeSegments toLowercase target.value) = true

variable (toLowercase) in
def BlockedTarget : Prop :=
  ¬Escapes toLowercase target ∧ ∃ claim ∈ claims, LiveCover toLowercase now target claim ∧
      writer.holds claim = false

variable (toLowercase) in
def OwnTarget : Prop :=
  ¬Escapes toLowercase target ∧ ∃ claim ∈ claims, LiveCover toLowercase now target claim ∧
      writer.holds claim = true

variable {writer claims now target}

instance LiveCover.decidable (claim : ClaimContract) :
    Decidable (LiveCover toLowercase now target claim) :=
  inferInstanceAs (Decidable (_ ∧ _))

instance Escapes.decidable : Decidable (Escapes toLowercase target) :=
  inferInstanceAs (Decidable (_ = true))

instance BlockedTarget.decidable : Decidable (BlockedTarget toLowercase writer claims now target) :=
  inferInstanceAs (Decidable (_ ∧ _))

instance OwnTarget.decidable : Decidable (OwnTarget toLowercase writer claims now target) :=
  inferInstanceAs (Decidable (_ ∧ _))

variable {seen : Bool} {detail : BlockDetail} {claim : ClaimContract}

theorem scanClaims_blockedBy
    (scanned : scanClaims toLowercase target writer now seen claims = .blockedBy detail) :
    ∃ claim ∈ claims, LiveCover toLowercase now target claim ∧ writer.holds claim = false := by
  induction claims generalizing seen with
  | nil =>
    rw [scanClaims] at scanned
    split at scanned <;> cases scanned
  | cons claim rest ih =>
    have later (rescanned : ∃ seen, scanClaims toLowercase target writer now seen rest =
          .blockedBy detail) : ∃ other ∈ claim :: rest, LiveCover toLowercase now target other ∧
          writer.holds other = false := by
      obtain ⟨seen, rescanned⟩ := rescanned
      obtain ⟨other, member, covered⟩ := ih rescanned
      exact ⟨other, mem_cons_of_mem _ member, covered⟩
    rw [scanClaims] at scanned
    split at scanned
    · exact later ⟨_, scanned⟩
    split at scanned
    · exact later ⟨_, scanned⟩
    split at scanned
    · exact later ⟨_, scanned⟩
    · next live covers other =>
      exact ⟨claim, mem_cons_self, ⟨by simpa using live,
        by simpa using covers⟩, by simpa using other⟩

theorem scanClaims_of_foreign (member : claim ∈ claims)
    (covered : LiveCover toLowercase now target claim) (foreign : writer.holds claim = false) :
    ∃ detail, scanClaims toLowercase target writer now seen claims = .blockedBy detail := by
  induction claims generalizing seen with
  | nil => cases member
  | cons first rest ih =>
    rw [scanClaims]
    rcases List.mem_cons.mp member with rfl | inRest
    · simp [covered.1, covered.2, foreign]
    · split
      · exact ih inRest
      split
      · exact ih inRest
      split
      · exact ih inRest
      · exact ⟨_, rfl⟩

/-- A scan that nobody else blocks tells whether the writer was seen. -/
theorem scanClaims_unblocked (unblocked : ∀ claim ∈ claims, LiveCover toLowercase now target claim →
      writer.holds claim = true) :
    (scanClaims toLowercase target writer now seen claims = .governedBySelf ∧ (seen = true ∨
      ∃ claim ∈ claims, LiveCover toLowercase now target claim)) ∨
      (scanClaims toLowercase target writer now seen claims = .ungoverned ∧ seen = false ∧
      ∀ claim ∈ claims, ¬LiveCover toLowercase now target claim) := by
  induction claims generalizing seen with
  | nil => cases seen <;> simp [scanClaims]
  | cons claim rest ih =>
    have restUnblocked : ∀ other ∈ rest, LiveCover toLowercase now target other →
          writer.holds other = true := fun other member =>
        unblocked other (mem_cons_of_mem _ member)
    by_cases covered : LiveCover toLowercase now target claim
    · have own := unblocked claim mem_cons_self covered
      have scanned : scanClaims toLowercase target writer now seen (claim :: rest) =
            scanClaims toLowercase target writer now true rest := by
        simp [scanClaims, covered.1, covered.2, own]
      rw [scanned]
      rcases @ih true restUnblocked with
        ⟨governed, -⟩ | ⟨-, impossible, -⟩
      · exact Or.inl ⟨governed, Or.inr ⟨claim, mem_cons_self, covered⟩⟩
      · cases impossible
    · have scanned : scanClaims toLowercase target writer now seen (claim :: rest) =
            scanClaims toLowercase target writer now seen rest := by
        rw [scanClaims]
        split
        · rfl
        split
        · rfl
        · next live covers =>
          exact absurd ⟨by simpa using live, by simpa using covers⟩ covered
      rw [scanned]
      rcases @ih seen restUnblocked with
        ⟨governed, was | ⟨other, member, otherCovered⟩⟩ | ⟨free, unseen, uncovered⟩
      · exact Or.inl ⟨governed, Or.inl was⟩
      · exact Or.inl ⟨governed, Or.inr ⟨other, mem_cons_of_mem _ member, otherCovered⟩⟩
      · refine Or.inr ⟨free, unseen, ?_⟩
        intro other member
        rcases List.mem_cons.mp member with rfl | inRest
        · exact covered
        · exact uncovered other inRest

/-! ## The class of a target -/

theorem classifyTarget_blockedBy
    (classed : classifyTarget toLowercase target claims writer now = .blockedBy detail) :
    BlockedTarget toLowercase writer claims now target := by
  rw [classifyTarget] at classed
  split at classed
  · cases classed
  · next inside => exact ⟨inside, scanClaims_blockedBy classed⟩

theorem classifyTarget_unblocked (unblocked : ¬BlockedTarget toLowercase writer claims now target) :
    (classifyTarget toLowercase target claims writer now = .governedBySelf ∧
      OwnTarget toLowercase writer claims now target) ∨
      (classifyTarget toLowercase target claims writer now = .ungoverned ∧
      ¬OwnTarget toLowercase writer claims now target ∧ (Escapes toLowercase target ∨
      ∀ claim ∈ claims, ¬LiveCover toLowercase now target claim)) := by
  by_cases escapes : Escapes toLowercase target
  · refine Or.inr ⟨?_, fun own => own.1 escapes, Or.inl escapes⟩
    rw [classifyTarget]
    exact if_pos escapes
  · have classed : classifyTarget toLowercase target claims writer now =
        scanClaims toLowercase target writer now false claims := by
      rw [classifyTarget]
      exact if_neg escapes
    have allOwn : ∀ claim ∈ claims, LiveCover toLowercase now target claim →
        writer.holds claim = true := by
      intro claim member covered
      by_contra foreign
      exact unblocked ⟨escapes, claim, member, covered, by simpa using foreign⟩
    rw [classed]
    rcases @scanClaims_unblocked _ _ _ _ _ false allOwn with
      ⟨governed, impossible | ⟨claim, member, covered⟩⟩ | ⟨free, -, uncovered⟩
    · cases impossible
    · exact Or.inl ⟨governed, escapes, claim, member, covered, allOwn claim member covered⟩
    · refine Or.inr ⟨free, ?_, Or.inr uncovered⟩
      rintro ⟨-, claim, member, covered, -⟩
      exact uncovered claim member covered

theorem blockedTarget_iff : BlockedTarget toLowercase writer claims now target ↔
      ∃ detail, classifyTarget toLowercase target claims writer now = .blockedBy detail := by
  constructor
  · rintro ⟨inside, claim, member, covered, foreign⟩
    obtain ⟨detail, scanned⟩ := @scanClaims_of_foreign _ _ _ _ _ false _ member covered foreign
    refine ⟨detail, ?_⟩
    rw [classifyTarget, ← scanned]
    exact if_neg inside
  · rintro ⟨detail, classed⟩
    exact classifyTarget_blockedBy classed

/-! ## The loop over the targets -/

def TargetClass.block? : TargetClass → Option BlockDetail
  | .ungoverned => none
  | .governedBySelf => none
  | .blockedBy detail => some detail

theorem block?_eq_none {found : TargetClass} :
    found.block? = none ↔ ¬∃ detail, found = .blockedBy detail := by
  cases found <;> simp [TargetClass.block?]

theorem classifyTargets_eq (targets : List RepoPath) :
    classifyTargets toLowercase targets writer claims now =
      { blocks := targets.filterMap fun target =>
          (classifyTarget toLowercase target (orderedClaims claims) writer
            now).block?
        governedBySelf := targets.filter fun target =>
          classifyTarget toLowercase target (orderedClaims claims) writer
            now = .governedBySelf
        ungoverned := targets.filter fun target =>
          classifyTarget toLowercase target (orderedClaims claims) writer
            now = .ungoverned } := by
  induction targets using List.reverseRecOn with
  | nil => rfl
  | append_singleton targets target ih =>
    rw [classifyTargets] at ih ⊢
    rw [foldl_append, foldl_cons, foldl_nil, ih, filterMap_append, filter_append, filter_append]
    cases classed : classifyTarget toLowercase target
        (orderedClaims claims) writer now <;>
      simp [Classified.add, TargetClass.block?, classed]

theorem mem_orderedClaims : claim ∈ orderedClaims claims ↔ claim ∈ claims :=
  mem_mergeSort

theorem blockedTarget_orderedClaims :
    BlockedTarget toLowercase writer (orderedClaims claims) now target ↔
      BlockedTarget toLowercase writer claims now target := by
  simp only [BlockedTarget, mem_orderedClaims]

theorem ownTarget_orderedClaims : OwnTarget toLowercase writer (orderedClaims claims) now target ↔
      OwnTarget toLowercase writer claims now target := by
  simp only [OwnTarget, mem_orderedClaims]

theorem isBlocked_iff (targets : List RepoPath) :
    (checkWriteAgainstClaimsInternal toLowercase targets writer claims now).isBlocked = true ↔
      ∃ target ∈ targets, BlockedTarget toLowercase writer claims now target := by
  rw [checkWriteAgainstClaimsInternal, classifyTargets_eq]
  have found : (∃ target ∈ targets, BlockedTarget toLowercase writer claims now target) ↔
      targets.filterMap (fun target =>
        (classifyTarget toLowercase target (orderedClaims claims) writer now).block?) ≠ [] := by
    simp only [← @blockedTarget_orderedClaims _ _ claims, blockedTarget_iff,
      ne_eq, filterMap_eq_nil_iff, block?_eq_none, not_forall, not_not, exists_prop]
  rw [found]
  split
  · next empty =>
    simpa [WriteCheck.isBlocked] using empty
  · next present =>
    simpa [WriteCheck.isBlocked] using present

/-- Without a blocked target, the targets are split by the writer's own
claims. -/
theorem check_of_unblocked
    (unblocked : ∀ target ∈ targets, ¬BlockedTarget toLowercase writer claims now target) :
    checkWriteAgainstClaimsInternal toLowercase targets writer claims now = .ok
      (targets.filter fun target => OwnTarget toLowercase writer claims now target)
      (targets.filter fun target => ¬OwnTarget toLowercase writer claims now target) := by
  have classes : ∀ target ∈ targets,
      let found := classifyTarget toLowercase target (orderedClaims claims) writer now
      (found = .governedBySelf ↔ OwnTarget toLowercase writer claims now target) ∧
        (found = .ungoverned ↔ ¬OwnTarget toLowercase writer claims now target) ∧
        found.block? = none := by
    intro target member
    have free : ¬BlockedTarget toLowercase writer (orderedClaims claims) now
        target := by
      rw [blockedTarget_orderedClaims]
      exact unblocked target member
    rw [← ownTarget_orderedClaims]
    rcases classifyTarget_unblocked free with
      ⟨governed, own⟩ | ⟨uncovered, foreign, -⟩
    · simp [governed, own, TargetClass.block?]
    · simp [uncovered, foreign, TargetClass.block?]
  rw [checkWriteAgainstClaimsInternal, classifyTargets_eq]
  have noBlocks : targets.filterMap (fun target =>
      (classifyTarget toLowercase target (orderedClaims claims) writer
        now).block?) = [] :=
    List.filterMap_eq_nil_iff.mpr fun target member =>
      (classes target member).2.2
  simp only [noBlocks, isEmpty_nil, if_true]
  congr 1
  · apply filter_congr
    intro target member
    simp only [(classes target member).1]
  · apply filter_congr
    intro target member
    simp only [(classes target member).2.1]

theorem uncovered_of_not_own (unblocked : ¬BlockedTarget toLowercase writer claims now target)
    (notOwn : ¬OwnTarget toLowercase writer claims now target) :
    Escapes toLowercase target ∨ ∀ claim ∈ claims, ¬LiveCover toLowercase now target claim := by
  rcases classifyTarget_unblocked unblocked with
    ⟨-, own⟩ | ⟨-, -, uncovered⟩
  · exact absurd own notOwn
  · exact uncovered

/-! ## The order of the claims -/

theorem orderedClaims_of_perm (perm : claims.Perm permuted)
    (distinct : (claims.map ClaimContract.id).Nodup) :
    orderedClaims permuted = orderedClaims claims := by
  have injective : Function.Injective ClaimId.value := by
    rintro ⟨left⟩ ⟨right⟩ same
    exact congrArg ClaimId.mk same
  have distinctValues := distinct.map injective
  rw [map_map] at distinctValues
  exact Collect.mergeSort_key_of_perm (fun claim => claim.id.value) perm distinctValues

end Check

/-- A write is blocked exactly by a live claim of somebody else on a target
inside the repository.  Otherwise its targets are split into the writer's own
and the others, and the order of distinct claims never matters. -/
theorem write_check_is_correct
    (toLowercase : String → String)
    (targets : List RepoPath)
    (writer : Writer)
    (claims : List ClaimContract)
    (now : Int) :
    ((checkWriteAgainstClaimsInternal toLowercase targets writer claims now).isBlocked = true ↔
      ∃ target ∈ targets, BlockedTarget toLowercase writer claims now target) ∧
    ((checkWriteAgainstClaimsInternal toLowercase targets writer claims now).isBlocked = false →
      checkWriteAgainstClaimsInternal toLowercase targets writer claims now = .ok
        (targets.filter fun target => OwnTarget toLowercase writer claims now target)
        (targets.filter fun target => ¬OwnTarget toLowercase writer claims now target) ∧
      ∀ target ∈ targets,
        ¬OwnTarget toLowercase writer claims now target →
        Escapes toLowercase target ∨
          ∀ claim ∈ claims, ¬LiveCover toLowercase now target claim) ∧
    ∀ permuted : List ClaimContract,
      claims.Perm permuted →
      (claims.map ClaimContract.id).Nodup →
      checkWriteAgainstClaimsInternal toLowercase targets writer permuted now =
        checkWriteAgainstClaimsInternal toLowercase targets writer claims now := by
  refine ⟨isBlocked_iff targets, ?_, ?_⟩
  · intro passed
    have unblocked : ∀ target ∈ targets, ¬BlockedTarget toLowercase writer claims now target := by
      intro target member blocked
      have isBlocked := (isBlocked_iff targets).mpr ⟨target, member, blocked⟩
      rw [passed] at isBlocked
      cases isBlocked
    exact ⟨check_of_unblocked unblocked, fun target member =>
      uncovered_of_not_own (unblocked target member)⟩
  · intro permuted perm distinct
    rw [checkWriteAgainstClaimsInternal, checkWriteAgainstClaimsInternal,
      classifyTargets, classifyTargets, orderedClaims_of_perm perm distinct]

namespace Sample

def pathClaim (name agent path : String) : ClaimContract where
  id := ⟨name⟩
  contractRef := ⟨"contracts/claims/claim-contract-v0.yaml"⟩
  claim := ⟨.story, none, ⟨agent⟩, .worker, none⟩
  scope := ⟨.story, ⟨name⟩, none, [⟨path⟩]⟩
  lease := ⟨"2026-01-01T00:00:00Z", "2026-01-01T00:00:00Z", "2026-01-01T01:00:00Z", 3600, 60, 0⟩
  status := ⟨.active, "2026-01-01T00:00:00Z", none⟩
  expiryPolicy := defaultExpiryPolicy
  evidenceRefs := []

end Sample

/-- Alice may write where they hold a claim, in whatever order the claims are
read. -/
theorem write_check_is_correct_own :
    checkWriteAgainstClaimsInternal toAsciiLowercase
      [⟨"src/lib.rs"⟩, ⟨"docs/a.md"⟩] ⟨none, ⟨"alice"⟩⟩
      [Sample.pathClaim "two" "bob" "tests", Sample.pathClaim "one" "alice" "src"] 1767225600 =
        .ok [⟨"src/lib.rs"⟩] [⟨"docs/a.md"⟩] := by
  have correct := write_check_is_correct toAsciiLowercase
    [⟨"src/lib.rs"⟩, ⟨"docs/a.md"⟩] ⟨none, ⟨"alice"⟩⟩ [Sample.pathClaim "one" "alice" "src",
      Sample.pathClaim "two" "bob" "tests"] 1767225600
  rw [correct.2.2 _ (List.Perm.swap _ _ _) (by decide)]
  have passed : (checkWriteAgainstClaimsInternal toAsciiLowercase
      [⟨"src/lib.rs"⟩, ⟨"docs/a.md"⟩] ⟨none, ⟨"alice"⟩⟩ [Sample.pathClaim "one" "alice" "src",
        Sample.pathClaim "two" "bob" "tests"] 1767225600).isBlocked = false := by
    rw [Bool.eq_false_iff, ne_eq, correct.1]
    decide +kernel
  rw [(correct.2.1 passed).1]
  decide +kernel

end ForgeCore.Claims
