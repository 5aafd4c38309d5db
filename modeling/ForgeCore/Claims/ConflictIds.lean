import ForgeCore.Claims.Engine
import ForgeCore.EventLog.GovernanceLedger
import ForgeCore.Library.Dotted

/-!
# The ids of conflicts

A refused acquire reports a conflict whose id joins the two principals and the
contested target with dots, and the governance ledger records one conflict for
each id.  The id forgets where the names were joined and which kind of scope
was contested.
-/

namespace ForgeCore.Claims

open List Text

/-! ## From a refused acquire to its conflict -/

/-- What a refused acquire contests.  The conflict itself calls every claim
scope a project. -/
inductive ContestedScope where
  | claim (kind : ClaimScopeKind) (id : ScopeId)
  | path (path : RepoPath)
  deriving DecidableEq, Repr

/-- The kind of the scope, with none for a path. -/
def ContestedScope.kind : ContestedScope → Option ClaimScopeKind
  | claim kind _ => some kind
  | path _ => none

def ContestedScope.target : ContestedScope → String
  | claim _ id => id.value
  | path repoPath => repoPath.value

/-- The scope of a kind with a target. -/
def ContestedScope.of : Option ClaimScopeKind → String → ContestedScope
  | some kind, target => claim kind ⟨target⟩
  | none, target => path ⟨target⟩

@[simp]
theorem ContestedScope.kind_of (kind : Option ClaimScopeKind) (target : String) :
    (of kind target).kind = kind := by
  cases kind <;> rfl

@[simp]
theorem ContestedScope.target_of (kind : Option ClaimScopeKind) (target : String) :
    (of kind target).target = target := by
  cases kind <;> rfl

theorem ContestedScope.of_kind_target (scope : ContestedScope) :
    of scope.kind scope.target = scope := by
  cases scope <;> rfl

/-- A reported conflict, and the scope that it is about. -/
structure Dispute where
  scope : ContestedScope
  conflict : ConflictContract
  deriving DecidableEq, Repr

def AcquireRequest.dispute (request : AcquireRequest) : ClaimLifecycleDecision → Option Dispute
  | .rejected (.alreadyClaimedByOther scopeId _ _ (some conflict)) =>
    some ⟨.claim request.scopeKind scopeId, conflict⟩
  | .rejected (.pathAlreadyClaimed path _ _ _ (some conflict)) => some ⟨.path path, conflict⟩
  | _ => none

/-- Some acquire is refused with the conflict. -/
def Reported (toLowercase : String → String) (dispute : Dispute) : Prop :=
  ∃ active, ∃ request : AcquireRequest, ∃ now,
    request.dispute (acquire toLowercase active request now) = some dispute

def Dispute.low (dispute : Dispute) : String :=
  min dispute.conflict.principalA.value dispute.conflict.principalB.value

def Dispute.high (dispute : Dispute) : String :=
  max dispute.conflict.principalA.value dispute.conflict.principalB.value

/-- The two principals as the id writes them. -/
def pairText (low high : String) : String :=
  low ++ "." ++ high ++ "."

/-- The principals are distinct, and the id is spelled from the other data. -/
structure Spelled (dispute : Dispute) : Prop where
  ordered : dispute.low < dispute.high
  named : dispute.conflict.conflictId.value =
    "conflict." ++ (pairText dispute.low dispute.high ++ dispute.scope.target)

variable {toLowercase : String → String} {scope : ContestedScope}
    {conflict : ConflictContract} {dispute first second : Dispute} {rejection : ClaimRejection}

theorem spelled_of_buildConflict
    (built : buildConflict requester holder kind scope.target reason now = some conflict) :
    Spelled ⟨scope, conflict⟩ := by
  unfold buildConflict at built
  dsimp only at built
  split at built
  · cases built
  next distinct =>
    have apart : requester.identity.value ≠ holder.identity.value :=
      fun same => distinct (principalId_value_injective same)
    cases built
    refine ⟨min_lt_max.mpr apart, ?_⟩
    simp only [Dispute.low, Dispute.high, pairText, String.append_assoc]
    split
    next ordered => rw [min_eq_left ordered, max_eq_right ordered]
    next unordered =>
      have ordered := (not_le.mp unordered).le
      rw [min_eq_right ordered, max_eq_left ordered]

theorem spelled_of_scopeRejection
    (refused : scopeRejection request now claim = some rejection)
    (disputed : request.dispute (.rejected rejection) = some dispute) :
    Spelled dispute := by
  unfold scopeRejection at refused
  split at refused
  · cases refused
  split at refused
  · cases refused
    generalize built : buildConflict _ _ _ _ _ _ = conflict at disputed
    cases conflict with
    | none => cases disputed
    | some conflict =>
      cases disputed
      exact spelled_of_buildConflict built
  split at refused
  · cases refused
    cases disputed
  · cases refused

theorem spelled_of_pathRejection
    (refused : pathRejection toLowercase request now claim = some rejection)
    (disputed : request.dispute (.rejected rejection) = some dispute) :
    Spelled dispute := by
  unfold pathRejection at refused
  split at refused
  · cases refused
  next path overlapping =>
    split at refused
    · cases refused
      generalize built : buildConflict _ _ _ _ _ _ = conflict at disputed
      cases conflict with
      | none => cases disputed
      | some conflict =>
        cases disputed
        exact spelled_of_buildConflict built
    split at refused
    · cases refused
      cases disputed
    · cases refused

theorem Reported.spelled (reported : Reported toLowercase dispute) : Spelled dispute := by
  obtain ⟨active, request, now, disputed⟩ := reported
  unfold acquire at disputed
  split at disputed
  next rejection refused =>
    obtain ⟨claim, -, isRefused⟩ := exists_of_findSome?_eq_some refused
    exact spelled_of_scopeRejection isRefused disputed
  split at disputed
  next rejection refused =>
    obtain ⟨claim, -, isRefused⟩ := exists_of_findSome?_eq_some refused
    exact spelled_of_pathRejection isRefused disputed
  split at disputed
  next rejection refused =>
    unfold checkedLeaseExpiry at refused
    split at refused
    · cases refused
      cases disputed
    split at refused <;> cases refused
    cases disputed
  · cases disputed

/-! ## When an id tells conflicts apart -/

def SamePrincipals (first second : ConflictContract) : Prop :=
  first.principalA = second.principalA ∧ first.principalB = second.principalB ∨
    first.principalA = second.principalB ∧ first.principalB = second.principalA

/-- The same unordered pair of principals contests the same scope. -/
def SameConflict (first second : Dispute) : Prop :=
  SamePrincipals first.conflict second.conflict ∧ first.scope = second.scope

/-- The principals and the kinds of scope of a dispute. -/
structure Within (names : String → Prop) (kinds : Option ClaimScopeKind → Prop)
    (dispute : Dispute) : Prop where
  requester : names dispute.conflict.principalA.value
  holder : names dispute.conflict.principalB.value
  kind : kinds dispute.scope.kind

/-- The ids of any two disputes agree exactly if they are the same conflict. -/
def Identifies (toLowercase : String → String) (names : String → Prop)
    (kinds : Option ClaimScopeKind → Prop) : Prop :=
  ∀ first second,
    Reported toLowercase first → Reported toLowercase second →
    Within names kinds first → Within names kinds second →
      (first.conflict.conflictId = second.conflict.conflictId ↔ SameConflict first second)

/-- All scopes are of one kind, and no pair of principals begins like another
one. -/
def Separable (names : String → Prop) (kinds : Option ClaimScopeKind → Prop) : Prop :=
  ∀ low high low' high' kind kind',
    names low → names high → names low' → names high' →
    kinds kind → kinds kind' →
    low < high → low' < high' →
    (pairText low high).toList <+: (pairText low' high').toList →
      low = low' ∧ high = high' ∧ kind = kind'

theorem samePrincipals_iff :
    SamePrincipals first.conflict second.conflict ↔
      first.low = second.low ∧ first.high = second.high := by
  simp only [SamePrincipals, Dispute.low, Dispute.high, ← principalId_value_injective.eq_iff]
  grind

section Sufficient

variable {names : String → Prop} {kinds : Option ClaimScopeKind → Prop}

theorem Within.low (within : Within names kinds dispute) : names dispute.low := by
  rcases min_choice dispute.conflict.principalA.value dispute.conflict.principalB.value with
    isRequester | isHolder
  · rw [Dispute.low, isRequester]
    exact within.requester
  · rw [Dispute.low, isHolder]
    exact within.holder

theorem Within.high (within : Within names kinds dispute) : names dispute.high := by
  rcases max_choice dispute.conflict.principalA.value dispute.conflict.principalB.value with
    isRequester | isHolder
  · rw [Dispute.high, isRequester]
    exact within.requester
  · rw [Dispute.high, isHolder]
    exact within.holder

theorem conflictId_eq_iff (firstSpelled : Spelled first) (secondSpelled : Spelled second) :
    first.conflict.conflictId = second.conflict.conflictId ↔
      (pairText first.low first.high).toList ++ first.scope.target.toList =
        (pairText second.low second.high).toList ++ second.scope.target.toList := by
  rw [← stableId_value_injective.eq_iff, firstSpelled.named, secondSpelled.named,
    ← String.toList_inj]
  simp only [String.toList_append, append_cancel_left_eq]

theorem conflictId_eq_of_sameConflict (firstSpelled : Spelled first)
    (secondSpelled : Spelled second) (same : SameConflict first second) :
    first.conflict.conflictId = second.conflict.conflictId := by
  obtain ⟨low, high⟩ := samePrincipals_iff.mp same.1
  rw [conflictId_eq_iff firstSpelled secondSpelled, low, high, same.2]

theorem Separable.sameConflict (separable : Separable names kinds)
    (firstSpelled : Spelled first) (secondSpelled : Spelled second)
    (firstWithin : Within names kinds first) (secondWithin : Within names kinds second)
    (sameId : first.conflict.conflictId = second.conflict.conflictId) :
    SameConflict first second := by
  have joined := (conflictId_eq_iff firstSpelled secondSpelled).mp sameId
  -- Both pairs begin the same id, so one begins the other.
  have pairs : first.low = second.low ∧ first.high = second.high ∧
      first.scope.kind = second.scope.kind := by
    rcases prefix_or_prefix_of_prefix ⟨_, joined⟩ (prefix_append _ _) with begins | begins
    · exact separable _ _ _ _ _ _ firstWithin.low firstWithin.high secondWithin.low
        secondWithin.high firstWithin.kind secondWithin.kind firstSpelled.ordered
        secondSpelled.ordered begins
    · obtain ⟨low, high, kind⟩ := separable _ _ _ _ _ _ secondWithin.low secondWithin.high
        firstWithin.low firstWithin.high secondWithin.kind firstWithin.kind
        secondSpelled.ordered firstSpelled.ordered begins
      exact ⟨low.symm, high.symm, kind.symm⟩
  obtain ⟨low, high, kind⟩ := pairs
  rw [low, high, append_cancel_left_eq, String.toList_inj] at joined
  refine ⟨samePrincipals_iff.mpr ⟨low, high⟩, ?_⟩
  rw [← first.scope.of_kind_target, ← second.scope.of_kind_target, kind, joined]

theorem Separable.identifies (separable : Separable names kinds) :
    Identifies toLowercase names kinds := by
  intro first second firstReported secondReported firstWithin secondWithin
  exact ⟨separable.sameConflict firstReported.spelled secondReported.spelled
      firstWithin secondWithin,
    conflictId_eq_of_sameConflict firstReported.spelled secondReported.spelled⟩

theorem separable_of_undotted (undotted : ∀ name, names name → '.' ∉ name.toList)
    (oneKind : ∀ kind kind', kinds kind → kinds kind' → kind = kind') :
    Separable names kinds := by
  intro low high low' high' kind kind' isLow isHigh isLow' isHigh' isKind isKind' _ _ begins
  obtain ⟨rest, split⟩ := begins
  have spelled : low.toList ++ '.' :: (high.toList ++ '.' :: rest) =
      low'.toList ++ '.' :: (high'.toList ++ '.' :: []) := by
    simpa [pairText] using split
  obtain ⟨lows, others⟩ := Dotted.eq_of_joined (undotted low isLow) (undotted low' isLow') spelled
  obtain ⟨highs, -⟩ := Dotted.eq_of_joined (undotted high isHigh) (undotted high' isHigh') others
  exact ⟨String.toList_injective lows, String.toList_injective highs,
    oneKind kind kind' isKind isKind'⟩

end Sufficient

/-! ## Acquires for every pair of principals -/

namespace Contest

def request (agent : String) (kind : ClaimScopeKind) (scope path : String) : AcquireRequest where
  scopeKind := kind
  scopeId := ⟨scope⟩
  principalId := none
  agentId := ⟨agent⟩
  role := .worker
  ttlSeconds := 3600
  heartbeatIntervalSeconds := 60
  paths := [⟨path⟩]
  productArea := none
  expectedStateVersion := none

def claim (agent : String) (kind : ClaimScopeKind) (scope path : String) : ClaimContract :=
  acquiredClaim (request agent kind scope path) 0 3600

/-- The dispute of a requester with the holder of a scope. -/
def between (requester holder : String) (scope : ContestedScope) : Dispute where
  scope := scope
  conflict :=
    { conflictId := ⟨"conflict." ++
        (pairText (min requester holder) (max requester holder) ++ scope.target)⟩
      intentA := ⟨requester⟩
      intentB := ⟨holder⟩
      principalA := ⟨requester⟩
      principalB := ⟨holder⟩
      contestedScope := ⟨if scope.kind = none then .pathPrefix else .project, ⟨scope.target⟩⟩
      detectionReason := if scope.kind = none then .pathOverlap else .authorityScopeOverlap
      detectedAt := 0
      resolution := .pending }

theorem within_between {names : String → Prop} {kinds : Option ClaimScopeKind → Prop}
    {requester holder target : String} (isRequester : names requester) (isHolder : names holder)
    (isKind : kinds kind) : Within names kinds (between requester holder (.of kind target)) where
  requester := isRequester
  holder := isHolder
  kind := by
    rw [between, ContestedScope.kind_of]
    exact isKind

theorem isLive_claim (agent : String) (kind : ClaimScopeKind) (scope path : String) :
    isLive (claim agent kind scope path) 0 = true := by
  have expiry : rfc3339ToUnix (unixToRfc3339 3600) = some 3600 := by decide +kernel
  simp [isLive, isExpired, claim, acquiredClaim, expiry, ClaimStatus.isOpen]

theorem buildConflict_actors {requester holder : String} (apart : requester ≠ holder)
    (scope : ContestedScope) :
    buildConflict ⟨none, ⟨requester⟩⟩ ⟨none, ⟨holder⟩⟩
      (between requester holder scope).conflict.contestedScope.kind scope.target
      (between requester holder scope).conflict.detectionReason 0 =
        some (between requester holder scope).conflict := by
  rcases lt_or_gt_of_ne apart with below | above
  · simp [buildConflict, ConflictActor.identity, between, pairText, apart, below.le,
      String.append_assoc]
  · simp [buildConflict, ConflictActor.identity, between, pairText, apart, above.le,
      not_le.mpr above, String.append_assoc]

theorem reported_claim {requester holder : String} (apart : requester ≠ holder)
    (kind : ClaimScopeKind) (id : String) :
    Reported toLowercase (between requester holder (.claim kind ⟨id⟩)) := by
  refine ⟨[claim holder kind id "p"], request requester kind id "p", 0, ?_⟩
  have held : claimHoldsScope (claim holder kind id "p") kind ⟨id⟩ = true := by
    simp [claimHoldsScope, claim, acquiredClaim, request]
  have refused : scopeRejection (request requester kind id "p") 0 (claim holder kind id "p") =
      some (.alreadyClaimedByOther ⟨id⟩ ⟨holder⟩ (unixToRfc3339 3600)
        (some (between requester holder (.claim kind ⟨id⟩)).conflict)) := by
    have built := buildConflict_actors apart (.claim kind ⟨id⟩)
    rw [scopeRejection, if_neg (by simp [request, held]), if_pos (isLive_claim ..), ← built]
    rfl
  rw [acquire, findSome?_cons, refused]
  rfl

/-- A single part that is not a dotted spelling overlaps itself. -/
theorem repoPathsOverlap_self {path : String}
    (lower : ∀ part, toLowercase part = ".." → part = "..")
    (plain : ∀ char ∈ path.toList, isPathSeparator char = false)
    (named : 'x' ∈ path.toList) :
    repoPathsOverlap toLowercase ⟨path⟩ ⟨path⟩ = true := by
  have parts : split isPathSeparator path = [path] := by
    rw [split, splitChars_clean plain, map_singleton, String.ofList_toList]
  have unlike : ∀ spelling : String, 'x' ∉ spelling.toList → path ≠ spelling := by
    rintro spelling missing rfl
    exact missing named
  have notRoot : isExplicitRepoRootPath path = false := by
    simp [isExplicitRepoRootPath, parts, unlike "" (by decide), unlike "." (by decide)]
  have segments : normalizeSegments toLowercase path = [toLowercase path] := by
    simp [normalizeSegments, parts, normalizePart, unlike "" (by decide),
      unlike "." (by decide), unlike ".." (by decide)]
  have inside : toLowercase path ≠ ".." :=
    fun climbs => unlike ".." (by decide) (lower path climbs)
  simp [repoPathsOverlap, notRoot, segments, escapesRepoRoot, inside, pathCovers]

theorem reported_path {requester holder path : String} (apart : requester ≠ holder)
    (overlaps : repoPathsOverlap toLowercase ⟨path⟩ ⟨path⟩ = true) :
    Reported toLowercase (between requester holder (.path ⟨path⟩)) := by
  refine ⟨[claim holder .story "held" path], request requester .story "wanted" path, 0, ?_⟩
  have free : scopeRejection (request requester .story "wanted" path) 0
      (claim holder .story "held" path) = none := by
    rw [scopeRejection, if_pos]
    simp [claimHoldsScope, claim, acquiredClaim, request]
  have refused : pathRejection toLowercase (request requester .story "wanted" path) 0
      (claim holder .story "held" path) =
      some (.pathAlreadyClaimed ⟨path⟩ (claim holder .story "held" path).id ⟨holder⟩
        (unixToRfc3339 3600) (some (between requester holder (.path ⟨path⟩)).conflict)) := by
    have built := buildConflict_actors apart (.path ⟨path⟩)
    have first : firstOverlappingPath toLowercase [⟨path⟩] [⟨path⟩] = some ⟨path⟩ := by
      simp [firstOverlappingPath, overlaps]
    rw [pathRejection, show (request requester .story "wanted" path).paths = [⟨path⟩] from rfl,
      show (claim holder .story "held" path).scope.paths = [⟨path⟩] from rfl, first]
    simp only
    rw [if_pos (isLive_claim ..), ← built]
    rfl
  rw [acquire, findSome?_cons, free, findSome?_nil]
  simp only
  rw [findSome?_cons, refused]
  rfl

end Contest

/-- With paths among the scopes, no principal is spelled like a path, and
lower-casing does not make a parent reference. -/
structure PlainNames (toLowercase : String → String) (names : String → Prop) : Prop where
  lower : ∀ part, toLowercase part = ".." → part = ".."
  names : ∀ name, names name → ∀ char ∈ name.toList, isPathSeparator char = false

section Necessary

variable {names : String → Prop} {kinds : Option ClaimScopeKind → Prop}

theorem exists_reported {requester holder target : String}
    (plain : kinds none → PlainNames toLowercase names)
    (isKind : kinds kind) (apart : requester ≠ holder)
    (clean : kinds none → ∀ char ∈ target.toList, isPathSeparator char = false)
    (named : 'x' ∈ target.toList) :
    Reported toLowercase (Contest.between requester holder (.of kind target)) := by
  cases kind with
  | some kind => exact Contest.reported_claim apart kind target
  | none =>
    exact Contest.reported_path apart
      (Contest.repoPathsOverlap_self (plain isKind).lower (clean isKind) named)

theorem Identifies.separable (plain : kinds none → PlainNames toLowercase names)
    (identifies : Identifies toLowercase names kinds) : Separable names kinds := by
  intro low high low' high' kind kind' isLow isHigh isLow' isHigh' isKind isKind' below below'
    begins
  obtain ⟨rest, split⟩ := begins
  have restClean : kinds none → ∀ char ∈ rest, isPathSeparator char = false := by
    intro paths char member
    have inPair : char ∈ (pairText low' high').toList := by
      rw [← split]
      exact mem_append_right _ member
    simp only [pairText, String.toList_append, mem_append] at inPair
    rcases inPair with ((isName | isDot) | isName) | isDot
    · exact (plain paths).names low' isLow' char isName
    · rw [List.mem_singleton.mp isDot]
      rfl
    · exact (plain paths).names high' isHigh' char isName
    · rw [List.mem_singleton.mp isDot]
      rfl
  -- What the longer pair adds goes to the target of the shorter one.
  have longer : Reported toLowercase
      (Contest.between low high (.of kind (String.ofList (rest ++ ['x'])))) := by
    apply exists_reported plain isKind below.ne
    · intro paths char member
      rw [String.toList_ofList, mem_append, mem_singleton] at member
      rcases member with inRest | rfl
      · exact restClean paths char inRest
      · rfl
    · simp
  have shorter : Reported toLowercase (Contest.between low' high' (.of kind' "x")) :=
    exists_reported plain isKind' below'.ne (by simp [isPathSeparator]) (by simp)
  have same := (identifies _ _ longer shorter (Contest.within_between isLow isHigh isKind)
    (Contest.within_between isLow' isHigh' isKind')).mp ?_
  · obtain ⟨principals, scopes⟩ := same
    obtain ⟨lows, highs⟩ := samePrincipals_iff.mp principals
    simp only [Contest.between, Dispute.low, Dispute.high, min_eq_left below.le,
      min_eq_left below'.le, max_eq_right below.le, max_eq_right below'.le] at lows highs
    have kinds := congrArg ContestedScope.kind scopes
    simp only [Contest.between, ContestedScope.kind_of] at kinds
    exact ⟨lows, highs, kinds⟩
  · rw [conflictId_eq_iff longer.spelled shorter.spelled]
    simp [Contest.between, Dispute.low, Dispute.high, min_eq_left below.le,
      min_eq_left below'.le, max_eq_right below.le, max_eq_right below'.le, ← split]

end Necessary

/-! ## The ledger keeps conflicts apart -/

/-- A call on the ledger, with the scope that was contested behind a recorded
conflict. -/
abbrev LedgerStep := EventLog.GovernanceCall × ContestedScope

def Dispute.recorded (dispute : Dispute) (nowUnix : Nat) : LedgerStep :=
  (.record dispute.conflict nowUnix, dispute.scope)

theorem eq_of_recorded (same : first.recorded time = second.recorded nowUnix) :
    first = second := by
  cases first
  cases second
  cases same
  rfl

/-- The ledger that a run leaves. -/
def ledgerAfter (codec : EventLog.EventCodec EventLog.GovernanceEvent)
    (steps : List LedgerStep) : List UInt8 :=
  EventLog.governanceFile codec (steps.map Prod.fst)

/-- A conflict is dropped only behind one that is the same. -/
def DropsOnlyRepeats (codec : EventLog.EventCodec EventLog.GovernanceEvent)
    (steps : List LedgerStep) : Prop :=
  ∀ before dispute nowUnix after,
    steps = before ++ dispute.recorded nowUnix :: after →
    (EventLog.recordWithDurability codec (ledgerAfter codec before)
      dispute.conflict nowUnix).2 = .alreadyRecorded →
      ∃ earlier time, earlier.recorded time ∈ before ∧ SameConflict earlier dispute

/-- A run records only what acquires between the names over the kinds report. -/
def RecordsWithin (toLowercase : String → String) (names : String → Prop)
    (kinds : Option ClaimScopeKind → Prop) (steps : List LedgerStep) : Prop :=
  ∀ dispute nowUnix, dispute.recorded nowUnix ∈ steps →
    Reported toLowercase dispute ∧ Within names kinds dispute

theorem contains_of_alreadyRecorded
    (dropped : (EventLog.recordWithDurability codec file conflict nowUnix).2 = .alreadyRecorded) :
    ∃ projection, EventLog.replayBytes EventLog.governanceDomain codec file = .ok projection ∧
      projection.conflicts.contains conflict.conflictId.value = true := by
  unfold EventLog.recordWithDurability at dropped
  split at dropped
  · cases dropped
  next projection readable =>
    split at dropped
    next known => exact ⟨projection, readable, known⟩
    split at dropped
    · cases dropped
    · cases dropped

section Ledger

variable {codec : EventLog.EventCodec EventLog.GovernanceEvent}
    (lawful : codec.Lawful fun _ => True)

include lawful

theorem Separable.dropsOnlyRepeats (separable : Separable names kinds)
    (within : RecordsWithin toLowercase names kinds steps) : DropsOnlyRepeats codec steps := by
  intro before dispute nowUnix after split dropped
  obtain ⟨projection, readable, known⟩ := contains_of_alreadyRecorded dropped
  obtain ⟨earlier, ⟨time, member⟩, sameId⟩ :=
    EventLog.recordedIn_of_contains lawful _ readable known
  obtain ⟨⟨call, scope⟩, isStep, rfl⟩ := List.mem_map.mp member
  refine ⟨⟨scope, earlier⟩, time, isStep, ?_⟩
  obtain ⟨earlierReported, earlierWithin⟩ := within ⟨scope, earlier⟩ time
    (split ▸ mem_append_left _ isStep)
  obtain ⟨reported, isWithin⟩ := within dispute nowUnix
    (split ▸ mem_append_right _ mem_cons_self)
  exact separable.sameConflict earlierReported.spelled reported.spelled earlierWithin isWithin
    (stableId_value_injective sameId)

/-- A record behind one with the same id is dropped. -/
theorem recorded_id_is_dropped
    (sameId : first.conflict.conflictId = second.conflict.conflictId) (time nowUnix : Nat) :
    (EventLog.recordWithDurability codec (ledgerAfter codec [first.recorded time])
      second.conflict nowUnix).2 = .alreadyRecorded := by
  have empty := (@EventLog.sound_nil _ _ _ EventLog.governanceDomain codec fun _ => True)
  have appended := @EventLog.Sound.append _ _ _ EventLog.governanceDomain codec
      (fun _ => True) [] [] empty (.detected 1 time first.conflict) trivial rfl
  have file : ledgerAfter codec [first.recorded time] =
        EventLog.append codec [] (.detected 1 time first.conflict) := by
    have fresh : (EventLog.applied EventLog.governanceDomain
          []).conflicts.contains first.conflict.conflictId.value = false := by
      simp [EventLog.applied, EventLog.governanceDomain]
    simp only [ledgerAfter, map_cons, map_nil, Dispute.recorded, EventLog.governanceFile,
      foldl_cons, foldl_nil, EventLog.GovernanceCall.run, EventLog.recordWithDurability,
      empty.replay_eq lawful, fresh]
    rfl
  rw [file, EventLog.recordWithDurability, appended.replay_eq lawful]
  have known : (EventLog.applied EventLog.governanceDomain
        ([] ++ [.detected 1 time first.conflict])).conflicts.contains
          second.conflict.conflictId.value = true := by
    rw [EventLog.applied_concat, ← sameId]
    exact Std.ExtTreeMap.contains_insert_self
  simp only [known, if_true]

end Ledger

/-- If the scopes are of one kind and no pair of principals begins like
another, the ids identify conflicts and the ledger drops only repetitions; and
nothing less is enough for the ids to identify conflicts. -/
theorem conflict_ids_identify_iff_separable
    (toLowercase : String → String)
    (names : String → Prop)
    (kinds : Option ClaimScopeKind → Prop) :
    (Separable names kinds →
      Identifies toLowercase names kinds ∧
      ∀ (codec : EventLog.EventCodec EventLog.GovernanceEvent) (steps : List LedgerStep),
        (codec.Lawful fun _ => True) →
        RecordsWithin toLowercase names kinds steps →
          DropsOnlyRepeats codec steps) ∧
    ((kinds none → PlainNames toLowercase names) →
      Identifies toLowercase names kinds →
        Separable names kinds) := by
  refine ⟨?_, Identifies.separable⟩
  intro separable
  refine ⟨separable.identifies, ?_⟩
  intro codec steps lawful within
  exact separable.dropsOnlyRepeats lawful within

/-- Two different conflicts under one id, and the second one lost. -/
structure Merged (first second : Dispute) : Prop where
  firstReported : Reported toAsciiLowercase first
  secondReported : Reported toAsciiLowercase second
  confused : ¬(first.conflict.conflictId = second.conflict.conflictId ↔
    SameConflict first second)
  dropped : ¬DropsOnlyRepeats EventLog.governanceCodec [first.recorded 0, second.recorded 0]

theorem merged_of_sameId (firstReported : Reported toAsciiLowercase first)
    (secondReported : Reported toAsciiLowercase second)
    (sameId : first.conflict.conflictId = second.conflict.conflictId)
    (different : ¬SameConflict first second) : Merged first second where
  firstReported := firstReported
  secondReported := secondReported
  confused identify := different (identify.mp sameId)
  dropped drops := by
    obtain ⟨earlier, time, member, same⟩ := drops [first.recorded 0] second 0 [] rfl
      (recorded_id_is_dropped EventLog.governanceCodec_lawful sameId 0 0)
    rw [eq_of_recorded (List.mem_singleton.mp member)] at same
    exact different same

/-- Two pairs of principals that join to the same text share an id, and so do
a story, a lane and a path of one name. -/
theorem dotted_principals_share_conflict_id :
    Merged (Contest.between "b.c" "a" (.claim .story ⟨"s"⟩))
        (Contest.between "c" "a.b" (.claim .story ⟨"s"⟩)) ∧
      Merged (Contest.between "b" "a" (.claim .story ⟨"s"⟩))
        (Contest.between "b" "a" (.claim .lane ⟨"s"⟩)) ∧
      Merged (Contest.between "b" "a" (.claim .story ⟨"s"⟩))
        (Contest.between "b" "a" (.path ⟨"s"⟩)) := by
  refine ⟨merged_of_sameId (Contest.reported_claim (by decide) _ _)
      (Contest.reported_claim (by decide) _ _) (by decide) ?_,
    merged_of_sameId (Contest.reported_claim (by decide) _ _)
      (Contest.reported_claim (by decide) _ _) rfl ?_,
    merged_of_sameId (Contest.reported_claim (by decide) _ _)
      (Contest.reported_path (by decide) (by decide +kernel)) rfl ?_⟩
  · rintro ⟨same | crossed, -⟩
    · exact absurd same (by decide)
    · exact absurd crossed (by decide)
  · rintro ⟨-, scopes⟩
    cases scopes
  · rintro ⟨-, scopes⟩
    cases scopes

/-- One story, contested from both sides. -/
theorem conflict_ids_identify_swapped :
    SameConflict (Contest.between "b" "a" (.claim .story ⟨"s"⟩))
        (Contest.between "a" "b" (.claim .story ⟨"s"⟩)) ∧
      DropsOnlyRepeats EventLog.governanceCodec
        [(Contest.between "b" "a" (.claim .story ⟨"s"⟩)).recorded 0,
          (Contest.between "a" "b" (.claim .story ⟨"s"⟩)).recorded 1] := by
  have separable : Separable (fun name => name = "a" ∨ name = "b")
      (fun kind => kind = some .story) := by
    apply separable_of_undotted
    · rintro name (rfl | rfl) <;> decide
    · rintro kind kind' rfl rfl
      rfl
  have reported : ∀ requester holder, requester ≠ holder →
      Reported toAsciiLowercase (Contest.between requester holder (.claim .story ⟨"s"⟩)) :=
    fun requester holder apart => Contest.reported_claim apart .story "s"
  obtain ⟨identifies, drops⟩ := (conflict_ids_identify_iff_separable toAsciiLowercase _ _).1
    separable
  refine ⟨(identifies _ _ (reported "b" "a" (by decide)) (reported "a" "b" (by decide))
      ⟨.inr rfl, .inl rfl, rfl⟩ ⟨.inl rfl, .inr rfl, rfl⟩).mp (by decide), ?_⟩
  apply drops _ _ EventLog.governanceCodec_lawful
  intro dispute nowUnix member
  rcases List.mem_pair.mp member with isFirst | isSecond
  · rw [eq_of_recorded isFirst]
    exact ⟨reported "b" "a" (by decide), .inr rfl, .inl rfl, rfl⟩
  · rw [eq_of_recorded isSecond]
    exact ⟨reported "a" "b" (by decide), .inl rfl, .inr rfl, rfl⟩

end ForgeCore.Claims
