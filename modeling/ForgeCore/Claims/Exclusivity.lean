import ForgeCore.Claims.Bus

/-!
# Claims exclude each other

An open claim is active or stale, whether or not its lease has run out.  The
default expiry policy makes even an expired open claim refuse a second
acquire, so the clock never decides whether two open claims meet.
-/

namespace ForgeCore.Claims

open List Text

/-- What every operation on an existing claim does to it: the identity, the
scope and the expiry policy stay, and a closed claim stays closed. -/
structure Continues (claim next : ClaimContract) : Prop where
  id : next.id = claim.id
  scope : next.scope = claim.scope
  expiryPolicy : next.expiryPolicy = claim.expiryPolicy
  opened : next.status.value.isOpen → claim.status.value.isOpen

variable {claim next : ClaimContract} {now : Int} {bus : Bus}

variable {agentId : StableId} {toLowercase : String → String}

theorem heartbeat_continues (accepted : heartbeat claim agentId now = .accepted next) :
    Continues claim next := by
  unfold heartbeat at accepted
  split at accepted
  · cases accepted
  split at accepted
  · cases accepted
  split at accepted
  · cases accepted
  next isOpen =>
  split at accepted
  · cases accepted
  split at accepted
  · cases accepted
  · cases accepted
    exact ⟨rfl, rfl, rfl, fun _ => by simpa using isOpen⟩

theorem release_continues (accepted : release claim agentId now = .accepted next) :
    Continues claim next := by
  unfold release at accepted
  split at accepted
  · cases accepted
  split at accepted
  · cases accepted
  split at accepted
  · cases accepted
  split at accepted
  · cases accepted
  · cases accepted
    exact ⟨rfl, rfl, rfl, fun isOpen => by cases isOpen⟩

theorem recordHandoff_continues (accepted : recordHandoff claim request now = .accepted next) :
    Continues claim next := by
  have recorded : next.id = claim.id ∧ next.scope = claim.scope ∧
        next.expiryPolicy = claim.expiryPolicy ∧
        next.status.value = .handoffRecorded := by
    unfold recordHandoff at accepted
    split at accepted
    · cases accepted
    split at accepted
    · cases accepted
    split at accepted
    · split at accepted <;> cases accepted
      exact ⟨rfl, rfl, rfl, rfl⟩
    · split at accepted <;> cases accepted
      exact ⟨rfl, rfl, rfl, rfl⟩
    all_goals cases accepted
    exact ⟨rfl, rfl, rfl, rfl⟩
  obtain ⟨id, scope, expiryPolicy, status⟩ := recorded
  refine ⟨id, scope, expiryPolicy, fun isOpen => ?_⟩
  rw [status] at isOpen
  cases isOpen

theorem reconcileClaim_continues (reconciled : reconcileClaim claim now = some transition) :
    Continues claim transition.updated := by
  unfold reconcileClaim at reconciled
  split at reconciled
  next openAndExpired =>
    have isOpen : claim.status.value.isOpen := by
      simp only [Bool.and_eq_true] at openAndExpired
      exact openAndExpired.1
    cases reconciled
    exact ⟨rfl, rfl, rfl, fun _ => isOpen⟩
  next =>
    split at reconciled
    next active =>
      obtain ⟨reason, _, rfl⟩ := Option.map_eq_some_iff.mp reconciled
      exact ⟨rfl, rfl, rfl, fun _ => by rw [active]; rfl⟩
    all_goals cases reconciled

section Acquire

variable {toLowercase : String → String}

theorem firstOverlappingPath_isSome (requested existing : List RepoPath) :
    (firstOverlappingPath toLowercase requested existing).isSome =
      pathsOverlap toLowercase requested existing := by
  rw [Bool.eq_iff_iff, firstOverlappingPath, find?_isSome, pathsOverlap, any_eq_true]

theorem isLive_or_awaitsHandoff (now : Int) (isOpen : claim.status.value.isOpen)
    (handoff : claim.expiryPolicy.handoffRequired) :
    isLive claim now ∨ awaitsHandoff claim now := by
  cases expired : isExpired claim now with
  | false =>
    left
    simp [isLive, isOpen, expired]
  | true =>
    right
    simp [awaitsHandoff, isOpen, expired, handoff]

variable {request : AcquireRequest}

theorem acquire_accepted (accepted : acquire toLowercase active request now = .accepted next) :
    (∃ expiry, next = acquiredClaim request now expiry) ∧ ∀ claim ∈ active,
      scopeRejection request now claim = none ∧
      pathRejection toLowercase request now claim = none := by
  unfold acquire at accepted
  split at accepted
  · cases accepted
  next scopesFree =>
  split at accepted
  · cases accepted
  next pathsFree =>
  split at accepted
  · cases accepted
  next expiry _ =>
    cases accepted
    refine ⟨⟨expiry, rfl⟩, fun claim member => ?_⟩
    exact ⟨List.findSome?_eq_none_iff.mp scopesFree claim member,
        List.findSome?_eq_none_iff.mp pathsFree claim member⟩

theorem not_claimHoldsScope_of_scopeRejection (blocks : isLive claim now ∨ awaitsHandoff claim now)
    (free : scopeRejection request now claim = none) :
    claimHoldsScope claim request.scopeKind request.scopeId = false := by
  unfold scopeRejection at free
  split at free
  next notHeld => simpa using notHeld
  next =>
    split at free
    · cases free
    next notLive =>
      split at free
      · cases free
      next notWaiting =>
        rcases blocks with live | waiting
        · exact absurd live notLive
        · exact absurd waiting notWaiting

theorem pathsOverlap_false_of_pathRejection (blocks : isLive claim now ∨ awaitsHandoff claim now)
    (free : pathRejection toLowercase request now claim = none) :
    pathsOverlap toLowercase request.paths claim.scope.paths = false := by
  rw [← firstOverlappingPath_isSome]
  unfold pathRejection at free
  split at free
  next noPath => simp [noPath]
  next =>
    split at free
    · cases free
    next notLive =>
      split at free
      · cases free
      next notWaiting =>
        rcases blocks with live | waiting
        · exact absurd live notLive
        · exact absurd waiting notWaiting

end Acquire

section Invariant

variable (toLowercase : String → String)

/-- Two claims name different scopes and no path of one overlaps a path of
the other. -/
structure Disjoint (first second : ClaimContract) : Prop where
  scope : (first.scope.kind, first.scope.id) ≠ (second.scope.kind, second.scope.id)
  paths : ∀ left ∈ first.scope.paths, ∀ right ∈ second.scope.paths,
      repoPathsOverlap toLowercase left right = false

/-- What every call on the bus preserves. -/
structure BusInvariant (bus : Bus) : Prop where
  keyed : ∀ (key : String) (claim : ClaimContract), bus[key]? = some claim → claim.id.value = key
  handoff : ∀ claim ∈ bus.claims, claim.expiryPolicy.handoffRequired
  exclusive : ∀ first ∈ bus.claims, ∀ second ∈ bus.claims, first.id ≠ second.id →
      first.status.value.isOpen → second.status.value.isOpen → Disjoint toLowercase first second

variable {toLowercase}

theorem Disjoint.symm
    (disjoint : Disjoint toLowercase first second) :
    Disjoint toLowercase second first where
  scope := disjoint.scope.symm
  paths := fun left leftMember right rightMember => by
    rw [repoPathsOverlap_comm]
    exact disjoint.paths right rightMember left leftMember

theorem busInvariant_empty : BusInvariant toLowercase (∅ : Bus) where
  keyed := by simp
  handoff := by simp [Bus.claims]
  exclusive := by simp [Bus.claims]

section

variable (invariant : BusInvariant toLowercase bus)

include invariant

theorem Bus.mem_claims_writeBack (member : claim ∈ (bus.writeBack next).claims) :
    claim = next ∨ (claim ∈ bus.claims ∧ claim.id ≠ next.id) := by
  obtain ⟨key, found⟩ := Bus.mem_claims_iff.mp member
  rw [Bus.getElem?_writeBack] at found
  split at found
  · left
    exact (Option.some.inj found).symm
  next differs =>
    right
    refine ⟨Bus.mem_claims_iff.mpr ⟨key, found⟩, fun same => differs ?_⟩
    rw [← same]
    exact invariant.keyed key claim found

/-- Writing one claim keeps the invariant when the new claim has the default
policy and, if open, is disjoint from every other open claim. -/
theorem BusInvariant.writeBack
    (handoff : next.expiryPolicy.handoffRequired)
    (fresh : next.status.value.isOpen → ∀ other ∈ bus.claims, other.id ≠ next.id →
          other.status.value.isOpen → Disjoint toLowercase next other) :
    BusInvariant toLowercase (bus.writeBack next) where
  keyed := by
    intro key claim found
    rw [Bus.getElem?_writeBack] at found
    split at found
    next same =>
      cases found
      exact same
    next => exact invariant.keyed key claim found
  handoff := by
    intro claim member
    rcases Bus.mem_claims_writeBack invariant member with rfl | ⟨old, _⟩
    · exact handoff
    · exact invariant.handoff claim old
  exclusive := by
    intro first firstMember second secondMember distinct firstOpen secondOpen
    -- At most one of the two is the claim just written.
    rcases Bus.mem_claims_writeBack invariant firstMember with
      rfl | ⟨firstOld, firstNe⟩
    · rcases Bus.mem_claims_writeBack invariant secondMember with
        rfl | ⟨secondOld, secondNe⟩
      · exact absurd rfl distinct
      · exact fresh firstOpen second secondOld secondNe secondOpen
    · rcases Bus.mem_claims_writeBack invariant secondMember with
        rfl | ⟨secondOld, _⟩
      · exact (fresh secondOpen first firstOld firstNe firstOpen).symm
      · exact invariant.exclusive first firstOld second secondOld distinct firstOpen secondOpen

/-- A continued claim may be written back even if other claims changed since
it was read, as long as the claim under its id is still the one it continues. -/
theorem BusInvariant.writeBack_continues
    (member : claim ∈ bus.claims) (continues : Continues claim next) :
    BusInvariant toLowercase (bus.writeBack next) := by
  apply invariant.writeBack
  · rw [continues.expiryPolicy]
    exact invariant.handoff claim member
  · intro isOpen other otherMember differs otherOpen
    have distinct : claim.id ≠ other.id := by
      rw [← continues.id]
      exact differs.symm
    have disjoint := invariant.exclusive claim member other otherMember distinct
        (continues.opened isOpen) otherOpen
    exact
      { scope := by rw [continues.scope]; exact disjoint.scope
        paths := by rw [continues.scope]; exact disjoint.paths }

theorem BusInvariant.settle_continues
    (member : claim ∈ bus.claims)
    (continues : ∀ next, decision = .accepted next → Continues claim next) :
    BusInvariant toLowercase (bus.settle decision) := by
  cases decision with
  | accepted next =>
    exact invariant.writeBack_continues member (continues next rfl)
  | rejected rejection => exact invariant

theorem BusInvariant.settle_acquire (request : AcquireRequest) (now : Int) :
    BusInvariant toLowercase (bus.settle (acquire toLowercase bus.claims request now)) := by
  cases decision : acquire toLowercase bus.claims request now with
  | rejected rejection => exact invariant
  | accepted next =>
    obtain ⟨⟨expiry, rfl⟩, free⟩ := acquire_accepted decision
    apply invariant.writeBack
    · rfl
    · intro _ other member _ otherOpen
      have blocks := isLive_or_awaitsHandoff now otherOpen (invariant.handoff other member)
      obtain ⟨scopeFree, pathFree⟩ := free other member
      have notHeld := not_claimHoldsScope_of_scopeRejection blocks scopeFree
      have noOverlap := pathsOverlap_false_of_pathRejection blocks pathFree
      refine ⟨fun same => ?_, fun left leftMember right rightMember => ?_⟩
      · simp only [acquiredClaim, Prod.mk.injEq] at same
        simp [claimHoldsScope, same] at notHeld
      · simp only [pathsOverlap, any_eq_false, Bool.not_eq_true] at noOverlap
        exact noOverlap left leftMember right rightMember

end

/-- Writing the transitions of one pass.  Each was decided on the claim that
is still stored under its id, because the ids of a pass are distinct. -/
theorem BusInvariant.foldl_writeBack (transitions : List ClaimReconcileTransition) :
    ∀ {bus : Bus}, BusInvariant toLowercase bus →
      (transitions.map fun transition => transition.updated.id).Nodup →
      (∀ transition ∈ transitions, ∃ claim ∈ bus.claims, Continues claim transition.updated) →
      BusInvariant toLowercase (transitions.foldl
      (fun current transition => current.writeBack transition.updated) bus) := by
  induction transitions with
  | nil => exact fun invariant _ _ => invariant
  | cons first rest ih =>
    intro bus invariant distinct sources
    simp only [map_cons, nodup_cons] at distinct
    obtain ⟨claim, member, continues⟩ := sources first (by simp)
    refine ih (invariant.writeBack_continues member continues) distinct.2 ?_
    intro transition transitionMember
    obtain ⟨source, sourceMember, sourceContinues⟩ :=
      sources transition (mem_cons_of_mem first transitionMember)
    refine ⟨source, ?_, sourceContinues⟩
    obtain ⟨key, found⟩ := Bus.mem_claims_iff.mp sourceMember
    refine Bus.mem_claims_iff.mpr ⟨key, ?_⟩
    rw [Bus.getElem?_writeBack, if_neg, found]
    intro sameKey
    apply distinct.1
    have sourceKey := invariant.keyed key source found
    have sameId : first.updated.id = transition.updated.id := by
      rw [sourceContinues.id]
      cases sourceId : source.id with
      | mk value =>
        cases firstId : first.updated.id with
        | mk firstValue => simp_all
    rw [sameId]
    exact List.mem_map.mpr ⟨transition, transitionMember, rfl⟩

theorem BusInvariant.nodup_claim_ids (invariant : BusInvariant toLowercase bus) :
    (bus.claims.map ClaimContract.id).Nodup := by
  rw [Bus.claims, map_map, List.Nodup, pairwise_map]
  refine (Std.TreeMap.distinct_keys_toList (t := bus)).imp_of_mem ?_
  intro first second firstMember secondMember keysDiffer sameId
  have firstKey := invariant.keyed _ _ (Std.TreeMap.mem_toList_iff_getElem?_eq_some.mp firstMember)
  have secondKey := invariant.keyed _ _
      (Std.TreeMap.mem_toList_iff_getElem?_eq_some.mp secondMember)
  apply keysDiffer
  rw [Std.LawfulEqCmp.compare_eq_iff_eq, ← firstKey, ← secondKey]
  exact congrArg ClaimId.value sameId

theorem reconcileClaims_ids_sublist (claims : List ClaimContract) (now : Int) :
    ((reconcileClaims claims now).transitions.map fun transition => transition.updated.id).Sublist
      (claims.map ClaimContract.id) := by
  simp only [reconcileClaims]
  induction claims with
  | nil => exact List.Sublist.refl []
  | cons claim rest ih =>
    cases reconciled : reconcileClaim claim now with
    | none =>
      simp only [filterMap_cons, reconciled, map_cons]
      exact ih.cons claim.id
    | some transition =>
      simp only [filterMap_cons, reconciled, map_cons, (reconcileClaim_continues reconciled).id]
      exact ih.cons_cons claim.id

section

variable (invariant : BusInvariant toLowercase bus)

include invariant

theorem BusInvariant.reconcile (now : Int) (written : Nat) :
    BusInvariant toLowercase (((reconcileClaims bus.claims now).transitions.take written).foldl
      (fun current transition => current.writeBack transition.updated) bus) := by
  apply BusInvariant.foldl_writeBack _ invariant
  · rw [map_take]
    have distinct := invariant.nodup_claim_ids.sublist (reconcileClaims_ids_sublist bus.claims now)
    exact distinct.sublist (take_sublist written _)
  · intro transition member
    have transitionMember := mem_of_mem_take member
    simp only [reconcileClaims, mem_filterMap] at transitionMember
    obtain ⟨claim, claimMember, reconciled⟩ := transitionMember
    exact ⟨claim, claimMember, reconcileClaim_continues reconciled⟩

theorem busInvariant_busStep (now : Int) (command : BusCommand) :
    BusInvariant toLowercase (busStep toLowercase bus now command) := by
  cases command with
  | acquire request => exact invariant.settle_acquire request now
  | heartbeat claimId agentId =>
    simp only [busStep]
    cases found : bus[claimId.value]? with
    | none => exact invariant
    | some claim =>
      exact invariant.settle_continues (Bus.mem_claims_iff.mpr ⟨claimId.value, found⟩)
          fun _ accepted => heartbeat_continues accepted
  | release claimId agentId =>
    simp only [busStep]
    cases found : bus[claimId.value]? with
    | none => exact invariant
    | some claim =>
      exact invariant.settle_continues (Bus.mem_claims_iff.mpr ⟨claimId.value, found⟩)
          fun _ accepted => release_continues accepted
  | recordHandoff claimId request =>
    simp only [busStep]
    cases found : bus[claimId.value]? with
    | none => exact invariant
    | some claim =>
      exact invariant.settle_continues (Bus.mem_claims_iff.mpr ⟨claimId.value, found⟩)
          fun _ accepted => recordHandoff_continues accepted
  | reconcile written => exact invariant.reconcile now written

theorem busInvariant_busRun (history : List (Int × BusCommand)) :
    BusInvariant toLowercase (busRun toLowercase bus history) := by
  induction history generalizing bus with
  | nil => exact invariant
  | cons entry rest ih =>
    exact ih (busInvariant_busStep invariant entry.1 entry.2)

end

end Invariant

/-- In every state of every run from the empty bus, two different claims that
are both active or stale have different scopes and no overlapping paths. -/
theorem open_claims_disjoint
    (toLowercase : String → String)
    (history : List (Int × BusCommand)) :
    let bus := busRun toLowercase ∅ history
    ∀ first ∈ bus.claims, ∀ second ∈ bus.claims,
      first ≠ second →
      first.status.value.isOpen →
      second.status.value.isOpen →
        (first.scope.kind, first.scope.id) ≠ (second.scope.kind, second.scope.id) ∧
        ∀ left ∈ first.scope.paths, ∀ right ∈ second.scope.paths,
          repoPathsOverlap toLowercase left right = false := by
  intro bus first firstMember second secondMember distinct firstOpen secondOpen
  have invariant : BusInvariant toLowercase bus := busInvariant_busRun busInvariant_empty history
  have distinctIds : first.id ≠ second.id := by
    intro same
    exact distinct (inj_on_of_nodup_map invariant.nodup_claim_ids firstMember secondMember same)
  have disjoint := invariant.exclusive first firstMember second secondMember distinctIds
      firstOpen secondOpen
  exact ⟨disjoint.scope, disjoint.paths⟩

private def storyRequest (scope agent path : String) : AcquireRequest where
  scopeKind := .story
  scopeId := ⟨scope⟩
  principalId := some ⟨agent⟩
  agentId := ⟨agent⟩
  role := .worker
  ttlSeconds := 600
  heartbeatIntervalSeconds := 120
  paths := [⟨path⟩]
  productArea := none
  expectedStateVersion := none

/-- Two agents on neighbouring paths, the second with a clock that runs an
hour behind. -/
theorem open_claims_disjoint_neighbours :
    let alice := acquiredClaim (storyRequest "s1" "alice" "src/engine") 1779003600
        1779004200
    let bob := acquiredClaim (storyRequest "s2" "bob" "src/engine.rs") 1779000000
        1779000600
    (alice.scope.kind, alice.scope.id) ≠ (bob.scope.kind, bob.scope.id) ∧
      ∀ left ∈ alice.scope.paths, ∀ right ∈ bob.scope.paths,
        repoPathsOverlap toAsciiLowercase left right = false :=
  open_claims_disjoint toAsciiLowercase
    [(1779003600, .acquire (storyRequest "s1" "alice" "src/engine")),
      (1779000000, .acquire (storyRequest "s2" "bob" "src/engine.rs"))]
    _ (by decide) _ (by decide) (by decide) (by decide) (by decide)

/-! ## The command line only takes bus steps -/

theorem resolveClaim_mem (resolved : resolveClaim claims reference = some claim) :
    claim ∈ claims := by
  cases reference with
  | full id | scope id => exact mem_of_find?_eq_some resolved

theorem BusInvariant.getElem?_of_mem
    (invariant : BusInvariant toLowercase bus) (member : claim ∈ bus.claims) :
    bus[claim.id.value]? = some claim := by
  obtain ⟨key, found⟩ := Bus.mem_claims_iff.mp member
  rw [invariant.keyed key claim found, found]

/-- On a bus that keeps its invariant, what an operator typed comes down to
one command of the bus or to none. -/
theorem cliStep_eq_busStep
    (invariant : BusInvariant toLowercase bus) (now : Int) (command : CliCommand) :
    cliStep toLowercase bus now command = bus ∨ ∃ taken, cliStep toLowercase bus now command =
      busStep toLowercase bus now taken := by
  cases command with
  | acquire request =>
    simp only [cliStep]
    split
    · exact Or.inl rfl
    · exact Or.inr ⟨.acquire request, rfl⟩
  | heartbeat token agentId =>
    simp only [cliStep]
    cases resolved : resolveClaim bus.claims (parseClaimRef token) with
    | none => exact Or.inl rfl
    | some claim =>
      have found := invariant.getElem?_of_mem (resolveClaim_mem resolved)
      exact Or.inr ⟨.heartbeat claim.id agentId, by
        simp only [busStep, found]⟩
  | release token agentId =>
    simp only [cliStep]
    cases resolved : resolveClaim bus.claims (parseClaimRef token) with
    | none => exact Or.inl rfl
    | some claim =>
      have found := invariant.getElem?_of_mem (resolveClaim_mem resolved)
      exact Or.inr ⟨.release claim.id agentId, by
        simp only [busStep, found]⟩
  | handoff token agentId summary evidenceRefs =>
    simp only [cliStep]
    cases resolved : resolveClaim bus.claims (parseClaimRef token) with
    | none => exact Or.inl rfl
    | some claim =>
      have found := invariant.getElem?_of_mem (resolveClaim_mem resolved)
      refine Or.inr ⟨.recordHandoff claim.id ⟨agentId, summary,
              handoffArtifactRef claim now :: evidenceRefs⟩, ?_⟩
      simp only [busStep, found]
  | reconcileOnce written =>
    exact Or.inr ⟨.reconcile written, rfl⟩

/-- Every run of the command line is a run of the bus, so the exclusivity of
the bus is the exclusivity that operators see. -/
theorem cliRun_eq_busRun (toLowercase : String → String) (history : List (Int × CliCommand)) :
    ∃ taken : List (Int × BusCommand),
      cliRun toLowercase ∅ history = busRun toLowercase ∅ taken := by
  induction history using List.reverseRecOn with
  | nil => exact ⟨[], rfl⟩
  | append_singleton earlier last ih =>
    obtain ⟨taken, same⟩ := ih
    have invariant : BusInvariant toLowercase (busRun toLowercase ∅ taken) :=
      busInvariant_busRun busInvariant_empty taken
    have unfolded : cliRun toLowercase ∅ (earlier ++ [last]) =
          cliStep toLowercase (busRun toLowercase ∅ taken) last.1 last.2 := by
      rw [← same]
      simp only [cliRun, foldl_append, foldl_cons, foldl_nil]
    rcases cliStep_eq_busStep invariant last.1 last.2 with
      unchanged | ⟨command, stepped⟩
    · exact ⟨taken, unfolded.trans unchanged⟩
    · refine ⟨taken ++ [(last.1, command)], ?_⟩
      rw [unfolded, stepped]
      simp only [busRun, foldl_append, foldl_cons, foldl_nil]

end ForgeCore.Claims
