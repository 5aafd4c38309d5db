import ForgeCore.SupplyChain.Endorsement

/-!
# Revoked packages never come back

Runs of one registry anchor: calls with arbitrary observed versions and
verified snapshots, and restarts that restore the head last reached.  A
revocation fact that the anchor holds once is held by every later anchor and
every later capability.
-/

namespace ForgeCore.SupplyChain

open Text Checked Machine

def ValidFact (fact : DomainPackPackageRevocation) : Prop :=
  isSha256Token fact.recordDigest = true ∧ isBlank fact.explanation = false

/-- The facts in the order of the records that they name. -/
def orderedFacts (facts : List DomainPackPackageRevocation) : List DomainPackPackageRevocation :=
  Collect.ordered (fun fact : DomainPackPackageRevocation => fact.recordDigest) facts

/-- What the loop over the revocations knows. -/
structure FactsSeen (done : List DomainPackPackageRevocation)
    (facts : Std.ExtTreeMap String DomainPackPackageRevocation) : Prop where
  collected : facts = Collect.map
        (fun fact : DomainPackPackageRevocation => fact.recordDigest) id done
  valid : ∀ fact ∈ done, ValidFact fact
  distinct : (done.map (·.recordDigest)).Nodup

theorem collectRevocation_ok {facts next} : collectRevocation facts revocation = .ok next ↔
      ValidFact revocation ∧ revocation.recordDigest ∉ facts ∧
      next = facts.insert revocation.recordDigest revocation := by
  simp only [collectRevocation, bind_eq_ok, requireDigest, require_eq_ok,
    exists_and_left, exists_const, ValidFact, Bool.not_eq_true', and_assoc,
    pure, Except.pure, Except.ok.injEq, @eq_comm _ _ next]
  simp [← Bool.not_eq_true, Std.ExtTreeMap.contains_iff_mem]

theorem factsSeen_step {done facts next}
    {revocation : DomainPackPackageRevocation} (holds : FactsSeen done facts)
    (accepted : collectRevocation facts revocation = .ok next) :
    FactsSeen (done ++ [revocation]) next := by
  obtain ⟨valid, unseen, rfl⟩ := collectRevocation_ok.mp accepted
  constructor
  · rw [Collect.map_concat, ← holds.collected, id]
  · intro fact member
    rcases List.mem_append.mp member with old | last
    · exact holds.valid fact old
    · rwa [List.mem_singleton.mp last]
  · rw [List.map_append, List.nodup_append]
    refine ⟨holds.distinct, List.nodup_singleton _, ?_⟩
    intro digest old other last same
    obtain ⟨fact, member, rfl⟩ := List.mem_map.mp old
    have isLast : other = revocation.recordDigest := List.mem_singleton.mp last
    apply unseen
    rw [holds.collected, Std.ExtTreeMap.mem_iff_isSome_getElem?, ← isLast, ← same]
    exact Collect.isSome_getElem?_map member

variable {revocations : List DomainPackPackageRevocation} {fact : DomainPackPackageRevocation}

theorem foldlM_collectRevocation (valid : ∀ fact ∈ revocations, ValidFact fact)
    (distinct : (revocations.map (·.recordDigest)).Nodup) :
    revocations.foldlM collectRevocation ∅ = .ok (Collect.map
      (fun fact : DomainPackPackageRevocation => fact.recordDigest) id revocations) := by
  induction revocations using List.reverseRecOn with
  | nil => rfl
  | append_singleton done last ih =>
    rw [List.map_append, List.nodup_append] at distinct
    obtain ⟨doneDistinct, -, apart⟩ := distinct
    have before := ih (fun fact member => valid fact (List.mem_append_left _ member)) doneDistinct
    have unseen : last.recordDigest ∉ Collect.map
          (fun fact : DomainPackPackageRevocation => fact.recordDigest) id done := by
      rw [Std.ExtTreeMap.mem_iff_isSome_getElem?, Option.isSome_iff_exists]
      rintro ⟨found, looked⟩
      obtain ⟨fact, member, same, -⟩ := Collect.exists_of_getElem?_map looked
      exact apart _ (List.mem_map_of_mem member) _
        (List.mem_map_of_mem (List.mem_singleton_self last)) same
    rw [List.foldlM_append, before, ok_bind, List.foldlM_cons, Collect.map_concat]
    rw [collectRevocation_ok.mpr ⟨valid last (by simp), unseen, rfl⟩]
    rfl

/-- The canonical list holds the facts of the given one, each record at most
once. -/
theorem canonicalRevocationFacts_eq_ok :
    canonicalRevocationFacts revocations = .ok facts ↔ (∀ fact ∈ revocations, ValidFact fact) ∧
      (revocations.map (·.recordDigest)).Nodup ∧ facts = orderedFacts revocations := by
  constructor
  · intro accepted
    obtain ⟨collected, looped, result⟩ := bind_eq_ok.mp accepted
    cases result
    have start : FactsSeen [] ∅ := by
      refine ⟨rfl, ?_, List.nodup_nil⟩
      intro fact member
      cases member
    have seen := foldlM_invariant start
        (fun done current fact next => @factsSeen_step done current next fact) looped
    exact ⟨seen.valid, seen.distinct, by rw [seen.collected]; rfl⟩
  · rintro ⟨valid, distinct, rfl⟩
    rw [canonicalRevocationFacts, foldlM_collectRevocation valid distinct]
    rfl

theorem canonicalRevocationFacts_idem
    (accepted : canonicalRevocationFacts revocations = .ok facts) :
    canonicalRevocationFacts facts = .ok facts := by
  obtain ⟨valid, distinct, rfl⟩ := canonicalRevocationFacts_eq_ok.mp accepted
  refine canonicalRevocationFacts_eq_ok.mpr ⟨?_, ?_, ?_⟩
  · intro fact member
    exact valid fact ((Collect.mem_ordered distinct).mp member)
  · exact Collect.nodup_ordered distinct
  · exact (Collect.ordered_ordered distinct).symm

/-- The fact is in the list, and nothing else in it names its record. -/
structure Retained (fact : DomainPackPackageRevocation)
    (facts : List DomainPackPackageRevocation) : Prop where
  listed : fact ∈ facts
  unique : ∀ other ∈ facts, other.recordDigest = fact.recordDigest → other = fact

theorem retained_of_canonical
    (accepted : canonicalRevocationFacts revocations = .ok facts) (member : fact ∈ facts) :
    Retained fact facts := by
  obtain ⟨-, distinct, rfl⟩ := canonicalRevocationFacts_eq_ok.mp accepted
  refine ⟨member, ?_⟩
  intro other listed same
  exact List.inj_on_of_nodup_map (Collect.nodup_ordered distinct) listed member same

/-- The candidate continues the anchor by one generation. -/
structure DirectSuccessor (anchor : DomainPackRegistryAnchor)
    (candidate : VerifiedDomainPackSupplyChainSnapshot) : Prop where
  generation : candidate.generation = anchor.generation + 1
  predecessor : if anchor.generation = 0 then candidate.previousSnapshotDigest = none
    else candidate.previousSnapshotDigest = anchor.snapshotDigest
  cumulative : ∀ fact ∈ anchor.cumulativeRevocations, fact ∈ candidate.currentRevocations

/-- What a call leaves behind next to what it returns. -/
inductive CallOutcome (anchor : DomainPackRegistryAnchor)
    (candidate : VerifiedDomainPackSupplyChainSnapshot) :
    DomainPackRegistryAnchor × Checked DomainPackRegistryAnchorAdvance → Prop
  | refused (failure : DomainPackSupplyChainError) :
      CallOutcome anchor candidate (anchor, .error failure)
  | replayed (audit : DomainPackRegistryAnchorReplayAudit) : CallOutcome anchor candidate
        (anchor, .ok (.replay
          { verified := candidate
            cumulativeRevocations := anchor.cumulativeRevocations
            cumulativeRevocationDigest := anchor.cumulativeRevocationDigest }
          audit))
  | advanced (follows : DirectSuccessor anchor candidate) : CallOutcome anchor candidate
        (anchor.advanceTo candidate, .ok (.advanced
          { verified := candidate
            cumulativeRevocations := candidate.currentRevocations
            cumulativeRevocationDigest := candidate.currentRevocationDigest }))

theorem forM_eq_ok {item : Type} {step : item → Checked Unit}
    {items : List item} (passed : items.forM step = .ok ()) :
    ∀ entry ∈ items, step entry = .ok () := by
  induction items with
  | nil =>
    intro entry member
    cases member
  | cons head tail ih =>
    obtain ⟨_, first, rest⟩ := bind_eq_ok.mp passed
    exact List.forall_mem_cons.mpr ⟨first, ih rest⟩

theorem mem_of_ensureCumulativeRevocations {prior candidate : List DomainPackPackageRevocation}
    (ensured : ensureCumulativeRevocations prior candidate = .ok ()) (member : fact ∈ prior) :
    fact ∈ candidate := by
  obtain ⟨other, looked, same⟩ := bind_eq_ok.mp (forM_eq_ok ensured fact member)
  obtain ⟨entry, listed, -, rfl⟩ := Collect.exists_of_getElem?_map (found_eq_ok.mp looked)
  rw [← of_decide_eq_true (require_eq_ok.mp same)]
  exact listed

theorem cumulative_of_ensureContinuation {anchor expected candidate}
    (ensured : ensureContinuation anchor expected candidate = .ok ()) :
    ∀ fact ∈ anchor.cumulativeRevocations, fact ∈ candidate.currentRevocations := by
  simp only [ensureContinuation, bind_eq_ok, require_eq_ok, exists_and_left,
    exists_const] at ensured
  obtain ⟨observed, identity, ⟨⟩, policy, ⟨⟩, kept, notStale⟩ := ensured
  intro fact member
  exact mem_of_ensureCumulativeRevocations kept member

theorem directSuccessor_of_ensureSuccessor {anchor candidate}
    (cumulative : ∀ fact ∈ anchor.cumulativeRevocations, fact ∈ candidate.currentRevocations)
    (ensured : ensureSuccessor anchor candidate = .ok ()) : DirectSuccessor anchor candidate := by
  obtain ⟨next, succeeds, ensured⟩ := bind_eq_ok.mp ensured
  obtain ⟨_, generation, ensured⟩ := bind_eq_ok.mp ensured
  refine ⟨?_, ?_, cumulative⟩
  · rw [of_decide_eq_true (require_eq_ok.mp generation)]
    exact (checkedSucc_eq_some.mp (found_eq_ok.mp succeeds)).2
  · split at ensured
    · next genesis =>
      rw [if_pos genesis]
      exact Option.isNone_iff_eq_none.mp (require_eq_ok.mp ensured)
    · next later =>
      rw [if_neg later]
      exact of_decide_eq_true (require_eq_ok.mp ensured)

theorem callOutcome (anchor : DomainPackRegistryAnchor) (expected : DomainPackRegistryAnchorVersion)
    (candidate : VerifiedDomainPackSupplyChainSnapshot) :
    CallOutcome anchor candidate (compareAndAdvance anchor expected candidate) := by
  rw [compareAndAdvance]
  cases continued : ensureContinuation anchor expected candidate with
  | error failure => exact .refused failure
  | ok _ =>
    dsimp only
    split
    · cases replayed : replayHead anchor candidate with
      | error failure => exact .refused failure
      | ok advance =>
        obtain ⟨_, -, result⟩ := bind_eq_ok.mp replayed
        obtain ⟨_, -, result⟩ := bind_eq_ok.mp result
        cases result
        exact .replayed _
    · cases follows : ensureSuccessor anchor candidate with
      | error failure => exact .refused failure
      | ok _ =>
        exact .advanced (directSuccessor_of_ensureSuccessor
            (cumulative_of_ensureContinuation continued) follows)

/-- A snapshot together with the verification that accepted it: there is no
other way to a value of this type. -/
structure VerifiedCandidate (prims : SupplyChainPrimitives) where
  policyDocument : DomainPackTrustPolicyDocument
  snapshotDocument : DomainPackSupplyChainRegistryDocument
  nowUnix : Nat
  verified : VerifiedDomainPackSupplyChainSnapshot
  accepted : verifyDomainPackSupplyChainSnapshot prims policyDocument
      snapshotDocument nowUnix = .ok verified

section Candidates

variable {prims : SupplyChainPrimitives}

/-- The digest binds the canonical list. -/
def BoundBy (prims : SupplyChainPrimitives)
    (facts : List DomainPackPackageRevocation) (digest : String) : Prop :=
  canonicalDigest prims (.revocations facts) = .ok digest

theorem boundBy_of_cumulativeDigest {facts : List DomainPackPackageRevocation} {digest : String}
    (canonical : canonicalRevocationFacts revocations = .ok facts) (computed :
      domainPackCumulativeRevocationDigest prims facts = .ok digest) :
    BoundBy prims facts digest := by
  obtain ⟨again, same, digested⟩ := bind_eq_ok.mp computed
  rw [canonicalRevocationFacts_idem canonical] at same
  cases same
  exact digested

/-- What a verified snapshot says of its revocations and records. -/
structure CandidateFacts (prims : SupplyChainPrimitives)
    (snapshotDocument : DomainPackSupplyChainRegistryDocument)
    (verified : VerifiedDomainPackSupplyChainSnapshot) : Prop where
  canonical : canonicalRevocationFacts
      snapshotDocument.domainPackSupplyChainRegistry.revocations = .ok verified.currentRevocations
  bound : BoundBy prims verified.currentRevocations
      verified.currentRevocationDigest
  records : ∀ entry ∈ verified.entries, domainPackPackageRecordDigest prims
      entry.record.toPackageRecordSubject = .ok entry.record.recordDigest

theorem VerifiedCandidate.facts (candidate : VerifiedCandidate prims) :
    CandidateFacts prims candidate.snapshotDocument candidate.verified := by
  have checks := snapshotChecks_of_verify candidate.accepted
  refine ⟨checks.canonical,
    boundBy_of_cumulativeDigest checks.canonical checks.revocationsDigested, ?_⟩
  intro entry member
  obtain ⟨records, seen, sorted⟩ := recordsSeen_of_verifyPackageRecords checks.packaged
  have listed : entry.record ∈
      candidate.snapshotDocument.domainPackSupplyChainRegistry.packages := by
    rw [← seen.entries]
    exact List.mem_map_of_mem (sorted.mem_iff.mp member)
  exact (seen.checked entry.record listed).bound

theorem SelectionChecks.unnamed {anchored record policyDocument nowUnix selected}
    (checks : SelectionChecks prims anchored record policyDocument nowUnix selected) :
    ∀ fact ∈ anchored.cumulativeRevocations, fact.recordDigest ≠ record.recordDigest := by
  intro fact member
  simpa using List.find?_eq_none.mp checks.unrevoked fact member

end Candidates

/-- How the anchor of a run is opened. -/
inductive AnchorStart where
  | firstUse (registryId audience : StableId)
  | protectedHead (registryId audience : StableId) (generation : Nat)
      (snapshotDigest trustPolicyDigest : String)
      (cumulativeRevocations : List DomainPackPackageRevocation)
      (cumulativeRevocationDigest : String)

def AnchorStart.open (prims : SupplyChainPrimitives) :
    AnchorStart → Checked DomainPackRegistryAnchor
  | firstUse registryId audience => newTrustOnFirstUse prims registryId audience
  | protectedHead registryId audience generation snapshotDigest trustPolicyDigest facts digest =>
      fromOperatorProtectedHead prims registryId audience generation
        snapshotDigest trustPolicyDigest facts digest

def AnchorStart.facts : AnchorStart → List DomainPackPackageRevocation
  | firstUse _ _ => []
  | protectedHead _ _ _ _ _ facts _ => facts

/-- A call with an observed version and a verified snapshot, or a restart for
which someone supplies the list of facts. -/
inductive AnchorAction (prims : SupplyChainPrimitives) where
  | advance (expected : DomainPackRegistryAnchorVersion)
      (candidate : VerifiedCandidate prims)
  | restart (cumulativeRevocations : List DomainPackPackageRevocation)

def AnchorAction.facts {prims : SupplyChainPrimitives} :
    AnchorAction prims → List DomainPackPackageRevocation
  | advance _ candidate => candidate.snapshotDocument.domainPackSupplyChainRegistry.revocations
  | restart facts => facts

section Runs

variable (prims : SupplyChainPrimitives)

/-- The head last reached is restored; before the first snapshot there is
none, and the registry is opened as on first use. -/
def restoreHead (anchor : DomainPackRegistryAnchor) (facts : List DomainPackPackageRevocation) :
    Checked DomainPackRegistryAnchor :=
  match anchor.snapshotDigest, anchor.trustPolicyDigest with
  | some snapshotDigest, some trustPolicyDigest =>
    fromOperatorProtectedHead prims anchor.registryId anchor.audience
      anchor.generation snapshotDigest trustPolicyDigest facts anchor.cumulativeRevocationDigest
  | _, _ => newTrustOnFirstUse prims anchor.registryId anchor.audience

/-- The anchor after an action, and what the action returns.  A refused
restoration leaves the protected head as it is. -/
def perform (anchor : DomainPackRegistryAnchor) : AnchorAction prims → DomainPackRegistryAnchor ×
        Checked (Option DomainPackRegistryAnchorAdvance)
  | .advance expected candidate =>
    let outcome := compareAndAdvance anchor expected candidate.verified
    (outcome.1, outcome.2.map some)
  | .restart facts =>
    match restoreHead prims anchor facts with
    | .ok restored => (restored, .ok none)
    | .error failure => (anchor, .error failure)

def anchorAfter (anchor : DomainPackRegistryAnchor)
    (actions : List (AnchorAction prims)) : DomainPackRegistryAnchor :=
  actions.foldl (fun current action => (perform prims current action).1) anchor

/-- No two of the lists have canonical forms that differ under one digest. -/
def CollisionFree (lists : List (List DomainPackPackageRevocation)) : Prop :=
  ∀ first ∈ lists, ∀ second ∈ lists, ∀ firstFacts secondFacts digest,
    canonicalRevocationFacts first = .ok firstFacts →
    canonicalRevocationFacts second = .ok secondFacts → BoundBy prims firstFacts digest →
    BoundBy prims secondFacts digest → firstFacts = secondFacts

/-- The anchor holds the canonical form of one of the lists, under its
digest. -/
structure AnchorHolds (lists : List (List DomainPackPackageRevocation))
    (anchor : DomainPackRegistryAnchor) : Prop where
  canonical : ∃ source ∈ lists, canonicalRevocationFacts source = .ok anchor.cumulativeRevocations
  bound : BoundBy prims anchor.cumulativeRevocations
      anchor.cumulativeRevocationDigest
  opened : anchor.generation ≠ 0 → anchor.snapshotDigest.isSome ∧ anchor.trustPolicyDigest.isSome
  unopened : anchor.generation = 0 →
    anchor.snapshotDigest = none ∧ anchor.trustPolicyDigest = none ∧
      anchor.cumulativeRevocations = []

variable {prims}
variable {lists : List (List DomainPackPackageRevocation)}
variable {anchor : DomainPackRegistryAnchor}

theorem newTrustOnFirstUse_eq_ok {registryId audience : StableId}
    (accepted : newTrustOnFirstUse prims registryId audience = .ok anchor) :
    ∃ digest, domainPackCumulativeRevocationDigest prims [] = .ok digest ∧ anchor = {
          registryId := registryId
          audience := audience
          generation := 0
          snapshotDigest := none
          trustPolicyDigest := none
          cumulativeRevocations := []
          cumulativeRevocationDigest := digest } := by
  simp only [newTrustOnFirstUse, validateAnchorIdentity, bind_eq_ok, require_eq_ok,
    exists_const] at accepted
  obtain ⟨named, digest, digested, result⟩ := accepted
  cases result
  exact ⟨digest, digested, rfl⟩

variable {supplied : List DomainPackPackageRevocation}

theorem fromOperatorProtectedHead_eq_ok {registryId audience : StableId}
    {generation : Nat} {snapshotDigest trustPolicyDigest digest : String}
    (accepted : fromOperatorProtectedHead prims registryId audience generation
        snapshotDigest trustPolicyDigest supplied digest = .ok anchor) :
    generation ≠ 0 ∧ ∃ facts, canonicalRevocationFacts supplied = .ok facts ∧
        BoundBy prims facts digest ∧
        anchor = {
          registryId := registryId
          audience := audience
          generation := generation
          snapshotDigest := some snapshotDigest
          trustPolicyDigest := some trustPolicyDigest
          cumulativeRevocations := facts
          cumulativeRevocationDigest := digest } := by
  simp only [fromOperatorProtectedHead, validateAnchorIdentity, requireDigest, bind_eq_ok,
    require_eq_ok, decide_eq_true_eq, exists_and_left, exists_const] at accepted
  obtain ⟨named, positive, snapshotToken, policyToken, digestToken, facts, canonical,
    expected, digested, rfl, result⟩ := accepted
  cases result
  exact ⟨positive, facts, canonical, boundBy_of_cumulativeDigest canonical digested, rfl⟩

theorem canonicalRevocationFacts_nil : canonicalRevocationFacts [] = .ok [] := by
  refine canonicalRevocationFacts_eq_ok.mpr ⟨?_, List.nodup_nil, rfl⟩
  intro fact member
  cases member

theorem anchorHolds_open {start : AnchorStart}
    (listed : start.facts ∈ lists) (opened : start.open prims = .ok anchor) :
    AnchorHolds prims lists anchor := by
  cases start with
  | firstUse registryId audience =>
    obtain ⟨digest, digested, rfl⟩ := newTrustOnFirstUse_eq_ok opened
    exact
      { canonical := ⟨[], listed, canonicalRevocationFacts_nil⟩
        bound := boundBy_of_cumulativeDigest canonicalRevocationFacts_nil digested
        opened := fun later => absurd rfl later
        unopened := fun _ => ⟨rfl, rfl, rfl⟩ }
  | protectedHead registryId audience generation snapshotDigest trustPolicyDigest supplied digest =>
      obtain ⟨positive, facts, canonical, bound, rfl⟩ := fromOperatorProtectedHead_eq_ok opened
      exact
        { canonical := ⟨supplied, listed, canonical⟩
          bound := bound
          opened := fun _ => ⟨rfl, rfl⟩
          unopened := fun genesis => absurd genesis positive }

/-- A restart that succeeds restores the very anchor. -/
theorem restoreHead_eq_ok
    (collisionFree : CollisionFree prims lists) (holds : AnchorHolds prims lists anchor)
    (listed : supplied ∈ lists) (accepted : restoreHead prims anchor supplied = .ok restored) :
    restored = anchor := by
  obtain ⟨source, sourceListed, canonical⟩ := holds.canonical
  by_cases genesis : anchor.generation = 0
  · obtain ⟨noSnapshot, noPolicy, noFacts⟩ := holds.unopened genesis
    rw [restoreHead, noSnapshot, noPolicy] at accepted
    obtain ⟨digest, digested, rfl⟩ := newTrustOnFirstUse_eq_ok accepted
    have bound := boundBy_of_cumulativeDigest canonicalRevocationFacts_nil digested
    have same := holds.bound
    rw [noFacts, BoundBy, bound] at same
    cases anchor
    cases same
    simp_all
  · obtain ⟨snapshotSome, policySome⟩ := holds.opened genesis
    obtain ⟨snapshotDigest, isSnapshot⟩ := Option.isSome_iff_exists.mp snapshotSome
    obtain ⟨policyDigest, isPolicy⟩ := Option.isSome_iff_exists.mp policySome
    rw [restoreHead, isSnapshot, isPolicy] at accepted
    obtain ⟨-, facts, suppliedCanonical, bound, rfl⟩ := fromOperatorProtectedHead_eq_ok accepted
    have same := collisionFree supplied listed source sourceListed facts
        anchor.cumulativeRevocations anchor.cumulativeRevocationDigest
        suppliedCanonical canonical bound holds.bound
    rw [same, ← isSnapshot, ← isPolicy]

/-- What an action does to the anchor, from what it leaves and returns. -/
structure ForwardStep (anchor : DomainPackRegistryAnchor) (outcome : DomainPackRegistryAnchor ×
      Checked (Option DomainPackRegistryAnchorAdvance)) : Prop where
  refused : ∀ failure, outcome.2 = .error failure → outcome.1 = anchor
  generation : anchor.generation ≤ outcome.1.generation
  advanced : ∀ capability, outcome.2 = .ok (some (.advanced capability)) →
    outcome.1.generation = anchor.generation + 1 ∧
      outcome.1.snapshotDigest = some capability.verified.snapshotDigest ∧
      capability.verified.generation = anchor.generation + 1 ∧
      capability.verified.previousSnapshotDigest = anchor.snapshotDigest

/-- A capability rests on a verified snapshot and on the facts of the anchor
that it is issued with. -/
structure IssuedWith (prims : SupplyChainPrimitives) (next : DomainPackRegistryAnchor)
    (capability : AnchoredDomainPackSupplyChainSnapshot) : Prop where
  facts : capability.cumulativeRevocations = next.cumulativeRevocations
  verified : ∃ candidate : VerifiedCandidate prims, candidate.verified = capability.verified

/-- An action keeps the facts, and issues capabilities with them. -/
structure KeepsFacts (prims : SupplyChainPrimitives)
    (lists : List (List DomainPackPackageRevocation)) (anchor : DomainPackRegistryAnchor)
    (outcome : DomainPackRegistryAnchor × Checked (Option DomainPackRegistryAnchorAdvance)) : Prop
    extends ForwardStep anchor outcome where
  holds : AnchorHolds prims lists outcome.1
  kept : ∀ fact ∈ anchor.cumulativeRevocations, fact ∈ outcome.1.cumulativeRevocations
  issued : ∀ advance, outcome.2 = .ok (some advance) → IssuedWith prims outcome.1 advance.capability

theorem keepsFacts_unchanged (holds : AnchorHolds prims lists anchor)
    (noAdvance : ∀ capability, result ≠ .ok (some (.advanced capability)))
    (issued : ∀ advance, result = .ok (some advance) → IssuedWith prims anchor advance.capability) :
    KeepsFacts prims lists anchor (anchor, result) where
  refused _ _ := rfl
  generation := le_refl _
  advanced capability returned := absurd returned (noAdvance capability)
  holds := holds
  kept _ member := member
  issued := issued

theorem keepsFacts_restart
    (collisionFree : CollisionFree prims lists) (holds : AnchorHolds prims lists anchor)
    (listed : supplied ∈ lists) :
    KeepsFacts prims lists anchor (perform prims anchor (.restart supplied)) := by
  rw [perform]
  cases restored : restoreHead prims anchor supplied with
  | ok head =>
    rw [restoreHead_eq_ok collisionFree holds listed restored]
    apply keepsFacts_unchanged holds
    · simp
    · simp
  | error failure =>
    apply keepsFacts_unchanged holds
    · simp
    · simp

theorem DirectSuccessor.predecessor_eq (follows : DirectSuccessor anchor candidate)
    (holds : AnchorHolds prims lists anchor) :
    candidate.previousSnapshotDigest = anchor.snapshotDigest := by
  have predecessor := follows.predecessor
  split at predecessor
  · next genesis => rw [predecessor, (holds.unopened genesis).1]
  · exact predecessor

theorem anchorHolds_advanceTo {candidate : VerifiedCandidate prims}
    (listed : candidate.snapshotDocument.domainPackSupplyChainRegistry.revocations ∈ lists)
    (follows : DirectSuccessor anchor candidate.verified) :
    AnchorHolds prims lists
      (anchor.advanceTo candidate.verified) where
  canonical := ⟨_, listed, candidate.facts.canonical⟩
  bound := candidate.facts.bound
  opened _ := ⟨rfl, rfl⟩
  unopened genesis := by
    have positive := follows.generation
    simp only [DomainPackRegistryAnchor.advanceTo] at genesis
    omega

theorem keepsFacts_advance (holds : AnchorHolds prims lists anchor)
    (listed : candidate.snapshotDocument.domainPackSupplyChainRegistry.revocations ∈ lists) :
    KeepsFacts prims lists anchor (perform prims anchor (.advance expected candidate)) := by
  have outcome := callOutcome anchor expected candidate.verified
  rw [perform]
  generalize compareAndAdvance anchor expected candidate.verified = result at outcome
  cases outcome with
  | refused failure =>
    apply keepsFacts_unchanged holds
    · simp [Except.map]
    · simp [Except.map]
  | replayed audit =>
    apply keepsFacts_unchanged holds
    · simp [Except.map]
    · intro advance returned
      cases returned
      exact ⟨rfl, candidate, rfl⟩
  | advanced follows =>
    constructor
    · constructor
      · intro failure returned
        cases returned
      · exact (follows.generation.trans_gt (Nat.lt_succ_self _)).le
      · intro capability returned
        cases returned
        exact ⟨follows.generation, rfl, follows.generation, follows.predecessor_eq holds⟩
    · exact anchorHolds_advanceTo listed follows
    · exact follows.cumulative
    · intro advance returned
      cases returned
      exact ⟨rfl, candidate, rfl⟩

theorem keepsFacts_perform
    (collisionFree : CollisionFree prims lists) (holds : AnchorHolds prims lists anchor)
    {action : AnchorAction prims} (listed : action.facts ∈ lists) :
    KeepsFacts prims lists anchor (perform prims anchor action) := by
  cases action with
  | advance expected candidate => exact keepsFacts_advance holds listed
  | restart supplied => exact keepsFacts_restart collisionFree holds listed

theorem anchorAfter_append (before after : List (AnchorAction prims)) :
    anchorAfter prims anchor (before ++ after) =
      anchorAfter prims (anchorAfter prims anchor before) after :=
  List.foldl_append

theorem anchorHolds_after
    (collisionFree : CollisionFree prims lists) (holds : AnchorHolds prims lists anchor)
    {actions : List (AnchorAction prims)} (listed : ∀ action ∈ actions, action.facts ∈ lists) :
    AnchorHolds prims lists (anchorAfter prims anchor actions) := by
  induction actions generalizing anchor with
  | nil => exact holds
  | cons action rest ih =>
    obtain ⟨first, others⟩ := List.forall_mem_cons.mp listed
    exact ih (keepsFacts_perform collisionFree holds first).holds others

theorem facts_after
    (collisionFree : CollisionFree prims lists) (holds : AnchorHolds prims lists anchor)
    {actions : List (AnchorAction prims)} (listed : ∀ action ∈ actions, action.facts ∈ lists)
    (member : fact ∈ anchor.cumulativeRevocations) :
    fact ∈ (anchorAfter prims anchor actions).cumulativeRevocations := by
  induction actions generalizing anchor with
  | nil => exact member
  | cons action rest ih =>
    obtain ⟨first, others⟩ := List.forall_mem_cons.mp listed
    have step := keepsFacts_perform collisionFree holds first
    exact ih step.holds others (step.kept fact member)

theorem AnchorHolds.retained (holds : AnchorHolds prims lists anchor)
    (member : fact ∈ anchor.cumulativeRevocations) :
    Retained fact anchor.cumulativeRevocations := by
  obtain ⟨source, -, canonical⟩ := holds.canonical
  exact retained_of_canonical canonical member

/-- No selection from the capability returns the record of the fact. -/
def Withholds (prims : SupplyChainPrimitives) (capability : AnchoredDomainPackSupplyChainSnapshot)
    (fact : DomainPackPackageRevocation) : Prop :=
  ∀ record policyDocument nowUnix selected,
    selectDomainPackSupplyChainRecord prims capability record
      policyDocument nowUnix = .ok selected → selected.recordDigest ≠ fact.recordDigest ∧
      domainPackPackageRecordDigest prims record.toPackageRecordSubject ≠ .ok fact.recordDigest

theorem IssuedWith.withholds {capability : AnchoredDomainPackSupplyChainSnapshot}
    (issued : IssuedWith prims anchor capability) (member : fact ∈ anchor.cumulativeRevocations) :
    Withholds prims capability fact := by
  intro record policyDocument nowUnix selected accepted
  obtain ⟨candidate, isVerified⟩ := issued.verified
  have checks := selectionChecks_of_select accepted
  have apart := checks.unnamed fact (by rwa [issued.facts])
  obtain ⟨entry, listed, rfl⟩ := checks.listed
  constructor
  · rw [checks.digest]
    exact apart.symm
  · rw [← isVerified] at listed
    rw [candidate.facts.records entry listed]
    intro same
    exact apart (Except.ok.inj same).symm

end Runs

/-- In every run a refused action leaves the anchor alone, the generation
never decreases, and an advance goes to the direct successor that names the
previous head.  A fact that the anchor holds once is held unchanged from then
on, by the anchor and by each capability issued from then on, and no selection
from such a capability returns the record that it names. -/
theorem revoked_packages_never_come_back
    (prims : SupplyChainPrimitives)
    (start : AnchorStart)
    (anchor : DomainPackRegistryAnchor)
    (opened : start.open prims = .ok anchor)
    (actions : List (AnchorAction prims))
    (collisionFree : CollisionFree prims (start.facts :: actions.map AnchorAction.facts)) :
    (∀ before action,
      before ++ [action] <+: actions →
      ForwardStep (anchorAfter prims anchor before)
        (perform prims (anchorAfter prims anchor before) action)) ∧
    (∀ before after,
      before ++ after <+: actions →
      ∀ fact ∈ (anchorAfter prims anchor before).cumulativeRevocations,
        Retained fact (anchorAfter prims anchor (before ++ after)).cumulativeRevocations) ∧
    ∀ steps action,
      steps ++ [action] <+: actions →
      ∀ advance,
        (perform prims (anchorAfter prims anchor steps) action).2 = .ok (some advance) →
        ∀ before,
          before <+: steps ++ [action] →
          ∀ fact ∈ (anchorAfter prims anchor before).cumulativeRevocations,
            Retained fact advance.capability.cumulativeRevocations ∧
            Withholds prims advance.capability fact := by
  have holds : AnchorHolds prims (start.facts :: actions.map AnchorAction.facts) anchor :=
    anchorHolds_open List.mem_cons_self opened
  have listed {steps : List (AnchorAction prims)} (run : steps <+: actions) : ∀ action ∈ steps,
        action.facts ∈ start.facts :: actions.map AnchorAction.facts := fun action member =>
      List.mem_cons_of_mem _ (List.mem_map_of_mem (run.subset member))
  have reached {steps : List (AnchorAction prims)} (run : steps <+: actions) :=
    anchorHolds_after collisionFree holds (listed run)
  have kept {before after : List (AnchorAction prims)} (run : before ++ after <+: actions)
      {fact : DomainPackPackageRevocation} (member : fact ∈
        (anchorAfter prims anchor before).cumulativeRevocations) : Retained fact
        (anchorAfter prims anchor (before ++ after)).cumulativeRevocations := by
    apply (reached run).retained
    rw [anchorAfter_append]
    apply facts_after collisionFree (reached ((List.prefix_append before after).trans run)) _ member
    intro action inside
    exact listed run action (List.mem_append_right before inside)
  have stepped {before : List (AnchorAction prims)}
      {action : AnchorAction prims} (run : before ++ [action] <+: actions) :=
    keepsFacts_perform collisionFree (reached ((List.prefix_append before [action]).trans run))
      (listed run action (by simp))
  refine ⟨?_, ?_, ?_⟩
  · intro before action run
    exact (stepped run).toForwardStep
  · intro before after run fact member
    exact kept run member
  · intro steps action run advance returned before earlier fact member
    obtain ⟨after, rest⟩ := earlier
    have issued := (stepped run).issued advance returned
    have retained : Retained fact (perform prims (anchorAfter prims anchor steps)
          action).1.cumulativeRevocations := by
      have whole := kept (rest ▸ run) member
      rw [rest, anchorAfter_append] at whole
      exact whole
    refine ⟨?_, issued.withholds retained.listed⟩
    rw [issued.facts]
    exact retained

/-! ## The older version is revoked -/

namespace AcmeRegistry

open Digest Ed25519

def revoked : DomainPackPackageRevocation where
  recordDigest := written.digest 122
  reason := .keyCompromise
  revokedAtUnix := 2500
  explanation := "key lost"

def revokedHead : AnchorStart :=
  .protectedHead ⟨"registry.acme"⟩ ⟨"forge"⟩ 1 (written.digest 80) (written.digest 116)
    [revoked] (written.digest 34)

theorem revoked_canonical : canonicalRevocationFacts [revoked] = .ok [revoked] := by
  have valid : ValidFact revoked := ⟨(written_readable.token 122).1, by decide +kernel⟩
  refine canonicalRevocationFacts_eq_ok.mpr ⟨?_, List.nodup_singleton _, rfl⟩
  simpa using valid

theorem revoked_digested :
    canonicalDigest primitives (.revocations [revoked]) = .ok (written.digest 34) :=
  canonicalDigest_written (by decide +kernel)

theorem revokedHead_opened : ∃ anchor, revokedHead.open primitives = .ok anchor ∧
    anchor.cumulativeRevocations = [revoked] := by
  have token := fun byte => (written_readable.token byte).1
  rw [revokedHead, AnchorStart.open, fromOperatorProtectedHead]
  simp [validateAnchorIdentity, not_blank, require, requireDigest, token,
    revoked_canonical, domainPackCumulativeRevocationDigest, revoked_digested, ok_bind]

theorem lists_collisionFree (listed : ∀ facts ∈ lists, facts = [] ∨ facts = [revoked]) :
    CollisionFree primitives lists := by
  have apart : written.digest 34 ≠ written.digest 184 := by
    intro same
    exact absurd (formatSha256_inj same) (by decide)
  have empty : canonicalDigest primitives (.revocations []) = .ok (written.digest 184) :=
    canonicalDigest_written (by decide +kernel)
  have canonical {given facts : List DomainPackPackageRevocation} (member : given ∈ lists)
      (computed : canonicalRevocationFacts given = .ok facts) : facts = given := by
    rcases listed given member with rfl | rfl
    · exact Except.ok.inj (computed.symm.trans canonicalRevocationFacts_nil)
    · exact Except.ok.inj (computed.symm.trans revoked_canonical)
  have digested {given : List DomainPackPackageRevocation} {digest : String}
      (member : given ∈ lists) (bound : BoundBy primitives given digest) :
      given = [] ∧ digest = written.digest 184 ∨
        given = [revoked] ∧ digest = written.digest 34 := by
    rcases listed given member with rfl | rfl
    · exact .inl ⟨rfl, Except.ok.inj (bound.symm.trans empty)⟩
    · exact .inr ⟨rfl, Except.ok.inj (bound.symm.trans revoked_digested)⟩
  intro first firstListed second secondListed firstFacts secondFacts digest
    firstCanonical secondCanonical firstBound secondBound
  rw [canonical firstListed firstCanonical] at firstBound ⊢
  rw [canonical secondListed secondCanonical] at secondBound ⊢
  rcases digested firstListed firstBound with ⟨rfl, rfl⟩ | ⟨rfl, rfl⟩
  · rcases digested secondListed secondBound with ⟨rfl, -⟩ | ⟨-, same⟩
    · rfl
    · exact absurd same.symm apart
  · rcases digested secondListed secondBound with ⟨-, same⟩ | ⟨rfl, -⟩
    · exact absurd same apart
    · rfl

end AcmeRegistry

/-- A snapshot that drops the fact, and then a restart. -/
theorem revoked_packages_never_come_back_acme :
    ∃ anchor candidate,
      AcmeRegistry.revokedHead.open AcmeRegistry.primitives = .ok anchor ∧
      Retained AcmeRegistry.revoked
        (anchorAfter AcmeRegistry.primitives anchor
          [.advance anchor.version candidate,
            .restart [AcmeRegistry.revoked]]).cumulativeRevocations := by
  obtain ⟨verified, accepted⟩ := AcmeRegistry.snapshot_verified AcmeRegistry.written_readable
  obtain ⟨anchor, opened, facts⟩ := AcmeRegistry.revokedHead_opened
  refine ⟨anchor, ⟨_, _, _, verified, accepted⟩, opened, ?_⟩
  have run := revoked_packages_never_come_back AcmeRegistry.primitives
      AcmeRegistry.revokedHead anchor opened [.advance anchor.version ⟨_, _, _, verified, accepted⟩,
        .restart [AcmeRegistry.revoked]] (AcmeRegistry.lists_collisionFree (by
        intro facts member
        rcases List.mem_cons.mp member with rfl | member
        · exact .inr rfl
        rcases List.mem_cons.mp member with rfl | member
        · exact .inl rfl
        · exact .inr (List.mem_singleton.mp member)))
  exact run.2.1 [] _ List.prefix_rfl _ (facts ▸ List.mem_singleton_self _)

end ForgeCore.SupplyChain
