import ForgeCore.Claims.Exclusivity
import ForgeCore.ClaimWal.Compaction

/-!
# The engine and the log agree

The engine decides on the claims that the projection of the log lists, and
every accepted decision becomes a record.  The projection has rules of its own
for taking a record; on every reachable log they take what the engine
accepted.
-/

namespace ForgeCore.ClaimWal

open List Claims

/-- A claim that a command writes, and the operation it is written under. -/
structure Decision where
  operation : ClaimWalOperation
  claim : ClaimContract
  recordedAt : String
deriving DecidableEq, Repr

def Decision.ofVerdict (operation : ClaimWalOperation) (recordedAt : ClaimContract → String) :
    ClaimLifecycleDecision → List Decision
  | .accepted claim => [⟨operation, claim, recordedAt claim⟩]
  | .rejected _ => []

/-- What `run_acquire`, `run_heartbeat`, `run_release`, `run_handoff` and
`run_reconcile_once` write, given the claims they loaded. -/
def commandDecisions (toLowercase : String → String)
    (claims : List ClaimContract) (now : Int) : CliCommand → List Decision
  | .acquire request =>
    if isReservedClaimPrefix request.scopeId.value then []
    else
      Decision.ofVerdict .acquire (·.lease.acquiredAt) (acquire toLowercase claims request now)
  | .heartbeat token agentId =>
    match resolveClaim claims (parseClaimRef token) with
    | none => []
    | some claim =>
      Decision.ofVerdict .heartbeat (·.lease.lastHeartbeatAt) (heartbeat claim agentId now)
  | .release token agentId =>
    match resolveClaim claims (parseClaimRef token) with
    | none => []
    | some claim => Decision.ofVerdict .release (·.status.evaluatedAt) (release claim agentId now)
  | .handoff token agentId summary evidenceRefs =>
    match resolveClaim claims (parseClaimRef token) with
    | none => []
    | some claim =>
      Decision.ofVerdict .handoffRecorded (·.status.evaluatedAt) (recordHandoff claim
          { recorderAgentId := agentId
            summary := summary
            evidenceRefs := handoffArtifactRef claim now :: evidenceRefs } now)
  | .reconcileOnce written =>
    ((reconcileClaims claims now).transitions.take written).map
      fun transition =>
        ⟨.reconcileStatus, transition.updated, transition.updated.status.evaluatedAt⟩

def writeAll (bus : Bus) (decisions : List Decision) : Bus :=
  decisions.foldl (fun current decision => current.writeBack decision.claim) bus

/-- The command line writes exactly its decisions into the map. -/
theorem cliStep_eq_writeAll
    (toLowercase : String → String) (bus : Bus) (now : Int) (command : CliCommand) :
    cliStep toLowercase bus now command = writeAll bus
      (commandDecisions toLowercase bus.claims now command) := by
  have settled (operation : ClaimWalOperation) (recordedAt : ClaimContract → String)
      (verdict : ClaimLifecycleDecision) : bus.settle verdict =
        writeAll bus (Decision.ofVerdict operation recordedAt verdict) := by
    cases verdict <;> rfl
  cases command with
  | acquire request =>
    simp only [cliStep, commandDecisions]
    split
    · rfl
    · exact settled _ _ _
  | heartbeat token agentId | release token agentId =>
    simp only [cliStep, commandDecisions]
    cases resolveClaim bus.claims (parseClaimRef token) with
    | none => rfl
    | some claim => exact settled _ _ _
  | handoff token agentId summary evidenceRefs =>
    simp only [cliStep, commandDecisions]
    cases resolveClaim bus.claims (parseClaimRef token) with
    | none => rfl
    | some claim => exact settled _ _ _
  | reconcileOnce written =>
    simp only [cliStep, commandDecisions, writeAll, foldl_map]

/-! ## The log that the commands write -/

/-- What the surroundings decide about the record with a given number: its
place in the file, and whether its append rotates the log and when. -/
structure LogEnvironment where
  place : Nat → Nat × Nat
  rotation : Nat → Option Nat

/-- All that was ever appended, and the last number given out.  A command
whose append fails writes nothing and is not part of a history. -/
structure ClaimStore where
  events : List LogEvent
  lastSeq : Nat
deriving DecidableEq, Repr

def ClaimStore.empty : ClaimStore := ⟨[], 0⟩

def ClaimStore.log (store : ClaimStore) : ClaimLog :=
  ClaimLog.empty.run store.events

def Decision.record (decision : Decision) (seq : Nat) (place : Nat × Nat) : ClaimWalRecord where
  seq := seq
  operation := decision.operation
  payload := ⟨"0.1", decision.operation, decision.recordedAt, decision.claim⟩
  offset := place.1
  recordLen := place.2

section Store

variable (environment : LogEnvironment) (toLowercase : String → String)

def ClaimStore.write (store : ClaimStore) (decision : Decision) : ClaimStore :=
  let seq := store.lastSeq + 1
  let appended := store.events ++ [.append (decision.record seq (environment.place seq))]
  match environment.rotation seq with
  | none => ⟨appended, seq⟩
  | some createdAtMs =>
    -- The checkpoint record takes the next number.
    ⟨appended ++ [.rotate ⟨decision.recordedAt, createdAtMs, seq⟩], seq + 1⟩

/-- A command loads the projected claims, decides, and appends. -/
def ClaimStore.step (store : ClaimStore) (now : Int) (command : CliCommand) : ClaimStore :=
  (commandDecisions toLowercase store.log.project.claims now command).foldl
    (ClaimStore.write environment) store

def ClaimStore.run (store : ClaimStore) (history : List (Int × CliCommand)) : ClaimStore :=
  history.foldl (fun current entry =>
      current.step environment toLowercase entry.1 entry.2) store

end Store

/-- The log takes the decision, given the claim that it has under the id. -/
def Fits (bus : Bus) (decision : Decision) : Prop :=
  statusMatches (decision.record 0 (0, 0)) = true ∧
    match decision.operation with
    | .acquire =>
      ∀ claim : ClaimContract, bus[decision.claim.id.value]? = some claim →
        claim.status.value.isOpen = false
    | .handoffRecorded =>
      ∃ claim : ClaimContract, bus[decision.claim.id.value]? = some claim ∧
          decision.claim.claim = claim.claim ∧ acceptsHandoff claim.status.value = true
    | _ =>
      ∃ claim : ClaimContract, bus[decision.claim.id.value]? = some claim ∧
          decision.claim.claim = claim.claim ∧ claim.status.value.isOpen = true

variable {claim next : ClaimContract} {now : Int} {decision : Decision}

variable {agentId : StableId} {decisions : List Decision}

theorem heartbeat_fits (accepted : heartbeat claim agentId now = .accepted next) :
    next.id = claim.id ∧ next.claim = claim.claim ∧
      next.status.value = .active ∧ claim.status.value.isOpen = true := by
  unfold heartbeat at accepted
  split at accepted
  · cases accepted
  split at accepted
  · cases accepted
  split at accepted
  · cases accepted
  next isOpen =>
  split at accepted
  · cases accepted
  split at accepted
  · cases accepted
  · cases accepted
    exact ⟨rfl, rfl, rfl, by simpa using isOpen⟩

theorem release_fits (accepted : release claim agentId now = .accepted next) :
    next.id = claim.id ∧ next.claim = claim.claim ∧ next.status.value = .released ∧
      claim.status.value.isOpen = true := by
  unfold release at accepted
  split at accepted
  · cases accepted
  split at accepted
  · cases accepted
  split at accepted
  · cases accepted
  next isOpen =>
  split at accepted
  · cases accepted
  · cases accepted
    exact ⟨rfl, rfl, rfl, by simpa using isOpen⟩

theorem recordHandoff_fits (accepted : recordHandoff claim request now = .accepted next) :
    next.id = claim.id ∧ next.claim = claim.claim ∧ next.status.value = .handoffRecorded ∧
      acceptsHandoff claim.status.value = true := by
  unfold recordHandoff at accepted
  split at accepted
  · cases accepted
  split at accepted
  · cases accepted
  split at accepted
  next status =>
    split at accepted <;> cases accepted
    exact ⟨rfl, rfl, rfl, by rw [status]; rfl⟩
  next status =>
    split at accepted <;> cases accepted
    exact ⟨rfl, rfl, rfl, by rw [status]; rfl⟩
  next status =>
    cases accepted
    exact ⟨rfl, rfl, rfl, by rw [status]; rfl⟩
  all_goals cases accepted

/-- A transition leaves an open claim stale, expired or waiting for a
handoff. -/
theorem reconcileClaim_fits (reconciled : reconcileClaim claim now = some transition) :
    transition.updated.id = claim.id ∧ transition.updated.claim = claim.claim ∧
      (transition.updated.status.value = .stale ∨ transition.updated.status.value = .expired ∨
      transition.updated.status.value = .handoffRequired) ∧ claim.status.value.isOpen = true := by
  unfold reconcileClaim at reconciled
  split at reconciled
  next openAndExpired =>
    simp only [Bool.and_eq_true] at openAndExpired
    cases reconciled
    refine ⟨rfl, rfl, ?_, openAndExpired.1⟩
    cases claim.expiryPolicy.handoffRequired <;> simp [reconciledTransition]
  next =>
    split at reconciled
    next active =>
      obtain ⟨reason, -, rfl⟩ := Option.map_eq_some_iff.mp reconciled
      exact ⟨rfl, rfl, Or.inl rfl, by rw [active]; rfl⟩
    all_goals cases reconciled

def scopeClaimId (scope : ClaimScope) : String :=
  "claim." ++ scopeKindSlug scope.kind ++ "." ++ scope.id.value ++ "." ++ scope.id.value

def NamesScopes (bus : Bus) : Prop :=
  ∀ claim ∈ bus.claims, claim.id.value = scopeClaimId claim.scope

theorem scopeKindSlug_plain (kind : ClaimScopeKind) :
    ∀ char ∈ (scopeKindSlug kind).toList, char ≠ '.' := by
  have plain : (scopeKindSlug kind).toList.all (· ≠ '.') = true := by
    cases kind <;> rfl
  simpa using plain

theorem scopeKindSlug_injective : Function.Injective scopeKindSlug := by
  intro left right same
  cases left <;> cases right <;> first | rfl | exact absurd same (by decide)

theorem takeWhile_before (plain : ∀ char ∈ start, char ≠ '.') :
    (start ++ '.' :: rest).takeWhile (· ≠ '.') = start := by
  rw [takeWhile_append_of_pos]
  · simp
  · intro char member
    simpa using plain char member

theorem scopeClaimId_injective (same : scopeClaimId left = scopeClaimId right) :
    left.kind = right.kind ∧ left.id = right.id := by
  have chars := congrArg String.toList same
  simp only [scopeClaimId, String.toList_append, append_assoc] at chars
  have tails := append_cancel_left chars
  have slugs := congrArg (List.takeWhile (· ≠ '.')) tails
  have dot : ".".toList = ['.'] := rfl
  simp only [dot, cons_append, nil_append] at slugs tails
  rw [takeWhile_before (scopeKindSlug_plain _), takeWhile_before (scopeKindSlug_plain _)] at slugs
  rw [slugs] at tails
  have ids := (List.cons.inj (append_cancel_left tails)).2
  have lengths := congrArg List.length ids
  simp only [length_append, length_cons] at lengths
  have sameId := (append_inj ids (by omega)).1
  exact ⟨scopeKindSlug_injective (String.toList_inj.mp slugs),
      congrArg ScopeId.mk (String.toList_inj.mp sameId)⟩

/-- The invariants of the bus that decisions rely on. -/
structure Sound (toLowercase : String → String) (bus : Bus) : Prop where
  invariant : BusInvariant toLowercase bus
  named : NamesScopes bus

theorem sound_empty (toLowercase : String → String) : Sound toLowercase (∅ : Bus) :=
  ⟨busInvariant_empty, by simp [NamesScopes, Bus.claims]⟩

section Accepted

variable {toLowercase : String → String} {bus : Bus}

theorem Sound.acquire_fits (sound : Sound toLowercase bus)
    (accepted : acquire toLowercase bus.claims request now = .accepted next) :
    Fits bus ⟨.acquire, next, next.lease.acquiredAt⟩ := by
  obtain ⟨⟨expiry, rfl⟩, free⟩ := acquire_accepted accepted
  refine ⟨rfl, ?_⟩
  intro claim found
  have member := Bus.mem_claims_iff.mpr ⟨_, found⟩
  by_contra notClosed
  have isOpen : claim.status.value.isOpen = true := by
    simpa using notClosed
  -- The same id means the same scope, which an open claim withholds.
  have sameId : scopeClaimId claim.scope = scopeClaimId
      (acquiredClaim request now expiry).scope := by
    rw [← sound.named claim member, sound.invariant.keyed _ claim found]
    rfl
  obtain ⟨sameKind, sameScope⟩ := scopeClaimId_injective sameId
  have notHeld := not_claimHoldsScope_of_scopeRejection (isLive_or_awaitsHandoff now isOpen
        (sound.invariant.handoff claim member)) (free claim member).1
  simp only [acquiredClaim] at sameKind sameScope
  simp [claimHoldsScope, sameKind, sameScope] at notHeld

/-- A decision on a claim of the bus fits when the status of the claim
does. -/
theorem fits_of_member
    (sound : Sound toLowercase bus)
    (member : claim ∈ bus.claims)
    (sameId : decision.claim.id = claim.id)
    (sameIdentity : decision.claim.claim = claim.claim)
    (matching : statusMatches (decision.record 0 (0, 0)) = true)
    (source : match decision.operation with
      | .acquire => False
      | .handoffRecorded => acceptsHandoff claim.status.value = true
      | _ => claim.status.value.isOpen = true) :
    Fits bus decision := by
  have found : bus[decision.claim.id.value]? = some claim := by
    rw [sameId]
    exact sound.invariant.getElem?_of_mem member
  refine ⟨matching, ?_⟩
  cases operation : decision.operation with
  | acquire => simp [operation] at source
  | _ =>
    simp only [operation] at source
    exact ⟨claim, found, sameIdentity, source⟩

def FitsAll (bus : Bus) : List Decision → Prop
  | [] => True
  | decision :: rest => Fits bus decision ∧ FitsAll (bus.writeBack decision.claim) rest

theorem fitsAll_ofVerdict {recordedAt : ClaimContract → String}
    (fits : ∀ next, verdict = .accepted next → Fits bus ⟨operation, next, recordedAt next⟩) :
    FitsAll bus (Decision.ofVerdict operation recordedAt verdict) := by
  cases verdict with
  | accepted next => exact ⟨fits next rfl, trivial⟩
  | rejected rejection => trivial

/-- The decisions of one reconciliation pass are on different claims, so each
still finds the claim that it was made for. -/
theorem fitsAll_reconcile (transitions : List ClaimReconcileTransition) :
    ∀ {bus : Bus}, (transitions.map fun transition => transition.updated.id).Nodup →
      (∀ transition ∈ transitions, Fits bus ⟨.reconcileStatus, transition.updated,
      transition.updated.status.evaluatedAt⟩) → FitsAll bus (transitions.map fun transition =>
      ⟨.reconcileStatus, transition.updated, transition.updated.status.evaluatedAt⟩) := by
  induction transitions with
  | nil => exact fun _ _ => trivial
  | cons first rest ih =>
    intro bus distinct fits
    obtain ⟨notLater, restDistinct⟩ := List.nodup_cons.mp distinct
    refine ⟨fits first mem_cons_self, ih restDistinct ?_⟩
    intro transition member
    obtain ⟨matching, claim, found, identity, isOpen⟩ := fits transition (mem_cons_of_mem _ member)
    refine ⟨matching, claim, ?_, identity, isOpen⟩
    rw [Bus.getElem?_writeBack, if_neg, found]
    intro sameKey
    apply notLater
    exact List.mem_map.mpr ⟨transition, member, (congrArg ClaimId.mk sameKey).symm⟩

theorem Sound.fitsAll (sound : Sound toLowercase bus) (now : Int) (command : CliCommand) :
    FitsAll bus (commandDecisions toLowercase bus.claims now command) := by
  cases command with
  | acquire request =>
    simp only [commandDecisions]
    split
    · trivial
    · exact fitsAll_ofVerdict fun next accepted =>
        sound.acquire_fits accepted
  | heartbeat token agentId =>
    simp only [commandDecisions]
    cases resolved : resolveClaim bus.claims (parseClaimRef token) with
    | none => trivial
    | some claim =>
      apply fitsAll_ofVerdict
      intro next accepted
      obtain ⟨sameId, identity, status, isOpen⟩ := heartbeat_fits accepted
      exact fits_of_member sound (resolveClaim_mem resolved) sameId identity
          (by simp [statusMatches, Decision.record, status]) isOpen
  | release token agentId =>
    simp only [commandDecisions]
    cases resolved : resolveClaim bus.claims (parseClaimRef token) with
    | none => trivial
    | some claim =>
      apply fitsAll_ofVerdict
      intro next accepted
      obtain ⟨sameId, identity, status, isOpen⟩ := release_fits accepted
      exact fits_of_member sound (resolveClaim_mem resolved) sameId identity
          (by simp [statusMatches, Decision.record, status]) isOpen
  | handoff token agentId summary evidenceRefs =>
    simp only [commandDecisions]
    cases resolved : resolveClaim bus.claims (parseClaimRef token) with
    | none => trivial
    | some claim =>
      apply fitsAll_ofVerdict
      intro next accepted
      obtain ⟨sameId, identity, status, source⟩ := recordHandoff_fits accepted
      exact fits_of_member sound (resolveClaim_mem resolved) sameId identity
          (by simp [statusMatches, Decision.record, status]) source
  | reconcileOnce written =>
    apply fitsAll_reconcile
    · rw [map_take]
      exact (sound.invariant.nodup_claim_ids.sublist
          (reconcileClaims_ids_sublist bus.claims now)).sublist (take_sublist written _)
    · intro transition member
      have inPass := mem_of_mem_take member
      simp only [reconcileClaims, mem_filterMap] at inPass
      obtain ⟨claim, claimMember, reconciled⟩ := inPass
      obtain ⟨sameId, identity, status, isOpen⟩ := reconcileClaim_fits reconciled
      refine fits_of_member sound claimMember sameId identity ?_ isOpen
      rcases status with status | status | status <;> simp [statusMatches, Decision.record, status]

theorem namesScopes_writeAll (named : NamesScopes bus) (ownScope : ∀ decision ∈ decisions,
      decision.claim.id.value = scopeClaimId decision.claim.scope) :
    NamesScopes (writeAll bus decisions) := by
  induction decisions generalizing bus with
  | nil => exact named
  | cons first rest ih =>
    apply ih
    · intro claim member
      obtain ⟨key, found⟩ := Bus.mem_claims_iff.mp member
      rw [Bus.getElem?_writeBack] at found
      split at found
      · cases found
        exact ownScope first mem_cons_self
      · exact named claim (Bus.mem_claims_iff.mpr ⟨key, found⟩)
    · intro decision member
      exact ownScope decision (mem_cons_of_mem _ member)

/-- A decision on a claim of the bus keeps its id and its scope. -/
theorem Sound.ownScope (sound : Sound toLowercase bus) (now : Int) (command : CliCommand) :
    ∀ decision ∈ commandDecisions toLowercase bus.claims now command,
      decision.claim.id.value = scopeClaimId decision.claim.scope := by
  have kept {claim next : ClaimContract} (member : claim ∈ bus.claims)
      (continues : Continues claim next) :
      next.id.value = scopeClaimId next.scope := by
    rw [continues.id, continues.scope]
    exact sound.named claim member
  have ofVerdict {operation : ClaimWalOperation}
      {recordedAt : ClaimContract → String}
      {verdict : ClaimLifecycleDecision} {decision : Decision} (member : decision ∈
        Decision.ofVerdict operation recordedAt verdict) : verdict = .accepted decision.claim := by
    cases verdict with
    | accepted next => rw [List.mem_singleton.mp member]
    | rejected rejection => cases member
  intro decision member
  cases command with
  | acquire request =>
    simp only [commandDecisions] at member
    split at member
    · cases member
    · obtain ⟨⟨expiry, is⟩, -⟩ := acquire_accepted (ofVerdict member)
      rw [is]
      rfl
  | heartbeat token agentId =>
    simp only [commandDecisions] at member
    split at member
    · cases member
    next claim resolved =>
      exact kept (resolveClaim_mem resolved) (heartbeat_continues (ofVerdict member))
  | release token agentId =>
    simp only [commandDecisions] at member
    split at member
    · cases member
    next claim resolved =>
      exact kept (resolveClaim_mem resolved) (release_continues (ofVerdict member))
  | handoff token agentId summary evidenceRefs =>
    simp only [commandDecisions] at member
    split at member
    · cases member
    next claim resolved =>
      exact kept (resolveClaim_mem resolved) (recordHandoff_continues (ofVerdict member))
  | reconcileOnce written =>
    obtain ⟨transition, inPass, rfl⟩ := List.mem_map.mp member
    have taken := mem_of_mem_take inPass
    simp only [reconcileClaims, mem_filterMap] at taken
    obtain ⟨claim, claimMember, reconciled⟩ := taken
    exact kept claimMember (reconcileClaim_continues reconciled)

theorem Sound.cliStep (sound : Sound toLowercase bus) (now : Int) (command : CliCommand) :
    Sound toLowercase (cliStep toLowercase bus now command) := by
  refine ⟨?_, ?_⟩
  · rcases cliStep_eq_busStep sound.invariant now command with
      unchanged | ⟨taken, stepped⟩
    · rw [unchanged]
      exact sound.invariant
    · rw [stepped]
      exact busInvariant_busStep sound.invariant now taken
  · rw [cliStep_eq_writeAll]
    exact namesScopes_writeAll sound.named (sound.ownScope now command)

end Accepted

/-! ## The log mirrors the map -/

/-- The whole log says what the map says, and nothing of it was reported or
dropped. -/
structure Mirrors (store : ClaimStore) (bus : Bus) : Prop where
  matching : ∀ event ∈ store.events, ∀ record ∈ event.record?, statusMatches record = true
  latest : ∀ id : String, (ClaimLog.whole store.events).accumulate.maps.latest[id]?.map
        (·.claimContract) = bus[id]?
  diagnostics : (ClaimLog.whole store.events).accumulate.diagnostics = []
  applied : (ClaimLog.whole store.events).accumulate.appliedRecords =
    (store.events.filterMap LogEvent.record?).length

theorem mirrors_empty : Mirrors .empty ∅ := by
  refine ⟨by simp [ClaimStore.empty], ?_, rfl, rfl⟩
  intro id
  simp [ClaimStore.empty, ClaimLog.whole, ClaimLog.accumulate,
    ClaimLog.seeded, ProjectionAccumulator.initial, ClaimMaps.empty]

section Mirrors

variable {store : ClaimStore} {bus : Bus}

variable {maps : ClaimMaps}

theorem active_of_latest (filed : Filed maps) {id : String}
    (latest : maps.latest[id]?.map (·.claimContract) = some claim)
    (isOpen : claim.status.value.isOpen = true) :
    ∃ projected, maps.active[id]? = some projected ∧ projected.claimContract = claim := by
  obtain ⟨projected, found, rfl⟩ := Option.map_eq_some_iff.mp latest
  refine ⟨projected, ?_, rfl⟩
  rw [filed.active, latestWhere, found]
  simp [Option.filter, isOpen]

theorem matchingActiveClaim_of_latest (filed : Filed maps)
    (latest : maps.latest[record.payload.claimContract.id.value]?.map
      (·.claimContract) = some claim) (identity : record.payload.claimContract.claim = claim.claim)
    (isOpen : claim.status.value.isOpen = true) (op : MissingOp) :
    matchingActiveClaim record maps.active op = none := by
  obtain ⟨projected, found, rfl⟩ := active_of_latest filed latest isOpen
  rw [matchingActiveClaim, found]
  simp [identity]

section

variable (mirrors : Mirrors store bus)

include mirrors

theorem Mirrors.takes (fits : Fits bus decision) (seq : Nat) (place : Nat × Nat) :
    refusal (ClaimLog.whole store.events).accumulate.maps (decision.record seq place) = none ∧
      remarks (ClaimLog.whole store.events).accumulate.maps (decision.record seq place) = [] := by
  have filed := (agrees_run mirrors.matching).wholeFiled
  have latest := mirrors.latest decision.claim.id.value
  obtain ⟨matching, source⟩ := fits
  have noMismatch : statusMismatchDiagnostic (decision.record seq place) = [] := by
    rw [statusMismatchDiagnostic, if_pos]
    exact matching
  generalize (ClaimLog.whole store.events).accumulate.maps = maps at filed latest
  have taken (isOpen : ∃ claim : ClaimContract, bus[decision.claim.id.value]? = some claim ∧
        decision.claim.claim = claim.claim ∧ claim.status.value.isOpen = true) (op : MissingOp) :
      matchingActiveClaim (decision.record seq place) maps.active op = none := by
    obtain ⟨claim, found, identity, isOpen⟩ := isOpen
    exact matchingActiveClaim_of_latest filed (latest.trans found) identity isOpen op
  unfold refusal remarks
  rw [noMismatch]
  cases operation : decision.operation with
  | acquire =>
    simp only [operation] at source
    have inactive : maps.active[decision.claim.id.value]? = none := by
      rw [filed.active, latestWhere]
      cases found : maps.latest[decision.claim.id.value]? with
      | none => rfl
      | some projected =>
        rw [found] at latest
        have closed := source projected.claimContract latest.symm
        simp [Option.filter, closed]
    refine ⟨by simp [Decision.record, operation], ?_⟩
    simp [Decision.record, operation, reacquireDiagnostic, inactive]
  | heartbeat =>
    simp only [operation] at source
    refine ⟨?_, by simp [Decision.record, operation]⟩
    simpa [Decision.record, operation] using taken source .heartbeat
  | release =>
    simp only [operation] at source
    refine ⟨?_, by simp [Decision.record, operation]⟩
    simpa [Decision.record, operation] using taken source .release
  | handoffRecorded =>
    simp only [operation] at source
    obtain ⟨claim, found, identity, accepts⟩ := source
    obtain ⟨projected, stored, rfl⟩ := Option.map_eq_some_iff.mp (latest.trans found)
    refine ⟨?_, by simp [Decision.record, operation]⟩
    simp [Decision.record, operation, matchingOpenClaimForHandoff, stored, accepts, identity]
  | reconcileStatus =>
    simp only [operation] at source
    refine ⟨?_, by simp [Decision.record, operation]⟩
    simpa [Decision.record, operation] using taken source .reconcile

/-- The record of a fitting decision puts its claim into the log. -/
theorem Mirrors.append (fits : Fits bus decision) (seq : Nat) (place : Nat × Nat) (lastSeq : Nat) :
    Mirrors ⟨store.events ++ [.append (decision.record seq place)], lastSeq⟩
      (bus.writeBack decision.claim) := by
  obtain ⟨accepted, silent⟩ := mirrors.takes fits seq place
  have applied : (ClaimLog.whole (store.events ++
          [.append (decision.record seq place)])).accumulate =
        { maps := appliedMaps (ClaimLog.whole store.events).accumulate.maps
            (decision.record seq place)
          diagnostics := []
          lastAppliedSeq := seq
          appliedRecords := (ClaimLog.whole store.events).accumulate.appliedRecords + 1 } := by
    rw [ClaimLog.whole_append, ClaimLog.accumulate_append,
      ProjectionAccumulator.applyRecord, accepted, silent, mirrors.diagnostics]
    rfl
  refine ⟨?_, ?_, ?_, ?_⟩
  · intro event member record carried
    rcases List.mem_append.mp member with earlier | last
    · exact mirrors.matching event earlier record carried
    · rw [List.mem_singleton.mp last] at carried
      cases carried
      exact fits.1
  · intro id
    rw [applied, latest_appliedMaps, ClaimMap.getElem?_insert',
      Bus.getElem?_writeBack, ← mirrors.latest id]
    exact apply_ite _ (decision.claim.id.value = id) _ _
  · rw [applied]
  · rw [applied, mirrors.applied]
    simp [filterMap_append, LogEvent.record?]

theorem Mirrors.rotate (stamp : RotationStamp) (lastSeq : Nat) :
    Mirrors ⟨store.events ++ [.rotate stamp], lastSeq⟩ bus := by
  refine ⟨?_, ?_, ?_, ?_⟩
  · intro event member record carried
    rcases List.mem_append.mp member with earlier | last
    · exact mirrors.matching event earlier record carried
    · rw [List.mem_singleton.mp last] at carried
      cases carried
  · rw [ClaimLog.whole_rotate]
    exact mirrors.latest
  · rw [ClaimLog.whole_rotate]
    exact mirrors.diagnostics
  · rw [ClaimLog.whole_rotate, mirrors.applied]
    simp [filterMap_append, LogEvent.record?]

theorem Mirrors.write (environment : LogEnvironment) (fits : Fits bus decision) :
    Mirrors (store.write environment decision) (bus.writeBack decision.claim) := by
  rw [ClaimStore.write]
  have appended := mirrors.append fits (store.lastSeq + 1)
      (environment.place (store.lastSeq + 1)) (store.lastSeq + 1)
  cases environment.rotation (store.lastSeq + 1) with
  | none => exact appended
  | some createdAtMs => exact appended.rotate _ _

theorem Mirrors.writeAll (environment : LogEnvironment) (fits : FitsAll bus decisions) :
    Mirrors (decisions.foldl (ClaimStore.write environment) store)
      (ClaimWal.writeAll bus decisions) := by
  induction decisions generalizing store bus with
  | nil => exact mirrors
  | cons first rest ih =>
    exact ih (mirrors.write environment fits.1) fits.2

end

theorem toList_eq_of_lookups
    {value : Type} {extensional : Std.ExtTreeMap String value} {tree : Std.TreeMap String value}
    (same : ∀ key : String, extensional[key]? = tree[key]?) : extensional.toList = tree.toList := by
  have nodup {entries : List (String × value)} (ordered : entries.Pairwise fun first second =>
        compare first.1 second.1 = .lt) : entries.Nodup := by
    refine ordered.imp ?_
    rintro first second less rfl
    simp at less
  have members (entry : String × value) : entry ∈ extensional.toList ↔ entry ∈ tree.toList := by
    obtain ⟨key, stored⟩ := entry
    rw [Std.ExtTreeMap.mem_toList_iff_getElem?_eq_some,
      Std.TreeMap.mem_toList_iff_getElem?_eq_some, same key]
  have leftOrdered := extensional.ordered_keys_toList
  have rightOrdered := tree.ordered_keys_toList
  refine Perm.eq_of_pairwise ?_ leftOrdered rightOrdered ((perm_ext_iff_of_nodup (nodup leftOrdered)
      (nodup rightOrdered)).mpr members)
  intro first second _ _ less greater
  have impossible := Std.TransCmp.lt_trans less greater
  simp at impossible

theorem Mirrors.latest_log (mirrors : Mirrors store bus) (id : String) :
    store.log.project.maps.latest[id]?.map (·.claimContract) = bus[id]? := by
  have maps := congrArg ClaimMaps.latest (agrees_run mirrors.matching).maps
  rw [← mirrors.latest id]
  exact ClaimMap.contract_of_forget maps id

theorem Mirrors.claims (mirrors : Mirrors store bus) : store.log.project.claims = bus.claims := by
  have lookups (id : String) : (store.log.project.maps.latest.map fun _ claim =>
        claim.claimContract)[id]? = bus[id]? := by
    rw [Std.ExtTreeMap.getElem?_map]
    exact mirrors.latest_log id
  have entries := toList_eq_of_lookups lookups
  rw [Bus.claims, ← entries, Std.ExtTreeMap.toList_map, map_map]
  simp only [ClaimLog.project, ClaimMap.projected, map_map]
  rfl

theorem Mirrors.step (mirrors : Mirrors store bus) {toLowercase : String → String}
    (sound : Sound toLowercase bus) (environment : LogEnvironment)
    (now : Int) (command : CliCommand) : Mirrors (store.step environment toLowercase now command)
      (cliStep toLowercase bus now command) := by
  rw [ClaimStore.step, mirrors.claims, cliStep_eq_writeAll]
  exact mirrors.writeAll environment (sound.fitsAll now command)

end Mirrors

theorem mirrors_run (environment : LogEnvironment) (toLowercase : String → String)
    (history : List (Int × CliCommand)) : Sound toLowercase (cliRun toLowercase ∅ history) ∧
      Mirrors (ClaimStore.empty.run environment toLowercase history)
      (cliRun toLowercase ∅ history) := by
  induction history using List.reverseRecOn with
  | nil => exact ⟨sound_empty toLowercase, mirrors_empty⟩
  | append_singleton earlier last ih =>
    obtain ⟨sound, mirrors⟩ := ih
    rw [cliRun, ClaimStore.run, foldl_append, foldl_append]
    exact ⟨sound.cliStep last.1 last.2, mirrors.step sound environment last.1 last.2⟩

/-- After every history of commands the projected latest claims are the
claims of the map to which the decisions were written directly.  No record
was ever reported or dropped, whether it is still in the log or already
compacted. -/
theorem engine_and_log_agree
    (environment : LogEnvironment)
    (toLowercase : String → String)
    (history : List (Int × CliCommand)) :
    let store := ClaimStore.empty.run environment toLowercase history
    (∀ id : String,
      store.log.project.maps.latest[id]?.map (·.claimContract) =
        (cliRun toLowercase ∅ history)[id]?) ∧
    store.log.project.diagnostics = [] ∧
    (ClaimLog.whole store.events).project.diagnostics = [] ∧
    (ClaimLog.whole store.events).project.appliedRecords =
      (store.events.filterMap LogEvent.record?).length := by
  obtain ⟨-, mirrors⟩ := mirrors_run environment toLowercase history
  have agrees := agrees_run mirrors.matching
  have silent := mirrors.diagnostics
  refine ⟨mirrors.latest_log, ?_, silent, mirrors.applied⟩
  have reported := agrees.diagnostics
  rw [silent] at reported
  exact List.suffix_nil.mp reported

end ForgeCore.ClaimWal
