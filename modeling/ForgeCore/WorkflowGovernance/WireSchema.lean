import ForgeCore.Common

/-!
# The wire schema of the governance ledger

Every record of the ledger carries the schema version that its event and the
records before it call for.  The writer looks at the whole list of records; the
reader keeps flags while it replays them.  Of a record only the event is read.
-/

namespace ForgeCore.WorkflowGovernance

open List

inductive WorkflowReadinessProfile where
  | soloCooperative
  | strictExternal
  deriving DecidableEq, Repr

/-- The parts whose content does not matter here are of the type `body`. -/
structure WorkflowWorkFocusRecordedEvent (body : Type) where
  blockerRecordDigests : List String
  evidenceRecordDigests : List String
  quickCycle : Option body
  collaboration : Option body

/-- The source assessment is read for its prior evidence. -/
structure WorkflowAdmittedCooperativeEvidence (body : Type) where
  sourceAssessment : Option (List body)

/-- The events of the ledger, with what decides their schema. -/
inductive WorkflowGovernanceEvent (body : Type) where
  | projectImported (readinessProfile : Option WorkflowReadinessProfile)
  | legacySoloProfileAdopted (event : body)
  | humanIntentRevisionAccepted (event : body)
  | cooperativeObjectiveAccepted (revision : Nat)
  | cooperativeEvidenceObserved
      (admittedEvidence : Option (WorkflowAdmittedCooperativeEvidence body))
  | workFocusRecorded (event : WorkflowWorkFocusRecordedEvent body)
  | releaseUpgraded (event : body)
  | domainPackGenerationTransitioned (toEffectiveBundle : body)
  | coreDomainPackRebased (toEffectiveBundle : body)
  | phaseAdvanced (event : body)
  | postBuildVerifyEpisodeApplied (episodeSnapshot : Option body)
  | coordinationStateApplied (event : body)
  | applicabilityAssessed (event : body)
  | signalChanged (event : body)
  | capabilityProbed (event : body)
  | decisionNeedRaised (event : body)
  | decisionResolved (event : body)
  | evaluatorObserved (event : body)
  | waiverAuthorized (event : body)
  | brokerOriginApplied (nativeInteractionReplayDigest : Option String)
      (nativeHostProvenance : Option body)
  | policyCompleted (event : body)
  | receiptRevoked (event : body)
  | continuityRecorded (event : body)

variable {body : Type}

namespace WorkflowGovernanceEvent

variable (event : WorkflowGovernanceEvent body)

def isLegacySoloAdoption : Bool :=
  event matches .legacySoloProfileAdopted _

def isReadinessProfileGenesis : Bool :=
  match event with
  | .projectImported readinessProfile => readinessProfile.isSome
  | _ => false

def toEffectiveBundle : Option body :=
  match event with
  | .domainPackGenerationTransitioned bundle => some bundle
  | .coreDomainPackRebased bundle => some bundle
  | _ => none

def isDomainTransition : Bool :=
  event matches .domainPackGenerationTransitioned _ | .coreDomainPackRebased _

def isRebase : Bool :=
  event matches .coreDomainPackRebased _

def isIntentRevision : Bool :=
  event matches .humanIntentRevisionAccepted _

def isCooperativeObjective : Bool :=
  event matches .cooperativeObjectiveAccepted _

def isCooperativeObjectiveRevision : Bool :=
  match event with
  | .cooperativeObjectiveAccepted revision => revision > 1
  | _ => false

def isCooperativeEvidence : Bool :=
  event matches .cooperativeEvidenceObserved _

/-- `event_contains_prior_cooperative_evidence`. -/
def containsPriorCooperativeEvidence : Bool :=
  match event with
  | .cooperativeEvidenceObserved admittedEvidence =>
    (admittedEvidence.bind (·.sourceAssessment)).any fun priorEvidence => !priorEvidence.isEmpty
  | _ => false

def isNativeHostOrigin : Bool :=
  match event with
  | .brokerOriginApplied _ nativeHostProvenance => nativeHostProvenance.isSome
  | _ => false

def isStrictReplayOrigin : Bool :=
  match event with
  | .brokerOriginApplied nativeInteractionReplayDigest _ => nativeInteractionReplayDigest.isSome
  | _ => false

def isPostBuildVerifyEpisode : Bool :=
  event matches .postBuildVerifyEpisodeApplied _

def isReplacementContinuity : Bool :=
  match event with
  | .postBuildVerifyEpisodeApplied episodeSnapshot => episodeSnapshot.isSome
  | .coordinationStateApplied _ => true
  | _ => false

def workFocus : Option (WorkflowWorkFocusRecordedEvent body) :=
  match event with
  | .workFocusRecorded focus => some focus
  | _ => none

end WorkflowGovernanceEvent

def WorkflowWorkFocusRecordedEvent.hasBindings (focus : WorkflowWorkFocusRecordedEvent body) :
    Bool :=
  !focus.blockerRecordDigests.isEmpty || !focus.evidenceRecordDigests.isEmpty

def workFocusWireLevel (event : WorkflowGovernanceEvent body) : Nat :=
  match event.workFocus with
  | some focus =>
    if focus.collaboration.isSome then 4
    else if focus.quickCycle.isSome then 3
    else if focus.hasBindings then 2
    else 1
  | none => 0

/-- `WorkflowGovernanceLedgerProjection::work_focus_wire_level`. -/
def highestWireLevel (records : List (WorkflowGovernanceEvent body)) : Nat :=
  (records.map workFocusWireLevel).max?.getD 0

/-- `ledger_wire_schema`, on the records of the projection. -/
def ledgerWireSchema (records : List (WorkflowGovernanceEvent body))
    (event : WorkflowGovernanceEvent body) : String :=
  match max (workFocusWireLevel event) (highestWireLevel records) with
  | 4 => "0.18"
  | 3 => "0.17"
  | 2 => "0.16"
  | 1 => "0.15"
  | _ =>
    if event.containsPriorCooperativeEvidence ||
        records.any (·.containsPriorCooperativeEvidence) then "0.14"
    else if event.isLegacySoloAdoption || records.any (·.isLegacySoloAdoption) then "0.13"
    else if event.isCooperativeEvidence || records.any (·.isCooperativeEvidence) then "0.12"
    else if event.isCooperativeObjectiveRevision ||
        records.any (·.isCooperativeObjectiveRevision) then "0.11"
    else if event.isCooperativeObjective || records.any (·.isCooperativeObjective) then "0.10"
    else if event.isReadinessProfileGenesis ||
        records.head?.any (·.isReadinessProfileGenesis) then "0.9"
    else if event.isReplacementContinuity || records.any (·.isReplacementContinuity) then "0.8"
    else if event.isPostBuildVerifyEpisode || records.any (·.isPostBuildVerifyEpisode) then "0.7"
    else if event.isStrictReplayOrigin || records.any (·.isStrictReplayOrigin) then "0.6"
    else if event.isNativeHostOrigin || records.any (·.isNativeHostOrigin) then "0.5"
    else if event.isRebase || records.any (·.isRebase) then "0.4"
    else if event.isIntentRevision || records.any (·.isIntentRevision) then "0.3"
    else if event.isDomainTransition ||
        (records.reverse.findSome? (·.toEffectiveBundle)).isSome then "0.2"
    else "0.1"

/-- The fields that decide on the schema version. -/
structure RecoveredIdentityState (body : Type) where
  activeEffective : Option body := none
  intentRevisionSeen : Bool := false
  rebaseSeen : Bool := false
  nativeHostOriginSeen : Bool := false
  strictReplayOriginSeen : Bool := false
  postBuildVerifyEpisodeSeen : Bool := false
  replacementContinuitySeen : Bool := false
  readinessProfileEpochSeen : Bool := false
  legacySoloAdoptionSeen : Bool := false
  cooperativeObjectiveSeen : Bool := false
  cooperativeObjectiveRevisionSeen : Bool := false
  cooperativeEvidenceSeen : Bool := false
  priorCooperativeEvidenceSeen : Bool := false
  workFocusSeen : Bool := false
  workFocusBindingsSeen : Bool := false
  quickCycleSeen : Bool := false
  collaborationSeen : Bool := false

/-- What `validate_recovered_semantics` notes of a record that it accepts, the
first one or a later one. -/
def RecoveredIdentityState.note (identity : RecoveredIdentityState body) (isFirst : Bool)
    (event : WorkflowGovernanceEvent body) : RecoveredIdentityState body where
  activeEffective := event.toEffectiveBundle.or identity.activeEffective
  intentRevisionSeen := identity.intentRevisionSeen || event.isIntentRevision
  rebaseSeen := identity.rebaseSeen || event.isRebase
  nativeHostOriginSeen := identity.nativeHostOriginSeen || event.isNativeHostOrigin
  strictReplayOriginSeen := identity.strictReplayOriginSeen || event.isStrictReplayOrigin
  postBuildVerifyEpisodeSeen :=
    identity.postBuildVerifyEpisodeSeen || event.isPostBuildVerifyEpisode
  replacementContinuitySeen := identity.replacementContinuitySeen || event.isReplacementContinuity
  readinessProfileEpochSeen :=
    (if isFirst then event.isReadinessProfileGenesis else identity.readinessProfileEpochSeen) ||
      event.isLegacySoloAdoption
  legacySoloAdoptionSeen := identity.legacySoloAdoptionSeen || event.isLegacySoloAdoption
  cooperativeObjectiveSeen := identity.cooperativeObjectiveSeen || event.isCooperativeObjective
  cooperativeObjectiveRevisionSeen :=
    identity.cooperativeObjectiveRevisionSeen || event.isCooperativeObjectiveRevision
  cooperativeEvidenceSeen := identity.cooperativeEvidenceSeen || event.isCooperativeEvidence
  priorCooperativeEvidenceSeen :=
    identity.priorCooperativeEvidenceSeen || event.containsPriorCooperativeEvidence
  workFocusSeen := identity.workFocusSeen || event.workFocus.isSome
  workFocusBindingsSeen := identity.workFocusBindingsSeen || event.workFocus.any (·.hasBindings)
  quickCycleSeen := identity.quickCycleSeen || event.workFocus.any (·.quickCycle.isSome)
  collaborationSeen := identity.collaborationSeen || event.workFocus.any (·.collaboration.isSome)

/-- The state behind the records.  The checks of the replay only refuse
records; this is the state for every list, also for those that are refused. -/
def recoveredIdentity (records : List (WorkflowGovernanceEvent body)) :
    RecoveredIdentityState body :=
  (records.foldl (fun (line, identity) event =>
    (line + 1, identity.note (line = 1) event)) (1, {})).2

/-- The `expected_schema` of `recover_from_reader`. -/
def RecoveredIdentityState.expectedSchema (identity : RecoveredIdentityState body)
    (event : WorkflowGovernanceEvent body) : String :=
  let level := workFocusWireLevel event
  if level = 4 || identity.collaborationSeen then "0.18"
  else if level = 3 || identity.quickCycleSeen then "0.17"
  else if 2 ≤ level || identity.workFocusBindingsSeen then "0.16"
  else if 1 ≤ level || identity.workFocusSeen then "0.15"
  else if event.containsPriorCooperativeEvidence || identity.priorCooperativeEvidenceSeen then
    "0.14"
  else if event.isLegacySoloAdoption || identity.legacySoloAdoptionSeen then "0.13"
  else if event.isCooperativeEvidence || identity.cooperativeEvidenceSeen then "0.12"
  else if event.isCooperativeObjectiveRevision || identity.cooperativeObjectiveRevisionSeen then
    "0.11"
  else if event.isCooperativeObjective || identity.cooperativeObjectiveSeen then "0.10"
  else if event.isReadinessProfileGenesis || identity.readinessProfileEpochSeen then "0.9"
  else if event.isReplacementContinuity || identity.replacementContinuitySeen then "0.8"
  else if event.isPostBuildVerifyEpisode || identity.postBuildVerifyEpisodeSeen then "0.7"
  else if event.isStrictReplayOrigin || identity.strictReplayOriginSeen then "0.6"
  else if event.isNativeHostOrigin || identity.nativeHostOriginSeen then "0.5"
  else if event.isRebase || identity.rebaseSeen then "0.4"
  else if event.isIntentRevision || identity.intentRevisionSeen then "0.3"
  else if event.isDomainTransition || identity.activeEffective.isSome then "0.2"
  else "0.1"

/-- The flags, read off the whole list. -/
def flagsOf (records : List (WorkflowGovernanceEvent body)) : RecoveredIdentityState body where
  activeEffective := records.reverse.findSome? (·.toEffectiveBundle)
  intentRevisionSeen := records.any (·.isIntentRevision)
  rebaseSeen := records.any (·.isRebase)
  nativeHostOriginSeen := records.any (·.isNativeHostOrigin)
  strictReplayOriginSeen := records.any (·.isStrictReplayOrigin)
  postBuildVerifyEpisodeSeen := records.any (·.isPostBuildVerifyEpisode)
  replacementContinuitySeen := records.any (·.isReplacementContinuity)
  readinessProfileEpochSeen :=
    records.head?.any (·.isReadinessProfileGenesis) || records.any (·.isLegacySoloAdoption)
  legacySoloAdoptionSeen := records.any (·.isLegacySoloAdoption)
  cooperativeObjectiveSeen := records.any (·.isCooperativeObjective)
  cooperativeObjectiveRevisionSeen := records.any (·.isCooperativeObjectiveRevision)
  cooperativeEvidenceSeen := records.any (·.isCooperativeEvidence)
  priorCooperativeEvidenceSeen := records.any (·.containsPriorCooperativeEvidence)
  workFocusSeen := records.any (·.workFocus.isSome)
  workFocusBindingsSeen := records.any (·.workFocus.any (·.hasBindings))
  quickCycleSeen := records.any (·.workFocus.any (·.quickCycle.isSome))
  collaborationSeen := records.any (·.workFocus.any (·.collaboration.isSome))

variable (records : List (WorkflowGovernanceEvent body)) (event : WorkflowGovernanceEvent body)

theorem note_flagsOf :
    (flagsOf records).note (records.length + 1 = 1) event = flagsOf (records ++ [event]) := by
  have epoch : ((if records.length + 1 = 1 then event.isReadinessProfileGenesis
      else (flagsOf records).readinessProfileEpochSeen) || event.isLegacySoloAdoption) =
      (flagsOf (records ++ [event])).readinessProfileEpochSeen := by
    cases records with
    | nil => simp [flagsOf]
    | cons first rest => simp [flagsOf, Bool.or_assoc]
  simp [RecoveredIdentityState.note, flagsOf] at epoch ⊢
  refine ⟨?_, epoch⟩
  cases found : event.toEffectiveBundle <;> simp [found]

theorem recoveredIdentity_eq : recoveredIdentity records = flagsOf records := by
  suffices counted : records.foldl (fun (line, identity) event =>
      (line + 1, identity.note (line = 1) event)) (1, {}) =
      (records.length + 1, flagsOf records) by
    rw [recoveredIdentity, counted]
  induction records using List.reverseRecOn with
  | nil => rfl
  | append_singleton earlier last ih =>
    rw [foldl_append, ih, length_append]
    exact Prod.ext rfl (note_flagsOf earlier last)

/-- The highest level reaches a bound exactly when that of an event does. -/
theorem le_highestWireLevel {bound : Nat} (positive : 0 < bound) :
    bound ≤ max (workFocusWireLevel event) (highestWireLevel records) ↔
      bound ≤ workFocusWireLevel event ∨ ∃ other ∈ records, bound ≤ workFocusWireLevel other := by
  rw [le_max_iff, highestWireLevel]
  refine or_congr_right ?_
  cases found : (records.map workFocusWireLevel).max? with
  | none =>
    have empty : records = [] := by simpa using found
    simp [empty, positive.ne']
  | some highest =>
    constructor
    · intro reaches
      obtain ⟨other, member, rfl⟩ := List.mem_map.mp (max?_mem found)
      exact ⟨other, member, reaches⟩
    · rintro ⟨other, member, reaches⟩
      exact reaches.trans ((max?_le_iff found).mp le_rfl _ (mem_map_of_mem member))

theorem workFocusWireLevel_reaches :
    let level := workFocusWireLevel event
    level ≤ 4 ∧ (1 ≤ level ↔ event.workFocus.isSome) ∧
      (4 ≤ level ↔ event.workFocus.any (·.collaboration.isSome)) ∧
      (3 ≤ level ↔ event.workFocus.any (·.collaboration.isSome) ∨
        event.workFocus.any (·.quickCycle.isSome)) ∧
      (2 ≤ level ↔ event.workFocus.any (·.collaboration.isSome) ∨
        event.workFocus.any (·.quickCycle.isSome) ∨ event.workFocus.any (·.hasBindings)) := by
  rw [workFocusWireLevel]
  cases event.workFocus with
  | none => simp
  | some focus =>
    simp only [Option.isSome_some, Option.any_some]
    split_ifs with collaborates cycles binds
    · simp [collaborates]
    · simp [collaborates, cycles]
    · simp [collaborates, cycles, binds]
    · simp [collaborates, cycles, binds]

/-- The reader requires of every event, behind any records, the schema version
that the writer stamps on it. -/
theorem ledger_wire_schema_agrees (records : List (WorkflowGovernanceEvent body))
    (event : WorkflowGovernanceEvent body) :
    (recoveredIdentity records).expectedSchema event = ledgerWireSchema records event := by
  have reaches := fun bound positive => @le_highestWireLevel _ records event bound positive
  obtain ⟨most, one, four, three, two⟩ := workFocusWireLevel_reaches event
  have below : max (workFocusWireLevel event) (highestWireLevel records) < 5 := by
    by_contra above
    rcases (reaches 5 (by decide)).mp (Nat.not_lt.mp above) with own | ⟨other, -, high⟩
    · omega
    · have := (workFocusWireLevel_reaches other).1
      omega
  have anyOne := reaches 1 (by decide)
  have anyTwo := reaches 2 (by decide)
  have anyThree := reaches 3 (by decide)
  have anyFour := reaches 4 (by decide)
  simp only [(workFocusWireLevel_reaches _).2.1, (workFocusWireLevel_reaches _).2.2.1,
    (workFocusWireLevel_reaches _).2.2.2.1,
    (workFocusWireLevel_reaches _).2.2.2.2] at anyOne anyTwo anyThree anyFour
  rw [recoveredIdentity_eq, RecoveredIdentityState.expectedSchema, ledgerWireSchema]
  generalize max (workFocusWireLevel event) (highestWireLevel records) = highest at *
  simp only [and_or_left, exists_or] at anyTwo anyThree
  simp only [flagsOf, Bool.or_eq_true, decide_eq_true_eq, any_eq_true]
  clear reaches
  -- The epoch flag is also set by an adoption, but that has decided before.
  by_cases adopted : event.isLegacySoloAdoption = true ∨
      ∃ other ∈ records, other.isLegacySoloAdoption = true
  · simp only [adopted, if_true]
    interval_cases highest <;> grind
  · simp only [(not_or.mp adopted).2, or_false]
    interval_cases highest <;> grind

end ForgeCore.WorkflowGovernance
