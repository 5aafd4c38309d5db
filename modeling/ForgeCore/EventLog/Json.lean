import ForgeCore.EventLog.Memory
import ForgeCore.EventLog.Governance
import ForgeCore.Library.Json

/-!
# Events as JSON

The serialized forms of the events determine them, so codecs for them exist.
-/

namespace ForgeCore.EventLog

open Text Json

section Object

variable {Event : Type} (toValue : Event → Json) (wellFormed : Event → Prop)

def valueText (event : Event) : String :=
  String.ofList (toValue event).render

open Classical in
/-- The serializer, with the reader that it determines. -/
noncomputable def objectCodec : EventCodec Event where
  toJson := valueText toValue
  fromJson text :=
    if written : ∃ event, wellFormed event ∧ valueText toValue event = text
    then .ok written.choose
    else .error "invalid event"

variable {toValue wellFormed}

theorem fromJson_eq_ok (read : (objectCodec toValue wellFormed).fromJson text = .ok event) :
    wellFormed event ∧ valueText toValue event = text := by
  simp only [objectCodec] at read
  split at read
  · next written =>
    rw [← Except.ok.inj read]
    exact written.choose_spec
  · cases read

theorem valueText_injective (injective : Function.Injective toValue) :
    Function.Injective (valueText toValue) := by
  intro left right same
  have texts := congrArg String.toList same
  simp only [valueText, String.toList_ofList] at texts
  exact injective (Json.render_injective texts)

theorem render_object_cons (field : String × Json) (fields : List (String × Json)) :
    ∃ rest, (Json.object (field :: fields)).render = '\x7b' :: '\x22' :: rest := by
  rw [Json.render, Json.quoted]
  exact ⟨_, rfl⟩

variable (toValue) in
/-- Every event is written as an object with at least one field. -/
def Objects : Prop :=
  ∀ event, ∃ field fields, toValue event = .object (field :: fields)

theorem objectCodec_lawful
    (objects : Objects toValue) (injective : Function.Injective toValue) :
    (objectCodec toValue wellFormed).Lawful wellFormed where
  oneLine event := by
    simp only [objectCodec, valueText, String.toList_ofList]
    exact Json.lineFeed_not_mem_render _
  opened event := by
    obtain ⟨field, fields, isObject⟩ := objects event
    obtain ⟨rest, text⟩ := render_object_cons field fields
    simp [objectCodec, valueText, startsWithChar, isObject, text]
  closed event := by
    obtain ⟨field, fields, isObject⟩ := objects event
    simp only [objectCodec, valueText, endsWithChar, String.toList_ofList,
      isObject, Json.getLast?_render_object, decide_true]
  roundTrip event formed := by
    have written : ∃ other, wellFormed other ∧ valueText toValue other = valueText toValue event :=
      ⟨event, formed, rfl⟩
    simp only [objectCodec, dif_pos written]
    exact congrArg Except.ok (valueText_injective injective written.choose_spec.2)
  faithful event other read := valueText_injective injective (fromJson_eq_ok read).2
  checked _ _ read := (fromJson_eq_ok read).1
  object text event read _ := by
    obtain ⟨field, fields, isObject⟩ := objects event
    rw [← (fromJson_eq_ok read).2]
    simp only [valueText, endsWithChar, String.toList_ofList, isObject,
      Json.getLast?_render_object, decide_true]

theorem fromJson_glued (objects : Objects toValue) (event : Event) :
    ∃ source, (objectCodec toValue wellFormed).fromJson
      ("\x7b" ++ valueText toValue event) = .error source := by
  cases read : (objectCodec toValue wellFormed).fromJson ("\x7b" ++ valueText toValue event) with
  | error source => exact ⟨source, rfl⟩
  | ok other =>
    have same := congrArg String.toList (fromJson_eq_ok read).2
    obtain ⟨field, fields, isObject⟩ := objects event
    obtain ⟨otherField, otherFields, otherObject⟩ := objects other
    obtain ⟨rest, text⟩ := render_object_cons field fields
    obtain ⟨otherRest, otherText⟩ := render_object_cons otherField otherFields
    simp [valueText, isObject, otherObject, text, otherText] at same

end Object

def memoryKindName : MemoryKind → String
  | .preference => "preference"
  | .decision => "decision"
  | .lessonLearned => "lesson_learned"
  | .playbookRule => "playbook_rule"
  | .failurePattern => "failure_pattern"
  | .glossaryTerm => "glossary_term"

def authorityLevelName : AuthorityLevel → String
  | .raw => "raw"
  | .provisional => "provisional"
  | .authority => "authority"

def reviewStateName : ReviewState → String
  | .unreviewed => "unreviewed"
  | .reviewed => "reviewed"

def approvalStateName : ApprovalState → String
  | .proposed => "proposed"
  | .inReview => "in_review"
  | .approved => "approved"
  | .rejected => "rejected"
  | .autoPromoted => "auto_promoted"

theorem memoryKindName_injective : Function.Injective memoryKindName := by
  intro left right
  cases left <;> cases right <;> simp [memoryKindName]

theorem authorityLevelName_injective : Function.Injective authorityLevelName := by
  intro left right
  cases left <;> cases right <;> simp [authorityLevelName]

theorem reviewStateName_injective : Function.Injective reviewStateName := by
  intro left right
  cases left <;> cases right <;> simp [reviewStateName]

theorem approvalStateName_injective : Function.Injective approvalStateName := by
  intro left right
  cases left <;> cases right <;> simp [approvalStateName]

def MemoryProvenance.toJson (provenance : MemoryProvenance) : Json :=
  .object [("source_run_id", optionJson (nameJson StableId.value) provenance.sourceRunId),
      ("source_agent", optionJson (nameJson StableId.value) provenance.sourceAgent),
      ("evidence_ref", optionJson .string provenance.evidenceRef),
      ("captured_at", .string provenance.capturedAt)]

def Freshness.toJson (freshness : Freshness) : Json :=
  .object [("ttl_seconds", optionJson Json.nat freshness.ttlSeconds),
      ("last_confirmed_at", .string freshness.lastConfirmedAt), ("stale", .bool freshness.stale)]

def MemoryEntry.toJson (entry : MemoryEntry) : Json :=
  .object [("entry_id", .string entry.entryId.value), ("kind", .string (memoryKindName entry.kind)),
      ("content", .string entry.content), ("provenance", entry.provenance.toJson),
      ("freshness", entry.freshness.toJson), ("confidence", .nat entry.confidence.toNat),
      ("approval", .string (approvalStateName entry.approval)),
      ("supersedes", optionJson (nameJson StableId.value) entry.supersedes),
      ("invalidation_reason", optionJson .string entry.invalidationReason), ("authority_level",
        optionJson (nameJson authorityLevelName) entry.authorityLevel), ("review_state",
        optionJson (nameJson reviewStateName) entry.reviewState), ("reviewed_by",
        optionJson (nameJson PrincipalId.value) entry.reviewedBy),
      ("reviewed_at", optionJson .string entry.reviewedAt)]

theorem MemoryProvenance.toJson_injective : Function.Injective MemoryProvenance.toJson := by
  rintro ⟨⟩ ⟨⟩ same
  have ids := optionName_injective stableId_value_injective
  simpa [MemoryProvenance.toJson, ids.eq_iff, optionString_injective.eq_iff] using same

theorem Freshness.toJson_injective : Function.Injective Freshness.toJson := by
  rintro ⟨⟩ ⟨⟩ same
  simpa [Freshness.toJson, optionNat_injective.eq_iff] using same

theorem MemoryEntry.toJson_injective : Function.Injective MemoryEntry.toJson := by
  rintro ⟨⟩ ⟨⟩ same
  simp only [MemoryEntry.toJson, Json.nat, Json.object.injEq,
    List.cons.injEq, Prod.mk.injEq, Json.string.injEq, Json.number.injEq,
    Json.decimal_injective.eq_iff, UInt8.toNat_inj,
    memoryKindName_injective.eq_iff, approvalStateName_injective.eq_iff,
    MemoryProvenance.toJson_injective.eq_iff, Freshness.toJson_injective.eq_iff,
    (optionName_injective stableId_value_injective).eq_iff,
    (optionName_injective authorityLevelName_injective).eq_iff,
    (optionName_injective reviewStateName_injective).eq_iff,
    (optionName_injective principalId_value_injective).eq_iff,
    optionString_injective.eq_iff, true_and, and_true] at same
  simp only [MemoryEntry.mk.injEq]
  exact ⟨stableId_value_injective same.1, same.2⟩

def variantJson (name : String) (fields : List (String × Json)) : Json :=
  .object [(name, .object fields)]

def MemoryEvent.toJson : MemoryEvent → Json
  | .admitted sequence atUnix entry =>
    variantJson "Admitted" [("sequence", .nat sequence), ("at_unix", .nat atUnix),
        ("entry", entry.toJson)]
  | .promoted sequence atUnix entryId before after evidenceRefs =>
    variantJson "Promoted" [("sequence", .nat sequence), ("at_unix", .nat atUnix),
        ("entry_id", .string entryId.value), ("before", .string (authorityLevelName before)),
        ("after", .string (authorityLevelName after)),
        ("evidence_refs", .array (evidenceRefs.map .string))]
  | .forgotten sequence atUnix before contentHash =>
    variantJson "Forgotten" [("sequence", .nat sequence), ("at_unix", .nat atUnix),
        ("before", before.toJson), ("content_hash", .string contentHash)]

theorem MemoryEvent.toJson_objects : Objects MemoryEvent.toJson := by
  intro event
  cases event <;> exact ⟨_, _, rfl⟩

theorem MemoryEvent.toJson_injective : Function.Injective MemoryEvent.toJson := by
  have strings : Function.Injective (List.map Json.string) :=
    List.map_injective_iff.mpr fun _ _ same => Json.string.inj same
  intro left right same
  cases left <;> cases right <;> simp [MemoryEvent.toJson, variantJson, Json.nat,
      Json.decimal_injective.eq_iff, MemoryEntry.toJson_injective.eq_iff,
      authorityLevelName_injective.eq_iff, strings.eq_iff] at same ⊢
  · exact same
  · obtain ⟨number, time, id, rest⟩ := same
    exact ⟨number, time, stableId_value_injective id, rest⟩
  · exact same

noncomputable def memoryCodec : EventCodec MemoryEvent :=
  objectCodec MemoryEvent.toJson MemoryEvent.WellFormed

theorem memoryCodec_lawful : memoryCodec.Lawful MemoryEvent.WellFormed :=
  objectCodec_lawful MemoryEvent.toJson_objects MemoryEvent.toJson_injective

def intentScopeKindName : IntentScopeKind → String
  | .project => "project"
  | .repo => "repo"
  | .pathPrefix => "path_prefix"
  | .memoryEntry => "memory_entry"

def conflictDetectionReasonName : ConflictDetectionReason → String
  | .pathOverlap => "path_overlap"
  | .authorityScopeOverlap => "authority_scope_overlap"
  | .concurrentMutate => "concurrent_mutate"

theorem intentScopeKindName_injective : Function.Injective intentScopeKindName := by
  intro left right
  cases left <;> cases right <;> simp [intentScopeKindName]

theorem conflictDetectionReasonName_injective : Function.Injective conflictDetectionReasonName := by
  intro left right
  cases left <;> cases right <;> simp [conflictDetectionReasonName]

def ResolutionDecision.toJson : ResolutionDecision → Json
  | .awardedTo principal => .object [("awarded_to", .string principal.value)]
  | .bothReleased => .string "both_released"
  | .splitScope => .string "split_scope"

def ConflictResolutionState.toJson : ConflictResolutionState → Json
  | .pending => .string "pending"
  | .resolved arbiter decidedAt decision =>
    variantJson "resolved" [("arbiter", .string arbiter.value),
        ("decided_at", .nat decidedAt), ("decision", ResolutionDecision.toJson decision)]
  | .escalated => .string "escalated"

def IntentScope.toJson (scope : IntentScope) : Json :=
  .object [("kind", .string (intentScopeKindName scope.kind)),
      ("target", .string scope.target.value)]

def ConflictContract.toJson (conflict : ConflictContract) : Json :=
  .object [("conflict_id", .string conflict.conflictId.value),
      ("intent_a", .string conflict.intentA.value), ("intent_b", .string conflict.intentB.value),
      ("principal_a", .string conflict.principalA.value),
      ("principal_b", .string conflict.principalB.value),
      ("contested_scope", IntentScope.toJson conflict.contestedScope), ("detection_reason",
        .string (conflictDetectionReasonName conflict.detectionReason)),
      ("detected_at", .nat conflict.detectedAt),
      ("resolution", ConflictResolutionState.toJson conflict.resolution)]

/-- The variant of a governance event is one of its fields. -/
def GovernanceEvent.toJson : GovernanceEvent → Json
  | .detected sequence atUnix conflict =>
    .object [("kind", .string "detected"), ("sequence", .nat sequence),
        ("at_unix", .nat atUnix), ("conflict", ConflictContract.toJson conflict)]
  | .resolved sequence atUnix conflictId arbiter decision =>
    .object [("kind", .string "resolved"), ("sequence", .nat sequence), ("at_unix", .nat atUnix),
        ("conflict_id", .string conflictId.value), ("arbiter", .string arbiter.value),
        ("decision", ResolutionDecision.toJson decision)]
  | .escalated sequence atUnix conflictId =>
    .object [("kind", .string "escalated"), ("sequence", .nat sequence), ("at_unix", .nat atUnix),
        ("conflict_id", .string conflictId.value)]

theorem ResolutionDecision.toJson_injective : Function.Injective ResolutionDecision.toJson := by
  intro left right same
  cases left <;> cases right <;> simp [ResolutionDecision.toJson] at same ⊢
  exact principalId_value_injective same

theorem ConflictResolutionState.toJson_injective :
    Function.Injective ConflictResolutionState.toJson := by
  intro left right same
  cases left <;> cases right <;> simp [ConflictResolutionState.toJson, variantJson, Json.nat,
      Json.decimal_injective.eq_iff, ResolutionDecision.toJson_injective.eq_iff] at same ⊢
  exact ⟨principalId_value_injective same.1, same.2⟩

theorem IntentScope.toJson_injective : Function.Injective IntentScope.toJson := by
  rintro ⟨⟩ ⟨⟩ same
  simp only [IntentScope.toJson, Json.object.injEq, List.cons.injEq,
    Prod.mk.injEq, Json.string.injEq,
    intentScopeKindName_injective.eq_iff, true_and, and_true] at same
  simp only [IntentScope.mk.injEq]
  exact ⟨same.1, stableId_value_injective same.2⟩

theorem ConflictContract.toJson_injective : Function.Injective ConflictContract.toJson := by
  rintro ⟨⟩ ⟨⟩ same
  simp only [ConflictContract.toJson, Json.nat, Json.object.injEq,
    List.cons.injEq, Prod.mk.injEq, Json.string.injEq, Json.number.injEq,
    Json.decimal_injective.eq_iff, IntentScope.toJson_injective.eq_iff,
    conflictDetectionReasonName_injective.eq_iff,
    ConflictResolutionState.toJson_injective.eq_iff, true_and, and_true] at same
  obtain ⟨id, intentA, intentB, principalA, principalB, rest⟩ := same
  simp only [ConflictContract.mk.injEq]
  exact ⟨stableId_value_injective id, stableId_value_injective intentA,
    stableId_value_injective intentB, principalId_value_injective principalA,
    principalId_value_injective principalB, rest⟩

theorem GovernanceEvent.toJson_objects : Objects GovernanceEvent.toJson := by
  intro event
  cases event <;> exact ⟨_, _, rfl⟩

theorem GovernanceEvent.toJson_injective : Function.Injective GovernanceEvent.toJson := by
  intro left right same
  cases left <;> cases right <;>
    simp [GovernanceEvent.toJson, Json.nat, Json.decimal_injective.eq_iff,
      ConflictContract.toJson_injective.eq_iff,
      ResolutionDecision.toJson_injective.eq_iff] at same ⊢
  · exact same
  · obtain ⟨number, time, id, arbiter, decision⟩ := same
    exact ⟨number, time, stableId_value_injective id, principalId_value_injective arbiter, decision⟩
  · obtain ⟨number, time, id⟩ := same
    exact ⟨number, time, stableId_value_injective id⟩

noncomputable def governanceCodec : EventCodec GovernanceEvent :=
  objectCodec GovernanceEvent.toJson fun _ => True

theorem governanceCodec_lawful : governanceCodec.Lawful fun _ => True :=
  objectCodec_lawful GovernanceEvent.toJson_objects
    GovernanceEvent.toJson_injective

namespace Sample

def conflict : ConflictContract where
  conflictId := ⟨"c"⟩
  intentA := ⟨"a"⟩
  intentB := ⟨"b"⟩
  principalA := ⟨"p"⟩
  principalB := ⟨"q"⟩
  contestedScope := ⟨.project, ⟨"t"⟩⟩
  detectionReason := .pathOverlap
  detectedAt := 0
  resolution := .pending

def entry : MemoryEntry where
  entryId := ⟨"m"⟩
  kind := .preference
  content := ""
  provenance := ⟨none, none, none, "0"⟩
  freshness := ⟨none, "0", false⟩
  confidence := 0
  approval := .proposed
  supersedes := none
  invalidationReason := none
  authorityLevel := none
  reviewState := none
  reviewedBy := none
  reviewedAt := none

end Sample

end ForgeCore.EventLog
