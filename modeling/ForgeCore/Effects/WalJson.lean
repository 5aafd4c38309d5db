import ForgeCore.Effects.Wal

/-!
# The effect log as JSON

The serialized form of a record determines the record, so a codec for it
exists.
-/

namespace ForgeCore.Effects

open Json
open Claims (ActorRole)

def targetKindName : EffectTargetKind → String
  | .filePath => "file_path"
  | .glob => "glob"
  | .stateKey => "state_key"
  | .artifactId => "artifact_id"
  | .evidenceId => "evidence_id"
  | .ledgerStream => "ledger_stream"
  | .requestStream => "request_stream"
  | .completionId => "completion_id"

def accessModeName : AccessMode → String
  | .read => "read"
  | .write => "write"
  | .append => "append"
  | .create => "create"
  | .delete => "delete"

def actorRoleName : ActorRole → String
  | .driver => "driver"
  | .worker => "worker"
  | .human => "human"
  | .runtime => "runtime"
  | .unknown => "unknown"

theorem targetKindName_injective : Function.Injective targetKindName := by
  intro left right
  cases left <;> cases right <;> simp [targetKindName]

theorem accessModeName_injective : Function.Injective accessModeName := by
  intro left right
  cases left <;> cases right <;> simp [accessModeName]

theorem actorRoleName_injective : Function.Injective actorRoleName := by
  intro left right
  cases left <;> cases right <;> simp [actorRoleName]

namespace EffectWalCreatedObjectIdentity

def toJson (identity : EffectWalCreatedObjectIdentity) : Json :=
  .object [("volume_serial_number", .nat identity.volumeSerialNumber),
      ("file_index", .nat identity.fileIndex), ("creation_time", .nat identity.creationTime),
      ("file_attributes", .nat identity.fileAttributes)]

theorem toJson_injective : Function.Injective toJson := by
  rintro ⟨⟩ ⟨⟩ same
  simpa [toJson, Json.nat, Json.decimal_injective.eq_iff] using same

end EffectWalCreatedObjectIdentity

namespace EffectWalStage

def toJson : EffectWalStage → Json
  | begin => .string "begin"
  | beforeImage => .string "before_image"
  | createEstablished progress =>
    .object [("create_established", .object [("root", progress.root.toJson),
            ("parent", progress.parent.toJson), ("file", progress.file.toJson)])]
  | writeApplied => .string "write_applied"
  | commit => .string "commit"
  | rollbackComplete => .string "rollback_complete"
  | recoveredRollback => .string "recovered_rollback"
  | replayConsumed => .string "replay_consumed"

theorem toJson_injective : Function.Injective toJson := by
  intro left right same
  cases left <;> cases right <;> simp [toJson] at same ⊢
  next first second =>
    obtain ⟨root, parent, file⟩ := same
    cases first
    cases second
    simp only [EffectWalCreateEstablished.mk.injEq]
    exact ⟨EffectWalCreatedObjectIdentity.toJson_injective root,
      EffectWalCreatedObjectIdentity.toJson_injective parent,
      EffectWalCreatedObjectIdentity.toJson_injective file⟩

end EffectWalStage

namespace EffectWalOriginal

def toJson (original : EffectWalOriginal) : Json :=
  .object [("existed", .bool original.existed), ("content",
        .array (original.content.map fun byte => .nat byte.toNat)),
      ("content_hash", .string original.contentHash)]

theorem toJson_injective : Function.Injective toJson := by
  rintro ⟨existed, content, contentHash⟩ ⟨existed', content', contentHash'⟩ same
  have bytes : Function.Injective (fun byte : UInt8 => Json.nat byte.toNat) := by
    intro left right equal
    have numbers := Json.decimal_injective (Json.number.inj equal)
    exact UInt8.toNat_inj.mp numbers
  simp only [toJson, Json.object.injEq, List.cons.injEq, Prod.mk.injEq,
    Json.bool.injEq, Json.array.injEq, Json.string.injEq, true_and, and_true] at same
  obtain ⟨sameExisted, sameContent, sameHash⟩ := same
  rw [sameExisted, List.map_injective_iff.mpr bytes sameContent, sameHash]

end EffectWalOriginal

namespace EffectWalTargetMetadata

def toJson (metadata : EffectWalTargetMetadata) : Json :=
  .object [("operation_id", .string metadata.operationId.value),
      ("target_kind", .string (targetKindName metadata.targetKind)),
      ("access_mode", .string (accessModeName metadata.accessMode)),
      ("content_hash", optionJson .string metadata.contentHash),
      ("byte_len", .nat metadata.byteLen), ("actor_agent_id", .string metadata.actorAgentId.value),
      ("actor_role", .string (actorRoleName metadata.actorRole)),
      ("destructive", .bool metadata.destructive),
      ("redaction_hint", .string metadata.redactionHint.value)]

end EffectWalTargetMetadata

theorem EffectWalTargetMetadata.toJson_injective :
    Function.Injective EffectWalTargetMetadata.toJson := by
  rintro ⟨⟩ ⟨⟩ same
  simp only [EffectWalTargetMetadata.toJson, Json.nat, Json.object.injEq,
    List.cons.injEq, Prod.mk.injEq, Json.string.injEq, Json.bool.injEq,
    Json.number.injEq, Json.decimal_injective.eq_iff,
    targetKindName_injective.eq_iff, accessModeName_injective.eq_iff,
    actorRoleName_injective.eq_iff, optionString_injective.eq_iff, true_and, and_true] at same
  obtain ⟨operation, kind, mode, hash, length, agent, role, destructive, hint⟩ := same
  simp only [EffectWalTargetMetadata.mk.injEq]
  exact ⟨stableId_value_injective operation, kind, mode, hash, length,
    stableId_value_injective agent, role, destructive, stableId_value_injective hint⟩

def EffectExecutionProvenance.toJson (provenance : EffectExecutionProvenance) : Json :=
  .object [("schema_version", .string provenance.schemaVersion),
      ("digest", .string provenance.digest), ("document", provenance.document)]

theorem EffectExecutionProvenance.toJson_injective :
    Function.Injective EffectExecutionProvenance.toJson := by
  rintro ⟨⟩ ⟨⟩ same
  simpa [EffectExecutionProvenance.toJson] using same

def EffectReplayCommitBinding.toJson (binding : EffectReplayCommitBinding) : Json :=
  .object [("key_hash", .string binding.keyHash), ("intent_digest", .string binding.intentDigest),
      ("commit_digest", .string binding.commitDigest),
      ("reservation_revision", .nat binding.reservationRevision)]

theorem EffectReplayCommitBinding.toJson_injective :
    Function.Injective EffectReplayCommitBinding.toJson := by
  rintro ⟨⟩ ⟨⟩ same
  simpa [EffectReplayCommitBinding.toJson, Json.nat, Json.decimal_injective.eq_iff] using same

def EffectReplayCompletion.toJson (completion : EffectReplayCompletion) : Json :=
  .object [("key_hash", .string completion.keyHash),
      ("reservation_revision", .nat completion.reservationRevision),
      ("consumed_revision", .nat completion.consumedRevision),
      ("consumed_seq", .nat completion.consumedSeq), ("recovered", .bool completion.recovered)]

theorem EffectReplayCompletion.toJson_injective :
    Function.Injective EffectReplayCompletion.toJson := by
  rintro ⟨⟩ ⟨⟩ same
  simpa [EffectReplayCompletion.toJson, Json.nat, Json.decimal_injective.eq_iff] using same

def presentField {value : Type} (name : String) (toJson : value → Json) :
    Option value → List (String × Json)
  | none => []
  | some item => [(name, toJson item)]

namespace EffectWalRecord

def toJson (record : EffectWalRecord) : Json :=
  .object ([("schema_version", .string record.schemaVersion), ("tx_id", .string record.txId),
        ("stage", record.stage.toJson), ("effect_id", .string record.effectId.value),
        ("target_ref", optionJson .string record.targetRef),
        ("physical_target_ref", optionJson .string record.physicalTargetRef), ("target_metadata",
          optionJson EffectWalTargetMetadata.toJson record.targetMetadata),
        ("original", optionJson EffectWalOriginal.toJson record.original),
        ("diagnostic", optionJson .string record.diagnostic)] ++
      presentField "execution_provenance" EffectExecutionProvenance.toJson
        record.executionProvenance ++ presentField "replay_binding" EffectReplayCommitBinding.toJson
        record.replayBinding ++ presentField "replay_completion" EffectReplayCompletion.toJson
        record.replayCompletion)

theorem presentFields_injective {first second third : Type} {firstJson : first → Json}
    {secondJson : second → Json} {thirdJson : third → Json}
    (firstInjective : Function.Injective firstJson)
    (secondInjective : Function.Injective secondJson)
    (thirdInjective : Function.Injective thirdJson) {firstName secondName thirdName : String}
    (firstSecond : firstName ≠ secondName) (firstThird : firstName ≠ thirdName)
    (secondThird : secondName ≠ thirdName)
    {a a' : Option first} {b b' : Option second} {c c' : Option third} (same :
      presentField firstName firstJson a ++ presentField secondName secondJson b ++
      presentField thirdName thirdJson c = presentField firstName firstJson a' ++
      presentField secondName secondJson b' ++ presentField thirdName thirdJson c') :
    a = a' ∧ b = b' ∧ c = c' := by
  cases a <;> cases a' <;> cases b <;> cases b' <;> cases c <;> cases c' <;>
    simp_all [presentField, firstInjective.eq_iff, secondInjective.eq_iff, thirdInjective.eq_iff]

theorem toJson_injective : Function.Injective toJson := by
  rintro ⟨⟩ ⟨⟩ same
  have metadata := optionJson_injective EffectWalTargetMetadata.toJson_injective
      (by simp [EffectWalTargetMetadata.toJson])
  have originals := optionJson_injective EffectWalOriginal.toJson_injective
      (by simp [EffectWalOriginal.toJson])
  simp only [toJson, List.cons_append, List.nil_append, Json.object.injEq,
    List.cons.injEq, Prod.mk.injEq, Json.string.injEq,
    EffectWalStage.toJson_injective.eq_iff, optionString_injective.eq_iff,
    metadata.eq_iff, originals.eq_iff, true_and] at same
  obtain ⟨schema, tx, stage, effect, target, physical, targetMetadata,
    original, diagnostic, optional⟩ := same
  obtain ⟨provenance, binding, completion⟩ :=
    presentFields_injective EffectExecutionProvenance.toJson_injective
      EffectReplayCommitBinding.toJson_injective
      EffectReplayCompletion.toJson_injective (by decide) (by decide) (by decide) optional
  simp only [EffectWalRecord.mk.injEq]
  exact ⟨schema, tx, stage, stableId_value_injective effect, target,
    physical, targetMetadata, original, diagnostic, provenance, binding, completion⟩

end EffectWalRecord

def recordText (record : EffectWalRecord) : String :=
  String.ofList record.toJson.render

theorem recordText_injective : Function.Injective recordText := by
  intro left right same
  have texts := congrArg String.toList same
  simp only [recordText, String.toList_ofList] at texts
  exact EffectWalRecord.toJson_injective (Json.render_injective texts)

open Classical in
/-- The serializer of the records, with the reader that it determines. -/
noncomputable def serdeCodec : WalCodec where
  encode := recordText
  decode text :=
    if written : ∃ record, recordText record = text then
      .ok written.choose
    else
      .error "expected value at line 1 column 1"

theorem serdeCodec_lawful : serdeCodec.Lawful where
  roundTrip := by
    intro record
    have written : ∃ other, recordText other = recordText record := ⟨record, rfl⟩
    have same : written.choose = record := recordText_injective written.choose_spec
    simp only [serdeCodec, dif_pos written, same]
  oneLine := by
    intro record
    simp only [serdeCodec, recordText, String.toList_ofList]
    exact Json.lineFeed_not_mem_render _
  closed := by
    intro record
    simp only [serdeCodec, recordText, String.toList_ofList, EffectWalRecord.toJson]
    exact Json.getLast?_render_object _

end ForgeCore.Effects
