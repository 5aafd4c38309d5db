import ForgeCore.ClaimWal.CrashSafety

/-!
# Records that this reader does not support

A log may hold a whole record of a type that the reader neither knows nor may
skip.  Readers stop in front of it, but the writers repair what readers stop
at: the record and everything behind it is cut off.  Only checkpoint files
that the log does not select keep a writer from it.
-/

namespace ForgeCore.ClaimWal

open List ForgeCore.Frame Machine

section Unsupported

variable {prims : ClaimWalPrimitives} {files : CheckpointFiles}

/-! ## The loop, one record at a time -/

/-- The bytes that a record takes, unless the reader stops at it. -/
def DecodeRecordOutcome.recordLen? : DecodeRecordOutcome → Option Nat
  | .known record => some record.recordLen
  | .checkpoint record => some record.recordLen
  | .skippedUnknown _ recordLen => some recordLen
  | .stop _ => none

def DecodeState.behindRecord (state : DecodeState) : DecodeRecordOutcome → DecodeState
  | .known record =>
    { state with
      records := state.records ++ [record]
      offset := state.offset + record.recordLen
      expectedSeq := saturatingAdd state.expectedSeq 1
      lastObservedSeq := record.seq
      validRecordCount := state.validRecordCount + 1 }
  | .checkpoint record =>
    { state with
      checkpoint := some record
      offset := state.offset + record.recordLen
      expectedSeq := saturatingAdd record.seq 1
      lastObservedSeq := record.seq
      validRecordCount := state.validRecordCount + 1 }
  | .skippedUnknown seq recordLen =>
    { state with
      offset := state.offset + recordLen
      expectedSeq := saturatingAdd state.expectedSeq 1
      lastObservedSeq := seq
      validRecordCount := state.validRecordCount + 1 }
  | .stop _ => state

variable {recordLen offset expectedSeq : Nat} {remaining file : Bytes} {state : WalState}

theorem DecodeState.offset_behindRecord {outcome : DecodeRecordOutcome}
    (reads : outcome.recordLen? = some recordLen) (state : DecodeState) :
    (state.behindRecord outcome).offset = state.offset + recordLen := by
  cases outcome with
  | stop reason => cases reads
  | _ =>
    cases reads
    rfl

section

variable
  (reads : (decodeRecordAt prims files remaining offset expectedSeq).recordLen? = some recordLen)

include reads

theorem decode_of_recordLen? :
    ∃ frame, (claimFormat prims).decode remaining = .ok frame ∧ frame.recordLen = recordLen := by
  rw [decodeRecordAt] at reads
  cases decoded : (claimFormat prims).decode remaining with
  | error stop =>
    rw [decoded] at reads
    cases reads
  | ok frame =>
    refine ⟨frame, rfl, ?_⟩
    simp only [decoded, decodeCheckpointRecord, decodeLifecycleRecord] at reads
    repeat' split at reads
    all_goals
      cases reads
      try rfl

theorem decodeRecordAt_append
    (more : Bytes) : decodeRecordAt prims files (remaining ++ more) offset expectedSeq =
      decodeRecordAt prims files remaining offset expectedSeq ∧
      recordLen ≤ remaining.length ∧ 0 < recordLen := by
  obtain ⟨frame, decoded, rfl⟩ := decode_of_recordLen? reads
  obtain ⟨longer, bound, positive⟩ := (claimFormat prims).decode_append decoded more
  refine ⟨?_, bound, positive⟩
  rw [decodeRecordAt, decodeRecordAt, decoded, longer]

end

theorem decodeLoop_reads {state : DecodeState} (nonempty : remaining ≠ []) (reads :
      (decodeRecordAt prims files remaining state.offset
      state.expectedSeq).recordLen? = some recordLen) (fuel : Nat) :
    decodeLoop prims files (fuel + 1) remaining state =
      decodeLoop prims files fuel (remaining.drop recordLen) (state.behindRecord
      (decodeRecordAt prims files remaining state.offset state.expectedSeq)) := by
  cases remaining with
  | nil => exact absurd rfl nonempty
  | cons byte rest =>
    rw [decodeLoop]
    cases outcome : decodeRecordAt prims files (byte :: rest) state.offset state.expectedSeq with
    | stop reason =>
      rw [outcome] at reads
      cases reads
    | _ =>
      rw [outcome] at reads
      cases reads
      rfl

theorem decodeLoop_stops
    {state : DecodeState} {reason : ClaimWalStopReason} (nonempty : remaining ≠ []) (stops :
      decodeRecordAt prims files remaining state.offset state.expectedSeq = .stop reason)
    (fuel : Nat) : decodeLoop prims files (fuel + 1) remaining state = (state, reason) := by
  cases remaining with
  | nil => exact absurd rfl nonempty
  | cons byte rest => rw [decodeLoop, stops]

theorem decodeLoop_nil (fuel : Nat) (state : DecodeState) :
    decodeLoop prims files fuel [] state = (state, .cleanEof) := by
  cases fuel <;> rfl

/-- Bytes that hold whole records only are read the same way in front of
others, and the loop goes on behind them. -/
theorem decodeLoop_append (more : Bytes) (steps : Nat) :
    ∀ (front : Bytes) (state : DecodeState), (decodeLoop prims files steps front state).1.offset =
      state.offset + front.length → ∀ fuel, (front ++ more).length ≤ fuel →
      ∃ left, more.length ≤ left ∧ decodeLoop prims files fuel (front ++ more) state =
      decodeLoop prims files left more (decodeLoop prims files steps front state).1 := by
  induction steps with
  | zero =>
    intro front state whole fuel enough
    cases front with
    | nil =>
      refine ⟨fuel, enough, ?_⟩
      rw [decodeLoop_nil]
      rfl
    | cons byte rest =>
      simp only [decodeLoop, length_cons] at whole
      omega
  | succ steps ih =>
    intro front state whole fuel enough
    by_cases nonempty : front = []
    · subst nonempty
      refine ⟨fuel, enough, ?_⟩
      rw [decodeLoop_nil]
      rfl
    · have positive := List.length_pos_iff.mpr nonempty
      obtain ⟨fuel, rfl⟩ : ∃ less, fuel = less + 1 := by
        rw [length_append] at enough
        exact ⟨fuel - 1, by omega⟩
      cases outcome : decodeRecordAt prims files front state.offset state.expectedSeq with
      | stop reason =>
        simp only [decodeLoop_stops nonempty outcome] at whole
        omega
      | _ =>
        -- The record is read, with or without what follows it.
        have reads : ∃ recordLen, (decodeRecordAt prims files front state.offset
                state.expectedSeq).recordLen? = some recordLen := by
          rw [outcome]
          exact ⟨_, rfl⟩
        obtain ⟨recordLen, reads⟩ := reads
        obtain ⟨longer, bound, recordPositive⟩ := decodeRecordAt_append reads more
        have behind := DecodeState.offset_behindRecord reads state
        rw [decodeLoop_reads nonempty reads] at whole ⊢
        rw [decodeLoop_reads (by simp [nonempty]) (longer ▸ reads),
          longer, drop_append_of_le_length bound]
        refine ih _ _ ?_ fuel ?_
        · rw [whole, behind, length_drop]
          omega
        · rw [length_append] at enough ⊢
          rw [length_drop]
          omega

/-! ## The record that opens the log -/

/-- A checkpoint is read at the start of the log only. -/
theorem checkpoint_decodeLoop (fuel : Nat) :
    ∀ (remaining : Bytes) (state : DecodeState), state.offset ≠ 0 →
      (decodeLoop prims files fuel remaining state).1.checkpoint = state.checkpoint := by
  induction fuel with
  | zero =>
    intro remaining state _
    cases remaining <;> rfl
  | succ fuel ih =>
    intro remaining state inside
    by_cases nonempty : remaining = []
    · rw [nonempty, decodeLoop_nil]
    · cases outcome : decodeRecordAt prims files remaining state.offset state.expectedSeq with
      | stop reason => rw [decodeLoop_stops nonempty outcome]
      | checkpoint record =>
        rw [decodeRecordAt] at outcome
        simp only [decodeCheckpointRecord, if_pos inside, decodeLifecycleRecord] at outcome
        repeat' split at outcome
        all_goals cases outcome
      | known record =>
        have reads := congrArg DecodeRecordOutcome.recordLen? outcome
        have behind := DecodeState.offset_behindRecord reads state
        rw [decodeLoop_reads nonempty reads, ih _ _ (by omega), outcome]
        rfl
      | skippedUnknown seq recordLen =>
        have reads := congrArg DecodeRecordOutcome.recordLen? outcome
        have behind := DecodeState.offset_behindRecord reads state
        rw [decodeLoop_reads nonempty reads, ih _ _ (by omega), outcome]
        rfl

theorem decodeCheckpointRecord_cases (offset : Nat) (frame : DecodedFrame) :
    (∃ record, decodeCheckpointRecord prims files offset frame = .checkpoint record) ∨ ∃ reason,
      decodeCheckpointRecord prims files offset frame = .stop reason := by
  rw [decodeCheckpointRecord]
  repeat' split
  all_goals
    first
      | exact .inl ⟨_, rfl⟩
      | exact .inr ⟨_, rfl⟩

/-- The frame of a record tells a checkpoint from the others. -/
theorem recordType_of_reads (reads : (decodeRecordAt prims files remaining offset
      expectedSeq).recordLen? = some recordLen) :
    (∃ record, decodeRecordAt prims files remaining offset expectedSeq = .checkpoint record) ↔
      remaining[5]? = some recordTypeCheckpointRef := by
  obtain ⟨frame, decoded, -⟩ := decode_of_recordLen? reads
  rw [(claimFormat prims).getElem?_of_decode decoded, Option.some_inj]
  rw [decodeRecordAt] at reads ⊢
  simp only [decoded] at reads ⊢
  constructor
  · rintro ⟨record, isCheckpoint⟩
    by_contra other
    simp only [if_neg other, decodeLifecycleRecord] at isCheckpoint
    repeat' split at isCheckpoint
    all_goals cases isCheckpoint
  · intro isType
    rw [if_pos isType] at reads ⊢
    obtain isCheckpoint | ⟨reason, stops⟩ := decodeCheckpointRecord_cases offset frame
    · exact isCheckpoint
    · rw [stops] at reads
      cases reads

/-- The first record decides whether the log has a checkpoint. -/
theorem checkpoint_decodePrefix (reads : 0 < (decodePrefix prims files file).lastGoodOffset) :
    (decodePrefix prims files file).checkpoint.isNone = true ↔
      file[5]? ≠ some recordTypeCheckpointRef := by
  rw [decodePrefix] at reads ⊢
  simp only at reads ⊢
  have nonempty : file ≠ [] := by
    rintro rfl
    rw [decodeLoop_nil] at reads
    exact absurd reads (Nat.lt_irrefl 0)
  obtain ⟨fuel, isLength⟩ : ∃ fuel, file.length = fuel + 1 :=
    Nat.exists_eq_succ_of_ne_zero (List.length_pos_iff.mpr nonempty).ne'
  rw [isLength] at reads ⊢
  cases outcome : decodeRecordAt prims files file
      DecodeState.initial.offset DecodeState.initial.expectedSeq with
  | stop reason =>
    rw [decodeLoop_stops nonempty outcome] at reads
    exact absurd reads (Nat.lt_irrefl 0)
  | _ =>
    have first := congrArg DecodeRecordOutcome.recordLen? outcome
    have positive := (decodeRecordAt_append first []).2.2
    have behind := DecodeState.offset_behindRecord first .initial
    rw [decodeLoop_reads nonempty first, checkpoint_decodeLoop _ _ _ (by omega), ne_eq,
      ← recordType_of_reads first, outcome]
    simp [DecodeState.behindRecord, DecodeState.initial]

theorem getElem?_of_declares (declares : activeWalDeclaresRequiredGeneration prims file = true) :
    file[5]? = some recordTypeCheckpointRef := by
  rw [activeWalDeclaresRequiredGeneration] at declares
  cases decoded : (claimFormat prims).decode file with
  | error stop =>
    rw [decoded] at declares
    cases declares
  | ok frame =>
    rw [(claimFormat prims).getElem?_of_decode decoded]
    by_cases isType : frame.recordType = recordTypeCheckpointRef
    · rw [isType]
    · simp only [decoded, ne_eq, isType, not_false_eq_true, if_true] at declares
      cases declares

/-! ## A record that is neither known nor skipped -/

/-- The log is a row of records that are read, one whole record of a type
that is not supported and may not be skipped, and any further bytes. -/
structure HoldsUnsupported (prims : ClaimWalPrimitives)
    (files : CheckpointFiles) (front record rest file : Bytes) : Prop where
  layout : file = front ++ (record ++ rest)
  front_read : (decodePrefix prims files front).lastGoodOffset = front.length
  unsupported : ∃ frame, (claimFormat prims).decode record = .ok frame ∧
      frame.recordLen = record.length ∧
      frame.recordType ≠ recordTypeCheckpointRef ∧
      ClaimWalOperation.fromRecordType frame.recordType = none ∧
      frame.flags ≠ 5

namespace HoldsUnsupported

variable {front record rest file : Bytes}

section

variable (holds : HoldsUnsupported prims files front record rest file)

include holds

theorem nonempty : record ≠ [] := by
  obtain ⟨frame, decoded, isLength, -⟩ := holds.unsupported
  have positive := ((claimFormat prims).decode_append decoded []).2.2
  rw [isLength] at positive
  exact List.length_pos_iff.mp positive

theorem stops (offset expectedSeq : Nat) : ∃ reason, isRepairableStopReason reason = true ∧
      decodeRecordAt prims files (record ++ rest) offset expectedSeq = .stop reason := by
  obtain ⟨frame, decoded, -, notCheckpoint, unknown, notSkipped⟩ := holds.unsupported
  have longer := ((claimFormat prims).decode_append decoded rest).1
  rw [decodeRecordAt, longer]
  simp only [if_neg notCheckpoint, unknown, if_neg notSkipped]
  split
  · exact ⟨.sequenceGap, rfl, rfl⟩
  · exact ⟨.unsupportedRecordType, rfl, rfl⟩

theorem decodePrefix_file :
    (decodePrefix prims files file).lastGoodOffset = front.length ∧ isRepairableStopReason
      (decodePrefix prims files file).stopReason = true := by
  have front_read := holds.front_read
  simp only [decodePrefix] at front_read ⊢
  have whole : (decodeLoop prims files front.length front .initial).1.offset =
        DecodeState.initial.offset + front.length := by
    rw [front_read]
    exact (Nat.zero_add _).symm
  obtain ⟨left, enough, behind⟩ := decodeLoop_append (record ++ rest) _ _ _ whole file.length
      (by rw [holds.layout])
  have tail : record ++ rest ≠ [] := by simp [holds.nonempty]
  obtain ⟨left, rfl⟩ : ∃ less, left = less + 1 := Nat.exists_eq_succ_of_ne_zero
      (lt_of_lt_of_le (List.length_pos_iff.mpr tail) enough).ne'
  obtain ⟨reason, repairable, stops⟩ := holds.stops
      (decodeLoop prims files front.length front .initial).1.offset
      (decodeLoop prims files front.length front .initial).1.expectedSeq
  rw [decodeLoop_stops tail stops] at behind
  rw [← holds.layout] at behind
  rw [behind]
  exact ⟨front_read, repairable⟩

/-- The log has a checkpoint exactly when its first record is one. -/
theorem checkpoint_file : (decodePrefix prims files file).checkpoint.isNone = true ↔
      file[5]? ≠ some recordTypeCheckpointRef := by
  obtain ⟨lastGood, -⟩ := holds.decodePrefix_file
  by_cases empty : front = []
  · have isFile : file = record ++ rest := by
      rw [holds.layout, empty, nil_append]
    obtain ⟨frame, decoded, -, notCheckpoint, -⟩ := holds.unsupported
    have longer := ((claimFormat prims).decode_append decoded rest).1
    have tail : file ≠ [] := by simp [isFile, holds.nonempty]
    obtain ⟨fuel, isLength⟩ : ∃ fuel, file.length = fuel + 1 :=
      Nat.exists_eq_succ_of_ne_zero (List.length_pos_iff.mpr tail).ne'
    obtain ⟨reason, -, stops⟩ := holds.stops 0 1
    rw [← isFile] at longer stops
    have notType : file[5]? ≠ some recordTypeCheckpointRef := by
      rw [(claimFormat prims).getElem?_of_decode longer]
      simpa using notCheckpoint
    have atStart : decodeLoop prims files (fuel + 1) file .initial = (.initial, reason) :=
      decodeLoop_stops tail stops fuel
    rw [decodePrefix, isLength, atStart]
    exact iff_of_true rfl notType
  · apply checkpoint_decodePrefix
    rw [lastGood]
    exact List.length_pos_iff.mpr empty

/-- Checkpoint files beside a log that does not begin with a checkpoint keep
the writer from it. -/
theorem recover_refused
    (residue : files.residue = true) (notCheckpoint : file[5]? ≠ some recordTypeCheckpointRef) :
    ∃ recovery, recoverClaimWalFile prims files file true = (file, recovery) ∧
      recoveredAppendable recovery = false := by
  have noCheckpoint := holds.checkpoint_file.mpr notCheckpoint
  have notDeclared : activeWalDeclaresRequiredGeneration prims file = false :=
    Bool.eq_false_iff.mpr fun declares =>
      notCheckpoint (getElem?_of_declares declares)
  have reads : readClaimWal prims files file = rejectUnselectedCheckpointResidue
          (decodePrefix prims files file) := by
    simp [readClaimWal, noCheckpoint, notDeclared, residue]
  refine ⟨readClaimWal prims files file, ?_, ?_⟩
  · simp [recoverClaimWalFile, reads, rejectUnselectedCheckpointResidue, isRepairableStopReason]
  · simp [reads, rejectUnselectedCheckpointResidue, recoveredAppendable]

/-- Otherwise the record and what follows it is cut off, and the writer goes
on. -/
theorem recover_cuts
    (selected : ¬ (files.residue = true ∧ file[5]? ≠ some recordTypeCheckpointRef)) :
    ∃ recovery, recoverClaimWalFile prims files file true = (front, recovery) ∧
      recoveredAppendable recovery = true := by
  obtain ⟨lastGood, repairable⟩ := holds.decodePrefix_file
  have reads : readClaimWal prims files file = decodePrefix prims files file := by
    rw [readClaimWal]
    apply if_neg
    intro rejected
    simp only [Bool.and_eq_true] at rejected
    exact selected ⟨rejected.2, holds.checkpoint_file.mp rejected.1.1⟩
  have shorter : front.length < file.length := by
    have positive := List.length_pos_iff.mpr holds.nonempty
    rw [holds.layout, length_append, length_append]
    omega
  have isFront : file.take front.length = front := by
    rw [holds.layout, take_left]
  refine ⟨{ decodePrefix prims files file with repaired := true }, ?_, ?_⟩
  · have isLength : (decodePrefix prims files file).originalLen = file.length := rfl
    simp only [recoverClaimWalFile, reads, lastGood, repairable, isLength,
      shorter, isFront, decide_true, Bool.and_self, if_true]
  · simp [recoveredAppendable]

theorem front_ne : front ≠ file := by
  intro same
  have lengths := congrArg List.length (same.trans holds.layout)
  have positive := List.length_pos_iff.mpr holds.nonempty
  rw [length_append, length_append] at lengths
  omega

theorem append_ne (seq : Nat) (operation : ClaimWalOperation) (payload : Bytes) :
    front ++ (claimFormat prims).encode seq operation.recordType payload ≠ file := by
  intro same
  rw [holds.layout] at same
  have tails := append_cancel_left same
  obtain ⟨frame, decoded, -, -, unknown, -⟩ := holds.unsupported
  have longer := ((claimFormat prims).decode_append decoded rest).1
  have isType := (claimFormat prims).getElem?_of_decode longer
  rw [← tails, Format.getElem?_encode, Option.some_inj] at isType
  rw [← isType, fromRecordType_recordType] at unknown
  cases unknown

end

end HoldsUnsupported

/-- The append is refused and the log is left as it was. -/
def AppendStep.FailsClosed (file : Bytes) (step : AppendStep) : Prop :=
  (∃ error, step.report = .failed error) ∧ step.state.file = file

/-- The rotation is refused and the log is left as it was. -/
def RotationFailsClosed (file : Bytes) (outcome :
      WalState × Except ClaimWalRotationError ClaimWalRotationResult) : Prop :=
  (∃ error, outcome.2 = .error error) ∧ outcome.1.file = file

variable (prims) in
theorem rotateClaimWalUnderLock_file
    (state : WalState) (recovery : ClaimWalRecovery) (createdAt : String)
    (generation : PublishedGeneration) (notRotated : ∀ stamp,
        (rotateClaimWalUnderLock prims state recovery createdAt
          generation none).2 ≠ .rotated stamp) :
    (rotateClaimWalUnderLock prims state recovery createdAt
      generation none).1.file = state.file := by
  revert notRotated
  rw [rotateClaimWalUnderLock]
  split
  · exact fun _ => rfl
  split
  · exact fun _ => rfl
  simp only [replaceActiveWalWithCheckpoint]
  split
  · exact fun _ => rfl
  · generalize (readClaimWal prims _ _).stopReason = stopReason
    by_cases verified : stopReason = .cleanEof
    · simp [replaceActiveWal, verified]
    · simp [replaceActiveWal, verified]

/-- An append that is acknowledged, or writes another log, has not failed
closed. -/
theorem maybeRotateAfterAppend_open (changed : state.file ≠ file) (recovery : ClaimWalRecovery)
    (returns : attempt.ending = .returns) (record : ClaimWalRecord) :
    ¬ (maybeRotateAfterAppend prims state recovery attempt record).FailsClosed file := by
  intro closed
  obtain ⟨⟨error, failed⟩, unchanged⟩ := closed
  rw [maybeRotateAfterAppend] at failed unchanged
  simp only [returns, if_true] at failed unchanged
  cases reason : rotationReason (saturatingAdd recovery.lastGoodOffset record.recordLen)
      (saturatingAdd recovery.validRecordCount 1) attempt.recoveryElapsedMs .default with
  | none =>
    simp only [reason] at failed
    cases failed
  | some due =>
    simp only [reason] at failed unchanged
    have rotation := rotateClaimWalUnderLock_file prims state
        (recoverClaimWalFile prims state.files state.file false).2
        attempt.recordedAt attempt.generation
    rw [← rotateClaimWal] at rotation
    simp only [AppendEnding.rotationLoss] at failed unchanged
    generalize rotateClaimWal prims state attempt.recordedAt attempt.generation none =
      rotated at failed unchanged rotation
    obtain ⟨after, outcome⟩ := rotated
    cases outcome with
    | rotated stamp => cases failed
    | refused | abandoned | lost =>
      exact changed ((rotation (by simp)).symm.trans unchanged)

theorem append_fails_closed_iff
    (holds : HoldsUnsupported prims state.files front record rest state.file)
    (returns : attempt.ending = .returns) :
    (appendClaimWalRecord prims state attempt).FailsClosed state.file ↔ state.files.residue = true ∧
      state.file[5]? ≠ some recordTypeCheckpointRef := by
  have begins : attempt.ending ≠ .beforeRepair := by simp [returns]
  rw [appendClaimWalRecord, if_neg begins]
  by_cases selected : state.files.residue = true ∧ state.file[5]? ≠ some recordTypeCheckpointRef
  · obtain ⟨recovery, recovered, refused⟩ := holds.recover_refused selected.1 selected.2
    rw [recovered]
    simp only [refused, Bool.not_false, if_true]
    exact iff_of_true ⟨⟨_, rfl⟩, rfl⟩ selected
  · obtain ⟨recovery, recovered, appendable⟩ := holds.recover_cuts selected
    rw [recovered]
    simp only [appendable, Bool.not_true, Bool.false_eq_true, if_false]
    refine iff_of_false ?_ selected
    cases checkedSucc recovery.lastObservedSeq with
    | none => exact fun closed => holds.front_ne closed.2
    | some seq =>
      simp only
      cases lifecyclePayloadBytes prims attempt.payload with
      | error error => exact fun closed => holds.front_ne closed.2
      | ok payloadBytes =>
        have changed := holds.append_ne seq attempt.operation payloadBytes
        simp only [writeRecord, returns]
        split
        · exact maybeRotateAfterAppend_open changed recovery returns _
        · exact maybeRotateAfterAppend_open changed recovery returns _

theorem rotation_fails_closed_iff
    (holds : HoldsUnsupported prims state.files front record rest state.file)
    (createdAt : String) (options : ClaimWalRotationOptions)
    (recoveryElapsedMs : Nat) (generation : PublishedGeneration) :
    RotationFailsClosed state.file (rotateClaimWalIfNeeded prims state createdAt options
      recoveryElapsedMs generation) ↔ state.files.residue = true ∧
      state.file[5]? ≠ some recordTypeCheckpointRef := by
  rw [rotateClaimWalIfNeeded]
  by_cases selected : state.files.residue = true ∧ state.file[5]? ≠ some recordTypeCheckpointRef
  · obtain ⟨recovery, recovered, refused⟩ := holds.recover_refused selected.1 selected.2
    rw [recovered]
    simp only [refused, Bool.not_false, if_true]
    exact iff_of_true ⟨⟨_, rfl⟩, rfl⟩ selected
  · obtain ⟨recovery, recovered, appendable⟩ := holds.recover_cuts selected
    rw [recovered]
    simp only [appendable, Bool.not_true, Bool.false_eq_true, if_false]
    refine iff_of_false ?_ selected
    rintro ⟨⟨error, failed⟩, unchanged⟩
    cases reason : rotationReason recovery.originalLen
        recovery.validRecordCount recoveryElapsedMs options with
    | none =>
      simp only [reason] at failed
      cases failed
    | some due =>
      simp only [reason] at failed unchanged
      have rotation := rotateClaimWalUnderLock_file prims
          { state with file := front } recovery createdAt generation
      generalize rotateClaimWalUnderLock prims
        { state with file := front } recovery createdAt generation none =
          rotated at failed unchanged rotation
      obtain ⟨after, outcome⟩ := rotated
      cases outcome with
      | rotated stamp => cases failed
      | refused | abandoned | lost =>
        exact holds.front_ne ((rotation (by simp)).symm.trans unchanged)

/-- A writer fails closed on a record that is not supported only when
checkpoint files lie beside a log that does not begin with a checkpoint. -/
theorem unsupported_record_fails_closed_iff
    (prims : ClaimWalPrimitives)
    (state : WalState)
    (front record rest : Bytes)
    (holds : HoldsUnsupported prims state.files front record rest state.file) :
    (∀ attempt : AppendAttempt,
      attempt.ending = .returns →
      ((appendClaimWalRecord prims state attempt).FailsClosed state.file ↔
        state.files.residue = true ∧ state.file[5]? ≠ some recordTypeCheckpointRef)) ∧
    ∀ (createdAt : String) (options : ClaimWalRotationOptions)
      (recoveryElapsedMs : Nat) (generation : PublishedGeneration),
      RotationFailsClosed state.file
        (rotateClaimWalIfNeeded prims state createdAt options recoveryElapsedMs generation) ↔
        state.files.residue = true ∧ state.file[5]? ≠ some recordTypeCheckpointRef := by
  refine ⟨?_, ?_⟩
  · intro attempt returns
    exact append_fails_closed_iff holds returns
  · intro createdAt options recoveryElapsedMs generation
    exact rotation_fails_closed_iff holds createdAt options recoveryElapsedMs generation

end Unsupported

namespace Sample

/-- A log of one record, whose type 6 is reserved and whose payload is
empty. -/
def reservedLog (primitives : ClaimWalPrimitives) (files : CheckpointFiles) : WalState :=
  ⟨(claimFormat primitives).encode 1 6 [], files, false⟩

theorem reservedLog_holds
    (primitives : ClaimWalPrimitives) (files : CheckpointFiles) :
    HoldsUnsupported primitives (reservedLog primitives files).files []
      (reservedLog primitives files).file []
      (reservedLog primitives files).file where
  layout := by simp
  front_read := rfl
  unsupported := by
    have fits : ([] : Bytes).length ≤ (claimFormat primitives).maxPayloadLen := Nat.zero_le _
    have decoded := (claimFormat primitives).decode_encode_append 6 []
        (show 1 < 256 ^ 8 by decide) fits
    rw [append_nil] at decoded
    have notCheckpoint : (6 : UInt8) ≠ recordTypeCheckpointRef := by decide
    have notSkipped : (claimFormat primitives).flags ≠ 5 := show 4 ≠ 5 by decide
    exact ⟨_, decoded, rfl, notCheckpoint, rfl, notSkipped⟩

end Sample

/-- The log holds one reserved record; an append and a rotation both cut it
off. -/
theorem unsupported_record_is_cut_off :
    let state := Sample.reservedLog Sample.primitives .pristine
    HoldsUnsupported Sample.primitives state.files [] state.file []
        state.file ∧
      ¬ (appendClaimWalRecord Sample.primitives state
          (Sample.attempt .returns)).FailsClosed state.file ∧
      ¬ RotationFailsClosed state.file
          (rotateClaimWalIfNeeded Sample.primitives state "" .default 0
            (Sample.attempt .returns).generation) := by
  intro state
  have holds := Sample.reservedLog_holds Sample.primitives .pristine
  have clean : ¬ (state.files.residue = true ∧ state.file[5]? ≠ some recordTypeCheckpointRef) :=
    fun selected => Bool.false_ne_true selected.1
  refine ⟨holds, ?_, ?_⟩
  · intro closed
    exact clean ((append_fails_closed_iff holds rfl).mp closed)
  · intro closed
    exact clean ((rotation_fails_closed_iff holds _ _ _ _).mp closed)

/-- With checkpoint files beside the same log, an append is refused. -/
theorem unsupported_record_fails_closed_residue :
    let state := Sample.reservedLog Sample.primitives
        ⟨true, CheckpointFiles.pristine.witness⟩
    (appendClaimWalRecord Sample.primitives state
      (Sample.attempt .returns)).FailsClosed state.file := by
  intro state
  have isType : state.file[5]? = some 6 := Format.getElem?_encode _ _ _ _
  have closed := unsupported_record_fails_closed_iff Sample.primitives state [] _ []
      (Sample.reservedLog_holds _ _)
  refine (closed.1 (Sample.attempt .returns) rfl).mpr ⟨rfl, ?_⟩
  rw [isType]
  decide

end ForgeCore.ClaimWal
