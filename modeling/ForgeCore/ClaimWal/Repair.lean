import ForgeCore.ClaimWal.Unsupported

/-!
# Repair of a cut log

What recovery keeps of a log decodes again and can be appended to.
-/

namespace ForgeCore.ClaimWal

open List ForgeCore.Frame Machine

section Repair

variable {prims : ClaimWalPrimitives} {files : CheckpointFiles}

/-- A record is read the same way when the bytes are cut anywhere behind
it. -/
theorem decodeRecordAt_take {remaining : Bytes} {offset expectedSeq recordLen count : Nat} (reads :
      (decodeRecordAt prims files remaining offset expectedSeq).recordLen? = some recordLen)
    (behind : recordLen ≤ count) :
    decodeRecordAt prims files (remaining.take count) offset expectedSeq =
      decodeRecordAt prims files remaining offset expectedSeq := by
  obtain ⟨frame, decoded, rfl⟩ := decode_of_recordLen? reads
  have alone := (claimFormat prims).decode_take decoded
  obtain ⟨cut, -⟩ := (claimFormat prims).decode_append alone
    ((remaining.take count).drop frame.recordLen)
  have bytes : remaining.take frame.recordLen ++
      (remaining.take count).drop frame.recordLen = remaining.take count := by
    conv_rhs => rw [← take_append_drop frame.recordLen (remaining.take count)]
    rw [take_take, Nat.min_eq_left behind]
  rw [bytes] at cut
  rw [decodeRecordAt, decodeRecordAt, decoded, cut]

/-- The loop ends inside its bytes, and reads what it has read again when the
bytes are cut there. -/
theorem decodeLoop_cut (steps : Nat) :
    ∀ (remaining : Bytes) (state : DecodeState), ∃ consumed, consumed ≤ remaining.length ∧
      (decodeLoop prims files steps remaining state).1.offset = state.offset + consumed ∧
      ∀ fuel, consumed ≤ fuel → decodeLoop prims files fuel (remaining.take consumed) state =
      ((decodeLoop prims files steps remaining state).1, .cleanEof) := by
  induction steps with
  | zero =>
    intro remaining state
    refine ⟨0, Nat.zero_le _, ?_, ?_⟩
    · cases remaining <;> rfl
    · intro fuel _
      rw [take_zero, decodeLoop_nil]
      cases remaining <;> rfl
  | succ steps ih =>
    intro remaining state
    by_cases nonempty : remaining = []
    · subst nonempty
      refine ⟨0, le_refl _, by rw [decodeLoop_nil]; rfl, ?_⟩
      intro fuel _
      rw [decodeLoop_nil, take_nil, decodeLoop_nil]
    · cases outcome : decodeRecordAt prims files remaining state.offset state.expectedSeq with
      | stop reason =>
        refine ⟨0, Nat.zero_le _, ?_, ?_⟩
        · rw [decodeLoop_stops nonempty outcome]
          rfl
        · intro fuel _
          rw [take_zero, decodeLoop_nil, decodeLoop_stops nonempty outcome]
      | _ =>
        have reads : ∃ recordLen, (decodeRecordAt prims files remaining state.offset
                state.expectedSeq).recordLen? = some recordLen := by
          rw [outcome]
          exact ⟨_, rfl⟩
        obtain ⟨recordLen, reads⟩ := reads
        obtain ⟨-, bound, positive⟩ := decodeRecordAt_append reads []
        have behind := DecodeState.offset_behindRecord reads state
        obtain ⟨consumed, inside, ended, again⟩ := ih (remaining.drop recordLen) (state.behindRecord
              (decodeRecordAt prims files remaining state.offset state.expectedSeq))
        rw [length_drop] at inside
        rw [decodeLoop_reads nonempty reads]
        refine ⟨recordLen + consumed, by omega, by omega, ?_⟩
        intro fuel enough
        obtain ⟨fuel, rfl⟩ : ∃ less, fuel = less + 1 := ⟨fuel - 1, by omega⟩
        have cutReads := @decodeRecordAt_take prims files _ _ _ _
          (recordLen + consumed) reads (by omega)
        have cutNonempty : remaining.take (recordLen + consumed) ≠ [] := by
          intro empty
          have length := congrArg List.length empty
          rw [length_take, length_nil] at length
          omega
        rw [decodeLoop_reads cutNonempty (cutReads ▸ reads), cutReads,
          drop_take, Nat.add_sub_cancel_left]
        exact again fuel (by omega)

/-- The loop expects the number behind the last one that it has seen. -/
def DecodeState.Numbered (state : DecodeState) : Prop :=
  state.expectedSeq = saturatingAdd state.lastObservedSeq 1

/-- A record that is not a checkpoint carries the expected number. -/
theorem numbered_behindRecord {state : DecodeState} (numbered : state.Numbered) :
    (state.behindRecord (decodeRecordAt prims files remaining state.offset
      state.expectedSeq)).Numbered := by
  rw [decodeRecordAt]
  cases (claimFormat prims).decode remaining with
  | error stop => exact numbered
  | ok frame =>
    simp only
    by_cases isCheckpoint : frame.recordType = recordTypeCheckpointRef
    · rw [if_pos isCheckpoint, decodeCheckpointRecord]
      repeat' split
      all_goals first | exact numbered | rfl
    · rw [if_neg isCheckpoint]
      by_cases expected : frame.seq = state.expectedSeq
      · rw [if_neg (not_not.mpr expected)]
        split
        · split
          · exact congrArg (saturatingAdd · 1) expected.symm
          · exact numbered
        · rw [decodeLifecycleRecord]
          split
          · exact numbered
          split
          · exact numbered
          · exact congrArg (saturatingAdd · 1) expected.symm
      · rw [if_pos expected]
        exact numbered

theorem numbered_decodeLoop (steps : Nat) :
    ∀ (remaining : Bytes) (state : DecodeState), state.Numbered →
      (decodeLoop prims files steps remaining state).1.Numbered := by
  induction steps with
  | zero =>
    intro remaining state numbered
    cases remaining <;> exact numbered
  | succ steps ih =>
    intro remaining state numbered
    by_cases nonempty : remaining = []
    · rw [nonempty, decodeLoop_nil]
      exact numbered
    · cases reads : (decodeRecordAt prims files remaining
          state.offset state.expectedSeq).recordLen? with
      | none =>
        cases outcome : decodeRecordAt prims files remaining state.offset state.expectedSeq with
        | stop reason =>
          rw [decodeLoop_stops nonempty outcome]
          exact numbered
        | _ =>
          rw [outcome] at reads
          cases reads
      | some recordLen =>
        rw [decodeLoop_reads nonempty reads]
        exact ih _ _ (numbered_behindRecord numbered)

/-- The recovery of a log that is cut behind its last good record. -/
def ClaimWalRecovery.cut (recovery : ClaimWalRecovery) : ClaimWalRecovery :=
  { recovery with
    originalLen := recovery.lastGoodOffset
    stopReason := .cleanEof }

/-- The recovery of a cut log behind which a record was appended. -/
def ClaimWalRecovery.extended (recovery : ClaimWalRecovery)
    (record : ClaimWalRecord) : ClaimWalRecovery :=
  { recovery with
    records := recovery.records ++ [record]
    lastObservedSeq := record.seq
    validRecordCount := recovery.validRecordCount + 1
    lastGoodOffset := recovery.lastGoodOffset + record.recordLen
    originalLen := recovery.lastGoodOffset + record.recordLen
    stopReason := .cleanEof }

/-- The recovery that the loop's final state makes. -/
def DecodeState.recovery (state : DecodeState)
    (stopReason : ClaimWalStopReason) (length : Nat) : ClaimWalRecovery where
  records := state.records
  checkpoint := state.checkpoint
  lastObservedSeq := state.lastObservedSeq
  validRecordCount := state.validRecordCount
  lastGoodOffset := state.offset
  originalLen := length
  repaired := false
  stopReason := stopReason

theorem recoveryOf_decodeLoop
    (looped : decodeLoop prims files bytes.length bytes .initial = (state, reason)) :
    decodePrefix prims files bytes = state.recovery reason bytes.length := by
  rw [decodePrefix, looped]
  rfl

theorem decodePrefix_cut (bytes : Bytes) :
    (decodePrefix prims files bytes).lastGoodOffset ≤ bytes.length ∧ decodePrefix prims files
      (bytes.take (decodePrefix prims files bytes).lastGoodOffset) =
      (decodePrefix prims files bytes).cut := by
  obtain ⟨consumed, inside, ended, again⟩ := @decodeLoop_cut prims files bytes.length bytes .initial
  have offset : (decodePrefix prims files bytes).lastGoodOffset = consumed := by
    rw [decodePrefix]
    simpa [DecodeState.initial] using ended
  have length : (bytes.take consumed).length = consumed := by
    rw [length_take, Nat.min_eq_left inside]
  rw [offset]
  refine ⟨inside, ?_⟩
  rw [decodePrefix, length, again consumed (le_refl _)]
  simp only [ClaimWalRecovery.cut, decodePrefix, ended]
  simp [DecodeState.initial]

theorem decodeLoop_frameOf (lawful : prims.Lawful)
    (size : (prims.toJson payload).length ≤ defaultMaxPayloadLen)
    (numbered : state.Numbered) (bound : state.lastObservedSeq < u64Max)
    (enough : (frameOf prims (state.lastObservedSeq + 1) payload).length ≤ fuel) :
    decodeLoop prims files fuel (frameOf prims (state.lastObservedSeq + 1) payload) state =
      (state.behindRecord (.known (recordOf prims state.offset
      (state.lastObservedSeq + 1) payload)), .cleanEof) := by
  have positive := length_frameOf_pos prims (state.lastObservedSeq + 1) payload
  have nonempty : frameOf prims (state.lastObservedSeq + 1) payload ≠ [] :=
    List.length_pos_iff.mp positive
  have next : state.expectedSeq = state.lastObservedSeq + 1 := by
    rw [numbered, saturatingAdd_of_le (by omega)]
  have decoded := @decodeRecordAt_frameOf prims files lawful payload
    (state.lastObservedSeq + 1) size (by omega) state.offset []
  rw [append_nil, ← next] at decoded
  rw [← next]
  rw [← next] at nonempty enough positive
  obtain ⟨fuel, rfl⟩ : ∃ less, fuel = less + 1 := ⟨fuel - 1, by omega⟩
  have nothing : (frameOf prims state.expectedSeq payload).drop
      (recordOf prims state.offset state.expectedSeq payload).recordLen = [] :=
    drop_eq_nil_of_le (le_refl _)
  rw [decodeLoop_reads nonempty (by rw [decoded]; rfl), decoded, nothing, decodeLoop_nil]

/-- The next record is read behind a cut log. -/
theorem decodePrefix_extended (lawful : prims.Lawful) (bytes : Bytes)
    (size : (prims.toJson payload).length ≤ defaultMaxPayloadLen)
    (bound : (decodePrefix prims files bytes).lastObservedSeq < u64Max) :
    decodePrefix prims files (bytes.take (decodePrefix prims files bytes).lastGoodOffset ++
      frameOf prims ((decodePrefix prims files bytes).lastObservedSeq + 1) payload) =
      (decodePrefix prims files bytes).extended (recordOf prims
      (decodePrefix prims files bytes).lastGoodOffset
      ((decodePrefix prims files bytes).lastObservedSeq + 1) payload) := by
  obtain ⟨consumed, inside, ended, again⟩ := @decodeLoop_cut prims files bytes.length bytes .initial
  have numbered := @numbered_decodeLoop prims files bytes.length bytes .initial rfl
  cases looped : decodeLoop prims files bytes.length bytes .initial with
  | mk final reason =>
    rw [looped] at ended again numbered
    simp only [DecodeState.initial, Nat.zero_add] at ended
    have read := recoveryOf_decodeLoop looped
    rw [read] at bound ⊢
    simp only [DecodeState.recovery] at bound ⊢
    have length : (bytes.take consumed).length = consumed := by
      rw [length_take, Nat.min_eq_left inside]
    have cutLoop := again consumed (le_refl _)
    obtain ⟨left, enough, appended⟩ := @decodeLoop_append prims files
        (frameOf prims (final.lastObservedSeq + 1) payload) consumed (bytes.take consumed) .initial
        (by rw [cutLoop, length]; simpa [DecodeState.initial] using ended)
        _ (le_refl _)
    rw [cutLoop] at appended
    rw [decodeLoop_frameOf lawful size numbered bound enough] at appended
    rw [ended, recoveryOf_decodeLoop appended]
    simp only [DecodeState.recovery, DecodeState.behindRecord,
      ClaimWalRecovery.extended, length_append, length, ended]
    rfl

end Repair

/-- For any bytes the last good offset is inside the file; the log that is cut
there is read to its end with the same records, and whatever record the writer
encodes next is read behind them. -/
theorem claim_wal_repair_is_extendable
    (prims : ClaimWalPrimitives)
    (lawful : prims.Lawful)
    (files : CheckpointFiles)
    (bytes : Bytes) :
    (decodePrefix prims files bytes).lastGoodOffset ≤ bytes.length ∧
    decodePrefix prims files (bytes.take (decodePrefix prims files bytes).lastGoodOffset) =
      (decodePrefix prims files bytes).cut ∧
    ∀ (payload : ClaimWalPayload) (encoded : Bytes) (next : Nat),
      lifecyclePayloadBytes prims payload = .ok encoded →
      checkedSucc (decodePrefix prims files bytes).lastObservedSeq = some next →
      decodePrefix prims files
          (bytes.take (decodePrefix prims files bytes).lastGoodOffset ++
            (claimFormat prims).encode next payload.operation.recordType encoded) =
        (decodePrefix prims files bytes).extended
          (recordOf prims (decodePrefix prims files bytes).lastGoodOffset next payload) := by
  obtain ⟨inside, cut⟩ := @decodePrefix_cut prims files bytes
  refine ⟨inside, cut, ?_⟩
  intro payload encoded next admitted follows
  obtain ⟨bound, rfl⟩ := checkedSucc_eq_some.mp follows
  rw [lifecyclePayloadBytes] at admitted
  split at admitted
  · cases admitted
  · next small =>
    cases admitted
    exact decodePrefix_extended lawful bytes (not_lt.mp small) bound

/-- Two stray bytes behind a whole record are cut off, and a second record is
read behind the first. -/
theorem claim_wal_repair_is_extendable_stray :
    (decodePrefix Sample.primitives .pristine
        ((LogImage.mk none [Sample.payload]).bytes Sample.primitives ++ [1, 2])).records =
      (LogImage.mk none [Sample.payload]).records Sample.primitives ∧
    decodePrefix Sample.primitives .pristine
        ((LogImage.mk none [Sample.payload]).bytes Sample.primitives ++
          (claimFormat Sample.primitives).encode 2 Sample.payload.operation.recordType
            (Sample.primitives.toJson Sample.payload)) =
      (decodePrefix Sample.primitives .pristine
        ((LogImage.mk none [Sample.payload]).bytes Sample.primitives ++ [1, 2])).extended
        (recordOf Sample.primitives
          ((LogImage.mk none [Sample.payload]).bytes Sample.primitives).length 2
          Sample.payload) := by
  have sound : (LogImage.mk none [Sample.payload]).Sound Sample.primitives .pristine :=
    ⟨by simp, by simpa using Sample.size, by decide⟩
  have decoded := @decodePrefix_of_stop _ _ .truncatedHeader Sample.primitives_lawful _ sound
    [1, 2] (by
      intro fuel enough state _
      cases fuel with
      | zero => cases enough
      | succ fuel => rfl)
  have admitted : lifecyclePayloadBytes Sample.primitives Sample.payload =
      .ok (Sample.primitives.toJson Sample.payload) := if_neg (not_lt.mpr Sample.size)
  obtain ⟨-, -, extendable⟩ := claim_wal_repair_is_extendable Sample.primitives
    Sample.primitives_lawful .pristine
    ((LogImage.mk none [Sample.payload]).bytes Sample.primitives ++ [1, 2])
  have appended := extendable Sample.payload _ 2 admitted (by rw [decoded]; rfl)
  have offset := congrArg ClaimWalRecovery.lastGoodOffset decoded
  rw [offset, take_left] at appended
  exact ⟨congrArg ClaimWalRecovery.records decoded, appended⟩

end ForgeCore.ClaimWal
