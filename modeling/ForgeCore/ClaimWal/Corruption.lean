import ForgeCore.ClaimWal.CrashSafety

/-!
# Corrupted logs

A single flipped bit in a whole log is found by recovery, which refuses to
derive a state from what it cannot read.
-/

namespace ForgeCore.ClaimWal

open List ForgeCore.Frame Machine

inductive DeriveStateError where
  | recoveryStopped (stopReason : ClaimWalStopReason)
      (lastGoodOffset originalLen : Nat)
  | repairDidNotRecover (stopReason : ClaimWalStopReason)
deriving DecidableEq, Repr

section Derive

variable (prims : ClaimWalPrimitives) (files : CheckpointFiles)

/-- The state that the log stands for, and the file as it is left.  A cut tail
is repaired once; any other stop is an error. -/
def deriveState (file : Bytes) : Bytes × Except DeriveStateError ClaimWalProjection :=
  let (_, first) := recoverClaimWalFile prims files file false
  match first.stopReason with
  | .cleanEof => (file, .ok (projectClaimWalRecovery first))
  | .truncatedHeader | .truncatedPayload =>
    let (repairedFile, _) := recoverClaimWalFile prims files file true
    let (_, again) := recoverClaimWalFile prims files repairedFile false
    if again.stopReason = .cleanEof then
      (repairedFile, .ok (projectClaimWalRecovery again))
    else
      (repairedFile, .error (.repairDidNotRecover again.stopReason))
  | other => (file, .error (.recoveryStopped other first.lastGoodOffset first.originalLen))

variable {prims files}

theorem recoverClaimWalFile_of_not_repair (file : Bytes) :
    recoverClaimWalFile prims files file false = (file, readClaimWal prims files file) := by
  rw [recoverClaimWalFile]
  simp

theorem deriveState_of_not_cut
    {file : Bytes} (stopped : (decodePrefix prims files file).stopReason.isCut = false) :
    ∃ error, deriveState prims files file = (file, .error error) := by
  have notCut : (readClaimWal prims files file).stopReason.isCut = false := by
    simp only [readClaimWal]
    split
    next => rfl
    next => exact stopped
  rw [deriveState, recoverClaimWalFile_of_not_repair]
  simp only
  cases reason : (readClaimWal prims files file).stopReason with
  | cleanEof | truncatedHeader =>
    rw [reason] at notCut
    cases notCut
  | truncatedPayload =>
    rw [reason] at notCut
    cases notCut
  | _ => exact ⟨_, rfl⟩

end Derive

section Flip

variable {prims : ClaimWalPrimitives} {files : CheckpointFiles}

theorem take_logRecords (count offset seq : Nat) (payloads : List ClaimWalPayload) :
    (logRecords prims offset seq payloads).take count =
      logRecords prims offset seq (payloads.take count) := by
  induction payloads generalizing count offset seq with
  | nil => simp [logRecords]
  | cons payload rest ih =>
    cases count with
    | zero => rfl
    | succ count =>
      rw [logRecords, take_succ_cons, take_succ_cons, logRecords, ih]

theorem getElem?_logRecords (index offset seq : Nat) (payloads : List ClaimWalPayload) :
    (logRecords prims offset seq payloads)[index]? = payloads[index]?.map (recordOf prims
      (offset + (encodeLog prims seq (payloads.take index)).length) (seq + index)) := by
  induction payloads generalizing index offset seq with
  | nil => simp [logRecords]
  | cons payload rest ih =>
    cases index with
    | zero => simp [logRecords, encodeLog]
    | succ index =>
      rw [logRecords, getElem?_cons_succ, ih, getElem?_cons_succ,
        take_succ_cons, encodeLog, length_append,
        Nat.add_assoc offset, Nat.add_assoc seq, Nat.add_comm 1 index]

theorem decodeLoop_flipped (tells : TellsBits prims.crc32c) {seq : Nat} (recordType : UInt8)
    {payload : Bytes} (rest : Bytes) (seqFits : seq ≤ u64Max)
    (lenFits : payload.length ≤ defaultMaxPayloadLen) {index bit : Nat} (inside :
      index < ((claimFormat prims).encode seq recordType payload).length) (isBit : bit < 8) :
    ∃ reason : ClaimWalStopReason, reason.isCut = false ∧ ∀ fuel,
      (flipBit ((claimFormat prims).encode seq recordType payload)
      index bit ++ rest).length ≤ fuel → ∀ state : DecodeState, decodeLoop prims files fuel
      (flipBit ((claimFormat prims).encode seq recordType
      payload) index bit ++ rest) state = (state, reason) := by
  obtain ⟨stop, stopped, notHeader, notPayload⟩ :=
    (claimFormat prims).decode_flipBit_encode tells recordType rest
      (lt_of_le_u64Max seqFits) lenFits inside isBit
  refine ⟨.ofFrame stop, ?_, ?_⟩
  · cases stop with
    | truncatedHeader => exact absurd rfl notHeader
    | truncatedPayload => exact absurd rfl notPayload
    | invalidHeader => rfl
    | payloadTooLarge => rfl
    | payloadChecksumMismatch => rfl
  · intro fuel enough state
    generalize bytesEq : flipBit ((claimFormat prims).encode seq recordType payload) index
        bit ++ rest = bytes at stopped enough ⊢
    have positive : 0 < bytes.length := by
      rw [← bytesEq, length_append, length_flipBit]
      omega
    cases bytes with
    | nil => cases positive
    | cons byte others =>
      cases fuel with
      | zero => cases enough
      | succ fuel => rw [decodeLoop, decodeRecordAt, stopped]

/-- What a reader of a damaged log sees: the records before the damage, a stop
that is not a cut, and no claim state. -/
structure RefusesAfter (prims : ClaimWalPrimitives)
    (files : CheckpointFiles) (file : Bytes) (records : List ClaimWalRecord)
    (checkpoint : Option ClaimWalCheckpointRecord) : Prop where
  records_eq : (decodePrefix prims files file).records = records
  checkpoint_eq : (decodePrefix prims files file).checkpoint = checkpoint
  not_cut : (decodePrefix prims files file).stopReason.isCut = false
  derive : ∃ error, deriveState prims files file = (file, .error error)

theorem RefusesAfter.of_flipped (lawful : prims.Lawful) (tells : TellsBits prims.crc32c)
    {image : LogImage} (sound : image.Sound prims files) {seq : Nat}
    (recordType : UInt8) {payload : Bytes} (rest : Bytes) (seqFits : seq ≤ u64Max)
    (lenFits : payload.length ≤ defaultMaxPayloadLen) {index bit : Nat} (inside :
      index < ((claimFormat prims).encode seq recordType payload).length) (isBit : bit < 8) :
    RefusesAfter prims files (image.bytes prims ++
      (flipBit ((claimFormat prims).encode seq recordType payload) index bit ++ rest))
      (image.records prims) image.checkpoint := by
  obtain ⟨reason, notCut, stops⟩ :=
    @decodeLoop_flipped prims files tells seq recordType payload rest
      seqFits lenFits index bit inside isBit
  have decoded := decodePrefix_of_stop lawful sound fun fuel enough state _ =>
      stops fuel enough state
  refine ⟨by rw [decoded], by rw [decoded], by rw [decoded]; exact notCut, ?_⟩
  apply deriveState_of_not_cut
  rw [decoded]
  exact notCut

def LogImage.before (image : LogImage) (number : Nat) : LogImage :=
  { image with payloads := image.payloads.take number }

theorem LogImage.Sound.before
    {image : LogImage} (sound : image.Sound prims files)
    (number : Nat) : (image.before number).Sound prims files where
  opens := sound.opens
  sizes := fun payload member => sound.sizes payload (mem_of_mem_take member)
  numbers := by
    have bound := sound.numbers
    simp only [LogImage.lastSeq, LogImage.base, LogImage.before, length_take] at bound ⊢
    omega

theorem LogImage.records_before (image : LogImage) (number : Nat) :
    (image.before number).records prims = (image.records prims).take number := by
  rw [LogImage.records, LogImage.records, take_logRecords]
  rfl

theorem LogImage.bytes_split (image : LogImage) {number : Nat} {payload : ClaimWalPayload}
    (found : image.payloads[number]? = some payload) :
    image.bytes prims = (image.before number).bytes prims ++
      (frameOf prims (image.base + 1 + number) payload ++
      encodeLog prims (image.base + 1 + number + 1) (image.payloads.drop (number + 1))) := by
  obtain ⟨inside, isPayload⟩ := List.getElem?_eq_some_iff.mp found
  have split : image.payloads = image.payloads.take number ++
          payload :: image.payloads.drop (number + 1) := by
    rw [← isPayload, cons_getElem_drop_succ, take_append_drop]
  have lengths : (image.payloads.take number).length = number := length_take_of_le inside.le
  have encoded := encodeLog_append prims (image.base + 1) (image.payloads.take number)
      (payload :: image.payloads.drop (number + 1))
  rw [← split, lengths, encodeLog] at encoded
  rw [LogImage.bytes, LogImage.bytes, encoded, append_assoc]
  rfl

/-- A bit flipped inside a record is never taken for a cut: the reader returns
the records before it, and the claim state is refused with the file as it
was. -/
theorem flipped_bit_is_refused
    (prims : ClaimWalPrimitives)
    (lawful : prims.Lawful)
    (tells : TellsBits prims.crc32c)
    (files : CheckpointFiles)
    (image : LogImage)
    (sound : image.Sound prims files)
    (index bit : Nat)
    (isBit : bit < 8) :
    (∀ (number : Nat) (record : ClaimWalRecord),
      (image.records prims)[number]? = some record →
      record.offset ≤ index →
      index < record.offset + record.recordLen →
      RefusesAfter prims files (flipBit (image.bytes prims) index bit)
        ((image.records prims).take number) image.checkpoint) ∧
    (index < (image.front prims).length →
      RefusesAfter prims files (flipBit (image.bytes prims) index bit) [] none) := by
  constructor
  · intro number record found behind inside
    rw [LogImage.records, getElem?_logRecords, Option.map_eq_some_iff] at found
    obtain ⟨payload, isPayload, rfl⟩ := found
    have member := List.mem_of_getElem? isPayload
    have number_lt := (List.getElem?_eq_some_iff.mp isPayload).1
    have numbers := sound.numbers
    simp only [LogImage.lastSeq] at numbers
    have start : (image.front prims).length + (encodeLog prims (image.base + 1)
              (image.payloads.take number)).length =
          ((image.before number).bytes prims).length := by
      rw [LogImage.bytes, length_append]
      rfl
    simp only [recordOf, start] at behind inside
    have inFrame : index - ((image.before number).bytes prims).length <
          (frameOf prims (image.base + 1 + number) payload).length := by
      omega
    rw [image.bytes_split isPayload, flipBit_append_right behind,
      flipBit_append_left inFrame, ← image.records_before number]
    exact RefusesAfter.of_flipped lawful tells (sound.before number) _ _
        (by omega) (sound.sizes payload member) inFrame isBit
  · intro inFront
    cases checkpoint : image.checkpoint with
    | none => simp [LogImage.front, checkpoint] at inFront
    | some record =>
      have opens := sound.opens record checkpoint
      obtain ⟨below, follows⟩ := checkedSucc_eq_some.mp opens.follows
      have isFront : image.front prims = (claimFormat prims).encode record.seq
              recordTypeCheckpointRef (prims.checkpointToJson record.payload) := by
        rw [LogImage.front, checkpoint]
        rfl
      have empty : (LogImage.mk none []).Sound prims files := ⟨by simp, by simp, Nat.zero_le _⟩
      rw [LogImage.bytes, flipBit_append_left inFront, isFront]
      rw [isFront] at inFront
      exact RefusesAfter.of_flipped lawful tells empty _ _
          (show record.seq ≤ u64Max by omega) opens.size inFront isBit

end Flip

/-- The second of two records begins where the first one ends. -/
theorem second_record (prims : ClaimWalPrimitives) (payload : ClaimWalPayload) :
    ∃ record : ClaimWalRecord,
      ((LogImage.mk none [payload, payload]).records prims)[1]? = some record ∧
      record.offset ≤ (frameOf prims 1 payload).length ∧
      (frameOf prims 1 payload).length < record.offset + record.recordLen ∧
      ((LogImage.mk none [payload, payload]).records prims).take 1 =
        [recordOf prims 0 1 payload] := by
  refine ⟨recordOf prims (0 + (frameOf prims 1 payload).length) 2 payload, rfl, ?_, ?_, rfl⟩
  · exact (Nat.zero_add _).le
  · have positive := length_frameOf_pos prims 2 payload
    simp only [recordOf]
    omega

/-- Two acquired claims, with the lowest bit of the second magic number
flipped: the first record is still read. -/
theorem flipped_bit_is_refused_second :
    RefusesAfter Sample.primitives .pristine
      (flipBit ((LogImage.mk none [Sample.payload, Sample.payload]).bytes Sample.primitives)
        (frameOf Sample.primitives 1 Sample.payload).length 0)
      [recordOf Sample.primitives 0 1 Sample.payload] none := by
  have sound : (LogImage.mk none [Sample.payload, Sample.payload]).Sound Sample.primitives
      .pristine :=
    ⟨by simp, by simpa using Sample.size, by decide⟩
  have refused := flipped_bit_is_refused Sample.primitives Sample.primitives_lawful
    crc32c_tells .pristine _ sound (frameOf Sample.primitives 1 Sample.payload).length 0
    (by decide)
  obtain ⟨record, found, behind, inside, before⟩ := second_record Sample.primitives Sample.payload
  rw [← before]
  exact refused.1 1 record found behind inside

end ForgeCore.ClaimWal
