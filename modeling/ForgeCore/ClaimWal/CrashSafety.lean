import ForgeCore.ClaimWal.Image
import ForgeCore.Library.Codec

/-!
# Crash safety of the claim log

Behind every reachable file stands an image: the checkpoint of the last
rotation and the payloads that were written to their last byte since.  Each
append, however it ends, moves from one image to the next, and recovery reads
the image off the file.
-/

namespace ForgeCore.ClaimWal

open List Claims ForgeCore.Frame Machine

section States

variable (prims : ClaimWalPrimitives)

def LogImage.log (image : LogImage) : ClaimLog :=
  ⟨image.checkpoint.map (·.snapshot), image.records prims⟩

/-- The file is the image, up to a torn tail. -/
structure Represents (state : WalState) (image : LogImage) : Prop where
  sound : image.Sound prims state.files
  bytes : ∃ tail, Torn prims tail ∧ state.file = image.bytes prims ++ tail
  residue : state.files.residue = image.checkpoint.isSome
  linked : state.linked = true → state.files.residue = true

/-- Recovery reads nothing from the log, does not change it and allows no
append. -/
def Blocked (state : WalState) : Prop :=
  ∀ repair, ∃ recovery : ClaimWalRecovery,
    recoverClaimWalFile prims state.files state.file repair = (state.file, recovery) ∧
      recovery.log = ClaimLog.empty ∧ recoveredAppendable recovery = false

/-- What recovery reports about an image. -/
structure Recovers (recovery : ClaimWalRecovery) (image : LogImage) : Prop where
  records : recovery.records = image.records prims
  checkpoint : recovery.checkpoint = image.checkpoint
  lastObservedSeq : recovery.lastObservedSeq = image.lastSeq
  isCut : recovery.stopReason.isCut = true

theorem represents_pristine :
    Represents prims .pristine ⟨none, []⟩ where
  sound := LogImage.sound_empty
  bytes := ⟨[], Or.inl rfl, rfl⟩
  residue := rfl
  linked := by simp [WalState.pristine]

end States

variable {image : LogImage} {state : WalState} {seq : Nat} {record : ClaimWalRecord}

section Recovery

variable {prims : ClaimWalPrimitives}

theorem Recovers.log (recovers : Recovers prims recovery image) :
    recovery.log = image.log prims := by
  rw [ClaimWalRecovery.log, recovers.records, recovers.checkpoint]
  rfl

theorem isRepairable_of_isCut (isCut : reason.isCut = true) (notClean : reason ≠ .cleanEof) :
    isRepairableStopReason reason = true := by
  cases reason <;> first | rfl | exact absurd rfl notClean | cases isCut

theorem readClaimWal_represents (represents : Represents prims state image) (checkpoint :
      (decodePrefix prims state.files state.file).checkpoint = image.checkpoint) :
    readClaimWal prims state.files state.file = decodePrefix prims state.files state.file := by
  rw [readClaimWal, checkpoint]
  cases isCheckpoint : image.checkpoint with
  | none => simp [represents.residue, isCheckpoint]
  | some record => simp

theorem recoverClaimWalFile_represents
    (lawful : prims.Lawful)
    (represents : Represents prims state image) (repair : Bool) :
    let recovered := recoverClaimWalFile prims state.files state.file repair
    Recovers prims recovered.2 image ∧
      (recovered.1 = state.file ∨ recovered.1 = image.bytes prims) ∧ (repair = true →
          recovered.1 = image.bytes prims ∧ recoveredAppendable recovered.2 = true) ∧
          (state.file = image.bytes prims → recoveredAppendable recovered.2 = true) := by
  obtain ⟨tail, torn, isFile⟩ := represents.bytes
  obtain ⟨reason, isCut, clean, decoded⟩ := decodePrefix_sound lawful represents.sound torn
  rw [← isFile] at decoded
  have read := readClaimWal_represents represents (by rw [decoded])
  rw [recoverClaimWalFile, read, decoded]
  by_cases whole : tail = []
  · have isWhole : state.file = image.bytes prims := by
      rw [isFile, whole, append_nil]
    have isClean := clean.mpr whole
    rw [if_neg (by simp [isWhole])]
    refine ⟨⟨rfl, rfl, rfl, isCut⟩, Or.inl rfl, ?_, ?_⟩
    · exact fun _ => ⟨isWhole, by simp [recoveredAppendable, isClean]⟩
    · exact fun _ => by simp [recoveredAppendable, isClean]
  · have longer : (image.bytes prims).length < state.file.length := by
      rw [isFile, length_append]
      have positive := List.length_pos_iff.mpr whole
      omega
    have notWhole : state.file ≠ image.bytes prims := by
      intro same
      rw [same] at longer
      exact lt_irrefl _ longer
    have repairable := isRepairable_of_isCut isCut (fun isClean => whole (clean.mp isClean))
    cases repair with
    | false =>
      exact ⟨⟨rfl, rfl, rfl, isCut⟩, Or.inl rfl, by simp, fun same => absurd same notWhole⟩
    | true =>
      rw [if_pos (by simp [longer, repairable]), isFile, take_left]
      exact ⟨⟨rfl, rfl, rfl, isCut⟩, Or.inr rfl, fun _ => ⟨rfl, by simp [recoveredAppendable]⟩,
          fun same => absurd (isFile.trans same) notWhole⟩

theorem Represents.recover
    (lawful : prims.Lawful)
    (represents : Represents prims state image) (repair : Bool) :
    Represents prims
      { state with
        file := (recoverClaimWalFile prims state.files state.file repair).1 }
      image := by
  obtain ⟨-, left, -, -⟩ := recoverClaimWalFile_represents lawful represents repair
  refine ⟨represents.sound, ?_, represents.residue, represents.linked⟩
  rcases left with unchanged | repaired
  · rw [unchanged]
    exact represents.bytes
  · exact ⟨[], Or.inl rfl, by rw [repaired, append_nil]⟩

end Recovery

namespace LogImage

variable {prims : ClaimWalPrimitives} {files : CheckpointFiles}
variable {image : LogImage}

def push (image : LogImage) (payload : ClaimWalPayload) : LogImage :=
  { image with payloads := image.payloads ++ [payload] }

theorem bytes_push (payload : ClaimWalPayload) :
    (image.push payload).bytes prims = image.bytes prims ++
      frameOf prims (image.lastSeq + 1) payload := by
  have number : image.base + 1 + image.payloads.length = image.lastSeq + 1 :=
    Nat.add_right_comm _ _ _
  change image.front prims ++ encodeLog prims (image.base + 1) (image.payloads ++ [payload]) = _
  rw [encodeLog_append, number, encodeLog, encodeLog, append_nil, ← append_assoc]
  rfl

theorem log_push (payload : ClaimWalPayload) :
    (image.push payload).log prims = (image.log prims).append
      (recordOf prims (image.bytes prims).length (image.lastSeq + 1) payload) := by
  have number : image.base + 1 + image.payloads.length = image.lastSeq + 1 :=
    Nat.add_right_comm _ _ _
  have records : (image.push payload).records prims = image.records prims ++
          [recordOf prims (image.bytes prims).length (image.lastSeq + 1) payload] := by
    change logRecords prims (image.front prims).length
      (image.base + 1) (image.payloads ++ [payload]) = _
    rw [logRecords_append, number, logRecords, logRecords, bytes, length_append]
    rfl
  rw [log, records]
  rfl

theorem Sound.push (sound : image.Sound prims files)
    (size : (prims.toJson payload).length ≤ defaultMaxPayloadLen) (room : image.lastSeq < u64Max) :
    (image.push payload).Sound prims files := by
  refine ⟨sound.opens, ?_, ?_⟩
  · intro other member
    rcases List.mem_append.mp member with earlier | last
    · exact sound.sizes other earlier
    · rw [List.mem_singleton.mp last]
      exact size
  · have longer : (image.push payload).lastSeq = image.lastSeq + 1 := by
      simp only [lastSeq, LogImage.push, length_append, length_singleton]
      exact (Nat.add_assoc _ _ _).symm
    rw [longer]
    exact room

/-- A generation that a later rotation publishes does not disturb the selected
one. -/
theorem Sound.publish (sound : image.Sound prims files)
    (later : image.lastSeq < seq)
    (opened : Except ClaimWalStopReason ClaimWalSnapshotPayload) :
    image.Sound prims (files.publish payload seq opened) := by
  refine ⟨?_, sound.sizes, sound.numbers⟩
  intro record isCheckpoint
  have opens := sound.opens record isCheckpoint
  have earlier : record.seq ≠ seq := by
    have base : image.base = record.seq := by
      rw [LogImage.base, Option.mem_def.mp isCheckpoint]
    have inside : image.base ≤ image.lastSeq := Nat.le_add_right _ _
    omega
  refine ⟨opens.offset, opens.recordLen, opens.size, opens.follows, ?_⟩
  exact (if_neg fun same => earlier same.2).trans opens.witnessed

end LogImage

variable {files : CheckpointFiles}

section Blocking

variable {prims : ClaimWalPrimitives}

theorem not_declares_of_no_checkpoint (sound : image.Sound prims files)
    (noCheckpoint : image.checkpoint = none) {tail : Bytes} (torn : Torn prims tail) :
    activeWalDeclaresRequiredGeneration prims (image.bytes prims ++ tail) = false := by
  obtain ⟨checkpoint, payloads⟩ := image
  cases noCheckpoint
  rw [activeWalDeclaresRequiredGeneration]
  cases payloads with
  | nil =>
    rcases torn with rfl | ⟨seq, recordType, payload, count, seqFits, lenFits, short, rfl⟩
    · rfl
    · have stopped := (claimFormat prims).decode_take_encode recordType
          (lt_of_le_u64Max seqFits) lenFits short
      simp only [LogImage.bytes, LogImage.front, encodeLog, nil_append, stopped]
  | cons payload rest =>
    have numbers := sound.numbers
    simp only [LogImage.lastSeq, LogImage.base, length_cons] at numbers
    have first : 0 + 1 ≤ u64Max := by omega
    have decoded := (claimFormat prims).decode_encode_append
        payload.operation.recordType (encodeLog prims 2 rest ++ tail)
        (lt_of_le_u64Max first) (sound.sizes payload mem_cons_self)
    simp only [LogImage.bytes, LogImage.front, LogImage.base, encodeLog,
      frameOf, nil_append, append_assoc, decoded, ne_eq,
      recordType_ne_checkpoint, not_false_eq_true, if_true]

/-- What recovery says of a log that it refuses for good. -/
structure Refuses (recovery : ClaimWalRecovery) : Prop where
  unread : recovery.log = ClaimLog.empty
  stopped : recovery.stopReason ≠ .cleanEof
  unrepaired : recovery.repaired = false
  unrepairable : isRepairableStopReason recovery.stopReason = false

theorem Refuses.blocked (refuses : Refuses (readClaimWal prims state.files state.file)) :
    Blocked prims state := by
  intro repair
  refine ⟨_, by rw [recoverClaimWalFile, if_neg (by simp [refuses.unrepairable])],
    refuses.unread, ?_⟩
  simp [recoveredAppendable, refuses.stopped, refuses.unrepaired]

theorem refuses_reject (recovery : ClaimWalRecovery) :
    Refuses (rejectUnselectedCheckpointResidue recovery) :=
  ⟨rfl, by simp [rejectUnselectedCheckpointResidue], rfl, rfl⟩

/-- Published files beside a log that selects none of them. -/
theorem blocked_unselected (lawful : prims.Lawful) (residue : state.files.residue = true)
    (noCheckpoint : image.checkpoint = none) (sound : image.Sound prims state.files)
    {tail : Bytes} (torn : Torn prims tail) (isFile : state.file = image.bytes prims ++ tail) :
    Blocked prims state := by
  obtain ⟨reason, -, -, decoded⟩ := decodePrefix_sound lawful sound torn
  apply Refuses.blocked
  rw [readClaimWal, isFile, decoded, if_pos]
  · exact refuses_reject _
  · simp [noCheckpoint, residue, not_declares_of_no_checkpoint sound noCheckpoint torn]

/-- Published files without a log. -/
theorem blocked_away (lawful : prims.Lawful) (residue : state.files.residue = true)
    (away : state.file = []) : Blocked prims state :=
  blocked_unselected lawful residue rfl LogImage.sound_empty (Or.inl rfl) away

/-- A checkpoint whose generation cannot be opened. -/
theorem refuses_unopened (lawful : prims.Lawful)
    (size : (prims.checkpointToJson payload).length ≤ defaultMaxPayloadLen)
    (follows : checkedSucc payload.lastSeqInSnapshot = some seq)
    (unopened : files.witness payload seq = .error reason) (stopped : reason ≠ .cleanEof)
    (unrepairable : isRepairableStopReason reason = false) :
    Refuses (readClaimWal prims files (checkpointFrame prims seq payload)) := by
  obtain ⟨below, isNext⟩ := checkedSucc_eq_some.mp follows
  have seqFits : seq ≤ u64Max := by omega
  have decoded := (claimFormat prims).decode_encode_append recordTypeCheckpointRef
    [] (lt_of_le_u64Max seqFits) size
  have nonempty : checkpointFrame prims seq payload ≠ [] := by
    rw [← length_pos_iff, checkpointFrame, Format.length_encode, headerLen]
    omega
  have stops : ∀ expectedSeq, decodeRecordAt prims files
      (checkpointFrame prims seq payload) 0 expectedSeq = .stop reason := by
    intro expectedSeq
    rw [decodeRecordAt, checkpointFrame, ← append_nil (Format.encode _ _ _ _), decoded]
    simp [decodeCheckpointRecord, lawful.checkpointFromJson_toJson, follows, unopened]
  have read : decodePrefix prims files (checkpointFrame prims seq payload) =
      ⟨[], none, 0, 0, 0, (checkpointFrame prims seq payload).length, false, reason⟩ := by
    obtain ⟨first, rest, isFrame⟩ := exists_cons_of_ne_nil nonempty
    rw [decodePrefix, isFrame, length_cons, decodeLoop, ← isFrame]
    simp [DecodeState.initial, stops]
  rw [readClaimWal, read]
  split
  · exact refuses_reject _
  · exact ⟨rfl, stopped, rfl, unrepairable⟩

end Blocking

section Appending

variable {prims : ClaimWalPrimitives}

theorem readClaimWal_whole (lawful : prims.Lawful) (represents : Represents prims state image)
    (whole : state.file = image.bytes prims) :
    (readClaimWal prims state.files state.file).stopReason = .cleanEof := by
  obtain ⟨reason, -, clean, decoded⟩ :=
    decodePrefix_sound lawful represents.sound (Or.inl (rfl : ([] : Bytes) = []))
  rw [append_nil, ← whole] at decoded
  rw [readClaimWal_represents represents (by rw [decoded]), decoded]
  exact clean.mpr rfl

/-- How a due rotation of a whole log ends. -/
inductive RotationSettles (prims : ClaimWalPrimitives) (state : WalState) (image : LogImage) :
    WalState → RotationOutcome → Prop
  | refused : RotationSettles prims state image state .refused
  | abandoned {after : WalState}
      (kept : state.files.residue = true → Represents prims after image)
      (unselected : state.files.residue = false → Blocked prims after) :
      RotationSettles prims state image after .abandoned
  | lost {after : WalState} (blocked : Blocked prims after) :
      RotationSettles prims state image after .lost
  | rotated {after : WalState} {stamp : RotationStamp} {next : LogImage}
      (represents : Represents prims after next)
      (log : next.log prims = (image.log prims).rotate stamp) :
      RotationSettles prims state image after (.rotated stamp)

theorem represents_checkpoint
    (size : (prims.checkpointToJson payload).length ≤ defaultMaxPayloadLen)
    (follows : checkedSucc payload.lastSeqInSnapshot = some seq)
    (snapshot : ClaimWalSnapshotPayload) (linked : Bool) :
    Represents prims
      ⟨checkpointFrame prims seq payload, files.publish payload seq (.ok snapshot), linked⟩
      ⟨some ⟨seq, payload, snapshot, 0, (checkpointFrame prims seq payload).length⟩, []⟩ := by
  obtain ⟨below, isNext⟩ := checkedSucc_eq_some.mp follows
  refine ⟨⟨?_, by simp, ?_⟩, ⟨[], Or.inl rfl, ?_⟩, rfl, fun _ => rfl⟩
  · intro record isCheckpoint
    cases isCheckpoint
    exact ⟨rfl, rfl, size, follows, if_pos ⟨rfl, rfl⟩⟩
  · simp only [LogImage.lastSeq, LogImage.base, length_nil]
    omega
  · simp [LogImage.bytes, LogImage.front, encodeLog]

theorem settles_abandoned (lawful : prims.Lawful) (represents : Represents prims state image)
    (later : image.lastSeq < seq)
    (opened : Except ClaimWalStopReason ClaimWalSnapshotPayload) (linked : Bool) :
    RotationSettles prims state image
      ⟨state.file, state.files.publish payload seq opened, linked⟩ .abandoned := by
  have sound := @LogImage.Sound.publish _ _ _ _ payload represents.sound later opened
  apply RotationSettles.abandoned
  · intro residue
    exact ⟨sound, represents.bytes, residue.symm.trans represents.residue, fun _ => rfl⟩
  · intro pristine
    obtain ⟨tail, torn, isFile⟩ := represents.bytes
    have noCheckpoint : image.checkpoint = none := by
      rw [← Option.isSome_eq_false_iff.trans Option.isNone_iff_eq_none, ← represents.residue]
      exact pristine
    exact blocked_unselected lawful rfl noCheckpoint sound torn isFile

/-- A reader gets the snapshot, or stops for good. -/
def OpensTo (opened : Except ClaimWalStopReason ClaimWalSnapshotPayload)
    (snapshot : ClaimWalSnapshotPayload) : Prop :=
  opened = .ok snapshot ∨
    ∃ reason, opened = .error reason ∧ reason ≠ .cleanEof ∧ isRepairableStopReason reason = false

theorem openedSnapshot_opensTo (generation : PublishedGeneration)
    (snapshot : ClaimWalSnapshotPayload) :
    OpensTo (openedSnapshot prims generation snapshot) snapshot := by
  unfold openedSnapshot
  split
  · exact Or.inr ⟨_, rfl, by simp, rfl⟩
  split
  · exact Or.inr ⟨_, rfl, by simp, rfl⟩
  · exact Or.inl rfl

section Checkpoint

variable (lawful : prims.Lawful)
  (size : (prims.checkpointToJson payload).length ≤ defaultMaxPayloadLen)
  (follows : checkedSucc payload.lastSeqInSnapshot = some seq)
  (opens : OpensTo opened snapshot)

include lawful size follows opens

theorem represents_installed
    (verified : (readClaimWal prims (files.publish payload seq opened)
      (checkpointFrame prims seq payload)).stopReason = .cleanEof) (linked : Bool) :
    Represents prims
      ⟨checkpointFrame prims seq payload, files.publish payload seq opened, linked⟩
      ⟨some ⟨seq, payload, snapshot, 0, (checkpointFrame prims seq payload).length⟩, []⟩ := by
  rcases opens with rfl | ⟨reason, rfl, stopped, unrepairable⟩
  · exact represents_checkpoint size follows snapshot linked
  · exact absurd verified (refuses_unopened lawful size follows (if_pos ⟨rfl, rfl⟩)
      stopped unrepairable).stopped

theorem blocked_installed
    (unverified : (readClaimWal prims (files.publish payload seq opened)
      (checkpointFrame prims seq payload)).stopReason ≠ .cleanEof) (linked : Bool) :
    Blocked prims
      ⟨checkpointFrame prims seq payload, files.publish payload seq opened, linked⟩ := by
  rcases opens with rfl | ⟨reason, rfl, stopped, unrepairable⟩
  · have represents := @represents_checkpoint _ files prims _ size follows snapshot linked
    exact absurd (readClaimWal_whole lawful represents
      (by simp [LogImage.bytes, LogImage.front, encodeLog])) unverified
  · apply Refuses.blocked
    exact refuses_unopened lawful size follows (if_pos ⟨rfl, rfl⟩) stopped unrepairable

end Checkpoint

theorem settles_installed (state : WalState) (lawful : prims.Lawful)
    (size : (prims.checkpointToJson payload).length ≤ defaultMaxPayloadLen)
    (follows : checkedSucc payload.lastSeqInSnapshot = some seq)
    (opens : OpensTo opened (snapshotOf stamp (image.log prims).project)) :
    RotationSettles prims state image
      ⟨checkpointFrame prims seq payload, state.files.publish payload seq opened, true⟩
      (if (readClaimWal prims (state.files.publish payload seq opened)
        (checkpointFrame prims seq payload)).stopReason = .cleanEof then .rotated stamp
        else .lost) := by
  split
  next verified =>
    exact .rotated (represents_installed lawful size follows opens verified true) rfl
  next unverified =>
    exact .lost (blocked_installed lawful size follows opens unverified true)

theorem replaceActiveWalWithCheckpoint_settles (lawful : prims.Lawful)
    (represents : Represents prims state image) (next : checkedSucc image.lastSeq = some seq)
    (isLast : payload.lastSeqInSnapshot = image.lastSeq)
    (opens : OpensTo opened (snapshotOf stamp (image.log prims).project))
    (loss : Option ReplacementLoss) :
    let rotated := replaceActiveWalWithCheckpoint prims
      { state with files := state.files.publish payload seq opened } seq payload stamp loss
    RotationSettles prims state image rotated.1 rotated.2 := by
  have later : image.lastSeq < seq := by
    obtain ⟨-, isNext⟩ := checkedSucc_eq_some.mp next
    omega
  have abandoned : ∀ linked, RotationSettles prims state image
      ⟨state.file, state.files.publish payload seq opened, linked⟩ .abandoned :=
    settles_abandoned lawful represents later opened
  have away : RotationSettles prims state image
      ⟨[], state.files.publish payload seq opened, false⟩ .lost :=
    .lost (blocked_away lawful rfl rfl)
  rw [← isLast] at next
  have installed (size : (prims.checkpointToJson payload).length ≤ defaultMaxPayloadLen) :=
    settles_installed state lawful size next opens
  have isFrame : (claimFormat prims).encode seq recordTypeCheckpointRef
      (prims.checkpointToJson payload) = checkpointFrame prims seq payload := rfl
  simp only [replaceActiveWalWithCheckpoint, isFrame]
  generalize state.files.publish payload seq opened = files at *
  generalize checkpointFrame prims seq payload = frame at *
  generalize (readClaimWal prims files frame).stopReason = stopReason at *
  split
  · exact abandoned state.linked
  next large =>
    replace installed := installed (Nat.le_of_not_lt large)
    cases loss with
    | none =>
      simp only [replaceActiveWal]
      split at installed
      next verified => simpa only [verified, decide_true, if_true] using installed
      next unverified =>
        simpa only [unverified, decide_false, Bool.false_eq_true, if_false] using abandoned true
    | some loss =>
      cases loss with
      | staged => exact abandoned state.linked
      | moved => exact away
      | installed => simpa only [replaceActiveWal, decide_eq_true_eq] using installed

theorem rotateClaimWal_settles
    (lawful : prims.Lawful)
    (represents : Represents prims state image)
    (whole : state.file = image.bytes prims) (createdAt : String)
    (generation : PublishedGeneration) (loss : Option ReplacementLoss) :
    let rotated := rotateClaimWal prims state createdAt generation loss
    RotationSettles prims state image rotated.1 rotated.2 := by
  obtain ⟨recovers, -, -, appendable⟩ := recoverClaimWalFile_represents lawful represents false
  rw [rotateClaimWal, rotateClaimWalUnderLock]
  simp only [appendable whole, Bool.not_true, Bool.false_eq_true, if_false,
    recovers.lastObservedSeq, projectClaimWalRecovery, recovers.log]
  cases next : checkedSucc image.lastSeq with
  | none => exact .refused
  | some seq =>
    exact replaceActiveWalWithCheckpoint_settles lawful represents next rfl
      (openedSnapshot_opensTo _ _) loss

theorem Represents.push
    (represents : Represents prims state image)
    (whole : state.file = image.bytes prims)
    (size : (prims.toJson payload).length ≤ defaultMaxPayloadLen)
    (room : image.lastSeq < u64Max) :
    Represents prims
      { state with
        file := state.file ++ frameOf prims (image.lastSeq + 1) payload }
      (image.push payload) :=
  ⟨represents.sound.push size room,
    ⟨[], Or.inl rfl, by rw [whole, LogImage.bytes_push, append_nil]⟩,
    represents.residue, represents.linked⟩

/-- The step leads from the image to the next one, or it blocks the log by
leaving a replacement unfinished. -/
def Advances (prims : ClaimWalPrimitives) (log : ClaimLog) (step : AppendStep) : Prop :=
  if step.unfinished then
    Blocked prims step.state
  else
    ∃ next : LogImage, Represents prims step.state next ∧ next.log prims = log.run step.events

theorem Represents.advances (represents : Represents prims state image) (report : AppendReport) :
    Advances prims (image.log prims) ⟨state, report, [], false⟩ :=
  ⟨image, represents, rfl⟩

section

variable (lawful : prims.Lawful) (represents : Represents prims state image)

include lawful represents

theorem maybeRotateAfterAppend_advances (whole : state.file = image.bytes prims)
    (appended : image.log prims = log.append record)
    (recovery : ClaimWalRecovery) (attempt : AppendAttempt) :
    Advances prims log (maybeRotateAfterAppend prims state recovery attempt record) := by
  have settles := rotateClaimWal_settles lawful represents whole attempt.recordedAt
      attempt.generation attempt.ending.rotationLoss
  rw [maybeRotateAfterAppend]
  split
  · exact ⟨image, represents, appended⟩
  · generalize rotateClaimWal prims state attempt.recordedAt
      attempt.generation attempt.ending.rotationLoss = rotated at settles ⊢
    obtain ⟨after, outcome⟩ := rotated
    cases settles with
    | refused => exact ⟨image, represents, appended⟩
    | abandoned kept unselected =>
      cases residue : state.files.residue with
      | true => exact ⟨image, kept residue, appended⟩
      | false => exact unselected residue
    | lost blocked => exact blocked
    | rotated next isRotated =>
      refine ⟨_, next, ?_⟩
      rw [isRotated, appended]
      rfl

theorem writeRecord_advances (whole : state.file = image.bytes prims)
    (next : checkedSucc image.lastSeq = some seq) (size :
      (prims.toJson attempt.payload).length ≤ defaultMaxPayloadLen) (recovery : ClaimWalRecovery) :
    Advances prims (image.log prims) (writeRecord prims state recovery attempt seq
      (prims.toJson attempt.payload)) := by
  obtain ⟨below, rfl⟩ := checkedSucc_eq_some.mp next
  have isFrame : (claimFormat prims).encode (image.lastSeq + 1)
          attempt.operation.recordType (prims.toJson attempt.payload) =
        frameOf prims (image.lastSeq + 1) attempt.payload := rfl
  have bytes : state.file ++ frameOf prims (image.lastSeq + 1) attempt.payload =
      (image.push attempt.payload).bytes prims := by
    rw [whole, LogImage.bytes_push]
  have written := represents.push whole size below
  have appended : (image.push attempt.payload).log prims = (image.log prims).append
          (attempt.record state.file (image.lastSeq + 1)
            (frameOf prims (image.lastSeq + 1) attempt.payload)) := by
    rw [LogImage.log_push, whole]
    rfl
  rw [writeRecord, isFrame]
  split
  next isLinked =>
    have replaced : Represents prims
        ⟨state.file ++ frameOf prims (image.lastSeq + 1) attempt.payload, state.files, true⟩
        (image.push attempt.payload) :=
      ⟨written.sound, written.bytes, written.residue, fun _ => represents.linked isLinked⟩
    generalize attempt.ending.appendLoss = loss
    cases loss with
    | none =>
      exact maybeRotateAfterAppend_advances lawful replaced bytes appended recovery attempt
    | some loss =>
      cases loss with
      | staged => exact represents.advances _
      | moved => exact blocked_away lawful (represents.linked isLinked) rfl
      | installed => exact ⟨_, replaced, appended⟩
  · split
    next count _ =>
      by_cases complete : (frameOf prims (image.lastSeq + 1) attempt.payload).length ≤ count
      · rw [if_pos complete, take_of_length_le complete]
        exact ⟨_, written, appended⟩
      · rw [if_neg complete]
        refine ⟨image, ⟨represents.sound, ?_, represents.residue, represents.linked⟩, rfl⟩
        exact ⟨_, Or.inr ⟨image.lastSeq + 1, _, _, count, below, size,
            Nat.lt_of_not_le complete, rfl⟩, by rw [whole]; rfl⟩
    next =>
      exact maybeRotateAfterAppend_advances lawful written bytes appended recovery attempt

theorem appendClaimWalRecord_advances (attempt : AppendAttempt) :
    Advances prims (image.log prims) (appendClaimWalRecord prims state attempt) := by
  rw [appendClaimWalRecord]
  split
  · exact represents.advances _
  obtain ⟨recovers, -, repaired, -⟩ := recoverClaimWalFile_represents lawful represents true
  obtain ⟨whole, appendable⟩ := repaired rfl
  have left := represents.recover lawful true
  generalize recoverClaimWalFile prims state.files state.file true = recovered at *
  obtain ⟨file, recovery⟩ := recovered
  have observed : recovery.lastObservedSeq = image.lastSeq := recovers.lastObservedSeq
  simp only [appendable, Bool.not_true, Bool.false_eq_true, if_false, observed]
  cases next : checkedSucc image.lastSeq with
  | none => exact left.advances _
  | some seq =>
    simp only [lifecyclePayloadBytes]
    by_cases large : defaultMaxPayloadLen < (prims.toJson attempt.payload).length
    · rw [if_pos large]
      exact left.advances _
    · rw [if_neg large]
      exact writeRecord_advances lawful left whole next (Nat.le_of_not_lt large) recovery

end

end Appending

section Reports

variable (prims : ClaimWalPrimitives)

def AppendStep.written (step : AppendStep) : List ClaimWalRecord :=
  step.events.filterMap LogEvent.record?

/-- An append writes at most the record that it was given, and one that
returns wrote it. -/
structure Reports (attempt : AppendAttempt) (step : AppendStep) : Prop where
  atMostOne : step.written.length ≤ 1
  own : ∀ record ∈ step.written, record.payload = attempt.payload
  acknowledged : ∀ seq bytesAppended, step.report = .acknowledged seq bytesAppended →
      ∃ record : ClaimWalRecord, step.written = [record] ∧
        record.seq = seq ∧ record.recordLen = bytesAppended

theorem reports_unwritten
    (unheard : ∀ seq bytesAppended, report ≠ .acknowledged seq bytesAppended) (unfinished : Bool) :
    Reports attempt ⟨state, report, [], unfinished⟩ :=
  ⟨Nat.zero_le _, by simp [AppendStep.written], fun seq bytesAppended heard =>
    absurd heard (unheard seq bytesAppended)⟩

theorem reports_written (written : step.written = [record])
    (own : record.payload = attempt.payload) (heard : ∀ seq bytesAppended,
      step.report = .acknowledged seq bytesAppended →
      record.seq = seq ∧ record.recordLen = bytesAppended) : Reports attempt step := by
  refine ⟨by rw [written]; rfl, ?_, ?_⟩
  · intro other member
    rw [written, mem_singleton] at member
    rw [member]
    exact own
  · intro seq bytesAppended report
    exact ⟨record, written, heard seq bytesAppended report⟩

theorem maybeRotateAfterAppend_reports (state : WalState) (recovery : ClaimWalRecovery)
    (own : record.payload = attempt.payload) :
    Reports attempt (maybeRotateAfterAppend prims state recovery attempt record) := by
  have heard {report : AppendReport} {seq bytesAppended : Nat} (acknowledged :
        (if attempt.ending = .returns then report else .crashed) =
          .acknowledged seq bytesAppended) : report = .acknowledged seq bytesAppended := by
    split at acknowledged
    · exact acknowledged
    · cases acknowledged
  rw [maybeRotateAfterAppend]
  split
  · refine reports_written rfl own fun seq bytesAppended report => ?_
    cases heard report
    exact ⟨rfl, rfl⟩
  · split
    · refine reports_written rfl own fun seq bytesAppended report => ?_
      cases heard report
    · refine reports_written rfl own fun seq bytesAppended report => ?_
      cases heard report
    · refine reports_written rfl own fun seq bytesAppended report => ?_
      cases heard report
    · refine reports_written rfl own fun seq bytesAppended report => ?_
      cases heard report
      exact ⟨rfl, rfl⟩

theorem writeRecord_reports (state : WalState) (recovery : ClaimWalRecovery)
    (attempt : AppendAttempt) (seq : Nat) (payloadBytes : Bytes) :
    Reports attempt (writeRecord prims state recovery attempt seq payloadBytes) := by
  rw [writeRecord]
  split
  · generalize attempt.ending.appendLoss = loss
    cases loss with
    | none => exact maybeRotateAfterAppend_reports prims _ _ rfl
    | some loss =>
      cases loss with
      | staged | moved => exact reports_unwritten (by simp) _
      | installed => exact reports_written rfl rfl (fun _ _ heard => by cases heard)
  split
  next count _ =>
    by_cases complete : ((claimFormat prims).encode seq
          attempt.operation.recordType payloadBytes).length ≤ count
    · rw [if_pos complete]
      exact reports_written rfl rfl (by simp)
    · rw [if_neg complete]
      exact reports_unwritten (by simp) _
  next => exact maybeRotateAfterAppend_reports prims _ _ rfl

theorem appendClaimWalRecord_reports (state : WalState) (attempt : AppendAttempt) :
    Reports attempt (appendClaimWalRecord prims state attempt) := by
  rw [appendClaimWalRecord]
  split
  · exact reports_unwritten (by simp) _
  generalize recoverClaimWalFile prims state.files state.file true = recovered
  obtain ⟨file, recovery⟩ := recovered
  simp only
  split
  · exact reports_unwritten (by simp) _
  cases checkedSucc recovery.lastObservedSeq with
  | none => exact reports_unwritten (by simp) _
  | some seq =>
    simp only
    cases lifecyclePayloadBytes prims attempt.payload with
    | error error => exact reports_unwritten (by simp) _
    | ok payloadBytes => exact writeRecord_reports prims _ recovery attempt seq payloadBytes

end Reports

section Histories

variable {prims : ClaimWalPrimitives}

theorem walHistory_append (actions : List WalAction) (last : WalAction) :
    walHistory prims (actions ++ [last]) = (walHistory prims actions).step prims last := by
  rw [walHistory, walHistory, foldl_append]
  rfl

theorem walHistory_reports (actions : List WalAction) :
    ∀ entry ∈ (walHistory prims actions).appends, Reports entry.1 entry.2 := by
  induction actions using List.reverseRecOn with
  | nil => simp [walHistory, WalHistory.start]
  | append_singleton earlier last ih =>
    rw [walHistory_append]
    cases last with
    | recover repair => exact ih
    | append attempt =>
      intro entry member
      rcases List.mem_append.mp member with before | now
      · exact ih entry before
      · rw [List.mem_singleton.mp now]
        exact appendClaimWalRecord_reports prims _ attempt

/-- Some image stands behind every reachable state: the one that the written
records and the rotations make. -/
theorem walHistory_represents (lawful : prims.Lawful) (actions : List WalAction)
    (finished : (walHistory prims actions).unfinished = false) :
    ∃ image : LogImage, Represents prims (walHistory prims actions).state image ∧ image.log prims =
      ClaimLog.empty.run (walHistory prims actions).events := by
  induction actions using List.reverseRecOn with
  | nil => exact ⟨⟨none, []⟩, represents_pristine prims, rfl⟩
  | append_singleton earlier last ih =>
    rw [walHistory_append] at finished ⊢
    cases last with
    | recover repair =>
      obtain ⟨image, represents, log⟩ := ih finished
      exact ⟨image, represents.recover lawful repair, log⟩
    | append attempt =>
      simp only [WalHistory.unfinished, WalHistory.step, any_append,
        Bool.or_eq_false_iff, any_cons, any_nil, Bool.or_false] at finished
      obtain ⟨image, represents, log⟩ := ih finished.1
      have advances := appendClaimWalRecord_advances lawful represents attempt
      rw [Advances, if_neg (by simp [finished.2])] at advances
      obtain ⟨next, nextRepresents, nextLog⟩ := advances
      refine ⟨next, nextRepresents, ?_⟩
      rw [nextLog, log, WalHistory.events, WalHistory.events,
        WalHistory.step, flatMap_append, ClaimLog.run, ClaimLog.run, ClaimLog.run, foldl_append]
      simp

theorem Blocked.append (blocked : Blocked prims state) (attempt : AppendAttempt) :
    let step := appendClaimWalRecord prims state attempt
    step.state = state ∧ step.events = [] := by
  obtain ⟨recovery, recovered, -, refused⟩ := blocked true
  rw [appendClaimWalRecord, recovered]
  split
  · exact ⟨rfl, rfl⟩
  · simp [refused]

/-- Once a replacement was left unfinished, the log stays blocked. -/
theorem unfinished_rotation_blocks (lawful : prims.Lawful) (actions : List WalAction)
    (unfinished : (walHistory prims actions).unfinished = true) :
    Blocked prims (walHistory prims actions).state := by
  induction actions using List.reverseRecOn with
  | nil => cases unfinished
  | append_singleton earlier last ih =>
    rw [walHistory_append] at unfinished ⊢
    cases last with
    | recover repair =>
      have blocked := ih unfinished
      obtain ⟨recovery, recovered, -⟩ := blocked repair
      rw [WalHistory.step, recovered]
      exact blocked
    | append attempt =>
      cases before : (walHistory prims earlier).unfinished with
      | true =>
        have blocked := ih before
        obtain ⟨unchanged, -⟩ := blocked.append attempt
        rw [WalHistory.step, unchanged]
        exact blocked
      | false =>
        obtain ⟨image, represents, -⟩ := walHistory_represents lawful earlier before
        have advances := appendClaimWalRecord_advances lawful represents attempt
        rw [WalHistory.unfinished] at before
        simp only [WalHistory.unfinished, WalHistory.step, any_append,
          before, Bool.false_or, any_cons, any_nil, Bool.or_false] at unfinished
        rw [Advances, if_pos unfinished] at advances
        exact advances

/-- What holds of the file after every history. -/
structure CrashSafe (prims : ClaimWalPrimitives) (history : WalHistory) : Prop where
  /-- The records read are those written to their last byte since the last
  rotation, whether the reader repairs or not. -/
  decoded : ∀ repair : Bool, (recoverClaimWalFile prims history.state.files history.state.file
      repair).2.log = ClaimLog.empty.run history.events
  /-- An append writes at most its own record, and one that returns wrote
  it. -/
  reported : ∀ entry ∈ history.appends, Reports entry.1 entry.2
  /-- The numbers count up from one, or from the number of the checkpoint. -/
  consecutive : ∀ repair : Bool,
    let recovery := (recoverClaimWalFile prims history.state.files
        history.state.file repair).2
    recovery.records.map (·.seq) = List.range' (recovery.checkpoint.elim 0 (·.seq) + 1)
        recovery.records.length
  /-- Wherever the file is cut, the records that the cut leaves whole are
  read. -/
  cuts : ∀ position : Nat,
    let cut := decodePrefix prims history.state.files
        (history.state.file.take position)
    cut.records = (decodePrefix prims history.state.files
          history.state.file).records.filter
            (ClaimWalRecord.endsBy position) ∧
      cut.stopReason.isCut = true

theorem Represents.cuts
    (lawful : prims.Lawful)
    (represents : Represents prims state image) (position : Nat) :
    let cut := decodePrefix prims state.files (state.file.take position)
    cut.records = (decodePrefix prims state.files state.file).records.filter
          (ClaimWalRecord.endsBy position) ∧
      cut.stopReason.isCut = true := by
  obtain ⟨tail, torn, isFile⟩ := represents.bytes
  obtain ⟨left, leftTail, isCut, sound, leftTorn, records⟩ := represents.sound.cut torn position
  obtain ⟨_, -, -, whole⟩ := decodePrefix_sound lawful represents.sound torn
  obtain ⟨reason, cutReason, -, decoded⟩ := decodePrefix_sound lawful sound leftTorn
  rw [isFile, isCut, decoded, whole]
  exact ⟨records, cutReason⟩

/-- The log survives every crash of an append, as long as no replacement of the
log is left unfinished: each record that reached the file whole is read, in
order and without a gap, and nothing else is. -/
theorem claim_wal_crash_safe
    (prims : ClaimWalPrimitives)
    (lawful : prims.Lawful)
    (actions : List WalAction)
    (finished : (walHistory prims actions).unfinished = false) :
    CrashSafe prims (walHistory prims actions) := by
  obtain ⟨image, represents, log⟩ := walHistory_represents lawful actions finished
  refine ⟨?_, walHistory_reports actions, ?_, represents.cuts lawful⟩
  · intro repair
    obtain ⟨recovers, -⟩ := recoverClaimWalFile_represents lawful represents repair
    rw [recovers.log, log]
  · intro repair
    obtain ⟨recovers, -⟩ := recoverClaimWalFile_represents lawful represents repair
    simp only [recovers.records, recovers.checkpoint]
    rw [LogImage.records, seqs_logRecords, length_logRecords, LogImage.base]
    cases image.checkpoint <;> rfl

end Histories

section CutWhole

variable {prims : ClaimWalPrimitives}

/-- A crash behind the last byte leaves the record and acknowledges
nothing. -/
theorem appendClaimWalRecord_cut_whole
    (lawful : prims.Lawful)
    (represents : Represents prims state image) (unlinked : state.linked = false)
    (room : image.lastSeq < u64Max)
    (size : (prims.toJson attempt.payload).length ≤ defaultMaxPayloadLen)
    (cut : attempt.ending = .afterBytes (headerLen + defaultMaxPayloadLen + trailerLen)) :
    let step := appendClaimWalRecord prims state attempt
    Represents prims step.state (image.push attempt.payload) ∧ step.state.linked = false ∧
      step.report = .crashed ∧ step.unfinished = false := by
  obtain ⟨recovers, -, repaired, -⟩ := recoverClaimWalFile_represents lawful represents true
  obtain ⟨whole, appendable⟩ := repaired rfl
  have left := represents.recover lawful true
  rw [appendClaimWalRecord, if_neg (by simp [cut])]
  generalize recoverClaimWalFile prims state.files state.file true = recovered at *
  obtain ⟨file, recovery⟩ := recovered
  have observed : recovery.lastObservedSeq = image.lastSeq := recovers.lastObservedSeq
  have pushed := left.push whole size room
  have complete : (frameOf prims (image.lastSeq + 1) attempt.payload).length ≤
        headerLen + defaultMaxPayloadLen + trailerLen := by
    rw [length_frameOf]
    omega
  have isFrame : (claimFormat prims).encode (image.lastSeq + 1)
          attempt.operation.recordType (prims.toJson attempt.payload) =
        frameOf prims (image.lastSeq + 1) attempt.payload := rfl
  simp only [appendable, Bool.not_true, Bool.false_eq_true, if_false,
    observed, checkedSucc, if_pos room, lifecyclePayloadBytes,
    if_neg (Nat.not_lt.mpr size), writeRecord, cut, isFrame, unlinked]
  rw [take_of_length_le complete]
  exact ⟨unlinked ▸ pushed, trivial, trivial, trivial⟩

theorem walHistory_cut_whole_twice
    (lawful : prims.Lawful)
    (size : (prims.toJson attempt.payload).length ≤ defaultMaxPayloadLen)
    (cut : attempt.ending = .afterBytes (headerLen + defaultMaxPayloadLen + trailerLen)) :
    let history := walHistory prims [.append attempt, .append attempt]
    history.unfinished = false ∧ history.acknowledged = [] ∧
      (recoverClaimWalFile prims history.state.files
        history.state.file false).2.records.length = 2 := by
  obtain ⟨first, unlinked, firstReport, firstFinished⟩ :=
    appendClaimWalRecord_cut_whole lawful (represents_pristine prims) rfl (by decide) size cut
  have room : (LogImage.push ⟨none, []⟩ attempt.payload).lastSeq < u64Max :=
    show 1 < u64Max by decide
  obtain ⟨second, -, secondReport, secondFinished⟩ :=
    appendClaimWalRecord_cut_whole lawful first unlinked room size cut
  obtain ⟨recovers, -⟩ := recoverClaimWalFile_represents lawful second false
  refine ⟨?_, ?_, ?_⟩
  · simp [walHistory, WalHistory.step, WalHistory.start,
      WalHistory.unfinished, firstFinished, secondFinished]
  · simp [walHistory, WalHistory.step, WalHistory.start,
      WalHistory.acknowledged, firstReport, secondReport]
  · have records := congrArg List.length recovers.records
    rw [LogImage.records, length_logRecords] at records
    exact records

end CutWhole

namespace Sample

deriving instance Countable for
  PrincipalId, StableId, RepoPath, ScopeId, ClaimId, ClaimKind, ActorRole,
  ClaimScopeKind, ClaimStatus, ExpiryAction, ReclaimPolicy, ClaimIdentity,
  ClaimScope, ClaimLease, ClaimStatusRecord, ExpiryPolicy, ClaimContract,
  ClaimWalOperation, ClaimWalPayload, ClaimWalFileAnchorBinding,
  ClaimWalCheckpointPayload

def payload : ClaimWalPayload :=
  ⟨"0.1", .acquire, "2026-01-01T00:00:00Z", claim .active⟩

@[irreducible]
def payloadJson : String :=
  "\x7b" ++ "\"schema_version\":\"0.1\",\"operation\":\"acquire\"," ++
  "\"recorded_at\":\"2026-01-01T00:00:00Z\",\"claim_contract\":\x7b" ++
  "\"id\":\"claim.story.s1.s1\"," ++
  "\"contract_ref\":\"contracts/claims/claim-contract-v0.yaml\"," ++
  "\"claim\":\x7b\"kind\":\"story\",\"claimant_agent_id\":\"alice\"," ++
  "\"claimant_role\":\"worker\",\"registry_ref\":null\x7d," ++
  "\"scope\":\x7b\"kind\":\"story\",\"id\":\"s1\"," ++
  "\"product_area\":null,\"paths\":[\"src/lib.rs\"]\x7d," ++
  "\"lease\":\x7b\"acquired_at\":\"2026-01-01T00:00:00Z\"," ++
  "\"last_heartbeat_at\":\"2026-01-01T00:00:00Z\"," ++
  "\"expires_at\":\"2026-01-01T01:00:00Z\",\"ttl_seconds\":3600," ++
  "\"heartbeat_interval_seconds\":60,\"expected_state_version\":0\x7d," ++
  "\"status\":\x7b\"value\":\"active\"," ++
  "\"evaluated_at\":\"2026-01-01T00:00:00Z\",\"reason_code\":null\x7d," ++
  "\"expiry_policy\":\x7b\"on_expiry\":\"record_handoff_request\"," ++
  "\"handoff_required\":true,\"release_without_handoff_allowed\":false," ++
  "\"reclaim_policy\":\"driver_review\",\"handoff_request_ref\":null\x7d," ++
  "\"evidence_refs\":[]\x7d\x7d"

def knownJson : List (ClaimWalPayload × Bytes) :=
  [(payload, Text.asBytes payloadJson)]

noncomputable def primitives : ClaimWalPrimitives where
  crc32c := crc32c
  toJson := Codec.code knownJson
  fromJson := Codec.uncode knownJson
  checkpointToJson := Codec.code []
  checkpointFromJson := Codec.uncode []
  snapshotToJson := fun _ => []

theorem knownJson_admissible : Codec.Admissible knownJson := by
  refine ⟨by simp [knownJson], ?_⟩
  intro pair member
  have brace : Text.asBytes "\x7b" = [123] := by decide
  rw [List.mem_singleton.mp member]
  unfold payloadJson
  simp only [Text.asBytes_append, brace, cons_append, head?_cons]
  decide

theorem primitives_lawful : primitives.Lawful where
  fromJson_toJson := Codec.uncode_code knownJson_admissible
  checkpointFromJson_toJson := Codec.uncode_code ⟨nodup_nil, by simp⟩

theorem size : (primitives.toJson payload).length ≤ defaultMaxPayloadLen := by
  have isKnown : primitives.toJson payload = Text.asBytes payloadJson := by
    simp [primitives, Codec.code, knownJson]
  rw [isKnown, Text.length_asBytes]
  unfold payloadJson
  simp only [String.utf8ByteSize_append]
  decide +kernel

def attempt (ending : AppendEnding) : AppendAttempt where
  operation := .acquire
  claimContract := claim .active
  recordedAt := "2026-01-01T00:00:00Z"
  recoveryElapsedMs := 1
  generation := ⟨"", 0, "", "", "", "", ⟨"", "", "", "", 0⟩, 0⟩
  ending := ending

def cutWhole : AppendAttempt :=
  attempt (.afterBytes (headerLen + defaultMaxPayloadLen + trailerLen))

theorem cutWhole_size : (primitives.toJson cutWhole.payload).length ≤ defaultMaxPayloadLen :=
  size

end Sample

/-- Two appends in a row crash behind their last byte: both records are read,
and none of them was acknowledged. -/
theorem two_unacknowledged_records :
    ¬ ∀ actions : List WalAction,
      let history := walHistory Sample.primitives actions
      (recoverClaimWalFile Sample.primitives history.state.files
          history.state.file false).2.records.length ≤
        history.acknowledged.length + 1 := by
  intro bounded
  obtain ⟨-, unheard, two⟩ :=
    walHistory_cut_whole_twice Sample.primitives_lawful Sample.cutWhole_size rfl
  have bound := bounded [.append Sample.cutWhole, .append Sample.cutWhole]
  simp only [two, unheard] at bound
  exact absurd bound (by decide)

/-- The same two appends keep the log safe. -/
theorem claim_wal_crash_safe_cut_twice :
    CrashSafe Sample.primitives
      (walHistory Sample.primitives [.append Sample.cutWhole, .append Sample.cutWhole]) :=
  claim_wal_crash_safe Sample.primitives Sample.primitives_lawful
    [.append Sample.cutWhole, .append Sample.cutWhole]
    (walHistory_cut_whole_twice Sample.primitives_lawful
      Sample.cutWhole_size rfl).1

section Stuck

variable {prims : ClaimWalPrimitives}

/-- Once a replacement was left unfinished, no later action changes the store:
nothing repairs it, and no append is ever acknowledged again. -/
theorem unfinished_rotation_is_final
    (prims : ClaimWalPrimitives)
    (lawful : prims.Lawful)
    (actions later : List WalAction)
    (unfinished : (walHistory prims actions).unfinished = true) :
    (walHistory prims (actions ++ later)).state = (walHistory prims actions).state ∧
    (walHistory prims (actions ++ later)).events = (walHistory prims actions).events ∧
    (walHistory prims (actions ++ later)).acknowledged =
      (walHistory prims actions).acknowledged := by
  have blocked := unfinished_rotation_blocks lawful actions unfinished
  induction later using List.reverseRecOn with
  | nil => simp
  | append_singleton earlier last ih =>
    obtain ⟨state, events, acknowledged⟩ := ih
    rw [← append_assoc, walHistory_append]
    cases last with
    | recover repair =>
      obtain ⟨recovery, recovered, -⟩ := blocked repair
      rw [WalHistory.step, state, recovered]
      exact ⟨rfl, events, acknowledged⟩
    | append attempt =>
      obtain ⟨unchanged, unwritten⟩ := blocked.append attempt
      have reports := appendClaimWalRecord_reports prims (walHistory prims actions).state attempt
      rw [WalHistory.step, state]
      generalize appendClaimWalRecord prims (walHistory prims actions).state attempt = step at *
      refine ⟨unchanged, ?_, ?_⟩
      · simpa [WalHistory.events, unwritten] using events
      · have unheard : ∀ seq bytesAppended, step.report ≠ .acknowledged seq bytesAppended := by
          intro seq bytesAppended heard
          obtain ⟨record, written, -⟩ := reports.acknowledged seq bytesAppended heard
          simp [AppendStep.written, unwritten] at written
        rw [WalHistory.acknowledged] at acknowledged ⊢
        rw [filterMap_append, acknowledged]
        cases known : step.report with
        | acknowledged seq bytesAppended => exact absurd known (unheard seq bytesAppended)
        | failed error | crashed => simp [known]

theorem maybeRotateAfterAppend_cut (lawful : prims.Lawful)
    (represents : Represents prims state image) (whole : state.file = image.bytes prims)
    (room : image.lastSeq < u64Max) (noFiles : state.files.residue = false)
    (cut : attempt.ending = .inRotation .moved) (slow : 250 < attempt.recoveryElapsedMs) :
    (maybeRotateAfterAppend prims state recovery attempt record).unfinished = true := by
  obtain ⟨recovers, -, -, appendable⟩ := recoverClaimWalFile_represents lawful represents false
  have next : checkedSucc image.lastSeq = some (image.lastSeq + 1) := if_pos room
  rw [maybeRotateAfterAppend]
  split
  · next never =>
    simp only [rotationReason, ClaimWalRotationOptions.default, slow, if_true] at never
    split_ifs at never
  · simp only [rotateClaimWal, rotateClaimWalUnderLock, appendable whole,
      recovers.lastObservedSeq, next, cut, noFiles, AppendEnding.rotationLoss,
      replaceActiveWalWithCheckpoint, replaceActiveWal, Bool.not_true, Bool.not_false,
      Bool.false_eq_true, if_false]
    generalize (prims.checkpointToJson _).length = length
    by_cases large : defaultMaxPayloadLen < length <;> simp [large]

theorem walHistory_cut_rotation (lawful : prims.Lawful)
    (size : (prims.toJson attempt.payload).length ≤ defaultMaxPayloadLen)
    (cut : attempt.ending = .inRotation .moved) (slow : 250 < attempt.recoveryElapsedMs) :
    (walHistory prims [.append attempt]).unfinished = true := by
  have pushed := (represents_pristine prims).push rfl size (by decide)
  have recovered : (recoverClaimWalFile prims .pristine [] true).1 = [] ∧
      recoveredAppendable (recoverClaimWalFile prims .pristine [] true).2 = true ∧
      (recoverClaimWalFile prims .pristine [] true).2.lastObservedSeq = 0 := ⟨rfl, rfl, rfl⟩
  have step : (appendClaimWalRecord prims .pristine attempt).unfinished = true := by
    rw [appendClaimWalRecord, if_neg (by simp [cut])]
    simp only [WalState.pristine, recovered, Bool.not_true, Bool.false_eq_true, if_false,
      checkedSucc, lifecyclePayloadBytes, if_neg (Nat.not_lt.mpr size), writeRecord, cut]
    exact maybeRotateAfterAppend_cut lawful pushed
      (@LogImage.bytes_push prims ⟨none, []⟩ attempt.payload).symm (show 1 < u64Max by decide)
      rfl cut slow
  simp [walHistory, WalHistory.step, WalHistory.start, WalHistory.unfinished, step]

end Stuck

def Sample.cutRotation : AppendAttempt :=
  { attempt (.inRotation .moved) with recoveryElapsedMs := 251 }

/-- The first append rotates, since its recovery was slow, and is lost when the
log has been moved away. -/
theorem unfinished_rotation_is_final_first :
    (walHistory Sample.primitives ([.append Sample.cutRotation] ++
      [.recover true, .append (Sample.attempt .returns)])).state =
      (walHistory Sample.primitives [.append Sample.cutRotation]).state :=
  (unfinished_rotation_is_final _ Sample.primitives_lawful _ _ (@walHistory_cut_rotation _
    Sample.cutRotation Sample.primitives_lawful Sample.size rfl (by decide))).1

end ForgeCore.ClaimWal
