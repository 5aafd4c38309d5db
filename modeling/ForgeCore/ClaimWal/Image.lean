import ForgeCore.ClaimWal.Append

/-!
# What the bytes of a claim log say

A sound file is the frame of a checkpoint or nothing, the frames of
consecutively numbered payloads, and possibly the beginning of one more frame.
The decoder reads exactly the whole frames, and a cut of a sound file is a
sound file again.
-/

namespace ForgeCore.ClaimWal

open List ForgeCore.Frame Machine

/-- The checkpoint at the front of a log, and the payloads behind it. -/
structure LogImage where
  checkpoint : Option ClaimWalCheckpointRecord
  payloads : List ClaimWalPayload

section Images

variable (prims : ClaimWalPrimitives)

def frameOf (seq : Nat) (payload : ClaimWalPayload) : Bytes :=
  (claimFormat prims).encode seq payload.operation.recordType (prims.toJson payload)

def checkpointFrame (seq : Nat) (payload : ClaimWalCheckpointPayload) : Bytes :=
  (claimFormat prims).encode seq recordTypeCheckpointRef (prims.checkpointToJson payload)

/-- The frames of a list of payloads, the first of which has number `seq`. -/
def encodeLog : Nat → List ClaimWalPayload → Bytes
  | _, [] => []
  | seq, payload :: rest => frameOf prims seq payload ++ encodeLog (seq + 1) rest

def recordOf (offset seq : Nat) (payload : ClaimWalPayload) : ClaimWalRecord where
  seq := seq
  operation := payload.operation
  payload := payload
  offset := offset
  recordLen := (frameOf prims seq payload).length

/-- The records that stand for the frames, the first of which starts at
`offset`. -/
def logRecords : Nat → Nat → List ClaimWalPayload → List ClaimWalRecord
  | _, _, [] => []
  | offset, seq, payload :: rest =>
    recordOf prims offset seq payload :: logRecords (offset + (frameOf prims seq payload).length)
        (seq + 1) rest

theorem encodeLog_append (seq : Nat) (first second : List ClaimWalPayload) :
    encodeLog prims seq (first ++ second) = encodeLog prims seq first ++
      encodeLog prims (seq + first.length) second := by
  induction first generalizing seq with
  | nil => rfl
  | cons payload rest ih =>
    simp only [cons_append, encodeLog, length_cons, append_assoc]
    rw [ih, Nat.add_right_comm, Nat.add_assoc]

theorem logRecords_append (offset seq : Nat) (first second : List ClaimWalPayload) :
    logRecords prims offset seq (first ++ second) = logRecords prims offset seq first ++
      logRecords prims (offset + (encodeLog prims seq first).length)
      (seq + first.length) second := by
  induction first generalizing offset seq with
  | nil => rfl
  | cons payload rest ih =>
    simp only [cons_append, logRecords, encodeLog, length_cons, length_append]
    rw [ih, Nat.add_right_comm seq, Nat.add_assoc seq, Nat.add_assoc offset]

theorem length_logRecords (offset seq : Nat) (payloads : List ClaimWalPayload) :
    (logRecords prims offset seq payloads).length = payloads.length := by
  induction payloads generalizing offset seq with
  | nil => rfl
  | cons payload rest ih =>
    simp only [logRecords, length_cons, ih]

theorem seqs_logRecords (offset seq : Nat) (payloads : List ClaimWalPayload) :
    (logRecords prims offset seq payloads).map (·.seq) = List.range' seq payloads.length := by
  induction payloads generalizing offset seq with
  | nil => rfl
  | cons payload rest ih =>
    simp only [logRecords, map_cons, length_cons, range'_succ, ih]
    rfl

theorem length_frameOf (seq : Nat) (payload : ClaimWalPayload) :
    (frameOf prims seq payload).length = headerLen + (prims.toJson payload).length + trailerLen :=
  (claimFormat prims).length_encode _ _ _

theorem length_frameOf_pos (seq : Nat) (payload : ClaimWalPayload) :
    0 < (frameOf prims seq payload).length := by
  rw [length_frameOf]
  simp only [headerLen]
  omega

/-- A proper beginning of one frame, possibly empty. -/
def Torn (tail : Bytes) : Prop :=
  tail = [] ∨ ∃ (seq : Nat) (recordType : UInt8) (payload : Bytes) (count : Nat),
      seq ≤ u64Max ∧ payload.length ≤ defaultMaxPayloadLen ∧
        count < ((claimFormat prims).encode seq recordType payload).length ∧ tail =
            ((claimFormat prims).encode seq recordType payload).take count

theorem Torn.take {tail : Bytes} (torn : Torn prims tail)
    (count : Nat) : Torn prims (tail.take count) := by
  rcases torn with rfl | ⟨seq, recordType, payload, cut, seqFits, lenFits, short, rfl⟩
  · exact Or.inl take_nil
  · refine Or.inr ⟨seq, recordType, payload, min count cut, seqFits, lenFits, ?_, ?_⟩
    · omega
    · rw [take_take]

end Images

namespace LogImage

variable (prims : ClaimWalPrimitives) (files : CheckpointFiles)
variable (image : LogImage)

def front : Bytes :=
  match image.checkpoint with
  | none => []
  | some record => checkpointFrame prims record.seq record.payload

def base : Nat :=
  match image.checkpoint with
  | none => 0
  | some record => record.seq

def bytes : Bytes :=
  image.front prims ++ encodeLog prims (image.base + 1) image.payloads

def records : List ClaimWalRecord :=
  logRecords prims (image.front prims).length (image.base + 1) image.payloads

def lastSeq : Nat := image.base + image.payloads.length

def count : Nat := image.checkpoint.toList.length + image.payloads.length

/-- The checkpoint opens with the published files. -/
structure Opens (record : ClaimWalCheckpointRecord) : Prop where
  offset : record.offset = 0
  recordLen : record.recordLen = (checkpointFrame prims record.seq record.payload).length
  size : (prims.checkpointToJson record.payload).length ≤ defaultMaxPayloadLen
  follows : checkedSucc record.payload.lastSeqInSnapshot = some record.seq
  witnessed : files.witness record.payload record.seq = .ok record.snapshot

/-- The image can be written, and its checkpoint names what the files hold. -/
structure Sound : Prop where
  opens : ∀ record ∈ image.checkpoint, Opens prims files record
  sizes : ∀ payload ∈ image.payloads, (prims.toJson payload).length ≤ defaultMaxPayloadLen
  numbers : image.lastSeq ≤ u64Max

end LogImage

section Decoding

variable {prims : ClaimWalPrimitives} {files : CheckpointFiles}

theorem fromRecordType_recordType (operation : ClaimWalOperation) :
    ClaimWalOperation.fromRecordType operation.recordType = some operation := by
  cases operation <;> rfl

theorem recordType_ne_checkpoint (operation : ClaimWalOperation) :
    operation.recordType ≠ recordTypeCheckpointRef := by
  cases operation <;> decide

theorem decodeRecordAt_frameOf (lawful : prims.Lawful) {payload : ClaimWalPayload} {seq : Nat}
    (size : (prims.toJson payload).length ≤ defaultMaxPayloadLen)
    (bound : seq ≤ u64Max) (offset : Nat) (rest : Bytes) :
    decodeRecordAt prims files (frameOf prims seq payload ++ rest) offset seq =
      .known (recordOf prims offset seq payload) := by
  have decoded := (claimFormat prims).decode_encode_append
      payload.operation.recordType rest (lt_of_le_u64Max bound) size
  unfold decodeRecordAt
  rw [frameOf, decoded]
  simp only [if_neg (recordType_ne_checkpoint payload.operation), ne_eq,
    not_true_eq_false, if_false, fromRecordType_recordType,
    decodeLifecycleRecord, lawful.fromJson_toJson]
  rw [recordOf, length_frameOf]

theorem decodeRecordAt_checkpointFrame (lawful : prims.Lawful)
    (opens : LogImage.Opens prims files record) (expectedSeq : Nat) (rest : Bytes) :
    decodeRecordAt prims files (checkpointFrame prims record.seq record.payload ++ rest) 0
      expectedSeq = .checkpoint record := by
  obtain ⟨below, follows⟩ := checkedSucc_eq_some.mp opens.follows
  have seqFits : record.seq ≤ u64Max := by omega
  have decoded := (claimFormat prims).decode_encode_append recordTypeCheckpointRef
      rest (lt_of_le_u64Max seqFits) opens.size
  have lengths := opens.recordLen
  rw [checkpointFrame, Format.length_encode] at lengths
  unfold decodeRecordAt
  rw [checkpointFrame, decoded]
  simp only [if_true, decodeCheckpointRecord, ne_eq, not_true_eq_false,
    if_false, lawful.checkpointFromJson_toJson, opens.follows, opens.witnessed]
  rw [← lengths, ← opens.offset]

variable (files) in
theorem decodeRecordAt_torn
    {tail : Bytes} (torn : Torn prims tail) (nonempty : tail ≠ []) (offset expectedSeq : Nat) :
    ∃ reason : ClaimWalStopReason, reason.isCut = true ∧ reason ≠ .cleanEof ∧
        decodeRecordAt prims files tail offset expectedSeq = .stop reason := by
  rcases torn with empty | ⟨seq, recordType, payload, count, seqFits, lenFits, short, rfl⟩
  · exact absurd empty nonempty
  · have stopped := (claimFormat prims).decode_take_encode recordType
        (lt_of_le_u64Max seqFits) lenFits short
    refine ⟨_, ?_, ?_, by rw [decodeRecordAt, stopped]⟩
    · split <;> rfl
    · split <;> simp [ClaimWalStopReason.ofFrame]

/-- The state of the loop behind the record numbered `last`. -/
def DecodeState.behind (records : List ClaimWalRecord)
    (checkpoint : Option ClaimWalCheckpointRecord) (offset last count : Nat) : DecodeState where
  records := records
  checkpoint := checkpoint
  offset := offset
  expectedSeq := saturatingAdd last 1
  lastObservedSeq := last
  validRecordCount := count

theorem decodeState_initial : DecodeState.initial = .behind [] none 0 0 0 :=
  rfl

variable (files) in
theorem decodeLoop_torn {tail : Bytes} (torn : Torn prims tail) {fuel : Nat}
    (enough : tail.length ≤ fuel) (state : DecodeState) :
    ∃ reason : ClaimWalStopReason, reason.isCut = true ∧ (reason = .cleanEof ↔ tail = []) ∧
        decodeLoop prims files fuel tail state = (state, reason) := by
  cases tail with
  | nil =>
    exact ⟨.cleanEof, rfl, by simp, by cases fuel <;> rfl⟩
  | cons byte rest =>
    obtain ⟨fuel, rfl⟩ : ∃ less, fuel = less + 1 := by
      simp only [length_cons] at enough
      exact ⟨fuel - 1, by omega⟩
    obtain ⟨reason, isCut, notClean, stopped⟩ :=
      decodeRecordAt_torn files torn (by simp) state.offset state.expectedSeq
    refine ⟨reason, isCut, by simp [notClean], ?_⟩
    rw [decodeLoop, stopped]

theorem decodeLoop_known {remaining : Bytes} {records : List ClaimWalRecord}
    {checkpoint : Option ClaimWalCheckpointRecord}
    {fuel offset last count : Nat} {record : ClaimWalRecord} (nonempty : remaining ≠ []) (decoded :
      decodeRecordAt prims files remaining offset (saturatingAdd last 1) = .known record)
    (numbered : record.seq = saturatingAdd last 1) :
    decodeLoop prims files (fuel + 1) remaining (.behind records checkpoint offset last count) =
      decodeLoop prims files fuel (remaining.drop record.recordLen)
      (.behind (records ++ [record]) checkpoint
      (offset + record.recordLen) record.seq (count + 1)) := by
  cases remaining with
  | nil => exact absurd rfl nonempty
  | cons byte rest =>
    rw [decodeLoop]
    simp only [DecodeState.behind, decoded, numbered]

theorem decodeLoop_checkpoint
    {remaining : Bytes} {fuel : Nat} {record : ClaimWalCheckpointRecord} (nonempty : remaining ≠ [])
    (decoded : decodeRecordAt prims files remaining 0 1 = .checkpoint record) :
    decodeLoop prims files (fuel + 1) remaining .initial =
      decodeLoop prims files fuel (remaining.drop record.recordLen)
      (.behind [] (some record) record.recordLen record.seq 1) := by
  cases remaining with
  | nil => exact absurd rfl nonempty
  | cons byte rest =>
    rw [decodeLoop]
    simp only [DecodeState.initial, decoded, Nat.zero_add]
    rfl

/-- The loop reads the frames of a list of payloads and goes on with what
follows them. -/
theorem decodeLoop_encodeLog (lawful : prims.Lawful) (payloads : List ClaimWalPayload) :
    ∀ {fuel offset last count : Nat} {tail : Bytes} {records : List ClaimWalRecord}
      {checkpoint : Option ClaimWalCheckpointRecord}, (∀ payload ∈ payloads,
      (prims.toJson payload).length ≤ defaultMaxPayloadLen) → last + payloads.length ≤ u64Max →
      (encodeLog prims (last + 1) payloads ++ tail).length ≤ fuel → ∃ fuel', tail.length ≤ fuel' ∧
      decodeLoop prims files fuel (encodeLog prims (last + 1) payloads ++ tail)
      (.behind records checkpoint offset last count) = decodeLoop prims files fuel' tail
      (.behind (records ++ logRecords prims offset (last + 1) payloads) checkpoint
      (offset + (encodeLog prims (last + 1) payloads).length)
      (last + payloads.length) (count + payloads.length)) := by
  induction payloads with
  | nil =>
    intro fuel offset last count tail records checkpoint _ _ enough
    exact ⟨fuel, enough, by simp [encodeLog, logRecords]⟩
  | cons payload rest ih =>
    intro fuel offset last count tail records checkpoint sizes bound enough
    simp only [length_cons] at bound
    have positive := length_frameOf_pos prims (last + 1) payload
    have expected : saturatingAdd last 1 = last + 1 := saturatingAdd_of_le (by omega)
    have decoded := @decodeRecordAt_frameOf prims files lawful payload (last + 1)
        (sizes payload mem_cons_self) (by omega) offset
        (encodeLog prims (last + 1 + 1) rest ++ tail)
    simp only [encodeLog, append_assoc, length_append] at enough ⊢
    obtain ⟨fuel, rfl⟩ : ∃ less, fuel = less + 1 := ⟨fuel - 1, by omega⟩
    obtain ⟨fuel', enough', looped⟩ := @ih fuel (offset + (frameOf prims (last + 1) payload).length)
        (last + 1) (count + 1) tail (records ++ [recordOf prims offset (last + 1) payload])
        checkpoint (fun other member => sizes other (mem_cons_of_mem _ member))
        (by omega) (by rw [length_append]; omega)
    have nonempty : frameOf prims (last + 1) payload ++
          (encodeLog prims (last + 1 + 1) rest ++ tail) ≠ [] := by
      simp [ne_nil_of_length_pos positive]
    have turned := @decodeLoop_known prims files _ records checkpoint fuel offset
        last count _ nonempty (by rw [expected]; exact decoded) expected.symm
    simp only [recordOf, drop_left] at turned
    refine ⟨fuel', enough', ?_⟩
    rw [turned]
    refine looped.trans ?_
    simp only [logRecords, recordOf, append_assoc, cons_append,
      nil_append, length_cons, Nat.add_assoc, Nat.add_comm 1 rest.length]

/-- The loop reads the whole frames of a sound image and goes on with what
follows them. -/
theorem decodeLoop_image
    (lawful : prims.Lawful) {image : LogImage} (sound : image.Sound prims files) (tail : Bytes) :
    ∃ fuel, tail.length ≤ fuel ∧ decodeLoop prims files (image.bytes prims ++ tail).length
      (image.bytes prims ++ tail) .initial = decodeLoop prims files fuel tail
      (.behind (image.records prims) image.checkpoint
      (image.bytes prims).length image.lastSeq image.count) := by
  obtain ⟨checkpoint, payloads⟩ := image
  have sizes := sound.sizes
  have numbers := sound.numbers
  cases checkpoint with
  | none =>
    simp only [LogImage.lastSeq, LogImage.base] at numbers
    obtain ⟨fuel, enough, looped⟩ := @decodeLoop_encodeLog prims files lawful payloads _ 0 0 0 tail
        [] none sizes numbers (le_refl _)
    refine ⟨fuel, enough, ?_⟩
    rw [← decodeState_initial] at looped
    simp only [LogImage.bytes, LogImage.front, LogImage.base, nil_append] at looped ⊢
    rw [looped]
    simp [LogImage.records, LogImage.lastSeq, LogImage.count, LogImage.base, LogImage.front]
  | some record =>
    have opens := sound.opens record rfl
    simp only [LogImage.lastSeq, LogImage.base] at numbers
    set frame := checkpointFrame prims record.seq record.payload with isFrame
    have positive : 0 < frame.length := by
      rw [isFrame, checkpointFrame, Format.length_encode]
      simp only [headerLen]
      omega
    obtain ⟨less, enough⟩ : ∃ less, (frame ++ (encodeLog prims (record.seq + 1) payloads
          ++ tail)).length = less + 1 := by
      refine ⟨_, (Nat.succ_pred_eq_of_pos ?_).symm⟩
      simp only [length_append]
      omega
    have nonempty : frame ++ (encodeLog prims (record.seq + 1) payloads ++ tail) ≠ [] := by
      simp [ne_nil_of_length_pos positive]
    have turned := @decodeLoop_checkpoint prims files _ less record nonempty
        (decodeRecordAt_checkpointFrame lawful opens 1 _)
    obtain ⟨fuel, ample, looped⟩ := @decodeLoop_encodeLog prims files lawful payloads less
        record.recordLen record.seq 1 tail [] (some record) sizes numbers
        (by simp only [length_append] at enough ⊢; omega)
    refine ⟨fuel, ample, ?_⟩
    rw [opens.recordLen, ← isFrame, drop_left] at turned
    rw [opens.recordLen, ← isFrame] at looped
    simp only [LogImage.bytes, LogImage.front, LogImage.base, append_assoc, ← isFrame]
    rw [enough, turned, looped]
    simp [LogImage.records, LogImage.lastSeq, LogImage.count,
      LogImage.base, LogImage.front, ← isFrame]

theorem decodePrefix_of_stop
    (lawful : prims.Lawful) {image : LogImage}
    (sound : image.Sound prims files) {tail : Bytes}
    (stops : ∀ fuel, tail.length ≤ fuel → ∀ state : DecodeState,
      state.offset = (image.bytes prims).length →
        decodeLoop prims files fuel tail state = (state, reason)) :
    decodePrefix prims files (image.bytes prims ++ tail) =
      { records := image.records prims
        checkpoint := image.checkpoint
        lastObservedSeq := image.lastSeq
        validRecordCount := image.count
        lastGoodOffset := (image.bytes prims).length
        originalLen := (image.bytes prims ++ tail).length
        repaired := false
        stopReason := reason } := by
  obtain ⟨fuel, enough, looped⟩ := decodeLoop_image lawful sound tail
  rw [decodePrefix, looped, stops fuel enough _ rfl]
  rfl

theorem decodePrefix_sound
    (lawful : prims.Lawful) {image : LogImage}
    (sound : image.Sound prims files) {tail : Bytes}
    (torn : Torn prims tail) :
    ∃ reason : ClaimWalStopReason, reason.isCut = true ∧ (reason = .cleanEof ↔ tail = []) ∧
        decodePrefix prims files (image.bytes prims ++ tail) =
          { records := image.records prims
            checkpoint := image.checkpoint
            lastObservedSeq := image.lastSeq
            validRecordCount := image.count
            lastGoodOffset := (image.bytes prims).length
            originalLen := (image.bytes prims ++ tail).length
            repaired := false
            stopReason := reason } := by
  obtain ⟨fuel, enough, looped⟩ := decodeLoop_image lawful sound tail
  obtain ⟨reason, isCut, clean, stopped⟩ := decodeLoop_torn files torn enough
      (.behind (image.records prims) image.checkpoint
        (image.bytes prims).length image.lastSeq image.count)
  refine ⟨reason, isCut, clean, ?_⟩
  rw [decodePrefix, looped, stopped]
  rfl

end Decoding

section Cutting

variable {prims : ClaimWalPrimitives} {files : CheckpointFiles}

def ClaimWalRecord.endsBy (position : Nat) (record : ClaimWalRecord) : Bool :=
  record.offset + record.recordLen ≤ position

theorem offset_le_of_mem_logRecords
    {offset seq : Nat} {payloads : List ClaimWalPayload} {record : ClaimWalRecord}
    (member : record ∈ logRecords prims offset seq payloads) : offset ≤ record.offset := by
  induction payloads generalizing offset seq with
  | nil => cases member
  | cons payload rest ih =>
    rcases List.mem_cons.mp member with rfl | later
    · exact le_refl _
    · have behind := ih later
      omega

theorem filter_logRecords_inside
    {offset seq position : Nat} {payload : ClaimWalPayload} {rest : List ClaimWalPayload} (inside :
      position < offset + (frameOf prims seq payload).length) :
    (logRecords prims offset seq (payload :: rest)).filter
      (ClaimWalRecord.endsBy position) = [] := by
  rw [filter_eq_nil_iff]
  intro record member
  have ends : position < record.offset + record.recordLen := by
    rcases List.mem_cons.mp member with rfl | later
    · exact inside
    · have behind := offset_le_of_mem_logRecords later
      omega
  simpa [ClaimWalRecord.endsBy] using ends

/-- A cut leaves the frames of the first payloads and the beginning of the
next frame. -/
theorem encodeLog_cut (payloads : List ClaimWalPayload) :
    ∀ {offset seq : Nat} {tail : Bytes}, (∀ payload ∈ payloads,
      (prims.toJson payload).length ≤ defaultMaxPayloadLen) → seq + payloads.length ≤ u64Max + 1 →
      Torn prims tail → ∀ position : Nat, ∃ (kept : Nat) (torn : Bytes),
      (encodeLog prims seq payloads ++ tail).take position =
      encodeLog prims seq (payloads.take kept) ++ torn ∧ Torn prims torn ∧
      logRecords prims offset seq (payloads.take kept) =
      (logRecords prims offset seq payloads).filter
      (ClaimWalRecord.endsBy (offset + position)) := by
  induction payloads with
  | nil =>
    intro offset seq tail _ _ torn position
    exact ⟨0, tail.take position, rfl, torn.take _ position, rfl⟩
  | cons payload rest ih =>
    intro offset seq tail sizes bound torn position
    simp only [length_cons] at bound
    by_cases inside : position < (frameOf prims seq payload).length
    · refine ⟨0, (frameOf prims seq payload).take position, ?_,
        Or.inr ⟨seq, _, _, position, by omega, sizes payload mem_cons_self, inside, rfl⟩, ?_⟩
      · rw [encodeLog, append_assoc, take_append_of_le_length (Nat.le_of_lt inside)]
        rfl
      · rw [filter_logRecords_inside (by omega)]
        rfl
    · obtain ⟨kept, left, cut, leftTorn, records⟩ := @ih
          (offset + (frameOf prims seq payload).length) (seq + 1) tail
          (fun other member => sizes other (mem_cons_of_mem _ member)) (by omega) torn
          (position - (frameOf prims seq payload).length)
      have whole : offset + (frameOf prims seq payload).length +
              (position - (frameOf prims seq payload).length) = offset + position := by
        omega
      refine ⟨kept + 1, left, ?_, leftTorn, ?_⟩
      · rw [encodeLog, append_assoc, take_append,
          take_of_length_le (by omega), cut, take_succ_cons, encodeLog, append_assoc]
      · have ends : (recordOf prims offset seq payload).endsBy (offset + position) = true := by
          apply decide_eq_true
          simp only [recordOf]
          omega
        rw [whole] at records
        rw [take_succ_cons, logRecords, records, logRecords, filter_cons_of_pos ends]

theorem LogImage.Sound.take
    {image : LogImage} (sound : image.Sound prims files) (kept : Nat) :
    LogImage.Sound prims files
      { image with payloads := image.payloads.take kept } := by
  refine ⟨sound.opens, ?_, ?_⟩
  · intro payload member
    exact sound.sizes payload (mem_of_mem_take member)
  · have numbers := sound.numbers
    have shorter : (image.payloads.take kept).length ≤ image.payloads.length :=
      length_take_le' kept image.payloads
    simp only [LogImage.lastSeq, LogImage.base] at numbers ⊢
    omega

theorem LogImage.sound_empty : LogImage.Sound prims files ⟨none, []⟩ :=
  ⟨by simp, by simp, Nat.zero_le _⟩

theorem LogImage.Sound.cut {image : LogImage} (sound : image.Sound prims files) {tail : Bytes}
    (torn : Torn prims tail) (position : Nat) :
    ∃ (left : LogImage) (leftTail : Bytes), (image.bytes prims ++ tail).take position =
      left.bytes prims ++ leftTail ∧ left.Sound prims files ∧ Torn prims leftTail ∧
      left.records prims = (image.records prims).filter (ClaimWalRecord.endsBy position) := by
  by_cases inside : position < (image.front prims).length
  · -- The checkpoint itself is cut.
    refine ⟨⟨none, []⟩, (image.front prims).take position, ?_, LogImage.sound_empty, ?_, ?_⟩
    · rw [LogImage.bytes, append_assoc, take_append_of_le_length (Nat.le_of_lt inside)]
      rfl
    · cases isCheckpoint : image.checkpoint with
      | none => simp [LogImage.front, isCheckpoint] at inside
      | some record =>
        have opens := sound.opens record isCheckpoint
        obtain ⟨below, follows⟩ := checkedSucc_eq_some.mp opens.follows
        rw [LogImage.front, isCheckpoint] at inside ⊢
        exact Or.inr ⟨record.seq, _, _, position, by omega, opens.size, inside, rfl⟩
    · refine (List.filter_eq_nil_iff.mpr ?_).symm
      intro record member
      have behind := offset_le_of_mem_logRecords member
      simp only [ClaimWalRecord.endsBy, decide_eq_true_eq]
      omega
  · have numbers := sound.numbers
    obtain ⟨kept, left, cut, leftTorn, records⟩ := @encodeLog_cut prims image.payloads
        (image.front prims).length (image.base + 1) tail sound.sizes
        (by simp only [LogImage.lastSeq] at numbers; omega) torn
        (position - (image.front prims).length)
    have whole : (image.front prims).length +
          (position - (image.front prims).length) = position := by
      omega
    rw [whole] at records
    refine ⟨{ image with payloads := image.payloads.take kept }, left, ?_,
      sound.take kept, leftTorn, records⟩
    rw [LogImage.bytes, append_assoc, take_append,
      take_of_length_le (by omega), cut, ← append_assoc]
    rfl

end Cutting

end ForgeCore.ClaimWal
