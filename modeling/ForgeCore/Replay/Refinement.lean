import ForgeCore.Replay.Calls

/-!
# The file refines a list of payloads

The file is the encoding of a list of payloads, numbered from one, possibly
followed by the beginning of one more record.
-/

namespace ForgeCore.Replay

open List Text Digest ForgeCore.Frame Machine

/-- Record `seq` of the log, without its place in the file. -/
def applyPayload (reservations : Reservations) (seq : Nat) (payload : ReplayWalPayload) :
    Option Reservations :=
  applyRecord reservations ⟨seq, payload.operation, payload, 0, 0⟩

def applyLog : Nat → Reservations → List ReplayWalPayload → Option Reservations
  | _, reservations, [] => some reservations
  | seq, reservations, payload :: rest =>
    (applyPayload reservations seq payload).bind fun next =>
      applyLog (seq + 1) next rest

theorem applyLog_append
    (seq : Nat) (reservations : Reservations) (first second : List ReplayWalPayload) :
    applyLog seq reservations (first ++ second) = (applyLog seq reservations first).bind fun next =>
      applyLog (seq + first.length) next second := by
  induction first generalizing seq reservations with
  | nil => rfl
  | cons payload rest ih =>
    simp only [cons_append, applyLog, length_cons]
    cases applyPayload reservations seq payload with
    | none => rfl
    | some next =>
      simp only [Option.bind_some]
      rw [ih, Nat.add_right_comm, Nat.add_assoc]

section Representation

variable (prims : ReplayPrimitives)

/-- A payload that the reader accepts and the writer can frame. -/
structure WellFormed (payload : ReplayWalPayload) : Prop where
  schemaVersion : payload.schemaVersion = replayWalSchemaVersion
  keyHash : isSha256Token payload.keyHash = true
  intentDigest : isSha256Token payload.intentDigest = true
  commitDigest : isSha256Token payload.commitDigest = true
  length : (prims.toJson payload).length ≤ maxPayloadLen

def frameOf (seq : Nat) (payload : ReplayWalPayload) : Bytes :=
  (replayFormat prims).encode seq payload.operation.recordType (prims.toJson payload)

def encodeLog : Nat → List ReplayWalPayload → Bytes
  | _, [] => []
  | seq, payload :: rest => frameOf prims seq payload ++ encodeLog (seq + 1) rest

theorem encodeLog_append (seq : Nat) (first second : List ReplayWalPayload) :
    encodeLog prims seq (first ++ second) = encodeLog prims seq first ++
      encodeLog prims (seq + first.length) second := by
  induction first generalizing seq with
  | nil => rfl
  | cons payload rest ih =>
    simp only [cons_append, encodeLog, length_cons, append_assoc]
    rw [ih, Nat.add_right_comm, Nat.add_assoc]

/-- The beginning of one more record, possibly empty and never the whole. -/
inductive TornTail (log : List ReplayWalPayload) : Bytes → Prop
  | clean : TornTail log []
  | torn {payload : ReplayWalPayload} {cut : Nat}
      (room : log.length < replayWalMaxRecords)
      (length : (prims.toJson payload).length ≤ maxPayloadLen)
      (short : cut < (frameOf prims (log.length + 1) payload).length)
      (fits :
        (encodeLog prims 1 log).length + cut ≤ replayWalMaxBytes) :
      TornTail log
        ((frameOf prims (log.length + 1) payload).take cut)

/-- The file encodes the log, up to a torn tail. -/
structure Represents (file : Bytes) (log : List ReplayWalPayload)
    (reservations : Reservations) : Prop where
  wellFormed : ∀ payload ∈ log, WellFormed prims payload
  applied : applyLog 1 ∅ log = some reservations
  recordCount : log.length ≤ replayWalMaxRecords
  size : (encodeLog prims 1 log).length ≤ replayWalMaxBytes
  bytes :
    ∃ tail, TornTail prims log tail ∧
      file = encodeLog prims 1 log ++ tail

theorem represents_empty : Represents prims [] [] ∅ where
  wellFormed := by simp
  applied := rfl
  recordCount := Nat.zero_le _
  size := Nat.zero_le _
  bytes := ⟨[], .clean, rfl⟩

end Representation

section Decoding

variable {prims : ReplayPrimitives}

theorem fromRecordType_recordType (operation : ReplayWalOperation) :
    ReplayWalOperation.fromRecordType operation.recordType = some operation := by
  cases operation <;> rfl

theorem length_frameOf (seq : Nat) (payload : ReplayWalPayload) :
    (frameOf prims seq payload).length = headerLen + (prims.toJson payload).length + trailerLen :=
  (replayFormat prims).length_encode _ _ _

theorem frameOf_ne_nil (seq : Nat) (payload : ReplayWalPayload) :
    frameOf prims seq payload ≠ [] := by
  apply ne_nil_of_length_pos
  rw [length_frameOf]
  simp only [headerLen]
  omega

theorem seq_fits (bound : seq ≤ replayWalMaxRecords) : seq < 256 ^ 8 :=
  lt_of_le_of_lt bound (by decide)

theorem decodeRecordAt_frameOf
    (lawful : prims.Lawful) {payload : ReplayWalPayload}
    (wellFormed : WellFormed prims payload) {seq : Nat}
    (bound : seq ≤ replayWalMaxRecords) (offset : Nat) (rest : Bytes) :
    decodeRecordAt prims (frameOf prims seq payload ++ rest)
        offset seq =
      .ok
        { seq := seq
          operation := payload.operation
          payload := payload
          offset := offset
          recordLen := (frameOf prims seq payload).length } := by
  have decoded := (replayFormat prims).decode_encode_append
      payload.operation.recordType rest (seq_fits bound) wellFormed.length
  unfold decodeRecordAt
  rw [frameOf, decoded]
  simp only [ne_eq, not_true_eq_false, if_false, fromRecordType_recordType,
    lawful.fromJson_toJson, wellFormed.schemaVersion, wellFormed.keyHash,
    wellFormed.intentDigest, wellFormed.commitDigest]
  simp [replayFormat]

/-- The records that stand for a log which starts at `offset`. -/
def logRecords (prims : ReplayPrimitives) : Nat → Nat → List ReplayWalPayload → List ReplayWalRecord
  | _, _, [] => []
  | offset, seq, payload :: rest =>
    let recordLen := (frameOf prims seq payload).length
    { seq := seq
      operation := payload.operation
      payload := payload
      offset := offset
      recordLen := recordLen } ::
      logRecords prims (offset + recordLen) (seq + 1) rest

theorem length_logRecords (offset seq : Nat) (log : List ReplayWalPayload) :
    (logRecords prims offset seq log).length = log.length := by
  induction log generalizing offset seq with
  | nil => rfl
  | cons payload rest ih =>
    simp only [logRecords, length_cons, ih]

theorem lastSeq_logRecords (offset last : Nat) (log : List ReplayWalPayload) :
    ((logRecords prims offset (last + 1) log).getLast?.map
      (·.seq)).getD last = last + log.length := by
  induction log generalizing offset last with
  | nil => rfl
  | cons payload rest ih =>
    have tail := ih (offset + (frameOf prims (last + 1) payload).length) (last + 1)
    simp only [logRecords, getLast?_cons, length_cons]
    cases final : (logRecords prims (offset + (frameOf prims (last + 1) payload).length)
          (last + 1 + 1) rest).getLast? with
    | none =>
      simp only [final, Option.map_none, Option.getD_none] at tail
      simp only [Option.getD_none, Option.map_some, Option.getD_some]
      omega
    | some record =>
      simp only [final, Option.map_some, Option.getD_some] at tail
      simp only [Option.getD_some, Option.map_some, tail]
      omega

variable {reservations : Reservations} {file : Bytes} {log : List ReplayWalPayload}

theorem decodeLoop_step
    {fuel maxRecords : Nat} {remaining : Bytes} {state : DecodeState}
    {record : ReplayWalRecord}
    (nonempty : remaining ≠ [])
    (room : state.records.length < maxRecords)
    (decoded :
      decodeRecordAt prims remaining state.offset state.expectedSeq =
        .ok record)
    (applied :
      applyRecord state.reservations record = some reservations) :
    decodeLoop prims maxRecords (fuel + 1) remaining state =
      (let rest := remaining.drop record.recordLen
       let next : DecodeState :=
        { records := state.records ++ [record]
          reservations := reservations
          offset := state.offset + record.recordLen
          expectedSeq := state.expectedSeq }
       if rest.isEmpty then
         (next, .cleanEof)
       else
         match checkedSucc state.expectedSeq with
         | none => (next, .sequenceGap)
         | some nextSeq =>
           decodeLoop prims maxRecords fuel rest
             { next with expectedSeq := nextSeq }) := by
  cases remaining with
  | nil => exact absurd rfl nonempty
  | cons byte rest =>
    rw [decodeLoop, if_neg (Nat.not_le.mpr room), decoded]
    cases checkedSucc state.expectedSeq with
    | none => simp [applied]
    | some nextSeq => simp [applied]

theorem checkedSucc_of_le (bound : value ≤ replayWalMaxRecords) :
    checkedSucc value = some (value + 1) := by
  rw [checkedSucc, if_pos (lt_of_le_of_lt bound (by decide))]

/-- The loop reads a whole log and goes on with what follows it.  The expected
number is only advanced when something does follow. -/
theorem decodeLoop_encodeLog
    (lawful : prims.Lawful) (log : List ReplayWalPayload) :
    ∀ {fuel : Nat} {tail : Bytes} {state : DecodeState}
      {reservations : Reservations},
      (∀ payload ∈ log, WellFormed prims payload) →
      applyLog state.expectedSeq state.reservations log =
        some reservations →
      state.expectedSeq = state.records.length + 1 →
      state.records.length + log.length ≤ replayWalMaxRecords →
      (encodeLog prims state.expectedSeq log ++ tail).length ≤ fuel →
      ∃ fuel' expectedSeq',
        tail.length ≤ fuel' ∧
        (tail ≠ [] → expectedSeq' = state.expectedSeq + log.length) ∧
        decodeLoop prims replayWalMaxRecords fuel
            (encodeLog prims state.expectedSeq log ++ tail) state =
          decodeLoop prims replayWalMaxRecords fuel' tail
            { records :=
                state.records ++
                  logRecords prims state.offset state.expectedSeq log
              reservations := reservations
              offset :=
                state.offset +
                  (encodeLog prims state.expectedSeq log).length
              expectedSeq := expectedSeq' } := by
  induction log with
  | nil =>
    intro fuel tail state reservations _ applied _ _ enough
    simp only [applyLog, Option.some.injEq] at applied
    subst applied
    refine ⟨fuel, state.expectedSeq, enough, fun _ => rfl, ?_⟩
    simp only [encodeLog, logRecords, nil_append, append_nil, length_nil, Nat.add_zero]
  | cons payload rest ih =>
    intro fuel tail state reservations wellFormed applied numbered room enough
    simp only [length_cons] at room
    simp only [applyLog, Option.bind_eq_some_iff] at applied
    obtain ⟨middle, first, remaining⟩ := applied
    have bound : state.expectedSeq ≤ replayWalMaxRecords := by omega
    have frameLength : 0 < (frameOf prims state.expectedSeq payload).length :=
      List.length_pos_iff.mpr (frameOf_ne_nil state.expectedSeq payload)
    have decoded := decodeRecordAt_frameOf lawful (wellFormed payload (by simp)) bound state.offset
        (encodeLog prims (state.expectedSeq + 1) rest ++ tail)
    simp only [encodeLog, append_assoc, length_append] at enough ⊢
    obtain ⟨fuel, rfl⟩ : ∃ less, fuel = less + 1 := ⟨fuel - 1, by omega⟩
    rw [decodeLoop_step (by simp [frameOf_ne_nil]) (by omega) decoded first]
    simp only [drop_left]
    by_cases isLast : encodeLog prims (state.expectedSeq + 1) rest ++ tail = []
    · -- Nothing follows: the loop stops without advancing the number.
      obtain ⟨noRest, noTail⟩ := List.append_eq_nil_iff.mp isLast
      have restEmpty : rest = [] := by
        cases rest with
        | nil => rfl
        | cons next more =>
          simp only [encodeLog, append_eq_nil_iff] at noRest
          exact absurd noRest.1 (frameOf_ne_nil _ _)
      subst noTail restEmpty
      simp only [applyLog, Option.some.injEq] at remaining
      subst remaining
      refine ⟨0, state.expectedSeq, by simp, fun absurdity =>
          absurd rfl absurdity, ?_⟩
      simp [encodeLog, logRecords, decodeLoop]
    · have notEmpty : (encodeLog prims (state.expectedSeq + 1) rest ++ tail).isEmpty = false := by
        simpa [isEmpty_eq_false_iff] using isLast
      rw [if_neg (by simp [notEmpty]), checkedSucc_of_le bound]
      obtain ⟨fuel', expectedSeq', enough', advanced, looped⟩ := @ih fuel tail
            { records :=
                state.records ++
                  [{ seq := state.expectedSeq
                     operation := payload.operation
                     payload := payload
                     offset := state.offset
                     recordLen :=
                      (frameOf prims state.expectedSeq
                        payload).length }]
              reservations := middle
              offset :=
                state.offset +
                  (frameOf prims state.expectedSeq payload).length
              expectedSeq := state.expectedSeq + 1 }
          reservations (fun other member => wellFormed other (by simp [member]))
          remaining (by simp [numbered]) (by simp; omega) (by simp only [length_append]; omega)
      refine ⟨fuel', expectedSeq', enough', fun present => ?_, ?_⟩
      · simp only [advanced present, length_cons]
        omega
      · simp only [looped, logRecords, append_assoc, cons_append, nil_append, Nat.add_assoc]

theorem decodeLoop_torn {fuel cut : Nat} {payload : ReplayWalPayload} {state : DecodeState}
    (room : state.records.length < replayWalMaxRecords)
    (seqBound : state.expectedSeq ≤ replayWalMaxRecords)
    (length : (prims.toJson payload).length ≤ maxPayloadLen) (positive : 0 < cut)
    (short : cut < (frameOf prims state.expectedSeq payload).length) (enough : cut ≤ fuel) :
    ∃ reason, isSafeTornTail reason = true ∧ decodeLoop prims replayWalMaxRecords fuel
      ((frameOf prims state.expectedSeq payload).take cut) state = (state, reason) := by
  obtain ⟨fuel, rfl⟩ : ∃ less, fuel = less + 1 := ⟨fuel - 1, by omega⟩
  have stopped := (replayFormat prims).decode_take_encode
      payload.operation.recordType (seq_fits seqBound) length short
  have nonempty : (frameOf prims state.expectedSeq payload).take cut ≠ [] := by
    apply ne_nil_of_length_pos
    rw [length_take]
    omega
  set tail := (frameOf prims state.expectedSeq payload).take cut with tailEq
  have undecoded : decodeRecordAt prims tail state.offset state.expectedSeq = .error (.ofFrame
          (if cut < headerLen then .truncatedHeader else .truncatedPayload)) := by
    rw [decodeRecordAt, tailEq, frameOf, stopped]
  refine ⟨.ofFrame (if cut < headerLen then .truncatedHeader else .truncatedPayload), ?_, ?_⟩
  · split <;> rfl
  · clear_value tail
    cases tail with
    | nil => exact absurd rfl nonempty
    | cons byte rest =>
      rw [decodeLoop, if_neg (Nat.not_le.mpr room), undecoded]

theorem decodePrefix_represents
    (lawful : prims.Lawful)
    (represents : Represents prims file log reservations) :
    ∃ reason,
      (file = encodeLog prims 1 log ∧ reason = .cleanEof ∨
        (encodeLog prims 1 log).length < file.length ∧
          isSafeTornTail reason = true) ∧
      decodePrefix prims file =
        { records := logRecords prims 0 1 log
          reservations := reservations
          lastObservedSeq := log.length
          validRecordCount := log.length
          lastGoodOffset := (encodeLog prims 1 log).length
          originalLen := file.length
          repaired := false
          stopReason := reason } := by
  obtain ⟨tail, torn, fileEq⟩ := represents.bytes
  obtain ⟨fuel, expectedSeq, enough, advanced, looped⟩ :=
    @decodeLoop_encodeLog prims lawful log file.length tail .initial
      reservations represents.wellFormed represents.applied rfl
      (by simpa [DecodeState.initial] using represents.recordCount)
      (by rw [fileEq]; exact Nat.le_refl _)
  simp only [DecodeState.initial, nil_append, Nat.zero_add] at looped advanced
  have lastSeq := @lastSeq_logRecords prims 0 0 log
  simp only [Nat.zero_add] at lastSeq
  -- The loop leaves its state as it is at the tail, whichever the tail is.
  suffices ended : ∃ reason, (file = encodeLog prims 1 log ∧ reason = .cleanEof ∨
        (encodeLog prims 1 log).length < file.length ∧ isSafeTornTail reason = true) ∧
      decodeLoop prims replayWalMaxRecords fuel tail ⟨logRecords prims 0 1 log, reservations,
            (encodeLog prims 1 log).length, expectedSeq⟩ = (⟨logRecords prims 0 1 log, reservations,
            (encodeLog prims 1 log).length, expectedSeq⟩, reason) by
    obtain ⟨reason, kind, stopped⟩ := ended
    refine ⟨reason, kind, ?_⟩
    rw [decodePrefix, decodePrefixWithRecordLimit]
    simp only [DecodeState.initial, fileEq] at looped ⊢
    rw [looped, stopped]
    simp only [lastSeq, length_logRecords]
  cases torn with
  | clean =>
    refine ⟨.cleanEof, Or.inl ⟨by simpa using fileEq, rfl⟩, ?_⟩
    cases fuel <;> rfl
  | torn room length short fits =>
    rename_i payload cut
    rcases Nat.eq_zero_or_pos cut with rfl | positive
    · refine ⟨.cleanEof, Or.inl ⟨by simpa using fileEq, rfl⟩, ?_⟩
      cases fuel <;> rfl
    · have tailLength : ((frameOf prims (log.length + 1) payload).take cut).length = cut :=
        length_take_of_le (Nat.le_of_lt short)
      have number : expectedSeq = log.length + 1 := by
        rw [advanced]
        · omega
        · apply ne_nil_of_length_pos
          rw [tailLength]
          exact positive
      subst number
      obtain ⟨reason, safe, stopped⟩ := @decodeLoop_torn prims fuel cut payload
          ⟨logRecords prims 0 1 log, reservations, (encodeLog prims 1 log).length, log.length + 1⟩
          (by simpa [length_logRecords] using room) (by simpa using room)
          length positive short (by rwa [tailLength] at enough)
      refine ⟨reason, Or.inr ⟨?_, safe⟩, stopped⟩
      rw [fileEq, length_append, tailLength]
      omega

theorem Represents.file_size (represents : Represents prims file log reservations) :
    file.length ≤ replayWalMaxBytes := by
  obtain ⟨tail, torn, fileEq⟩ := represents.bytes
  rw [fileEq, length_append]
  cases torn with
  | clean =>
    simpa using represents.size
  | torn room length short fits =>
    rw [length_take_of_le (Nat.le_of_lt short)]
    exact fits

/-- What recovery reports about a log, whatever happened to the last append. -/
structure Recovers (prims : ReplayPrimitives)
    (recovery : ReplayWalRecovery) (log : List ReplayWalPayload)
    (reservations : Reservations) : Prop where
  isClean : recovery.isClean = true
  reservations : recovery.reservations = reservations
  lastObservedSeq : recovery.lastObservedSeq = log.length
  validRecordCount : recovery.validRecordCount = log.length
  lastGoodOffset :
    recovery.lastGoodOffset = (encodeLog prims 1 log).length

/-- Recovery with repair succeeds on every represented file and leaves exactly
the encoded log. -/
theorem recoverReplayWal_represents
    (lawful : prims.Lawful) (represents : Represents prims file log reservations) :
    ∃ recovery, recoverReplayWal prims file true = .ok (encodeLog prims 1 log, recovery) ∧
      Recovers prims recovery log reservations := by
  obtain ⟨reason, kind, decoded⟩ := decodePrefix_represents lawful represents
  have sizeFits : ¬ replayWalMaxBytes < file.length := Nat.not_lt.mpr represents.file_size
  rw [recoverReplayWal, if_neg sizeFits, decoded]
  rcases kind with ⟨whole, rfl⟩ | ⟨shorter, safe⟩
  · rw [if_neg (by simp), if_neg (by simp [whole])]
    refine ⟨_, by rw [whole], ?_⟩
    exact ⟨rfl, rfl, rfl, rfl, rfl⟩
  · have notCapacity : reason ≠ .recordCapacityExceeded := by
      rintro rfl
      cases safe
    obtain ⟨tail, _, fileEq⟩ := represents.bytes
    have cutBack : file.take (encodeLog prims 1 log).length = encodeLog prims 1 log := by
      rw [fileEq, take_left]
    rw [if_neg notCapacity, if_pos (by simp [safe, shorter])]
    refine ⟨_, by rw [cutBack], ?_⟩
    exact ⟨by simp [ReplayWalRecovery.isClean, safe], rfl, rfl, rfl, rfl⟩

end Decoding

end ForgeCore.Replay
