import ForgeCore.Replay.SingleUse

/-!
# What recovery does to the bytes of a replay log

The log may hold any bytes.  Recovery removes a record that ends before its
last byte and follows a valid log, and nothing else; every other damage makes
the calls fail.  What the calls append stays within the limits of the reader.
-/

namespace ForgeCore.Replay

open List Text Digest ForgeCore.Frame Machine Checked

/-- Whole records with the numbers from one on, whose transitions apply. -/
inductive ValidLog (prims : ReplayPrimitives) : Bytes → List ReplayWalRecord → Reservations → Prop
  | empty : ValidLog prims [] [] ∅
  | append {bytes frame : Bytes} {records : List ReplayWalRecord}
      {reservations next : Reservations} {record : ReplayWalRecord}
      (before : ValidLog prims bytes records reservations)
      (decoded : decodeRecordAt prims frame bytes.length (records.length + 1) = .ok record)
      (whole : record.recordLen = frame.length)
      (applied : applyRecord reservations record = some next) :
      ValidLog prims (bytes ++ frame) (records ++ [record]) next

section Decoding

variable {prims : ReplayPrimitives}

variable {remaining whole tail file recovered : Bytes}
    {offset expectedSeq fuel : Nat} {record : ReplayWalRecord}
    {reason : ReplayWalStopReason} {state : DecodeState}
    {records : List ReplayWalRecord} {reservations : Reservations}
    {repair : Bool} {recovery : ReplayWalRecovery} {keyHash : String} {prepared : PreparedAppend}

theorem decodeRecordAt_frame
    (decoded : decodeRecordAt prims remaining offset expectedSeq = .ok record) :
    ∃ frame, (replayFormat prims).decode remaining = .ok frame ∧
      record.recordLen = frame.recordLen := by
  rw [decodeRecordAt] at decoded
  split at decoded
  · cases decoded
  · next frame framed =>
    refine ⟨frame, framed, ?_⟩
    split at decoded
    · cases decoded
    split at decoded
    · cases decoded
    split at decoded
    · cases decoded
    split at decoded
    · cases decoded
    · cases decoded
      rfl

theorem decodeRecordAt_congr (decodesFirst : (replayFormat prims).decode first = .ok frame)
    (decodesSecond : (replayFormat prims).decode second = .ok frame) :
    decodeRecordAt prims first offset expectedSeq =
      decodeRecordAt prims second offset expectedSeq := by
  rw [decodeRecordAt, decodeRecordAt, decodesFirst, decodesSecond]

theorem decodeRecordAt_append
    (decoded : decodeRecordAt prims remaining offset expectedSeq = .ok record) (more : Bytes) :
    decodeRecordAt prims (remaining ++ more) offset expectedSeq = .ok record ∧
      record.recordLen ≤ remaining.length ∧ 0 < record.recordLen := by
  obtain ⟨frame, framed, length⟩ := decodeRecordAt_frame decoded
  obtain ⟨longer, bound, positive⟩ := (replayFormat prims).decode_append framed more
  rw [decodeRecordAt_congr longer framed, length]
  exact ⟨decoded, bound, positive⟩

theorem decodeRecordAt_take
    (decoded : decodeRecordAt prims remaining offset expectedSeq = .ok record) :
    decodeRecordAt prims (remaining.take record.recordLen) offset expectedSeq = .ok record := by
  obtain ⟨frame, framed, length⟩ := decodeRecordAt_frame decoded
  rw [length, decodeRecordAt_congr ((replayFormat prims).decode_take framed) framed]
  exact decoded

theorem decodeRecordAt_reason
    (refused : decodeRecordAt prims remaining offset expectedSeq = .error reason) :
    reason ≠ .cleanEof ∧ reason ≠ .recordCapacityExceeded := by
  rw [decodeRecordAt] at refused
  split at refused
  · next stop _ =>
    cases refused
    cases stop <;> decide
  · repeat' split at refused
    all_goals
      cases refused
      try decide

/-- Why the loop stops behind the records that it has read. -/
inductive StopsAt (prims : ReplayPrimitives)
    (records : List ReplayWalRecord) (reservations : Reservations)
    (offset : Nat) : Bytes → ReplayWalStopReason → Prop
  | clean : StopsAt prims records reservations offset [] .cleanEof
  | full {tail : Bytes} (nonempty : tail ≠ [])
      (count : replayWalMaxRecords ≤ records.length) :
      StopsAt prims records reservations offset tail
        .recordCapacityExceeded
  | undecoded {tail : Bytes} {reason : ReplayWalStopReason}
      (nonempty : tail ≠ [])
      (refused : decodeRecordAt prims tail offset (records.length + 1) = .error reason) :
      StopsAt prims records reservations offset tail reason
  | refused {tail : Bytes} {record : ReplayWalRecord} (nonempty : tail ≠ [])
      (decoded : decodeRecordAt prims tail offset (records.length + 1) = .ok record)
      (refused : applyRecord reservations record = none) :
      StopsAt prims records reservations offset tail .invalidTransition

/-- The loop reads a valid log and stops behind it. -/
structure ReadsTo (prims : ReplayPrimitives) (bytes : Bytes)
    (state : DecodeState) (reason : ReplayWalStopReason) : Prop where
  split : ∃ whole tail, bytes = whole ++ tail ∧
      ValidLog prims whole state.records state.reservations ∧
      state.offset = whole.length ∧
      StopsAt prims state.records state.reservations state.offset tail
        reason
  count : state.records.length ≤ replayWalMaxRecords

theorem decodeLoop_stops
    (nonempty : remaining ≠ []) (room : state.records.length < replayWalMaxRecords) (stopped :
      decodeRecordAt prims remaining state.offset state.expectedSeq = .error reason) :
    decodeLoop prims replayWalMaxRecords (fuel + 1) remaining state = (state, reason) := by
  cases remaining with
  | nil => exact absurd rfl nonempty
  | cons byte rest =>
    rw [decodeLoop, if_neg (Nat.not_le.mpr room), stopped]

theorem decodeLoop_refuses
    (nonempty : remaining ≠ []) (room : state.records.length < replayWalMaxRecords) (decoded :
      decodeRecordAt prims remaining state.offset state.expectedSeq = .ok record)
    (refused : applyRecord state.reservations record = none) :
    decodeLoop prims replayWalMaxRecords (fuel + 1) remaining state =
      (state, .invalidTransition) := by
  cases remaining with
  | nil => exact absurd rfl nonempty
  | cons byte rest =>
    rw [decodeLoop, if_neg (Nat.not_le.mpr room), decoded]
    simp only [refused]

theorem decodeLoop_full
    (nonempty : remaining ≠ []) (full : replayWalMaxRecords ≤ state.records.length) :
    decodeLoop prims replayWalMaxRecords (fuel + 1) remaining state =
      (state, .recordCapacityExceeded) := by
  cases remaining with
  | nil => exact absurd rfl nonempty
  | cons byte rest => rw [decodeLoop, if_pos full]

theorem ValidLog.extend
    {next : Reservations} (valid : ValidLog prims whole records reservations) (decoded :
      decodeRecordAt prims remaining whole.length (records.length + 1) = .ok record)
    (applied : applyRecord reservations record = some next) :
    ValidLog prims (whole ++ remaining.take record.recordLen) (records ++ [record]) next := by
  obtain ⟨-, bound, -⟩ := decodeRecordAt_append decoded []
  exact valid.append (decodeRecordAt_take decoded) (length_take_of_le bound).symm applied

theorem decodeLoop_readsTo (fuel : Nat) : ∀ {whole remaining : Bytes} {state : DecodeState},
      ValidLog prims whole state.records state.reservations → state.offset = whole.length →
      state.expectedSeq = state.records.length + 1 → state.records.length ≤ replayWalMaxRecords →
      remaining.length ≤ fuel → ReadsTo prims (whole ++ remaining)
      (decodeLoop prims replayWalMaxRecords fuel remaining state).1
      (decodeLoop prims replayWalMaxRecords fuel remaining state).2 := by
  induction fuel with
  | zero =>
    intro whole remaining state valid offset _ count enough
    have empty : remaining = [] := eq_nil_of_length_eq_zero (Nat.le_zero.mp enough)
    subst empty
    exact ⟨⟨whole, [], rfl, valid, offset, .clean⟩, count⟩
  | succ fuel ih =>
    intro whole remaining state valid offset numbered count enough
    by_cases nonempty : remaining = []
    · subst nonempty
      exact ⟨⟨whole, [], rfl, valid, offset, .clean⟩, count⟩
    by_cases room : state.records.length < replayWalMaxRecords
    · cases outcome : decodeRecordAt prims remaining state.offset state.expectedSeq with
      | error reason =>
        rw [decodeLoop_stops nonempty room outcome]
        rw [numbered] at outcome
        exact ⟨⟨whole, remaining, rfl, valid, offset, .undecoded nonempty outcome⟩, count⟩
      | ok record =>
        cases applied : applyRecord state.reservations record with
        | none =>
          rw [decodeLoop_refuses nonempty room outcome applied]
          rw [numbered] at outcome
          exact ⟨⟨whole, remaining, rfl, valid, offset, .refused nonempty outcome applied⟩, count⟩
        | some reservations =>
          obtain ⟨-, bound, positive⟩ := decodeRecordAt_append outcome []
          have looped := @decodeLoop_step prims _ fuel _ _ _ _ nonempty room outcome applied
          rw [numbered, offset] at outcome
          have extended := valid.extend outcome applied
          have length : (whole ++ remaining.take record.recordLen).length =
                whole.length + record.recordLen := by
            rw [length_append, length_take_of_le bound]
          have split : whole ++ remaining = whole ++ remaining.take record.recordLen ++
                remaining.drop record.recordLen := by
            rw [append_assoc, take_append_drop]
          rw [looped, split]
          dsimp only
          by_cases isLast : remaining.drop record.recordLen = []
          · rw [isLast, isEmpty_nil, if_pos rfl]
            exact ⟨⟨_, [], rfl, extended, by rw [offset, length], .clean⟩, by simpa using room⟩
          · rw [if_neg (by simpa using isLast), numbered, checkedSucc_of_le (by omega)]
            exact ih extended (by rw [offset, length]) (by simp) (by simpa using room)
                (by rw [length_drop]; omega)
    · rw [decodeLoop_full nonempty (Nat.not_lt.mp room)]
      exact ⟨⟨whole, remaining, rfl, valid, offset, .full nonempty (Nat.not_lt.mp room)⟩, count⟩

/-- The loop reads a valid log to its end and goes on behind it. -/
theorem decodeLoop_validLog (valid : ValidLog prims whole records reservations)
    (count : records.length ≤ replayWalMaxRecords) :
    ∀ {tail : Bytes} {fuel : Nat}, (whole ++ tail).length ≤ fuel →
      ∃ fuel' expectedSeq, tail.length ≤ fuel' ∧ (tail ≠ [] → expectedSeq = records.length + 1) ∧
      decodeLoop prims replayWalMaxRecords fuel (whole ++ tail) .initial =
      decodeLoop prims replayWalMaxRecords fuel' tail
      ⟨records, reservations, whole.length, expectedSeq⟩ := by
  induction valid with
  | empty =>
    intro tail fuel enough
    exact ⟨fuel, 1, enough, fun _ => rfl, rfl⟩
  | @append bytes frame records reservations next record before decoded whole applied ih =>
      intro tail fuel enough
      rw [length_append, length_singleton] at count
      obtain ⟨again, -, positive⟩ := decodeRecordAt_append decoded tail
      have nonempty : frame ++ tail ≠ [] := by
        intro empty
        have noFrame := (List.append_eq_nil_iff.mp empty).1
        rw [whole, noFrame] at positive
        cases positive
      obtain ⟨fuel', expectedSeq, enough', numbered, looped⟩ := @ih (by omega) (frame ++ tail) fuel
          (by rwa [← append_assoc])
      rw [numbered nonempty] at looped
      obtain ⟨fuel', rfl⟩ : ∃ less, fuel' = less + 1 := by
        refine ⟨fuel' - 1, ?_⟩
        have positive := List.length_pos_iff.mpr nonempty
        omega
      rw [append_assoc, looped, decodeLoop_step nonempty (by exact count) again applied, whole,
        drop_left]
      by_cases isLast : tail = []
      · subst isLast
        refine ⟨0, records.length + 1, le_refl _, fun absent => absurd rfl absent, ?_⟩
        simp [decodeLoop]
      · rw [if_neg (by simpa using isLast), checkedSucc_of_le (by omega)]
        refine ⟨fuel', records.length + 1 + 1, ?_, ?_, ?_⟩
        · rw [length_append] at enough'
          omega
        · intro _
          simp
        · simp

theorem decodePrefix_readsTo (file : Bytes) :
    ∃ whole tail, file = whole ++ tail ∧ ValidLog prims whole (decodePrefix prims file).records
      (decodePrefix prims file).reservations ∧
      (decodePrefix prims file).lastGoodOffset = whole.length ∧
      StopsAt prims (decodePrefix prims file).records
      (decodePrefix prims file).reservations whole.length tail
      (decodePrefix prims file).stopReason ∧ (decodePrefix prims file).records.length ≤
      replayWalMaxRecords := by
  have reads := @decodeLoop_readsTo prims file.length [] file .initial .empty rfl rfl
      (Nat.zero_le _) (le_refl _)
  obtain ⟨whole, tail, split, valid, offset, stops⟩ := reads.split
  rw [offset] at stops
  exact ⟨whole, tail, split, valid, offset, stops, reads.count⟩

theorem incomplete_of_stopsAt (stops : StopsAt prims records reservations offset tail reason)
    (torn : isSafeTornTail reason = true) : (replayFormat prims).Incomplete tail := by
  cases stops with
  | clean => cases torn
  | full nonempty count => cases torn
  | refused nonempty decoded refused => cases torn
  | undecoded nonempty refused =>
    rw [decodeRecordAt] at refused
    split at refused
    · next stop stopped =>
      cases refused
      cases stop with
      | truncatedHeader =>
        exact Format.incomplete_of_truncatedHeader _ nonempty stopped
      | truncatedPayload =>
        exact Format.incomplete_of_truncatedPayload _ stopped
      | _ => cases torn
    · -- Behind a whole frame no reason is a truncation.
      repeat' split at refused
      all_goals
        cases refused
        try cases torn

/-- The file loses an incomplete last record that follows a valid log. -/
def DropsIncomplete (prims : ReplayPrimitives) (file recovered : Bytes) : Prop :=
  ∃ tail records reservations, file = recovered ++ tail ∧
      ValidLog prims recovered records reservations ∧ (replayFormat prims).Incomplete tail

/-- The file is neither a valid log nor a valid log with an incomplete last
record. -/
def Damaged (prims : ReplayPrimitives) (file : Bytes) : Prop :=
  (¬ ∃ records reservations, ValidLog prims file records reservations) ∧
    ¬ ∃ whole, DropsIncomplete prims file whole

/-- What an accepted recovery has read, and what it leaves. -/
structure RecoversAs (prims : ReplayPrimitives) (file : Bytes)
    (repair : Bool) (recovered : Bytes) (recovery : ReplayWalRecovery)
    (whole tail : Bytes) : Prop where
  split : file = whole ++ tail
  size : file.length ≤ replayWalMaxBytes
  valid : ValidLog prims whole recovery.records recovery.reservations
  count : recovery.validRecordCount = recovery.records.length
  within : recovery.records.length ≤ replayWalMaxRecords
  offset : recovery.lastGoodOffset = whole.length
  stops : StopsAt prims recovery.records recovery.reservations whole.length
      tail recovery.stopReason
  notFull : recovery.stopReason ≠ .recordCapacityExceeded
  left : recovered = file ∧ recovery.repaired = false ∨ repair = true ∧ recovered = whole ∧
      isSafeTornTail recovery.stopReason = true

theorem recoverReplayWal_ok
    (recovers : recoverReplayWal prims file repair = .ok (recovered, recovery)) :
    ∃ whole tail, RecoversAs prims file repair recovered recovery whole tail := by
  obtain ⟨whole, tail, split, valid, offset, stops, within⟩ := @decodePrefix_readsTo prims file
  rw [recoverReplayWal] at recovers
  split at recovers
  · cases recovers
  next size =>
  dsimp only at recovers
  split at recovers
  · cases recovers
  next notFull =>
  refine ⟨whole, tail, ?_⟩
  split at recovers
  · next repairs =>
    cases recovers
    simp only [Bool.and_eq_true, decide_eq_true_eq] at repairs
    have cut : file.take (decodePrefix prims file).lastGoodOffset = whole := by
      rw [offset, split, take_left]
    exact ⟨split, Nat.not_lt.mp size, valid, rfl, within, offset, stops,
        notFull, .inr ⟨repairs.1.1, cut, repairs.2⟩⟩
  · cases recovers
    exact ⟨split, Nat.not_lt.mp size, valid, rfl, within, offset, stops, notFull, .inl ⟨rfl, rfl⟩⟩

theorem RecoversAs.minimal (recovers : RecoversAs prims file repair recovered recovery whole tail) :
    recovered = file ∨ repair = true ∧ DropsIncomplete prims file recovered := by
  rcases recovers.left with ⟨same, -⟩ | ⟨repairs, cut, torn⟩
  · exact .inl same
  · rw [cut]
    exact .inr ⟨repairs, tail, _, _, recovers.split, recovers.valid,
        incomplete_of_stopsAt recovers.stops torn⟩

theorem RecoversAs.recovered_eq
    (recovers : RecoversAs prims file repair recovered recovery whole tail)
    (appendable : ensureAppendable recovery = .ok ()) : recovered = whole := by
  rcases recovers.left with ⟨same, notRepaired⟩ | ⟨-, cut, -⟩
  · rw [ensureAppendable] at appendable
    split at appendable
    · next clean =>
      have ended : recovery.stopReason = .cleanEof := by
        simpa only [ReplayWalRecovery.isClean, notRepaired, Bool.false_and,
          Bool.or_false, decide_eq_true_eq] using clean
      have stops := recovers.stops
      rw [ended] at stops
      have noTail : tail = [] := by
        cases stops with
        | clean => rfl
        | undecoded _ refused =>
          exact absurd rfl (decodeRecordAt_reason refused).1
      rw [same, recovers.split, noTail, append_nil]
    · cases appendable
  · exact cut

theorem not_damaged_of_appendable
    (accepted : recoverReplayWal prims file true = .ok (recovered, recovery))
    (appendable : ensureAppendable recovery = .ok ()) : ¬ Damaged prims file := by
  rintro ⟨notValid, notTorn⟩
  obtain ⟨whole, tail, recovers⟩ := recoverReplayWal_ok accepted
  rcases recovers.minimal with same | ⟨-, drops⟩
  · apply notValid
    rw [← same, recovers.recovered_eq appendable]
    exact ⟨_, _, recovers.valid⟩
  · exact notTorn ⟨recovered, drops⟩

/-- A recovery changes the file only to drop an incomplete last record, and
only when it may repair.  A file that is damaged in another way is never
changed, and every call on it fails. -/
theorem replay_repair_is_minimal
    (prims : ReplayPrimitives)
    (file : Bytes) :
    (∀ repair recovered recovery,
      recoverReplayWal prims file repair = .ok (recovered, recovery) →
      recovered = file ∨ repair = true ∧ DropsIncomplete prims file recovered) ∧
    (Damaged prims file →
      (∀ repair recovered recovery,
        recoverReplayWal prims file repair = .ok (recovered, recovery) →
        recovered = file) ∧
      ∀ call cut, ∃ error, replayStep prims file call cut = (file, .failed error)) := by
  have minimal : ∀ repair recovered recovery,
      recoverReplayWal prims file repair = .ok (recovered, recovery) → recovered = file ∨
        repair = true ∧ DropsIncomplete prims file recovered := by
    intro repair recovered recovery accepted
    obtain ⟨whole, tail, recovers⟩ := recoverReplayWal_ok accepted
    exact recovers.minimal
  refine ⟨minimal, ?_⟩
  intro damaged
  have unchanged : ∀ repair recovered recovery,
      recoverReplayWal prims file repair = .ok (recovered, recovery) → recovered = file := by
    intro repair recovered recovery recovers
    rcases minimal repair recovered recovery recovers with same | ⟨-, drops⟩
    · exact same
    · exact absurd ⟨recovered, drops⟩ damaged.2
  refine ⟨unchanged, ?_⟩
  intro call cut
  rw [replayStep]
  cases call.validate prims with
  | error error => exact ⟨error, rfl⟩
  | ok keyHash =>
    cases recovers : recoverReplayWal prims file true with
    | error error => exact ⟨error, rfl⟩
    | ok pair =>
      obtain ⟨recovered, recovery⟩ := pair
      have same := unchanged true recovered recovery recovers
      cases appendable : ensureAppendable recovery with
      | error error =>
        refine ⟨error, ?_⟩
        simp only [appendable, same]
      | ok _ =>
        exact absurd damaged (not_damaged_of_appendable recovers appendable)

/-- Recovery does not report that the file is too large or has too many
records. -/
def Readable (prims : ReplayPrimitives) (file : Bytes) : Prop :=
  ∀ repair kind limit observed, recoverReplayWal prims file repair ≠
      .error (.capacityExceeded kind limit observed)

theorem readable_iff :
    Readable prims file ↔ file.length ≤ replayWalMaxBytes ∧ (decodePrefix prims file).stopReason ≠
      .recordCapacityExceeded := by
  constructor
  · intro readable
    constructor
    · by_contra large
      refine readable true .bytes replayWalMaxBytes file.length ?_
      rw [recoverReplayWal, if_pos (Nat.not_le.mp large)]
    · intro full
      by_cases large : replayWalMaxBytes < file.length
      · refine readable true .bytes replayWalMaxBytes file.length ?_
        rw [recoverReplayWal, if_pos large]
      · refine readable true .records replayWalMaxRecords (replayWalMaxRecords + 1) ?_
        rw [recoverReplayWal, if_neg large]
        exact if_pos full
  · rintro ⟨small, notFull⟩ repair kind limit observed reported
    rw [recoverReplayWal, if_neg (Nat.not_lt.mpr small)] at reported
    dsimp only at reported
    rw [if_neg notFull] at reported
    split at reported <;> cases reported

/-- A file is readable when the loop does not stop for the number of records
behind a valid log that it begins with. -/
theorem readable_of_validLog (valid : ValidLog prims whole records reservations)
    (count : records.length ≤ replayWalMaxRecords)
    (small : (whole ++ tail).length ≤ replayWalMaxBytes)
    (notFull : ∀ fuel expectedSeq, tail.length ≤ fuel →
      (tail ≠ [] → expectedSeq = records.length + 1) →
      (decodeLoop prims replayWalMaxRecords fuel tail
      ⟨records, reservations, whole.length, expectedSeq⟩).2 ≠ .recordCapacityExceeded) :
    Readable prims (whole ++ tail) := by
  obtain ⟨fuel, expectedSeq, enough, numbered, looped⟩ :=
    decodeLoop_validLog valid count (le_refl (whole ++ tail).length)
  have stopReason : (decodePrefix prims (whole ++ tail)).stopReason =
        (decodeLoop prims replayWalMaxRecords fuel tail
          ⟨records, reservations, whole.length, expectedSeq⟩).2 := by
    rw [← looped]
    rfl
  rw [readable_iff, stopReason]
  exact ⟨small, notFull fuel expectedSeq enough numbered⟩

theorem readable_validLog (valid : ValidLog prims whole records reservations)
    (count : records.length ≤ replayWalMaxRecords) (small : whole.length ≤ replayWalMaxBytes) :
    Readable prims whole := by
  rw [← append_nil whole]
  refine readable_of_validLog valid count (by simpa using small) ?_
  intro fuel expectedSeq _ _
  cases fuel <;> exact ReplayWalStopReason.noConfusion

/-- The loop reads at most one record of a frame that a call has begun to
write. -/
theorem decodeLoop_frame_not_full (writes : Writes prims recovery prepared payload)
    (room : state.records.length < replayWalMaxRecords)
    (enough : (prepared.bytes.take cut).length ≤ fuel) :
    (decodeLoop prims replayWalMaxRecords fuel (prepared.bytes.take cut)
      state).2 ≠ .recordCapacityExceeded := by
  by_cases nonempty : prepared.bytes.take cut = []
  · rw [nonempty]
    cases fuel <;> exact ReplayWalStopReason.noConfusion
  obtain ⟨fuel, rfl⟩ : ∃ less, fuel = less + 1 := by
    refine ⟨fuel - 1, ?_⟩
    have positive := List.length_pos_iff.mpr nonempty
    omega
  cases outcome : decodeRecordAt prims (prepared.bytes.take cut) state.offset state.expectedSeq with
  | error reason =>
    rw [decodeLoop_stops nonempty room outcome]
    exact (decodeRecordAt_reason outcome).2
  | ok record =>
    cases applied : applyRecord state.reservations record with
    | none =>
      rw [decodeLoop_refuses nonempty room outcome applied]
      exact ReplayWalStopReason.noConfusion
    | some reservations =>
      -- Only the whole frame decodes, and nothing stands behind it.
      obtain ⟨frame, framed, length⟩ := decodeRecordAt_frame outcome
      have seqFits : prepared.seq < 256 ^ 8 := lt_of_le_of_lt writes.fits (by decide)
      have whole : record.recordLen = (prepared.bytes.take cut).length := by
        by_cases short : cut < prepared.bytes.length
        · rw [writes.bytes] at framed short
          rw [frameOf, Format.decode_take_encode _ _ seqFits writes.length short] at framed
          cases framed
        · rw [take_of_length_le (Nat.not_lt.mp short)] at framed ⊢
          have decoded := (replayFormat prims).decode_encode_append
              payload.operation.recordType [] seqFits writes.length
          rw [append_nil] at decoded
          rw [writes.bytes, frameOf, decoded] at framed
          cases framed
          rw [length, writes.bytes, frameOf, Format.length_encode]
      rw [decodeLoop_step nonempty room outcome applied, whole, drop_length]
      exact ReplayWalStopReason.noConfusion

theorem readable_append (recovers : RecoversAs prims file repair recovered recovery whole tail)
    (writes : Writes prims recovery prepared payload) (cut : Nat) :
    Readable prims (whole ++ prepared.bytes.take cut) := by
  have room := writes.room
  rw [recovers.count] at room
  refine readable_of_validLog recovers.valid (Nat.le_of_lt room) ?_ ?_
  · have size := writes.size
    rw [recovers.offset] at size
    rw [length_append, length_take]
    omega
  · intro fuel expectedSeq enough _
    exact decodeLoop_frame_not_full writes room enough

theorem RecoversAs.readable (readable : Readable prims file) (recovers :
      RecoversAs prims file repair recovered recovery whole tail) : Readable prims recovered := by
  rcases recovers.left with ⟨same, -⟩ | ⟨-, cut, -⟩
  · rw [same]
    exact readable
  · rw [cut]
    refine readable_validLog recovers.valid recovers.within ?_
    have size := recovers.size
    rw [recovers.split, length_append] at size
    omega

theorem readable_step (readable : Readable prims file) (call : ReplayCall) (cut : Option Nat) :
    Readable prims (replayStep prims file call cut).1 := by
  rw [replayStep]
  cases call.validate prims with
  | error error => exact readable
  | ok keyHash =>
    cases accepted : recoverReplayWal prims file true with
    | error error => exact readable
    | ok pair =>
      obtain ⟨recovered, recovery⟩ := pair
      obtain ⟨whole, tail, recovers⟩ := recoverReplayWal_ok accepted
      have repaired := recovers.readable readable
      cases appendable : ensureAppendable recovery with
      | error error =>
        simp only [appendable]
        exact repaired
      | ok _ =>
        have isWhole := recovers.recovered_eq appendable
        cases planned : call.plan prims recovery keyHash with
        | error error =>
          simp only [appendable, planned]
          exact repaired
        | ok plan =>
          cases plan with
          | alreadyConsumed seq reservation =>
            simp only [appendable, planned]
            exact repaired
          | append prepared =>
            obtain ⟨⟨payload, writes, -⟩, -⟩ := ReplayCall.plan_prepares planned
            cases cut with
            | some written =>
              simp only [appendable, planned, isWhole]
              exact readable_append recovers writes written
            | none =>
              simp only [appendable, planned, isWhole]
              have whole := readable_append recovers writes prepared.bytes.length
              rwa [take_length] at whole

/-- The first records of a valid log, and what stands behind them. -/
theorem ValidLog.take (valid : ValidLog prims whole records reservations) {count : Nat}
    (more : count < records.length) : ∃ before rest first, whole = before ++ rest ∧ rest ≠ [] ∧
      ValidLog prims before (records.take count) first := by
  induction valid with
  | empty => cases more
  | @append bytes frame records reservations next record valid decoded length applied ih =>
      rw [length_append, length_singleton] at more
      by_cases isLast : count = records.length
      · refine ⟨bytes, frame, reservations, rfl, ?_, ?_⟩
        · intro empty
          obtain ⟨-, -, positive⟩ := decodeRecordAt_append decoded []
          rw [length, empty] at positive
          cases positive
        · rw [isLast, take_left]
          exact valid
      · obtain ⟨before, rest, first, split, nonempty, prior⟩ := ih (by omega)
        refine ⟨before, rest ++ frame, first, ?_, ?_, ?_⟩
        · rw [split, append_assoc]
        · intro empty
          exact nonempty (List.append_eq_nil_iff.mp empty).1
        · rw [take_append_of_le_length (by omega)]
          exact prior

/-- A readable file does not begin with more records than the reader takes. -/
theorem Readable.count (readable : Readable prims file) (split : file = whole ++ tail)
    (valid : ValidLog prims whole records reservations) : records.length ≤ replayWalMaxRecords := by
  by_contra tooMany
  obtain ⟨before, rest, first, isWhole, nonempty, prior⟩ := valid.take (Nat.not_le.mp tooMany)
  have length : (records.take replayWalMaxRecords).length = replayWalMaxRecords :=
    length_take_of_le (Nat.le_of_lt (Nat.not_le.mp tooMany))
  have file_eq : file = before ++ (rest ++ tail) := by
    rw [split, isWhole, append_assoc]
  have behind : rest ++ tail ≠ [] := by
    intro empty
    exact nonempty (List.append_eq_nil_iff.mp empty).1
  obtain ⟨fuel, expectedSeq, enough, -, looped⟩ := decodeLoop_validLog prior (le_of_eq length)
      (le_refl (before ++ (rest ++ tail)).length)
  obtain ⟨fuel, rfl⟩ : ∃ less, fuel = less + 1 := by
    refine ⟨fuel - 1, ?_⟩
    have positive := List.length_pos_iff.mpr behind
    omega
  rw [decodeLoop_full behind (ge_of_eq length)] at looped
  apply (readable_iff.mp readable).2
  rw [file_eq, decodePrefix, decodePrefixWithRecordLimit, looped]

/-- From a readable file no history of calls and cuts leads past the limits on
bytes and records, and the file that is reached is readable again. -/
theorem replay_wal_stays_readable
    (prims : ReplayPrimitives)
    (start : Bytes)
    (readable : Readable prims start)
    (history : List (ReplayCall × Option Nat)) :
    let reached := history.foldl
        (fun file entry => (replayStep prims file entry.1 entry.2).1)
        start
    reached.length ≤ replayWalMaxBytes ∧
      (∀ whole tail records reservations, reached = whole ++ tail →
        ValidLog prims whole records reservations →
        records.length ≤ replayWalMaxRecords) ∧
      Readable prims reached := by
  have kept : Readable prims (history.foldl
          (fun file entry => (replayStep prims file entry.1 entry.2).1) start) := by
    induction history generalizing start with
    | nil => exact readable
    | cons entry rest ih =>
      exact ih _ (readable_step readable entry.1 entry.2)
  refine ⟨(readable_iff.mp kept).1, ?_, kept⟩
  intro whole tail records reservations split valid
  exact kept.count split valid

theorem readable_fresh (prims : ReplayPrimitives) : Readable prims [] :=
  readable_validLog .empty (Nat.zero_le _) (Nat.zero_le _)

/-- From the empty file, over a torn record. -/
theorem replay_wal_stays_readable_torn_consume :
    (replayFile TornConsume.primitives TornConsume.history).length ≤ replayWalMaxBytes :=
  (replay_wal_stays_readable TornConsume.primitives []
    (readable_fresh TornConsume.primitives) TornConsume.history).1

end Decoding

end ForgeCore.Replay
