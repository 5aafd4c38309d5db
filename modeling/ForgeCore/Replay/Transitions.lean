import ForgeCore.Library.Checked
import ForgeCore.Replay.Refinement

/-!
# What one append does

Every accepted append is one step of an abstract automaton: a key that was
never seen becomes reserved, and a reserved key becomes consumed with the same
digests.  The lemmas on the two preparing functions and on the four calls say
that nothing else is ever encoded.
-/

namespace ForgeCore.Replay

open List Text Digest ForgeCore.Frame Machine Checked

/-! ## The automaton of one key -/

def ReplayReservation.consumedAt (reservation : ReplayReservation)
    (seq : Nat) : ReplayReservation :=
  { reservation with
    revision := 2
    state := .consumed
    consumedSeq := some seq }

/-- The two shapes that a reservation ever has. -/
inductive ReplayReservation.Valid (reservation : ReplayReservation) : Prop
  | reserved
      (state : reservation.state = .reserved)
      (revision : reservation.revision = 1)
      (consumedSeq : reservation.consumedSeq = none)
  | consumed
      (state : reservation.state = .consumed)
      (revision : reservation.revision = 2)
      (consumedSeq : reservation.consumedSeq.isSome)

/-- The reservation that one record installs under a key hash. -/
inductive ReservationStep (reservations : Reservations) (keyHash : String) :
    ReplayReservation → Prop
  | reserve {reservation : ReplayReservation}
      (fresh : reservations[keyHash]? = none)
      (sameKey : reservation.keyHash = keyHash)
      (state : reservation.state = .reserved)
      (revision : reservation.revision = 1)
      (consumedSeq : reservation.consumedSeq = none) :
      ReservationStep reservations keyHash reservation
  | consume {existing : ReplayReservation} (seq : Nat)
      (found : reservations[keyHash]? = some existing)
      (state : existing.state = .reserved) :
      ReservationStep reservations keyHash (existing.consumedAt seq)

/-- Reservations are filed under their own key hash and have a valid shape. -/
def Sound (reservations : Reservations) : Prop :=
  ∀ (keyHash : String) (reservation : ReplayReservation),
    reservations[keyHash]? = some reservation → reservation.keyHash = keyHash ∧ reservation.Valid

/-- A reservation stays, or goes from reserved to consumed. -/
def Moves (reservation later : ReplayReservation) : Prop :=
  later = reservation ∨ reservation.state = .reserved ∧ reservation.revision = 1 ∧
      ∃ seq, later = reservation.consumedAt seq

def Advances (before after : Option ReplayReservation) : Prop :=
  ∀ reservation, before = some reservation → ∃ later, after = some later ∧ Moves reservation later

theorem Moves.trans (left : Moves first second) (right : Moves second third) :
    Moves first third := by
  rcases left with rfl | ⟨state, revision, seq, rfl⟩
  · exact right
  · rcases right with rfl | ⟨consumedState, _⟩
    · exact Or.inr ⟨state, revision, seq, rfl⟩
    · cases consumedState

theorem Advances.refl (reservation : Option ReplayReservation) : Advances reservation reservation :=
  fun found same => ⟨found, same, Or.inl rfl⟩

theorem Advances.trans (left : Advances first second) (right : Advances second third) :
    Advances first third := by
  intro reservation same
  obtain ⟨middle, middleSame, leftMove⟩ := left reservation same
  obtain ⟨later, laterSame, rightMove⟩ := right middle middleSame
  exact ⟨later, laterSame, leftMove.trans rightMove⟩

variable {reservations : Reservations} {keyHash : String}
    {reservation existing : ReplayReservation} {seq expectedRevision : Nat}
    {payload : ReplayWalPayload} {file : Bytes} {log : List ReplayWalPayload}
    {prepared : PreparedAppend} {recovery : ReplayWalRecovery}

theorem Sound.revision_of_reserved
    (sound : Sound reservations) (found : reservations[keyHash]? = some reservation)
    (state : reservation.state = .reserved) : reservation.revision = 1 := by
  rcases (sound keyHash reservation found).2 with
    ⟨_, revision, _⟩ | ⟨consumed, _, _⟩
  · exact revision
  · rw [state] at consumed
    cases consumed

theorem getElem?_insert_reservation
    (reservations : Reservations) (keyHash other : String)
    (reservation : ReplayReservation) :
    (reservations.insert keyHash reservation)[other]? =
      if keyHash = other then some reservation else reservations[other]? := by
  rw [Std.TreeMap.getElem?_insert]
  simp only [Std.LawfulEqCmp.compare_eq_iff_eq]

theorem ReservationStep.sound
    (sound : Sound reservations) (step : ReservationStep reservations keyHash reservation) :
    Sound (reservations.insert keyHash reservation) := by
  intro other stored found
  rw [getElem?_insert_reservation] at found
  split at found
  next same =>
    cases found
    cases step with
    | reserve fresh sameKey state revision consumedSeq =>
      exact ⟨sameKey.trans same, .reserved state revision consumedSeq⟩
    | consume seq existing state =>
      exact ⟨(sound _ _ existing).1.trans same, .consumed rfl rfl rfl⟩
  next => exact sound other stored found

theorem ReservationStep.advances
    (sound : Sound reservations) (step : ReservationStep reservations keyHash reservation)
    (other : String) :
    Advances reservations[other]? (reservations.insert keyHash reservation)[other]? := by
  rw [getElem?_insert_reservation]
  split
  next same =>
    subst same
    intro stored found
    refine ⟨reservation, rfl, ?_⟩
    cases step with
    | reserve fresh sameKey state revision consumedSeq =>
      rw [fresh] at found
      cases found
    | consume seq existing state =>
      rw [existing] at found
      cases found
      exact Or.inr ⟨state, sound.revision_of_reserved existing state, seq, rfl⟩
  next => exact Advances.refl _

theorem ReservationStep.consumed_of_present
    (step : ReservationStep reservations keyHash reservation)
    (found : reservations[keyHash]? = some existing) : reservation.state = .consumed := by
  cases step with
  | reserve fresh _ _ _ _ =>
    rw [found] at fresh
    cases fresh
  | consume seq _ _ => rfl

theorem applyPayload_step {next : Reservations} (sound : Sound reservations)
    (applied : applyPayload reservations seq payload = some next) :
    ∃ reservation, next = reservations.insert payload.keyHash reservation ∧
      ReservationStep reservations payload.keyHash reservation := by
  unfold applyPayload applyRecord at applied
  simp only at applied
  split at applied
  · split at applied
    · cases applied
    next accepted =>
      cases applied
      refine ⟨_, rfl, .reserve ?_ rfl rfl rfl rfl⟩
      simp only [Bool.or_eq_true, not_or, Bool.not_eq_true] at accepted
      exact Std.TreeMap.getElem?_eq_none_of_contains_eq_false accepted.2
  · split at applied
    · cases applied
    next existing found =>
      split at applied
      next allowed =>
        simp only [Bool.and_eq_true, decide_eq_true_eq] at allowed
        obtain ⟨⟨⟨⟨state, _⟩, _⟩, _⟩, succeeded⟩ := allowed
        have revision := sound.revision_of_reserved found state
        have next : payload.revision = 2 := by
          rw [revision] at succeeded
          exact (Option.some.inj succeeded).symm
        cases applied
        refine ⟨_, rfl, ?_⟩
        rw [next]
        exact .consume seq found state
      next => cases applied

theorem applyLog_sound (log : List ReplayWalPayload) :
    ∀ {seq : Nat} {reservations next : Reservations},
      Sound reservations → applyLog seq reservations log = some next → Sound next := by
  induction log with
  | nil =>
    intro seq reservations next sound applied
    cases applied
    exact sound
  | cons payload rest ih =>
    intro seq reservations next sound applied
    simp only [applyLog, Option.bind_eq_some_iff] at applied
    obtain ⟨middle, first, remaining⟩ := applied
    obtain ⟨reservation, rfl, step⟩ := applyPayload_step sound first
    exact ih (step.sound sound) remaining

theorem Represents.sound
    {prims : ReplayPrimitives} (represents : Represents prims file log reservations) :
    Sound reservations := by
  refine applyLog_sound log ?_ represents.applied
  intro keyHash reservation found
  simp at found

section Prepared

variable {prims : ReplayPrimitives}

/-- A prepared record that continues a log. -/
structure Appends (prims : ReplayPrimitives) (log : List ReplayWalPayload)
    (reservations : Reservations) (prepared : PreparedAppend)
    (payload : ReplayWalPayload) : Prop where
  bytes : prepared.bytes = frameOf prims (log.length + 1) payload
  wellFormed : WellFormed prims payload
  sameKey : prepared.reservation.keyHash = payload.keyHash
  applied : applyPayload reservations (log.length + 1) payload =
      some (reservations.insert payload.keyHash prepared.reservation)
  room : log.length < replayWalMaxRecords
  fits : (encodeLog prims 1 log).length + prepared.bytes.length ≤ replayWalMaxBytes

theorem encodeLog_concat (log : List ReplayWalPayload) (payload : ReplayWalPayload) :
    encodeLog prims 1 (log ++ [payload]) = encodeLog prims 1 log ++
      frameOf prims (log.length + 1) payload := by
  rw [encodeLog_append, Nat.add_comm 1]
  simp only [encodeLog, append_nil]

theorem Appends.represents
    (represents : Represents prims file log reservations)
    (appends : Appends prims log reservations prepared payload) :
    Represents prims (encodeLog prims 1 log ++ prepared.bytes)
      (log ++ [payload])
      (reservations.insert payload.keyHash prepared.reservation) where
  wellFormed := by
    intro other member
    rcases List.mem_append.mp member with old | new
    · exact represents.wellFormed other old
    · rw [List.mem_singleton.mp new]
      exact appends.wellFormed
  applied := by
    rw [applyLog_append, represents.applied, Nat.add_comm 1]
    simp only [Option.bind_some, applyLog, appends.applied]
  recordCount := by
    simpa using appends.room
  size := by
    rw [encodeLog_concat, length_append, ← appends.bytes]
    exact appends.fits
  bytes := by
    refine ⟨[], .clean, ?_⟩
    rw [encodeLog_concat, appends.bytes, append_nil]

/-- After an append that a crash cut short, the file stands for the old log,
unless the whole record had been written. -/
theorem Appends.represents_cut (represents : Represents prims file log reservations)
    (appends : Appends prims log reservations prepared payload) (cut : Nat) :
    Represents prims (encodeLog prims 1 log ++ prepared.bytes.take cut) log reservations ∨
      Represents prims (encodeLog prims 1 log ++ prepared.bytes.take cut) (log ++ [payload])
      (reservations.insert payload.keyHash prepared.reservation) := by
  by_cases whole : prepared.bytes.length ≤ cut
  · right
    rw [take_of_length_le whole]
    exact appends.represents represents
  · left
    have short : cut < (frameOf prims (log.length + 1) payload).length := by
      rw [← appends.bytes]
      exact Nat.lt_of_not_le whole
    have fits := appends.fits
    exact
      { represents with
        bytes := ⟨_, .torn appends.room appends.wellFormed.length short
            (by omega), by rw [appends.bytes]⟩ }

theorem Represents.repaired (represents : Represents prims file log reservations) :
    Represents prims (encodeLog prims 1 log) log reservations :=
  { represents with bytes := ⟨[], .clean, (append_nil _).symm⟩ }

/-- What a call writes: a frame that the limits leave room for. -/
structure Writes (prims : ReplayPrimitives)
    (recovery : ReplayWalRecovery) (prepared : PreparedAppend)
    (payload : ReplayWalPayload) : Prop where
  bytes : prepared.bytes = frameOf prims prepared.seq payload
  seq : prepared.seq = recovery.lastObservedSeq + 1
  fits : prepared.seq ≤ u64Max
  length : (prims.toJson payload).length ≤ maxPayloadLen
  room : recovery.validRecordCount < replayWalMaxRecords
  size : recovery.lastGoodOffset + prepared.bytes.length ≤ replayWalMaxBytes

theorem nextSequence_ok (next : nextSequence last = .ok seq) : seq = last + 1 ∧ seq ≤ u64Max := by
  rw [nextSequence, checkedSucc] at next
  split at next
  · next counted =>
    split at counted
    · cases counted
      cases next
      omega
    · cases counted
  · cases next

variable {bytes : Bytes} {value : Unit}

theorem encodePayloadRecord_ok (encoded : encodePayloadRecord prims seq payload = .ok bytes) :
    bytes = frameOf prims seq payload ∧ (prims.toJson payload).length ≤ maxPayloadLen := by
  unfold encodePayloadRecord at encoded
  simp only at encoded
  split at encoded
  · cases encoded
  next small =>
    cases encoded
    exact ⟨rfl, Nat.le_of_not_lt small⟩

theorem ensureAppendCapacity_ok (checked : ensureAppendCapacity recovery recordBytes = .ok value) :
    recovery.validRecordCount < replayWalMaxRecords ∧
      recovery.lastGoodOffset + recordBytes ≤ replayWalMaxBytes := by
  unfold ensureAppendCapacity at checked
  simp only at checked
  split at checked
  · cases checked
  split at checked
  · cases checked
  · constructor <;> omega

/-- A record that a call has prepared for a recovered log. -/
structure Prepares (prims : ReplayPrimitives) (recovery : ReplayWalRecovery)
    (keyHash intentDigest commitDigest : String) (prepared : PreparedAppend)
    (payload : ReplayWalPayload) : Prop where
  writes : Writes prims recovery prepared payload
  schemaVersion : payload.schemaVersion = replayWalSchemaVersion
  key : payload.keyHash = keyHash
  intent : payload.intentDigest = intentDigest
  commit : payload.commitDigest = commitDigest
  sameKey : prepared.reservation.keyHash = keyHash
  applied : Sound recovery.reservations → applyPayload recovery.reservations prepared.seq payload =
      some (recovery.reservations.insert keyHash prepared.reservation)

theorem writes_of_checks (sequenced : nextSequence recovery.lastObservedSeq = .ok seq)
    (encoded : encodePayloadRecord prims seq payload = .ok bytes)
    (capacity : ensureAppendCapacity recovery bytes.length = .ok value) :
    Writes prims recovery ⟨seq, bytes, reservation⟩ payload := by
  obtain ⟨next, fits⟩ := nextSequence_ok sequenced
  obtain ⟨framed, length⟩ := encodePayloadRecord_ok encoded
  obtain ⟨room, size⟩ := ensureAppendCapacity_ok capacity
  exact ⟨framed, next, fits, length, room, size⟩

/-- The reserve path only extends a log in which the key does not occur. -/
theorem reserveReplayNonceRecovered_prepares (accepted :
      reserveReplayNonceRecovered prims recovery keyHash intentDigest commitDigest = .ok prepared) :
    (∃ payload, Prepares prims recovery keyHash intentDigest commitDigest prepared payload) ∧
      recovery.reservations[keyHash]? = none := by
  unfold reserveReplayNonceRecovered at accepted
  split at accepted
  · cases accepted
  next fresh =>
    simp only [bind_eq_ok] at accepted
    obtain ⟨seq, sequenced, bytes, encoded, _, capacity, result⟩ := accepted
    cases result
    refine ⟨⟨_, writes_of_checks sequenced encoded capacity, rfl, rfl, rfl, rfl, rfl, ?_⟩, fresh⟩
    intro _
    have absent : recovery.reservations.contains keyHash = false := by
      rw [Std.TreeMap.contains_eq_isSome_getElem?, fresh]
      rfl
    simp [applyPayload, applyRecord, absent]

/-- The consume path only extends a log in which the key is reserved with the
same digests. -/
theorem prepareConsume_prepares (found : recovery.reservations[keyHash]? = some existing)
    (sameIntent : existing.intentDigest = intentDigest)
    (sameCommit : existing.commitDigest = commitDigest) (state : existing.state = .reserved)
    (accepted : prepareConsume prims recovery existing keyHash intentDigest
      commitDigest expectedRevision = .ok prepared) :
    ∃ payload, Prepares prims recovery keyHash intentDigest commitDigest prepared payload := by
  unfold prepareConsume at accepted
  split at accepted
  · cases accepted
  next sameRevision =>
  have expected : existing.revision = expectedRevision := not_not.mp sameRevision
  split at accepted
  · cases accepted
  next revision succeeded =>
    simp only [bind_eq_ok] at accepted
    obtain ⟨seq, sequenced, bytes, encoded, _, capacity, result⟩ := accepted
    cases result
    refine ⟨_, writes_of_checks sequenced encoded capacity, rfl, rfl, rfl, rfl, rfl, ?_⟩
    intro sound
    have sameKey := (sound keyHash existing found).1
    subst sameKey sameIntent sameCommit expected
    simp [applyPayload, applyRecord, found, state, succeeded]

theorem Prepares.appends {intentDigest commitDigest : String}
    (prepares : Prepares prims recovery keyHash intentDigest commitDigest prepared payload)
    (recovers : Recovers prims recovery log reservations) (sound : Sound reservations)
    (keyToken : isSha256Token keyHash = true) (intentToken : isSha256Token intentDigest = true)
    (commitToken : isSha256Token commitDigest = true) :
    Appends prims log reservations prepared payload := by
  obtain ⟨writes, schemaVersion, rfl, rfl, rfl, sameKey, applied⟩ := prepares
  have number : prepared.seq = log.length + 1 := by
    rw [writes.seq, recovers.lastObservedSeq]
  rw [recovers.reservations, number] at applied
  exact
    { bytes := by rw [writes.bytes, number]
      wellFormed := ⟨schemaVersion, keyToken, intentToken, commitToken, writes.length⟩
      sameKey := sameKey
      applied := applied sound
      room := recovers.validRecordCount ▸ writes.room
      fits := recovers.lastGoodOffset ▸ writes.size }

theorem Appends.step
    (appends : Appends prims log reservations prepared payload) (sound : Sound reservations) :
    ReservationStep reservations payload.keyHash prepared.reservation := by
  obtain ⟨reservation, same, step⟩ := applyPayload_step sound appends.applied
  have looked := congrArg (fun map : Reservations => map[payload.keyHash]?) same
  simp only [getElem?_insert_reservation, if_true, Option.some.injEq] at looked
  rw [looked]
  exact step

end Prepared

section Calls

variable {prims : ReplayPrimitives}

/-- The key hash that a call is about. -/
def ReplayCall.token (prims : ReplayPrimitives) : ReplayCall → String
  | .reserve key .. => keyToken prims key
  | .consumeNonBoundary key .. => keyToken prims key
  | .consumeKeyHash keyHash .. => keyHash
  | .guardedConsume key .. => keyToken prims key

def ReplayCall.intentDigest : ReplayCall → String
  | .reserve _ intentDigest _ => intentDigest
  | .consumeNonBoundary _ intentDigest _ _ => intentDigest
  | .consumeKeyHash _ intentDigest _ _ => intentDigest
  | .guardedConsume _ intentDigest _ _ => intentDigest

def ReplayCall.commitDigest : ReplayCall → String
  | .reserve _ _ commitDigest => commitDigest
  | .consumeNonBoundary _ _ commitDigest _ => commitDigest
  | .consumeKeyHash _ _ commitDigest _ => commitDigest
  | .guardedConsume _ _ commitDigest _ => commitDigest

theorem validateSha256Field_ok (checked : validateSha256Field field value = .ok result) :
    isSha256Token value = true := by
  unfold validateSha256Field at checked
  split at checked
  · assumption
  · cases checked

theorem isSha256Token_keyToken (key : ReplayKey) : isSha256Token (keyToken prims key) = true :=
  isSha256Token_formatSha256 Vector.length_toList

theorem replayNonceKeyHash_ok (derived : replayNonceKeyHash prims key = .ok keyHash) :
    keyHash = keyToken prims key := by
  simp only [replayNonceKeyHash, bind_eq_ok] at derived
  obtain ⟨_, _, _, _, _, _, result⟩ := derived
  cases result
  rfl

variable {call : ReplayCall}

/-- A validated call has well-formed tokens, and its hash is its key's. -/
theorem ReplayCall.validate_ok (validated : call.validate prims = .ok keyHash) :
    keyHash = call.token prims ∧ isSha256Token keyHash = true ∧
      isSha256Token call.intentDigest = true ∧ isSha256Token call.commitDigest = true := by
  cases call with
  | reserve key intentDigest commitDigest =>
    simp only [ReplayCall.validate, bind_eq_ok] at validated
    obtain ⟨_, intent, _, commit, derived⟩ := validated
    obtain rfl := replayNonceKeyHash_ok derived
    exact ⟨rfl, isSha256Token_keyToken key, validateSha256Field_ok intent,
        validateSha256Field_ok commit⟩
  | consumeNonBoundary key intentDigest commitDigest expectedRevision
  | guardedConsume key intentDigest commitDigest expectedRevision =>
    simp only [ReplayCall.validate, bind_eq_ok] at validated
    obtain ⟨_, intent, _, commit, _, _, derived⟩ := validated
    obtain rfl := replayNonceKeyHash_ok derived
    exact ⟨rfl, isSha256Token_keyToken key, validateSha256Field_ok intent,
        validateSha256Field_ok commit⟩
  | consumeKeyHash token intentDigest commitDigest expectedRevision =>
    simp only [ReplayCall.validate, bind_eq_ok] at validated
    obtain ⟨_, key, _, intent, _, commit, _, _, result⟩ := validated
    cases result
    exact ⟨rfl, validateSha256Field_ok key, validateSha256Field_ok intent,
        validateSha256Field_ok commit⟩

theorem boundReservation_ok
    (bound : boundReservation recovery keyHash intentDigest commitDigest = .ok existing) :
    recovery.reservations[keyHash]? = some existing ∧ existing.intentDigest = intentDigest ∧
      existing.commitDigest = commitDigest := by
  unfold boundReservation at bound
  split at bound
  · cases bound
  next stored found =>
    split at bound
    · cases bound
    next sameIntent =>
      split at bound
      · cases bound
      next sameCommit =>
        cases bound
        exact ⟨found, not_not.mp sameIntent, not_not.mp sameCommit⟩

theorem consumeReplayRecovered_ok
    (planned : consumeReplayRecovered prims recovery keyHash intentDigest
      commitDigest expectedRevision = .ok plan) :
    ∃ existing, boundReservation recovery keyHash intentDigest commitDigest = .ok existing ∧
      ((∃ seq, plan = .alreadyConsumed seq existing) ∨
      existing.state = .reserved ∧ ∃ prepared, plan = .append prepared ∧
      prepareConsume prims recovery existing keyHash intentDigest
      commitDigest expectedRevision = .ok prepared) := by
  simp only [consumeReplayRecovered, bind_eq_ok] at planned
  obtain ⟨existing, bound, planned⟩ := planned
  refine ⟨existing, bound, ?_⟩
  split at planned
  · split at planned
    · cases planned
      exact Or.inl ⟨_, rfl⟩
    · cases planned
  next notConsumed =>
    obtain ⟨prepared, accepted, rfl⟩ := map_eq_ok.mp planned
    refine Or.inr ⟨?_, prepared, rfl, accepted⟩
    cases state : existing.state with
    | reserved => rfl
    | consumed => exact absurd state notConsumed

theorem prepareReplayGuardState_ok
    (planned : prepareReplayGuardState prims recovery keyHash intentDigest
      commitDigest expectedRevision = .ok prepared) :
    ∃ existing, boundReservation recovery keyHash intentDigest commitDigest = .ok existing ∧
      existing.state = .reserved ∧ prepareConsume prims recovery existing keyHash intentDigest
      commitDigest expectedRevision = .ok prepared := by
  simp only [prepareReplayGuardState, bind_eq_ok] at planned
  obtain ⟨existing, bound, planned⟩ := planned
  split at planned
  · cases planned
  next isReserved =>
    exact ⟨existing, bound, not_not.mp isReserved, planned⟩

/-- What has to be in the log for a call to append its record. -/
def ReplayCall.enabled (reservations : Reservations) (keyHash : String) : ReplayCall → Prop
  | .reserve .. => reservations[keyHash]? = none
  | .consumeNonBoundary .. | .consumeKeyHash .. | .guardedConsume .. =>
    ∃ existing, reservations[keyHash]? = some existing ∧ existing.state = .reserved

theorem ReplayCall.plan_prepares
    (planned : call.plan prims recovery keyHash = .ok (.append prepared)) :
    (∃ payload, Prepares prims recovery keyHash call.intentDigest call.commitDigest
      prepared payload) ∧ call.enabled recovery.reservations keyHash := by
  have consumed {existing : ReplayReservation} {intentDigest commitDigest} {expectedRevision : Nat}
      (bound : boundReservation recovery keyHash intentDigest commitDigest = .ok existing)
      (state : existing.state = .reserved) (accepted :
        prepareConsume prims recovery existing keyHash intentDigest
          commitDigest expectedRevision = .ok prepared) :
      (∃ payload, Prepares prims recovery keyHash intentDigest commitDigest prepared payload) ∧
        ∃ existing, recovery.reservations[keyHash]? = some existing ∧
          existing.state = .reserved := by
    obtain ⟨found, sameIntent, sameCommit⟩ := boundReservation_ok bound
    exact ⟨prepareConsume_prepares found sameIntent sameCommit state accepted,
      existing, found, state⟩
  cases call with
  | reserve key intentDigest commitDigest =>
    obtain ⟨_, accepted, same⟩ := map_eq_ok.mp planned
    cases same
    exact reserveReplayNonceRecovered_prepares accepted
  | consumeNonBoundary key intentDigest commitDigest expectedRevision
  | consumeKeyHash token intentDigest commitDigest expectedRevision =>
    obtain ⟨existing, bound, ⟨_, impossible⟩ | ⟨state, _, same, accepted⟩⟩ :=
      consumeReplayRecovered_ok planned
    · cases impossible
    · cases same
      exact consumed bound state accepted
  | guardedConsume key intentDigest commitDigest expectedRevision =>
    obtain ⟨_, accepted, same⟩ := map_eq_ok.mp planned
    cases same
    obtain ⟨existing, bound, state, accepted⟩ := prepareReplayGuardState_ok accepted
    exact consumed bound state accepted

/-- Every planned append continues the log, on any of the four paths. -/
theorem ReplayCall.plan_append
    (recovers : Recovers prims recovery log reservations) (sound : Sound reservations)
    (keyToken : isSha256Token keyHash = true) (intentToken : isSha256Token call.intentDigest = true)
    (commitToken : isSha256Token call.commitDigest = true) (planned :
      call.plan prims recovery keyHash = .ok (.append prepared)) :
    ∃ payload, Appends prims log reservations prepared payload ∧
      payload.keyHash = keyHash ∧ call.enabled reservations keyHash := by
  obtain ⟨⟨payload, prepares⟩, enabled⟩ := ReplayCall.plan_prepares planned
  rw [recovers.reservations] at enabled
  exact ⟨payload, prepares.appends recovers sound keyToken intentToken commitToken,
    prepares.key, enabled⟩

/-- Only a consume answers without appending, and only about a reservation
that is in the log. -/
theorem ReplayCall.plan_alreadyConsumed
    (planned : call.plan prims recovery keyHash = .ok (.alreadyConsumed seq reservation)) :
    recovery.reservations[keyHash]? = some reservation := by
  cases call with
  | reserve key intentDigest commitDigest
  | guardedConsume key intentDigest commitDigest expectedRevision =>
    obtain ⟨_, _, impossible⟩ := map_eq_ok.mp planned
    cases impossible
  | consumeNonBoundary key intentDigest commitDigest expectedRevision
  | consumeKeyHash token intentDigest commitDigest expectedRevision =>
    obtain ⟨existing, bound, ⟨_, same⟩ | ⟨_, _, impossible, _⟩⟩ := consumeReplayRecovered_ok planned
    · cases same
      exact (boundReservation_ok bound).1
    · cases impossible

end Calls

end ForgeCore.Replay
