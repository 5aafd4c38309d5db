import ForgeCore.Library.Codec
import ForgeCore.Replay.Transitions

/-!
# Single use of approvals

Along every history of the replay log, a nonce is consumed at most once.
-/

namespace ForgeCore.Replay

open Text Digest ForgeCore.Frame Machine Checked

variable {file : Bytes} {log : List ReplayWalPayload} {reservations : Reservations}

variable {call : ReplayCall}

section Steps

variable {prims : ReplayPrimitives}

/-- An outcome that reports no new record. -/
def Quiet (reservations : Reservations) (keyHash : String) : ReplayOutcome → Prop
  | .failed _ | .crashed => True
  | .reserved .. => False
  | .consumed _ _ appended reservation =>
    appended = false ∧ reservations[keyHash]? = some reservation

/-- What one call can do to the log. -/
inductive StepEffect (prims : ReplayPrimitives) (log : List ReplayWalPayload)
    (reservations : Reservations) (call : ReplayCall) (result : Bytes × ReplayOutcome) : Prop
  | quiet
      (represents : Represents prims result.1 log reservations)
      (silent : Quiet reservations (call.token prims) result.2)
  | appended {payload : ReplayWalPayload} {prepared : PreparedAppend}
      (appends : Appends prims log reservations prepared payload)
      (sameKey : payload.keyHash = call.token prims)
      (enabled : call.enabled reservations (call.token prims))
      (represents : Represents prims result.1 (log ++ [payload])
          (reservations.insert payload.keyHash prepared.reservation))
      (outcome : result.2 = .crashed ∨ result.2 = call.acknowledge prepared)

theorem replayStep_effect
    (lawful : prims.Lawful) (represents : Represents prims file log reservations)
    (call : ReplayCall) (cut : Option Nat) :
    StepEffect prims log reservations call (replayStep prims file call cut) := by
  unfold replayStep
  cases validated : call.validate prims with
  | error error => exact .quiet represents trivial
  | ok keyHash =>
    obtain ⟨rfl, keyToken, intentToken, commitToken⟩ := ReplayCall.validate_ok validated
    obtain ⟨recovery, recovered, recovers⟩ := recoverReplayWal_represents lawful represents
    have appendable : ensureAppendable recovery = .ok () := by
      rw [ensureAppendable, if_pos recovers.isClean]
    simp only [recovered, appendable]
    cases planned : call.plan prims recovery (call.token prims) with
    | error error => exact .quiet represents.repaired trivial
    | ok plan =>
      cases plan with
      | alreadyConsumed seq reservation =>
        refine .quiet represents.repaired ⟨rfl, ?_⟩
        rw [← recovers.reservations]
        exact ReplayCall.plan_alreadyConsumed planned
      | append prepared =>
        obtain ⟨payload, appends, sameKey, enabled⟩ :=
          ReplayCall.plan_append recovers represents.sound keyToken intentToken commitToken planned
        cases cut with
        | none =>
          exact .appended appends sameKey enabled (appends.represents represents) (Or.inr rfl)
        | some written =>
          rcases appends.represents_cut represents written with
            old | new
          · exact .quiet old trivial
          · exact .appended appends sameKey enabled new (Or.inl rfl)

theorem StepEffect.advances
    (effect : StepEffect prims log reservations call result) (sound : Sound reservations) :
    ∃ log' reservations', Represents prims result.1 log' reservations' ∧ ∀ keyHash : String,
      Advances reservations[keyHash]? reservations'[keyHash]? := by
  cases effect with
  | quiet represents _ =>
    exact ⟨log, reservations, represents, fun _ => Advances.refl _⟩
  | appended appends _ _ represents _ =>
    exact ⟨_, _, represents, (appends.step sound).advances sound⟩

end Steps

section Histories

variable (prims : ReplayPrimitives)

def reservationIn (file : Bytes) (keyHash : String) : Option ReplayReservation :=
  match recoverReplayWal prims file true with
  | .ok (_, recovery) => recovery.reservations[keyHash]?
  | .error _ => none

/-- The caller was told that its reservation of the key is in the log. -/
def acknowledgesReservation (key : ReplayKey) : ReplayCall × ReplayOutcome → Bool
  | (.reserve requested _ _, .reserved ..) => requested = key
  | _ => false

/-- The caller was told that a consume record of the key was appended. -/
def acknowledgesConsumption (key : ReplayKey) : ReplayCall × ReplayOutcome → Bool
  | (call, .consumed _ _ true _) => call.token prims = keyToken prims key
  | _ => false

def ReplayOutcome.acknowledged : ReplayOutcome → Option ReplayReservation
  | .failed _ | .crashed => none
  | .reserved _ _ reservation => some reservation
  | .consumed _ _ _ reservation => some reservation

variable {prims}

section

variable (lawful : prims.Lawful)

include lawful

theorem reservationIn_represents
    (represents : Represents prims file log reservations) (keyHash : String) :
    reservationIn prims file keyHash = reservations[keyHash]? := by
  obtain ⟨recovery, recovered, recovers⟩ := recoverReplayWal_represents lawful represents
  rw [reservationIn, recovered]
  simp only [recovers.reservations]

theorem advances_foldl (history : List (ReplayCall × Option Nat)) :
    ∀ {file : Bytes} {log : List ReplayWalPayload} {reservations : Reservations},
      Represents prims file log reservations → ∃ log' reservations', Represents prims (history.foldl
      (fun file entry => (replayStep prims file entry.1 entry.2).1) file) log' reservations' ∧
      ∀ keyHash : String, Advances reservations[keyHash]? reservations'[keyHash]? := by
  induction history with
  | nil =>
    intro file log reservations represents
    exact ⟨log, reservations, represents, fun _ => Advances.refl _⟩
  | cons entry rest ih =>
    intro file log reservations represents
    obtain ⟨log', reservations', represents', first⟩ :=
      (replayStep_effect lawful represents entry.1 entry.2).advances represents.sound
    obtain ⟨log'', reservations'', represents'', later⟩ := ih represents'
    exact ⟨log'', reservations'', represents'',
        fun keyHash => (first keyHash).trans (later keyHash)⟩

theorem replayFile_represents (history : List (ReplayCall × Option Nat)) :
    ∃ log reservations, Represents prims (replayFile prims history) log reservations := by
  obtain ⟨log, reservations, represents, _⟩ :=
    advances_foldl lawful history (represents_empty prims)
  exact ⟨log, reservations, represents⟩

theorem reservationIn_advances (before after : List (ReplayCall × Option Nat)) (keyHash : String) :
    Advances (reservationIn prims (replayFile prims before) keyHash)
      (reservationIn prims (replayFile prims (before ++ after)) keyHash) := by
  obtain ⟨log, reservations, represents⟩ := replayFile_represents lawful before
  obtain ⟨log', reservations', represents', advances⟩ := advances_foldl lawful after represents
  rw [reservationIn_represents lawful represents, replayFile,
    List.foldl_append, reservationIn_represents lawful (by exact represents')]
  exact advances keyHash

/-- A kind of acknowledgement that needs a budget of one, spends it, and never
gets it back, is given at most once. -/
theorem countP_replayTrace_le
    {counts : ReplayCall × ReplayOutcome → Bool}
    (spent : Reservations → Bool)
    (silent : ∀ {reservations call outcome}, Quiet reservations (call.token prims) outcome →
          counts (call, outcome) = false)
    (spends : ∀ {reservations call prepared}, ReservationStep reservations (call.token prims)
          prepared.reservation →
        call.enabled reservations (call.token prims) →
        counts (call, call.acknowledge prepared) = true → spent reservations = false ∧
            spent (reservations.insert (call.token prims)
              prepared.reservation) = true)
    (crashes : ∀ call, counts (call, .crashed) = false)
    (stays : ∀ {reservations keyHash reservation},
        ReservationStep reservations keyHash reservation →
        spent reservations = true → spent (reservations.insert keyHash reservation) = true)
    (history : List (ReplayCall × Option Nat)) :
    ∀ {file : Bytes} {log : List ReplayWalPayload}
      {reservations : Reservations},
      Represents prims file log reservations →
      (replayTrace prims file history).countP counts ≤ if spent reservations then 0 else 1 := by
  induction history with
  | nil =>
    intro file log reservations _
    simp [replayTrace]
  | cons entry rest ih =>
    intro file log reservations represents
    obtain ⟨call, cut⟩ := entry
    have effect := replayStep_effect lawful represents call cut
    simp only [replayTrace, List.countP_cons]
    generalize replayStep prims file call cut = result at effect ⊢
    cases effect with
    | quiet represents' quiet =>
      rw [silent quiet]
      exact ih represents'
    | appended appends sameKey enabled represents' outcome =>
      rename_i payload prepared
      have counted := ih represents'
      have step := appends.step represents.sound
      rw [sameKey] at step counted
      cases acknowledged : counts (call, result.2) with
      | true =>
        have told : result.2 = call.acknowledge prepared := by
          rcases outcome with crashed | told
          · rw [crashed, crashes] at acknowledged
            cases acknowledged
          · exact told
        rw [told] at acknowledged
        obtain ⟨before, after⟩ := spends step enabled acknowledged
        rw [after] at counted
        rw [before]
        simp only [if_true, Bool.false_eq_true, if_false] at counted ⊢
        omega
      | false =>
        refine counted.trans ?_
        cases already : spent reservations with
        | false => split <;> simp
        | true => rw [stays step already]

/-- A key is reserved once more only while the log does not have it. -/
theorem countP_acknowledgesReservation_le
    (key : ReplayKey) (history : List (ReplayCall × Option Nat)) :
    (replayTrace prims [] history).countP (acknowledgesReservation key) ≤ 1 := by
  refine countP_replayTrace_le lawful (fun reservations => reservations[keyToken prims key]?.isSome)
      ?_ ?_ ?_ ?_ history (represents_empty prims)
  · intro reservations call outcome quiet
    cases outcome with
    | reserved seq bytes reservation => exact quiet.elim
    | failed error => cases call <;> rfl
    | crashed => cases call <;> rfl
    | consumed seq bytes appended reservation => cases call <;> rfl
  · intro reservations call prepared step enabled acknowledged
    cases call with
    | reserve requested intent commit =>
      have same : requested = key := by
        simpa [acknowledgesReservation, ReplayCall.acknowledge] using acknowledged
      subst same
      have fresh : reservations[keyToken prims requested]? = none := enabled
      rw [fresh]
      refine ⟨rfl, ?_⟩
      simp [ReplayCall.token]
    | consumeNonBoundary _ _ _ _ => cases acknowledged
    | consumeKeyHash _ _ _ _ => cases acknowledged
    | guardedConsume _ _ _ _ => cases acknowledged
  · intro call
    cases call <;> rfl
  · intro reservations keyHash reservation step present
    rw [getElem?_insert_reservation]
    split
    · rfl
    · exact present

/-- A consume record of a key is appended only while it is not consumed. -/
theorem countP_acknowledgesConsumption_le
    (key : ReplayKey) (history : List (ReplayCall × Option Nat)) :
    (replayTrace prims [] history).countP (acknowledgesConsumption prims key) ≤ 1 := by
  refine countP_replayTrace_le lawful (fun reservations =>
        reservations[keyToken prims key]?.any (·.state = .consumed))
      ?_ ?_ ?_ ?_ history (represents_empty prims)
  · intro reservations call outcome quiet
    cases outcome with
    | reserved seq bytes reservation => exact quiet.elim
    | failed error => rfl
    | crashed => rfl
    | consumed seq bytes appended reservation =>
      rw [quiet.1]
      rfl
  · intro reservations call prepared step enabled acknowledged
    have same : call.token prims = keyToken prims key := by
      cases call with
      | reserve _ _ _ => cases acknowledged
      | consumeNonBoundary _ _ _ _ | consumeKeyHash _ _ _ _ => exact of_decide_eq_true acknowledged
      | guardedConsume _ _ _ _ => exact of_decide_eq_true acknowledged
    have reserved : ∃ existing, reservations[call.token prims]? = some existing ∧
          existing.state = .reserved := by
      cases call with
      | reserve _ _ _ => cases acknowledged
      | consumeNonBoundary _ _ _ _ => exact enabled
      | consumeKeyHash _ _ _ _ => exact enabled
      | guardedConsume _ _ _ _ => exact enabled
    obtain ⟨existing, found, state⟩ := reserved
    rw [same] at step found ⊢
    rw [found, getElem?_insert_reservation, if_pos rfl]
    refine ⟨by simp [state], ?_⟩
    simp [step.consumed_of_present found]
  · intro call
    rfl
  · intro reservations keyHash reservation step consumed
    rw [getElem?_insert_reservation]
    split
    next same =>
      subst same
      obtain ⟨existing, found, _⟩ := (Option.any_eq_true _ _).mp consumed
      simp [step.consumed_of_present found]
    next => exact consumed

/-- What a returning call reports is in the log when it returns. -/
theorem acknowledged_reservationIn (represents : Represents prims file log reservations)
    (acknowledged : (replayStep prims file call cut).2.acknowledged = some reservation) :
    reservationIn prims (replayStep prims file call cut).1
      (call.token prims) = some reservation := by
  have effect := replayStep_effect lawful represents call cut
  generalize replayStep prims file call cut = result at effect acknowledged ⊢
  cases effect with
  | quiet represents' quiet =>
    rw [reservationIn_represents lawful represents']
    cases outcome : result.2 with
    | failed error | crashed =>
      rw [outcome] at acknowledged
      cases acknowledged
    | reserved seq bytes stored =>
      rw [outcome] at quiet
      exact quiet.elim
    | consumed seq bytes appended stored =>
      rw [outcome] at quiet acknowledged
      cases acknowledged
      exact quiet.2
  | appended appends sameKey enabled represents' outcome =>
    rename_i payload prepared
    rw [reservationIn_represents lawful represents', getElem?_insert_reservation, if_pos sameKey]
    rcases outcome with crashed | told
    · rw [crashed] at acknowledged
      cases acknowledged
    · rw [told] at acknowledged
      cases call <;> exact acknowledged

end

/-- Replay protection over a whole history of calls and crashes. -/
structure SingleUse (prims : ReplayPrimitives)
    (history : List (ReplayCall × Option Nat)) : Prop where
  reservedOnce : ∀ key, (replayTrace prims [] history).countP
        (acknowledgesReservation key) ≤ 1
  consumedOnce : ∀ key, (replayTrace prims [] history).countP
        (acknowledgesConsumption prims key) ≤ 1
  /-- Recovery never fails on the file. -/
  recovers : ∃ repaired recovery, recoverReplayWal prims (replayFile prims history) true =
        .ok (repaired, recovery) ∧ recovery.isClean = true
  /-- A key is reserved at revision 1 or consumed at revision 2. -/
  shape : ∀ keyHash reservation, reservationIn prims (replayFile prims history) keyHash =
        some reservation →
      reservation.state = .reserved ∧ reservation.revision = 1 ∨
        reservation.state = .consumed ∧ reservation.revision = 2
  /-- Between two moments a key only moves from reserved to consumed, with
  the same digests. -/
  moves : ∀ before after, history = before ++ after → ∀ keyHash reservation,
      reservationIn prims (replayFile prims before) keyHash = some reservation →
      ∃ later, reservationIn prims (replayFile prims history) keyHash =
          some later ∧ Moves reservation later
  /-- Whatever a caller was told is still there after every later recovery. -/
  durable : ∀ before call cut after, history = before ++ (call, cut) :: after → ∀ reservation,
        (replayStep prims (replayFile prims before) call
            cut).2.acknowledged = some reservation →
        ∃ later, reservationIn prims (replayFile prims history)
              (call.token prims) = some later ∧
            Moves reservation later

/-- Every history of reserve, recovery consume and guarded consume calls, each
cut at any byte by a crash or not at all, uses every nonce at most once. -/
theorem replay_single_use
    (prims : ReplayPrimitives) (lawful : prims.Lawful)
    (history : List (ReplayCall × Option Nat)) :
    SingleUse prims history where
  reservedOnce := fun key =>
    countP_acknowledgesReservation_le lawful key history
  consumedOnce := fun key =>
    countP_acknowledgesConsumption_le lawful key history
  recovers := by
    obtain ⟨log, reservations, represents⟩ := replayFile_represents lawful history
    obtain ⟨recovery, recovered, recovers⟩ := recoverReplayWal_represents lawful represents
    exact ⟨_, recovery, recovered, recovers.isClean⟩
  shape := by
    intro keyHash reservation found
    obtain ⟨log, reservations, represents⟩ := replayFile_represents lawful history
    rw [reservationIn_represents lawful represents] at found
    rcases (represents.sound keyHash reservation found).2 with
      ⟨state, revision, _⟩ | ⟨state, revision, _⟩
    · exact Or.inl ⟨state, revision⟩
    · exact Or.inr ⟨state, revision⟩
  moves := by
    rintro before after rfl keyHash reservation found
    exact reservationIn_advances lawful before after keyHash reservation found
  durable := by
    rintro before call cut after rfl reservation acknowledged
    obtain ⟨log, reservations, represents⟩ := replayFile_represents lawful before
    have reported := acknowledged_reservationIn lawful represents acknowledged
    have stepped : (replayStep prims (replayFile prims before) call cut).1 =
          replayFile prims (before ++ [(call, cut)]) := by
      rw [replayFile, replayFile, List.foldl_append]
      rfl
    rw [stepped] at reported
    have advances := reservationIn_advances lawful (before ++ [(call, cut)]) after
        (call.token prims)
    rw [List.append_assoc] at advances
    exact advances reservation reported

end Histories

namespace TornConsume

instance : Countable ReplayWalOperation :=
  Function.Injective.countable (f := ReplayWalOperation.recordType) <| by
    intro left right same
    cases left <;> cases right <;> first | rfl | cases same

instance : Countable ReplayWalPayload :=
  Function.Injective.countable (f := fun payload : ReplayWalPayload =>
      (payload.schemaVersion, payload.operation, payload.keyHash,
        payload.intentDigest, payload.commitDigest, payload.revision,
        payload.expectedRevision)) <| by
    rintro ⟨⟩ ⟨⟩ same
    simpa using same

def key : ReplayKey := ⟨⟨"alice"⟩, "forge", "n-1"⟩

/-- The SHA-256 digest of the preimage of `key`. -/
def keyDigest : Vector UInt8 32 :=
  #v[211, 198, 216, 108, 215, 150, 156, 198, 236, 128, 88, 45, 138, 24, 63, 1,
    5, 90, 166, 208, 81, 236, 100, 215, 31, 240, 85, 63, 53, 106, 161, 14]

def intentDigest : String :=
  formatSha256 (List.replicate 32 17)

def commitDigest : String :=
  formatSha256 (List.replicate 32 34)

def reservePayload : ReplayWalPayload where
  schemaVersion := replayWalSchemaVersion
  operation := .reserve
  keyHash := formatSha256 keyDigest.toList
  intentDigest := intentDigest
  commitDigest := commitDigest
  revision := 1
  expectedRevision := none

def consumePayload : ReplayWalPayload :=
  { reservePayload with
    operation := .consume
    revision := 2
    expectedRevision := some 1 }

def operationJson : ReplayWalOperation → String
  | .reserve => "reserve"
  | .consume => "consume"

def payloadJson (payload : ReplayWalPayload) : String :=
  let expected :=
    match payload.expectedRevision with
    | some revision => Nat.repr revision
    | none => "null"
  "\x7b" ++ ("\"schema_version\":\"0.1\",\"operation\":\"" ++ (operationJson payload.operation ++
      ("\",\"key_hash\":\"" ++ payload.keyHash ++
        "\",\"intent_digest\":\"" ++ payload.intentDigest ++
        "\",\"commit_digest\":\"" ++ payload.commitDigest ++
        "\",\"revision\":" ++ Nat.repr payload.revision ++
        ",\"expected_revision\":" ++ expected ++ "\x7d")))

def knownJson : List (ReplayWalPayload × Bytes) :=
  [reservePayload, consumePayload].map fun payload =>
    (payload, asBytes (payloadJson payload))

noncomputable def primitives : ReplayPrimitives where
  sha256 := fun bytes =>
    if bytes = keyHashDomain ++ lengthPrefixed (asBytes "alice") ++
        lengthPrefixed (asBytes "forge") ++ lengthPrefixed (asBytes "n-1")
    then keyDigest else Vector.replicate 32 0
  crc32c := crc32c
  toJson := Codec.code knownJson
  fromJson := Codec.uncode knownJson

theorem knownJson_admissible : Codec.Admissible knownJson := by
  have brace : asBytes "\x7b" = [123] := by decide
  have reserve : asBytes (operationJson reservePayload.operation) =
      [114, 101, 115, 101, 114, 118, 101] := by decide
  have consume : asBytes (operationJson consumePayload.operation) =
      [99, 111, 110, 115, 117, 109, 101] := by decide
  constructor
  · -- The two texts part at the first letter of the operation.
    simp only [knownJson, List.map_cons, List.map_nil, List.nodup_cons,
      List.mem_singleton, List.not_mem_nil, not_false_eq_true, List.nodup_nil, and_true]
    intro same
    simp only [payloadJson, asBytes_append, List.append_cancel_left_eq,
      reserve, consume, List.cons_append, List.cons.injEq] at same
    exact absurd same.1 (by decide)
  · intro pair member
    simp only [knownJson, List.map_cons, List.map_nil, List.mem_cons,
      List.not_mem_nil, or_false] at member
    rcases member with rfl | rfl
    · simp only [payloadJson, asBytes_append, brace, List.cons_append, List.head?_cons]
      decide
    · simp only [payloadJson, asBytes_append, brace, List.cons_append, List.head?_cons]
      decide

theorem primitives_lawful : primitives.Lawful where
  fromJson_toJson := Codec.uncode_code knownJson_admissible

/-- A reservation, a guarded consume cut after 40 bytes, its retry, and a
repeated recovery consume. -/
def history : List (ReplayCall × Option Nat) :=
  [(.reserve key intentDigest commitDigest, none),
    (.guardedConsume key intentDigest commitDigest 1, some 40),
    (.guardedConsume key intentDigest commitDigest 1, none),
    (.consumeKeyHash (formatSha256 keyDigest.toList) intentDigest commitDigest 1, none)]

end TornConsume

/-- A consume that is cut off in its record, and then repeated. -/
theorem replay_single_use_torn_consume : SingleUse TornConsume.primitives TornConsume.history :=
  replay_single_use TornConsume.primitives TornConsume.primitives_lawful
    TornConsume.history

end ForgeCore.Replay
