import ForgeCore.ActionReplay.Plans
import ForgeCore.Library.Json
import ForgeCore.Library.Utf8

/-!
# Actions and approvals

Along every history of the store, with losses anywhere, keys and actions
stay in one-to-one correspondence.
-/

namespace ForgeCore.ActionReplay

open Text Digest ForgeCore.Frame Machine
open Checked Durable

def Action.requests : Action → List ActionRequest
  | reserve request => [request]
  | commit request => [request]
  | beginGuarded request => [request]
  | commitGuarded => []
  | dropGuard => []

def Action.commits : Action → Bool
  | commit _ => true
  | commitGuarded => true
  | _ => false

def requestsOf (history : History) : List ActionRequest :=
  history.flatMap fun step => step.1.requests

section Carrying

variable {prims : ReplayPrimitives} {request : ActionRequest} {wal : Bytes} {scan : Scan}

/-- The log after some of the lines of a call. -/
def Extended (prims : ReplayPrimitives) (request : ActionRequest)
    (scan : Scan) (after : Bytes) : Prop :=
  ∃ next, Represents prims after next ∧ Grows prims request scan.projection next.projection

def Recorded (prims : ReplayPrimitives) (request : ActionRequest)
    (scan : Scan) (entry : WorkflowActionReplayEntry) (after : Bytes) : Prop :=
  ∃ next, Represents prims after next ∧ Grows prims request scan.projection next.projection ∧
    next.projection.entries[entry.keyHash]? = some entry

theorem appendAll_ensures {lines : List Bytes} (represents : Represents prims wal scan)
    (supports : Supports prims request entry wal scan lines) :
    (appendAll lines).Ensures wal (Extended prims request scan)
      (fun _ after => Recorded prims request scan entry after) := by
  induction lines generalizing wal scan with
  | nil =>
    exact Computation.ensures_pure ⟨scan, represents, Grows.refl scan.projection, supports⟩
  | cons line rest ih =>
    obtain ⟨next, extended, grows, supported⟩ := supports
    have before : Extended prims request scan wal := ⟨scan, represents, Grows.refl scan.projection⟩
    have appended : (appendWal line).Ensures wal (Extended prims request scan)
          (fun _ after => after = wal ++ line) := Computation.ensures_step before rfl
    refine Computation.ensures_bind appended ?_
    intro _ after after_eq
    subst after_eq
    refine Computation.ensures_mono (ih extended supported) ?_ ?_
    · rintro last ⟨final, represented, grown⟩
      exact ⟨final, represented, grows.trans grown⟩
    · rintro _ last ⟨final, represented, grown, found⟩
      exact ⟨final, represented, grows.trans grown, found⟩

theorem carryOut_ensures {plan : Plan} (represents : Represents prims wal scan)
    (planned : Planned prims wal scan request plan) :
    (carryOut plan).Ensures wal (Extended prims request scan)
      (fun answer after => answer = .ok plan.mutation ∧
      Recorded prims request scan plan.mutation.entry after) := by
  refine Computation.ensures_bind (appendAll_ensures represents planned.supports) ?_
  intro _ after recorded
  exact Computation.ensures_pure ⟨rfl, recorded⟩

end Carrying

/-- What is known of the log between two calls. -/
structure Holds (prims : ReplayPrimitives)
    (requests : List ActionRequest) (store : Store) (scan : Scan) : Prop where
  represents : Represents prims store.wal scan
  sourced : ∀ (key : String) entry, scan.projection.entries[key]? = some entry →
      ∃ request ∈ requests, request.validate = .ok () ∧ Binds prims entry request
  guarded : ∀ prepared, store.guard = some prepared → ∃ request ∈ requests,
      Planned prims store.wal scan request prepared.plan ∧
        prepared.plan.mutation.entry.state = .committed

/-- Every entry is still there, and none has moved back. -/
def Keeps (before after : Projection) : Prop :=
  ∀ (key : String) entry, before.entries[key]? = some entry →
    ∃ later, after.entries[key]? = some later ∧ Advances entry later

/-- The log has the entry that the host was told about. -/
structure Acknowledged (prims : ReplayPrimitives) (requests : List ActionRequest) (action : Action)
    (mutation : WorkflowActionReplayMutation) (projection : Projection) : Prop where
  stored : projection.entries[mutation.entry.keyHash]? = some mutation.entry
  requested : ∃ request ∈ requests, request.validate = .ok () ∧ Binds prims mutation.entry request ∧
      ∀ own ∈ action.requests, own = request
  committed : action.commits = true → mutation.entry.state = .committed

def StepEffect (prims : ReplayPrimitives)
    (requests : List ActionRequest) (action : Action) (scan : Scan)
    (result : Store × Option Answer) : Prop :=
  ∃ next, Holds prims requests result.1 next ∧ Keeps scan.projection next.projection ∧
    ∀ mutation, result.2 = some (.ok mutation) →
      Acknowledged prims requests action mutation next.projection

section Steps

variable {prims : ReplayPrimitives} {requests : List ActionRequest} {store : Store} {scan : Scan}

theorem Keeps.refl (projection : Projection) : Keeps projection projection := by
  intro key entry found
  exact ⟨entry, found, Advances.refl entry⟩

theorem Keeps.trans (earlier : Keeps first second) (later : Keeps second third) :
    Keeps first third := by
  intro key entry found
  obtain ⟨middle, middleFound, toMiddle⟩ := earlier key entry found
  obtain ⟨last, lastFound, toLast⟩ := later key middle middleFound
  exact ⟨last, lastFound, toMiddle.trans toLast⟩

theorem Holds.grow
    (holds : Holds prims requests store scan)
    {request : ActionRequest} (member : request ∈ requests)
    (valid : request.validate = .ok ())
    {after : Bytes} {next : Scan}
    (represents : Represents prims after next)
    (grows : Grows prims request scan.projection next.projection) :
    Holds prims requests ⟨after, none⟩ next where
  represents := represents
  sourced := by
    intro key later found
    rcases grows.sourced key later found with
      ⟨entry, earlier, advances⟩ | binds
    · obtain ⟨source, made, validated, bound⟩ := holds.sourced key entry earlier
      exact ⟨source, made, validated, bound.advances advances⟩
    · exact ⟨request, member, valid, binds⟩
  guarded := by
    intro prepared held
    cases held

theorem Holds.weaken
    (holds : Holds prims requests store scan)
    (more : List ActionRequest) :
    Holds prims (requests ++ more) store scan where
  represents := holds.represents
  sourced := by
    intro key entry found
    obtain ⟨request, member, rest⟩ := holds.sourced key entry found
    exact ⟨request, List.mem_append_left more member, rest⟩
  guarded := by
    intro prepared held
    obtain ⟨request, member, rest⟩ := holds.guarded prepared held
    exact ⟨request, List.mem_append_left more member, rest⟩

variable {action : Action} {plan : Bytes → Except WorkflowActionReplayError Plan}

theorem stepEffect_idle {answer : Option Answer}
    (holds : Holds prims requests store scan) (silent : ∀ mutation, answer ≠ some (.ok mutation)) :
    StepEffect prims requests action scan (store, answer) := by
  refine ⟨scan, holds, Keeps.refl scan.projection, ?_⟩
  intro mutation answered
  exact absurd answered (silent mutation)

theorem stepEffect_carryOut (holds : Holds prims requests store scan)
    {request : ActionRequest} (member : request ∈ requests) {plan : Plan}
    (planned : Planned prims store.wal scan request plan)
    (own : ∀ other ∈ action.requests, other = request) (committed :
      action.commits = true → plan.mutation.entry.state = .committed) (survives : Nat) :
    StepEffect prims requests action scan (settle (carryOut plan survives store.wal)) := by
  have ensures := carryOut_ensures holds.represents planned survives
  cases run : carryOut plan survives store.wal with
  | lost after =>
    rw [run] at ensures
    obtain ⟨next, represents, grows⟩ := ensures
    refine ⟨next, holds.grow member planned.valid represents grows, grows.kept, ?_⟩
    intro mutation answered
    cases answered
  | finished after left answer =>
    rw [run] at ensures
    obtain ⟨rfl, next, represents, grows, found⟩ := ensures
    refine ⟨next, holds.grow member planned.valid represents grows, grows.kept, ?_⟩
    intro mutation answered
    cases answered
    exact ⟨found, ⟨request, member, planned.valid, planned.binds, own⟩, committed⟩

theorem carryOutPlanned_error
    {wal : Bytes} {error : WorkflowActionReplayError} (failed : plan wal = .error error)
    (survives : Nat) :
    carryOutPlanned plan survives wal = .finished wal survives (.error error) := by
  rw [carryOutPlanned, Computation.bind_run, Computation.inspect_run, failed]
  rfl

theorem carryOutPlanned_ok
    {wal : Bytes} {planned : Plan} (succeeded : plan wal = .ok planned) (survives : Nat) :
    carryOutPlanned plan survives wal = carryOut planned survives wal := by
  rw [carryOutPlanned, Computation.bind_run, Computation.inspect_run, succeeded]

/-- A call of its own that takes the free lock. -/
theorem stepEffect_planned (holds : Holds prims requests store scan) (free : store.guard = none)
    {request : ActionRequest} (member : request ∈ requests)
    (own : ∀ other ∈ action.requests, other = request)
    (planned : ∀ chosen, plan store.wal = .ok chosen → Planned prims store.wal scan request chosen ∧
      (action.commits = true → chosen.mutation.entry.state = .committed)) (survives : Nat) :
    StepEffect prims requests action scan (settle (carryOutPlanned plan survives store.wal)) := by
  cases result : plan store.wal with
  | error error =>
    rw [carryOutPlanned_error result]
    have same : store = ⟨store.wal, none⟩ := by
      rw [← free]
    rw [settle, ← same]
    exact stepEffect_idle holds (by simp)
  | ok chosen =>
    rw [carryOutPlanned_ok result]
    obtain ⟨supported, committed⟩ := planned chosen result
    exact stepEffect_carryOut holds member supported own committed survives

theorem stepEffect_begin (lawful : prims.Lawful) (holds : Holds prims requests store scan)
    {request : ActionRequest} (member : request ∈ requests) {prepared : PreparedReplayCommit}
    (begun : beginWorkflowActionReplayReservation prims request store.wal = .ok prepared) :
    StepEffect prims requests (.beginGuarded request) scan (⟨store.wal, some prepared⟩, none) := by
  refine ⟨scan, ⟨holds.represents, holds.sourced, ?_⟩, Keeps.refl scan.projection, ?_⟩
  · intro held isHeld
    cases isHeld
    exact ⟨request, member, begin_planned lawful holds.represents begun⟩
  · intro mutation answered
    cases answered

theorem stepEffect_drop (holds : Holds prims requests store scan) :
    StepEffect prims requests action scan (⟨store.wal, none⟩, none) := by
  refine ⟨scan, ⟨holds.represents, holds.sourced, ?_⟩, Keeps.refl scan.projection, ?_⟩
  · intro held isHeld
    cases isHeld
  · intro mutation answered
    cases answered

theorem stepEffect_advance (lawful : prims.Lawful) (before : Holds prims requests store scan)
    (action : Action) (survives : Nat) : StepEffect prims (requests ++ action.requests) action scan
      (advance prims store action survives) := by
  have holds := before.weaken action.requests
  have waits : StepEffect prims (requests ++ action.requests) action scan (store, none) :=
    stepEffect_idle holds (by simp)
  cases held : store.guard with
  | none =>
    cases action with
    | reserve request =>
      simp only [advance, held]
      refine stepEffect_planned holds held
          (List.mem_append_right requests (List.mem_singleton_self _))
          (by simp [Action.requests]) ?_ survives
      intro chosen planned
      exact ⟨planReserve_planned lawful holds.represents planned, by simp [Action.commits]⟩
    | commit request =>
      simp only [advance, held]
      refine stepEffect_planned holds held
          (List.mem_append_right requests (List.mem_singleton_self _))
          (by simp [Action.requests]) ?_ survives
      intro chosen planned
      obtain ⟨supported, committed⟩ := planCommit_planned lawful holds.represents planned
      exact ⟨supported, fun _ => committed⟩
    | beginGuarded request =>
      simp only [advance, held]
      split
      · next prepared begun =>
        exact stepEffect_begin lawful holds (List.mem_append_right requests
              (List.mem_singleton_self _)) begun
      · exact stepEffect_idle holds (by simp)
    | commitGuarded =>
      simp only [advance, held]
      exact waits
    | dropGuard => exact stepEffect_drop holds
  | some prepared =>
    cases action with
    | reserve request | commit request | beginGuarded request =>
      simp only [advance, held]
      exact waits
    | commitGuarded =>
      simp only [advance, held]
      obtain ⟨request, member, planned, committed⟩ := holds.guarded prepared held
      exact stepEffect_carryOut holds member planned
          (by simp [Action.requests]) (fun _ => committed) survives
    | dropGuard => exact stepEffect_drop holds

end Steps

/-- The entry that a recovery after the history finds under a key. -/
def entryAfter (prims : ReplayPrimitives) (history : History)
    (key : String) : Option WorkflowActionReplayEntry :=
  match
    recoverWorkflowActionReplay prims (storeAfter prims history).wal
  with
  | .ok recovery => recovery.entries[key]?
  | .error _ => none

/-- No two origin events of the requests have the same hash. -/
def CollisionFree (prims : ReplayPrimitives) (requests : List ActionRequest) : Prop :=
  ∀ first ∈ requests, ∀ second ∈ requests, first.originHash prims = second.originHash prims →
      first.originEventId = second.originEventId

/-- Requests and committed events determine each other. -/
structure BindsOneToOne (prims : ReplayPrimitives) (history : History) : Prop where
  /-- The log can be recovered. -/
  recovers : ∃ recovery, recoverWorkflowActionReplay prims
      (storeAfter prims history).wal = .ok recovery
  /-- Every entry binds a valid request of the history. -/
  sourced : ∀ key entry, entryAfter prims history key = some entry →
      ∃ request ∈ requestsOf history, request.validate = .ok () ∧ Binds prims entry request
  /-- Requests that were bound at any two times, and that share the packet or
  the origin event, are the same request. -/
  bound : ∀ before after, history = before ++ after → ∀ firstKey firstEntry secondKey secondEntry,
      entryAfter prims before firstKey = some firstEntry →
      entryAfter prims history secondKey = some secondEntry →
      ∀ first ∈ requestsOf history, ∀ second ∈ requestsOf history, Binds prims firstEntry first →
        Binds prims secondEntry second →
        (first.actionPacketDigest = second.actionPacketDigest ∨
          first.originEventId = second.originEventId) →
        first = second
  /-- An entry stays for ever, and only moves from reserved to committed. -/
  moves : ∀ before after, history = before ++ after →
    ∀ key entry, entryAfter prims before key = some entry →
      ∃ later, entryAfter prims history key = some later ∧ Advances entry later
  /-- A call that is acknowledged has bound its request. -/
  acknowledged : ∀ before action survives after mutation,
    history = before ++ (action, survives) :: after →
    (advance prims (storeAfter prims before) action survives).2 = some (.ok mutation) →
      (∃ request ∈ requestsOf (before ++ [(action, survives)]), request.validate = .ok () ∧
          Binds prims mutation.entry request ∧
          ∀ own ∈ action.requests, own = request) ∧
      (action.commits = true → mutation.entry.state = .committed) ∧
      ∃ later, entryAfter prims history mutation.entry.keyHash = some later ∧
          Advances mutation.entry later
  /-- A request that an entry binds is answered from the log, and nothing is
  appended. -/
  retries : ∀ key entry request survives, entryAfter prims history key = some entry →
    request.validate = .ok () → Binds prims entry request →
      reserveWorkflowAction prims request survives
          (storeAfter prims history).wal =
        .finished (storeAfter prims history).wal survives
          (.ok (existingMutation entry)) ∧
      (entry.state = .committed → commitWorkflowAction prims request survives
            (storeAfter prims history).wal =
          .finished (storeAfter prims history).wal survives
            (.ok (existingMutation entry)) ∧
        beginWorkflowActionReplayReservation prims request
            (storeAfter prims history).wal =
          .ok (.existing entry) ∧
        commitAfterAuthoritativeLedger (.existing entry) survives
            (storeAfter prims history).wal =
          .finished (storeAfter prims history).wal survives
            (.ok (existingMutation entry)))

section Histories

variable {prims : ReplayPrimitives}

theorem storeAfter_concat (history : History) (step : Action × Nat) :
    storeAfter prims (history ++ [step]) = (advance prims (storeAfter prims history) step.1
      step.2).1 := by
  rw [storeAfter, List.foldl_append]
  rfl

theorem requestsOf_concat (history : History) (step : Action × Nat) :
    requestsOf (history ++ [step]) = requestsOf history ++ step.1.requests := by
  simp [requestsOf]

theorem holds_append (lawful : prims.Lawful) (holds :
      Holds prims (requestsOf before) (storeAfter prims before) scan) (after : History) :
    ∃ next, Holds prims (requestsOf (before ++ after)) (storeAfter prims (before ++ after)) next ∧
      Keeps scan.projection next.projection := by
  induction after using List.reverseRecOn with
  | nil =>
    rw [List.append_nil]
    exact ⟨scan, holds, Keeps.refl scan.projection⟩
  | append_singleton earlier step ih =>
    obtain ⟨middle, middleHolds, kept⟩ := ih
    obtain ⟨next, nextHolds, keptAgain, -⟩ := stepEffect_advance lawful middleHolds step.1 step.2
    refine ⟨next, ?_, kept.trans keptAgain⟩
    rw [← List.append_assoc, storeAfter_concat, requestsOf_concat]
    exact nextHolds

theorem holds_storeAfter (lawful : prims.Lawful) (history : History) :
    ∃ scan, Holds prims (requestsOf history) (storeAfter prims history) scan := by
  have start : Holds prims (requestsOf []) (storeAfter prims [])
      {} :=
    { represents := represents_empty
      sourced := by
        intro key entry found
        simp at found
      guarded := by
        intro prepared held
        cases held }
  obtain ⟨scan, holds, -⟩ := holds_append lawful start history
  exact ⟨scan, holds⟩

theorem entryAfter_represents
    (represents : Represents prims (storeAfter prims history).wal scan) (key : String) :
    entryAfter prims history key = scan.projection.entries[key]? := by
  rw [entryAfter, recover_represents represents]
  rfl

theorem entryAfter_append (lawful : prims.Lawful) (before after : History)
    (found : entryAfter prims before key = some entry) :
    ∃ later, entryAfter prims (before ++ after) key = some later ∧ Advances entry later := by
  obtain ⟨scan, holds⟩ := holds_storeAfter lawful before
  obtain ⟨next, nextHolds, kept⟩ := holds_append lawful holds after
  rw [entryAfter_represents holds.represents] at found
  rw [entryAfter_represents nextHolds.represents]
  exact kept key entry found

/-- Two entries of one recovery that share the packet or the origin are the
same entry. -/
theorem entryAfter_unique (lawful : prims.Lawful)
    (firstFound : entryAfter prims history firstKey = some first)
    (secondFound : entryAfter prims history secondKey = some second)
    (shared : first.actionPacketDigest = second.actionPacketDigest ∨
      first.originEventIdHash = second.originEventIdHash) : first = second := by
  obtain ⟨scan, holds⟩ := holds_storeAfter lawful history
  rw [entryAfter_represents holds.represents] at firstFound secondFound
  have consistent := holds.represents.consistent
  have sameKey : firstKey = secondKey := by
    rcases shared with packet | origin
    · exact consistent.packets.unique firstFound secondFound packet
    · exact consistent.origins.unique firstFound secondFound origin
  subst sameKey
  rw [firstFound] at secondFound
  exact Option.some.inj secondFound

section Retries

variable {wal : Bytes} {scan : Scan} {request : ActionRequest}
  {key : String} {entry : WorkflowActionReplayEntry}

section

variable (represents : Represents prims wal scan)
  (found : scan.projection.entries[key]? = some entry)

include represents found

theorem retry_finds (binds : Binds prims entry request) :
    (scan.recovery wal.length).entries[request.keyHash prims]? = some entry ∧
      request.validateBinding prims entry = .ok () := by
  have keyed : key = request.keyHash prims := by
    rw [(represents.consistent.keyed key entry found).2, binds.packet, binds.origin]
    rfl
  rw [← keyed]
  exact ⟨found, validateBinding_eq_ok.mpr ⟨binds.packet, binds.origin, binds.ledger⟩⟩

section

variable (valid : request.validate = .ok ()) (binds : Binds prims entry request)

include valid binds

theorem planReserve_retry :
    planReserve prims request wal = .ok ⟨[], existingMutation entry⟩ := by
  obtain ⟨lookup, binding⟩ := retry_finds represents found binds
  rw [planReserve, valid, ok_bind, recover_represents represents, ok_bind]
  simp only [lookup]
  rw [binding, ok_bind]
  rfl

theorem planCommit_retry
    (settled : entry.state = .committed) :
    planCommit prims request wal = .ok ⟨[], existingMutation entry⟩ := by
  obtain ⟨lookup, binding⟩ := retry_finds represents found binds
  rw [planCommit, valid, ok_bind, recover_represents represents, ok_bind]
  simp only [lookup]
  rw [binding, ok_bind, if_pos settled]
  rfl

theorem begin_retry
    (settled : entry.state = .committed) :
    beginWorkflowActionReplayReservation prims request wal = .ok (.existing entry) := by
  obtain ⟨lookup, binding⟩ := retry_finds represents found binds
  rw [beginWorkflowActionReplayReservation, valid, ok_bind, recover_represents represents, ok_bind]
  simp only [lookup]
  rw [binding, ok_bind, if_pos settled]
  rfl

end

end

end Retries

/-- Across every history of calls, guarded commits and process losses, the log
binds packets and origins one to one.  Two origins are told apart by their
digests alone, so the requests must not collide in them. -/
theorem workflow_action_replay_binds_one_to_one
    (prims : ReplayPrimitives) (lawful : prims.Lawful)
    (history : History)
    (collisionFree : CollisionFree prims (requestsOf history)) :
    BindsOneToOne prims history where
  recovers := by
    obtain ⟨scan, holds⟩ := holds_storeAfter lawful history
    exact ⟨_, recover_represents holds.represents⟩
  sourced := by
    intro key entry found
    obtain ⟨scan, holds⟩ := holds_storeAfter lawful history
    rw [entryAfter_represents holds.represents] at found
    exact holds.sourced key entry found
  bound := by
    intro before after split firstKey firstEntry secondKey secondEntry
      firstFound secondFound first firstMember second secondMember
      firstBinds secondBinds shared
    subst split
    -- The first entry is still there, so both stand in one recovery.
    obtain ⟨later, laterFound, advances⟩ := entryAfter_append lawful before after firstFound
    have laterBinds := firstBinds.advances advances
    have same : later = secondEntry := by
      apply entryAfter_unique lawful laterFound secondFound
      rcases shared with packet | origin
      · left
        rw [laterBinds.packet, secondBinds.packet, packet]
      · right
        rw [laterBinds.origin, secondBinds.origin,
          ActionRequest.originHash, ActionRequest.originHash, origin]
    subst same
    have packet := laterBinds.packet.symm.trans secondBinds.packet
    have origin := collisionFree first firstMember second secondMember
        (laterBinds.origin.symm.trans secondBinds.origin)
    have ledger := laterBinds.ledger.symm.trans secondBinds.ledger
    cases first
    cases second
    simp only [ActionRequest.mk.injEq]
    exact ⟨packet, origin, ledger⟩
  moves := by
    intro before after split key entry found
    subst split
    exact entryAfter_append lawful before after found
  acknowledged := by
    intro before action survives after mutation split answered
    subst split
    obtain ⟨scan, holds⟩ := holds_storeAfter lawful before
    obtain ⟨next, nextHolds, -, acknowledges⟩ := stepEffect_advance lawful holds action survives
    have acknowledged := acknowledges mutation answered
    rw [requestsOf_concat]
    refine ⟨acknowledged.requested, acknowledged.committed, ?_⟩
    have represents : Represents prims (storeAfter prims (before ++ [(action, survives)])).wal
          next := by
      rw [storeAfter_concat]
      exact nextHolds.represents
    have stored : entryAfter prims (before ++ [(action, survives)])
          mutation.entry.keyHash = some mutation.entry := by
      rw [entryAfter_represents represents]
      exact acknowledged.stored
    have kept := entryAfter_append lawful (before ++ [(action, survives)]) after stored
    rw [List.append_assoc] at kept
    exact kept
  retries := by
    intro key entry request survives found valid binds
    obtain ⟨scan, holds⟩ := holds_storeAfter lawful history
    have represents := holds.represents
    rw [entryAfter_represents represents] at found
    refine ⟨carryOutPlanned_ok (planReserve_retry represents found valid binds) survives, ?_⟩
    intro settled
    exact ⟨carryOutPlanned_ok (planCommit_retry represents found valid binds settled) survives,
      begin_retry represents found valid binds settled, rfl⟩

end Histories

/-! ## A reservation that is lost between its two lines -/

namespace LostReservation

def operationName : WorkflowActionReplayOperation → String
  | .reserve => "reserve"
  | .commit => "commit"

/-- The members of a record, with the names in canonical order.  The stored
form has its digest between two of them. -/
def recordJson (record : UnsignedRecord) (digest : List (String × Json)) : Json :=
  .object ([("action_packet_digest", .string record.actionPacketDigest),
      ("key_hash", .string record.keyHash), ("operation", .string (operationName record.operation)),
      ("origin_event_id_hash", .string record.originEventIdHash), ("planned_ledger_record_digest",
        .string record.plannedLedgerRecordDigest),
      ("prior_record_digest", .string record.priorRecordDigest)] ++ digest ++
    [("schema_version", .string record.schemaVersion), ("sequence", Json.nat record.sequence)])

def unsignedToVec (record : UnsignedRecord) : Bytes :=
  asBytes (String.ofList (recordJson record []).render)

def storedToVec (record : StoredRecord) : Bytes :=
  asBytes (String.ofList
    (recordJson record.unsigned [("record_digest", .string record.recordDigest)]).render)

theorem operationName_injective : Function.Injective operationName := by
  intro left right same
  cases left <;> cases right <;> simp_all [operationName]

theorem storedToVec_injective : Function.Injective storedToVec := by
  intro left right same
  have texts := congrArg fromUtf8 same
  simp only [storedToVec, fromUtf8_asBytes, Option.some.injEq] at texts
  have values := Json.render_injective (String.ofList_injective texts)
  simp only [recordJson, List.cons_append, List.nil_append, Json.object.injEq,
    List.cons.injEq, Prod.mk.injEq, Json.string.injEq, true_and, and_true] at values
  obtain ⟨packet, key, operation, origin, ledger, prior, digest, schema, sequence⟩ := values
  have sameOperation := operationName_injective operation
  have sameSequence := Json.decimal_injective (Json.number.inj sequence)
  obtain ⟨⟨_, _, _, _, _, _, _, _⟩, _⟩ := left
  obtain ⟨⟨_, _, _, _, _, _, _, _⟩, _⟩ := right
  simp_all

def request : ActionRequest where
  actionPacketDigest := formatSha256 (List.replicate 32 17)
  originEventId := "host:event:1"
  plannedLedgerRecordDigest := formatSha256 (List.replicate 32 34)

def originDigest : Vector UInt8 32 :=
  #v[211, 24, 118, 93, 118, 17, 203, 72, 36, 193, 181, 25, 124, 194, 236,
    136, 129, 62, 133, 71, 145, 199, 219, 4, 117, 200, 117, 126, 6, 136, 16, 137]

def keyDigest : Vector UInt8 32 :=
  #v[239, 24, 233, 235, 231, 32, 71, 128, 20, 239, 127, 226, 125, 115, 29,
    95, 148, 192, 40, 248, 60, 136, 48, 202, 18, 169, 255, 128, 26, 97, 135, 28]

def reserveDigest : Vector UInt8 32 :=
  #v[183, 133, 13, 113, 243, 190, 144, 68, 105, 233, 36, 171, 244, 16, 73,
    108, 177, 127, 140, 32, 167, 126, 91, 200, 169, 144, 205, 70, 51, 63, 164, 243]

def commitDigest : Vector UInt8 32 :=
  #v[208, 42, 84, 111, 183, 25, 94, 184, 127, 132, 248, 121, 197, 189, 124,
    77, 52, 212, 160, 212, 255, 181, 77, 199, 118, 132, 170, 58, 51, 164, 8, 214]

def reserveRecord : UnsignedRecord where
  schemaVersion := workflowActionReplaySchemaVersion
  sequence := 1
  operation := .reserve
  keyHash := formatSha256 keyDigest.toList
  actionPacketDigest := request.actionPacketDigest
  originEventIdHash := formatSha256 originDigest.toList
  plannedLedgerRecordDigest := request.plannedLedgerRecordDigest
  priorRecordDigest := genesisRecordDigest

def commitRecord : UnsignedRecord :=
  { reserveRecord with
    sequence := 2
    operation := .commit
    priorRecordDigest := formatSha256 reserveDigest.toList }

/-- The SHA-256 digests of what the history hashes. -/
def knownDigests : List (Bytes × Vector UInt8 32) :=
  [(originHashDomain ++ lengthPrefixed (asBytes request.originEventId), originDigest),
    (keyHashDomain ++ lengthPrefixed (asBytes request.actionPacketDigest) ++
      lengthPrefixed (asBytes (formatSha256 originDigest.toList)), keyDigest),
    (unsignedToVec reserveRecord, reserveDigest), (unsignedToVec commitRecord, commitDigest)]

open Classical in
noncomputable def primitives : ReplayPrimitives where
  sha256 bytes :=
    match knownDigests.find? (fun known => known.1 = bytes) with
    | some known => known.2
    | none => Vector.replicate 32 0
  unsignedToVec := unsignedToVec
  storedToVec := storedToVec
  fromSlice bytes :=
    if written : ∃ record : StoredRecord, storedToVec record = bytes then
      .ok written.choose
    else
      .error "expected value"
  walPath := "wal/workflow-action-replay.jsonl"

theorem primitives_lawful : primitives.Lawful where
  storedToVec_ne_nil := by
    simp [primitives, storedToVec, recordJson, Json.render, asBytes]
  lineFeed_not_mem := by
    intro record
    simp only [primitives, storedToVec, ByteLines.lineFeed, lineFeed_mem_asBytes,
      String.toList_ofList]
    exact Json.lineFeed_not_mem_render _
  fromSlice_storedToVec := by
    intro record _
    have written : ∃ other : StoredRecord, storedToVec other = storedToVec record := ⟨record, rfl⟩
    simp only [primitives, dif_pos written]
    exact congrArg Except.ok (storedToVec_injective written.choose_spec)

/-- The process of a guarded commit is lost after the reserve line.  The
request is begun and committed again, and then reserved once more. -/
def history : History :=
  [(.beginGuarded request, 0), (.commitGuarded, 1), (.beginGuarded request, 0), (.commitGuarded, 2),
    (.reserve request, 1)]

theorem collisionFree : CollisionFree primitives (requestsOf history) := by
  intro first firstMember second secondMember _
  simp only [requestsOf, history, Action.requests, List.flatMap_cons,
    List.flatMap_nil, List.append_nil, List.nil_append, List.cons_append,
    List.mem_cons, List.not_mem_nil, or_false, or_self] at firstMember secondMember
  rw [firstMember, secondMember]

end LostReservation

/-- A history in which a reservation is lost. -/
theorem workflow_action_replay_binds_one_to_one_lost :
    BindsOneToOne LostReservation.primitives LostReservation.history :=
  workflow_action_replay_binds_one_to_one LostReservation.primitives
    LostReservation.primitives_lawful LostReservation.history
    LostReservation.collisionFree

end ForgeCore.ActionReplay
