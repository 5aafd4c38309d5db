import ForgeCore.EventLog.Json

/-!
# The lifecycle of a conflict

Whatever the order of the calls, a conflict is detected at most once and
leaves the pending state at most once, by a call whose policy authorises its
principal.  The ledger always passes the strict validator.
-/

namespace ForgeCore.EventLog

open List Machine

/-! ## What the events of a ledger say -/

def GovernanceEvent.detectedId : GovernanceEvent → Option String
  | .detected _ _ conflict => some conflict.conflictId.value
  | _ => none

/-- The conflict that leaves the pending state. -/
def GovernanceEvent.closedId : GovernanceEvent → Option String
  | .detected _ _ _ => none
  | .resolved _ _ conflictId _ _ => some conflictId.value
  | .escalated _ _ conflictId => some conflictId.value

def detectedIds (events : List GovernanceEvent) : List String :=
  events.filterMap GovernanceEvent.detectedId

def closedIds (events : List GovernanceEvent) : List String :=
  events.filterMap GovernanceEvent.closedId

/-- The call that appended the event, under a policy that authorises its
principal; a resolution names that principal as its arbiter. -/
inductive Authorises : GovernanceCall → GovernanceEvent → Prop where
  | resolved (sequence nowUnix : Nat) (conflictId : StableId)
      (arbiter : PrincipalId) (decision : ResolutionDecision)
      (policy : GovernancePolicy)
      (authorised : policy.canArbitrate arbiter = true) :
      Authorises (.arbitrate conflictId arbiter decision policy nowUnix)
        (.resolved sequence nowUnix conflictId arbiter decision)
  | escalated (sequence nowUnix : Nat) (conflictId : StableId)
      (principal : PrincipalId) (policy : GovernancePolicy)
      (authorised : policy.canArbitrate principal = true) :
      Authorises (.escalate conflictId principal policy nowUnix)
        (.escalated sequence nowUnix conflictId)

/-- The one event that a call may append to a ledger with a projection. -/
inductive GovernanceAppends (projection : ArbitrationProjection) :
    GovernanceCall → GovernanceEvent → Prop where
  | detected (conflict : ConflictContract) (nowUnix : Nat)
      (fresh : projection.conflicts.contains conflict.conflictId.value = false) :
      GovernanceAppends projection (.record conflict nowUnix)
        (.detected (projection.sequence + 1) nowUnix conflict)
  | closed (call : GovernanceCall) (event : GovernanceEvent)
      (conflictId : StableId) (conflict : ConflictContract)
      (found : projection.conflicts[conflictId.value]? = some conflict)
      (pending : conflict.resolution = .pending)
      (closes : event.closedId = some conflictId.value)
      (numbered : event.sequence = projection.sequence + 1)
      (authorised : Authorises call event) :
      GovernanceAppends projection call event

variable {projection : ArbitrationProjection} {event : GovernanceEvent}
    {conflict : ConflictContract} {events : List GovernanceEvent}

section Calls

variable {codec : EventCodec GovernanceEvent}

/-- A call either reports no event and leaves the file, or appends one. -/
inductive CallOutcome (codec : EventCodec GovernanceEvent)
    (file : List UInt8) (projection : ArbitrationProjection)
    (call : GovernanceCall) : List UInt8 × Bool → Prop where
  | silent : CallOutcome codec file projection call (file, false)
  | appends (event : GovernanceEvent)
      (below : projection.sequence < u64Max)
      (kind : GovernanceAppends projection call event) :
      CallOutcome codec file projection call
        (append codec file event, true)

variable {file : List UInt8}

theorem closePending_outcome (readable : replayBytes governanceDomain codec file = .ok projection)
    (call : GovernanceCall) (conflictId : StableId)
    (principal : PrincipalId) (policy : GovernancePolicy) (event : Nat → GovernanceEvent)
    (closes : ∀ number, (event number).closedId = some conflictId.value)
    (numbered : ∀ number, (event number).sequence = number) (authorises :
      policy.canArbitrate principal = true → ∀ number, Authorises call (event number)) :
    CallOutcome codec file projection call
      ((closePending codec file conflictId principal policy event).1,
      (closePending codec file conflictId principal policy event).2.appended) := by
  rw [closePending]
  cases gate : policy.canArbitrate principal with
  | false => exact .silent
  | true =>
    simp only [Bool.not_true, Bool.false_eq_true, if_false, readable]
    cases found : projection.conflicts[conflictId.value]? with
    | none => exact .silent
    | some conflict =>
      simp only
      by_cases pending : conflict.resolution = .pending
      · simp only [pending, ne_eq, not_true_eq_false, if_false]
        cases next : nextSequence governanceDomain projection with
        | error source => exact .silent
        | ok sequence =>
          obtain ⟨below, number⟩ := nextSequence_eq_ok.mp next
          exact .appends (event sequence) below
            (.closed call (event sequence) conflictId conflict found pending (closes sequence)
              ((numbered sequence).trans number) (authorises gate sequence))
      · simp only [ne_eq, pending, not_false_eq_true, if_true]
        exact .silent

theorem GovernanceCall.run_outcome
    (call : GovernanceCall) (readable : replayBytes governanceDomain codec file = .ok projection) :
    CallOutcome codec file projection call (call.run codec file) := by
  cases call with
  | record conflict nowUnix =>
    rw [GovernanceCall.run, recordWithDurability]
    simp only [readable]
    cases known : projection.conflicts.contains conflict.conflictId.value with
    | true => exact .silent
    | false =>
      simp only [Bool.false_eq_true, if_false]
      cases next : nextSequence governanceDomain projection with
      | error source => exact .silent
      | ok sequence =>
        obtain ⟨below, number⟩ := nextSequence_eq_ok.mp next
        subst number
        exact .appends _ below (.detected conflict nowUnix known)
  | arbitrate conflictId arbiter decision policy nowUnix =>
    exact closePending_outcome readable _ conflictId arbiter policy (fun sequence =>
          .resolved sequence nowUnix conflictId arbiter decision)
        (fun _ => rfl) (fun _ => rfl)
        (fun gate number =>
          .resolved number nowUnix conflictId arbiter decision policy gate)
  | escalate conflictId principal policy nowUnix =>
    exact closePending_outcome readable _ conflictId principal policy
        (fun sequence => .escalated sequence nowUnix conflictId) (fun _ => rfl) (fun _ => rfl)
        (fun gate number =>
          .escalated number nowUnix conflictId principal policy gate)

end Calls

variable {conflictId : StableId}

/-! ## The lifecycle over a run -/

theorem conflicts_closed
    (found : projection.conflicts[conflictId.value]? = some conflict)
    (closes : event.closedId = some conflictId.value) :
    ∃ resolution, resolution ≠ .pending ∧ (GovernanceDomain.apply projection event).conflicts =
        projection.conflicts.insert conflictId.value
          { conflict with resolution := resolution } := by
  cases event with
  | detected sequence atUnix detected => cases closes
  | resolved sequence atUnix otherId arbiter decision =>
    have same : otherId.value = conflictId.value := Option.some.inj closes
    refine ⟨.resolved arbiter atUnix decision, by simp, ?_⟩
    simp only [GovernanceDomain.apply, GovernanceDomain.setResolution, same, found]
  | escalated sequence atUnix otherId =>
    have same : otherId.value = conflictId.value := Option.some.inj closes
    refine ⟨.escalated, by simp, ?_⟩
    simp only [GovernanceDomain.apply, GovernanceDomain.setResolution, same, found]

theorem detectedIds_concat (events : List GovernanceEvent) (event : GovernanceEvent) :
    detectedIds (events ++ [event]) = detectedIds events ++ event.detectedId.toList := by
  rw [detectedIds, filterMap_append]
  cases found : event.detectedId <;> simp [detectedIds, found]

theorem closedIds_concat (events : List GovernanceEvent) (event : GovernanceEvent) :
    closedIds (events ++ [event]) = closedIds events ++ event.closedId.toList := by
  rw [closedIds, filterMap_append]
  cases found : event.closedId <;> simp [closedIds, found]

/-- The projection knows every conflict of the ledger, and a pending one was
never closed. -/
structure Tracks (events : List GovernanceEvent) (projection : ArbitrationProjection) : Prop where
  detected_once : (detectedIds events).Nodup
  closed_once : (closedIds events).Nodup
  detected_known : ∀ id ∈ detectedIds events, projection.conflicts.contains id = true
  closed_known : ∀ id ∈ closedIds events, projection.conflicts.contains id = true
  pending_open : ∀ (id : String) (conflict : ConflictContract),
      projection.conflicts[id]? = some conflict →
        conflict.resolution = .pending → id ∉ closedIds events

theorem tracks_nil : Tracks [] governanceDomain.empty where
  detected_once := nodup_nil
  closed_once := nodup_nil
  detected_known := fun _ member => absurd member not_mem_nil
  closed_known := fun _ member => absurd member not_mem_nil
  pending_open := fun _ _ _ _ => not_mem_nil

theorem Tracks.detected (tracks : Tracks events projection) (fresh :
      projection.conflicts.contains conflict.conflictId.value = false) (sequence nowUnix : Nat) :
    Tracks (events ++ [.detected sequence nowUnix conflict]) (GovernanceDomain.apply projection
      (.detected sequence nowUnix conflict)) := by
  have kept : ∀ id, projection.conflicts.contains id = true →
        (projection.conflicts.insert conflict.conflictId.value conflict).contains id = true := by
    intro id known
    rw [Std.ExtTreeMap.contains_insert, known, Bool.or_true]
  have notDetected : conflict.conflictId.value ∉ detectedIds events := by
    intro member
    rw [tracks.detected_known _ member] at fresh
    cases fresh
  have notClosed : conflict.conflictId.value ∉ closedIds events := by
    intro member
    rw [tracks.closed_known _ member] at fresh
    cases fresh
  have detectedIds_eq : detectedIds (events ++ [.detected sequence nowUnix conflict]) =
        detectedIds events ++ [conflict.conflictId.value] :=
    detectedIds_concat events (.detected sequence nowUnix conflict)
  have closedIds_eq : closedIds (events ++ [.detected sequence nowUnix conflict]) =
        closedIds events := by
    rw [closedIds_concat]
    exact append_nil _
  refine ⟨?_, ?_, ?_, ?_, ?_⟩
  · rw [detectedIds_eq, ← concat_eq_append]
    exact tracks.detected_once.concat notDetected
  · rw [closedIds_eq]
    exact tracks.closed_once
  · intro id member
    rw [detectedIds_eq] at member
    rcases List.mem_append.mp member with before | isLast
    · exact kept id (tracks.detected_known id before)
    · rw [List.mem_singleton.mp isLast]
      exact Std.ExtTreeMap.contains_insert_self
  · intro id member
    rw [closedIds_eq] at member
    exact kept id (tracks.closed_known id member)
  · intro id other found pending
    rw [closedIds_eq]
    simp only [GovernanceDomain.apply, Std.ExtTreeMap.getElem?_insert,
      Std.LawfulEqCmp.compare_eq_iff_eq] at found
    split at found
    · next same =>
      rw [← same]
      exact notClosed
    · exact tracks.pending_open id other found pending

theorem Tracks.closed (tracks : Tracks events projection)
    (found : projection.conflicts[conflictId.value]? = some conflict)
    (pending : conflict.resolution = .pending) (closes : event.closedId = some conflictId.value) :
    Tracks (events ++ [event]) (GovernanceDomain.apply projection event) := by
  obtain ⟨resolution, notPending, isApplied⟩ := conflicts_closed found closes
  have notClosed := tracks.pending_open _ _ found pending
  have notDetection : event.detectedId = none := by
    cases event with
    | detected sequence atUnix detected => cases closes
    | _ => rfl
  have kept : ∀ id, projection.conflicts.contains id = true →
        (GovernanceDomain.apply projection event).conflicts.contains id = true := by
    intro id known
    rw [isApplied, Std.ExtTreeMap.contains_insert, known, Bool.or_true]
  have detectedIds_eq : detectedIds (events ++ [event]) = detectedIds events := by
    rw [detectedIds_concat, notDetection]
    exact append_nil _
  have closedIds_eq : closedIds (events ++ [event]) = closedIds events ++ [conflictId.value] := by
    rw [closedIds_concat, closes]
    rfl
  refine ⟨?_, ?_, ?_, ?_, ?_⟩
  · rw [detectedIds_eq]
    exact tracks.detected_once
  · rw [closedIds_eq, ← concat_eq_append]
    exact tracks.closed_once.concat notClosed
  · intro id member
    rw [detectedIds_eq] at member
    exact kept id (tracks.detected_known id member)
  · intro id member
    rw [closedIds_eq] at member
    rcases List.mem_append.mp member with before | isLast
    · exact kept id (tracks.closed_known id before)
    · rw [List.mem_singleton.mp isLast, isApplied]
      exact Std.ExtTreeMap.contains_insert_self
  · intro id other foundAfter stillPending
    rw [closedIds_eq, mem_append, mem_singleton, not_or]
    simp only [isApplied, Std.ExtTreeMap.getElem?_insert,
      Std.LawfulEqCmp.compare_eq_iff_eq] at foundAfter
    split at foundAfter
    · cases foundAfter
      exact absurd stillPending notPending
    · next different =>
      exact ⟨tracks.pending_open id other foundAfter stillPending, fun same => different same.symm⟩

theorem Tracks.advance (tracks : Tracks events projection) (number : Nat) :
    Tracks events (governanceDomain.advanceSequence projection number) :=
  ⟨tracks.detected_once, tracks.closed_once, tracks.detected_known,
    tracks.closed_known, tracks.pending_open⟩

section Run

variable (codec : EventCodec GovernanceEvent)

/-- The event was appended by a call of the run that was authorised to. -/
def AppendedBy (calls : List GovernanceCall) (event : GovernanceEvent) : Prop :=
  ∃ before call after, calls = before ++ call :: after ∧ governanceFile codec (before ++ [call]) =
      append codec (governanceFile codec before) event ∧ Authorises call event

/-- What holds of the ledger that a run leaves. -/
structure GovernedLedger (calls : List GovernanceCall) (events : List GovernanceEvent) : Prop where
  file_eq : governanceFile codec calls = eventLines codec events
  numbered : Numbered governanceDomain events
  strict : validateStrictSnapshotStream governanceDomain codec
      (governanceFile codec calls) = .ok ()
  detected_once : (detectedIds events).Nodup
  closed_once : (closedIds events).Nodup
  authorised : ∀ event ∈ events, event.closedId ≠ none → AppendedBy codec calls event
  silent : ∀ before call after, calls = before ++ call :: after →
      (call.run codec (governanceFile codec before)).2 = false →
        governanceFile codec (before ++ [call]) = governanceFile codec before

/-- What every call on the ledger preserves. -/
structure LedgerInvariant (calls : List GovernanceCall) (events : List GovernanceEvent) : Prop where
  sound : Sound governanceDomain codec (fun _ => True)
      (governanceFile codec calls) events
  bounded : events.length ≤ u64Max
  tracks : Tracks events (applied governanceDomain events)
  authorised : ∀ event ∈ events, event.closedId ≠ none → AppendedBy codec calls event

variable {codec}

theorem governanceFile_concat (calls : List GovernanceCall) (call : GovernanceCall) :
    governanceFile codec (calls ++ [call]) = (call.run codec (governanceFile codec calls)).1 := by
  rw [governanceFile, foldl_append]
  rfl

variable {calls : List GovernanceCall} {call : GovernanceCall}

theorem AppendedBy.concat (appended : AppendedBy codec calls event) (call : GovernanceCall) :
    AppendedBy codec (calls ++ [call]) event := by
  obtain ⟨before, other, after, split, rest⟩ := appended
  refine ⟨before, other, after ++ [call], ?_, rest⟩
  rw [split, append_assoc, cons_append]

theorem Tracks.appends (tracks : Tracks events (applied governanceDomain events)) (kind :
      GovernanceAppends (applied governanceDomain events) call event) :
    Tracks (events ++ [event]) (applied governanceDomain (events ++ [event])) := by
  rw [applied_concat]
  apply Tracks.advance
  cases kind with
  | detected conflict nowUnix fresh => exact tracks.detected fresh _ _
  | closed _ _ conflictId conflict found pending closes _ _ =>
    exact tracks.closed found pending closes

theorem GovernanceAppends.numbered (kind : GovernanceAppends projection call event) :
    event.sequence = projection.sequence + 1 := by
  cases kind with
  | detected conflict nowUnix fresh => rfl
  | closed _ _ _ _ _ _ _ numbered _ => exact numbered

theorem GovernanceAppends.authorised (kind : GovernanceAppends projection call event)
    (closes : event.closedId ≠ none) : Authorises call event := by
  cases kind with
  | detected conflict nowUnix fresh => exact absurd rfl closes
  | closed _ _ _ _ _ _ _ _ authorised => exact authorised

theorem LedgerInvariant.step
    (lawful : codec.Lawful fun _ => True) (invariant : LedgerInvariant codec calls events)
    (call : GovernanceCall) : ∃ after, LedgerInvariant codec (calls ++ [call]) after := by
  have outcome := call.run_outcome (invariant.sound.replay_eq lawful)
  have isFile := @governanceFile_concat codec calls call
  generalize call.run codec (governanceFile codec calls) = result at outcome isFile
  cases outcome with
  | silent =>
    refine ⟨events, ?_, invariant.bounded, invariant.tracks, ?_⟩
    · rw [isFile]
      exact invariant.sound
    · intro event member closes
      exact (invariant.authorised event member closes).concat call
  | appends event below kind =>
    have current : (applied governanceDomain events).sequence = events.length :=
      sequenceOf_applied invariant.sound.numbered
    have number := kind.numbered
    rw [current] at number below
    refine ⟨events ++ [event], ?_, ?_, invariant.tracks.appends kind, ?_⟩
    · rw [isFile]
      exact invariant.sound.append trivial number
    · rw [length_append, length_singleton]
      omega
    · intro other member closes
      rcases List.mem_append.mp member with before | isLast
      · exact (invariant.authorised other before closes).concat call
      · rw [List.mem_singleton.mp isLast] at closes ⊢
        exact ⟨calls, call, [], rfl, isFile, kind.authorised closes⟩

theorem ledgerInvariant (lawful : codec.Lawful fun _ => True) (calls : List GovernanceCall) :
    ∃ events, LedgerInvariant codec calls events := by
  induction calls using List.reverseRecOn with
  | nil =>
    refine ⟨[], sound_nil, Nat.zero_le _, tracks_nil, ?_⟩
    intro event member
    cases member
  | append_singleton calls call ih =>
    obtain ⟨events, invariant⟩ := ih
    exact invariant.step lawful call

/-- A conflict was handed to a recording call of the run. -/
def RecordedIn (calls : List GovernanceCall) (conflict : ConflictContract) : Prop :=
  ∃ nowUnix, GovernanceCall.record conflict nowUnix ∈ calls

theorem RecordedIn.concat (recorded : RecordedIn calls conflict) (call : GovernanceCall) :
    RecordedIn (calls ++ [call]) conflict := by
  obtain ⟨nowUnix, member⟩ := recorded
  exact ⟨nowUnix, mem_append_left _ member⟩

variable {id : String}

/-- What one event adds to the known conflicts. -/
theorem recordedIn_of_appends (kind : GovernanceAppends projection call event) (earlier :
      ∀ id, projection.conflicts.contains id = true → ∃ conflict, RecordedIn calls conflict ∧
      conflict.conflictId.value = id) (known :
      (GovernanceDomain.apply projection event).conflicts.contains id = true) :
    ∃ conflict, RecordedIn (calls ++ [call]) conflict ∧ conflict.conflictId.value = id := by
  have inherited : projection.conflicts.contains id = true →
      ∃ conflict, RecordedIn (calls ++ [call]) conflict ∧ conflict.conflictId.value = id := by
    intro before
    obtain ⟨conflict, recorded, isId⟩ := earlier id before
    exact ⟨conflict, recorded.concat call, isId⟩
  cases kind with
  | detected conflict nowUnix fresh =>
    simp only [GovernanceDomain.apply, Std.ExtTreeMap.contains_insert,
      Bool.or_eq_true, Std.LawfulEqCmp.compare_eq_iff_eq, beq_iff_eq] at known
    rcases known with isNew | before
    · exact ⟨conflict, ⟨nowUnix, by simp⟩, isNew⟩
    · exact inherited before
  | closed _ _ conflictId conflict found pending closes _ _ =>
    obtain ⟨resolution, -, isApplied⟩ := conflicts_closed found closes
    rw [isApplied, Std.ExtTreeMap.contains_insert, Bool.or_eq_true,
      beq_iff_eq, Std.LawfulEqCmp.compare_eq_iff_eq] at known
    rcases known with isClosed | before
    · apply inherited
      rw [← isClosed, Std.ExtTreeMap.contains_eq_isSome_getElem?, found]
      rfl
    · exact inherited before

/-- The ledger knows only what the run has recorded. -/
theorem recordedIn_of_contains
    (lawful : codec.Lawful fun _ => True) (calls : List GovernanceCall) (readable :
      replayBytes governanceDomain codec (governanceFile codec calls) = .ok projection)
    (known : projection.conflicts.contains id = true) :
    ∃ conflict, RecordedIn calls conflict ∧ conflict.conflictId.value = id := by
  induction calls using List.reverseRecOn generalizing projection id with
  | nil =>
    have empty := (@sound_nil _ _ _ governanceDomain codec fun _ => True).replay_eq lawful
    rw [governanceFile, foldl_nil, empty] at readable
    cases readable
    simp [applied, governanceDomain] at known
  | append_singleton calls call ih =>
    obtain ⟨events, invariant⟩ := ledgerInvariant lawful calls
    have current := invariant.sound.replay_eq lawful
    have outcome := call.run_outcome current
    rw [governanceFile_concat] at readable
    generalize call.run codec (governanceFile codec calls) = result at outcome readable
    cases outcome with
    | silent =>
      obtain ⟨conflict, recorded, isId⟩ := ih readable known
      exact ⟨conflict, recorded.concat call, isId⟩
    | appends event below kind =>
      have number := kind.numbered
      rw [show (applied governanceDomain events).sequence =
        events.length from sequenceOf_applied invariant.sound.numbered] at number
      have after := (invariant.sound.append trivial number).replay_eq lawful
      rw [after, applied_concat] at readable
      cases readable
      exact recordedIn_of_appends kind (fun _ before => ih current before) known

end Run

/-- Every run of records, arbitrations and escalations leaves a governed
ledger. -/
theorem governance_ledger_lifecycle
    (codec : EventCodec GovernanceEvent) (lawful : codec.Lawful fun _ => True)
    (calls : List GovernanceCall) : ∃ events, GovernedLedger codec calls events := by
  obtain ⟨events, invariant⟩ := ledgerInvariant lawful calls
  refine ⟨events, invariant.sound.file_eq, invariant.sound.numbered,
    invariant.sound.validates lawful invariant.bounded,
    invariant.tracks.detected_once, invariant.tracks.closed_once, invariant.authorised, ?_⟩
  intro before call after split reported
  obtain ⟨earlier, reached⟩ := ledgerInvariant lawful before
  have outcome := call.run_outcome (reached.sound.replay_eq lawful)
  rw [governanceFile_concat]
  generalize call.run codec (governanceFile codec before) = result at outcome reported
  cases outcome with
  | silent => rfl
  | appends event below kind => cases reported

/-- A conflict that is recorded twice, arbitrated and then escalated. -/
theorem governance_ledger_lifecycle_arbitrated :
    ∃ events, GovernedLedger governanceCodec [.record Sample.conflict 1, .record Sample.conflict 2,
      .arbitrate ⟨"c"⟩ ⟨"r"⟩ .bothReleased ⟨[⟨"r"⟩]⟩ 3, .escalate ⟨"c"⟩ ⟨"r"⟩ ⟨[⟨"r"⟩]⟩ 4] events :=
  governance_ledger_lifecycle governanceCodec governanceCodec_lawful _

end ForgeCore.EventLog
