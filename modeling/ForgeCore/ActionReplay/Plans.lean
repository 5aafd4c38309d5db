import ForgeCore.ActionReplay.Refinement

/-!
# What the calls plan to append

A plan is carried out line by line.  `Supports` says that the log stays
readable after each of its lines, that no entry is lost or rebound, and that
the last line leaves the entry of the answer.
-/

namespace ForgeCore.ActionReplay

open Text Digest ForgeCore.Frame Machine
open Checked Index

/-- An entry stays, or moves from reserved to committed. -/
def Advances (before after : WorkflowActionReplayEntry) : Prop :=
  after = before ∨ (before.state = .reserved ∧ ∃ sequence, after = before.committedAt sequence)

/-- The entry has the packet, the origin event and the ledger record of the
request. -/
structure Binds (prims : ReplayPrimitives)
    (entry : WorkflowActionReplayEntry) (request : ActionRequest) : Prop where
  packet : entry.actionPacketDigest = request.actionPacketDigest
  origin : entry.originEventIdHash = request.originHash prims
  ledger : entry.plannedLedgerRecordDigest = request.plannedLedgerRecordDigest

/-- Every entry is still there and none has moved back; what is new binds
the request. -/
structure Grows (prims : ReplayPrimitives) (request : ActionRequest)
    (before after : Projection) : Prop where
  kept : ∀ (key : String) entry, before.entries[key]? = some entry →
    ∃ later, after.entries[key]? = some later ∧ Advances entry later
  sourced : ∀ (key : String) later, after.entries[key]? = some later →
    (∃ entry, before.entries[key]? = some entry ∧ Advances entry later) ∨ Binds prims later request

/-- Each line extends the log, and the entry is there after the last one. -/
def Supports (prims : ReplayPrimitives) (request : ActionRequest)
    (entry : WorkflowActionReplayEntry) (wal : Bytes) (scan : Scan) : List Bytes → Prop
  | [] => scan.projection.entries[entry.keyHash]? = some entry
  | line :: rest =>
    ∃ next, Represents prims (wal ++ line) next ∧
      Grows prims request scan.projection next.projection ∧
      Supports prims request entry (wal ++ line) next rest

theorem Advances.refl (entry : WorkflowActionReplayEntry) : Advances entry entry :=
  Or.inl rfl

theorem Advances.trans (earlier : Advances first second) (later : Advances second third) :
    Advances first third := by
  rcases earlier with rfl | ⟨reserved, sequence, rfl⟩
  · exact later
  · rcases later with rfl | ⟨committed, -⟩
    · exact Or.inr ⟨reserved, sequence, rfl⟩
    · cases committed

variable {before after : WorkflowActionReplayEntry}

theorem Advances.binding (advances : Advances before after) :
    after.keyHash = before.keyHash ∧ after.actionPacketDigest = before.actionPacketDigest ∧
      after.originEventIdHash = before.originEventIdHash ∧
      after.plannedLedgerRecordDigest = before.plannedLedgerRecordDigest ∧
      after.reservedSequence = before.reservedSequence := by
  rcases advances with rfl | ⟨-, sequence, rfl⟩
  · exact ⟨rfl, rfl, rfl, rfl, rfl⟩
  · exact ⟨rfl, rfl, rfl, rfl, rfl⟩

variable {request : ActionRequest} {entry : WorkflowActionReplayEntry}

theorem Binds.advances (binds : Binds prims before request) (advances : Advances before after) :
    Binds prims after request := by
  obtain ⟨-, packet, origin, ledger, -⟩ := advances.binding
  exact ⟨packet.trans binds.packet, origin.trans binds.origin, ledger.trans binds.ledger⟩

section Growth

variable {prims : ReplayPrimitives} {request : ActionRequest}

theorem Grows.refl (projection : Projection) :
    Grows prims request projection projection where
  kept _ entry found := ⟨entry, found, Advances.refl entry⟩
  sourced _ entry found := Or.inl ⟨entry, found, Advances.refl entry⟩

theorem Grows.trans
    (earlier : Grows prims request first second)
    (later : Grows prims request second third) :
    Grows prims request first third where
  kept := by
    intro key entry found
    obtain ⟨middle, middleFound, toMiddle⟩ := earlier.kept key entry found
    obtain ⟨last, lastFound, toLast⟩ := later.kept key middle middleFound
    exact ⟨last, lastFound, toMiddle.trans toLast⟩
  sourced := by
    intro key last lastFound
    rcases later.sourced key last lastFound with
      ⟨middle, middleFound, toLast⟩ | binds
    · rcases earlier.sourced key middle middleFound with
        ⟨entry, found, toMiddle⟩ | binds
      · exact Or.inl ⟨entry, found, toMiddle.trans toLast⟩
      · exact Or.inr (binds.advances toLast)
    · exact Or.inr binds

variable {projection : Projection} {record : UnsignedRecord}

theorem grows_reserved
    (unused : projection.entries[record.keyHash]? = none)
    (binds : Binds prims record.reservedEntry request) :
    Grows prims request projection (projection.reserved record) where
  kept := by
    intro key entry found
    have other : record.keyHash ≠ key := by
      rintro rfl
      rw [unused] at found
      cases found
    refine ⟨entry, ?_, Advances.refl entry⟩
    simpa [Projection.reserved, Std.ExtTreeMap.getElem?_insert, other] using found
  sourced := by
    intro key later found
    simp only [Projection.reserved, Std.ExtTreeMap.getElem?_insert,
      Std.LawfulEqCmp.compare_eq_iff_eq] at found
    split_ifs at found with same
    · cases found
      exact Or.inr binds
    · exact Or.inl ⟨later, found, Advances.refl later⟩

theorem grows_committed
    (found : projection.entries[record.keyHash]? = some entry)
    (pending : entry.state = .reserved) :
    Grows prims request projection
      (projection.committed record entry) where
  kept := by
    intro key other lookup
    simp only [Projection.committed, Std.ExtTreeMap.getElem?_insert,
      Std.LawfulEqCmp.compare_eq_iff_eq]
    split_ifs with same
    · subst same
      rw [found] at lookup
      cases lookup
      exact ⟨_, rfl, Or.inr ⟨pending, record.sequence, rfl⟩⟩
    · exact ⟨other, lookup, Advances.refl other⟩
  sourced := by
    intro key later lookup
    simp only [Projection.committed, Std.ExtTreeMap.getElem?_insert,
      Std.LawfulEqCmp.compare_eq_iff_eq] at lookup
    split_ifs at lookup with same
    · cases lookup
      subst same
      exact Or.inl ⟨entry, found, Or.inr ⟨pending, record.sequence, rfl⟩⟩
    · exact Or.inl ⟨later, lookup, Advances.refl later⟩

end Growth

section Checks

theorem nextSequence_eq_ok {last sequence : Nat}
    (next : nextSequence last = .ok sequence) : sequence = last + 1 := by
  unfold nextSequence at next
  split at next
  · next found =>
    cases next
    exact (checkedSucc_eq_some.mp found).2
  · cases next

theorem ensureCapacity_eq_ok {recovery : WorkflowActionReplayRecovery} {appendLength : Nat}
    (capacity : ensureCapacity recovery appendLength = .ok ()) :
    recovery.validRecordCount < workflowActionReplayMaxRecords ∧
      recovery.walBytes + appendLength ≤ workflowActionReplayMaxBytes := by
  unfold ensureCapacity at capacity
  split_ifs at capacity with records bytes
  have below : workflowActionReplayMaxBytes < u64Max := by decide
  unfold saturatingAdd at bytes
  omega

theorem validateDigest_eq_ok (valid : validateDigest field value = .ok ()) :
    isSha256Token value = true := by
  unfold validateDigest at valid
  split_ifs at valid with token
  exact token

theorem ActionRequest.digests_of_validate (valid : request.validate = .ok ()) :
    isSha256Token request.actionPacketDigest = true ∧
      isSha256Token request.plannedLedgerRecordDigest = true := by
  obtain ⟨_, packet, rest⟩ := bind_eq_ok.mp valid
  obtain ⟨_, _, ledger⟩ := bind_eq_ok.mp rest
  exact ⟨validateDigest_eq_ok packet, validateDigest_eq_ok ledger⟩

variable {prims : ReplayPrimitives}

theorem ActionRequest.record_wellFormed
    (valid : request.validate = .ok ())
    (operation : WorkflowActionReplayOperation)
    (sequence : Nat) (priorRecordDigest : String) :
    WellFormed prims
      (request.record prims operation sequence priorRecordDigest) where
  schema := rfl
  packet := (request.digests_of_validate valid).1
  origin := isSha256Token_formatDigest prims _
  ledger := (request.digests_of_validate valid).2
  key := rfl

theorem fresh_of_rejectCrossKeyReplay
    {scan : Scan} {walBytes : Nat} (unused : scan.projection.entries[request.keyHash prims]? = none)
    (allowed : rejectCrossKeyReplay (scan.recovery walBytes)
      request.actionPacketDigest (request.originHash prims) = .ok ())
    (operation : WorkflowActionReplayOperation) (sequence : Nat) (priorRecordDigest : String) :
    Fresh scan.projection (request.record prims operation sequence priorRecordDigest) := by
  unfold rejectCrossKeyReplay at allowed
  split_ifs at allowed with packet origin
  simp only [List.any_eq_true, decide_eq_true_eq, not_exists, not_and] at packet origin
  have listed : ∀ (key : String) entry, scan.projection.entries[key]? = some entry →
        entry ∈ (scan.recovery walBytes).entries.toList.map Prod.snd := by
    intro key entry found
    exact List.mem_map.mpr ⟨(key, entry),
        Std.ExtTreeMap.mem_toList_iff_getElem?_eq_some.mpr found, rfl⟩
  constructor
  · exact unused
  · intro key entry found
    exact packet entry (listed key entry found)
  · intro key entry found
    exact origin entry (listed key entry found)

theorem ActionRequest.binds_of_validateBinding
    (valid : request.validateBinding prims entry = .ok ()) : Binds prims entry request := by
  obtain ⟨packet, origin, ledger⟩ := validateBinding_eq_ok.mp valid
  exact ⟨packet, origin, ledger⟩

end Checks

section Lines

variable {prims : ReplayPrimitives} {wal : Bytes} {scan : Scan} {request : ActionRequest}

def ActionRequest.nextReserve (prims : ReplayPrimitives)
    (request : ActionRequest) (scan : Scan) : UnsignedRecord :=
  request.record prims .reserve (scan.lastSequence + 1) scan.lastRecordDigest

def ActionRequest.nextCommit (prims : ReplayPrimitives)
    (request : ActionRequest) (scan : Scan) : UnsignedRecord :=
  request.record prims .commit (scan.lastSequence + 1) scan.lastRecordDigest

def Scan.afterReserve (prims : ReplayPrimitives) (scan : Scan) (request : ActionRequest) : Scan :=
  scan.extended prims (request.nextReserve prims scan)
    (scan.projection.reserved (request.nextReserve prims scan))

def Scan.afterCommit (prims : ReplayPrimitives) (scan : Scan)
    (request : ActionRequest) (entry : WorkflowActionReplayEntry) : Scan :=
  scan.extended prims (request.nextCommit prims scan)
    (scan.projection.committed (request.nextCommit prims scan) entry)

section

variable (lawful : prims.Lawful) (represents : Represents prims wal scan)
  (valid : request.validate = .ok ())

include lawful represents valid

theorem Represents.reserve (fresh :
      Fresh scan.projection (request.nextReserve prims scan))
    (room : scan.validRecordCount < workflowActionReplayMaxRecords) (fits : wal.length +
      (encodeLine prims (request.nextReserve prims scan)).length ≤ workflowActionReplayMaxBytes) :
    Represents prims (wal ++ encodeLine prims (request.nextReserve prims scan))
      (scan.afterReserve prims request) := by
  have wellFormed : WellFormed prims (request.nextReserve prims scan) :=
    request.record_wellFormed valid _ _ _
  exact represents.append lawful wellFormed ⟨rfl, rfl⟩ room fits
      (applyRecord_reserve represents.consistent rfl fresh)
      (represents.consistent.reserved wellFormed fresh)

theorem Represents.commit (found :
      scan.projection.entries[request.keyHash prims]? = some entry)
    (binds : Binds prims entry request) (pending : entry.state = .reserved)
    (room : scan.validRecordCount < workflowActionReplayMaxRecords) (fits : wal.length +
      (encodeLine prims (request.nextCommit prims scan)).length ≤ workflowActionReplayMaxBytes) :
    Represents prims (wal ++ encodeLine prims (request.nextCommit prims scan))
      (scan.afterCommit prims request entry) := by
  have wellFormed : WellFormed prims (request.nextCommit prims scan) :=
    request.record_wellFormed valid _ _ _
  have bound : Matches entry (request.nextCommit prims scan) :=
    ⟨binds.packet, binds.origin, binds.ledger⟩
  exact represents.append lawful wellFormed ⟨rfl, rfl⟩ room fits
      (applyRecord_commit rfl found bound pending) (represents.consistent.committed found)

end

end Lines

/-! ## The plans of the calls -/

/-- The plan answers the request, and its lines make the answer true. -/
structure Planned (prims : ReplayPrimitives) (wal : Bytes)
    (scan : Scan) (request : ActionRequest) (plan : Plan) : Prop where
  valid : request.validate = .ok ()
  binds : Binds prims plan.mutation.entry request
  supports : Supports prims request plan.mutation.entry wal scan plan.lines

section Plans

variable {prims : ReplayPrimitives} {wal : Bytes} {scan : Scan} {request : ActionRequest}

theorem planned_existing
    (represents : Represents prims wal scan)
    (valid : request.validate = .ok ())
    (found : scan.projection.entries[request.keyHash prims]? = some entry)
    (binds : Binds prims entry request) :
    Planned prims wal scan request ⟨[], existingMutation entry⟩ where
  valid := valid
  binds := binds
  supports := by
    change scan.projection.entries[entry.keyHash]? = some entry
    rw [(represents.consistent.keyed _ _ found).1]
    exact found

section

variable (lawful : prims.Lawful) (represents : Represents prims wal scan)

include lawful represents

theorem supports_commit (valid : request.validate = .ok ()) (found :
      scan.projection.entries[request.keyHash prims]? = some entry)
    (binds : Binds prims entry request) (pending : entry.state ≠ .committed)
    (room : scan.validRecordCount < workflowActionReplayMaxRecords) (fits : wal.length +
      (encodeLine prims (request.nextCommit prims scan)).length ≤ workflowActionReplayMaxBytes) :
    Supports prims request (entry.committedAt (scan.lastSequence + 1)) wal scan
      [encodeLine prims (request.nextCommit prims scan)] := by
  have reserved : entry.state = .reserved := by
    cases state : entry.state with
    | reserved => rfl
    | committed => exact absurd state pending
  refine ⟨scan.afterCommit prims request entry,
    represents.commit lawful valid found binds reserved room fits,
    grows_committed found reserved, ?_⟩
  have key : entry.keyHash = request.keyHash prims := (represents.consistent.keyed _ _ found).1
  change (scan.projection.entries.insert (request.keyHash prims)
    (entry.committedAt (scan.lastSequence + 1)))[entry.keyHash]? = _
  rw [key, Std.ExtTreeMap.getElem?_insert_self]

variable {plan : Plan}

theorem planReserve_planned (planned : planReserve prims request wal = .ok plan) :
    Planned prims wal scan request plan := by
  obtain ⟨⟨⟩, valid, rest⟩ := bind_eq_ok.mp planned
  rw [recover_represents represents, ok_bind] at rest
  cases found : scan.projection.entries[request.keyHash prims]? with
  | some entry =>
    simp only [Scan.recovery, found] at rest
    obtain ⟨⟨⟩, binding, result⟩ := bind_eq_ok.mp rest
    cases result
    exact planned_existing represents valid found (request.binds_of_validateBinding binding)
  | none =>
    simp only [Scan.recovery, found] at rest
    obtain ⟨⟨⟩, allowed, rest⟩ := bind_eq_ok.mp rest
    obtain ⟨sequence, next, rest⟩ := bind_eq_ok.mp rest
    obtain ⟨⟨⟩, capacity, result⟩ := bind_eq_ok.mp rest
    cases result
    obtain rfl := nextSequence_eq_ok next
    obtain ⟨room, fits⟩ := ensureCapacity_eq_ok capacity
    have fresh : Fresh scan.projection (request.nextReserve prims scan) :=
      fresh_of_rejectCrossKeyReplay found allowed _ _ _
    refine ⟨valid, ⟨rfl, rfl, rfl⟩, scan.afterReserve prims request,
      represents.reserve lawful valid fresh room fits, grows_reserved fresh.key ⟨rfl, rfl, rfl⟩, ?_⟩
    exact Std.ExtTreeMap.getElem?_insert_self

theorem planCommit_planned (planned : planCommit prims request wal = .ok plan) :
    Planned prims wal scan request plan ∧ plan.mutation.entry.state = .committed := by
  obtain ⟨⟨⟩, valid, rest⟩ := bind_eq_ok.mp planned
  rw [recover_represents represents, ok_bind] at rest
  cases found : scan.projection.entries[request.keyHash prims]? with
  | none =>
    simp only [Scan.recovery, found] at rest
    cases rest
  | some entry =>
    simp only [Scan.recovery, found] at rest
    obtain ⟨⟨⟩, binding, rest⟩ := bind_eq_ok.mp rest
    have binds := request.binds_of_validateBinding binding
    split_ifs at rest with settled
    · cases rest
      exact ⟨planned_existing represents valid found binds, settled⟩
    · obtain ⟨sequence, next, rest⟩ := bind_eq_ok.mp rest
      obtain ⟨⟨⟩, capacity, result⟩ := bind_eq_ok.mp rest
      cases result
      obtain rfl := nextSequence_eq_ok next
      obtain ⟨room, fits⟩ := ensureCapacity_eq_ok capacity
      refine ⟨⟨valid, ⟨binds.packet, binds.origin, binds.ledger⟩, ?_⟩, rfl⟩
      exact supports_commit lawful represents valid found binds settled room fits

/-- The two lines of a new pair: the commit line is chained to the reserve
line, which is not yet in the file when both are encoded. -/
theorem supports_reserve_commit (valid : request.validate = .ok ()) (fresh :
      Fresh scan.projection (request.nextReserve prims scan))
    (room : scan.validRecordCount + 1 < workflowActionReplayMaxRecords) (fits : wal.length +
      (encodeLine prims (request.nextReserve prims scan)).length + (encodeLine prims
      (request.nextCommit prims (scan.afterReserve prims request))).length ≤
      workflowActionReplayMaxBytes) :
    Supports prims request ((request.nextReserve prims scan).reservedEntry.committedAt
      (scan.lastSequence + 1 + 1)) wal scan [encodeLine prims (request.nextReserve prims scan),
      encodeLine prims (request.nextCommit prims (scan.afterReserve prims request))] := by
  have reserved := represents.reserve lawful valid fresh (Nat.lt_of_succ_lt room)
      (Nat.le_of_add_right_le fits)
  refine ⟨scan.afterReserve prims request, reserved, grows_reserved fresh.key ⟨rfl, rfl, rfl⟩, ?_⟩
  have found : (scan.afterReserve prims request).projection.entries[ request.keyHash prims]? =
        some (request.nextReserve prims scan).reservedEntry := Std.ExtTreeMap.getElem?_insert_self
  have pending : (request.nextReserve prims scan).reservedEntry.state ≠ .committed := by
    intro settled
    cases settled
  exact supports_commit lawful reserved valid found ⟨rfl, rfl, rfl⟩ pending
      room (by rw [List.length_append]; exact fits)

theorem begin_planned {prepared : PreparedReplayCommit} (begun :
      beginWorkflowActionReplayReservation prims request wal = .ok prepared) :
    Planned prims wal scan request prepared.plan ∧
      prepared.plan.mutation.entry.state = .committed := by
  obtain ⟨⟨⟩, valid, rest⟩ := bind_eq_ok.mp begun
  rw [recover_represents represents, ok_bind] at rest
  cases found : scan.projection.entries[request.keyHash prims]? with
  | some entry =>
    simp only [Scan.recovery, found] at rest
    obtain ⟨⟨⟩, binding, rest⟩ := bind_eq_ok.mp rest
    have binds := request.binds_of_validateBinding binding
    split_ifs at rest with settled
    · cases rest
      exact ⟨planned_existing represents valid found binds, settled⟩
    · obtain ⟨sequence, next, rest⟩ := bind_eq_ok.mp rest
      obtain ⟨⟨⟩, capacity, result⟩ := bind_eq_ok.mp rest
      cases result
      obtain rfl := nextSequence_eq_ok next
      obtain ⟨room, fits⟩ := ensureCapacity_eq_ok capacity
      refine ⟨⟨valid, ⟨binds.packet, binds.origin, binds.ledger⟩, ?_⟩, rfl⟩
      exact supports_commit lawful represents valid found binds settled room fits
  | none =>
    simp only [Scan.recovery, found] at rest
    obtain ⟨⟨⟩, allowed, rest⟩ := bind_eq_ok.mp rest
    obtain ⟨reservedSequence, reserves, rest⟩ := bind_eq_ok.mp rest
    obtain ⟨⟨⟩, firstCapacity, rest⟩ := bind_eq_ok.mp rest
    obtain ⟨committedSequence, commits, rest⟩ := bind_eq_ok.mp rest
    obtain ⟨⟨⟩, secondCapacity, result⟩ := bind_eq_ok.mp rest
    cases result
    obtain rfl := nextSequence_eq_ok reserves
    obtain rfl := nextSequence_eq_ok commits
    obtain ⟨_, firstFits⟩ := ensureCapacity_eq_ok firstCapacity
    obtain ⟨room, fits⟩ := ensureCapacity_eq_ok secondCapacity
    have fresh : Fresh scan.projection (request.nextReserve prims scan) :=
      fresh_of_rejectCrossKeyReplay found allowed _ _ _
    simp only at firstFits fits
    rw [saturatingAdd_of_le (firstFits.trans (by decide))] at fits
    refine ⟨⟨valid, ⟨rfl, rfl, rfl⟩, ?_⟩, rfl⟩
    exact supports_reserve_commit lawful represents valid fresh room fits

end

end Plans

end ForgeCore.ActionReplay
