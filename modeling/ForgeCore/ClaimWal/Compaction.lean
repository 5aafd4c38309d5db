import ForgeCore.ClaimWal.Projection

/-!
# Compaction keeps the projection

A snapshot keeps one claim for every id and forgets the rest of the log.  As
long as the operation of every record fits the status of its claim, the open,
released and handed-off claims are the latest ones of that status, so the
snapshot says all that later records are judged by.
-/

namespace ForgeCore.ClaimWal

open List Claims

/-! ## Claims without their place in the file -/

def ProjectedClaim.forget (claim : ProjectedClaim) : ProjectedClaim :=
  { claim with walOffset := 0 }

def ClaimMap.forget (map : ClaimMap) : ClaimMap :=
  map.map fun _ claim => claim.forget

namespace ClaimMap

variable {map other : ClaimMap}

theorem getElem?_forget (id : String) : (forget map)[id]? = map[id]?.map ProjectedClaim.forget :=
  Std.ExtTreeMap.getElem?_map

theorem getElem?_insert' (id key : String) (claim : ProjectedClaim) :
    (map.insert key claim)[id]? = if key = id then some claim else map[id]? := by
  rw [Std.ExtTreeMap.getElem?_insert]
  simp only [Std.LawfulEqCmp.compare_eq_iff_eq]

theorem getElem?_erase' (id key : String) :
    (map.erase key)[id]? = if key = id then none else map[id]? := by
  rw [Std.ExtTreeMap.getElem?_erase]
  simp only [Std.LawfulEqCmp.compare_eq_iff_eq]

theorem forget_insert (key : String) (claim : ProjectedClaim) :
    forget (map.insert key claim) = (forget map).insert key claim.forget := by
  apply Std.ExtTreeMap.ext_getElem?
  intro id
  rw [getElem?_forget, getElem?_insert', getElem?_insert', getElem?_forget]
  split <;> rfl

theorem forget_erase (key : String) : forget (map.erase key) = (forget map).erase key := by
  apply Std.ExtTreeMap.ext_getElem?
  intro id
  rw [getElem?_forget, getElem?_erase', getElem?_erase', getElem?_forget]
  split <;> rfl

theorem projected_forget : projected (forget map) = (projected map).map ProjectedClaim.forget := by
  rw [projected, forget, Std.ExtTreeMap.toList_map, projected, map_map, map_map]
  rfl

theorem contract_of_forget (same : forget map = forget other) (id : String) :
    map[id]?.map (·.claimContract) = other[id]?.map (·.claimContract) := by
  have erased := congrArg (fun found : ClaimMap => found[id]?) same
  simp only [getElem?_forget] at erased
  have contracts := congrArg (Option.map ProjectedClaim.claimContract) erased
  rw [Option.map_map, Option.map_map] at contracts
  exact contracts

end ClaimMap

variable {left right maps start : ClaimMaps}

namespace ClaimMaps

def forget (maps : ClaimMaps) : ClaimMaps where
  latest := maps.latest.forget
  active := maps.active.forget
  released := maps.released.forget
  handoffRecorded := maps.handoffRecorded.forget

theorem ext (latest : left.latest = right.latest) (active : left.active = right.active)
    (released : left.released = right.released)
    (handoffRecorded : left.handoffRecorded = right.handoffRecorded) : left = right := by
  cases left
  cases right
  cases latest
  cases active
  cases released
  cases handoffRecorded
  rfl

end ClaimMaps

def latestWhere (maps : ClaimMaps) (holds : ClaimStatus → Bool)
    (id : String) : Option ProjectedClaim :=
  maps.latest[id]?.filter fun claim =>
    holds claim.claimContract.status.value

/-- Every claim is filed under its own id, and in the map of its status. -/
structure Filed (maps : ClaimMaps) : Prop where
  keyed : ∀ (id : String) (claim : ProjectedClaim),
    maps.latest[id]? = some claim → claim.claimContract.id.value = id
  active : ∀ id : String, maps.active[id]? = latestWhere maps ClaimStatus.isOpen id
  released : ∀ id : String, maps.released[id]? = latestWhere maps (· = .released) id
  handoffRecorded : ∀ id : String,
    maps.handoffRecorded[id]? = latestWhere maps (· = .handoffRecorded) id

theorem filed_empty : Filed ClaimMaps.empty := by
  refine ⟨?_, ?_, ?_, ?_⟩ <;> intro id <;> simp [ClaimMaps.empty, latestWhere]

/-- A claim is put where its status belongs, and taken out of the rest. -/
structure Puts (before after : ClaimMaps) (claim : ProjectedClaim) : Prop where
  latest : ∀ id : String, after.latest[id]? = if claim.claimContract.id.value = id then some claim
    else before.latest[id]?
  active : ∀ id : String, after.active[id]? = if claim.claimContract.id.value = id then
      if claim.claimContract.status.value.isOpen then some claim else none
    else before.active[id]?
  released : ∀ id : String, after.released[id]? = if claim.claimContract.id.value = id then
      if claim.claimContract.status.value = .released then some claim
      else none
    else before.released[id]?
  handoffRecorded : ∀ id : String, after.handoffRecorded[id]? =
    if claim.claimContract.id.value = id then
      if claim.claimContract.status.value = .handoffRecorded then some claim
      else none
    else before.handoffRecorded[id]?

theorem Puts.filed {before after : ClaimMaps} {claim : ProjectedClaim}
    (puts : Puts before after claim) (filed : Filed before) : Filed after := by
  refine ⟨?_, ?_, ?_, ?_⟩
  · intro id found latest
    rw [puts.latest] at latest
    split at latest
    · next same =>
      cases latest
      exact same
    · exact filed.keyed id found latest
  · intro id
    rw [puts.active, latestWhere, puts.latest]
    split
    · simp [Option.filter]
    · exact filed.active id
  · intro id
    rw [puts.released, latestWhere, puts.latest]
    split
    · simp [Option.filter]
    · exact filed.released id
  · intro id
    rw [puts.handoffRecorded, latestWhere, puts.latest]
    split
    · simp [Option.filter]
    · exact filed.handoffRecorded id

theorem seed_puts (maps : ClaimMaps) (claim : ProjectedClaim) :
    Puts maps (maps.seed claim.claimContract.id.value claim) claim := by
  refine ⟨?_, ?_, ?_, ?_⟩
  · intro id
    exact ClaimMap.getElem?_insert' id _ claim
  all_goals
    intro id
    simp only [ClaimMaps.seed]
    split <;> simp only [ClaimMap.getElem?_insert', ClaimMap.getElem?_erase']

theorem Filed.closed_of_matching (filed : Filed maps)
    (accepted : matchingActiveClaim record maps.active op = none) :
    maps.released[record.payload.claimContract.id.value]? = none ∧
      maps.handoffRecorded[record.payload.claimContract.id.value]? = none := by
  set id := record.payload.claimContract.id.value with idEq
  have isOpen : (latestWhere maps ClaimStatus.isOpen id).isSome = true := by
    rw [← filed.active]
    unfold matchingActiveClaim at accepted
    rw [← idEq] at accepted
    cases found : maps.active[id]? with
    | none => simp [found] at accepted
    | some claim => rfl
  rw [filed.released, filed.handoffRecorded]
  unfold latestWhere at isOpen ⊢
  cases found : maps.latest[id]? with
  | none => exact ⟨rfl, rfl⟩
  | some claim =>
    rw [found] at isOpen
    cases status : claim.claimContract.status.value <;> simp_all [Option.filter, ClaimStatus.isOpen]

theorem latest_appliedMaps (maps : ClaimMaps) (record : ClaimWalRecord) :
    (appliedMaps maps record).latest = maps.latest.insert record.payload.claimContract.id.value
      (projectedClaim record) := by
  unfold appliedMaps
  cases record.operation <;> rfl

section Operations

variable (maps : ClaimMaps) (claim : ProjectedClaim)

theorem acquire_puts (status : claim.claimContract.status.value = .active) :
    Puts maps (maps.acquire claim.claimContract.id.value claim) claim := by
  refine ⟨fun id => ClaimMap.getElem?_insert' id _ claim, ?_, ?_, ?_⟩ <;> intro id <;>
    simp only [ClaimMaps.acquire, ClaimMap.getElem?_insert',
      ClaimMap.getElem?_erase', status, ClaimStatus.isOpen, reduceCtorEq, if_true, if_false]

theorem heartbeat_puts (status : claim.claimContract.status.value = .active)
    (notReleased : maps.released[claim.claimContract.id.value]? = none) (notHandedOff :
      maps.handoffRecorded[claim.claimContract.id.value]? = none) :
    Puts maps (maps.heartbeat claim.claimContract.id.value claim) claim := by
  refine ⟨fun id => ClaimMap.getElem?_insert' id _ claim, ?_, ?_, ?_⟩ <;> intro id <;>
    simp only [ClaimMaps.heartbeat, ClaimMap.getElem?_insert', status,
      ClaimStatus.isOpen, reduceCtorEq, if_true, if_false]
  · split
    · next same => rw [← same, notReleased]
    · rfl
  · split
    · next same => rw [← same, notHandedOff]
    · rfl

theorem release_puts (status : claim.claimContract.status.value = .released) :
    Puts maps (maps.release claim.claimContract.id.value claim) claim := by
  refine ⟨fun id => ClaimMap.getElem?_insert' id _ claim, ?_, ?_, ?_⟩ <;> intro id <;>
    simp only [ClaimMaps.release, ClaimMap.getElem?_insert',
      ClaimMap.getElem?_erase', status, ClaimStatus.isOpen, reduceCtorEq,
      if_true, if_false, Bool.false_eq_true]

theorem recordHandoff_puts (status : claim.claimContract.status.value = .handoffRecorded) :
    Puts maps (maps.recordHandoff claim.claimContract.id.value claim) claim := by
  refine ⟨fun id => ClaimMap.getElem?_insert' id _ claim, ?_, ?_, ?_⟩ <;> intro id <;>
    simp only [ClaimMaps.recordHandoff, ClaimMap.getElem?_insert',
      ClaimMap.getElem?_erase', status, ClaimStatus.isOpen, reduceCtorEq,
      if_true, if_false, Bool.false_eq_true]

theorem reconcile_puts (notReleased : claim.claimContract.status.value ≠ .released)
    (notHandedOff : claim.claimContract.status.value ≠ .handoffRecorded) :
    Puts maps (maps.reconcile claim.claimContract.id.value claim) claim := by
  refine ⟨fun id => ClaimMap.getElem?_insert' id _ claim, ?_, ?_, ?_⟩ <;> intro id <;>
    simp only [ClaimMaps.reconcile, ClaimMap.getElem?_erase', notReleased, notHandedOff, if_false]
  split <;> simp only [ClaimMap.getElem?_insert', ClaimMap.getElem?_erase']

end Operations

theorem appliedMaps_puts (filed : Filed maps) (fits : statusMatches record = true)
    (accepted : refusal maps record = none) :
    Puts maps (appliedMaps maps record) (projectedClaim record) := by
  unfold statusMatches at fits
  unfold refusal at accepted
  unfold appliedMaps
  cases operation : record.operation with
  | acquire =>
    simp only [operation, decide_eq_true_eq] at fits
    exact acquire_puts maps (projectedClaim record) fits
  | heartbeat =>
    simp only [operation, decide_eq_true_eq] at fits accepted
    obtain ⟨notReleased, notHandedOff⟩ := filed.closed_of_matching accepted
    exact heartbeat_puts maps (projectedClaim record) fits notReleased notHandedOff
  | release =>
    simp only [operation, decide_eq_true_eq] at fits
    exact release_puts maps (projectedClaim record) fits
  | handoffRecorded =>
    simp only [operation, decide_eq_true_eq] at fits
    exact recordHandoff_puts maps (projectedClaim record) fits
  | reconcileStatus =>
    simp only [operation, Bool.or_eq_true, decide_eq_true_eq] at fits
    have other {status : ClaimStatus} (closed : status = .released ∨ status = .handoffRecorded) :
        record.payload.claimContract.status.value ≠ status := by
      rintro rfl
      rcases closed with is | is <;> simp [is] at fits
    exact reconcile_puts maps (projectedClaim record) (other (Or.inl rfl)) (other (Or.inr rfl))

/-! ## Records are judged by contracts alone -/

theorem appliedMaps_forget (same : left.forget = right.forget) (record : ClaimWalRecord) :
    (appliedMaps left record).forget = (appliedMaps right record).forget := by
  have latest := congrArg ClaimMaps.latest same
  have active := congrArg ClaimMaps.active same
  have released := congrArg ClaimMaps.released same
  have handoffRecorded := congrArg ClaimMaps.handoffRecorded same
  simp only [ClaimMaps.forget] at latest active released handoffRecorded
  unfold appliedMaps
  cases record.operation with
  | reconcileStatus =>
    apply ClaimMaps.ext <;> simp only [ClaimMaps.forget, ClaimMaps.reconcile,
        ClaimMap.forget_insert, ClaimMap.forget_erase, latest, released, handoffRecorded]
    split <;> simp only [ClaimMap.forget_insert, ClaimMap.forget_erase, active]
  | _ =>
    apply ClaimMaps.ext <;> simp only [ClaimMaps.forget, ClaimMaps.acquire, ClaimMaps.heartbeat,
        ClaimMaps.release, ClaimMaps.recordHandoff, ClaimMap.forget_insert,
        ClaimMap.forget_erase, latest, active, released, handoffRecorded]

theorem matchingActiveClaim_congr {left right : ClaimMap} (same : left.forget = right.forget)
    (record : ClaimWalRecord) (op : MissingOp) :
    matchingActiveClaim record left op = matchingActiveClaim record right op := by
  have contracts := ClaimMap.contract_of_forget same record.payload.claimContract.id.value
  unfold matchingActiveClaim
  cases leftFound : left[record.payload.claimContract.id.value]? <;>
    cases rightFound : right[record.payload.claimContract.id.value]? <;> simp_all

theorem matchingOpenClaimForHandoff_congr
    {left right : ClaimMap} (same : left.forget = right.forget) (record : ClaimWalRecord) :
    matchingOpenClaimForHandoff record left = matchingOpenClaimForHandoff record right := by
  have contracts := ClaimMap.contract_of_forget same record.payload.claimContract.id.value
  unfold matchingOpenClaimForHandoff
  cases leftFound : left[record.payload.claimContract.id.value]? <;>
    cases rightFound : right[record.payload.claimContract.id.value]? <;> simp_all

theorem refusal_congr (same : left.forget = right.forget) (record : ClaimWalRecord) :
    refusal left record = refusal right record := by
  unfold refusal
  cases record.operation with
  | acquire => rfl
  | handoffRecorded =>
    exact matchingOpenClaimForHandoff_congr (congrArg ClaimMaps.latest same) record
  | _ =>
    exact matchingActiveClaim_congr (congrArg ClaimMaps.active same) record _

theorem remarks_congr (same : left.forget = right.forget) (record : ClaimWalRecord) :
    remarks left record = remarks right record := by
  have contracts := ClaimMap.contract_of_forget (show left.active.forget = right.active.forget from
        congrArg ClaimMaps.active same) record.payload.claimContract.id.value
  unfold remarks
  cases record.operation with
  | acquire =>
    unfold reacquireDiagnostic
    cases leftFound : left.active[record.payload.claimContract.id.value]? <;> cases rightFound :
        right.active[record.payload.claimContract.id.value]? <;> simp_all
  | _ => rfl

theorem filed_ext (leftFiled : Filed left) (rightFiled : Filed right)
    (latest : left.latest.forget = right.latest.forget) : left.forget = right.forget := by
  have sameWhere (holds : ClaimStatus → Bool) (id : String) :
      (latestWhere left holds id).map ProjectedClaim.forget =
        (latestWhere right holds id).map ProjectedClaim.forget := by
    have commutes (maps : ClaimMaps) : (latestWhere maps holds id).map ProjectedClaim.forget =
          (maps.latest.forget[id]?).filter fun claim =>
            holds claim.claimContract.status.value := by
      rw [ClaimMap.getElem?_forget, latestWhere]
      cases maps.latest[id]? with
      | none => rfl
      | some claim => simp [Option.filter, ProjectedClaim.forget]
    rw [commutes, commutes, latest]
  apply ClaimMaps.ext
  · exact latest
  all_goals
    apply Std.ExtTreeMap.ext_getElem?
    intro id
    simp only [ClaimMaps.forget, ClaimMap.getElem?_forget]
  · rw [leftFiled.active, rightFiled.active, sameWhere]
  · rw [leftFiled.released, rightFiled.released, sameWhere]
  · rw [leftFiled.handoffRecorded, rightFiled.handoffRecorded, sameWhere]

def seedAll (start : ClaimMaps) (claims : List ProjectedClaim) : ClaimMaps :=
  claims.foldl (fun maps claim => maps.seed claim.claimContract.id.value claim) start

theorem seedAll_filed
    (filed : Filed start) (claims : List ProjectedClaim) : Filed (seedAll start claims) := by
  induction claims generalizing start with
  | nil => exact filed
  | cons claim rest ih =>
    exact ih ((seed_puts start claim).filed filed)

theorem latest_seedAll_other {claims : List ProjectedClaim} {id : String}
    (absent : ∀ claim ∈ claims, claim.claimContract.id.value ≠ id) :
    (seedAll start claims).latest[id]? = start.latest[id]? := by
  induction claims generalizing start with
  | nil => rfl
  | cons claim rest ih =>
    have later : (seedAll (start.seed claim.claimContract.id.value claim) rest).latest[id]? =
          (start.seed claim.claimContract.id.value claim).latest[id]? := ih fun other member =>
        absent other (mem_cons_of_mem _ member)
    have first := (seed_puts start claim).latest id
    rw [if_neg (absent claim mem_cons_self)] at first
    exact later.trans first

theorem latest_seedAll_mem
    {claims : List ProjectedClaim} (distinct : claims.Pairwise fun left right =>
      left.claimContract.id.value ≠ right.claimContract.id.value)
    {claim : ProjectedClaim} (member : claim ∈ claims) :
    (seedAll start claims).latest[claim.claimContract.id.value]? = some claim := by
  induction claims generalizing start with
  | nil => cases member
  | cons first rest ih =>
    obtain ⟨notLater, restDistinct⟩ := List.pairwise_cons.mp distinct
    rcases List.mem_cons.mp member with rfl | later
    · have kept : (seedAll (start.seed claim.claimContract.id.value claim)
          rest).latest[claim.claimContract.id.value]? = (start.seed claim.claimContract.id.value
              claim).latest[claim.claimContract.id.value]? :=
        latest_seedAll_other fun other inRest =>
          Ne.symm (notLater other inRest)
      have put := (seed_puts start claim).latest claim.claimContract.id.value
      rw [if_pos rfl] at put
      exact kept.trans put
    · exact ih restDistinct later

theorem Filed.distinct (filed : Filed maps) :
    (ClaimMap.projected maps.latest).Pairwise fun left right =>
      left.claimContract.id.value ≠ right.claimContract.id.value := by
  have key : ∀ entry ∈ maps.latest.toList,
      entry.2.claimContract.id.value = entry.1 := fun entry member =>
    filed.keyed entry.1 entry.2 (Std.ExtTreeMap.mem_toList_iff_getElem?_eq_some.mp member)
  rw [ClaimMap.projected, pairwise_map]
  refine Pairwise.imp_of_mem ?_ (Std.ExtTreeMap.distinct_keys_toList (t := maps.latest))
  intro left right leftMember rightMember different same
  rw [key left leftMember, key right rightMember] at same
  exact different (Std.LawfulEqCmp.compare_eq_iff_eq.mpr same)

theorem seedAll_forget (filed : Filed maps) :
    (seedAll .empty ((ClaimMap.projected maps.latest).map ProjectedClaim.forget)).forget =
      maps.forget := by
  have sameId (claim : ProjectedClaim) :
      claim.forget.claimContract.id.value = claim.claimContract.id.value := rfl
  apply filed_ext (seedAll_filed filed_empty _) filed
  apply Std.ExtTreeMap.ext_getElem?
  intro id
  rw [ClaimMap.getElem?_forget, ClaimMap.getElem?_forget]
  cases found : maps.latest[id]? with
  | some claim =>
    have inList : claim.forget ∈ (ClaimMap.projected maps.latest).map ProjectedClaim.forget := by
      apply mem_map_of_mem
      exact mem_map_of_mem (f := Prod.snd)
        (Std.ExtTreeMap.mem_toList_iff_getElem?_eq_some.mpr found)
    have distinct : ((ClaimMap.projected maps.latest).map
        ProjectedClaim.forget).Pairwise fun left right =>
          left.claimContract.id.value ≠ right.claimContract.id.value := by
      rw [pairwise_map]
      exact filed.distinct
    have kept : (seedAll .empty ((ClaimMap.projected maps.latest).map
        ProjectedClaim.forget)).latest[claim.forget.claimContract.id.value]? =
          some claim.forget := latest_seedAll_mem distinct inList
    rw [sameId, filed.keyed id claim found] at kept
    rw [kept]
    rfl
  | none =>
    rw [latest_seedAll_other]
    · simp [ClaimMaps.empty]
    · intro claim member same
      obtain ⟨original, inMap, rfl⟩ := List.mem_map.mp member
      obtain ⟨⟨key, stored⟩, inList, rfl⟩ := List.mem_map.mp inMap
      have present := Std.ExtTreeMap.mem_toList_iff_getElem?_eq_some.mp inList
      rw [sameId, filed.keyed key _ present] at same
      rw [same, found] at present
      cases present

theorem seeded_snapshotOf (stamp : RotationStamp) (log : ClaimLog) :
    (ClaimLog.seeded (some (snapshotOf stamp log.project))).maps =
      seedAll .empty ((ClaimMap.projected log.accumulate.maps.latest).map
      ProjectedClaim.forget) := by
  simp only [ClaimLog.seeded, ProjectionAccumulator.seedSnapshot, snapshotOf,
    snapshotClaimsFromProjection, seedAll, foldl_map]
  rfl

/-- An append or a rotation, as the log sees them. -/
inductive LogEvent where
  | append (record : ClaimWalRecord)
  | rotate (stamp : RotationStamp)
deriving DecidableEq, Repr

def LogEvent.record? : LogEvent → Option ClaimWalRecord
  | .append record => some record
  | .rotate _ => none

namespace ClaimLog

def step (log : ClaimLog) : LogEvent → ClaimLog
  | .append record => log.append record
  | .rotate stamp => log.rotate stamp

def run (log : ClaimLog) (events : List LogEvent) : ClaimLog :=
  events.foldl step log

/-- The same records in a log that was never rotated. -/
def whole (events : List LogEvent) : ClaimLog :=
  ⟨none, events.filterMap LogEvent.record?⟩

theorem run_append (log : ClaimLog) (events : List LogEvent) (last : LogEvent) :
    log.run (events ++ [last]) = (log.run events).step last := by
  simp [run]

theorem whole_append (events : List LogEvent) (record : ClaimWalRecord) :
    whole (events ++ [.append record]) = (whole events).append record := by
  simp [whole, append, LogEvent.record?]

theorem whole_rotate (events : List LogEvent) (stamp : RotationStamp) :
    whole (events ++ [.rotate stamp]) = whole events := by
  simp [whole, LogEvent.record?]

theorem accumulate_append (log : ClaimLog) (record : ClaimWalRecord) :
    (log.append record).accumulate = log.accumulate.applyRecord record := by
  simp [accumulate, append]

end ClaimLog

/-- Two projections that agree apart from offsets, counters and what the
longer one reported earlier. -/
structure SameProjection (compacted whole : ClaimWalProjection) : Prop where
  maps : compacted.maps.forget = whole.maps.forget
  claims : compacted.claims = whole.claims
  indexes : compacted.indexes = whole.indexes
  diagnostics : compacted.diagnostics <:+ whole.diagnostics

/-- The accumulators of a compacted log and of the whole one. -/
structure Agrees (compacted whole : ProjectionAccumulator) : Prop where
  maps : compacted.maps.forget = whole.maps.forget
  compactedFiled : Filed compacted.maps
  wholeFiled : Filed whole.maps
  diagnostics : compacted.diagnostics <:+ whole.diagnostics

theorem applyRecord_filed {accumulator : ProjectionAccumulator}
    (filed : Filed accumulator.maps) (fits : statusMatches record = true) :
    Filed (accumulator.applyRecord record).maps := by
  unfold ProjectionAccumulator.applyRecord
  dsimp only
  cases refused : refusal accumulator.maps record with
  | some diagnostic => exact filed
  | none => exact (appliedMaps_puts filed fits refused).filed filed

theorem Agrees.applyRecord (agrees : Agrees compacted whole) (fits : statusMatches record = true) :
    Agrees (compacted.applyRecord record) (whole.applyRecord record) := by
  obtain ⟨earlier, reported⟩ := agrees.diagnostics
  refine ⟨?_, applyRecord_filed agrees.compactedFiled fits,
    applyRecord_filed agrees.wholeFiled fits, ?_⟩
  · unfold ProjectionAccumulator.applyRecord
    rw [refusal_congr agrees.maps]
    cases refusal whole.maps record with
    | some diagnostic => exact agrees.maps
    | none => exact appliedMaps_forget agrees.maps record
  · unfold ProjectionAccumulator.applyRecord
    rw [refusal_congr agrees.maps, remarks_congr agrees.maps, ← reported]
    cases refusal whole.maps record with
    | some diagnostic => exact ⟨earlier, by simp⟩
    | none => exact ⟨earlier, by simp⟩

theorem agrees_rotate {log : ClaimLog}
    (agrees : Agrees log.accumulate whole) (stamp : RotationStamp) :
    Agrees (log.rotate stamp).accumulate whole := by
  have seededMaps := seeded_snapshotOf stamp log
  refine ⟨?_, ?_, agrees.wholeFiled, nil_suffix⟩
  · rw [← agrees.maps, ← seedAll_forget agrees.compactedFiled, ← seededMaps]
    rfl
  · have filed := seedAll_filed filed_empty ((ClaimMap.projected log.accumulate.maps.latest).map
        ProjectedClaim.forget)
    rw [← seededMaps] at filed
    exact filed

theorem agrees_run
    (matching : ∀ event ∈ events, ∀ record ∈ event.record?, statusMatches record = true) :
    Agrees (ClaimLog.empty.run events).accumulate (ClaimLog.whole events).accumulate := by
  induction events using List.reverseRecOn with
  | nil =>
    exact ⟨rfl, filed_empty, filed_empty, suffix_refl _⟩
  | append_singleton earlier last ih =>
    have agrees := ih fun event member =>
      matching event (mem_append_left _ member)
    have fits := matching last (by simp)
    rw [ClaimLog.run_append]
    cases last with
    | append record =>
      rw [ClaimLog.whole_append, ClaimLog.accumulate_append]
      have applied := agrees.applyRecord (fits record rfl)
      rw [← ClaimLog.accumulate_append] at applied
      exact applied
    | rotate stamp =>
      rw [ClaimLog.whole_rotate]
      exact agrees_rotate agrees stamp

theorem buildActiveIndexes_forget (active : ClaimMap) :
    buildActiveIndexes active.forget = buildActiveIndexes active := by
  simp only [buildActiveIndexes, ClaimMap.forget, Std.ExtTreeMap.toList_map, foldl_map]
  rfl

theorem contracts_forget (map : ClaimMap) : (ClaimMap.projected map.forget).map (·.claimContract) =
      (ClaimMap.projected map).map (·.claimContract) := by
  rw [ClaimMap.projected_forget, map_map]
  rfl

/-- However often a log is rotated, its projection is that of the whole
log. -/
theorem compaction_preserves_projection
    (events : List LogEvent)
    (matching : ∀ event ∈ events, ∀ record ∈ event.record?, statusMatches record = true) :
    SameProjection (ClaimLog.empty.run events).project (ClaimLog.whole events).project := by
  have agrees := agrees_run matching
  have latest := congrArg ClaimMaps.latest agrees.maps
  have active := congrArg ClaimMaps.active agrees.maps
  simp only [ClaimMaps.forget] at latest active
  refine ⟨agrees.maps, ?_, ?_, agrees.diagnostics⟩
  · rw [ClaimLog.project, ClaimLog.project, ← contracts_forget, latest, contracts_forget]
  · rw [ClaimLog.project, ClaimLog.project, ← buildActiveIndexes_forget,
      active, buildActiveIndexes_forget]

namespace Sample

/-- A claim of the story `s1`. -/
def claim (status : ClaimStatus) : ClaimContract where
  id := ⟨"claim.story.s1.s1"⟩
  contractRef := ⟨"contracts/claims/claim-contract-v0.yaml"⟩
  claim := ⟨.story, none, ⟨"alice"⟩, .worker, none⟩
  scope := ⟨.story, ⟨"s1"⟩, none, [⟨"src/lib.rs"⟩]⟩
  lease := ⟨"2026-01-01T00:00:00Z", "2026-01-01T00:00:00Z", "2026-01-01T01:00:00Z", 3600, 60, 0⟩
  status := ⟨status, "2026-01-01T00:00:00Z", none⟩
  expiryPolicy := ⟨.recordHandoffRequest, true, false, .driverReview, none⟩
  evidenceRefs := []

def record (seq : Nat) (operation : ClaimWalOperation) (status : ClaimStatus) : ClaimWalRecord where
  seq := seq
  operation := operation
  payload := ⟨"0.1", operation, "2026-01-01T00:00:00Z", claim status⟩
  offset := 0
  recordLen := 0

end Sample

/-- A release that is read behind the snapshot of its acquire. -/
theorem compaction_preserves_projection_release :
    SameProjection (ClaimLog.empty.run [.append (Sample.record 1 .acquire .active),
      .rotate ⟨"2026-01-01T00:00:00Z", 0, 1⟩,
      .append (Sample.record 3 .release .released)]).project (ClaimLog.whole
      [.append (Sample.record 1 .acquire .active), .rotate ⟨"2026-01-01T00:00:00Z", 0, 1⟩,
      .append (Sample.record 3 .release .released)]).project := by
  apply compaction_preserves_projection
  intro event member record carried
  simp only [mem_cons, not_mem_nil, or_false] at member
  rcases member with rfl | rfl | rfl
  · cases carried
    decide
  · cases carried
  · cases carried
    decide

end ForgeCore.ClaimWal
