import ForgeCore.ClaimWal.Compaction

/-!
# The projected claims

Every claim of a projection is filed once, as active, expired or closed.
-/

namespace ForgeCore.ClaimWal

open List Claims

/-- The three maps share no id, and agree with the map of latest claims. -/
structure Partitioned (maps : ClaimMaps) : Prop where
  activeReleased : ∀ id : String, id ∈ maps.active → id ∉ maps.released
  activeHandoff : ∀ id : String, id ∈ maps.active → id ∉ maps.handoffRecorded
  releasedHandoff : ∀ id : String, id ∈ maps.released → id ∉ maps.handoffRecorded
  active : ∀ (id : String) (claim : ProjectedClaim),
    maps.active[id]? = some claim → maps.latest[id]? = some claim
  released : ∀ (id : String) (claim : ProjectedClaim),
    maps.released[id]? = some claim → maps.latest[id]? = some claim
  handoffRecorded : ∀ (id : String) (claim : ProjectedClaim),
    maps.handoffRecorded[id]? = some claim → maps.latest[id]? = some claim
  keyed : ∀ (id : String) (claim : ProjectedClaim),
    maps.latest[id]? = some claim → claim.claimContract.id.value = id

theorem partitioned_empty : Partitioned ClaimMaps.empty := by
  constructor <;> simp [ClaimMaps.empty]

/-- The map that a claim is filed in, if any. -/
inductive Place where
  | active
  | released
  | handoffRecorded
  | nowhere
deriving DecidableEq, Repr

/-- A map in which an id was set or taken out, and that is otherwise as it
was. -/
def SetAt (before after : ClaimMap) (key : String) (held : Option ProjectedClaim) : Prop :=
  ∀ id : String, after[id]? = if key = id then held else before[id]?

theorem setAt_insert (map : ClaimMap) (key : String) (claim : ProjectedClaim) :
    SetAt map (map.insert key claim) key (some claim) :=
  fun id => ClaimMap.getElem?_insert' id key claim

theorem setAt_erase (map : ClaimMap) (key : String) : SetAt map (map.erase key) key none :=
  fun id => ClaimMap.getElem?_erase' id key

theorem setAt_absent {map : ClaimMap} {key : String} (absent : key ∉ map) :
    SetAt map map key none := by
  intro id
  split
  · next same =>
    rw [← same]
    exact Std.ExtTreeMap.getElem?_eq_none absent
  · rfl

/-- A claim becomes the latest of its id, and is in one place at most. -/
structure FiledIn (before after : ClaimMaps) (claim : ProjectedClaim) (place : Place) : Prop where
  latest : SetAt before.latest after.latest
    claim.claimContract.id.value (some claim)
  active : SetAt before.active after.active
    claim.claimContract.id.value
    (if place = .active then some claim else none)
  released : SetAt before.released after.released
    claim.claimContract.id.value
    (if place = .released then some claim else none)
  handoffRecorded : SetAt before.handoffRecorded after.handoffRecorded
    claim.claimContract.id.value
    (if place = .handoffRecorded then some claim else none)

theorem apart_of_setAt
    {left left' right right' : ClaimMap} {key : String} {leftHeld rightHeld : Option ProjectedClaim}
    (leftSet : SetAt left left' key leftHeld) (rightSet : SetAt right right' key rightHeld)
    (apart : ∀ id : String, id ∈ left → id ∉ right)
    (atKey : leftHeld = none ∨ rightHeld = none) (id : String)
    (inLeft : id ∈ left') : id ∉ right' := by
  rw [Std.ExtTreeMap.mem_iff_isSome_getElem?, leftSet id] at inLeft
  rw [Std.ExtTreeMap.mem_iff_isSome_getElem?, rightSet id]
  by_cases same : key = id
  · rw [if_pos same] at inLeft ⊢
    rcases atKey with leftNone | rightNone
    · rw [leftNone] at inLeft
      cases inLeft
    · rw [rightNone]
      exact Bool.false_ne_true
  · rw [if_neg same] at inLeft ⊢
    intro inRight
    exact apart id (Std.ExtTreeMap.mem_iff_isSome_getElem?.mpr inLeft)
      (Std.ExtTreeMap.mem_iff_isSome_getElem?.mpr inRight)

theorem latest_of_setAt
    {map map' latest latest' : ClaimMap} {key : String}
    {claim : ProjectedClaim} {inPlace : Prop} [Decidable inPlace]
    (set : SetAt map map' key (if inPlace then some claim else none))
    (latestSet : SetAt latest latest' key (some claim))
    (agrees : ∀ (id : String) (found : ProjectedClaim),
      map[id]? = some found → latest[id]? = some found)
    (id : String) (found : ProjectedClaim) (looked : map'[id]? = some found) :
    latest'[id]? = some found := by
  rw [set id] at looked
  rw [latestSet id]
  by_cases same : key = id
  · rw [if_pos same] at looked ⊢
    split at looked
    · exact looked
    · cases looked
  · rw [if_neg same] at looked ⊢
    exact agrees id found looked

theorem FiledIn.partitioned
    {before after : ClaimMaps} {claim : ProjectedClaim} {place : Place}
    (filed : FiledIn before after claim place)
    (partitioned : Partitioned before) : Partitioned after where
  activeReleased := by
    apply apart_of_setAt filed.active filed.released partitioned.activeReleased
    cases place <;> simp
  activeHandoff := by
    apply apart_of_setAt filed.active filed.handoffRecorded partitioned.activeHandoff
    cases place <;> simp
  releasedHandoff := by
    apply apart_of_setAt filed.released filed.handoffRecorded partitioned.releasedHandoff
    cases place <;> simp
  active := latest_of_setAt filed.active filed.latest partitioned.active
  released := latest_of_setAt filed.released filed.latest partitioned.released
  handoffRecorded := latest_of_setAt filed.handoffRecorded filed.latest partitioned.handoffRecorded
  keyed := by
    intro id found looked
    rw [filed.latest id] at looked
    split at looked
    · next same =>
      cases looked
      exact same
    · exact partitioned.keyed id found looked

theorem seed_filedIn (maps : ClaimMaps) (claim : ProjectedClaim) :
    ∃ place, FiledIn maps (maps.seed claim.claimContract.id.value claim) claim place := by
  cases status : claim.claimContract.status.value with
  | active | stale =>
    refine ⟨.active, setAt_insert _ _ _, ?_, ?_, ?_⟩ <;>
      simp only [ClaimMaps.seed, status, ClaimStatus.isOpen] <;>
      first | exact setAt_insert _ _ _ | exact setAt_erase _ _
  | released =>
    refine ⟨.released, setAt_insert _ _ _, ?_, ?_, ?_⟩ <;>
      simp only [ClaimMaps.seed, status, ClaimStatus.isOpen] <;>
      first | exact setAt_insert _ _ _ | exact setAt_erase _ _
  | handoffRecorded =>
    refine ⟨.handoffRecorded, setAt_insert _ _ _, ?_, ?_, ?_⟩ <;>
      simp only [ClaimMaps.seed, status, ClaimStatus.isOpen] <;>
      first | exact setAt_insert _ _ _ | exact setAt_erase _ _
  | expired | handoffRequired =>
    refine ⟨.nowhere, setAt_insert _ _ _, ?_, ?_, ?_⟩ <;>
      simp only [ClaimMaps.seed, status, ClaimStatus.isOpen] <;>
      exact setAt_erase _ _

theorem partitioned_seeded (snapshot : Option ClaimWalSnapshotPayload) :
    Partitioned (ClaimLog.seeded snapshot).maps := by
  cases snapshot with
  | none => exact partitioned_empty
  | some snapshot =>
    change Partitioned (snapshot.latestClaims.foldl _ ClaimMaps.empty)
    generalize snapshot.latestClaims = claims
    induction claims using List.reverseRecOn with
    | nil => exact partitioned_empty
    | append_singleton claims last ih =>
      rw [foldl_append, foldl_cons, foldl_nil]
      obtain ⟨place, filed⟩ := seed_filedIn _ (seededClaim last)
      exact filed.partitioned ih

theorem mem_active_of_matching (matching : matchingActiveClaim record active op = none) :
    record.payload.claimContract.id.value ∈ active := by
  by_contra absent
  rw [matchingActiveClaim, Std.ExtTreeMap.getElem?_eq_none absent] at matching
  cases matching

/-- Only a heartbeat leaves two maps alone: its claim is open, and so it is in
neither of them. -/
theorem heartbeat_filedIn
    {maps : ClaimMaps} {claim : ProjectedClaim}
    (partitioned : Partitioned maps)
    (isActive : claim.claimContract.id.value ∈ maps.active) :
    FiledIn maps (maps.heartbeat claim.claimContract.id.value claim) claim
      .active where
  latest := setAt_insert _ _ _
  active := setAt_insert _ _ _
  released := setAt_absent (partitioned.activeReleased _ isActive)
  handoffRecorded := setAt_absent (partitioned.activeHandoff _ isActive)

theorem reconcile_filedIn (maps : ClaimMaps) (claim : ProjectedClaim) :
    ∃ place, FiledIn maps (maps.reconcile claim.claimContract.id.value claim) claim place := by
  cases isOpen : claim.claimContract.status.value.isOpen with
  | true =>
    refine ⟨.active, setAt_insert _ _ _, ?_, setAt_erase _ _, setAt_erase _ _⟩
    simp only [ClaimMaps.reconcile, isOpen]
    exact setAt_insert _ _ _
  | false =>
    refine ⟨.nowhere, setAt_insert _ _ _, ?_, setAt_erase _ _, setAt_erase _ _⟩
    simp only [ClaimMaps.reconcile, isOpen]
    exact setAt_erase _ _

theorem appliedMaps_filedIn (partitioned : Partitioned maps) (taken : refusal maps record = none) :
    ∃ place, FiledIn maps (appliedMaps maps record) (projectedClaim record) place := by
  cases operation : record.operation with
  | acquire =>
    simp only [appliedMaps, operation]
    exact ⟨.active, setAt_insert _ _ _, setAt_insert _ _ _, setAt_erase _ _, setAt_erase _ _⟩
  | heartbeat =>
    simp only [refusal, operation] at taken
    simp only [appliedMaps, operation]
    exact ⟨.active, @heartbeat_filedIn _ (projectedClaim record)
      partitioned (mem_active_of_matching taken)⟩
  | release =>
    simp only [appliedMaps, operation]
    exact ⟨.released, setAt_insert _ _ _, setAt_erase _ _, setAt_insert _ _ _, setAt_erase _ _⟩
  | handoffRecorded =>
    simp only [appliedMaps, operation]
    exact ⟨.handoffRecorded, setAt_insert _ _ _, setAt_erase _ _,
      setAt_erase _ _, setAt_insert _ _ _⟩
  | reconcileStatus =>
    simp only [appliedMaps, operation]
    exact reconcile_filedIn maps (projectedClaim record)

theorem Partitioned.applyRecord {accumulator : ProjectionAccumulator}
    (partitioned : Partitioned accumulator.maps) (record : ClaimWalRecord) :
    Partitioned (accumulator.applyRecord record).maps := by
  cases judged : refusal accumulator.maps record with
  | some diagnostic =>
    simp only [ProjectionAccumulator.applyRecord, judged]
    exact partitioned
  | none =>
    simp only [ProjectionAccumulator.applyRecord, judged]
    obtain ⟨place, filed⟩ := appliedMaps_filedIn partitioned judged
    exact filed.partitioned partitioned

/-- The maps of every projection are partitioned, also when records do not
fit the status that they carry. -/
theorem claim_projection_is_partitioned (recovery : ClaimWalRecovery) :
    Partitioned (projectClaimWalRecovery recovery).maps := by
  change Partitioned (recovery.log.accumulate).maps
  rw [ClaimLog.accumulate]
  generalize recovery.log.records = records
  induction records using List.reverseRecOn with
  | nil => exact partitioned_seeded _
  | append_singleton records record ih =>
    rw [foldl_append, foldl_cons, foldl_nil]
    exact ih.applyRecord record

end ForgeCore.ClaimWal
