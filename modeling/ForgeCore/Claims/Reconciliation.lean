import ForgeCore.Claims.Exclusivity

/-!
# A reconciliation pass settles the bus

Expiry is decided in two places, the sweep `expire_stale` and the pass
`reconcile_claims`.  The two agree, a pass leaves nothing for a second pass at
the same time, and no operation on an existing claim opens a closed one.
-/

namespace ForgeCore.Claims

open List Text

structure ClaimExpiry where
  claimId : ClaimId
  transitionedTo : ClaimStatus
  deriving DecidableEq, Repr

def expireStale (claims : List ClaimContract) (now : Int) : List ClaimExpiry :=
  (claims.filter fun claim =>
      claim.status.value.isOpen && isExpired claim now).map fun claim =>
    { claimId := claim.id
      transitionedTo :=
        if claim.expiryPolicy.handoffRequired then .handoffRequired
        else .expired }

/-! ## Applying the transitions of a pass -/

def applyTransition (claims : List ClaimContract) (transition : ClaimReconcileTransition) :
    List ClaimContract :=
  claims.map fun claim =>
    if claim.id = transition.claimId then transition.updated else claim

def applyTransitions (claims : List ClaimContract)
    (transitions : List ClaimReconcileTransition) : List ClaimContract :=
  transitions.foldl applyTransition claims

/-- A transition that ends the lease, as opposed to one that notices a missed
heartbeat. -/
def ClaimReconcileTransition.isExpiry (transition : ClaimReconcileTransition) : Bool :=
  transition.target = .expired || transition.target = .handoffRequired

def ClaimReconcileTransition.expiry (transition : ClaimReconcileTransition) : ClaimExpiry where
  claimId := transition.claimId
  transitionedTo := transition.target

/-! ## What a pass does to one claim -/

/-- The three ways in which a pass leaves a claim. -/
inductive Reconciles (claim : ClaimContract) (now : Int) :
    Option ClaimReconcileTransition → Prop where
  | expires
      (isOpen : claim.status.value.isOpen = true)
      (expired : isExpired claim now = true) :
      Reconciles claim now
        (some (reconciledTransition claim now
          (if claim.expiryPolicy.handoffRequired then .handoffRequired
            else .expired)
          ⟨"lease_expired"⟩))
  | goesStale (reason : StableId)
      (isActive : claim.status.value = .active)
      (leased : isExpired claim now = false) :
      Reconciles claim now
        (some (reconciledTransition claim now .stale reason))
  | stays
      (settled : (claim.status.value.isOpen && isExpired claim now) = false) :
      Reconciles claim now none

theorem reconcileClaim_reconciles (claim : ClaimContract) (now : Int) :
    Reconciles claim now (reconcileClaim claim now) := by
  unfold reconcileClaim
  split
  next openAndExpired =>
    rw [Bool.and_eq_true] at openAndExpired
    exact .expires openAndExpired.1 openAndExpired.2
  next notBoth =>
    have settled : (claim.status.value.isOpen && isExpired claim now) = false :=
      Bool.eq_false_iff.mpr notBoth
    split
    next isActive =>
      cases overdue : heartbeatStaleReason claim now with
      | none => exact .stays settled
      | some reason =>
        have leased : isExpired claim now = false := by
          simpa only [isActive, ClaimStatus.isOpen, Bool.true_and] using settled
        exact .goesStale reason isActive leased
    all_goals exact .stays settled

variable {claim : ClaimContract} {now : Int}
    {transition : ClaimReconcileTransition} {claims : List ClaimContract}

theorem reconcileClaim_of_closed (now : Int) (closed : claim.status.value.isOpen = false) :
    reconcileClaim claim now = none := by
  have outcome := reconcileClaim_reconciles claim now
  generalize reconcileClaim claim now = result at outcome
  cases outcome with
  | expires isOpen expired =>
    rw [closed] at isOpen
    cases isOpen
  | goesStale reason isActive leased =>
    rw [isActive] at closed
    cases closed
  | stays settled => rfl

theorem reconcileClaim_of_stale
    (isStale : claim.status.value = .stale) (leased : isExpired claim now = false) :
    reconcileClaim claim now = none := by
  simp only [reconcileClaim, leased, Bool.and_false, Bool.false_eq_true, if_false, isStale]

/-- A claim that a pass has updated is left alone by a pass at the same
time. -/
theorem reconcileClaim_updated (reconciled : reconcileClaim claim now = some transition) :
    reconcileClaim transition.updated now = none := by
  have outcome := reconcileClaim_reconciles claim now
  rw [reconciled] at outcome
  cases outcome with
  | expires isOpen expired =>
    apply reconcileClaim_of_closed
    simp only [reconciledTransition]
    split <;> rfl
  | goesStale reason isActive leased =>
    -- The lease is not touched, so it has not run out either.
    exact reconcileClaim_of_stale rfl leased

theorem mem_transitions_iff : transition ∈ (reconcileClaims claims now).transitions ↔
      ∃ claim ∈ claims, reconcileClaim claim now = some transition := by
  simp only [reconcileClaims, mem_filterMap]

theorem transitions_eq_nil_iff : (reconcileClaims claims now).transitions = [] ↔
      ∀ claim ∈ claims, reconcileClaim claim now = none := by
  simp only [reconcileClaims, filterMap_eq_nil_iff]

theorem reconcileClaim_claimId (reconciled : reconcileClaim claim now = some transition) :
    transition.claimId = claim.id := by
  have outcome := reconcileClaim_reconciles claim now
  rw [reconciled] at outcome
  cases outcome with
  | expires isOpen expired => rfl
  | goesStale reason isActive leased => rfl

/-- Whatever is applied, a claim afterwards was updated by a transition, or
stood there before under an id that no transition names. -/
theorem mem_applyTransitions (transitions : List ClaimReconcileTransition)
    (member : claim ∈ applyTransitions claims transitions) :
    (∃ transition ∈ transitions, claim = transition.updated) ∨ claim ∈ claims ∧
      ∀ transition ∈ transitions, transition.claimId ≠ claim.id := by
  induction transitions using List.reverseRecOn generalizing claim with
  | nil =>
    refine Or.inr ⟨member, ?_⟩
    intro transition listed
    cases listed
  | append_singleton earlier last ih =>
    simp only [applyTransitions, foldl_append, foldl_cons, foldl_nil] at member
    obtain ⟨before, beforeMember, isClaim⟩ := List.mem_map.mp member
    split at isClaim
    · exact Or.inl ⟨last, by simp, isClaim.symm⟩
    · next differs =>
      rw [isClaim] at beforeMember differs
      rcases ih beforeMember with
        ⟨transition, listed, updated⟩ | ⟨kept, unnamed⟩
      · exact Or.inl ⟨transition, by simp [listed], updated⟩
      · refine Or.inr ⟨kept, ?_⟩
        intro transition listed
        rcases List.mem_append.mp listed with isEarlier | isLast
        · exact unnamed transition isEarlier
        · rw [List.mem_singleton.mp isLast]
          exact fun same => differs same.symm

theorem reconcile_settles (claims : List ClaimContract) (now : Int) :
    (reconcileClaims (applyTransitions claims (reconcileClaims claims now).transitions)
      now).transitions = [] := by
  rw [transitions_eq_nil_iff]
  intro claim member
  rcases mem_applyTransitions _ member with
    ⟨transition, listed, rfl⟩ | ⟨kept, unnamed⟩
  · obtain ⟨before, -, reconciled⟩ := mem_transitions_iff.mp listed
    exact reconcileClaim_updated reconciled
  · cases reconciled : reconcileClaim claim now with
    | none => rfl
    | some transition =>
      have listed : transition ∈ (reconcileClaims claims now).transitions :=
        mem_transitions_iff.mpr ⟨claim, kept, reconciled⟩
      exact absurd (reconcileClaim_claimId reconciled) (unnamed transition listed)

/-! ## The pass and the sweep agree -/

theorem expiries_eq_expireStale (claims : List ClaimContract) (now : Int) :
    ((reconcileClaims claims now).transitions.filter ClaimReconcileTransition.isExpiry).map
      ClaimReconcileTransition.expiry = expireStale claims now := by
  simp only [reconcileClaims, expireStale]
  induction claims with
  | nil => rfl
  | cons claim rest ih =>
    have outcome := reconcileClaim_reconciles claim now
    generalize found : reconcileClaim claim now = result at outcome
    rw [filterMap_cons, found]
    cases outcome with
    | expires isOpen expired =>
      have isExpiry : (reconciledTransition claim now (if claim.expiryPolicy.handoffRequired then
                .handoffRequired
              else .expired)
            ⟨"lease_expired"⟩).isExpiry = true := by
        simp only [ClaimReconcileTransition.isExpiry, reconciledTransition]
        split <;> rfl
      have selected : (claim.status.value.isOpen && isExpired claim now) = true := by
        rw [isOpen, expired]
        rfl
      rw [filter_cons_of_pos isExpiry, map_cons, ih, filter_cons, if_pos selected, map_cons]
      rfl
    | goesStale reason isActive leased =>
      have noExpiry : ¬(reconciledTransition claim now .stale reason).isExpiry = true := by
        intro isExpiry
        cases isExpiry
      have notSelected : ¬(claim.status.value.isOpen && isExpired claim now) = true := by
        rw [leased, Bool.and_false]
        exact Bool.false_ne_true
      rw [filter_cons_of_neg noExpiry, ih, filter_cons, if_neg notSelected]
    | stays settled =>
      have notSelected : ¬(claim.status.value.isOpen && isExpired claim now) = true := by
        rw [settled]
        exact Bool.false_ne_true
      rw [ih, filter_cons, if_neg notSelected]

/-- One operation on an existing claim, at any time and by any agent. -/
inductive Moves : ClaimContract → ClaimContract → Prop where
  | heartbeat {claim next : ClaimContract} (agentId : StableId) (now : Int)
      (accepted : heartbeat claim agentId now = .accepted next) :
      Moves claim next
  | release {claim next : ClaimContract} (agentId : StableId) (now : Int)
      (accepted : release claim agentId now = .accepted next) :
      Moves claim next
  | handoff {claim next : ClaimContract} (request : RecordHandoffRequest)
      (now : Int)
      (accepted : recordHandoff claim request now = .accepted next) :
      Moves claim next
  | reconcile {claim : ClaimContract} (now : Int)
      (transition : ClaimReconcileTransition)
      (reconciled : reconcileClaim claim now = some transition) :
      Moves claim transition.updated

variable {next : ClaimContract}

theorem Moves.continues (moves : Moves claim next) : Continues claim next := by
  cases moves with
  | heartbeat agentId now accepted => exact heartbeat_continues accepted
  | release agentId now accepted => exact release_continues accepted
  | handoff request now accepted => exact recordHandoff_continues accepted
  | reconcile now transition reconciled =>
    exact reconcileClaim_continues reconciled

theorem opened_of_moves
    (moves : Relation.ReflTransGen Moves claim next) (isOpen : next.status.value.isOpen = true) :
    claim.status.value.isOpen = true := by
  induction moves with
  | refl => exact isOpen
  | tail _ move ih =>
    exact ih (move.continues.opened isOpen)

/-- The statuses from which nothing moves a claim back. -/
def ClaimStatus.isFinal : ClaimStatus → Bool
  | .released | .expired | .handoffRecorded => true
  | .active | .stale | .handoffRequired => false

theorem closed_of_isFinal {status : ClaimStatus}
    (final : status.isFinal = true) : status.isOpen = false := by
  cases status <;> first | rfl | cases final

/-- A pass settles the claims at its time, reports the expiries of the sweep
and moves only claims of the list; and no sequence of operations brings a
released, expired or handed over claim back. -/
theorem reconciliation_settles_and_never_reopens
    (claims : List ClaimContract)
    (now : Int) :
    (reconcileClaims (applyTransitions claims (reconcileClaims claims now).transitions)
      now).transitions = [] ∧
    ((reconcileClaims claims now).transitions.filter
      ClaimReconcileTransition.isExpiry).map ClaimReconcileTransition.expiry =
        expireStale claims now ∧
    (∀ transition ∈ (reconcileClaims claims now).transitions,
      ∃ claim ∈ claims,
        transition.claimId = claim.id ∧
        Moves claim transition.updated) ∧
    ∀ claim next : ClaimContract,
      claim.status.value.isFinal = true →
      Relation.ReflTransGen Moves claim next →
      next.status.value ≠ .active ∧ next.status.value ≠ .stale := by
  refine ⟨reconcile_settles claims now, expiries_eq_expireStale claims now, ?_, ?_⟩
  · intro transition listed
    obtain ⟨claim, member, reconciled⟩ := mem_transitions_iff.mp listed
    exact ⟨claim, member, reconcileClaim_claimId reconciled, .reconcile now transition reconciled⟩
  · intro claim next final moves
    have closed : next.status.value.isOpen = false := by
      apply Bool.eq_false_iff.mpr
      intro isOpen
      have wasOpen := opened_of_moves moves isOpen
      rw [closed_of_isFinal final] at wasOpen
      cases wasOpen
    constructor
    · intro isActive
      rw [isActive] at closed
      cases closed
    · intro isStale
      rw [isStale] at closed
      cases closed

end ForgeCore.Claims
