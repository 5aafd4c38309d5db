import Mathlib

/-!
# Backtracking with a budget

A depth-first search that counts the nodes it enters and stops for good when
the budget is used up.  A node is a leaf with its verdict, or it has
alternatives, some of which are refused before they are entered.
-/

namespace ForgeCore.Backtrack

universe u v w

variable {state : Type u} {solution : Type v} {failure : Type w}

/-- A state is finished, or has alternatives to try in order. -/
inductive Node (state : Type u) (solution : Type v) (failure : Type w) where
  | leaf (verdict : Except failure solution)
  | branch (alternatives : List (Except failure state)) (otherwise : failure)

/-- What a search ends with. -/
inductive Outcome (solution : Type v) (failure : Type w) where
  | found (result : solution)
  | failed (reason : failure)
  | exhausted

/-- Enter the alternatives in turn until one has a solution.  What failed last
is reported when none has. -/
def tryEach (enter : state → Nat → Outcome solution failure × Nat) :
    List (Except failure state) → failure → Nat → Outcome solution failure × Nat
  | [], last, used => (.failed last, used)
  | .error reason :: rest, _, used => tryEach enter rest reason used
  | .ok child :: rest, _, used =>
    match enter child used with
    | (.failed reason, usedNow) => tryEach enter rest reason usedNow
    | decided => decided

/-- Explore a node.  The fuel bounds the depth, which is no more than the
budget that is left. -/
def explore (expand : state → Node state solution failure) (limit : Nat) :
    Nat → state → Nat → Outcome solution failure × Nat
  | 0, _, used => (.exhausted, used)
  | fuel + 1, current, used =>
    if limit ≤ used then
      (.exhausted, used)
    else
      match expand current with
      | .leaf (.ok result) => (.found result, used + 1)
      | .leaf (.error reason) => (.failed reason, used + 1)
      | .branch alternatives otherwise =>
        tryEach (explore expand limit fuel) alternatives otherwise (used + 1)

section Search

variable {expand : state → Node state solution failure} {limit : Nat}

variable {enter : state → Nat → Outcome solution failure × Nat}
    {Accepts : solution → Prop} {alternatives : List (Except failure state)}

theorem tryEach_sound
    (sound : ∀ child, Except.ok child ∈ alternatives → ∀ {used after : Nat} {result : solution},
      enter child used = (.found result, after) → Accepts result) :
    ∀ {last : failure} {used after : Nat} {result : solution},
      tryEach enter alternatives last used = (.found result, after) → Accepts result := by
  induction alternatives with
  | nil =>
    intro last used after result found
    cases found
  | cons first rest ih =>
    intro last used after result found
    have restSound {last : failure} {used after : Nat} {result : solution} := @ih
        (fun child member => sound child (List.mem_cons_of_mem _ member)) last used after result
    cases first with
    | error reason => exact restSound found
    | ok child =>
      rw [tryEach] at found
      cases entered : enter child used with
      | mk outcome usedNow =>
        rw [entered] at found
        cases outcome with
        | found other =>
          cases found
          exact sound child List.mem_cons_self entered
        | failed reason => exact restSound found
        | exhausted => cases found

/-- Invariant rule: what children inherit and what makes a leaf acceptable
holds of every solution that is found. -/
theorem explore_sound {Holds : state → Prop} (leaf : ∀ current result, Holds current →
      expand current = .leaf (.ok result) → Accepts result)
    (branch : ∀ current alternatives otherwise, Holds current →
      expand current = .branch alternatives otherwise →
      ∀ child, Except.ok child ∈ alternatives → Holds child) {fuel : Nat} :
    ∀ {current : state}, Holds current → ∀ {used after : Nat} {result : solution},
      explore expand limit fuel current used = (.found result, after) → Accepts result := by
  induction fuel with
  | zero =>
    intro current _ used after result found
    cases found
  | succ fuel ih =>
    intro current holds used after result found
    rw [explore] at found
    split at found
    next => cases found
    next =>
      split at found
      next other expanded =>
        cases found
        exact leaf current result holds expanded
      next => cases found
      next alternatives otherwise expanded =>
        refine tryEach_sound ?_ found
        intro child member
        exact ih (branch current alternatives otherwise holds expanded child member)

/-- Nothing has failed: there is a solution, or the budget is used up. -/
def Outcome.Settles : Outcome solution failure → Prop
  | .found _ => True
  | .failed _ => False
  | .exhausted => True

theorem tryEach_settles
    (member : Except.ok good ∈ alternatives) (settles : ∀ used, (enter good used).1.Settles) :
    ∀ (last : failure) (used : Nat), (tryEach enter alternatives last used).1.Settles := by
  induction alternatives with
  | nil => cases member
  | cons first rest ih =>
    intro last used
    rcases List.mem_cons.mp member with rfl | later
    · rw [tryEach]
      have settled := settles used
      cases entered : enter good used with
      | mk outcome usedNow =>
        rw [entered] at settled
        cases outcome with
        | found result => exact trivial
        | failed reason => exact settled.elim
        | exhausted => exact trivial
    · have restSettles := ih later
      cases first with
      | error reason => exact restSettles reason used
      | ok child =>
        rw [tryEach]
        cases entered : enter child used with
        | mk outcome usedNow =>
          cases outcome with
          | found result => exact trivial
          | failed reason => exact restSettles reason usedNow
          | exhausted => exact trivial

/-- Completeness rule: where every good node has a solution or a good child,
the search from a good node does not fail. -/
theorem explore_settles {Good : state → Prop} (leaf : ∀ current reason, Good current →
      expand current ≠ .leaf (.error reason))
    (branch : ∀ current alternatives otherwise, Good current →
      expand current = .branch alternatives otherwise →
      ∃ child, Except.ok child ∈ alternatives ∧ Good child) (fuel : Nat) :
    ∀ {current : state}, Good current → ∀ used : Nat,
      (explore expand limit fuel current used).1.Settles := by
  induction fuel with
  | zero => exact fun _ _ => trivial
  | succ fuel ih =>
    intro current good used
    rw [explore]
    split
    next => exact trivial
    next =>
      split
      next => exact trivial
      next reason expanded => exact absurd expanded (leaf current reason good)
      next alternatives otherwise expanded =>
        obtain ⟨child, member, childGood⟩ := branch current alternatives otherwise good expanded
        exact tryEach_settles member (ih childGood) otherwise (used + 1)

end Search

end ForgeCore.Backtrack
