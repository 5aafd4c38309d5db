import Mathlib

/-!
# Computations that may lose their process

A computation changes a durable state in atomic steps.  The number of steps
that the process survives is an argument.
-/

namespace ForgeCore.Durable

universe u v

/-- A computation returns, or is cut off and leaves a state. -/
inductive Outcome (state : Type u) (value : Type v) where
  | lost (after : state)
  | finished (after : state) (remaining : Nat) (result : value)

namespace Outcome

variable {state : Type u} {value : Type v}

def after : Outcome state value → state
  | lost after => after
  | finished after _ _ => after

end Outcome

/-- A computation, given the number of durable steps that it survives. -/
def Computation (state : Type u) (value : Type v) :=
  Nat → state → Outcome state value

namespace Computation

variable {state : Type u} {first second : Type v}

protected def pure (result : first) : Computation state first :=
  fun remaining current => .finished current remaining result

protected def bind (head : Computation state first) (tail : first → Computation state second) :
    Computation state second :=
  fun remaining current =>
    match head remaining current with
    | .lost after => .lost after
    | .finished after left result => tail result left after

instance : Monad (Computation state) where
  pure := Computation.pure
  bind := Computation.bind

/-- Read the durable state.  Nothing is written, so nothing can be lost
between a read and what follows it. -/
def inspect (view : state → first) : Computation state first :=
  fun remaining current => .finished current remaining (view current)

def step (change : state → state × first) : Computation state first :=
  fun remaining current =>
    match remaining with
    | 0 => .lost current
    | left + 1 => .finished (change current).1 left (change current).2

/-- The state after a computation that survives `remaining` steps. -/
def leaves (computation : Computation state first) (remaining : Nat) (current : state) : state :=
  (computation remaining current).after

/-- The state after a series of runs, each cut where its number says. -/
def repeated (computation : Computation state first) : List Nat → state → state
  | [], current => current
  | remaining :: later, current => repeated computation later (computation.leaves remaining current)

@[simp] theorem inspect_run (view : state → first) (remaining : Nat) (current : state) :
    inspect view remaining current = .finished current remaining (view current) := rfl

@[simp] theorem step_run_succ (change : state → state × first) (left : Nat) (current : state) :
    step change (left + 1) current = .finished (change current).1 left (change current).2 := rfl

theorem bind_run
    (head : Computation state first)
    (tail : first → Computation state second)
    (remaining : Nat) (current : state) :
    (head >>= tail) remaining current =
      match head remaining current with
      | .lost after => .lost after
      | .finished after left result => tail result left after := rfl

variable {head computation : Computation state first}
    {tail : first → Computation state second} {remaining : Nat}
    {current after : state} {result : first} {post : first → state → Prop}

theorem bind_finished (headRun : head remaining current = .finished after left result) :
    (head >>= tail) remaining current = tail result left after := by
  rw [bind_run, headRun]

theorem bind_lost (headRun : head remaining current = .lost after) :
    (head >>= tail) remaining current = .lost after := by
  rw [bind_run, headRun]

/-- Not cut, the computation takes `steps` durable steps and ends with the
given state and result. -/
def Runs (computation : Computation state first) (current : state) (steps : Nat)
    (after : state) (result : first) : Prop :=
  ∀ left, computation (left + steps) current = .finished after left result

theorem runs_pure : Runs (pure result) current 0 current result := by
  intro left
  rfl

theorem runs_step {change : state → state × first} :
    Runs (step change) current 1 (change current).1 (change current).2 := by
  intro left
  rfl

theorem runs_inspect_bind
    {view : state → first} {result : second}
    (tailRuns : Runs (tail (view current)) current steps after result) :
    Runs (inspect view >>= tail) current steps after result := by
  intro left
  exact tailRuns left

theorem Runs.bind
    {middle : state} {last : second} (headRuns : Runs head current steps middle result)
    (tailRuns : Runs (tail result) middle more after last) :
    Runs (head >>= tail) current (more + steps) after last := by
  intro left
  rw [← Nat.add_assoc, bind_finished (headRuns (left + more))]
  exact tailRuns left

/-- Some number of steps suffices for the computation to end. -/
def Halts (computation : Computation state first) (current : state) : Prop :=
  ∃ steps after result, Runs computation current steps after result

theorem halts_pure : Halts (pure result) current :=
  ⟨0, current, result, runs_pure⟩

theorem halts_step {change : state → state × first} : Halts (step change) current :=
  ⟨1, _, _, runs_step⟩

theorem halts_inspect_bind
    {view : state → first} (tailHalts : Halts (tail (view current)) current) :
    Halts (inspect view >>= tail) current := by
  obtain ⟨steps, after, result, runs⟩ := tailHalts
  exact ⟨steps, after, result, runs_inspect_bind runs⟩

theorem halts_bind
    (headHalts : Halts head current) (tailHalts : ∀ result middle, Halts (tail result) middle) :
    Halts (head >>= tail) current := by
  obtain ⟨steps, middle, result, headRuns⟩ := headHalts
  obtain ⟨more, after, last, tailRuns⟩ := tailHalts result middle
  exact ⟨more + steps, after, last, headRuns.bind tailRuns⟩

/-- Wherever the process is lost, `lost` holds of the state; when it
finishes, `post` holds of the result and the state. -/
def Ensures (computation : Computation state first) (current : state)
    (lost : state → Prop) (post : first → state → Prop) : Prop :=
  ∀ remaining,
    match computation remaining current with
    | .lost after => lost after
    | .finished after _ result => post result after

variable {lost weaker : state → Prop} {current : state}

theorem ensures_pure (holds : post result current) : Ensures (pure result) current lost post := by
  intro remaining
  exact holds

theorem ensures_step {change : state → state × first} (before : lost current)
    (holds : post (change current).2 (change current).1) :
    Ensures (step change) current lost post := by
  intro remaining
  cases remaining with
  | zero => exact before
  | succ left => exact holds

theorem ensures_bind {middle : first → state → Prop} {post : second → state → Prop}
    (headEnsures : Ensures head current lost middle) (tailEnsures : ∀ result after,
      middle result after → Ensures (tail result) after lost post) :
    Ensures (head >>= tail) current lost post := by
  intro remaining
  have headHolds := headEnsures remaining
  change match Computation.bind head tail remaining current with
    | .lost after => lost after
    | .finished after _ result => post result after
  unfold Computation.bind
  cases headRun : head remaining current with
  | lost after =>
    rw [headRun] at headHolds
    exact headHolds
  | finished after left result =>
    rw [headRun] at headHolds
    exact tailEnsures result after headHolds left

theorem ensures_inspect_bind {view : state → first} {post : second → state → Prop}
    (tailEnsures : Ensures (tail (view current)) current lost post) :
    Ensures (inspect view >>= tail) current lost post := by
  intro remaining
  exact tailEnsures remaining

theorem ensures_mono
    {weakerPost : first → state → Prop} (ensures : Ensures computation current lost post)
    (lostWeaker : ∀ after, lost after → weaker after) (postWeaker : ∀ result after,
      post result after → weakerPost result after) :
    Ensures computation current weaker weakerPost := by
  intro remaining
  have holds := ensures remaining
  cases run : computation remaining current with
  | lost after =>
    rw [run] at holds
    exact lostWeaker after holds
  | finished after left result =>
    rw [run] at holds
    exact postWeaker result after holds

theorem ensures_lost_mono
    (ensures : Ensures computation current lost post)
    (lostWeaker : ∀ after, lost after → weaker after) :
    Ensures computation current weaker post :=
  ensures_mono ensures lostWeaker fun _ _ holds => holds

theorem ensures_congr (same : ∀ remaining, computation remaining current = other remaining current)
    (ensures : Ensures other current lost post) : Ensures computation current lost post := by
  intro remaining
  rw [same remaining]
  exact ensures remaining

theorem Ensures.finished (ensures : Ensures computation current lost post)
    (run : computation remaining current = .finished after left result) : post result after := by
  have holds := ensures remaining
  rw [run] at holds
  exact holds

theorem Ensures.runs (ensures : Ensures computation current lost post)
    (runs : Runs computation current steps after result) : post result after :=
  ensures.finished (runs 0)

theorem Ensures.leaves (ensures : Ensures computation current lost post)
    (covered : ∀ result after, post result after → lost after)
    (remaining : Nat) : lost (computation.leaves remaining current) := by
  have holds := ensures remaining
  unfold Computation.leaves
  cases run : computation remaining current with
  | lost after =>
    rw [run] at holds
    exact holds
  | finished after left result =>
    rw [run] at holds
    exact covered result after holds

theorem repeated_preserves {invariant : state → Prop} (preserved : ∀ current, invariant current →
      Ensures computation current invariant (fun _ after => invariant after))
    (cuts : List Nat) (holds : invariant current) :
    invariant (repeated computation cuts current) := by
  induction cuts generalizing current with
  | nil => exact holds
  | cons remaining later ih =>
    exact ih ((preserved current holds).leaves (fun _ _ afterHolds => afterHolds) remaining)

end Computation

end ForgeCore.Durable
