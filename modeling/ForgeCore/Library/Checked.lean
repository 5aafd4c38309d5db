import Mathlib

/-!
# Checked computations

What an `Except` that succeeds went through: binds, loops, requirements, and
checks that collect issues instead of stopping.
-/

namespace ForgeCore.Checked

open List

universe u v

variable {error : Type u} {first second : Type v}

variable {step : Except error first} {next : first → Except error second}
    {result : second} {value : first} {failure : error}

theorem bind_eq_ok :
    (step >>= next) = .ok result ↔ ∃ value, step = .ok value ∧ next value = .ok result := by
  cases step with
  | error failure => simp [bind, Except.bind]
  | ok value => simp [bind, Except.bind]

theorem ok_bind : (Except.ok value >>= next) = next value :=
  rfl

theorem map_eq_ok {next : first → second} :
    step.map next = .ok result ↔ ∃ value, step = .ok value ∧ next value = result := by
  cases step with
  | error failure => simp [Except.map]
  | ok value => simp [Except.map]

theorem mapError_eq_ok {change : error → failures} :
    step.mapError change = .ok value ↔ step = .ok value := by
  cases step with
  | error failure => simp [Except.mapError]
  | ok value => simp [Except.mapError]

variable {item : Type*} {step : item → Except error second}
    {items : List item} {results : List second}

theorem mapM_eq_ok : items.mapM step = .ok results ↔ items.map step = results.map Except.ok := by
  induction items generalizing results with
  | nil =>
    cases results with
    | nil => simp [pure, Except.pure]
    | cons first rest => simp [pure, Except.pure]
  | cons head tail ih =>
    rw [mapM_cons, bind_eq_ok]
    simp only [bind_eq_ok, ih]
    cases results with
    | nil => simp [pure, Except.pure]
    | cons first rest => simp [pure, Except.pure]

theorem eq_filterMap_of_mapM (computed : items.mapM step = .ok results) :
    results = items.filterMap fun item => (step item).toOption := by
  have same := congrArg (List.filterMap Except.toOption) (mapM_eq_ok.mp computed)
  rw [filterMap_map, filterMap_map] at same
  exact List.filterMap_some.symm.trans same.symm

theorem mapM_isOk (each : ∀ item ∈ items, ∃ result, step item = .ok result) :
    ∃ results, items.mapM step = .ok results := by
  induction items with
  | nil => exact ⟨[], rfl⟩
  | cons head tail ih =>
    obtain ⟨first, isFirst⟩ := each head mem_cons_self
    obtain ⟨rest, isRest⟩ := ih fun item member =>
        each item (mem_cons_of_mem _ member)
    rw [mapM_cons, isFirst, isRest]
    exact ⟨first :: rest, rfl⟩

theorem mapM_eq_some {step : item → Option second} :
    items.mapM step = some results ↔ items.map step = results.map some := by
  induction items generalizing results with
  | nil =>
    cases results with
    | nil => simp
    | cons first rest => simp
  | cons head tail ih =>
    rw [mapM_cons, Option.bind_eq_bind, Option.bind_eq_some_iff]
    simp only [Option.bind_eq_bind, Option.bind_eq_some_iff, ih]
    cases results with
    | nil => simp
    | cons first rest => simp

theorem mapM_isSome
    {step : item → Option second} (each : ∀ item ∈ items, ∃ result, step item = some result) :
    ∃ results, items.mapM step = some results := by
  induction items with
  | nil => exact ⟨[], rfl⟩
  | cons head tail ih =>
    obtain ⟨first, isFirst⟩ := each head mem_cons_self
    obtain ⟨rest, isRest⟩ := ih fun item member =>
        each item (mem_cons_of_mem _ member)
    rw [mapM_cons, isFirst, isRest]
    exact ⟨first :: rest, rfl⟩

/-! ## Single checks and checked loops -/

/-- What a validator finds wrong, and in which field. -/
structure Issue (code : Type u) where
  code : code
  path : String
  message : String
deriving DecidableEq, Repr

def issueIf {code : Type u} (condition : Bool) (kind : code) (path message : String) :
    List (Issue code) :=
  if condition then [⟨kind, path, message⟩] else []

def require (condition : Bool) (failure : error) : Except error PUnit :=
  if condition then .ok ⟨⟩ else .error failure

/-- `Option::ok_or`. -/
def found (item : Option first) (failure : error) : Except error first :=
  match item with
  | some value => .ok value
  | none => .error failure

@[simp] theorem require_eq_ok {result : PUnit} :
    require condition failure = .ok result ↔ condition = true := by
  cases condition <;> simp [require]

@[simp] theorem found_eq_ok {item : Option first}
    : found item failure = .ok value ↔ item = some value := by
  cases item <;> simp [found]

theorem foldlM_invariant {state : Type v} {step : state → item → Except error state}
    {invariant : List item → state → Prop} {start final : state} (initial : invariant [] start)
    (preserved : ∀ done current entry next, invariant done current →
      step current entry = .ok next → invariant (done ++ [entry]) next)
    (succeeds : items.foldlM step start = .ok final) : invariant items final := by
  induction items using List.reverseRecOn generalizing final with
  | nil =>
    cases succeeds
    exact initial
  | append_singleton done entry ih =>
    rw [foldlM_append] at succeeds
    obtain ⟨current, before, last⟩ := bind_eq_ok.mp succeeds
    rw [foldlM_cons] at last
    obtain ⟨next, stepped, finished⟩ := bind_eq_ok.mp last
    cases finished
    exact preserved done current entry final (ih before) stepped

end ForgeCore.Checked
