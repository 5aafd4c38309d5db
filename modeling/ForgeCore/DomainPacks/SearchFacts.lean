import ForgeCore.DomainPacks.Specification

/-!
# Facts about the search

What the constraints collected so far say about a selection, and how one step
of the search expands it.
-/

namespace ForgeCore.DomainPacks

open List

section Facts

variable {Version Requirement : Type} {semver : Semver Version Requirement}

variable {candidate choice : Admitted Version} {selected : Selection Version}
    {key : String} {state : SearchState Version Requirement} {context : SearchContext Version}

theorem satisfies_iff : satisfies semver candidate constraints = true ↔ ∀ constraint ∈ constraints,
      satisfiesOne semver candidate constraint = true := by
  rw [satisfies, all_eq_true]

variable {constraints : Constraints Requirement}

theorem selectionSatisfies_iff : selectionSatisfies semver constraints selected = true ↔
      ∀ key candidate, selected[key]? = some candidate →
      ∀ constraint ∈ Multimap.values constraints key,
      satisfiesOne semver candidate constraint = true := by
  have each (key : String) (candidate : Admitted Version) :
      (constraints[key]?.all fun requirements =>
          satisfies semver candidate requirements) = true ↔
        ∀ constraint ∈ Multimap.values constraints key,
          satisfiesOne semver candidate constraint = true := by
    cases looked : constraints[key]? with
    | none => simp [Multimap.values, looked]
    | some requirements =>
      rw [Multimap.values_of_getElem? looked, Option.all_some, satisfies_iff]
  rw [selectionSatisfies, all_eq_true]
  constructor
  · intro all key candidate found
    have entry := Std.ExtTreeMap.mem_toList_iff_getElem?_eq_some.mpr found
    exact (each key candidate).mp (all (key, candidate) entry)
  · intro all entry member
    exact (each entry.1 entry.2).mpr (all entry.1 entry.2
          (Std.ExtTreeMap.mem_toList_iff_getElem?_eq_some.mp member))

/-- Every package stands at its own coordinate, and that is valid. -/
structure WellKeyed (selected : Selection Version) : Prop where
  key_eq : ∀ (key : String) (candidate : Admitted Version),
    selected[key]? = some candidate → candidate.key = key
  valid : ∀ (key : String) (candidate : Admitted Version), selected[key]? = some candidate →
      validCoordinate candidate.coordinate = true

theorem WellKeyed.coordinate_eq (keyed : WellKeyed selected)
    (found : selected[coordinateKey pack]? = some candidate) : candidate.coordinate = pack :=
  (key_eq_iff (keyed.valid _ candidate found)).mp
    (keyed.key_eq _ candidate found)

theorem conflictsWithSelected_iff (keyed : WellKeyed selected) :
    conflictsWithSelected semver candidate selected = true ↔
      ∃ (key : String) (other : Admitted Version),
      selected[key]? = some other ∧ Conflicts semver candidate other := by
  simp only [conflictsWithSelected, any_eq_true, Option.any_eq_true]
  constructor
  · rintro ⟨conflict, member, other, found, requirement, parsed, accepted⟩
    exact ⟨_, other, found, conflict, member, (keyed.coordinate_eq found).symm,
        requirement, parsed, accepted⟩
  · rintro ⟨key, other, found, conflict, member, same, requirement, parsed, accepted⟩
    have atKey : selected[coordinateKey conflict.pack]? = some other := by
      rw [same, ← found, ← keyed.key_eq key other found]
      rfl
    exact ⟨conflict, member, other, atKey, requirement, parsed, accepted⟩

theorem selectedConflict_iff (keyed : WellKeyed selected) :
    selectedConflict semver selected = true ↔
      ∃ (key otherKey : String) (candidate other : Admitted Version),
      selected[key]? = some candidate ∧ selected[otherKey]? = some other ∧
      Conflicts semver candidate other := by
  rw [selectedConflict, any_eq_true]
  constructor
  · rintro ⟨entry, member, conflict⟩
    obtain ⟨otherKey, other, found, conflicts⟩ := (conflictsWithSelected_iff keyed).mp conflict
    exact ⟨entry.1, otherKey, entry.2, other,
        Std.ExtTreeMap.mem_toList_iff_getElem?_eq_some.mp member, found, conflicts⟩
  · rintro ⟨key, otherKey, candidate, other, found, otherFound, conflicts⟩
    exact ⟨(key, candidate), Std.ExtTreeMap.mem_toList_iff_getElem?_eq_some.mpr found,
        (conflictsWithSelected_iff keyed).mpr ⟨otherKey, other, otherFound, conflicts⟩⟩

/-- The constraint that a dependency puts on its coordinate. -/
def Demands (semver : Semver Version Requirement) (dependency : DomainPackDependency) (key : String)
    (constraint : Constraint Requirement) : Prop :=
  coordinateKey dependency.pack = key ∧ semver.parseRequirement dependency.versionRequirement =
        some constraint.requirement ∧
      dependency.requiredContentDigest = constraint.requiredContentDigest

theorem dependencyConstraints_spec (computed : dependencyConstraints semver choice = some added) :
    (∀ dependency ∈ choice.dependencies,
      ∃ entry ∈ added, Demands semver dependency entry.1 entry.2) ∧
      ∀ entry ∈ added, ∃ dependency ∈ choice.dependencies,
      Demands semver dependency entry.1 entry.2 := by
  have same := Checked.mapM_eq_some.mp computed
  have demands {dependency : DomainPackDependency}
      {entry : String × Constraint Requirement}
      (parsed : (semver.parseRequirement dependency.versionRequirement).map (fun requirement =>
          ((coordinateKey dependency.pack, ⟨requirement, dependency.requiredContentDigest⟩) :
              String × Constraint Requirement)) = some entry) :
      Demands semver dependency entry.1 entry.2 := by
    obtain ⟨requirement, isRequirement, rfl⟩ := Option.map_eq_some_iff.mp parsed
    exact ⟨rfl, isRequirement, rfl⟩
  constructor
  · intro dependency member
    obtain ⟨entry, isAdded, parsed⟩ := List.mem_map.mp (same ▸ mem_map_of_mem member)
    exact ⟨entry, isAdded, demands parsed.symm⟩
  · intro entry member
    have mapped : some entry ∈ added.map some := mem_map_of_mem member
    rw [← same, mem_map] at mapped
    obtain ⟨dependency, isDependency, parsed⟩ := mapped
    exact ⟨dependency, isDependency, demands parsed⟩

theorem dependencyConstraints_isSome (parses : ∀ dependency ∈ choice.dependencies, ∃ requirement,
      semver.parseRequirement dependency.versionRequirement = some requirement) :
    ∃ added, dependencyConstraints semver choice = some added := by
  apply Checked.mapM_isSome
  intro dependency member
  obtain ⟨requirement, parsed⟩ := parses dependency member
  exact ⟨_, by rw [parsed, Option.map_some]⟩

theorem mem_dependencyKeys :
    target ∈ dependencyKeys selected key ↔ ∃ candidate, selected[key]? = some candidate ∧
      ∃ dependency ∈ candidate.dependencies, coordinateKey dependency.pack = target := by
  rw [dependencyKeys]
  cases found : selected[key]? with
  | none => simp
  | some candidate => simp

theorem choose_eq_ok {next : SearchState Version Requirement} :
    choose semver state key choice = .ok next ↔
      conflictsWithSelected semver choice state.selected = false ∧
      next.selected = state.selected.insert key choice ∧
      selectedConflict semver next.selected = false ∧
      ∃ added, dependencyConstraints semver choice = some added ∧
      next.constraints = Multimap.pushAll state.constraints added ∧
      selectionSatisfies semver next.constraints next.selected = true := by
  obtain ⟨constraints, selected⟩ := next
  rw [choose]
  cases conflicts : conflictsWithSelected semver choice state.selected with
  | true => simp
  | false =>
    cases conflict : selectedConflict semver (state.selected.insert key choice) with
    | true =>
      simp only [reduceCtorEq, true_and, if_true, false_iff, not_and, Bool.false_eq_true, if_false]
      rintro rfl clean
      rw [conflict] at clean
      cases clean
    | false =>
      cases computed : dependencyConstraints semver choice with
      | none => simp
      | some added =>
        simp only [Bool.false_eq_true, if_false, true_and]
        constructor
        · intro chosen
          split at chosen
          next fits =>
            cases chosen
            exact ⟨rfl, conflict, added, rfl, rfl, fits⟩
          next => cases chosen
        · rintro ⟨rfl, -, other, same, rfl, fits⟩
          cases same
          rw [if_pos fits]

theorem checkSelection_eq_ok :
    checkSelection semver selected = .ok result ↔ selectedConflict semver selected = false ∧
      graphHasCycle selected = false ∧ selected = result := by
  rw [checkSelection]
  cases selectedConflict semver selected with
  | true => simp
  | false =>
    cases graphHasCycle selected with
    | true => simp
    | false => simp

theorem expand_eq_leaf (expanded : expand semver context state = .leaf verdict) :
    (∀ key ∈ state.constraints, key ∈ state.selected) ∧
      checkSelection semver state.selected = verdict := by
  rw [expand] at expanded
  split at expanded
  next => cases expanded
  next complete =>
    cases expanded
    refine ⟨?_, rfl⟩
    intro key member
    have decided := List.find?_eq_none.mp complete key (Std.ExtTreeMap.mem_keys.mpr member)
    simpa using decided

/-- The alternatives of a state are the choices for one constrained
coordinate. -/
theorem expand_eq_branch (expanded : expand semver context state = .branch alternatives otherwise) :
    ∃ key ∈ state.constraints, key ∉ state.selected ∧ alternatives =
      (choicesFor semver context state.constraints key).map (choose semver state key) := by
  rw [expand] at expanded
  split at expanded
  next key undecided =>
    cases expanded
    refine ⟨key, Std.ExtTreeMap.mem_keys.mp (mem_of_find?_eq_some undecided), ?_, rfl⟩
    have notContained := find?_some undecided
    rw [Bool.not_eq_true'] at notContained
    rw [← Std.ExtTreeMap.contains_iff_mem, notContained]
    exact Bool.false_ne_true
  next => cases expanded

theorem mem_choicesFor : choice ∈ choicesFor semver context constraints key ↔
      choice ∈ Multimap.values context.candidates key ∧
      ∀ constraint ∈ Multimap.values constraints key,
      satisfiesOne semver choice constraint = true := by
  rw [choicesFor, orderChoices, mem_sortBy, mem_filter, satisfies_iff]

end Facts

end ForgeCore.DomainPacks
