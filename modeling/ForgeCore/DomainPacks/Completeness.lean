import ForgeCore.DomainPacks.Soundness

/-!
# When a resolution succeeds

A solution of the request guides the search: at every state that agrees with
it, the package of the solution is among the choices and is not passed over.
So the search can only stop short of a selection when it runs out of states.
-/

namespace ForgeCore.DomainPacks

section Completeness

variable {Version Requirement : Type} {semver : Semver Version Requirement}
variable {request : DomainPackResolutionRequest}
variable {registry : DomainPackSupplyChainRegistry}
variable {solution : List (Admitted Version)}

variable {package choice : Admitted Version} {pack : DomainPackCoordinate}
    {state : SearchState Version Requirement}

section

variable (solves : Solution semver request registry solution)

include solves

theorem Solution.eq_of_key_eq (firstMember : first ∈ solution)
    (secondMember : second ∈ solution) (same : first.key = second.key) : first = second := by
  have valid := validCoordinate_of_admitted (solves.admitted _ firstMember)
  exact List.inj_on_of_nodup_map solves.distinct firstMember secondMember
      ((key_eq_iff valid).mp same)

/-- The constraints ask only for coordinates of the solution, and its packages
satisfy them. -/
structure Guides (solution : List (Admitted Version)) (semver : Semver Version Requirement)
    (constraints : Constraints Requirement) : Prop where
  covers : ∀ key ∈ constraints, ∃ package ∈ solution, package.key = key
  fits : ∀ (key : String), ∀ constraint ∈ Multimap.values constraints key,
    ∀ package ∈ solution, package.key = key → satisfiesOne semver package constraint = true

theorem Solution.satisfies_of_meets (isTarget : target ∈ solution) (member : package ∈ solution)
    (parsed : semver.parseRequirement versionRequirement = some constraint.requirement)
    (meets : Meets semver target pack versionRequirement constraint.requiredContentDigest)
    (same : package.key = coordinateKey pack) : satisfiesOne semver package constraint = true := by
  have targetKey : target.key = coordinateKey pack := congrArg coordinateKey meets.coordinate
  have isSame := solves.eq_of_key_eq member isTarget (same.trans targetKey.symm)
  rw [isSame]
  exact ((meets_iff parsed).mp meets).2

theorem Solution.guides_roots : Guides solution semver (rootConstraints semver request) := by
  constructor
  · intro key member
    obtain ⟨root, isRoot, rfl⟩ := mem_rootConstraints member
    obtain ⟨package, isChosen, meets⟩ := solves.roots root isRoot
    exact ⟨package, isChosen, congrArg coordinateKey meets.coordinate⟩
  · intro key constraint member package isChosen same
    obtain ⟨root, isRoot, rfl, parsed, pinned⟩ := mem_values_rootConstraints.mp member
    obtain ⟨target, isTarget, meets⟩ := solves.roots root isRoot
    rw [pinned] at meets
    exact solves.satisfies_of_meets isTarget isChosen parsed meets same

theorem Guides.pushAll (guides : Guides solution semver constraints) (isChosen : choice ∈ solution)
    (computed : dependencyConstraints semver choice = some added) :
    Guides solution semver (Multimap.pushAll constraints added) := by
  obtain ⟨-, demanding⟩ := dependencyConstraints_spec computed
  constructor
  · intro key member
    rcases Multimap.mem_pushAll.mp member with old | ⟨entry, isAdded, rfl⟩
    · exact guides.covers key old
    · obtain ⟨dependency, named, demands⟩ := demanding entry isAdded
      obtain ⟨target, isTarget, meets⟩ := solves.dependencies choice isChosen dependency named
      refine ⟨target, isTarget, ?_⟩
      rw [← demands.1]
      exact congrArg coordinateKey meets.coordinate
  · intro key constraint member package isPackage same
    rcases Multimap.mem_values_pushAll.mp member with old | isAdded
    · exact guides.fits key constraint old package isPackage same
    · obtain ⟨dependency, named, isKey, parsed, pinned⟩ := demanding (key, constraint) isAdded
      obtain ⟨target, isTarget, meets⟩ := solves.dependencies choice isChosen dependency named
      rw [pinned] at meets
      exact solves.satisfies_of_meets isTarget isPackage parsed meets (same.trans isKey.symm)

end

/-! ## Selections that agree with a solution -/

/-- Everything that is selected is in the solution, at its own key. -/
def Agrees (solution : List (Admitted Version)) (selected : Selection Version) : Prop :=
  ∀ (key : String) (package : Admitted Version),
    selected[key]? = some package → package ∈ solution ∧ package.key = key

variable {selected : Selection Version}

theorem Agrees.wellKeyed
    (solves : Solution semver request registry solution)
    (agrees : Agrees solution selected) :
    WellKeyed selected where
  key_eq := fun key package found => (agrees key package found).2
  valid := fun key package found =>
    validCoordinate_of_admitted
      (solves.admitted package (agrees key package found).1)

theorem Agrees.insert (agrees : Agrees solution selected) (isChosen : choice ∈ solution) :
    Agrees solution (selected.insert choice.key choice) := by
  intro key package found
  rw [Std.ExtTreeMap.getElem?_insert] at found
  split at found
  next same =>
    cases found
    exact ⟨isChosen, Std.LawfulEqCmp.compare_eq_iff_eq.mp same⟩
  next => exact agrees key package found

section

variable (solves : Solution semver request registry solution) (agrees : Agrees solution selected)

include solves agrees

theorem Agrees.compatible : selectedConflict semver selected = false := by
  rw [Bool.eq_false_iff]
  intro conflict
  obtain ⟨key, otherKey, package, other, found, otherFound, conflicts⟩ :=
    (selectedConflict_iff (agrees.wellKeyed solves)).mp conflict
  exact solves.compatible package (agrees key package found).1 other
      (agrees otherKey other otherFound).1 conflicts

/-- A walk along the keys of the selection is one along the solution. -/
theorem Agrees.dependsOn_of_walk
    (walk : Relation.TransGen (Graph.Edge (dependencyKeys selected)) (coordinateKey pack) key) :
    ∃ target, coordinateKey target = key ∧ Relation.TransGen (DependsOn solution) pack target := by
  have step {source : DomainPackCoordinate} {next : String}
      (edge : Graph.Edge (dependencyKeys selected) (coordinateKey source)
        next) : ∃ target, coordinateKey target = next ∧ DependsOn solution source target := by
    obtain ⟨package, found, dependency, named, rfl⟩ := mem_dependencyKeys.mp edge
    exact ⟨dependency.pack, rfl, package, (agrees _ package found).1,
        (agrees.wellKeyed solves).coordinate_eq found, dependency, named, rfl⟩
  induction walk with
  | single edge =>
    obtain ⟨target, same, depends⟩ := step edge
    exact ⟨target, same, .single depends⟩
  | tail _ edge ih =>
    obtain ⟨middle, rfl, reached⟩ := ih
    obtain ⟨target, same, depends⟩ := step edge
    exact ⟨target, same, reached.tail depends⟩

theorem Agrees.acyclic (closed : ∀ key ∈ selected.keys, ∀ target ∈ dependencyKeys selected key,
      target ∈ selected.keys) : graphHasCycle selected = false := by
  have noCycle : Graph.Acyclic (dependencyKeys selected) selected.keys := by
    intro key member cycle
    obtain ⟨package, found⟩ := mem_keys_iff.mp member
    obtain ⟨isChosen, rfl⟩ := agrees key package found
    have valid := (agrees.wellKeyed solves).valid _ package found
    obtain ⟨target, same, depends⟩ := agrees.dependsOn_of_walk solves cycle
    have isSame := (key_eq_iff valid).mp same.symm
    rw [← isSame] at depends
    exact solves.acyclic _ depends
  rw [graphHasCycle, Option.isNone_eq_false_iff]
  apply Graph.visitAll_isSome
  intro key member
  apply Graph.visit_isSome closed noCycle List.nodup_nil (by simp) member
  · intro earlier onPath
    cases onPath
  · rw [Std.ExtTreeMap.length_keys]
    simp

end

variable {context : SearchContext Version}
variable {initial : Constraints Requirement}

/-- A state of the search that agrees with the solution. -/
structure OnTrack (solution : List (Admitted Version))
    (semver : Semver Version Requirement) (context : SearchContext Version)
    (initial : Constraints Requirement) (state : SearchState Version Requirement) : Prop where
  invariant : SearchInvariant semver context initial state
  guides : Guides solution semver state.constraints
  agrees : Agrees solution state.selected

section

variable (solves : Solution semver request registry solution)

include solves

theorem OnTrack.leaf
    (onTrack : OnTrack solution semver context initial state)
    (complete : ∀ key ∈ state.constraints, key ∈ state.selected) :
    checkSelection semver state.selected = .ok state.selected := by
  have closed : ∀ key ∈ state.selected.keys, ∀ target ∈ dependencyKeys state.selected key,
          target ∈ state.selected.keys := by
    intro key _ target edge
    obtain ⟨package, found, dependency, named, rfl⟩ := mem_dependencyKeys.mp edge
    obtain ⟨_, constraint, ⟨rfl, -⟩, held⟩ :=
      onTrack.invariant.dependencies key package found dependency named
    exact Std.ExtTreeMap.mem_keys.mpr (complete _ (Multimap.mem_of_mem_values held))
  exact checkSelection_eq_ok.mpr ⟨onTrack.agrees.compatible solves,
        onTrack.agrees.acyclic solves closed, rfl⟩

/-- The package of the solution is a choice that keeps the search on
track. -/
theorem OnTrack.choose
    (onTrack : OnTrack solution semver context initial state) (isChosen : package ∈ solution)
    (constrained : package.key ∈ state.constraints) (fresh : package.key ∉ state.selected)
    (offered : package ∈ Multimap.values context.candidates package.key) :
    ∃ next, DomainPacks.choose semver state package.key package = .ok next ∧
      OnTrack solution semver context initial next := by
  have parses (dependency : DomainPackDependency) (named : dependency ∈ package.dependencies) :
      ∃ requirement, semver.parseRequirement dependency.versionRequirement = some requirement := by
    obtain ⟨target, -, meets⟩ := solves.dependencies package isChosen dependency named
    obtain ⟨requirement, parsed, -⟩ := meets.version
    exact ⟨requirement, parsed⟩
  obtain ⟨added, computed⟩ := dependencyConstraints_isSome parses
  have agrees := onTrack.agrees.insert isChosen
  have guides := onTrack.guides.pushAll solves isChosen computed
  have apart : conflictsWithSelected semver package state.selected = false := by
    rw [Bool.eq_false_iff]
    intro conflict
    obtain ⟨key, other, found, conflicts⟩ :=
      (conflictsWithSelected_iff (onTrack.agrees.wellKeyed solves)).mp conflict
    exact solves.compatible package isChosen other (onTrack.agrees key other found).1 conflicts
  have fits : selectionSatisfies semver (Multimap.pushAll state.constraints added)
        (state.selected.insert package.key package) = true := by
    rw [selectionSatisfies_iff]
    intro key other found constraint member
    obtain ⟨isOther, same⟩ := agrees key other found
    exact guides.fits key constraint member other isOther same
  have chosen : DomainPacks.choose semver state package.key package =
        .ok ⟨Multimap.pushAll state.constraints added, state.selected.insert package.key package⟩ :=
    choose_eq_ok.mpr ⟨apart, rfl, agrees.compatible solves, added, computed, rfl, fits⟩
  exact ⟨_, chosen, onTrack.invariant.choose constrained fresh offered chosen, guides, agrees⟩

/-- With a solution at hand the search finds a selection or runs out of
states. -/
theorem search_settles
    (within : versionCountIssues semver request registry = []) :
    (∃ selected, search semver (searchContext semver request registry)
      (rootConstraints semver request) = .ok selected) ∨
      search semver (searchContext semver request registry)
      (rootConstraints semver request) = .error searchExhausted := by
  have leaf (state : SearchState Version Requirement) (failure : SearchFailure)
      (onTrack : OnTrack solution semver (searchContext semver request registry)
        (rootConstraints semver request) state) :
      expand semver (searchContext semver request registry) state ≠ .leaf (.error failure) := by
    intro expanded
    obtain ⟨complete, checked⟩ := expand_eq_leaf expanded
    rw [onTrack.leaf solves complete] at checked
    cases checked
  have branch (state : SearchState Version Requirement) (alternatives :
        List (Except SearchFailure (SearchState Version Requirement))) (otherwise : SearchFailure)
      (onTrack : OnTrack solution semver (searchContext semver request registry)
        (rootConstraints semver request) state) (expanded :
        expand semver (searchContext semver request registry) state =
          .branch alternatives otherwise) : ∃ child, Except.ok child ∈ alternatives ∧
        OnTrack solution semver (searchContext semver request registry)
          (rootConstraints semver request) child := by
    obtain ⟨key, constrained, fresh, rfl⟩ := expand_eq_branch expanded
    obtain ⟨package, isChosen, rfl⟩ := onTrack.guides.covers key constrained
    have offered : package ∈ Multimap.values
          (searchContext semver request registry).candidates package.key :=
      (mem_values_admittedByCoordinate within).mpr ⟨solves.admitted package isChosen, rfl⟩
    obtain ⟨next, chosen, nextOnTrack⟩ := onTrack.choose solves isChosen constrained fresh offered
    have isChoice := mem_choicesFor.mpr ⟨offered, fun constraint member =>
          onTrack.guides.fits _ constraint member package isChosen rfl⟩
    exact ⟨next, List.mem_map.mpr ⟨package, isChoice, chosen⟩, nextOnTrack⟩
  have start : OnTrack solution semver (searchContext semver request registry)
        (rootConstraints semver request) ⟨rootConstraints semver request, ∅⟩ := by
    refine ⟨SearchInvariant.start, solves.guides_roots, ?_⟩
    intro key package found
    simp at found
  have settled : (Backtrack.explore (expand semver (searchContext semver request registry))
        maxDomainPackResolutionSearchStates maxDomainPackResolutionSearchStates
        ⟨rootConstraints semver request, ∅⟩ 0).1.Settles :=
    Backtrack.explore_settles leaf branch _ start 0
  rw [search]
  split
  next selected _ => exact Or.inl ⟨selected, rfl⟩
  next failure failed =>
    rw [failed] at settled
    exact settled.elim
  next => exact Or.inr rfl

end

theorem finishIssues_singleton (reported : DomainPackResolutionIssue) :
    finishIssues [reported] = [reported] := by
  simp [finishIssues, sortBy, maxDomainPackResolutionDiagnostics]

/-- A valid request that has a solution is resolved, unless the search runs
out of states. -/
theorem resolve_complete
    (semver : Semver Version Requirement)
    (request : DomainPackResolutionRequest)
    (registry : DomainPackSupplyChainRegistry)
    (valid : admissionIssues semver request registry = [])
    (namedOnce : ∀ candidate ∈ request.candidates,
      (candidate.input.manifest.dependencies.map (·.pack)).Nodup)
    (solvable : ∃ chosen : List (Admitted Version), Solution semver request registry chosen) :
    (resolveDomainPacks semver request registry).status = .resolved ∨
    (resolveDomainPacks semver request registry).issues =
      [⟨.resourceLimitExceeded, "resolution.search_states",
        "deterministic search exhausted 10000 states"⟩] := by
  obtain ⟨chosen, solution⟩ := solvable
  obtain ⟨-, within⟩ := reportAll_eq_nil.mp valid
  rcases search_settles solution within with ⟨selected, found⟩ | exhausted
  · exact Or.inl (resolved_of_search valid namedOnce found)
  · have outcome : resolveSelection semver request registry = .error searchExhausted := by
      rw [resolveSelection, exhausted]
      rfl
    right
    rw [resolveDomainPacks, valid, outcome]
    exact finishIssues_singleton _

end Completeness

namespace Sample

def chosenApp : Admitted Nat := admittedRelease tokens objects 1 oldApp 0

def chosenLib : Admitted Nat := admittedRelease tokens objects 2 library 1

/-- The older `app` with `lib` solves the request. -/
theorem solution :
    Solution semver (request tokens) (registry tokens objects) [chosenApp, chosenLib] where
  admitted := by
    rw [admittedCandidates_eq tokens_addressed]
    intro package member
    exact List.mem_cons_of_mem _ member
  distinct := by decide +kernel
  roots := by
    intro root member
    rw [List.mem_singleton.mp member]
    exact ⟨chosenApp, by simp, rfl, ⟨(), rfl, rfl, Or.inl rfl⟩, by simp⟩
  dependencies := by
    intro package member dependency named
    simp only [List.mem_cons, List.not_mem_nil, or_false] at member
    rcases member with rfl | rfl
    · rw [List.mem_singleton.mp named]
      exact ⟨chosenLib, by simp, rfl, ⟨(), rfl, rfl, Or.inl rfl⟩, by simp⟩
    · cases named
  compatible := by
    rintro package member other - ⟨conflict, declared, -⟩
    simp only [List.mem_cons, List.not_mem_nil, or_false] at member
    rcases member with rfl | rfl <;> cases declared
  acyclic := by
    -- every dependency leads to `lib`, and `lib` has none
    have toLib {source target : DomainPackCoordinate}
        (edge : DependsOn [chosenApp, chosenLib] source target) : source = app ∧ target = lib := by
      obtain ⟨package, member, rfl, dependency, named, rfl⟩ := edge
      simp only [List.mem_cons, List.not_mem_nil, or_false] at member
      rcases member with rfl | rfl
      · rw [List.mem_singleton.mp named]
        exact ⟨rfl, rfl⟩
      · cases named
    intro coordinate cycle
    obtain ⟨next, first, -⟩ := Relation.TransGen.head'_iff.mp cycle
    obtain ⟨before, -, last⟩ := Relation.TransGen.tail'_iff.mp cycle
    exact absurd ((toLib first).1.symm.trans (toLib last).2) (by decide)

end Sample

/-- The request of the older `app` has a solution, and is resolved. -/
theorem resolve_complete_second_version :
    Solution Sample.semver (Sample.request Sample.tokens)
        (Sample.registry Sample.tokens Sample.objects) [Sample.chosenApp, Sample.chosenLib] ∧
      (Sample.resolution.status = .resolved ∨ Sample.resolution.issues =
        [⟨.resourceLimitExceeded, "resolution.search_states",
          "deterministic search exhausted 10000 states"⟩]) :=
  ⟨Sample.solution, resolve_complete _ _ _ Sample.request_admitted Sample.named_once
    ⟨_, Sample.solution⟩⟩

end ForgeCore.DomainPacks
