import ForgeCore.DomainPacks.Ordering

/-!
# What a resolution selects

The constraints of the search only grow, and every selected package satisfies
all of them at every step.  A search that ends has therefore selected a
package for every coordinate that a root or a selected package asks for, and
nothing else.
-/

namespace ForgeCore.DomainPacks

open List Checked

section Search

variable {Version Requirement : Type} {semver : Semver Version Requirement}
variable {context : SearchContext Version}
variable {initial : Constraints Requirement}

/-- The coordinate is asked for at first, or through selected packages. -/
def Reached (initial : Constraints Requirement)
    (selected : Selection Version) (key : String) : Prop :=
  ∃ root ∈ initial, Relation.ReflTransGen (Graph.Edge (dependencyKeys selected)) root key

theorem dependencyKeys_insert {choice : Admitted Version} (fresh : key ∉ selected)
    (edge : target ∈ dependencyKeys selected source) :
    target ∈ dependencyKeys (selected.insert key choice) source := by
  obtain ⟨candidate, found, named⟩ := mem_dependencyKeys.mp edge
  have different : key ≠ source := by
    rintro rfl
    exact fresh (Std.ExtTreeMap.mem_iff_isSome_getElem?.mpr (by simp [found]))
  refine mem_dependencyKeys.mpr ⟨candidate, ?_, named⟩
  rw [Std.ExtTreeMap.getElem?_insert, if_neg]
  · exact found
  · rwa [Std.LawfulEqCmp.compare_eq_iff_eq]

theorem Reached.insert {selected : Selection Version} {key target : String}
    {choice : Admitted Version} (fresh : key ∉ selected)
    (reached : Reached initial selected target) :
    Reached initial (selected.insert key choice) target := by
  obtain ⟨root, isRoot, walk⟩ := reached
  exact ⟨root, isRoot, Relation.ReflTransGen.mono
        (fun _ _ edge => dependencyKeys_insert fresh edge) _ _ walk⟩

variable (semver context initial)

/-- What holds of every state that the search enters. -/
structure SearchInvariant (state : SearchState Version Requirement) : Prop where
  admitted : ∀ (key : String) (candidate : Admitted Version),
    state.selected[key]? = some candidate → candidate ∈ Multimap.values context.candidates key
  roots : ∀ (key : String) (constraint : Constraint Requirement),
    constraint ∈ Multimap.values initial key → constraint ∈ Multimap.values state.constraints key
  dependencies : ∀ (key : String) (candidate : Admitted Version),
    state.selected[key]? = some candidate → ∀ dependency ∈ candidate.dependencies,
        ∃ (target : String) (constraint : Constraint Requirement),
          Demands semver dependency target constraint ∧
            constraint ∈ Multimap.values state.constraints target
  satisfied : selectionSatisfies semver state.constraints state.selected = true
  constrained : ∀ key ∈ state.selected, key ∈ state.constraints
  reached : ∀ key ∈ state.constraints, Reached initial state.selected key

/-- The selection meets everything that the request asks for. -/
structure Solves (selected : Selection Version) : Prop where
  admitted : ∀ (key : String) (candidate : Admitted Version), selected[key]? = some candidate →
      candidate ∈ Multimap.values context.candidates key
  roots : ∀ (key : String) (constraint : Constraint Requirement),
    constraint ∈ Multimap.values initial key → ∃ candidate, selected[key]? = some candidate ∧
        satisfiesOne semver candidate constraint = true
  dependencies : ∀ (key : String) (candidate : Admitted Version), selected[key]? = some candidate →
      ∀ dependency ∈ candidate.dependencies,
        ∃ (target : String) (constraint : Constraint Requirement)
          (found : Admitted Version),
          Demands semver dependency target constraint ∧ selected[target]? = some found ∧
              satisfiesOne semver found constraint = true
  reached : ∀ key ∈ selected, Reached initial selected key
  compatible : selectedConflict semver selected = false
  acyclic : graphHasCycle selected = false

variable {semver context initial}

/-- A choice for a constrained coordinate keeps the invariant. -/
theorem SearchInvariant.choose {state next : SearchState Version Requirement}
    (invariant : SearchInvariant semver context initial state)
    {key : String} {choice : Admitted Version}
    (constrained : key ∈ state.constraints) (fresh : key ∉ state.selected)
    (offered : choice ∈ Multimap.values context.candidates key)
    (chosen : DomainPacks.choose semver state key choice = .ok next) :
    SearchInvariant semver context initial next := by
  obtain ⟨-, isSelected, -, added, computed, isConstraints, fits⟩ := choose_eq_ok.mp chosen
  obtain ⟨demanded, demanding⟩ := dependencyConstraints_spec computed
  -- Every lookup is the choice at its key, or a lookup of before.
  have lookup {other : String} {candidate : Admitted Version}
      (found : next.selected[other]? = some candidate) : key = other ∧ choice = candidate ∨
        state.selected[other]? = some candidate := by
    rw [isSelected, Std.ExtTreeMap.getElem?_insert] at found
    split at found
    next same =>
      exact Or.inl ⟨Std.LawfulEqCmp.compare_eq_iff_eq.mp same, Option.some.inj found⟩
    next => exact Or.inr found
  have grows {other : String} {constraint : Constraint Requirement}
      (member : constraint ∈ Multimap.values state.constraints other) :
      constraint ∈ Multimap.values next.constraints other := by
    rw [isConstraints]
    exact Multimap.mem_values_pushAll.mpr (Or.inl member)
  have constraints_mono {other : String} (member : other ∈ state.constraints) :
      other ∈ next.constraints := by
    rw [isConstraints]
    exact Multimap.mem_pushAll.mpr (Or.inl member)
  refine ⟨?_, ?_, ?_, fits, ?_, ?_⟩
  · intro other candidate found
    rcases lookup found with ⟨rfl, rfl⟩ | old
    · exact offered
    · exact invariant.admitted other candidate old
  · intro other constraint member
    exact grows (invariant.roots other constraint member)
  · intro other candidate found dependency member
    rcases lookup found with ⟨rfl, rfl⟩ | old
    · obtain ⟨entry, isAdded, demands⟩ := demanded dependency member
      refine ⟨entry.1, entry.2, demands, ?_⟩
      rw [isConstraints]
      exact Multimap.mem_values_pushAll.mpr (Or.inr isAdded)
    · obtain ⟨target, constraint, demands, held⟩ :=
        invariant.dependencies other candidate old dependency member
      exact ⟨target, constraint, demands, grows held⟩
  · intro other member
    rw [isSelected, Std.ExtTreeMap.mem_insert, Std.LawfulEqCmp.compare_eq_iff_eq] at member
    rcases member with rfl | old
    · exact constraints_mono constrained
    · exact constraints_mono (invariant.constrained other old)
  · intro other member
    rw [isConstraints, Multimap.mem_pushAll] at member
    rw [isSelected]
    rcases member with old | ⟨entry, isAdded, rfl⟩
    · exact (invariant.reached other old).insert fresh
    · obtain ⟨dependency, isDependency, demands⟩ := demanding entry isAdded
      obtain ⟨root, isRoot, walk⟩ := (invariant.reached key constrained).insert fresh
      refine ⟨root, isRoot, walk.tail ?_⟩
      exact mem_dependencyKeys.mpr ⟨choice, Std.ExtTreeMap.getElem?_insert_self, dependency,
            isDependency, demands.1⟩

/-- A state in which every constrained coordinate is selected is a
solution. -/
theorem SearchInvariant.solves {state : SearchState Version Requirement}
    (invariant : SearchInvariant semver context initial state)
    (complete : ∀ key ∈ state.constraints, key ∈ state.selected)
    (compatible : selectedConflict semver state.selected = false)
    (acyclic : graphHasCycle state.selected = false) :
    Solves semver context initial state.selected := by
  have satisfied := selectionSatisfies_iff.mp invariant.satisfied
  have selectedFor {key : String} {constraint : Constraint Requirement}
      (member : constraint ∈ Multimap.values state.constraints key) :
      ∃ candidate, state.selected[key]? = some candidate ∧
        satisfiesOne semver candidate constraint = true := by
    have isSelected := complete key (Multimap.mem_of_mem_values member)
    obtain ⟨candidate, found⟩ := Option.isSome_iff_exists.mp
        (Std.ExtTreeMap.mem_iff_isSome_getElem?.mp isSelected)
    exact ⟨candidate, found, satisfied key candidate found constraint member⟩
  refine ⟨invariant.admitted, ?_, ?_, ?_, compatible, acyclic⟩
  · intro key constraint member
    exact selectedFor (invariant.roots key constraint member)
  · intro key candidate found dependency member
    obtain ⟨target, constraint, demands, held⟩ :=
      invariant.dependencies key candidate found dependency member
    obtain ⟨other, otherFound, fits⟩ := selectedFor held
    exact ⟨target, constraint, other, demands, otherFound, fits⟩
  · intro key member
    exact invariant.reached key (invariant.constrained key member)

theorem SearchInvariant.start : SearchInvariant semver context initial ⟨initial, ∅⟩ := by
  refine ⟨?_, fun _ _ member => member, ?_, ?_, ?_, ?_⟩
  · intro key candidate looked
    simp at looked
  · intro key candidate looked
    simp at looked
  · rw [selectionSatisfies_iff]
    intro key candidate looked
    simp at looked
  · intro key member
    simp at member
  · intro key member
    exact ⟨key, member, .refl⟩

/-- Every selection that the search finds is a solution. -/
theorem search_solves
    {selected : Selection Version} (found : search semver context initial = .ok selected) :
    Solves semver context initial selected := by
  have leaf (state : SearchState Version Requirement) (result : Selection Version)
      (invariant : SearchInvariant semver context initial state)
      (expanded : expand semver context state = .leaf (.ok result)) :
      Solves semver context initial result := by
    obtain ⟨complete, checked⟩ := expand_eq_leaf expanded
    obtain ⟨compatible, acyclic, rfl⟩ := checkSelection_eq_ok.mp checked
    exact invariant.solves complete compatible acyclic
  have branch (state : SearchState Version Requirement) (alternatives :
        List (Except SearchFailure (SearchState Version Requirement))) (otherwise : SearchFailure)
      (invariant : SearchInvariant semver context initial state) (expanded :
        expand semver context state = .branch alternatives otherwise)
      (child : SearchState Version Requirement) (member : Except.ok child ∈ alternatives) :
      SearchInvariant semver context initial child := by
    obtain ⟨key, constrained, fresh, rfl⟩ := expand_eq_branch expanded
    obtain ⟨choice, offered, chosen⟩ := List.mem_map.mp member
    exact invariant.choose constrained fresh (mem_choicesFor.mp offered).1 chosen
  rw [search] at found
  split at found
  next result outcome =>
    cases found
    exact Backtrack.explore_sound leaf branch SearchInvariant.start (Prod.ext outcome rfl)
  next => cases found
  next => cases found

end Search

section Coordinates

variable {Version : Type} {selected : Selection Version}
variable {order : List String} {chosen : List (Admitted Version)}

section

variable (listing : Listing selected order chosen)

include listing

theorem Listing.dependsOn_of_walk
    (walk : Relation.ReflTransGen (Graph.Edge (dependencyKeys selected)) (coordinateKey pack) key) :
    ∃ coordinate, coordinateKey coordinate = key ∧
      Relation.ReflTransGen (DependsOn chosen) pack coordinate := by
  induction walk with
  | refl => exact ⟨pack, rfl, .refl⟩
  | tail _ edge ih =>
    obtain ⟨coordinate, rfl, reached⟩ := ih
    obtain ⟨package, found, dependency, named, rfl⟩ := mem_dependencyKeys.mp edge
    have depends : DependsOn chosen coordinate dependency.pack :=
      ⟨package, listing.mem_of_getElem? found,
        listing.keyed.coordinate_eq found, dependency, named, rfl⟩
    exact ⟨dependency.pack, rfl, reached.tail depends⟩

theorem Listing.edge_of_dependsOn
    (depends : DependsOn chosen source target) :
    Graph.Edge (dependencyKeys selected) (coordinateKey source) (coordinateKey target) := by
  obtain ⟨package, member, rfl, dependency, named, rfl⟩ := depends
  exact mem_dependencyKeys.mpr ⟨package, listing.mem_iff.mp member, dependency, named, rfl⟩

theorem Listing.acyclic (noCycle : graphHasCycle selected = false)
    (coordinate : DomainPackCoordinate) :
    ¬ Relation.TransGen (DependsOn chosen) coordinate coordinate := by
  intro cycle
  rw [graphHasCycle, Option.isNone_eq_false_iff, Option.isSome_iff_exists] at noCycle
  obtain ⟨layers, visited⟩ := noCycle
  obtain ⟨layered, covers⟩ := Graph.visitAll_layered visited
  have keyCycle : Relation.TransGen (Graph.Edge (dependencyKeys selected))
        (coordinateKey coordinate) (coordinateKey coordinate) :=
    cycle.lift coordinateKey fun _ _ depends =>
      listing.edge_of_dependsOn depends
  have isKey : coordinateKey coordinate ∈ selected.keys := by
    obtain ⟨next, edge, -⟩ := Relation.TransGen.head'_iff.mp keyCycle
    obtain ⟨package, found, -⟩ := mem_dependencyKeys.mp edge
    exact mem_keys_iff.mpr ⟨package, found⟩
  exact layered.acyclic _ (covers _ isKey) keyCycle

end

end Coordinates

section Resolution

variable {Version Requirement : Type} (semver : Semver Version Requirement)
variable (request : DomainPackResolutionRequest)
variable (registry : DomainPackSupplyChainRegistry)

/-- The chosen packages solve the request, and the projection shows them. -/
structure SoundProjection (projection : DomainPackResolutionProjection)
    (chosen : List (Admitted Version)) : Prop where
  solution : Solution semver request registry chosen
  unrejected : ∀ package ∈ chosen,
    request.candidates[package.candidateIndex]? = some package.candidate ∧
      rejectionCodes semver request registry package.candidateIndex
        package.candidate = []
  reachable : ∀ package ∈ chosen, ∃ root ∈ request.roots,
    Relation.ReflTransGen (DependsOn chosen) root.pack package.coordinate
  selected : projection.selected = chosen.zipIdx.map fun placed => resolvedPackage placed.2 placed.1
  positions : ∀ (index : Nat) (package : DomainPackResolvedPackage),
    projection.selected[index]? = some package → package.deterministicOrder = index
  ordered : ∀ before package after, chosen = before ++ package :: after →
    ∀ dependency ∈ package.dependencies, ∃ target ∈ before, target.coordinate = dependency.pack
  edges : projection.dependencyEdges.Perm (edgesOf chosen)

variable {semver request registry}

theorem mem_values_rootConstraints :
    constraint ∈ Multimap.values (rootConstraints semver request) key ↔
      ∃ root ∈ request.roots, coordinateKey root.pack = key ∧
      semver.parseRequirement root.versionRequirement = some constraint.requirement ∧
      root.requiredContentDigest = constraint.requiredContentDigest := by
  rw [rootConstraints, Multimap.mem_values_pushAll, mem_filterMap]
  constructor
  · rintro (old | ⟨root, member, parsed⟩)
    · simp [Multimap.values] at old
    · obtain ⟨requirement, isRequirement, same⟩ := Option.map_eq_some_iff.mp parsed
      cases same
      exact ⟨root, member, rfl, isRequirement, rfl⟩
  · rintro ⟨root, member, rfl, parsed, pinned⟩
    refine Or.inr ⟨root, member, ?_⟩
    rw [parsed, pinned]
    rfl

theorem mem_rootConstraints (member : key ∈ rootConstraints semver request) :
    ∃ root ∈ request.roots, coordinateKey root.pack = key := by
  rw [rootConstraints, Multimap.mem_pushAll] at member
  rcases member with old | ⟨entry, isAdded, rfl⟩
  · simp at old
  · obtain ⟨root, isRoot, parsed⟩ := List.mem_filterMap.mp isAdded
    obtain ⟨requirement, -, rfl⟩ := Option.map_eq_some_iff.mp parsed
    exact ⟨root, isRoot, rfl⟩

/-- A resolved request passed every check on the way. -/
theorem resolved_spec (resolved : (resolveDomainPacks semver request registry).status = .resolved) :
    validateRequestAndRegistry semver request registry = [] ∧
      versionCountIssues semver request registry = [] ∧ ∃ selected edges order,
      search semver (searchContext semver request registry)
      (rootConstraints semver request) = .ok selected ∧
      topologicalEdgesAndOrder selected = .ok (edges, order) ∧
      (resolveDomainPacks semver request registry).selected = buildSelected selected order ∧
      (resolveDomainPacks semver request registry).dependencyEdges = edges := by
  rw [resolveDomainPacks] at resolved ⊢
  cases clean : (admissionIssues semver request registry).isEmpty with
  | false => simp [clean, blockedProjection] at resolved
  | true =>
    obtain ⟨valid, within⟩ := reportAll_eq_nil.mp (List.isEmpty_iff.mp clean)
    refine ⟨valid, within, ?_⟩
    simp only [clean, if_true] at resolved ⊢
    cases outcome : resolveSelection semver request registry with
    | error failure => simp [outcome, blockedProjection] at resolved
    | ok result =>
      obtain ⟨selected, edges, order⟩ := result
      rw [resolveSelection, Checked.bind_eq_ok] at outcome
      obtain ⟨found, searched, outcome⟩ := outcome
      obtain ⟨ordered, sorted, same⟩ := Checked.bind_eq_ok.mp outcome
      cases same
      exact ⟨selected, edges, order, searched, sorted, rfl, rfl⟩

theorem searchContext_wellKeyed (within : versionCountIssues semver request registry = [])
    (solves : Solves semver (searchContext semver request registry)
      (rootConstraints semver request) selected) :
    WellKeyed selected ∧ ∀ (key : String) (package : Admitted Version),
      selected[key]? = some package → package ∈ admittedCandidates semver request registry := by
  have admitted (key : String) (package : Admitted Version)
      (found : selected[key]? = some package) := (mem_values_admittedByCoordinate within).mp
      (solves.admitted key package found)
  exact ⟨⟨fun key package found => (admitted key package found).2, fun key package found =>
          validCoordinate_of_admitted (admitted key package found).1⟩,
      fun key package found => (admitted key package found).1⟩

/-- The order accepts every selection that the search finds, while no package
names a coordinate twice. -/
theorem topologicalEdgesAndOrder_of_solves
    (within : versionCountIssues semver request registry = [])
    (namedOnce : ∀ candidate ∈ request.candidates,
      (candidate.input.manifest.dependencies.map (·.pack)).Nodup)
    (solves : Solves semver (searchContext semver request registry)
      (rootConstraints semver request) selected) :
    ∃ edges order, topologicalEdgesAndOrder selected = .ok (edges, order) := by
  obtain ⟨keyed, admitted⟩ := searchContext_wellKeyed within solves
  have target (key : String) (package : Admitted Version) (found : selected[key]? = some package)
      (dependency : DomainPackDependency) (named : dependency ∈ package.dependencies) :
      ∃ other, selected[coordinateKey dependency.pack]? = some other := by
    obtain ⟨_, _, other, ⟨rfl, -⟩, otherFound, -⟩ :=
      solves.dependencies key package found dependency named
    exact ⟨other, otherFound⟩
  have closed : ∀ key ∈ selected.keys, ∀ next ∈ dependencyKeys selected key,
        next ∈ selected.keys := by
    intro key _ next edge
    obtain ⟨package, found, dependency, named, rfl⟩ := mem_dependencyKeys.mp edge
    exact mem_keys_iff.mpr (target key package found dependency named)
  have distinct : ∀ key ∈ selected.keys, (dependencyKeys selected key).Nodup := by
    intro key member
    obtain ⟨package, found⟩ := mem_keys_iff.mp member
    obtain ⟨-, isCandidate, -⟩ := mem_admittedCandidates.mp (admitted key package found)
    have once := namedOnce _ (List.mem_of_getElem? isCandidate)
    have keys : dependencyKeys selected key =
          (package.dependencies.map (·.pack)).map coordinateKey := by
      rw [dependencyKeys, found, map_map]
      rfl
    rw [keys]
    refine once.map_on ?_
    intro first firstNamed second _ same
    obtain ⟨dependency, named, rfl⟩ := List.mem_map.mp firstNamed
    obtain ⟨other, otherFound⟩ := target key package found dependency named
    have valid := keyed.valid _ other otherFound
    rw [keyed.coordinate_eq otherFound] at valid
    exact coordinateKey_inj valid same
  obtain ⟨edges, computed⟩ := dependencyEdges_isOk fun key package found dependency named =>
      mem_keys_iff.mpr (target key package found dependency named)
  exact ⟨_, _, topologicalEdgesAndOrder_eq_ok.mpr
        ⟨length_selectionOrder closed distinct solves.acyclic, rfl, edges, computed, rfl⟩⟩

theorem resolved_of_search (valid : admissionIssues semver request registry = [])
    (namedOnce : ∀ candidate ∈ request.candidates,
      (candidate.input.manifest.dependencies.map (·.pack)).Nodup)
    (found : search semver (searchContext semver request registry)
      (rootConstraints semver request) = .ok selected) :
    (resolveDomainPacks semver request registry).status = .resolved := by
  obtain ⟨-, within⟩ := reportAll_eq_nil.mp valid
  obtain ⟨edges, order, ordered⟩ :=
    topologicalEdgesAndOrder_of_solves within namedOnce (search_solves found)
  have outcome : resolveSelection semver request registry = .ok (selected, edges, order) := by
    rw [resolveSelection, found, Checked.ok_bind, ordered]
    rfl
  rw [resolveDomainPacks, valid, outcome]
  rfl

/-- A selection that solves the search solves the request. -/
theorem Listing.solution (listing : Listing selected order chosen)
    (valid : validateRequestAndRegistry semver request registry = [])
    (within : versionCountIssues semver request registry = [])
    (solves : Solves semver (searchContext semver request registry)
      (rootConstraints semver request) selected) : Solution semver request registry chosen := by
  obtain ⟨keyed, admitted⟩ := searchContext_wellKeyed within solves
  refine ⟨?_, listing.distinct, ?_, ?_, ?_, listing.acyclic solves.acyclic⟩
  · intro package member
    exact admitted _ package (listing.mem_iff.mp member)
  · intro root member
    obtain ⟨-, requirement, parsed⟩ := root_valid_of_no_issue semver valid member
    obtain ⟨package, found, fits⟩ := solves.roots (coordinateKey root.pack)
        ⟨requirement, root.requiredContentDigest⟩
        (mem_values_rootConstraints.mpr ⟨root, member, rfl, parsed, rfl⟩)
    exact ⟨package, listing.mem_of_getElem? found,
        (meets_iff parsed).mpr ⟨keyed.coordinate_eq found, fits⟩⟩
  · intro package member dependency named
    obtain ⟨target, ⟨requirement, pinned⟩, package', ⟨rfl, parsed, same⟩, found, fits⟩ :=
      solves.dependencies _ package (listing.mem_iff.mp member) dependency named
    refine ⟨package', listing.mem_of_getElem? found,
        (meets_iff parsed).mpr ⟨keyed.coordinate_eq found, ?_⟩⟩
    rw [same]
    exact fits
  · intro package member other otherMember conflicts
    have conflict := (selectedConflict_iff keyed).mpr
        ⟨_, _, package, other, listing.mem_iff.mp member, listing.mem_iff.mp otherMember, conflicts⟩
    rw [solves.compatible] at conflict
    cases conflict

/-- No more packages are chosen than candidates are looked at. -/
theorem Solution.length_le (solution : Solution semver request registry chosen) :
    chosen.length ≤ maxDomainPackResolutionCandidates := by
  have indices : (chosen.map Admitted.candidateIndex).Nodup := by
    let coordinateAt (index : Nat) : Option DomainPackCoordinate :=
      request.candidates[index]?.map fun candidate =>
        (candidateIdentity candidate).coordinate
    refine Nodup.of_map coordinateAt ?_
    have same : (chosen.map Admitted.candidateIndex).map coordinateAt =
          (chosen.map Admitted.coordinate).map some := by
      rw [map_map, map_map]
      apply map_congr_left
      intro package member
      obtain ⟨-, found, -⟩ := mem_admittedCandidates.mp (solution.admitted package member)
      simp only [Function.comp_apply, coordinateAt, found, Option.map_some]
      rfl
    rw [same]
    exact solution.distinct.map (Option.some_injective _)
  have inRange : chosen.map Admitted.candidateIndex ⊆
        List.range maxDomainPackResolutionCandidates := by
    intro index member
    obtain ⟨package, isChosen, rfl⟩ := List.mem_map.mp member
    obtain ⟨small, -⟩ := mem_admittedCandidates.mp (solution.admitted package isChosen)
    exact List.mem_range.mpr small
  have short := (subperm_of_subset indices inRange).length_le
  rwa [length_map, length_range] at short

/-- Every resolved request has sound contents: what is selected solves the
request, is reachable from its roots and stands behind its dependencies. -/
theorem resolve_sound
    (semver : Semver Version Requirement)
    (request : DomainPackResolutionRequest)
    (registry : DomainPackSupplyChainRegistry)
    (resolved : (resolveDomainPacks semver request registry).status = .resolved) :
    ∃ chosen : List (Admitted Version),
      SoundProjection semver request registry
        (resolveDomainPacks semver request registry) chosen := by
  obtain ⟨valid, within, selected, edges, order, searched, sorted, isSelected,
    isEdges⟩ := resolved_spec resolved
  have solves := search_solves searched
  obtain ⟨keyed, -⟩ := searchContext_wellKeyed within solves
  obtain ⟨whole, rfl, unsorted, computed, rfl⟩ := topologicalEdgesAndOrder_eq_ok.mp sorted
  obtain ⟨chosen, listing⟩ := exists_listing keyed (selectionOrder_perm whole)
  have solution := listing.solution valid within solves
  have shown := isSelected.trans listing.buildSelected_eq
  obtain ⟨left, counted, -⟩ := selectionOrder_counted selected
  refine ⟨chosen, solution, ?_, ?_, shown, ?_, ?_, ?_⟩
  · intro package member
    have admitted := solution.admitted package member
    obtain ⟨-, found, -⟩ := mem_admittedCandidates.mp admitted
    exact ⟨found, rejectionCodes_eq_nil within admitted⟩
  · intro package member
    have isKey : package.key ∈ selected := Std.ExtTreeMap.mem_keys.mp
        (mem_keys_iff.mpr ⟨package, listing.mem_iff.mp member⟩)
    obtain ⟨key, isRoot, walk⟩ := solves.reached _ isKey
    obtain ⟨root, rootMember, rfl⟩ := mem_rootConstraints isRoot
    obtain ⟨coordinate, same, reached⟩ := listing.dependsOn_of_walk walk
    have isCoordinate := (key_eq_iff (listing.valid member)).mp same.symm
    exact ⟨root, rootMember, isCoordinate ▸ reached⟩
  · intro index package found
    rw [shown, getElem?_map, getElem?_zipIdx, Option.map_map, Option.map_eq_some_iff] at found
    obtain ⟨candidate, looked, rfl⟩ := found
    have small := (List.getElem?_eq_some_iff.mp looked).1
    have bound := solution.length_le
    have limit : maxDomainPackResolutionCandidates ≤ 4294967295 := by decide
    simp only [Function.comp_apply, resolvedPackage]
    omega
  · intro before package after split dependency named
    exact listing.dependency_before counted.respects split named
  · rw [isEdges]
    exact (perm_insertionSort _ unsorted).trans (listing.edges_perm computed)

end Resolution

/-! ## Two packages, a conflict and a second version

The newest `app` depends on `lib` and declares a conflict with it, so the
search has to come back to the older one. -/

namespace Sample

/-- Two releases, and the requirement that every release matches. -/
def semver : Semver Nat Unit where
  parseVersion := fun text =>
    if text = "0.1.0" then some 0 else if text = "1.0.0" then some 1 else none
  versionText := fun version => if version = 0 then "0.1.0" else "1.0.0"
  compareVersion := compare
  prerelease := fun _ => ""
  parseRequirement := fun text => if text = "*" then some () else none
  accepts := fun _ _ => true
  comparatorPrereleases := fun _ => []
  packSchema := 0
  parse_packSchema := rfl

def app : DomainPackCoordinate := ⟨⟨"acme"⟩, ⟨"app"⟩⟩

def lib : DomainPackCoordinate := ⟨⟨"acme"⟩, ⟨"lib"⟩⟩

/-- What one publication is about; its digests start behind the given one. -/
structure Release where
  pack : DomainPackCoordinate
  version : String
  dependencies : List DomainPackDependency
  conflicts : List DomainPackConflict
  start : Nat

def newApp : Release := ⟨app, "1.0.0", [⟨lib, "*", none⟩], [⟨lib, "*"⟩], 1⟩

def oldApp : Release := ⟨app, "0.1.0", [⟨lib, "*", none⟩], [], 5⟩

def library : Release := ⟨lib, "1.0.0", [], [], 9⟩

def releases : List Release := [newApp, oldApp, library]

def Release.identity (release : Release) : DomainPackIdentity :=
  ⟨release.pack.publisher, release.pack.name, ⟨"acme"⟩, release.version⟩

variable (digest : Nat → String) (objectPath : Nat → RepoPath) (release : Release)

def license : DomainPackArtifactBinding := ⟨⟨"license"⟩, digest 0, digest 0⟩

def package : DomainPackPackageBinding :=
  ⟨⟨"package"⟩, digest release.start,
    ⟨⟨"manifest"⟩, digest (release.start + 1), digest (release.start + 1)⟩,
    ⟨⟨"content"⟩, digest (release.start + 2), digest (release.start + 2)⟩, license digest, []⟩

def candidate : DomainPackResolutionCandidate where
  input :=
    { manifestBinding := (package digest release).manifest
      manifestSchemaVersion := "0.1"
      manifest := ⟨release.identity, ⟨"*", "*"⟩, license digest, (package digest release).content,
        release.dependencies, release.conflicts⟩
      contentSchemaVersion := "0.1"
      contentPack := ⟨release.pack.publisher, release.pack.name, release.version⟩ }
  package := package digest release
  registryRecordDigest := some (digest (release.start + 3))
  canonicalDigest := digest 0

def record : DomainPackRegistryPackageRecord where
  identity := release.identity
  packageDigest := digest release.start
  manifestDigest := digest (release.start + 1)
  contentDigest := digest (release.start + 2)
  licenseDigest := digest 0
  fixtureDigests := []
  artifacts := ⟨⟨.manifest, (package digest release).manifest, objectPath (release.start + 1)⟩,
      ⟨.content, ⟨⟨"content"⟩, digest (release.start + 2), digest (release.start + 2)⟩,
        objectPath (release.start + 2)⟩,
      ⟨.license, license digest, objectPath 0⟩, []⟩
  namespaceGrantId := ⟨"grant"⟩
  publisherCredentialId := ⟨"key"⟩
  recordDigest := digest (release.start + 3)

def registry : DomainPackSupplyChainRegistry where
  schemaVersion := "0.5"
  registryId := ⟨"registry"⟩
  audience := ⟨"forge"⟩
  issuedAtUnix := 1
  expiresAtUnix := 2
  publisherCredentials := [⟨⟨"key"⟩, ⟨"acme"⟩, .active, 0, 9⟩]
  namespaceGrants := [⟨⟨"grant"⟩, ⟨"acme"⟩, ⟨"acme"⟩, 0, 9⟩]
  mirrors := []
  packages := releases.map (record digest objectPath)
  revocations := []
  snapshotDigest := digest 0

def request : DomainPackResolutionRequest where
  schemaVersion := "0.5"
  requestId := ⟨"request"⟩
  projectId := ⟨"project"⟩
  forgeCoreVersion := "1.0.0"
  coreBundleDigest := digest 0
  corePolicySetDigest := digest 0
  requirementsSchemaVersion := "0.1"
  requirementsProjectId := ⟨"project"⟩
  roots := [⟨app, "*", none, .installIntent⟩]
  currentLock := none
  registrySnapshotDigest := digest 0
  candidates := releases.map (candidate digest)

/-- The digests are different tokens, and every object stands at the path of
its digest. -/
structure Addressed : Prop where
  valid : ∀ index, validDigest (digest index) = true
  path : ∀ index field,
    validateContentAddressedObjectPath (objectPath index) (digest index) field = .ok ()
  digestInj : ∀ first < 16, ∀ second < 16, digest first = digest second → first = second
  pathInj : ∀ first < 16, ∀ second < 16, objectPath first = objectPath second → first = second

variable {digest objectPath release}

theorem releases_small : ∀ release ∈ releases, 0 < release.start ∧ release.start < 10 := by
  decide

theorem validateRepoPath_ok (member : value ∈ ["manifest", "content", "license"]) (field : String) :
    validateRepoPath ⟨value⟩ field = .ok () := by
  rw [validateRepoPath, refuseIf]
  refine if_neg ?_
  revert value
  decide +kernel

theorem record_ok (addressed : Addressed digest objectPath) (member : release ∈ releases)
    (index : Nat) : validatePackageRecordAt index (record digest objectPath release) = .ok () := by
  have valid (index : Nat) : Digest.isSha256Token (digest index) = true := addressed.valid index
  obtain ⟨positive, small⟩ := releases_small release member
  have apart {first second : Nat} (firstSmall : first < 16) (secondSmall : second < 16)
      (different : first ≠ second) : objectPath first ≠ objectPath second := fun same =>
    different (addressed.pathInj first firstSmall second secondSmall same)
  have first : objectPath (release.start + 1) ≠ objectPath (release.start + 2) :=
    apart (by omega) (by omega) (by omega)
  have second : objectPath (release.start + 1) ≠ objectPath 0 :=
    apart (by omega) (by omega) (by omega)
  have third : objectPath (release.start + 2) ≠ objectPath 0 :=
    apart (by omega) (by omega) (by omega)
  simp [refuseIf, checkEach, validatePackageRecordAt, requireDigest, validateArtifactSet,
    packageDescriptors, validateDescriptorAt, validateArtifactDescriptor, record, package, license,
    maxDomainPackRemoteArtifactsPerPackage, valid, addressed.path, validateRepoPath_ok, first,
    second, third, Checked.ok_bind]

theorem metadata_ok (addressed : Addressed digest objectPath) :
    validateRemoteAcquisitionMetadata (registry digest objectPath) = .ok () := by
  have first := record_ok addressed (show newApp ∈ releases by simp [releases]) 0
  have second := record_ok addressed (show oldApp ∈ releases by simp [releases]) 1
  have third := record_ok addressed (show library ∈ releases by simp [releases]) 2
  simp [validateRemoteAcquisitionMetadata, registry, refuseIf, checkEach, releases,
    maxDomainPackRemoteMirrors, first, second, third, Checked.ok_bind]

theorem request_valid (addressed : Addressed digest objectPath) :
    validateRequestAndRegistry semver (request digest) (registry digest objectPath) = [] := by
  have ids : validateIds (request digest) (registry digest objectPath) = [] := by
    have valid : ∀ value ∈ ["request", "project", "registry", "forge"], validId value = true := by
      decide +kernel
    simp [validateIds, request, registry, issueIf, valid]
  have roots : validateRoots semver (request digest) = [] := by
    have coordinate : validCoordinate app = true := by
      decide +kernel
    simp [validateRoots, validateRootAt, request, issueIf, coordinate, releases,
      resourceIssueIf, semver, maxDomainPackResolutionRoots, maxDomainPackResolutionCandidates]
  have rest : validateSchemas (request digest) (registry digest objectPath) = [] ∧
        validateRequirements semver (request digest) = [] ∧
        validateDigests (request digest) (registry digest objectPath) = [] ∧
        validateRegistry (request digest) (registry digest objectPath) = [] ∧
        validateCurrentLock (request digest) = [] := by
    have metadata := metadata_ok addressed
    simp only [registry] at metadata
    simp [validateSchemas, validateRequirements, validateDigests,
      validateRegistry, validateCurrentLock, request, registry, issueIf,
      semver, addressed.valid, metadata, domainPackSchemaVersion,
      domainPackLifecycleSchemaVersion, Except.isOk, Except.toBool]
  obtain ⟨schemas, requirements, digests, registryValid, lock⟩ := rest
  rw [validateRequestAndRegistry, schemas, ids, requirements, digests, registryValid, roots, lock]
  rfl

theorem releases_named : (releases.map fun release => identityKey release.identity).Nodup := by
  decide +kernel

/-- Every version is published in one variant. -/
theorem not_equivocated :
    equivocatedCoordinates (request digest) (registry digest objectPath) = [] := by
  rw [equivocatedCoordinates, filterMap_eq_nil_iff]
  rintro ⟨key, variants⟩ member
  refine if_neg ?_
  have looked := Multimap.values_of_getElem?
    (Std.ExtTreeMap.mem_toList_iff_getElem?_eq_some.mp member)
  have published {variant : String} (inside : variant ∈ variants) : ∃ release ∈ releases,
      identityKey release.identity = key ∧
        variant = recordEquivocationKey (record digest objectPath release) := by
    rw [← looked, Multimap.mem_values_pushAll] at inside
    rcases inside with old | added
    · simp [Multimap.values] at old
    · rw [registry, request, map_map, map_map, mem_append] at added
      rcases added with isRecord | isCandidate
      · obtain ⟨release, isRelease, same⟩ := List.mem_map.mp isRecord
        cases same
        exact ⟨release, isRelease, rfl, rfl⟩
      · obtain ⟨release, isRelease, same⟩ := List.mem_map.mp isCandidate
        cases same
        exact ⟨release, isRelease, rfl, rfl⟩
  have alike : ∀ first ∈ variants.dedup, ∀ second ∈ variants.dedup, first = second := by
    intro first firstIn second secondIn
    obtain ⟨left, leftIn, leftKey, rfl⟩ := published (mem_dedup.mp firstIn)
    obtain ⟨right, rightIn, rightKey, rfl⟩ := published (mem_dedup.mp secondIn)
    rw [inj_on_of_nodup_map releases_named leftIn rightIn (leftKey.trans rightKey.symm)]
  cases listed : variants.dedup with
  | nil => simp
  | cons first rest =>
    have single : variants.dedup ⊆ [first] := fun other inside =>
      List.mem_singleton.mpr (alike other inside first (by simp [listed]))
    have short := (subperm_of_subset (nodup_dedup _) single).length_le
    rw [listed] at short
    simpa using short

theorem recordOf_candidate (addressed : Addressed digest objectPath) (member : release ∈ releases) :
    recordOf (registry digest objectPath) (candidate digest release) =
      some (record digest objectPath release) := by
  apply Std.ExtTreeMap.getElem?_ofList_of_mem (k := digest (release.start + 3))
  · exact Std.ReflCmp.compare_self
  · rw [registry, map_map, pairwise_map]
    have starts : releases.Pairwise fun first second => first.start ≠ second.start := by decide
    apply Pairwise.imp_of_mem _ starts
    intro first second firstIn secondIn apart same
    have firstSmall := releases_small first firstIn
    have secondSmall := releases_small second secondIn
    have := addressed.digestInj _ (by omega) _ (by omega) (Std.LawfulEqCmp.eq_of_compare same)
    omega
  · exact List.mem_map.mpr ⟨_, List.mem_map.mpr ⟨release, member, rfl⟩, rfl⟩

theorem candidate_clean (addressed : Addressed digest objectPath) (member : release ∈ releases) :
    candidateReasons semver (request digest) (registry digest objectPath)
      (candidate digest release) = [] := by
  have valid : ∀ release ∈ releases, validIdentity release.identity = true := by
    decide +kernel
  have granted : namespaceIsGranted "acme" "acme" = true := by decide +kernel
  rw [candidateReasons, not_equivocated, recordOf_candidate addressed member]
  have identityValid := valid release member
  fin_cases member
  all_goals
    simp [validateCandidateShape, validateManifest, validatePackage,
      registryReasons, codeIf, candidate, package, license,
      semver, request, registry, record, recordMatchesCandidate, newApp, oldApp, library,
      candidateIdentity, addressed.valid, validBinding, granted, grantCovers,
      credentialCovers, issuedWithin, Release.identity, domainPackSchemaVersion,
      maxDomainPackResolutionDependenciesPerPack] at identityValid ⊢
    exact ⟨identityValid, rfl⟩

def admittedRelease (digest : Nat → String) (objectPath : Nat → RepoPath) (index : Nat)
    (release : Release) (version : Nat) : Admitted Nat :=
  ⟨index, candidate digest release, record digest objectPath release, version⟩

theorem admittedCandidates_eq (addressed : Addressed digest objectPath) :
    admittedCandidates semver (request digest) (registry digest objectPath) =
      [admittedRelease digest objectPath 0 newApp 1, admittedRelease digest objectPath 1 oldApp 0,
        admittedRelease digest objectPath 2 library 1] := by
  have admits (index : Nat) {release : Release} (member : release ∈ releases) :
      admitCandidate semver (request digest) (registry digest objectPath) index
          (candidate digest release) =
        (semver.parseVersion release.version).map
          (admittedRelease digest objectPath index release) := by
    have version : (candidateIdentity (candidate digest release)).version = release.version := rfl
    rw [admitCandidate, candidate_clean addressed member, recordOf_candidate addressed member,
      version]
    cases semver.parseVersion release.version <;> rfl
  have considered : consideredCandidates (request digest) =
      [(candidate digest newApp, 0), (candidate digest oldApp, 1),
        (candidate digest library, 2)] := rfl
  rw [admittedCandidates, considered, filterMap_cons, filterMap_cons, filterMap_cons,
    admits 0 (by simp [releases]), admits 1 (by simp [releases]), admits 2 (by simp [releases])]
  rfl

def digits (index : Nat) : List UInt8 :=
  List.replicate 32 (UInt8.ofNat index)

def tokens (index : Nat) : String := Digest.formatSha256 (digits index)

def objects (index : Nat) : RepoPath := contentAddress (digits index)

theorem tokens_addressed : Addressed tokens objects := by
  have apart : ∀ first < 16, ∀ second < 16, digits first = digits second → first = second := by
    decide +kernel
  refine ⟨fun index => Digest.isSha256Token_formatSha256 length_replicate,
    fun index field => validateContentAddressedObjectPath_contentAddress length_replicate field,
    ?_, ?_⟩
  · intro first firstSmall second secondSmall same
    exact apart first firstSmall second secondSmall (Digest.formatSha256_inj same)
  · intro first firstSmall second secondSmall same
    exact apart first firstSmall second secondSmall (Digest.hexText_inj (contentAddress_inj same))

theorem request_admitted :
    admissionIssues semver (request tokens) (registry tokens objects) = [] := by
  rw [admissionIssues, request_valid tokens_addressed, versionCountIssues,
    sortedByCoordinate, admittedCandidates_eq tokens_addressed]
  decide +kernel

theorem named_once : ∀ candidate ∈ (request tokens).candidates,
    (candidate.input.manifest.dependencies.map (·.pack)).Nodup := by
  intro other member
  obtain ⟨release, isRelease, rfl⟩ := List.mem_map.mp member
  fin_cases isRelease <;> simp [candidate, newApp, oldApp, library]

/-- The search, and the candidates that it selects. -/
def searched : Except SearchFailure (Selection Nat) :=
  search semver (searchContext semver (request tokens) (registry tokens objects))
    (rootConstraints semver (request tokens))

def resolution : DomainPackResolutionProjection :=
  resolveDomainPacks semver (request tokens) (registry tokens objects)

end Sample

/-- The older `app` and `lib` are selected. -/
theorem resolve_sound_second_version :
    (Sample.searched.toOption.map fun selected =>
        selected.toList.map fun entry => (entry.1, entry.2.candidateIndex)) =
        some [("acme::app", 1), ("acme::lib", 2)] ∧
      Sample.resolution.status = .resolved ∧
      ∃ chosen : List (Admitted Nat), SoundProjection Sample.semver (Sample.request Sample.tokens)
        (Sample.registry Sample.tokens Sample.objects) Sample.resolution chosen := by
  have shown : (Sample.searched.toOption.map fun selected =>
        selected.toList.map fun entry => (entry.1, entry.2.candidateIndex)) =
      some [("acme::app", 1), ("acme::lib", 2)] := by
    rw [Sample.searched, searchContext, admittedByCoordinate, sortedByCoordinate,
      Sample.admittedCandidates_eq Sample.tokens_addressed]
    decide +kernel
  refine ⟨shown, ?_⟩
  cases found : Sample.searched with
  | error failure =>
    rw [found] at shown
    cases shown
  | ok selected =>
    have resolved := resolved_of_search Sample.request_admitted Sample.named_once found
    exact ⟨resolved, resolve_sound _ _ _ resolved⟩

end ForgeCore.DomainPacks
