import ForgeCore.DomainPacks.SearchFacts

/-!
# The order of a selection

Selected packages are listed in a dependency order that determines the
selection.
-/

namespace ForgeCore.DomainPacks

open List

section Ordering

variable {Version : Type} {selected : Selection Version}

theorem nodup_keys : selected.keys.Nodup := by
  refine Std.ExtTreeMap.distinct_keys.imp ?_
  intro first second distinct same
  exact distinct (Std.LawfulEqCmp.compare_eq_iff_eq.mpr same)

variable {key : String} {order : List String}

theorem mem_keys_iff : key ∈ selected.keys ↔ ∃ candidate, selected[key]? = some candidate := by
  rw [Std.ExtTreeMap.mem_keys, Std.ExtTreeMap.mem_iff_isSome_getElem?, Option.isSome_iff_exists]

theorem dependentKeys_inverts :
    Graph.Inverts (dependencyKeys selected) (dependentKeys selected)
      selected.keys where
  distinct := fun _ => nodup_keys.filter _
  mem_iff := fun key other => by
    rw [dependentKeys, mem_filter, contains_iff_mem]

theorem dependencyCounts_counted :
    Graph.Counted (dependencyKeys selected) selected.keys (dependencyCounts selected) [] := by
  have counts (key : String) : (dependencyCounts selected).counts[key]? =
        selected[key]?.map fun candidate => candidate.dependencies.length :=
    Std.ExtTreeMap.getElem?_map
  refine ⟨?_, ?_, by simp, nodup_nil, ?_⟩
  · intro key member
    obtain ⟨candidate, found⟩ := mem_keys_iff.mp member
    refine ⟨candidate.dependencies.length, by rw [counts, found]; rfl, ?_⟩
    simp [Graph.placedBefore, dependencyKeys, found]
  · intro key
    have ready : key ∈ (dependencyCounts selected).ready ↔
          (dependencyCounts selected).counts[key]? = some 0 := by
      rw [dependencyCounts, Std.ExtTreeSet.mem_ofList, contains_iff_mem, mem_map]
      constructor
      · rintro ⟨entry, member, rfl⟩
        rw [mem_filter, decide_eq_true_eq] at member
        obtain ⟨inMap, zero⟩ := member
        rw [← zero]
        exact Std.ExtTreeMap.mem_toList_iff_getElem?_eq_some.mp inMap
      · intro zero
        exact ⟨(key, 0), List.mem_filter.mpr
              ⟨Std.ExtTreeMap.mem_toList_iff_getElem?_eq_some.mpr zero, decide_eq_true rfl⟩, rfl⟩
    rw [ready]
    constructor
    · intro zero
      refine ⟨mem_keys_iff.mpr ?_, not_mem_nil, zero⟩
      rw [counts, Option.map_eq_some_iff] at zero
      obtain ⟨candidate, found, -⟩ := zero
      exact ⟨candidate, found⟩
    · exact fun member => member.2.2
  · intro before key after split
    simp at split

theorem selectionOrder_counted (selected : Selection Version) :
    ∃ left : Graph.Pending String, Graph.Counted (dependencyKeys selected) selected.keys left
      (selectionOrder selected) ∧ left.ready.min? = none := by
  obtain ⟨left, counted, exhausted⟩ := Graph.place_counted dependentKeys_inverts (selected.size + 1)
      dependencyCounts_counted
  refine ⟨left, counted, exhausted ?_⟩
  rw [Std.ExtTreeMap.length_keys]
  simp

theorem selectionOrder_perm (whole : (selectionOrder selected).length = selected.size) :
    (selectionOrder selected).Perm selected.keys := by
  obtain ⟨left, counted, -⟩ := selectionOrder_counted selected
  refine (subperm_of_subset counted.distinct counted.placed).perm_of_length_le ?_
  rw [whole, Std.ExtTreeMap.length_keys]

/-- The order covers every acyclic selection that is closed and names no
dependency twice. -/
theorem length_selectionOrder
    (closed : ∀ key ∈ selected.keys, ∀ target ∈ dependencyKeys selected key, target ∈ selected.keys)
    (distinct : ∀ key ∈ selected.keys, (dependencyKeys selected key).Nodup)
    (acyclic : graphHasCycle selected = false) :
    (selectionOrder selected).length = selected.size := by
  obtain ⟨left, counted, exhausted⟩ := selectionOrder_counted selected
  rw [graphHasCycle, Option.isNone_eq_false_iff, Option.isSome_iff_exists] at acyclic
  obtain ⟨layers, visited⟩ := acyclic
  obtain ⟨layered, covers⟩ := Graph.visitAll_layered visited
  have placed (key : String) (member : key ∈ selected.keys) : key ∈ selectionOrder selected :=
    counted.complete exhausted distinct closed layered key (covers key member) member
  have atMost := (subperm_of_subset counted.distinct counted.placed).length_le
  have atLeast := (subperm_of_subset nodup_keys placed).length_le
  rw [Std.ExtTreeMap.length_keys] at atMost atLeast
  exact Nat.le_antisymm atMost atLeast

theorem dependencyEdge_toOption
    (key : String) (candidate : Admitted Version) (dependency : DomainPackDependency) :
    (dependencyEdge selected key candidate dependency).toOption =
      selected[coordinateKey dependency.pack]?.map fun target =>
      ⟨versionReference (candidateIdentity candidate.candidate),
      versionReference (candidateIdentity target.candidate), dependency.requiredContentDigest⟩ := by
  rw [dependencyEdge]
  cases selected[coordinateKey dependency.pack]? with
  | none => rfl
  | some target => rfl

variable {edges : List DomainPackResolutionDependencyEdge} {package : Admitted Version}

theorem dependencyEdges_eq_ok (computed : dependencyEdges selected = .ok edges) :
    edges = selected.toList.flatMap fun entry => entry.2.dependencies.filterMap fun dependency =>
      (dependencyEdge selected entry.1 entry.2 dependency).toOption := by
  rw [Checked.eq_filterMap_of_mapM computed, filterMap_flatMap]
  simp only [filterMap_map]
  rfl

theorem dependencyEdges_isOk
    (closed : ∀ (key : String) (candidate : Admitted Version), selected[key]? = some candidate →
      ∀ dependency ∈ candidate.dependencies, coordinateKey dependency.pack ∈ selected.keys) :
    ∃ edges, dependencyEdges selected = .ok edges := by
  apply Checked.mapM_isOk
  rintro ⟨⟨key, candidate⟩, dependency⟩ member
  obtain ⟨entry, inMap, named⟩ := List.mem_flatMap.mp member
  obtain ⟨other, isDependency, same⟩ := List.mem_map.mp named
  cases same
  have isKey := closed key candidate
      (Std.ExtTreeMap.mem_toList_iff_getElem?_eq_some.mp inMap) dependency isDependency
  obtain ⟨target, found⟩ := mem_keys_iff.mp isKey
  exact ⟨_, by rw [dependencyEdge, found]⟩

theorem topologicalEdgesAndOrder_eq_ok : topologicalEdgesAndOrder selected = .ok (edges, order) ↔
      (selectionOrder selected).length = selected.size ∧ order = selectionOrder selected ∧
      ∃ unsorted, dependencyEdges selected = .ok unsorted ∧ edges = sortBy
      (fun left right => compare (edgeKey left) (edgeKey right)) unsorted := by
  rw [topologicalEdgesAndOrder, Checked.bind_eq_ok]
  by_cases whole : (selectionOrder selected).length = selected.size
  · simp only [whole, ne_eq, not_true_eq_false, if_false, Except.ok.injEq, Prod.mk.injEq, true_and]
    constructor
    · rintro ⟨unsorted, computed, rfl, rfl⟩
      exact ⟨rfl, unsorted, computed, rfl⟩
    · rintro ⟨rfl, unsorted, computed, rfl⟩
      exact ⟨unsorted, computed, rfl, rfl⟩
  · simp [whole]

/-- The packages of a selection, in an order of its keys. -/
structure Listing (selected : Selection Version) (order : List String)
    (chosen : List (Admitted Version)) : Prop where
  keyed : WellKeyed selected
  perm : order.Perm selected.keys
  looked : order.map (fun key => selected[key]?) = chosen.map some

theorem exists_listing (keyed : WellKeyed selected) (perm : order.Perm selected.keys) :
    ∃ chosen, Listing selected order chosen := by
  obtain ⟨chosen, computed⟩ := Checked.mapM_isSome fun key member =>
      mem_keys_iff.mp (perm.mem_iff.mp member)
  exact ⟨chosen, keyed, perm, Checked.mapM_eq_some.mp computed⟩

variable {order : List String} {chosen : List (Admitted Version)}

section

variable (listing : Listing selected order chosen)

include listing

theorem Listing.mem_iff : package ∈ chosen ↔ selected[package.key]? = some package := by
  constructor
  · intro member
    have mapped : some package ∈ chosen.map some := mem_map_of_mem member
    rw [← listing.looked] at mapped
    obtain ⟨key, -, found⟩ := List.mem_map.mp mapped
    rw [listing.keyed.key_eq key package found, found]
  · intro found
    have isKey := listing.perm.mem_iff.mpr (mem_keys_iff.mpr ⟨package, found⟩)
    have mapped := mem_map_of_mem (f := fun key => selected[key]?) isKey
    rw [listing.looked, found] at mapped
    obtain ⟨other, member, same⟩ := List.mem_map.mp mapped
    rwa [← Option.some.inj same]

theorem Listing.mem_of_getElem? (found : selected[key]? = some package) : package ∈ chosen := by
  rw [listing.mem_iff, listing.keyed.key_eq key package found, found]

theorem Listing.valid (member : package ∈ chosen) : validCoordinate package.coordinate = true :=
  listing.keyed.valid _ package (listing.mem_iff.mp member)

theorem Listing.map_key : chosen.map Admitted.key = order := by
  have keys : (order.map fun key => selected[key]?).map (fun found => found.map Admitted.key) =
        order.map some := by
    rw [map_map]
    apply map_congr_left
    intro key member
    obtain ⟨package, found⟩ := mem_keys_iff.mp (listing.perm.mem_iff.mp member)
    simp only [Function.comp_apply, found, Option.map_some, listing.keyed.key_eq key package found]
  rw [listing.looked, map_map] at keys
  have same : (chosen.map Admitted.key).map some = order.map some := by
    rw [map_map, ← keys]
    rfl
  exact List.map_injective_iff.mpr (Option.some_injective _) same

theorem Listing.distinct : (chosen.map Admitted.coordinate).Nodup := by
  have keys : (chosen.map Admitted.key).Nodup := by
    rw [listing.map_key]
    exact listing.perm.nodup_iff.mpr nodup_keys
  refine Nodup.of_map coordinateKey ?_
  rw [map_map]
  exact keys

/-- The chosen package of a coordinate is the one selected for its key. -/
theorem Listing.find_eq (pack : DomainPackCoordinate) :
    (chosen.find? fun other => other.coordinate = pack) = selected[coordinateKey pack]? := by
  cases found : selected[coordinateKey pack]? with
  | none =>
    rw [find?_eq_none]
    intro other member isPack
    rw [decide_eq_true_eq] at isPack
    have looked := listing.mem_iff.mp member
    rw [(key_eq_iff (listing.valid member)).mpr isPack, found] at looked
    cases looked
  | some target =>
    have isTarget := listing.keyed.coordinate_eq found
    cases first : chosen.find? fun other => other.coordinate = pack with
    | none =>
      have none := List.find?_eq_none.mp first target (listing.mem_of_getElem? found)
      exact absurd (decide_eq_true isTarget) none
    | some other =>
      have isPack : other.coordinate = pack := by
        simpa using find?_some first
      have member := mem_of_find?_eq_some first
      have looked := listing.mem_iff.mp member
      rw [(key_eq_iff (listing.valid member)).mpr isPack, found] at looked
      exact looked.symm

/-- The edges of a selection are those of its packages. -/
theorem Listing.edges_perm (computed : dependencyEdges selected = .ok edges) :
    edges.Perm (edgesOf chosen) := by
  have packages : chosen.Perm (selected.toList.map Prod.snd) := by
    have all : (selected.toList.map Prod.snd).map some =
          selected.keys.map fun key => selected[key]? := by
      rw [← Std.ExtTreeMap.map_fst_toList_eq_keys, map_map, map_map]
      apply map_congr_left
      intro entry member
      exact (Std.ExtTreeMap.mem_toList_iff_getElem?_eq_some.mp member).symm
    have looked := listing.perm.map fun key => selected[key]?
    rw [listing.looked, ← all] at looked
    simpa using looked.filterMap id
  rw [dependencyEdges_eq_ok computed]
  refine List.Perm.trans ?_ (packages.flatMap_right _).symm
  rw [flatMap_map]
  apply Perm.of_eq
  have sameEdge (entry : String × Admitted Version) : edgeOf chosen entry.2 = fun dependency =>
        (dependencyEdge selected entry.1 entry.2 dependency).toOption := by
    funext dependency
    rw [dependencyEdge_toOption, edgeOf, listing.find_eq]
  simp only [sameEdge]

end

theorem zipIdx_filterMap_of_looked {result : Type} {render : Nat → Admitted Version → result}
    {keys : List String} {packages : List (Admitted Version)}
    (looked : keys.map (fun key => selected[key]?) = packages.map some) (start : Nat) :
    ((keys.zipIdx start).filterMap fun placed => selected[placed.1]?.map (render placed.2)) =
      (packages.zipIdx start).map fun placed => render placed.2 placed.1 := by
  induction keys generalizing packages start with
  | nil =>
    cases packages with
    | nil => rfl
    | cons first rest => simp at looked
  | cons key keys ih =>
    cases packages with
    | nil => simp at looked
    | cons first rest =>
      rw [map_cons, map_cons, List.cons.injEq] at looked
      rw [zipIdx_cons, zipIdx_cons, filterMap_cons, looked.1]
      simp only [Option.map_some, map_cons]
      rw [ih looked.2]

theorem Listing.buildSelected_eq (listing : Listing selected order chosen) :
    buildSelected selected order =
      chosen.zipIdx.map fun placed => resolvedPackage placed.2 placed.1 :=
  zipIdx_filterMap_of_looked listing.looked 0

theorem Listing.dependency_before (listing : Listing selected order chosen)
    (respects : Graph.Respects (dependencyKeys selected) order)
    {before after : List (Admitted Version)} (split : chosen = before ++ package :: after)
    (named : dependency ∈ package.dependencies) :
    ∃ target ∈ before, target.coordinate = dependency.pack := by
  have keys := listing.map_key
  rw [split, map_append, map_cons] at keys
  have member : package ∈ chosen := by
    rw [split]
    exact mem_append_right _ mem_cons_self
  have isDependency : coordinateKey dependency.pack ∈ dependencyKeys selected package.key :=
    mem_dependencyKeys.mpr ⟨package, listing.mem_iff.mp member, dependency, named, rfl⟩
  have earlier := respects _ _ _ keys.symm _ isDependency
  obtain ⟨target, isBefore, same⟩ := List.mem_map.mp earlier
  have targetMember : target ∈ chosen := by
    rw [split]
    exact mem_append_left _ isBefore
  exact ⟨target, isBefore, (key_eq_iff (listing.valid targetMember)).mp same⟩

end Ordering

end ForgeCore.DomainPacks
