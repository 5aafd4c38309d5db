import ForgeCore.WorkflowGraphs.Contract

/-!
# The topological order

A valid graph is ordered exactly when it has no cycle, and its order is the
least one.
-/

namespace ForgeCore.WorkflowGraphs

open List

theorem hasErrors_append :
    hasErrors (first ++ second) = false ↔ hasErrors first = false ∧ hasErrors second = false := by
  rw [hasErrors, any_append, Bool.or_eq_false_iff]
  rfl

theorem not_of_hasErrors_ite {condition : Prop} [Decidable condition]
    (clean : hasErrors
        (if condition then [.error code path message] else []) = false) :
    ¬ condition := by
  intro holds
  rw [if_pos holds] at clean
  cases clean

/-- The ids of nodes that pass their checks are new and distinct. -/
theorem nodup_of_validateNodesFrom : ∀ {index : Nat} {seen : Std.ExtTreeSet String},
      hasErrors (validateNodesFrom index seen nodes) = false →
      (nodes.map fun node => node.nodeId.value).Nodup ∧
      ∀ node ∈ nodes, node.nodeId.value ∉ seen := by
  induction nodes with
  | nil =>
    intro index seen clean
    exact ⟨nodup_nil, fun _ member => absurd member not_mem_nil⟩
  | cons first rest ih =>
    intro index seen clean
    rw [validateNodesFrom, hasErrors_append] at clean
    obtain ⟨distinct, fresh⟩ := ih clean.2
    have own := clean.1
    rw [nodeDiagnostics, hasErrors_append, hasErrors_append] at own
    have firstFresh := not_of_hasErrors_ite own.1.2
    rw [Std.ExtTreeSet.contains_iff_mem] at firstFresh
    constructor
    · rw [map_cons, nodup_cons]
      refine ⟨?_, distinct⟩
      intro repeated
      obtain ⟨other, member, same⟩ := List.mem_map.mp repeated
      apply fresh other member
      rw [Std.ExtTreeSet.mem_insert, Std.LawfulEqCmp.compare_eq_iff_eq]
      exact Or.inl same.symm
    · intro node member
      rcases List.mem_cons.mp member with rfl | later
      · exact firstFresh
      · intro known
        apply fresh node later
        rw [Std.ExtTreeSet.mem_insert]
        exact Or.inr known

section Valid

variable {graph : WorkflowGraph}

theorem nodup_of_valid (valid : hasErrors (validateGraph graph) = false) :
    (graph.nodes.map fun node => node.nodeId.value).Nodup := by
  rw [validateGraph, hasErrors_append, hasErrors_append, hasErrors_append,
    hasErrors_append] at valid
  have nodesClean := valid.1.1.1.2
  rw [validateNodes, hasErrors_append] at nodesClean
  exact (nodup_of_validateNodesFrom nodesClean.2).1

theorem order_isSome_of_valid (valid : hasErrors (validateGraph graph) = false) :
    ∃ order, topologicalOrderIfAcyclic graph = some order := by
  rw [validateGraph, hasErrors_append, hasErrors_append, hasErrors_append,
    hasErrors_append] at valid
  have nodesClean := valid.1.1.1.2
  have acyclic := valid.1.2
  rw [validateNodes, hasErrors_append] at nodesClean
  have present := not_of_hasErrors_ite nodesClean.1
  rw [validateCycles, if_neg present] at acyclic
  have ordered := not_of_hasErrors_ite acyclic
  rw [Option.isNone_iff_eq_none] at ordered
  exact Option.ne_none_iff_exists'.mp ordered

end Valid

variable {source target : String}

section Edges

variable {ids : Std.ExtTreeSet String}

def Joins (ids : Std.ExtTreeSet String) (edge : GraphEdge) : Bool :=
  ids.contains edge.source.value && ids.contains edge.target.value

def sourcesOf (ids : Std.ExtTreeSet String) (edges : List GraphEdge)
    (target : String) : List String :=
  ((edges.filter fun edge =>
      Joins ids edge && edge.target.value = target).map
    fun edge => edge.source.value).dedup

variable {edges : List GraphEdge}

theorem mem_sourcesOf :
    source ∈ sourcesOf ids edges target ↔ ∃ edge ∈ edges, Joins ids edge = true ∧
      edge.target.value = target ∧ edge.source.value = source := by
  simp only [sourcesOf, mem_dedup, mem_map, mem_filter,
    Bool.and_eq_true, decide_eq_true_eq, and_assoc]

/-- One more edge is one more source, unless it is parallel or ends
elsewhere. -/
theorem length_sourcesOf_concat (edges : List GraphEdge) (edge : GraphEdge)
    (target : String) :
    (sourcesOf ids (edges ++ [edge]) target).length = (sourcesOf ids edges target).length +
        if Joins ids edge = true ∧ edge.target.value = target ∧
            edge.source.value ∉ sourcesOf ids edges target then 1
        else 0 := by
  rw [sourcesOf, filter_append, map_append]
  by_cases ends : Joins ids edge = true ∧ edge.target.value = target
  · have kept : [edge].filter (fun edge =>
          Joins ids edge && edge.target.value = target) = [edge] := by
      simp [ends.1, ends.2]
    rw [kept, map_singleton, ← card_toFinset, toFinset_append, sourcesOf, ← card_toFinset]
    by_cases known : edge.source.value ∈ sourcesOf ids edges target
    · have absorbed := known
      rw [sourcesOf, mem_dedup, ← mem_toFinset] at absorbed
      rw [if_neg (fun fresh => fresh.2.2 (by rw [← sourcesOf]; exact known)),
        toFinset_cons, toFinset_nil, insert_empty_eq,
        Finset.union_singleton, Finset.insert_eq_of_mem absorbed, Nat.add_zero]
    · have absent := known
      rw [sourcesOf, mem_dedup, ← mem_toFinset] at absent
      rw [if_pos ⟨ends.1, ends.2, by rw [← sourcesOf]; exact known⟩,
        toFinset_cons, toFinset_nil, insert_empty_eq,
        Finset.union_singleton, Finset.card_insert_of_notMem absent]
  · have dropped : [edge].filter (fun edge =>
          Joins ids edge && edge.target.value = target) = [] := by
      simpa [and_comm] using ends
    rw [dropped, map_nil, append_nil, ← sourcesOf,
      if_neg (fun fresh => ends ⟨fresh.1, fresh.2.1⟩), Nat.add_zero]

variable {edge : GraphEdge} {adjacency : Adjacency}

theorem mem_sourcesOf_concat :
    source ∈ sourcesOf ids (edges ++ [edge]) target ↔ source ∈ sourcesOf ids edges target ∨
      Joins ids edge = true ∧ edge.target.value = target ∧ edge.source.value = source := by
  simp only [mem_sourcesOf, mem_append, mem_singleton, or_and_right, exists_or, exists_eq_left]

/-- The adjacency is right for the edges that were added. -/
structure Tallied (ids : Std.ExtTreeSet String) (edges : List GraphEdge)
    (adjacency : Adjacency) : Prop where
  indegree : ∀ id, adjacency.indegree[id]? =
    if id ∈ ids then some (sourcesOf ids edges id).length else none
  outgoing : ∀ id child, child ∈ adjacency.outgoing[id]?.getD ∅ ↔ id ∈ sourcesOf ids edges child

theorem tallied_empty (ids : Std.ExtTreeSet String) : Tallied ids [] (emptyAdjacency ids) := by
  constructor
  · intro id
    by_cases member : id ∈ ids
    · have listed := Std.ExtTreeSet.mem_toList.mpr member
      have present : ((emptyAdjacency ids).indegree[id]?).isSome = true :=
        Collect.isSome_getElem?_map listed
      obtain ⟨found, looked⟩ := Option.isSome_iff_exists.mp present
      obtain ⟨-, -, -, zero⟩ := Collect.exists_of_getElem?_map looked
      rw [if_pos member, looked, ← zero]
      rfl
    · rw [if_neg member]
      cases looked : (emptyAdjacency ids).indegree[id]? with
      | none => rfl
      | some found =>
        obtain ⟨other, listed, rfl, -⟩ := Collect.exists_of_getElem?_map looked
        exact absurd (Std.ExtTreeSet.mem_toList.mp listed) member
  · intro id child
    have none' : child ∉ (emptyAdjacency ids).outgoing[id]?.getD ∅ := by
      cases looked : (emptyAdjacency ids).outgoing[id]? with
      | none => exact Std.ExtTreeSet.not_mem_empty
      | some found =>
        obtain ⟨-, -, -, empty⟩ := Collect.exists_of_getElem?_map looked
        rw [Option.getD_some, ← empty]
        exact Std.ExtTreeSet.not_mem_empty
    simp only [none', mem_sourcesOf, not_mem_nil, false_and, exists_false]

theorem Tallied.skip (tallied : Tallied ids edges adjacency)
    (old : Joins ids edge = true → edge.source.value ∈ sourcesOf ids edges edge.target.value) :
    Tallied ids (edges ++ [edge]) adjacency := by
  constructor
  · intro id
    rw [length_sourcesOf_concat, if_neg (c := _ ∧ _)]
    · exact tallied.indegree id
    · rintro ⟨joins, rfl, fresh⟩
      exact fresh (old joins)
  · intro id child
    rw [mem_sourcesOf_concat, tallied.outgoing]
    constructor
    · exact Or.inl
    · rintro (known | ⟨joins, rfl, rfl⟩)
      · exact known
      · exact old joins

theorem Tallied.addEdge (tallied : Tallied ids edges adjacency) (edge : GraphEdge) :
    Tallied ids (edges ++ [edge]) (addEdge ids adjacency edge) := by
  rw [WorkflowGraphs.addEdge, ← Bool.not_and, ← Joins]
  by_cases joins : Joins ids edge = true
  · rw [if_neg (by simp [joins])]
    simp only [Std.ExtTreeSet.contains_iff_mem, tallied.outgoing]
    by_cases known : edge.source.value ∈ sourcesOf ids edges edge.target.value
    · rw [if_pos known]
      exact tallied.skip fun _ => known
    · rw [if_neg known]
      have targetKnown : edge.target.value ∈ ids := Std.ExtTreeSet.contains_iff_mem.mp
          (Bool.and_eq_true_iff.mp joins).2
      constructor
      · intro id
        simp only [Std.ExtTreeMap.getElem?_insert,
          Std.LawfulEqCmp.compare_eq_iff_eq, tallied.indegree,
          length_sourcesOf_concat, if_pos targetKnown, Option.getD_some]
        by_cases same : edge.target.value = id
        · subst same
          simp [targetKnown, joins, known]
        · simp [same]
      · intro id child
        rw [mem_sourcesOf_concat, ← tallied.outgoing, Std.ExtTreeMap.getElem?_insert]
        by_cases same : edge.source.value = id
        · subst same
          simp [joins, or_comm]
        · have different : compare edge.source.value id ≠ .eq := by
            rwa [ne_eq, Std.LawfulEqCmp.compare_eq_iff_eq]
          simp [same, different]
  · rw [if_pos (by simpa using joins)]
    exact tallied.skip fun holds => absurd holds joins

end Edges

theorem tallied_adjacencyOf (graph : WorkflowGraph) :
    Tallied (nodeIds graph) graph.edges (adjacencyOf graph) := by
  rw [adjacencyOf]
  induction graph.edges using List.reverseRecOn with
  | nil => exact tallied_empty _
  | append_singleton edges edge ih =>
    rw [foldl_append]
    exact ih.addEdge edge

section Order

variable {graph : WorkflowGraph}

variable {id : String} {node : GraphNode}

theorem mem_children :
    child ∈ (adjacencyOf graph).children id ↔ id ∈ sourcesOf (nodeIds graph) graph.edges child := by
  rw [Adjacency.children, Std.ExtTreeSet.mem_toList, (tallied_adjacencyOf graph).outgoing]

theorem inverts_children (graph : WorkflowGraph) :
    Graph.Inverts (sourcesOf (nodeIds graph) graph.edges)
      (adjacencyOf graph).children (nodeIds graph).toList := by
  constructor
  · intro id
    exact Collect.nodup_toList _
  · intro id child
    rw [mem_children, Std.ExtTreeSet.mem_toList]
    constructor
    · intro edge
      refine ⟨?_, edge⟩
      obtain ⟨joined, -, joins, rfl, -⟩ := mem_sourcesOf.mp edge
      exact Std.ExtTreeSet.contains_iff_mem.mp (Bool.and_eq_true_iff.mp joins).2
    · exact And.right

theorem counted_pending (graph : WorkflowGraph) :
    Graph.Counted (sourcesOf (nodeIds graph) graph.edges)
      (nodeIds graph).toList (adjacencyOf graph).pending [] := by
  have counts := (tallied_adjacencyOf graph).indegree
  refine ⟨?_, ?_, ?_, nodup_nil, ?_⟩
  · intro id member
    refine ⟨(sourcesOf (nodeIds graph) graph.edges id).length, ?_, ?_⟩
    · rw [Adjacency.pending, counts, if_pos (Std.ExtTreeSet.mem_toList.mp member)]
    · simp [Graph.placedBefore]
  · intro id
    rw [Adjacency.pending, Collect.mem_set]
    constructor
    · rintro ⟨entry, listed, rfl⟩
      obtain ⟨found, zero⟩ := List.mem_filter.mp listed
      have looked := Std.ExtTreeMap.mem_toList_iff_getElem?_eq_some.mp found
      have isZero : entry.2 = 0 := of_decide_eq_true zero
      rw [isZero] at looked
      refine ⟨?_, not_mem_nil, looked⟩
      rw [counts] at looked
      split at looked
      · next member => exact Std.ExtTreeSet.mem_toList.mpr member
      · cases looked
    · rintro ⟨-, -, zero⟩
      refine ⟨(id, 0), List.mem_filter.mpr ⟨?_, rfl⟩, rfl⟩
      exact Std.ExtTreeMap.mem_toList_iff_getElem?_eq_some.mpr zero
  · intro id member
    cases member
  · intro before id after split
    have lengths := congrArg List.length split
    simp at lengths

theorem map_value_map_mk (ids : List String) : (ids.map StableId.mk).map StableId.value = ids := by
  rw [map_map]
  exact map_id _

theorem order_perm (ordered : topologicalOrderIfAcyclic graph = some order) :
    (order.map StableId.value).Perm (nodeIds graph).toList := by
  rw [topologicalOrderIfAcyclic] at ordered
  split at ordered
  · next complete =>
    cases ordered
    obtain ⟨left, counted, -⟩ := Graph.place_counted (inverts_children graph)
        ((nodeIds graph).size + 1) (counted_pending graph)
    rw [map_value_map_mk]
    apply (subperm_of_subset counted.distinct counted.placed).perm_of_length_le
    rw [complete, Std.ExtTreeSet.length_toList]
  · cases ordered

theorem nodeIds_perm (distinct : (graph.nodes.map fun node => node.nodeId.value).Nodup) :
    (nodeIds graph).toList.Perm (graph.nodes.map fun node => node.nodeId.value) := by
  rw [perm_ext_iff_of_nodup (Collect.nodup_toList _) distinct]
  intro id
  rw [Std.ExtTreeSet.mem_toList, nodeIds, Collect.mem_set, mem_map]

theorem topologicalOrder_perm (valid : hasErrors (validateGraph graph) = false) :
    ((topologicalOrder graph).map StableId.value).Perm
      (graph.nodes.map fun node => node.nodeId.value) := by
  obtain ⟨order, ordered⟩ := order_isSome_of_valid valid
  rw [topologicalOrder, ordered, Option.getD_some]
  exact (order_perm ordered).trans (nodeIds_perm (nodup_of_valid valid))

theorem nodesById_of_mem
    (valid : hasErrors (validateGraph graph) = false) (member : node ∈ graph.nodes) :
    (nodesById graph)[node.nodeId.value]? = some node :=
  Collect.getElem?_map_of_nodup (nodup_of_valid valid) member

theorem mem_of_nodesById (found : (nodesById graph)[id]? = some node) :
    node ∈ graph.nodes ∧ node.nodeId.value = id := by
  obtain ⟨other, member, isKey, isNode⟩ := Collect.exists_of_getElem?_map found
  rw [← isNode]
  exact ⟨member, isKey⟩

end Order

def Follows (graph : WorkflowGraph) (source target : String) : Prop :=
  ∃ edge ∈ graph.edges, edge.source.value = source ∧ edge.target.value = target

def Precedes (source target : String) (ordering : List String) : Prop :=
  ∃ before after, ordering = before ++ source :: after ∧ target ∈ after

/-- A permutation of the nodes in which every edge leads forward. -/
structure Orders (graph : WorkflowGraph) (ordering : List String) : Prop where
  perm : ordering.Perm (graph.nodes.map fun node => node.nodeId.value)
  forward : ∀ edge ∈ graph.edges, Precedes edge.source.value edge.target.value ordering

def IsLeastOrder (graph : WorkflowGraph) (ordering : List String) : Prop :=
  Orders graph ordering ∧ ∀ other, Orders graph other →
      ordering = other ∨ List.Lex (· < ·) ordering other

def Closed (graph : WorkflowGraph) : Prop :=
  ∀ edge ∈ graph.edges, edge.source.value ∈ graph.nodes.map (fun node => node.nodeId.value) ∧
      edge.target.value ∈ graph.nodes.map (fun node => node.nodeId.value)

section Least

variable {graph : WorkflowGraph}

theorem mem_sourcesOf_iff_follows (closed : Closed graph) :
    source ∈ sourcesOf (nodeIds graph) graph.edges target ↔ Follows graph source target := by
  rw [mem_sourcesOf]
  constructor
  · rintro ⟨edge, member, -, isTarget, isSource⟩
    exact ⟨edge, member, isSource, isTarget⟩
  · rintro ⟨edge, member, isSource, isTarget⟩
    have joined : ∀ id, id ∈ graph.nodes.map (fun node => node.nodeId.value) →
          (nodeIds graph).contains id = true := by
      intro id listed
      rw [Std.ExtTreeSet.contains_iff_mem, nodeIds, Collect.mem_set]
      exact List.mem_map.mp listed
    have joins : Joins (nodeIds graph) edge = true := by
      rw [Joins, joined _ (closed edge member).1, joined _ (closed edge member).2]
      rfl
    exact ⟨edge, member, joins, isTarget, isSource⟩

theorem acyclic_iff (closed : Closed graph) {nodes : List String}
    (covers : ∀ edge ∈ graph.edges, edge.target.value ∈ nodes) :
    Graph.Acyclic (sourcesOf (nodeIds graph) graph.edges) nodes ↔
      ∀ id, ¬Relation.TransGen (Follows graph) id id := by
  have swapped : ∀ id, Relation.TransGen
          (Graph.Edge (sourcesOf (nodeIds graph) graph.edges)) id id ↔
        Relation.TransGen (Follows graph) id id := by
    intro id
    rw [← Relation.transGen_swap]
    have same : Function.swap (Graph.Edge (sourcesOf (nodeIds graph) graph.edges)) =
          Follows graph := by
      funext source target
      exact propext (mem_sourcesOf_iff_follows closed)
    rw [same]
  constructor
  · intro acyclic id cycle
    obtain ⟨last, -, edge, member, -, isTarget⟩ := Relation.TransGen.tail'_iff.mp cycle
    exact acyclic id (isTarget ▸ covers edge member) ((swapped id).mpr cycle)
  · intro acyclic id _ cycle
    exact acyclic id ((swapped id).mp cycle)

variable {ordering : List String}

/-- In a list without repetition, what precedes an element stands in front of
every place of it. -/
theorem mem_of_precedes {before after : List String}
    (distinct : ordering.Nodup) (precedes : Precedes source target ordering)
    (split : ordering = before ++ target :: after) : source ∈ before := by
  obtain ⟨front, rest, isOrdering, later⟩ := precedes
  obtain ⟨middle, back, isRest⟩ := append_of_mem later
  have again : ordering = (front ++ source :: middle) ++ target :: back := by
    rw [isOrdering, isRest]
    simp
  have sameBefore : before = front ++ source :: middle := by
    have firstIndex := congrArg (List.idxOf target) split
    have secondIndex := congrArg (List.idxOf target) again
    rw [split] at distinct
    have notBefore : target ∉ before := fun member =>
      (List.nodup_append.mp distinct).2.2 target member target mem_cons_self rfl
    rw [← split, again] at distinct
    have notFront : target ∉ front ++ source :: middle := fun member =>
      (List.nodup_append.mp distinct).2.2 target member target mem_cons_self rfl
    rw [idxOf_append_of_notMem notBefore, idxOf_cons_self] at firstIndex
    rw [idxOf_append_of_notMem notFront, idxOf_cons_self] at secondIndex
    exact (append_inj (split.symm.trans again) (by omega)).1
  rw [sameBefore]
  simp

theorem Orders.respects (closed : Closed graph)
    (distinct : (graph.nodes.map fun node => node.nodeId.value).Nodup)
    (orders : Orders graph ordering) :
    Graph.Respects (sourcesOf (nodeIds graph) graph.edges) ordering := by
  intro before target after split source isSource
  obtain ⟨edge, member, rfl, rfl⟩ := (mem_sourcesOf_iff_follows closed).mp isSource
  exact mem_of_precedes (orders.perm.nodup_iff.mpr distinct) (orders.forward edge member) split

theorem orders_of_respects (closed : Closed graph)
    (perm : ordering.Perm (graph.nodes.map fun node => node.nodeId.value)) (respects :
      Graph.Respects (sourcesOf (nodeIds graph) graph.edges) ordering) : Orders graph ordering := by
  refine ⟨perm, ?_⟩
  intro edge member
  obtain ⟨before, after, split⟩ := append_of_mem (perm.mem_iff.mpr (closed edge member).2)
  have earlier := respects before edge.target.value after split edge.source.value
      ((mem_sourcesOf_iff_follows closed).mpr ⟨edge, member, rfl, rfl⟩)
  obtain ⟨front, middle, isBefore⟩ := append_of_mem earlier
  refine ⟨front, middle ++ edge.target.value :: after, ?_, by simp⟩
  rw [split, isBefore]
  simp

theorem exists_placed (graph : WorkflowGraph) :
    ∃ (left : Graph.Pending String) (placed : List String),
      Graph.Counted (sourcesOf (nodeIds graph) graph.edges)
          (nodeIds graph).toList left placed ∧
        left.ready.min? = none ∧
        Graph.Greedy (sourcesOf (nodeIds graph) graph.edges)
          (nodeIds graph).toList placed ∧
        topologicalOrderIfAcyclic graph = if placed.length = (nodeIds graph).size then
            some (placed.map StableId.mk)
          else none := by
  obtain ⟨left, counted, exhausted⟩ := Graph.place_counted (inverts_children graph)
      ((nodeIds graph).size + 1) (counted_pending graph)
  refine ⟨left, _, counted, exhausted ?_, ?_, rfl⟩
  · rw [Std.ExtTreeSet.length_toList]
    simp
  · apply Graph.place_greedy (inverts_children graph)
      (fun _ _ => nodup_dedup _) _ (counted_pending graph)
    intro before key after split
    simp at split

theorem lex_of_compare {first second : List String}
    (less : List.Lex (fun left right => compare left right = .lt) first second) :
    List.Lex (· < ·) first second :=
  less.imp fun _ _ isLess => compare_lt_iff_lt.mp isLess

end Least

/-- An order is found exactly for the graphs without a cycle, and it is the
least one. -/
theorem topological_order_is_least
    (graph : WorkflowGraph)
    (distinct : (graph.nodes.map fun node => node.nodeId.value).Nodup)
    (closed : Closed graph) :
    ((topologicalOrderIfAcyclic graph).isSome = true ↔
      ∀ id, ¬Relation.TransGen (Follows graph) id id) ∧
    ∀ order,
      topologicalOrderIfAcyclic graph = some order →
      IsLeastOrder graph (order.map StableId.value) := by
  obtain ⟨left, placed, counted, exhausted, greedy, result⟩ := exists_placed graph
  have ids := nodeIds_perm distinct
  have size : (nodeIds graph).size = (nodeIds graph).toList.length :=
    Std.ExtTreeSet.length_toList.symm
  have covered : ∀ edge ∈ graph.edges, edge.target.value ∈ (nodeIds graph).toList :=
    fun edge member => ids.mem_iff.mpr (closed edge member).2
  have complete : placed.length = (nodeIds graph).size →
      placed.Perm (graph.nodes.map fun node => node.nodeId.value) := by
    intro whole
    apply List.Perm.trans _ ids
    apply (subperm_of_subset counted.distinct counted.placed).perm_of_length_le
    rw [whole, size]
  refine ⟨⟨?_, ?_⟩, ?_⟩
  · intro found
    rw [result] at found
    split at found
    · next whole =>
      rw [← acyclic_iff closed (fun edge member => List.mem_reverse.mpr
          ((complete whole).mem_iff.mpr (closed edge member).2))]
      exact (counted.respects.layered).acyclic
    · cases found
  · intro acyclic
    rw [← acyclic_iff closed covered] at acyclic
    have inside : ∀ key ∈ (nodeIds graph).toList,
        ∀ source ∈ sourcesOf (nodeIds graph) graph.edges key, source ∈ (nodeIds graph).toList := by
      intro key _ source isSource
      obtain ⟨edge, member, rfl, -⟩ := (mem_sourcesOf_iff_follows closed).mp isSource
      exact ids.mem_iff.mpr (closed edge member).1
    obtain ⟨layers, layered, covers⟩ := acyclic.exists_layered inside
    have all : ∀ key ∈ (nodeIds graph).toList, key ∈ placed := fun key member =>
        counted.complete exhausted (fun _ _ => nodup_dedup _) inside
          layered key (covers key member) member
    have atMost := (subperm_of_subset counted.distinct counted.placed).length_le
    have atLeast := (subperm_of_subset (Collect.nodup_toList _) all).length_le
    rw [result, if_pos (by omega)]
    rfl
  · intro order found
    rw [result] at found
    split at found
    · next whole =>
      cases found
      rw [map_value_map_mk]
      have perm := complete whole
      refine ⟨orders_of_respects closed perm counted.respects, ?_⟩
      intro other orders
      have sameLength : placed.length = other.length := (perm.trans orders.perm.symm).length_eq
      apply (greedy.lex _ (orders.perm.nodup_iff.mpr distinct)
        (orders.respects closed distinct) sameLength).imp id lex_of_compare
      intro key member
      exact ids.mem_iff.mpr (orders.perm.mem_iff.mp member)
    · cases found

namespace Sample

def gatedGraph : WorkflowGraph where
  schemaVersion := "0.1"
  kind := "workflow_graph"
  graphId := ⟨"g"⟩
  nodes :=
    [⟨⟨"o"⟩, .operation, some ⟨"r"⟩, true, [], none⟩, ⟨⟨"v"⟩, .verifier, none, false, [], none⟩]
  edges := [⟨⟨"v"⟩, ⟨"o"⟩, .blocksUntilPassed⟩]
  budgets := []

theorem gatedGraph_order : topologicalOrderIfAcyclic gatedGraph = some [⟨"v"⟩, ⟨"o"⟩] := by
  have size : (nodeIds gatedGraph).size = 2 := by decide +kernel
  have first : (adjacencyOf gatedGraph).pending.ready.toList.head? = some "v" := by
    decide +kernel
  rw [topologicalOrderIfAcyclic, size, Graph.place_of_head first,
    @Graph.place_of_head _ "o" _ _ _ _ (by decide +kernel), Graph.place_of_nil (by decide +kernel)]
  rfl

/-- The gated operation, and a probe that nothing holds back. -/
def freeGraph : WorkflowGraph :=
  { gatedGraph with nodes := gatedGraph.nodes ++ [⟨⟨"p"⟩, .evalProbe, none, false, [], none⟩] }

theorem freeGraph_order :
    topologicalOrderIfAcyclic freeGraph = some [⟨"p"⟩, ⟨"v"⟩, ⟨"o"⟩] := by
  have size : (nodeIds freeGraph).size = 3 := by decide +kernel
  have first : (adjacencyOf freeGraph).pending.ready.toList.head? = some "p" := by
    decide +kernel
  rw [topologicalOrderIfAcyclic, size, Graph.place_of_head first,
    @Graph.place_of_head _ "v" _ _ _ _ (by decide +kernel),
    @Graph.place_of_head _ "o" _ _ _ _ (by decide +kernel), Graph.place_of_nil (by decide +kernel)]
  rfl

end Sample

/-- The verifier comes before its target although its id is the greater one,
and the free probe before both. -/
theorem topological_order_is_least_probed :
    IsLeastOrder Sample.freeGraph ["p", "v", "o"] :=
  (topological_order_is_least Sample.freeGraph (by decide)
    (by unfold Closed; decide)).2 _ Sample.freeGraph_order

end ForgeCore.WorkflowGraphs
