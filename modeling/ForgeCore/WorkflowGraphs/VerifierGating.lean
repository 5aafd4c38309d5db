import ForgeCore.WorkflowGraphs.DryRun
import ForgeCore.WorkflowGraphs.Order

/-!
# Verifiers before mutations

A step that can mutate is planned only when every verifier upstream has
passed.
-/

namespace ForgeCore.WorkflowGraphs

open List

/-- The id is a verifier that did not pass and that the target depends on,
through any number of edges. -/
def UnpassedUpstream (graph : WorkflowGraph) (target id : StableId) : Prop :=
  (∃ verifier ∈ graph.nodes, verifier.nodeId = id ∧ verifier.nodeKind = .verifier ∧
      verifier.verifierResult ≠ some .passed) ∧
    Relation.TransGen (Follows graph) id.value target.value

section Sources

variable {graph : WorkflowGraph}

theorem values_incoming (target : String) :
    Multimap.values (incomingEdgesByTarget graph) target = ((((graph.edges.map fun edge =>
      (edge.target.value, edge.source.value)).filter
      fun entry => entry.1 = target).map Prod.snd).mergeSort
      fun left right => left ≤ right).destutter (· ≠ ·) := by
  rw [incomingEdgesByTarget, Multimap.values_map (by simp), Multimap.values_pushAll]
  simp [Multimap.values]

theorem mem_incoming {source target : String} :
    source ∈ Multimap.values (incomingEdgesByTarget graph) target ↔
      Follows graph source target := by
  rw [values_incoming, Collect.mem_destutter, mem_mergeSort]
  simp only [Follows, mem_map, mem_filter, decide_eq_true_eq]
  constructor
  · rintro ⟨-, ⟨⟨edge, member, rfl⟩, isTarget⟩, isSource⟩
    exact ⟨edge, member, isSource, isTarget⟩
  · rintro ⟨edge, member, isSource, isTarget⟩
    exact ⟨_, ⟨⟨edge, member, rfl⟩, isTarget⟩, isSource⟩

theorem length_incoming_le (graph : WorkflowGraph) (target : String) :
    (Multimap.values (incomingEdgesByTarget graph) target).length ≤ ((graph.edges.map fun edge =>
      (edge.target.value, edge.source.value)).filter fun entry => entry.1 = target).length := by
  rw [values_incoming]
  refine (destutter_sublist _ _).length_le.trans ?_
  rw [length_mergeSort, length_map]

/-- Only targets of edges have incoming ones. -/
theorem incoming_eq_nil {key : String}
    (outside : key ∉ (graph.edges.map (·.target.value)).toFinset) :
    Multimap.values (incomingEdgesByTarget graph) key = [] := by
  rw [eq_nil_iff_forall_not_mem]
  intro source member
  obtain ⟨edge, isEdge, -, rfl⟩ := mem_incoming.mp member
  exact outside (mem_toFinset.mpr (mem_map_of_mem isEdge))

theorem length_add_sum_incoming_le (graph : WorkflowGraph) (target : String)
    (keys : Finset String) :
    (Multimap.values (incomingEdgesByTarget graph) target).length + ∑ key ∈ keys,
      (Multimap.values (incomingEdgesByTarget graph) key).length ≤ 2 * graph.edges.length := by
  have own := (length_incoming_le graph target).trans (length_filter_le _ _)
  have all := (Finset.sum_le_sum fun key _ => length_incoming_le graph key).trans
    (Multimap.sum_length_filter_le _ keys)
  rw [length_map] at own all
  omega

end Sources

section Search

variable {graph : WorkflowGraph}

variable {blockers : Std.ExtTreeSet String}

theorem mem_noteVerifier {nodes : Std.ExtTreeMap String GraphNode} {id other : String} :
    other ∈ noteVerifier nodes id blockers ↔ other ∈ blockers ∨
      ∃ node : GraphNode, nodes[id]? = some node ∧ node.nodeKind = .verifier ∧
      node.verifierResult ≠ some .passed ∧ node.nodeId.value = other := by
  rw [noteVerifier]
  cases found : nodes[id]? with
  | none => simp
  | some node =>
    simp only [Option.some.injEq, exists_eq_left']
    split
    · next unpassed =>
      rw [Std.ExtTreeSet.mem_insert, Std.LawfulEqCmp.compare_eq_iff_eq, or_comm]
      simp only [unpassed.1, unpassed.2, ne_eq, not_false_eq_true, true_and]
    · next passed =>
      constructor
      · exact Or.inl
      · rintro (known | ⟨isVerifier, unpassed, -⟩)
        · exact known
        · exact absurd ⟨isVerifier, unpassed⟩ passed

/-- The blockers are the verifiers among the visited nodes that did not
pass. -/
def NotesBlockers (graph : WorkflowGraph) (visited blockers : Std.ExtTreeSet String) : Prop :=
  ∀ id, id ∈ blockers ↔ id ∈ visited ∧ ∃ node, (nodesById graph)[id]? = some node ∧
      node.nodeKind = .verifier ∧ node.verifierResult ≠ some .passed

theorem NotesBlockers.visit {visited : Std.ExtTreeSet String}
    (notes : NotesBlockers graph visited blockers) (key : String) :
    NotesBlockers graph (visited.insert key) (noteVerifier (nodesById graph) key blockers) := by
  intro id
  rw [mem_noteVerifier, notes id, Graph.mem_insert_iff]
  constructor
  · rintro (⟨known, unpassed⟩ | ⟨node, found, isVerifier, unpassed, rfl⟩)
    · exact ⟨Or.inr known, unpassed⟩
    · have isKey := (mem_of_nodesById found).2
      rw [isKey]
      exact ⟨Or.inl rfl, node, found, isVerifier, unpassed⟩
  · rintro ⟨rfl | known, node, found, isVerifier, unpassed⟩
    · exact Or.inr ⟨node, found, isVerifier, unpassed, (mem_of_nodesById found).2⟩
    · exact Or.inl ⟨known, node, found, isVerifier, unpassed⟩

theorem mem_unpassedUpstreamVerifiers
    (valid : hasErrors (validateGraph graph) = false) {target id : StableId} :
    id ∈ unpassedUpstreamVerifiers graph target.value ↔ UnpassedUpstream graph target id := by
  let sources := Multimap.values (incomingEdgesByTarget graph)
  have start : NotesBlockers graph ∅ ∅ := by
    intro other
    simp only [Std.ExtTreeSet.not_mem_empty, false_and]
  obtain ⟨visited, reaches, notes⟩ := Graph.explore_from _ (fun _ => incoming_eq_nil)
    (NotesBlockers graph) (fun key _ _ _ notes => notes.visit key) target.value
    (length_add_sum_incoming_le graph target.value _) start
  have upstream : id.value ∈ visited ↔ Relation.TransGen (Follows graph) id.value target.value := by
    rw [reaches, ← Relation.transGen_swap]
    have same : Function.swap (Graph.Edge sources) = Follows graph := by
      funext earlier later
      exact propext mem_incoming
    rw [same]
  have listed : id ∈ unpassedUpstreamVerifiers graph target.value ↔ id.value ∈
          Graph.explore sources (noteVerifier (nodesById graph))
            (2 * graph.edges.length) (sources target.value) ∅ ∅ := by
    rw [unpassedUpstreamVerifiers, mem_map]
    constructor
    · rintro ⟨value, member, rfl⟩
      exact Std.ExtTreeSet.mem_toList.mp member
    · intro member
      exact ⟨id.value, Std.ExtTreeSet.mem_toList.mpr member, rfl⟩
  rw [listed, notes id.value, upstream, UnpassedUpstream, and_comm]
  apply and_congr_left
  intro _
  constructor
  · rintro ⟨node, found, unpassed⟩
    obtain ⟨member, sameValue⟩ := mem_of_nodesById found
    exact ⟨node, member, congrArg StableId.mk sameValue, unpassed⟩
  · rintro ⟨node, member, rfl, unpassed⟩
    exact ⟨node, nodesById_of_mem valid member, unpassed⟩

theorem sorted_unpassedUpstreamVerifiers (graph : WorkflowGraph) (target : String) :
    ((unpassedUpstreamVerifiers graph target).map StableId.value).Pairwise (· < ·) := by
  rw [unpassedUpstreamVerifiers, map_value_map_mk]
  refine List.Pairwise.imp ?_ Std.ExtTreeSet.ordered_toList
  intro left right before
  exact compare_lt_iff_lt.mp before

end Search

section Steps

variable (graph : WorkflowGraph) (context : GraphDryRunContext)

def GraphDryRunContext.evaluationOf (node : GraphNode) : Option GraphOperationEvaluation :=
  operationEvaluationOf (operationEvaluationsByRef context.operationEvaluations) node

/-- The operation of the node may mutate, by its contract if that was
evaluated. -/
def GraphDryRunContext.mutationCapable (node : GraphNode) : Bool :=
  effectiveMutationCapable node (context.evaluationOf node)

def stepOf (entry : StableId × Nat) : Option GraphDryRunStep :=
  (nodesById graph)[entry.1.value]?.map fun node =>
    dryRunStep graph node entry.1 entry.2 (context.evaluationOf node)
      context.requireOperationContracts

variable {graph context}

theorem steps_planNode (report : GraphDryRunReport) (entry : StableId × Nat) :
    (planNode graph context report entry).steps =
      report.steps ++ (stepOf graph context entry).toList := by
  rw [planNode, stepOf]
  cases (nodesById graph)[entry.1.value]? with
  | none => exact (append_nil _).symm
  | some node => rfl

theorem steps_foldl_planNode (entries : List (StableId × Nat)) (report : GraphDryRunReport) :
    (entries.foldl (planNode graph context) report).steps =
      report.steps ++ entries.filterMap (stepOf graph context) := by
  induction entries generalizing report with
  | nil => exact (append_nil _).symm
  | cons entry rest ih =>
    rw [foldl_cons, ih, steps_planNode, append_assoc]
    cases isStep : stepOf graph context entry with
    | none => rw [filterMap_cons_none isStep]; rfl
    | some step => rw [filterMap_cons_some isStep]; rfl

theorem steps_dryRun (valid : hasErrors (validateGraph graph) = false) :
    (dryRunGraphWithContext graph context).steps =
      (topologicalOrder graph).zipIdx.filterMap (stepOf graph context) := by
  rw [dryRunGraphWithContext, if_neg (by rw [valid]; exact Bool.false_ne_true)]
  exact steps_foldl_planNode _ _

theorem map_nodeId_filterMap {entries : List (StableId × Nat)}
    (known : ∀ entry ∈ entries, ∃ node, (nodesById graph)[entry.1.value]? = some node) :
    (entries.filterMap (stepOf graph context)).map GraphDryRunStep.nodeId =
      entries.map Prod.fst := by
  induction entries with
  | nil => rfl
  | cons entry rest ih =>
    obtain ⟨node, found⟩ := known entry mem_cons_self
    have isStep : stepOf graph context entry = some (dryRunStep graph node entry.1 entry.2
              (context.evaluationOf node) context.requireOperationContracts) := by
      rw [stepOf, found]
      rfl
    rw [filterMap_cons_some isStep, map_cons, map_cons,
      ih fun other member => known other (mem_cons_of_mem _ member)]
    rfl

theorem steps_perm (valid : hasErrors (validateGraph graph) = false) :
    ((dryRunGraphWithContext graph context).steps.map GraphDryRunStep.nodeId).Perm
      (graph.nodes.map GraphNode.nodeId) := by
  have perm := topologicalOrder_perm valid
  have known : ∀ entry ∈ (topologicalOrder graph).zipIdx, ∃ node,
        (nodesById graph)[entry.1.value]? = some node := by
    intro entry member
    have ordered : entry.1 ∈ topologicalOrder graph := fst_mem_of_mem_zipIdx member
    obtain ⟨node, isNode, same⟩ := List.mem_map.mp (perm.subset (mem_map_of_mem ordered))
    exact ⟨node, same ▸ nodesById_of_mem valid isNode⟩
  have ids := perm.map StableId.mk
  have identity : (topologicalOrder graph).map (StableId.mk ∘ StableId.value) =
        topologicalOrder graph := map_id _
  rw [map_map, map_map, identity] at ids
  rw [steps_dryRun valid, map_nodeId_filterMap known, zipIdx_map_fst]
  exact ids

theorem exists_of_mem_steps
    (valid : hasErrors (validateGraph graph) = false) {step : GraphDryRunStep}
    (member : step ∈ (dryRunGraphWithContext graph context).steps) :
    ∃ node ∈ graph.nodes, ∃ index, step = dryRunStep graph node node.nodeId index
      (context.evaluationOf node) context.requireOperationContracts := by
  rw [steps_dryRun valid, mem_filterMap] at member
  obtain ⟨entry, -, isStep⟩ := member
  rw [stepOf, Option.map_eq_some_iff] at isStep
  obtain ⟨node, found, rfl⟩ := isStep
  obtain ⟨isNode, sameValue⟩ := mem_of_nodesById found
  have sameId : node.nodeId = entry.1 := congrArg StableId.mk sameValue
  exact ⟨node, isNode, entry.2, by rw [sameId]⟩

end Steps

/-- The step lists the unpassed verifiers upstream, in order, and is blocked
while there is one. -/
structure VerifierGated (graph : WorkflowGraph) (step : GraphDryRunStep) : Prop where
  sorted : (step.blockedBy.map StableId.value).Pairwise (· < ·)
  mem_iff : ∀ id, id ∈ step.blockedBy ↔ UnpassedUpstream graph step.nodeId id
  held : step.blockedBy ≠ [] → step.status = .blocked

/-- Every node of a valid graph has one step, and those of operations that may
mutate are gated by the verifiers upstream. -/
theorem verifiers_gate_mutations
    (graph : WorkflowGraph)
    (context : GraphDryRunContext)
    (valid : hasErrors (validateGraph graph) = false) :
    ((dryRunGraphWithContext graph context).steps.map GraphDryRunStep.nodeId).Perm
      (graph.nodes.map GraphNode.nodeId) ∧
    ∀ node ∈ graph.nodes,
      node.nodeKind = .operation →
      context.mutationCapable node = true →
      ∀ step ∈ (dryRunGraphWithContext graph context).steps,
        step.nodeId = node.nodeId →
        VerifierGated graph step := by
  refine ⟨steps_perm valid, ?_⟩
  intro node member isOperation mayMutate step isStep sameId
  obtain ⟨stepNode, stepMember, index, rfl⟩ := exists_of_mem_steps valid isStep
  have same : stepNode = node := inj_on_of_nodup_map (nodup_of_valid valid) stepMember member
      (congrArg StableId.value sameId)
  subst same
  have blockers : blockersOf graph stepNode stepNode.nodeId (context.evaluationOf stepNode) =
        unpassedUpstreamVerifiers graph stepNode.nodeId.value := if_pos ⟨isOperation, mayMutate⟩
  refine ⟨?_, ?_, ?_⟩
  · rw [dryRunStep, blockers]
    exact sorted_unpassedUpstreamVerifiers graph _
  · intro id
    rw [dryRunStep, blockers]
    exact mem_unpassedUpstreamVerifiers valid
  · intro nonempty
    apply if_pos
    rw [stepBlocked, Bool.or_eq_true, Bool.not_eq_true', isEmpty_eq_false_iff]
    exact Or.inr nonempty

namespace Sample

theorem gatedGraph_valid : hasErrors (validateGraph gatedGraph) = false := by
  have acyclic : validateCycles gatedGraph = [] := by
    rw [validateCycles, gatedGraph_order]
    rfl
  rw [validateGraph, acyclic]
  decide +kernel

end Sample

/-- The step of the operation lists the verifier. -/
theorem verifiers_gate_mutations_unknown :
    ∃ step ∈ (dryRunGraphWithContext Sample.gatedGraph ⟨[], false⟩).steps,
      step.nodeId = ⟨"o"⟩ ∧ VerifierGated Sample.gatedGraph step ∧ step.status = .blocked := by
  obtain ⟨perm, gated⟩ := verifiers_gate_mutations Sample.gatedGraph ⟨[], false⟩
      Sample.gatedGraph_valid
  have listed : StableId.mk "o" ∈ Sample.gatedGraph.nodes.map GraphNode.nodeId := mem_cons_self
  obtain ⟨step, member, isStep⟩ := List.mem_map.mp (perm.symm.subset listed)
  have held := gated _ mem_cons_self rfl rfl step member isStep
  refine ⟨step, member, isStep, held, held.held ?_⟩
  have blocks : (⟨"v"⟩ : StableId) ∈ step.blockedBy := by
    rw [held.mem_iff, isStep]
    exact ⟨⟨_, mem_cons_of_mem _ mem_cons_self, rfl, rfl, nofun⟩,
        .single ⟨_, mem_cons_self, rfl, rfl⟩⟩
  exact ne_nil_of_mem blocks

end ForgeCore.WorkflowGraphs
