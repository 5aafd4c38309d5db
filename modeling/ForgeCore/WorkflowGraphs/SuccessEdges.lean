import ForgeCore.WorkflowGraphs.VerifierGating

/-!
# Edges that require success

The dry run does not look at the sources of such an edge: its target is
blocked only by what holds back the target itself.
-/

namespace ForgeCore.WorkflowGraphs

open List

variable {graph : WorkflowGraph} {context : GraphDryRunContext} {node : GraphNode}

/-- What holds a node back, told by the graph and the context. -/
def HeldBack (graph : WorkflowGraph) (context : GraphDryRunContext) (node : GraphNode) : Prop :=
  (node.nodeKind = .operation ∧
      ((context.evaluationOf node = none ∧ context.requireOperationContracts = true) ∨
        ∃ evaluation, context.evaluationOf node = some evaluation ∧
          evaluation.status ∈ [.missing, .invalid, .notReady])) ∨
    (∃ evaluation preflight, context.evaluationOf node = some evaluation ∧
      evaluation.claimPreflight = some preflight ∧ preflight.status = .blocked) ∨
    (node.nodeKind = .operation ∧ context.mutationCapable node = true ∧
      ∃ id, UnpassedUpstream graph node.nodeId id)

variable {evaluation : Option GraphOperationEvaluation}

theorem operationBlockReason_isSome :
    (operationBlockReason node evaluation required).isSome = true ↔ node.nodeKind = .operation ∧
      ((evaluation = none ∧ required = true) ∨
        ∃ found, evaluation = some found ∧ found.status ∈ [.missing, .invalid, .notReady]) := by
  unfold operationBlockReason
  by_cases isOperation : node.nodeKind = .operation
  · rw [if_neg (not_not.mpr isOperation)]
    cases evaluation with
    | none => cases required <;> simp [isOperation]
    | some found => cases known : found.status <;> simp [isOperation, known]
  · simp [isOperation]

theorem claimPreflightBlocked_iff :
    claimPreflightBlocked evaluation = true ↔ ∃ found preflight, evaluation = some found ∧
      found.claimPreflight = some preflight ∧ preflight.status = .blocked := by
  unfold claimPreflightBlocked
  cases evaluation with
  | none => simp
  | some found => cases known : found.claimPreflight <;> simp [known]

section

variable (valid : hasErrors (validateGraph graph) = false)

include valid

theorem blockersOf_isEmpty :
    (blockersOf graph node node.nodeId (context.evaluationOf node)).isEmpty = false ↔
      node.nodeKind = .operation ∧ context.mutationCapable node = true ∧
        ∃ id, UnpassedUpstream graph node.nodeId id := by
  unfold blockersOf GraphDryRunContext.mutationCapable
  split
  · next mutates =>
    simp only [mutates, true_and, isEmpty_eq_false_iff_exists_mem,
      mem_unpassedUpstreamVerifiers valid]
  · next harmless =>
    simp only [isEmpty_nil, Bool.true_eq_false, false_iff]
    rintro ⟨isOperation, mutates, -⟩
    exact harmless ⟨isOperation, mutates⟩

theorem stepBlocked_iff :
    stepBlocked graph node node.nodeId (context.evaluationOf node)
      context.requireOperationContracts = true ↔ HeldBack graph context node := by
  rw [stepBlocked, Bool.or_eq_true, Bool.or_eq_true, Bool.not_eq_true',
    operationBlockReason_isSome, claimPreflightBlocked_iff, blockersOf_isEmpty valid, or_assoc]
  rfl

theorem status_of_mem_steps
    (member : step ∈ (dryRunGraphWithContext graph context).steps) :
    ∃ node ∈ graph.nodes, step.nodeId = node.nodeId ∧
      (step.status = .blocked ↔ HeldBack graph context node) := by
  obtain ⟨node, isNode, index, rfl⟩ := exists_of_mem_steps valid member
  refine ⟨node, isNode, rfl, ?_⟩
  rw [← stepBlocked_iff valid, dryRunStep]
  split
  · simp
  · simp

theorem exists_step (member : node ∈ graph.nodes) :
    ∃ step ∈ (dryRunGraphWithContext graph context).steps, step.nodeId = node.nodeId ∧
      (step.status = .blocked ↔ HeldBack graph context node) := by
  have listed := (@steps_perm graph context valid).symm.subset (mem_map_of_mem member)
  obtain ⟨step, isStep, sameId⟩ := List.mem_map.mp listed
  obtain ⟨other, isNode, stepId, blocked⟩ := status_of_mem_steps valid isStep
  have same : other = node := inj_on_of_nodup_map (nodup_of_valid valid) isNode member
      (congrArg StableId.value (stepId.symm.trans sameId))
  exact ⟨step, isStep, sameId, same ▸ blocked⟩

end

/-- No step is planned behind a blocked one. -/
def HonoursSuccess (graph : WorkflowGraph) (steps : List GraphDryRunStep) : Prop :=
  ∀ step ∈ steps, step.status = .planned → ∀ edge ∈ graph.edges,
    edge.edgeKind = .requiresSuccess → edge.target = step.nodeId →
      ∀ before ∈ steps, before.nodeId = edge.source → before.status ≠ .blocked

/-- The dry run honours success edges exactly where whatever holds their
sources back also holds back their targets. -/
theorem success_edges_honoured_iff (graph : WorkflowGraph) (context : GraphDryRunContext)
    (valid : hasErrors (validateGraph graph) = false) :
    HonoursSuccess graph (dryRunGraphWithContext graph context).steps ↔
      ∀ edge ∈ graph.edges, edge.edgeKind = .requiresSuccess →
        ∀ source ∈ graph.nodes, source.nodeId = edge.source →
          ∀ target ∈ graph.nodes, target.nodeId = edge.target →
            HeldBack graph context source → HeldBack graph context target := by
  constructor
  · intro honours edge isEdge success source isSource sourceId target isTarget targetId held
    obtain ⟨before, isBefore, beforeId, beforeBlocked⟩ :=
      @exists_step graph context source valid isSource
    obtain ⟨step, isStep, stepId, stepBlocked⟩ := @exists_step graph context target valid isTarget
    rw [← stepBlocked]
    cases known : step.status with
    | blocked => rfl
    | planned =>
      have unblocked :=
        honours step isStep known edge isEdge success (targetId.symm.trans stepId.symm) before
          isBefore (beforeId.trans sourceId)
      exact absurd (beforeBlocked.mpr held) unblocked
  · intro carried step isStep planned edge isEdge success isTarget before isBefore isSource blocked
    obtain ⟨source, sourceIn, sourceId, sourceHeld⟩ := status_of_mem_steps valid isBefore
    obtain ⟨target, targetIn, targetId, targetHeld⟩ := status_of_mem_steps valid isStep
    have held :=
      carried edge isEdge success source sourceIn (sourceId.symm.trans isSource) target targetIn
        (targetId.symm.trans isTarget.symm) (sourceHeld.mp blocked)
    rw [targetHeld.mpr held] at planned
    cases planned

namespace Sample

def probedGraph : WorkflowGraph :=
  { gatedGraph with
    nodes :=
      [⟨⟨"o"⟩, .operation, some ⟨"r"⟩, false, [], none⟩, ⟨⟨"p"⟩, .evalProbe, none, false, [], none⟩]
    edges := [⟨⟨"o"⟩, ⟨"p"⟩, .requiresSuccess⟩] }

/-- The same edge between two operations. -/
def chainedGraph : WorkflowGraph :=
  { probedGraph with
    nodes :=
      [⟨⟨"o"⟩, .operation, some ⟨"r"⟩, false, [], none⟩,
        ⟨⟨"p"⟩, .operation, some ⟨"s"⟩, false, [], none⟩] }

theorem probedGraph_order : topologicalOrderIfAcyclic probedGraph = some [⟨"o"⟩, ⟨"p"⟩] := by
  have size : (nodeIds probedGraph).size = 2 := by decide +kernel
  have first : (adjacencyOf probedGraph).pending.ready.toList.head? = some "o" := by
    decide +kernel
  rw [topologicalOrderIfAcyclic, size, Graph.place_of_head first,
    @Graph.place_of_head _ "p" _ _ _ _ (by decide +kernel), Graph.place_of_nil (by decide +kernel)]
  rfl

theorem probedGraph_valid : hasErrors (validateGraph probedGraph) = false := by
  have acyclic : validateCycles probedGraph = [] := by
    rw [validateCycles, probedGraph_order]
    rfl
  rw [validateGraph, acyclic]
  decide +kernel

theorem chainedGraph_valid : hasErrors (validateGraph chainedGraph) = false := by
  have order : topologicalOrderIfAcyclic chainedGraph = some [⟨"o"⟩, ⟨"p"⟩] := probedGraph_order
  have acyclic : validateCycles chainedGraph = [] := by
    rw [validateCycles, order]
    rfl
  rw [validateGraph, acyclic]
  decide +kernel

theorem operation_held : HeldBack probedGraph ⟨[], true⟩
    ⟨⟨"o"⟩, .operation, some ⟨"r"⟩, false, [], none⟩ :=
  Or.inl ⟨rfl, Or.inl ⟨by decide +kernel, rfl⟩⟩

theorem probe_free : ¬ HeldBack probedGraph ⟨[], true⟩
    ⟨⟨"p"⟩, .evalProbe, none, false, [], none⟩ := by
  rintro (⟨isOperation, -⟩ | ⟨evaluation, preflight, known, -⟩ | ⟨isOperation, -⟩)
  · cases isOperation
  · cases known
  · cases isOperation

end Sample

/-- The operation is blocked because its contract is missing, and the probe
that requires its success is planned. -/
theorem success_edge_ignored :
    hasErrors (validateGraph Sample.probedGraph) = false ∧ ¬ HonoursSuccess Sample.probedGraph
        (dryRunGraphWithContext Sample.probedGraph ⟨[], true⟩).steps := by
  refine ⟨Sample.probedGraph_valid, ?_⟩
  intro honours
  obtain ⟨before, isBefore, beforeId, beforeBlocked⟩ :=
    @exists_step _ ⟨[], true⟩ _ Sample.probedGraph_valid mem_cons_self
  obtain ⟨step, isStep, stepId, stepBlocked⟩ := @exists_step _ ⟨[], true⟩ _ Sample.probedGraph_valid
      (mem_cons_of_mem _ mem_cons_self)
  have unblocked : step.status ≠ .blocked := fun blocked =>
    Sample.probe_free (stepBlocked.mp blocked)
  have planned : step.status = .planned := by
    cases known : step.status with
    | planned => rfl
    | blocked => exact absurd known unblocked
  exact honours step isStep planned _ mem_cons_self rfl stepId.symm before isBefore beforeId
      (beforeBlocked.mpr Sample.operation_held)

/-- Without their contracts both operations are held back, so the second one is
not planned behind the first. -/
theorem success_edges_honoured_iff_chained :
    hasErrors (validateGraph Sample.chainedGraph) = false ∧
      (∀ node ∈ Sample.chainedGraph.nodes, HeldBack Sample.chainedGraph ⟨[], true⟩ node) ∧
      HonoursSuccess Sample.chainedGraph
        (dryRunGraphWithContext Sample.chainedGraph ⟨[], true⟩).steps := by
  have held : ∀ node ∈ Sample.chainedGraph.nodes,
      HeldBack Sample.chainedGraph ⟨[], true⟩ node := by
    intro node member
    rcases List.mem_pair.mp member with rfl | rfl
    · exact Or.inl ⟨rfl, Or.inl ⟨by decide +kernel, rfl⟩⟩
    · exact Or.inl ⟨rfl, Or.inl ⟨by decide +kernel, rfl⟩⟩
  refine ⟨Sample.chainedGraph_valid, held,
    (success_edges_honoured_iff _ _ Sample.chainedGraph_valid).mpr ?_⟩
  intro edge _ _ source _ _ target isTarget _ _
  exact held target isTarget

end ForgeCore.WorkflowGraphs
