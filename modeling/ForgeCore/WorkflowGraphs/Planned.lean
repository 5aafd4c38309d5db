import ForgeCore.WorkflowGraphs.SuccessEdges

/-!
# When a dry run is planned

The status of the report is decided by a count and by the diagnostics, which
the loop over the nodes collects apart from each other.
-/

namespace ForgeCore.WorkflowGraphs

open List

variable {graph : WorkflowGraph} {context : GraphDryRunContext} {node : GraphNode}

def GraphDryRunReport.Clean (report : GraphDryRunReport) : Prop :=
  report.blockedNodeCount = 0 ∧ hasErrors report.diagnostics = false

/-- A node that nothing holds back is only warned about. -/
theorem nodeDiagnostics_of_free (free : ¬HeldBack graph context node) :
    let evaluation := context.evaluationOf node
    hasErrors (mutationDeclarationDiagnostic node evaluation) = false ∧
      hasErrors (claimPreflightDiagnostic node evaluation) = false ∧
      hasErrors (missingOperationDiagnostic node evaluation
        context.requireOperationContracts) = false := by
  simp only [HeldBack, not_or] at free
  obtain ⟨operates, unclaimed, -⟩ := free
  refine ⟨?_, ?_, ?_⟩
  · unfold mutationDeclarationDiagnostic
    split
    · rfl
    · split <;> rfl
  · unfold claimPreflightDiagnostic
    split
    · rfl
    · next preflight found =>
      obtain ⟨evaluation, known, isPreflight⟩ := Option.bind_eq_some_iff.mp found
      rw [if_pos (Or.inr fun blocked => unclaimed ⟨_, preflight, known, isPreflight, blocked⟩)]
      rfl
  · unfold missingOperationDiagnostic
    split
    · rfl
    · next missing =>
      simp only [Bool.or_eq_true, not_or, Bool.not_eq_true', Bool.not_eq_false,
        decide_eq_true_eq, not_not, Option.not_isSome_iff_eq_none] at missing
      exact absurd ⟨missing.1.2, Or.inl ⟨missing.2, missing.1.1⟩⟩ operates

section

variable (valid : hasErrors (validateGraph graph) = false)

include valid

theorem planNode_clean (report : GraphDryRunReport) (entry : StableId × Nat) :
    (planNode graph context report entry).Clean ↔ report.Clean ∧
      ∀ node, (nodesById graph)[entry.1.value]? = some node → ¬HeldBack graph context node := by
  rw [planNode]
  cases found : (nodesById graph)[entry.1.value]? with
  | none => simp
  | some node =>
    have isEntry : node.nodeId = entry.1 := congrArg StableId.mk (mem_of_nodesById found).2
    have status : (dryRunStep graph node entry.1 entry.2 (context.evaluationOf node)
        context.requireOperationContracts).status = .blocked ↔ HeldBack graph context node := by
      rw [← stepBlocked_iff valid, isEntry, dryRunStep]
      split <;> simp [*]
    simp only [GraphDryRunReport.Clean, hasErrors_append, Option.some.injEq, forall_eq']
    by_cases held : HeldBack graph context node
    · have blocked := status.mpr held
      simp only [GraphDryRunContext.evaluationOf] at blocked
      simp [held, blocked]
    · have planned := mt status.mp held
      obtain ⟨declared, claimed, present⟩ := nodeDiagnostics_of_free held
      simp only [GraphDryRunContext.evaluationOf] at planned declared claimed present
      simp [held, planned, declared, claimed, present]

theorem foldl_planNode_clean (entries : List (StableId × Nat)) (report : GraphDryRunReport) :
    (entries.foldl (planNode graph context) report).Clean ↔ report.Clean ∧ ∀ entry ∈ entries,
      ∀ node, (nodesById graph)[entry.1.value]? = some node → ¬HeldBack graph context node := by
  induction entries generalizing report with
  | nil => simp
  | cons entry rest ih =>
    rw [foldl_cons, ih, planNode_clean valid, and_assoc, forall_mem_cons]

theorem planNodes_clean : (planNodes graph context).Clean ↔
    hasErrors (operationEvaluationDiagnostics context.operationEvaluations) = false ∧
      ∀ node ∈ graph.nodes, ¬HeldBack graph context node := by
  rw [planNodes, foldl_planNode_clean valid]
  simp only [GraphDryRunReport.Clean, hasErrors_append, valid, true_and]
  refine and_congr_right fun _ => ⟨?_, ?_⟩
  · intro free node member
    obtain ⟨id, ordered, isNode⟩ := List.mem_map.mp
      ((topologicalOrder_perm valid).symm.subset (mem_map_of_mem member))
    obtain ⟨index, inside, rfl⟩ := getElem_of_mem ordered
    exact free (_, index) (mk_mem_zipIdx_iff_getElem?.mpr (getElem?_eq_getElem inside)) node
      (isNode ▸ nodesById_of_mem valid member)
  · intro free entry _ node found
    exact free node (mem_of_nodesById found).1

end

/-- A dry run is planned exactly when the graph validates, the evaluations of
the operations are in order, and nothing holds a node back: no contract, no
claim, and for an operation that may mutate no verifier upstream. -/
theorem dry_run_planned_iff (graph : WorkflowGraph) (context : GraphDryRunContext) :
    (dryRunGraphWithContext graph context).status = .planned ↔
      hasErrors (validateGraph graph) = false ∧
        hasErrors (operationEvaluationDiagnostics context.operationEvaluations) = false ∧
        ∀ node ∈ graph.nodes, ¬HeldBack graph context node := by
  rw [dryRunGraphWithContext]
  cases valid : hasErrors (validateGraph graph) with
  | true => simp
  | false =>
    rw [← planNodes_clean valid, GraphDryRunReport.Clean]
    simp

end ForgeCore.WorkflowGraphs
