import ForgeCore.Library.Worklist
import ForgeCore.WorkflowGraphs.Contract

/-!
# Dry runs of workflow graphs

The steps that a graph would take, in topological order, and what blocks each
of them.
-/

namespace ForgeCore.WorkflowGraphs

inductive GraphOperationStatus where
  | ready
  | safeReadOnly
  | notReady
  | missing
  | invalid
deriving DecidableEq, Repr

inductive GraphClaimPreflightStatus where
  | passed
  | blocked
deriving DecidableEq, Repr

structure GraphClaimPreflightBlock where
  blockedPath : RepoPath
  blockingClaimId : String
  claimant : StableId
  conflictCode : String
deriving DecidableEq, Repr

structure GraphClaimPreflightEvaluation where
  status : GraphClaimPreflightStatus
  agentId : Option StableId
  targets : List RepoPath
  governedBySelf : List RepoPath
  ungoverned : List RepoPath
  blocks : List GraphClaimPreflightBlock
  reasons : List String
deriving DecidableEq, Repr

/-- What is known of an operation before it runs. -/
structure GraphOperationEvaluation where
  operationRef : RepoPath
  contractId : Option StableId
  mutationCapable : Bool
  runtimeReady : Bool
  planAllowed : Bool
  status : GraphOperationStatus
  previewStatus : Option String
  readyStatus : Option String
  blockingReasons : List String
  claimPreflight : Option GraphClaimPreflightEvaluation
  touchedRefs : List RepoPath
deriving DecidableEq, Repr

/-- The evaluations, and whether every operation needs one. -/
structure GraphDryRunContext where
  operationEvaluations : List GraphOperationEvaluation
  requireOperationContracts : Bool
deriving DecidableEq, Repr

/-- The first evaluation of a reference counts. -/
def operationEvaluationsByRef (evaluations : List GraphOperationEvaluation) :
    Std.ExtTreeMap String GraphOperationEvaluation :=
  evaluations.foldl (fun byRef evaluation =>
      byRef.insertIfNew evaluation.operationRef.value evaluation) ∅

def operationEvaluationOf (evaluations : Std.ExtTreeMap String GraphOperationEvaluation)
    (node : GraphNode) : Option GraphOperationEvaluation :=
  match node.operationRef with
  | none => none
  | some reference => evaluations[reference.value]?

def operationStatusDiagnostics (reference : String) : GraphOperationStatus → List GraphDiagnostic
  | .missing =>
    [.error .graphMissingOperationContract ("operation_ref." ++ reference)
      ("operation_ref " ++ reference ++ " could not be read")]
  | .invalid =>
    [.error .graphInvalidOperationContract ("operation_ref." ++ reference)
      ("operation_ref " ++ reference ++ " could not be parsed or evaluated")]
  | .notReady =>
    [.error .graphOperationNotReady ("operation_ref." ++ reference)
      ("operation_ref " ++ reference ++ " is not ready for graph planning")]
  | .ready => []
  | .safeReadOnly => []

def operationEvaluationDiagnosticsFrom : Std.ExtTreeSet String → List GraphOperationEvaluation →
      List GraphDiagnostic
  | _, [] => []
  | seen, evaluation :: rest =>
    let reference := evaluation.operationRef.value
    (if seen.contains reference then
      [.error .graphDuplicateOperationEvaluation ("operation_ref." ++ reference)
        ("operation_ref " ++ reference ++ " was evaluated more than once")]
    else []) ++
    operationStatusDiagnostics reference evaluation.status ++
    operationEvaluationDiagnosticsFrom (seen.insert reference) rest

def operationEvaluationDiagnostics
    (evaluations : List GraphOperationEvaluation) : List GraphDiagnostic :=
  operationEvaluationDiagnosticsFrom ∅ evaluations

def mutationDeclarationDiagnostic (node : GraphNode)
    (operationEvaluation : Option GraphOperationEvaluation) : List GraphDiagnostic :=
  match operationEvaluation with
  | none => []
  | some evaluation =>
    if node.nodeKind ≠ .operation ∨ node.mutationCapable = evaluation.mutationCapable then []
    else
      [.warning .graphOperationMutationDeclarationMismatch
        ("nodes." ++ node.nodeId.value ++ ".mutation_capable")
        ("operation node " ++ node.nodeId.value ++
          " declared mutation_capable=" ++ toString node.mutationCapable ++
          ", but OperationContract " ++ evaluation.operationRef.value ++
          " derives mutation_capable=" ++ toString evaluation.mutationCapable)]

def claimPreflightDiagnostic (node : GraphNode)
    (operationEvaluation : Option GraphOperationEvaluation) : List GraphDiagnostic :=
  match operationEvaluation.bind GraphOperationEvaluation.claimPreflight with
  | none => []
  | some preflight =>
    if node.nodeKind ≠ .operation ∨ preflight.status ≠ .blocked then []
    else
      [.error .graphClaimPreflightBlocked ("nodes." ++ node.nodeId.value ++ ".claim_preflight")
        ("operation node " ++ node.nodeId.value ++ " failed claim preflight for " ++
          toString preflight.targets.length ++ " target(s)")]

def missingOperationDiagnostic (node : GraphNode)
    (operationEvaluation : Option GraphOperationEvaluation)
    (requireOperationContracts : Bool) : List GraphDiagnostic :=
  if !requireOperationContracts || node.nodeKind ≠ .operation ||
      operationEvaluation.isSome then []
  else
    match node.operationRef with
    | none => []
    | some reference =>
      [.error .graphMissingOperationContract ("nodes." ++ node.nodeId.value ++ ".operation_ref")
        ("operation node " ++ node.nodeId.value ++ " requires operation_ref " ++ reference.value ++
          " to be loaded before dry-run")]

/-- The sources of the edges to every node, sorted and each once. -/
def incomingEdgesByTarget (graph : WorkflowGraph) : Std.ExtTreeMap String (List String) :=
  (Multimap.pushAll ∅ (graph.edges.map fun edge =>
        (edge.target.value, edge.source.value))).map
    fun _ sources =>
      (sources.mergeSort fun left right => left ≤ right).destutter (· ≠ ·)

/-- A verifier that did not pass blocks. -/
def noteVerifier (nodes : Std.ExtTreeMap String GraphNode) (id : String)
    (blockers : Std.ExtTreeSet String) : Std.ExtTreeSet String :=
  match nodes[id]? with
  | none => blockers
  | some node =>
    if node.nodeKind = .verifier ∧ node.verifierResult ≠ some .passed then
      blockers.insert node.nodeId.value
    else
      blockers

/-- The least source is on top of the stack.  Every edge is pushed at most
once for the target and once for the search. -/
def unpassedUpstreamVerifiers (graph : WorkflowGraph) (targetId : String) : List StableId :=
  let nodes := nodesById graph
  let incoming := incomingEdgesByTarget graph
  let blockers := Graph.explore (Multimap.values incoming) (noteVerifier nodes)
      (2 * graph.edges.length) (Multimap.values incoming targetId) ∅ ∅
  blockers.toList.map StableId.mk

inductive GraphDryRunStatus where
  | planned
  | blocked
  | invalid
deriving DecidableEq, Repr

inductive GraphDryRunStepStatus where
  | planned
  | blocked
deriving DecidableEq, Repr

inductive GraphDryRunReason where
  | topologicalOrder
  | blockedByVerifier
  | operationContractMissing
  | operationContractInvalid
  | operationNotReady
  | claimPreflightBlocked
deriving DecidableEq, Repr

inductive GraphMutationSource where
  | graphDeclaration
  | operationContract
deriving DecidableEq, Repr

/-- What the dry run plans for one node. -/
structure GraphDryRunStep where
  stepIndex : Nat
  nodeId : StableId
  nodeKind : GraphNodeKind
  operationRef : Option RepoPath
  declaredMutationCapable : Bool
  mutationCapable : Bool
  mutationSource : GraphMutationSource
  operationContractId : Option StableId
  operationStatus : Option GraphOperationStatus
  operationPreviewStatus : Option String
  operationReadyStatus : Option String
  operationRuntimeReady : Option Bool
  operationPlanAllowed : Option Bool
  operationBlockingReasons : List String
  operationTouchedRefs : List RepoPath
  claimPreflight : Option GraphClaimPreflightEvaluation
  status : GraphDryRunStepStatus
  reasons : List GraphDryRunReason
  blockedBy : List StableId
deriving DecidableEq, Repr

def operationBlockReason (node : GraphNode) (operationEvaluation : Option GraphOperationEvaluation)
    (requireOperationContracts : Bool) : Option GraphDryRunReason :=
  if node.nodeKind ≠ .operation then none
  else
    match operationEvaluation with
    | none =>
      if requireOperationContracts then some .operationContractMissing
      else none
    | some evaluation =>
      match evaluation.status with
      | .missing => some .operationContractMissing
      | .invalid => some .operationContractInvalid
      | .notReady => some .operationNotReady
      | .ready => none
      | .safeReadOnly => none

def dryRunStepReasons (operationBlockReason : Option GraphDryRunReason)
    (claimPreflightBlocked : Bool) (blockedBy : List StableId) : List GraphDryRunReason :=
  let reasons := operationBlockReason.toList ++
      (if claimPreflightBlocked then [.claimPreflightBlocked] else []) ++
      (if blockedBy.isEmpty then [] else [.blockedByVerifier])
  if reasons.isEmpty then [.topologicalOrder] else reasons

/-- The contract of the operation decides over the declaration of the node. -/
def effectiveMutationCapable (node : GraphNode)
    (operationEvaluation : Option GraphOperationEvaluation) : Bool :=
  match operationEvaluation with
  | none => node.mutationCapable
  | some evaluation => evaluation.mutationCapable

def claimPreflightBlocked (operationEvaluation : Option GraphOperationEvaluation) : Bool :=
  match operationEvaluation.bind GraphOperationEvaluation.claimPreflight with
  | none => false
  | some preflight => preflight.status = .blocked

/-- What blocks a node: for an operation that may mutate, the verifiers. -/
def blockersOf (graph : WorkflowGraph) (node : GraphNode) (nodeId : StableId)
    (operationEvaluation : Option GraphOperationEvaluation) : List StableId :=
  if node.nodeKind = .operation ∧ effectiveMutationCapable node operationEvaluation then
    unpassedUpstreamVerifiers graph nodeId.value
  else
    []

def stepBlocked (graph : WorkflowGraph) (node : GraphNode) (nodeId : StableId)
    (operationEvaluation : Option GraphOperationEvaluation)
    (requireOperationContracts : Bool) : Bool :=
  (operationBlockReason node operationEvaluation requireOperationContracts).isSome ||
    claimPreflightBlocked operationEvaluation ||
    !(blockersOf graph node nodeId operationEvaluation).isEmpty

def dryRunStep (graph : WorkflowGraph) (node : GraphNode) (nodeId : StableId) (stepIndex : Nat)
    (operationEvaluation : Option GraphOperationEvaluation)
    (requireOperationContracts : Bool) : GraphDryRunStep :=
  let blockedBy := blockersOf graph node nodeId operationEvaluation
  { stepIndex := stepIndex
    nodeId := nodeId
    nodeKind := node.nodeKind
    operationRef := node.operationRef
    declaredMutationCapable := node.mutationCapable
    mutationCapable := effectiveMutationCapable node operationEvaluation
    mutationSource :=
      if operationEvaluation.isSome then .operationContract
      else .graphDeclaration
    operationContractId := operationEvaluation.bind GraphOperationEvaluation.contractId
    operationStatus := operationEvaluation.map GraphOperationEvaluation.status
    operationPreviewStatus := operationEvaluation.bind GraphOperationEvaluation.previewStatus
    operationReadyStatus := operationEvaluation.bind GraphOperationEvaluation.readyStatus
    operationRuntimeReady := operationEvaluation.map GraphOperationEvaluation.runtimeReady
    operationPlanAllowed := operationEvaluation.map GraphOperationEvaluation.planAllowed
    operationBlockingReasons :=
      (operationEvaluation.map GraphOperationEvaluation.blockingReasons).getD []
    operationTouchedRefs := (operationEvaluation.map GraphOperationEvaluation.touchedRefs).getD []
    claimPreflight := operationEvaluation.bind GraphOperationEvaluation.claimPreflight
    status :=
      if stepBlocked graph node nodeId operationEvaluation
          requireOperationContracts then .blocked
      else .planned
    reasons :=
      dryRunStepReasons (operationBlockReason node operationEvaluation requireOperationContracts)
        (claimPreflightBlocked operationEvaluation) blockedBy
    blockedBy := blockedBy }

/-- The plan for the whole graph. -/
structure GraphDryRunReport where
  graphId : StableId
  status : GraphDryRunStatus
  steps : List GraphDryRunStep
  diagnostics : List GraphDiagnostic
  blockedNodeCount : Nat
deriving DecidableEq, Repr

def planNode (graph : WorkflowGraph) (context : GraphDryRunContext)
    (report : GraphDryRunReport) (entry : StableId × Nat) : GraphDryRunReport :=
  match (nodesById graph)[entry.1.value]? with
  | none => report
  | some node =>
    let evaluation :=
      operationEvaluationOf (operationEvaluationsByRef context.operationEvaluations) node
    let step := dryRunStep graph node entry.1 entry.2 evaluation context.requireOperationContracts
    { report with
      steps := report.steps ++ [step]
      diagnostics := report.diagnostics ++ mutationDeclarationDiagnostic node evaluation ++
          claimPreflightDiagnostic node evaluation ++ missingOperationDiagnostic node evaluation
            context.requireOperationContracts
      blockedNodeCount := report.blockedNodeCount + if step.status = .blocked then 1 else 0 }

def planNodes (graph : WorkflowGraph) (context : GraphDryRunContext) : GraphDryRunReport :=
  (topologicalOrder graph).zipIdx.foldl (planNode graph context)
    { graphId := graph.graphId
      status := .planned
      steps := []
      diagnostics :=
        validateGraph graph ++ operationEvaluationDiagnostics context.operationEvaluations
      blockedNodeCount := 0 }

def dryRunGraphWithContext (graph : WorkflowGraph)
    (context : GraphDryRunContext) : GraphDryRunReport :=
  if hasErrors (validateGraph graph) then
    { graphId := graph.graphId
      status := .invalid
      steps := []
      diagnostics := validateGraph graph
      blockedNodeCount := 0 }
  else
    let report := planNodes graph context
    { report with
      status :=
        if report.blockedNodeCount = 0 ∧ !hasErrors report.diagnostics then
          .planned
        else
          .blocked }

end ForgeCore.WorkflowGraphs
