import ForgeCore.Common
import ForgeCore.Library.Text
import ForgeCore.Library.Collect
import ForgeCore.Library.Kahn
import ForgeCore.Library.Multimap

/-!
# Workflow graphs

The contract of a workflow graph, its topological order and its validation.
Fields that neither the validation nor the dry run reads are left out.
-/

namespace ForgeCore.WorkflowGraphs

open Text

inductive GraphNodeKind where
  | operation
  | verifier
  | humanGate
  | memoryRead
  | memoryWriteCandidate
  | protocolCall
  | evalProbe
deriving DecidableEq, Repr

inductive GraphVerifierResult where
  | passed
  | failed
  | blocked
  | unknown
deriving DecidableEq, Repr

inductive GraphEdgeKind where
  | requiresSuccess
  | requiresCompletion
  | blocksUntilPassed
deriving DecidableEq, Repr

/-- A node of a workflow. -/
structure GraphNode where
  nodeId : StableId
  nodeKind : GraphNodeKind
  operationRef : Option RepoPath
  mutationCapable : Bool
  verifies : List StableId
  verifierResult : Option GraphVerifierResult
deriving DecidableEq, Repr

/-- An edge, and what it asks of its source. -/
structure GraphEdge where
  source : StableId
  target : StableId
  edgeKind : GraphEdgeKind
deriving DecidableEq, Repr

structure GraphBudget where
  nodeId : Option StableId
deriving DecidableEq, Repr

/-- A workflow as it is declared. -/
structure WorkflowGraph where
  schemaVersion : String
  kind : String
  graphId : StableId
  nodes : List GraphNode
  edges : List GraphEdge
  budgets : List GraphBudget
deriving DecidableEq, Repr

def workflowGraphSchemaVersion : String := "0.1"

def workflowGraphKind : String := "workflow_graph"

inductive DiagnosticSeverity where
  | error
  | warning
deriving DecidableEq, Repr

inductive DiagnosticCode where
  | graphEmptyGraphId
  | graphUnsupportedSchemaVersion
  | graphInvalidGraphKind
  | graphEmptyGraph
  | graphEmptyNodeId
  | graphDuplicateNodeId
  | graphEmptyOperationRef
  | graphEmptyEdgeEndpoint
  | graphMissingEdgeEndpoint
  | graphCycleDetected
  | graphDanglingVerifiesRef
  | graphDanglingBudgetNodeRef
  | graphEdgeKindSourceKindMismatch
  | graphDuplicateOperationEvaluation
  | graphMissingOperationContract
  | graphInvalidOperationContract
  | graphOperationNotReady
  | graphOperationMutationDeclarationMismatch
  | graphClaimPreflightBlocked
deriving DecidableEq, Repr

structure GraphDiagnostic where
  severity : DiagnosticSeverity
  code : DiagnosticCode
  path : String
  message : String
deriving DecidableEq, Repr

def GraphDiagnostic.error (code : DiagnosticCode) (path message : String) : GraphDiagnostic :=
  ⟨.error, code, path, message⟩

def GraphDiagnostic.warning (code : DiagnosticCode) (path message : String) : GraphDiagnostic :=
  ⟨.warning, code, path, message⟩

def GraphDiagnostic.isError (diagnostic : GraphDiagnostic) : Bool :=
  diagnostic.severity = .error

def nodeIds (graph : WorkflowGraph) : Std.ExtTreeSet String :=
  Collect.set (fun node => node.nodeId.value) graph.nodes

/-- For each node, how many edges enter it and where they lead. -/
structure Adjacency where
  indegree : Std.ExtTreeMap String Nat
  outgoing : Std.ExtTreeMap String (Std.ExtTreeSet String)

def emptyAdjacency (ids : Std.ExtTreeSet String) : Adjacency where
  indegree := Collect.map (fun id => id) (fun _ => 0) ids.toList
  outgoing := Collect.map (fun id => id) (fun _ => ∅) ids.toList

/-- Parallel edges count once, and edges without a node at both ends are
skipped. -/
def addEdge (ids : Std.ExtTreeSet String) (adjacency : Adjacency)
    (edge : GraphEdge) : Adjacency :=
  if !ids.contains edge.source.value || !ids.contains edge.target.value then
    adjacency
  else
    let children := adjacency.outgoing[edge.source.value]?.getD ∅
    if children.contains edge.target.value then
      adjacency
    else
      { indegree := adjacency.indegree.insert edge.target.value
            (adjacency.indegree[edge.target.value]?.getD 0 + 1)
        outgoing := adjacency.outgoing.insert edge.source.value
            (children.insert edge.target.value) }

def adjacencyOf (graph : WorkflowGraph) : Adjacency :=
  graph.edges.foldl (addEdge (nodeIds graph)) (emptyAdjacency (nodeIds graph))

def Adjacency.children (adjacency : Adjacency) (id : String) : List String :=
  (adjacency.outgoing[id]?.getD ∅).toList

/-- The nodes without an incoming edge are ready at first. -/
def Adjacency.pending (adjacency : Adjacency) : Graph.Pending String where
  counts := adjacency.indegree
  ready := Collect.set Prod.fst (adjacency.indegree.toList.filter fun entry => entry.2 = 0)

def topologicalOrderIfAcyclic (graph : WorkflowGraph) : Option (List StableId) :=
  let ids := nodeIds graph
  let adjacency := adjacencyOf graph
  let order := Graph.place adjacency.children (ids.size + 1) adjacency.pending []
  if order.length = ids.size then some (order.map StableId.mk) else none

def topologicalOrder (graph : WorkflowGraph) : List StableId :=
  (topologicalOrderIfAcyclic graph).getD []

/-- A later node of the same id replaces an earlier one. -/
def nodesById (graph : WorkflowGraph) : Std.ExtTreeMap String GraphNode :=
  Collect.map (fun node => node.nodeId.value) (fun node => node) graph.nodes

def validateGraphIdentity (graph : WorkflowGraph) : List GraphDiagnostic :=
  (if (trim graph.graphId.value).isEmpty then
    [.error .graphEmptyGraphId "graph_id" "graph_id must not be empty"]
  else []) ++
  (if graph.schemaVersion ≠ workflowGraphSchemaVersion then
    [.error .graphUnsupportedSchemaVersion "schema_version"
      ("workflow graph schema_version must be " ++ workflowGraphSchemaVersion)]
  else []) ++
  (if graph.kind ≠ workflowGraphKind then
    [.error .graphInvalidGraphKind "kind" ("workflow graph kind must be " ++ workflowGraphKind)]
  else [])

/-- What is reported about one node, after the ids before it. -/
def nodeDiagnostics (seen : Std.ExtTreeSet String) (index : Nat)
    (node : GraphNode) : List GraphDiagnostic :=
  let nodePath := "nodes." ++ toString index ++ ".node_id"
  (if (trim node.nodeId.value).isEmpty then
    [.error .graphEmptyNodeId nodePath "node_id must not be empty"]
  else []) ++
  (if seen.contains node.nodeId.value then
    [.error .graphDuplicateNodeId nodePath ("node_id " ++ node.nodeId.value ++ " must be unique")]
  else []) ++
  (if node.nodeKind = .operation &&
      node.operationRef.all (fun reference => (trim reference.value).isEmpty)
  then
    [.error .graphEmptyOperationRef ("nodes." ++ toString index ++ ".operation_ref")
      "operation nodes require non-empty operation_ref"]
  else [])

def validateNodesFrom : Nat → Std.ExtTreeSet String → List GraphNode → List GraphDiagnostic
  | _, _, [] => []
  | index, seen, node :: rest =>
    nodeDiagnostics seen index node ++
      validateNodesFrom (index + 1) (seen.insert node.nodeId.value) rest

def validateNodes (graph : WorkflowGraph) : List GraphDiagnostic :=
  (if graph.nodes.isEmpty then
    [.error .graphEmptyGraph "nodes" "workflow graph must contain at least one node"]
  else []) ++
  validateNodesFrom 0 ∅ graph.nodes

def endpointDiagnostics (ids : Std.ExtTreeSet String) (index : Nat)
    (side : String) (endpoint : StableId) : List GraphDiagnostic :=
  let path := "edges." ++ toString index ++ "." ++ side
  if (trim endpoint.value).isEmpty then
    [.error .graphEmptyEdgeEndpoint path ("edge " ++ side ++ " endpoint must not be empty")]
  else if !ids.contains endpoint.value then
    [.error .graphMissingEdgeEndpoint path ("edge " ++ side ++ " endpoint " ++ endpoint.value ++
        " does not reference a node")]
  else []

def edgeDiagnostics (ids : Std.ExtTreeSet String)
    (entry : GraphEdge × Nat) : List GraphDiagnostic :=
  endpointDiagnostics ids entry.2 "from" entry.1.source ++
    endpointDiagnostics ids entry.2 "to" entry.1.target

def validateEdges (graph : WorkflowGraph) : List GraphDiagnostic :=
  graph.edges.zipIdx.flatMap (edgeDiagnostics (nodeIds graph))

def validateCycles (graph : WorkflowGraph) : List GraphDiagnostic :=
  if graph.nodes.isEmpty then []
  else if (topologicalOrderIfAcyclic graph).isNone then
    [.error .graphCycleDetected "edges" "workflow graph edges must be acyclic"]
  else []

def graphNodeKindName : GraphNodeKind → String
  | .operation => "operation"
  | .verifier => "verifier"
  | .humanGate => "human_gate"
  | .memoryRead => "memory_read"
  | .memoryWriteCandidate => "memory_write_candidate"
  | .protocolCall => "protocol_call"
  | .evalProbe => "eval_probe"

/-- A reference that is not blank names a node. -/
def referenceDiagnostics (ids : Std.ExtTreeSet String)
    (code : DiagnosticCode) (path what : String) (reference : StableId) : List GraphDiagnostic :=
  if (trim reference.value).isEmpty then []
  else if !ids.contains reference.value then
    [.error code path (what ++ " " ++ reference.value ++ " does not reference a node")]
  else []

def verifiesDiagnostics (ids : Std.ExtTreeSet String)
    (entry : GraphNode × Nat) : List GraphDiagnostic :=
  entry.1.verifies.zipIdx.flatMap fun slot =>
    referenceDiagnostics ids .graphDanglingVerifiesRef
      ("nodes." ++ toString entry.2 ++ ".verifies." ++ toString slot.2) "verifies entry" slot.1

def budgetDiagnostics (ids : Std.ExtTreeSet String)
    (entry : GraphBudget × Nat) : List GraphDiagnostic :=
  match entry.1.nodeId with
  | none => []
  | some reference =>
    referenceDiagnostics ids .graphDanglingBudgetNodeRef
      ("budgets." ++ toString entry.2 ++ ".node_id") "budget node_id" reference

/-- Only a verifier can pass. -/
def edgeKindDiagnostics (nodes : Std.ExtTreeMap String GraphNode)
    (entry : GraphEdge × Nat) : List GraphDiagnostic :=
  if entry.1.edgeKind ≠ .blocksUntilPassed then []
  else
    match nodes[entry.1.source.value]? with
    | none => []
    | some source =>
      if source.nodeKind ≠ .verifier then
        [.warning .graphEdgeKindSourceKindMismatch ("edges." ++ toString entry.2 ++ ".edge_kind")
          ("blocks_until_passed edge originates from " ++
            graphNodeKindName source.nodeKind ++ " node " ++ entry.1.source.value ++
            "; only verifier nodes carry a verifier_result, so the edge " ++
            "will be treated as a generic upstream dependency")]
      else []

def validateNodeReferences (graph : WorkflowGraph) : List GraphDiagnostic :=
  graph.nodes.zipIdx.flatMap (verifiesDiagnostics (nodeIds graph)) ++
    graph.budgets.zipIdx.flatMap (budgetDiagnostics (nodeIds graph)) ++
    graph.edges.zipIdx.flatMap (edgeKindDiagnostics (nodesById graph))

def validateGraph (graph : WorkflowGraph) : List GraphDiagnostic :=
  validateGraphIdentity graph ++ validateNodes graph ++
    validateEdges graph ++ validateCycles graph ++ validateNodeReferences graph

def hasErrors (diagnostics : List GraphDiagnostic) : Bool :=
  diagnostics.any GraphDiagnostic.isError

end ForgeCore.WorkflowGraphs
