import ForgeCore.DomainPacks.Admission
import ForgeCore.Library.Backtrack
import ForgeCore.Library.Kahn

/-!
# Resolution

The backtracking search for one candidate per package under all version
constraints, and the lock that it writes.
-/

namespace ForgeCore.DomainPacks

section Resolution

variable {Version Requirement : Type} (semver : Semver Version Requirement)

/-- A requirement on one package, perhaps on its exact content. -/
structure Constraint (Requirement : Type) where
  requirement : Requirement
  requiredContentDigest : Option String

abbrev Constraints (Requirement : Type) :=
  Std.ExtTreeMap String (List (Constraint Requirement))

abbrev Selection (Version : Type) := Std.ExtTreeMap String (Admitted Version)

/-- Why no package fits, kept for the report. -/
structure SearchFailure where
  code : DomainPackResolutionIssueCode
  path : String
  message : String
deriving DecidableEq, Repr

/-- What stays fixed during the search. -/
structure SearchContext (Version : Type) where
  candidates : Universe Version
  locked : Std.ExtTreeMap String String
  upgradeTargets : List String
  rootCoordinates : List String

def Admitted.dependencies (admitted : Admitted Version) : List DomainPackDependency :=
  admitted.candidate.input.manifest.dependencies

def Admitted.conflicts (admitted : Admitted Version) : List DomainPackConflict :=
  admitted.candidate.input.manifest.conflicts

def requirementExplicitlyAllowsPrerelease (requirement : Requirement) : Bool :=
  (semver.comparatorPrereleases requirement).any fun prerelease =>
    !prerelease.isEmpty

def satisfiesOne (candidate : Admitted Version) (constraint : Constraint Requirement) : Bool :=
  semver.accepts constraint.requirement candidate.version &&
    constraint.requiredContentDigest.all (fun digest =>
      digest = candidate.candidate.package.content.canonicalSha256) &&
    ((semver.prerelease candidate.version).isEmpty ||
      requirementExplicitlyAllowsPrerelease semver constraint.requirement)

def satisfies (candidate : Admitted Version) (constraints : List (Constraint Requirement)) : Bool :=
  constraints.all (satisfiesOne semver candidate)

/-- The locked version first, unless the coordinate is to be upgraded. -/
def choiceOrder (context : SearchContext Version) (key : String)
    (left right : Admitted Version) : Ordering :=
  let lockedVersion :=
    if context.upgradeTargets.contains key then none
    else context.locked[key]?
  let isLocked (candidate : Admitted Version) : Bool := lockedVersion.any fun version =>
      semver.versionText candidate.version = version
  (compare (isLocked right) (isLocked left)).then
    (versionOrder semver left right)

def orderChoices (context : SearchContext Version) (key : String)
    (choices : List (Admitted Version)) : List (Admitted Version) :=
  sortBy (choiceOrder semver context key) choices

def conflictsWithSelected (candidate : Admitted Version) (selected : Selection Version) : Bool :=
  candidate.conflicts.any fun conflict =>
    selected[coordinateKey conflict.pack]?.any fun other =>
      (semver.parseRequirement conflict.versionRequirement).any
        fun requirement => semver.accepts requirement other.version

def selectedConflict (selected : Selection Version) : Bool :=
  selected.toList.any fun entry =>
    conflictsWithSelected semver entry.2 selected

def dependencyKeys (selected : Selection Version) (key : String) : List String :=
  (selected[key]?.map fun candidate =>
    candidate.dependencies.map fun dependency =>
      coordinateKey dependency.pack).getD []

def graphHasCycle (selected : Selection Version) : Bool :=
  (Graph.visitAll (dependencyKeys selected) (selected.size + 1) [] selected.keys []).isNone

def dependentKeys (selected : Selection Version) (key : String) : List String :=
  selected.keys.filter fun other => (dependencyKeys selected other).contains key

def edgeKey (edge : DomainPackResolutionDependencyEdge) : String :=
  edge.source.publisher.value ++ "::" ++ edge.source.name.value ++ "::" ++
    edge.source.version ++ ">" ++ edge.target.publisher.value ++ "::" ++
    edge.target.name.value ++ "::" ++ edge.target.version ++ "|" ++
    edge.requiredContentDigest.getD ""

def dependencyEdge (selected : Selection Version) (key : String)
    (candidate : Admitted Version) (dependency : DomainPackDependency) :
    Except SearchFailure DomainPackResolutionDependencyEdge :=
  match selected[coordinateKey dependency.pack]? with
  | none =>
    .error ⟨.missingDependency, "selection." ++ key ++ ".dependencies",
        "selected dependency is absent"⟩
  | some target =>
    .ok ⟨versionReference (candidateIdentity candidate.candidate),
        versionReference (candidateIdentity target.candidate), dependency.requiredContentDigest⟩

def dependencyEdges (selected : Selection Version) :
    Except SearchFailure (List DomainPackResolutionDependencyEdge) :=
  (selected.toList.flatMap fun entry =>
    entry.2.dependencies.map fun dependency =>
      (entry, dependency)).mapM fun named =>
        dependencyEdge selected named.1.1 named.1.2 named.2

def dependencyCounts (selected : Selection Version) : Graph.Pending String :=
  let counts := selected.map fun _ candidate => candidate.dependencies.length
  { counts
    ready := .ofList ((counts.toList.filter fun entry => entry.2 = 0).map (·.1)) }

def selectionOrder (selected : Selection Version) : List String :=
  Graph.place (dependentKeys selected) (selected.size + 1) (dependencyCounts selected) []

def topologicalEdgesAndOrder (selected : Selection Version) : Except SearchFailure
      (List DomainPackResolutionDependencyEdge × List String) := do
  let edges ← dependencyEdges selected
  let order := selectionOrder selected
  if order.length ≠ selected.size then
    .error ⟨.dependencyCycle, "selection", "selected dependency graph contains a cycle"⟩
  else
    .ok (sortBy (fun left right => compare (edgeKey left) (edgeKey right)) edges, order)

/-- What is required, and what is chosen so far. -/
structure SearchState (Version Requirement : Type) where
  constraints : Constraints Requirement
  selected : Selection Version

def missingFailure (context : SearchContext Version) (key : String) : SearchFailure :=
  if context.rootCoordinates.contains key then
    ⟨.missingRoot, "selection." ++ key, "no admitted candidate satisfies the root"⟩
  else
    ⟨.missingDependency, "selection." ++ key, "no admitted candidate satisfies the dependency"⟩

def dependencyConstraints (choice : Admitted Version) :
    Option (List (String × Constraint Requirement)) :=
  choice.dependencies.mapM fun dependency =>
    (semver.parseRequirement dependency.versionRequirement).map
      fun requirement =>
        (coordinateKey dependency.pack, ⟨requirement, dependency.requiredContentDigest⟩)

/-- Every selected package satisfies the constraints on its coordinate. -/
def selectionSatisfies (constraints : Constraints Requirement)
    (selected : Selection Version) : Bool :=
  selected.toList.all fun entry =>
    constraints[entry.1]?.all fun requirements =>
      satisfies semver entry.2 requirements

/-- The state behind a choice, or why it is passed over. -/
def choose (state : SearchState Version Requirement) (key : String) (choice : Admitted Version) :
    Except SearchFailure (SearchState Version Requirement) :=
  let selected := state.selected.insert key choice
  if conflictsWithSelected semver choice state.selected then
    .error ⟨.declaredConflict, "selection." ++ key,
        "candidate declares a conflict with the selected graph"⟩
  else if selectedConflict semver selected then
    .error ⟨.declaredConflict, "selection." ++ key, "selected graph contains a declared conflict"⟩
  else
    match dependencyConstraints semver choice with
    | none =>
      .error ⟨.invalidVersionRequirement, "selection." ++ key ++ ".dependencies",
          "dependency requirement is invalid"⟩
    | some added =>
      let constraints := Multimap.pushAll state.constraints added
      if selectionSatisfies semver constraints selected then
        .ok ⟨constraints, selected⟩
      else
        .error ⟨.incompatibleDependency, "selection." ++ key,
            "candidate makes an already selected dependency incompatible"⟩

def checkSelection (selected : Selection Version) : Except SearchFailure (Selection Version) :=
  if selectedConflict semver selected then
    .error ⟨.declaredConflict, "selection", "selected graph contains a declared conflict"⟩
  else if graphHasCycle selected then
    .error ⟨.dependencyCycle, "selection", "selected dependency graph contains a cycle"⟩
  else
    .ok selected

def choicesFor (context : SearchContext Version)
    (constraints : Constraints Requirement) (key : String) : List (Admitted Version) :=
  orderChoices semver context key ((Multimap.values context.candidates key).filter fun candidate =>
      satisfies semver candidate (Multimap.values constraints key))

/-- The first constrained coordinate without a selection is decided next. -/
def expand (context : SearchContext Version) (state : SearchState Version Requirement) :
    Backtrack.Node (SearchState Version Requirement) (Selection Version) SearchFailure :=
  match state.constraints.keys.find? fun key =>
      !state.selected.contains key with
  | some key =>
    .branch ((choicesFor semver context state.constraints key).map (choose semver state key))
      (missingFailure context key)
  | none => .leaf (checkSelection semver state.selected)

def searchExhausted : SearchFailure :=
  ⟨.resourceLimitExceeded, "resolution.search_states",
    "deterministic search exhausted 10000 states"⟩

/-- The search counts states, and so is no deeper than their limit. -/
def search (context : SearchContext Version) (constraints : Constraints Requirement) :
    Except SearchFailure (Selection Version) :=
  match (Backtrack.explore (expand semver context)
      maxDomainPackResolutionSearchStates maxDomainPackResolutionSearchStates
      ⟨constraints, ∅⟩ 0).1 with
  | .found selected => .ok selected
  | .failed failure => .error failure
  | .exhausted => .error searchExhausted

variable (request : DomainPackResolutionRequest) (registry : DomainPackSupplyChainRegistry)

def rootConstraints : Constraints Requirement :=
  Multimap.pushAll ∅ (request.roots.filterMap fun root =>
      (semver.parseRequirement root.versionRequirement).map
        fun requirement =>
          (coordinateKey root.pack, ⟨requirement, root.requiredContentDigest⟩))

def compatibleLockPreferences (lock : Option DomainPackExactLock) : Std.ExtTreeMap String String :=
  .ofList ((lock.toList.flatMap (·.packages)).map fun identity =>
      (coordinateKey identity.coordinate, identity.version))

def searchContext : SearchContext Version where
  candidates := admittedByCoordinate semver request registry
  locked := compatibleLockPreferences request.currentLock
  upgradeTargets := (request.roots.filter (·.reason = .upgradeIntent)).map fun root =>
      coordinateKey root.pack
  rootCoordinates := request.roots.map fun root => coordinateKey root.pack

/-- What is selected, with its edges and its order. -/
def resolveSelection : Except SearchFailure
      (Selection Version × List DomainPackResolutionDependencyEdge × List String) := do
  let selected ←
    search semver (searchContext semver request registry) (rootConstraints semver request)
  let ordered ← topologicalEdgesAndOrder selected
  .ok (selected, ordered)

def sortedDependencies (dependencies : List DomainPackDependency) : List DomainPackDependency :=
  sortBy (fun left right =>
      (compare (coordinateKey left.pack) (coordinateKey right.pack)).then
        ((compare left.versionRequirement right.versionRequirement).then
          (compare left.requiredContentDigest right.requiredContentDigest)))
    dependencies

def resolvedPackage (position : Nat) (candidate : Admitted Version) :
    DomainPackResolvedPackage where
  identity := candidateIdentity candidate.candidate
  package := candidate.candidate.package
  registryRecordDigest := candidate.record.recordDigest
  namespaceGrantId := candidate.record.namespaceGrantId
  dependencies := sortedDependencies candidate.dependencies
  deterministicOrder := min position 4294967295

def buildSelected (selected : Selection Version) (order : List String) :
    List DomainPackResolvedPackage :=
  order.zipIdx.filterMap fun placed =>
    selected[placed.1]?.map (resolvedPackage placed.2)

def buildRejections : List DomainPackRejectedCandidate :=
  sortBy (fun left right =>
      (compare (identityKey left.identity) (identityKey right.identity)).then
        (compare left.packageDigest right.packageDigest))
    ((consideredCandidates request).filterMap fun entry =>
      let reasons := rejectionCodes semver request registry entry.2 entry.1
      if reasons.isEmpty then
        none
      else
        some ⟨candidateIdentity entry.1, entry.1.package.packageDigest, reasons⟩)

def finishIssues (issues : Issues) : Issues :=
  ((sortBy (fun left right =>
        (compare left.code.ctorIdx right.code.ctorIdx).then
          ((compare left.path right.path).then
            (compare left.message right.message)))
      issues).destutter (· ≠ ·)).take maxDomainPackResolutionDiagnostics

def blockedProjection (issues : Issues) : DomainPackResolutionProjection where
  requestId := request.requestId
  status := .blocked
  selected := []
  dependencyEdges := []
  rejected := buildRejections semver request registry
  issues := finishIssues issues

def resolveDomainPacks : DomainPackResolutionProjection :=
  let issues := admissionIssues semver request registry
  if issues.isEmpty then
    match resolveSelection semver request registry with
    | .ok (selected, edges, order) =>
      { requestId := request.requestId
        status := .resolved
        selected := buildSelected selected order
        dependencyEdges := edges
        rejected := buildRejections semver request registry
        issues := [] }
    | .error failure =>
      blockedProjection semver request registry
        (issue issues ⟨failure.code, failure.path, failure.message⟩)
  else
    blockedProjection semver request registry issues

end Resolution

end ForgeCore.DomainPacks
