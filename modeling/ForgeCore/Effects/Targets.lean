import ForgeCore.Library.FileTree
import ForgeCore.Library.PathText
import ForgeCore.Library.Checked
import ForgeCore.Effects.Contract

/-!
# Targets of an effect

How a declared reference becomes a path below the project root, and which
paths are reserved for the event log.
-/

namespace ForgeCore.Effects

open Text PathText

def legacyStateRootComponent : String := ".forge-method"

/-- The files that the event logs keep for themselves. -/
inductive ReservedStateArtifact where
  | memoryEventLog
  | researchEventLog
  | governanceConflictEventLog
  | memoryEventLogLock
  | researchEventLogLock
  | governanceConflictEventLogLock
deriving DecidableEq, Repr

def ReservedStateArtifact.canonicalRelativePath : ReservedStateArtifact → Path
  | memoryEventLog => ["memory", "events.ndjson"]
  | researchEventLog => ["research", "sources.ndjson"]
  | governanceConflictEventLog => ["governance", "conflicts.ndjson"]
  | memoryEventLogLock => ["locks", "memory.log.lock"]
  | researchEventLogLock => ["locks", "research.sources.lock"]
  | governanceConflictEventLogLock => ["locks", "governance.conflicts.lock"]

def ReservedStateArtifact.debug : ReservedStateArtifact → String
  | memoryEventLog => "MemoryEventLog"
  | researchEventLog => "ResearchEventLog"
  | governanceConflictEventLog => "GovernanceConflictEventLog"
  | memoryEventLogLock => "MemoryEventLogLock"
  | researchEventLogLock => "ResearchEventLogLock"
  | governanceConflictEventLogLock => "GovernanceConflictEventLogLock"

def reservedStateArtifacts : List ReservedStateArtifact :=
  [.memoryEventLog, .researchEventLog, .governanceConflictEventLog,
    .memoryEventLogLock, .researchEventLogLock, .governanceConflictEventLogLock]

inductive ReservedStatePath where
  | artifact (artifact : ReservedStateArtifact)
  | crashReplaceSibling (artifact : ReservedStateArtifact)
deriving DecidableEq, Repr

def ReservedStatePath.debug : ReservedStatePath → String
  | artifact file => "Artifact(" ++ file.debug ++ ")"
  | crashReplaceSibling file => "CrashReplaceSibling(" ++ file.debug ++ ")"

inductive StateRelativePathError where
  | empty
  | absolute
  | parent
  | dot
  | separatorAmbiguity
deriving DecidableEq, Repr

/-- The names of a relative path, or the first component that is not one. -/
def normalNames : List Component → Except StateRelativePathError Path
  | [] => .ok []
  | .normal name :: rest => (normalNames rest).map (name :: ·)
  | .curDir :: _ => .error .dot
  | .parentDir :: _ => .error .parent
  | .rootDir :: _ => .error .absolute

/-- The names of a state-relative path, before the legacy directory is
dropped. -/
def stateRelativeNames (value : String) : Except StateRelativePathError Path :=
  if value = "" then
    .error .empty
  else if isAbsolute value then
    .error .absolute
  else if value.toList.contains '\\' then
    .error .separatorAmbiguity
  else
    normalNames (components value)

def dropLegacyRoot (names : Path) : Except StateRelativePathError Path :=
  match names with
  | [] => .error .empty
  | head :: rest =>
    if head = legacyStateRootComponent then
      if rest.isEmpty then .error .empty else .ok rest
    else
      .ok names

def normalizeStateRelativePath (value : String) : Except StateRelativePathError Path :=
  stateRelativeNames value >>= dropLegacyRoot

def crashReplaceSiblings (artifact : ReservedStateArtifact) : List Path :=
  let target := artifact.canonicalRelativePath
  let name := target.getLast?.getD ""
  [".forge-next", ".forge-previous", ".forge-transaction"].map fun suffix =>
    target.dropLast ++ ["." ++ name ++ suffix]

def classifyNormalized (normalized : Path) : Option ReservedStatePath :=
  reservedStateArtifacts.findSome? fun artifact =>
    if normalized = artifact.canonicalRelativePath then
      some (.artifact artifact)
    else if normalized ∈ crashReplaceSiblings artifact then
      some (.crashReplaceSibling artifact)
    else
      none

/-- The classification normalizes what it is given once more. -/
def classifyReservedStatePath (names : Path) : Option ReservedStatePath :=
  match dropLegacyRoot names with
  | .error _ => none
  | .ok normalized => classifyNormalized normalized

def reservedNames (names : Path) : Option ReservedStatePath :=
  match dropLegacyRoot names with
  | .error _ => none
  | .ok normalized => classifyReservedStatePath normalized

inductive ReservedStateMutationError where
  | invalid
  | reserved (path : ReservedStatePath)
deriving DecidableEq, Repr

def rejectReservedStateMutation (relativePath : String) : Except ReservedStateMutationError Path :=
  match normalizeStateRelativePath relativePath with
  | .error _ => .error .invalid
  | .ok normalized =>
    match classifyReservedStatePath normalized with
    | some reserved => .error (.reserved reserved)
    | none => .ok normalized

def reservedStatePath (relativePath : String) : Option ReservedStatePath :=
  match rejectReservedStateMutation relativePath with
  | .error (.reserved reserved) => some reserved
  | _ => none

/-- The path that an effect-store file operation uses for a reference. -/
def normalizedEffectRelativePath (relativePath : String) : Option Path :=
  match normalizeStateRelativePath relativePath with
  | .error _ => none
  | .ok _ =>
    if (reservedStatePath relativePath).isSome then none
    else (stateRelativeNames relativePath).toOption

inductive AppendJsonLineError where
  | invalidRelativePath (path : String)
  | reservedStatePath (path : String) (reserved : ReservedStatePath)
  | openFile (path source : String)
deriving DecidableEq, Repr

def AppendJsonLineError.message : AppendJsonLineError → String
  | invalidRelativePath path => "invalid repo-relative append path " ++ path
  | reservedStatePath path reserved =>
    "append path " ++ path ++ " is reserved for EventLog TCB: " ++ reserved.debug
  | openFile path source => "open append file " ++ path ++ ": " ++ source

def referenceLooksPathLike (reference : String) : Bool :=
  reference.toList.contains '/' || reference.toList.contains '\\'

def isLogicalIdChar (char : Char) : Bool :=
  char.isAlphanum || char = '-' || char = '_' || char = '.'

/-- `trim_matches('.')`. -/
def trimDots (chars : List Char) : List Char :=
  ((chars.dropWhile (· = '.')).reverse.dropWhile (· = '.')).reverse

def safeLogicalId (reference : String) : Option String :=
  let sanitized := reference.toList.map fun char =>
      if isLogicalIdChar char then char else '_'
  let trimmed := trimDots sanitized
  if trimmed.isEmpty || !trimmed.any Char.isAlphanum then none
  else some (String.ofList trimmed)

def startsWith (text start : String) : Bool :=
  start.toList.isPrefixOf text.toList

def endsWith (text ending : String) : Bool :=
  ending.toList.isSuffixOf text.toList

def projectLogicalTarget (reference : String) (allowedPrefixes allowedExact : List String)
    (baseDir extension : String) : Except AppendJsonLineError String :=
  if referenceLooksPathLike reference then
    if allowedExact.contains reference ||
        allowedPrefixes.any (startsWith reference) then
      .ok reference
    else
      .error (.invalidRelativePath reference)
  else
    match safeLogicalId reference with
    | none => .error (.invalidRelativePath reference)
    | some safeId =>
      let fileName :=
        if endsWith safeId extension then safeId else safeId ++ extension
      .ok (baseDir ++ "/" ++ fileName)

def effectTargetPhysicalReference (targetKind : EffectTargetKind)
    (reference : String) : Except AppendJsonLineError String :=
  match targetKind with
  | .filePath => .ok reference
  | .artifactId =>
    projectLogicalTarget reference [".forge-method/artifacts/"] [] ".forge-method/artifacts" ".yaml"
  | .evidenceId =>
    projectLogicalTarget reference [".forge-method/evidence/", ".forge-method/snapshots/"] []
      ".forge-method/evidence" ".json"
  | .ledgerStream =>
    projectLogicalTarget reference [".forge-method/ledger/"]
      [".forge-method/ledger.ndjson"] ".forge-method/ledger" ".ndjson"
  | .requestStream =>
    projectLogicalTarget reference [".forge-method/requests/"]
      [".forge-method/requests.ndjson"] ".forge-method/requests" ".ndjson"
  | .glob | .stateKey | .completionId => .error (.invalidRelativePath reference)

def fileBackedTarget (targetKind : EffectTargetKind) : Bool :=
  match targetKind with
  | .filePath | .artifactId | .evidenceId | .ledgerStream
  | .requestStream => true
  | .glob | .stateKey | .completionId => false

def pathComponents : List Component → Path
  | [] => []
  | .normal name :: rest => name :: pathComponents rest
  | _ :: rest => pathComponents rest

def forbiddenRelativeComponent (component : Component) : Bool :=
  component = .rootDir || component = .parentDir

/-- Without links below the root, resolving a safe relative path appends its
names to the root. -/
def resolveSafeRepoRelative (root relativePath : String) : Except AppendJsonLineError String :=
  if relativePath = "" || isAbsolute relativePath ||
      (components relativePath).any forbiddenRelativeComponent ||
      (pathComponents (components relativePath)).isEmpty then
    .error (.invalidRelativePath relativePath)
  else
    .ok (join root (pathComponents (components relativePath)))

/-- The file of a write target: its full path, and its physical reference. -/
def resolveEffectTarget (root : String) (targetKind : EffectTargetKind)
    (reference : String) : Except AppendJsonLineError (String × String) :=
  effectTargetPhysicalReference targetKind reference >>= fun physicalRef =>
    match rejectReservedStateMutation physicalRef with
    | .error (.reserved reserved) => .error (.reservedStatePath physicalRef reserved)
    | .error .invalid => .error (.invalidRelativePath physicalRef)
    | .ok _ => (resolveSafeRepoRelative root physicalRef).map (·, physicalRef)

/-- The components of a path text below a root, given relative to it or in
full. -/
def componentsBelow (root value : String) : Option (List Component) :=
  if isAbsolute value then
    if (components root).isPrefixOf (components value) then
      some ((components value).drop (components root).length)
    else
      none
  else
    some (components value)

/-- The names that a retained directory opens for a path text. -/
def retainedNames (root value : String) : Except IoError Path :=
  match componentsBelow root value with
  | none => .error (.permissionDenied "path escapes retained root")
  | some parts =>
    match normalNames parts with
    | .error _ => .error (.invalidInput "path is not a normalized relative child")
    | .ok [] => .error (.invalidInput "empty child path")
    | .ok names => .ok names

variable {names : Path}

theorem pathComponents_of_normalNames (named : normalNames parts = .ok names) :
    pathComponents parts = names := by
  induction parts generalizing names with
  | nil =>
    cases named
    rfl
  | cons part rest ih =>
    cases part with
    | normal name =>
      obtain ⟨others, restNamed, rfl⟩ := Checked.map_eq_ok.mp named
      rw [pathComponents, ih restNamed]
    | rootDir => cases named
    | curDir => cases named
    | parentDir => cases named

theorem dropLegacyRoot_ne_nil (dropped : dropLegacyRoot names = .ok rest) : names ≠ [] := by
  rintro rfl
  cases dropped

theorem stateRelativeNames_ok (named : stateRelativeNames value = .ok names) :
    isAbsolute value = false ∧ normalNames (components value) = .ok names := by
  unfold stateRelativeNames at named
  split_ifs at named with isEmpty absolute ambiguous
  exact ⟨by simpa using absolute, named⟩

/-- An accepted reference names one file for every operation of the store. -/
theorem resolveEffectTarget_ok
    (resolved : resolveEffectTarget root targetKind reference = .ok (target, physicalRef)) :
    ∃ names, normalizedEffectRelativePath physicalRef = some names ∧
      retainedNames root physicalRef = .ok names ∧ names ≠ [] ∧
      target = join root names ∧ reservedStatePath physicalRef = none := by
  obtain ⟨physical, -, checked⟩ := Checked.bind_eq_ok.mp resolved
  split at checked
  · cases checked
  · cases checked
  · next normalized accepted =>
    obtain ⟨place, safe, pairEq⟩ := Checked.map_eq_ok.mp checked
    cases pairEq
    have unreserved : reservedStatePath physicalRef = none := by
      rw [reservedStatePath, accepted]
    unfold rejectReservedStateMutation at accepted
    cases normalizedEq : normalizeStateRelativePath physicalRef with
    | error failure => simp [normalizedEq] at accepted
    | ok rest =>
      obtain ⟨names, named, dropped⟩ := Checked.bind_eq_ok.mp normalizedEq
      obtain ⟨relative, normal⟩ := stateRelativeNames_ok named
      have present := dropLegacyRoot_ne_nil dropped
      refine ⟨names, ?_, ?_, present, ?_, unreserved⟩
      · simp [normalizedEffectRelativePath, normalizedEq, unreserved, named, Except.toOption]
      · rw [retainedNames, componentsBelow, if_neg (by simp [relative])]
        simp only [normal]
      · unfold resolveSafeRepoRelative at safe
        split_ifs at safe with refused
        rw [pathComponents_of_normalNames normal] at safe
        cases safe
        rfl

end ForgeCore.Effects
