import ForgeCore.Claims.Engine

/-!
# The claim bus

The claims by id, as the store projects them, and the commands that read the
bus, decide with the engine and write the accepted claim back under its id.
The last section is the front end that resolves what an operator typed.
-/

namespace ForgeCore.Claims

open Text

abbrev Bus := Std.TreeMap String ClaimContract

namespace Bus

def claims (bus : Bus) : List ClaimContract :=
  bus.toList.map Prod.snd

def writeBack (bus : Bus) (claim : ClaimContract) : Bus :=
  bus.insert claim.id.value claim

/-- A refused operation writes nothing. -/
def settle (bus : Bus) : ClaimLifecycleDecision → Bus
  | .accepted claim => bus.writeBack claim
  | .rejected _ => bus

theorem mem_claims_iff {bus : Bus} :
    claim ∈ bus.claims ↔ ∃ key : String, bus[key]? = some claim := by
  simp only [claims, List.mem_map]
  constructor
  · rintro ⟨⟨key, stored⟩, member, rfl⟩
    exact ⟨key, Std.TreeMap.mem_toList_iff_getElem?_eq_some.mp member⟩
  · rintro ⟨key, found⟩
    exact ⟨(key, claim), Std.TreeMap.mem_toList_iff_getElem?_eq_some.mpr found, rfl⟩

theorem getElem?_writeBack
    (bus : Bus) (claim : ClaimContract) (key : String) :
    (bus.writeBack claim)[key]? = if claim.id.value = key then some claim else bus[key]? := by
  rw [writeBack, Std.TreeMap.getElem?_insert]
  simp only [Std.LawfulEqCmp.compare_eq_iff_eq]

end Bus

/-- The calls on the bus, with the arguments that they read. -/
inductive BusCommand where
  | acquire (request : AcquireRequest)
  | heartbeat (claimId : ClaimId) (agentId : StableId)
  | release (claimId : ClaimId) (agentId : StableId)
  | recordHandoff (claimId : ClaimId) (request : RecordHandoffRequest)
  /-- `written` transitions of the pass reach the store; a failing write
  ends the pass. -/
  | reconcile (written : Nat)
  deriving DecidableEq, Repr

section Runs

variable (toLowercase : String → String)

/-- One command, decided on the current claims at time `now`. -/
def busStep (bus : Bus) (now : Int) : BusCommand → Bus
  | .acquire request => bus.settle (acquire toLowercase bus.claims request now)
  | .heartbeat claimId agentId =>
    match bus[claimId.value]? with
    | some claim => bus.settle (heartbeat claim agentId now)
    | none => bus
  | .release claimId agentId =>
    match bus[claimId.value]? with
    | some claim => bus.settle (release claim agentId now)
    | none => bus
  | .recordHandoff claimId request =>
    match bus[claimId.value]? with
    | some claim => bus.settle (recordHandoff claim request now)
    | none => bus
  | .reconcile written =>
    ((reconcileClaims bus.claims now).transitions.take written).foldl
      (fun current transition => current.writeBack transition.updated) bus

def busRun (bus : Bus) (history : List (Int × BusCommand)) : Bus :=
  history.foldl (fun current entry =>
    busStep toLowercase current entry.1 entry.2) bus

end Runs

/-! ## The command line in front of the bus -/

inductive ClaimRef where
  | full (id : ClaimId)
  | scope (id : ScopeId)
  deriving DecidableEq, Repr

def canonicalClaimPrefix : String := "claim."

def isReservedClaimPrefix (token : String) : Bool :=
  canonicalClaimPrefix.toList.isPrefixOf token.toList

def parseClaimRef (token : String) : ClaimRef :=
  if isReservedClaimPrefix token then .full ⟨token⟩ else .scope ⟨token⟩

/-- The first claim with the typed id or the typed scope. -/
def resolveClaim (claims : List ClaimContract) : ClaimRef → Option ClaimContract
  | .full id => claims.find? fun claim => claim.id = id
  | .scope id => claims.find? fun claim => claim.scope.id = id

def slugForFile (id : String) : String :=
  String.ofList (id.toList.map fun char =>
    if (char.toNat < 128 && char.isAlphanum) || char = '-' || char = '_'
    then char else '-')

def handoffArtifactRef (claim : ClaimContract) (now : Int) : String :=
  "handoffs/expired-claims/expired-claim-" ++ slugForFile claim.scope.id.value ++ "-" ++
    slugForFile (unixToRfc3339 now) ++ ".yaml"

/-- The commands of the command line that change claims. -/
inductive CliCommand where
  | acquire (request : AcquireRequest)
  | heartbeat (token : String) (agentId : StableId)
  | release (token : String) (agentId : StableId)
  | handoff
      (token : String) (agentId : StableId) (summary : String)
      (evidenceRefs : List String)
  | reconcileOnce (written : Nat)
  deriving DecidableEq, Repr

/-- `run_acquire`, `run_heartbeat`, `run_release`, `run_handoff` and
`run_reconcile_once`, each under the lock of the claims directory. -/
def cliStep (toLowercase : String → String) (bus : Bus) (now : Int) : CliCommand → Bus
  | .acquire request =>
    -- A reserved scope id would later be read as a full claim id.
    if isReservedClaimPrefix request.scopeId.value then bus
    else bus.settle (acquire toLowercase bus.claims request now)
  | .heartbeat token agentId =>
    match resolveClaim bus.claims (parseClaimRef token) with
    | some claim => bus.settle (heartbeat claim agentId now)
    | none => bus
  | .release token agentId =>
    match resolveClaim bus.claims (parseClaimRef token) with
    | some claim => bus.settle (release claim agentId now)
    | none => bus
  | .handoff token agentId summary evidenceRefs =>
    match resolveClaim bus.claims (parseClaimRef token) with
    | some claim =>
      bus.settle (recordHandoff claim
          { recorderAgentId := agentId
            summary := summary
            evidenceRefs := handoffArtifactRef claim now :: evidenceRefs } now)
    | none => bus
  | .reconcileOnce written =>
    ((reconcileClaims bus.claims now).transitions.take written).foldl
      (fun current transition => current.writeBack transition.updated) bus

def cliRun (toLowercase : String → String) (bus : Bus) (history : List (Int × CliCommand)) : Bus :=
  history.foldl (fun current entry =>
    cliStep toLowercase current entry.1 entry.2) bus

end ForgeCore.Claims
