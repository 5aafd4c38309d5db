import ForgeCore.ClaimWal.Agreement
import ForgeCore.Claims.Coverage
import ForgeCore.Claims.WriteCheck

/-!
# The claim coverage gate

An operation is executed only if its writes pass a gate over the claims that
the log projects, as the writes of the agent `host`.  The engine that grants
claims and the gate that reads them never see each other; what joins them is
that open claims share no target.
-/

namespace ForgeCore.ClaimWal

open List Claims Text

/-- The mode that a host runs in. -/
inductive AutonomyMode where
  | observe
  | facilitate
  | research
  | plan
  | execute
  | repair
  | gateReview
  | diagnose
  deriving DecidableEq, Repr

def AutonomyMode.debug : AutonomyMode → String
  | .observe => "Observe"
  | .facilitate => "Facilitate"
  | .research => "Research"
  | .plan => "Plan"
  | .execute => "Execute"
  | .repair => "Repair"
  | .gateReview => "GateReview"
  | .diagnose => "Diagnose"

section Exclusion

variable {toLowercase : String → String} {gate : ClaimCoverageGate} {mode : AutonomyMode}
  {target other : RepoPath} {first second : ClaimContract}

end Exclusion

namespace Sample

end Sample

end ForgeCore.ClaimWal
