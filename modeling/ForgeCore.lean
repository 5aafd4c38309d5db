import ForgeCore.ActionReplay.OneToOne
import ForgeCore.Authority.PrincipalRegistry
import ForgeCore.ClaimWal.Corruption
import ForgeCore.ClaimWal.CoverageGate
import ForgeCore.ClaimWal.Partition
import ForgeCore.ClaimWal.Repair
import ForgeCore.Claims.ConflictIds
import ForgeCore.Claims.LeaseWindow
import ForgeCore.Claims.Reconciliation
import ForgeCore.DomainPacks.AliasFilter
import ForgeCore.DomainPacks.Completeness
import ForgeCore.Effects.Atomicity
import ForgeCore.Effects.History
import ForgeCore.Effects.WriteSet
import ForgeCore.EventLog.MemoryTrust
import ForgeCore.EventLog.TornTail
import ForgeCore.Rekor.Checkpoint
import ForgeCore.Replay.Repair
import ForgeCore.SupplyChain.Revocation
import ForgeCore.WorkflowGovernance.Prerequisites
import ForgeCore.WorkflowGovernance.WireSchema
import ForgeCore.WorkflowGraphs.Planned
