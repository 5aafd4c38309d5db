import ForgeCore.Common
import ForgeCore.Library.Checked
import ForgeCore.Library.Peel

/-!
# Prerequisites of governance policies

The check that the prerequisites of the policies of a bundle have no cycle.
Of a policy it reads the id and the references of the prerequisites.
-/

namespace ForgeCore.WorkflowGovernance

open List Peel

structure WorkflowPrerequisite where
  policyRef : StableId
  deriving DecidableEq, Repr

/-- A policy and the policies that it asks for first. -/
structure WorkflowGovernancePolicy where
  id : StableId
  prerequisites : List WorkflowPrerequisite
  deriving DecidableEq, Repr

inductive WorkflowGovernanceIssueCode where
  | dependencyCycle
  deriving DecidableEq, Repr

abbrev WorkflowGovernanceIssue := Checked.Issue WorkflowGovernanceIssueCode

def WorkflowGovernancePolicy.references (policy : WorkflowGovernancePolicy) : List String :=
  policy.prerequisites.map (·.policyRef.value)

def dependenciesOf (policies : List WorkflowGovernancePolicy) (knownIds : Std.ExtTreeSet String) :
    Dependencies String :=
  .ofList (policies.map fun policy =>
    (policy.id.value, Std.ExtTreeSet.ofList (policy.references.filter knownIds.contains)))

def validateDependencyGraph (policies : List WorkflowGovernancePolicy)
    (knownIds : Std.ExtTreeSet String) : List WorkflowGovernanceIssue :=
  let dependencies := dependenciesOf policies knownIds
  let remaining := peel dependencies.size dependencies
  if remaining.isEmpty then
    []
  else
    [{ code := .dependencyCycle
       path := "workflow_governance_bundle.policies.prerequisites"
       message := "cyclic policy dependencies involve " ++ ", ".intercalate remaining.keys }]

def idsOf (policies : List WorkflowGovernancePolicy) : List String :=
  policies.map (·.id.value)

def Prerequisite (policies : List WorkflowGovernancePolicy) (source target : String) : Prop :=
  target ∈ idsOf policies ∧
    ∃ policy ∈ policies, policy.id.value = source ∧ target ∈ policy.references

variable {policies : List WorkflowGovernancePolicy}

theorem mem_dependenciesOf {knownIds : Std.ExtTreeSet String} {key : String} :
    key ∈ dependenciesOf policies knownIds ↔ key ∈ idsOf policies := by
  rw [dependenciesOf, Std.ExtTreeMap.mem_ofList, contains_iff_mem, map_map]
  rfl

theorem getElem?_dependenciesOf
    (distinct : (idsOf policies).Nodup) {knownIds : Std.ExtTreeSet String}
    {policy : WorkflowGovernancePolicy} (member : policy ∈ policies) :
    (dependenciesOf policies knownIds)[policy.id.value]? =
      some (.ofList (policy.references.filter knownIds.contains)) := by
  apply Std.ExtTreeMap.getElem?_ofList_of_mem Std.ReflCmp.compare_self
  · rw [pairwise_map]
    refine (pairwise_map.mp distinct).imp fun different same => different ?_
    exact Std.LawfulEqCmp.compare_eq_iff_eq.mp same
  · exact mem_map_of_mem member

theorem peeled_dependenciesOf (distinct : (idsOf policies).Nodup) :
    Peeled (Prerequisite policies) (dependenciesOf policies (.ofList (idsOf policies))) := by
  constructor
  · intro key dependencies found other
    have isId := mem_dependenciesOf.mp (Std.ExtTreeMap.mem_iff_isSome_getElem?.mpr
      (Option.isSome_of_eq_some found))
    obtain ⟨policy, member, rfl⟩ := List.mem_map.mp isId
    rw [getElem?_dependenciesOf distinct member, Option.some.injEq] at found
    subst found
    rw [Std.ExtTreeSet.mem_ofList, contains_iff_mem, mem_filter, mem_dependenciesOf,
      Std.ExtTreeSet.contains_ofList, contains_iff_mem]
    constructor
    · intro both
      exact ⟨⟨both.2, policy, member, rfl, both.1⟩, both.2⟩
    · rintro ⟨⟨-, same, sameMember, sameId, named⟩, isKnown⟩
      rw [inj_on_of_nodup_map distinct sameMember member sameId] at named
      exact ⟨named, isKnown⟩
  · intro key gone
    apply Acc.intro
    rintro other ⟨-, policy, member, rfl, -⟩
    exact absurd (mem_dependenciesOf.mpr (mem_map_of_mem member)) gone

/-- With distinct ids that are all known, a cycle is reported exactly when the
prerequisites have one, and the policies that are named, in order, are those
from which a cycle is reached. -/
theorem prerequisite_cycles_exact
    (policies : List WorkflowGovernancePolicy) (distinct : (idsOf policies).Nodup) :
    ∃ names : List String, names.Pairwise (· < ·) ∧
      (∀ name, name ∈ names ↔ ReachesCycle (Prerequisite policies) name) ∧
      (names ≠ [] ↔ ∃ name, Relation.TransGen (Prerequisite policies) name name) ∧
      validateDependencyGraph policies (.ofList (idsOf policies)) = if names = [] then []
        else [⟨.dependencyCycle, "workflow_governance_bundle.policies.prerequisites",
          "cyclic policy dependencies involve " ++ ", ".intercalate names⟩] := by
  have left := (peeled_dependenciesOf distinct).mem_peel (Nat.le_refl _)
  rw [validateDependencyGraph]
  generalize peel _ (dependenciesOf policies _) = remaining at left ⊢
  have named : ∀ name, name ∈ remaining.keys ↔ ReachesCycle (Prerequisite policies) name := by
    intro name
    rw [Std.ExtTreeMap.mem_keys, left]
  refine ⟨remaining.keys, ?_, named, ?_, ?_⟩
  · exact Std.ExtTreeMap.ordered_keys.imp fun {first second} below => compare_lt_iff_lt.mp below
  · rw [ne_eq, eq_nil_iff_forall_not_mem]
    push Not
    constructor
    · rintro ⟨name, member⟩
      obtain ⟨turn, -, cycle⟩ := (named name).mp member
      exact ⟨turn, cycle⟩
    · rintro ⟨name, cycle⟩
      exact ⟨name, (named name).mpr ⟨name, .refl, cycle⟩⟩
  · have empty : remaining.isEmpty = true ↔ remaining.keys = [] := by
      rw [← List.isEmpty_iff, Std.ExtTreeMap.isEmpty_keys]
    simp only [empty]

/-- Two policies that wait for each other, and a third one behind them. -/
theorem prerequisite_cycles_exact_pair :
    let policies : List WorkflowGovernancePolicy :=
      [⟨⟨"a"⟩, [⟨⟨"b"⟩⟩, ⟨⟨"b"⟩⟩]⟩, ⟨⟨"b"⟩, [⟨⟨"a"⟩⟩, ⟨⟨"unknown"⟩⟩]⟩, ⟨⟨"c"⟩, [⟨⟨"a"⟩⟩]⟩]
    (idsOf policies).Nodup ∧ ∃ names : List String, "c" ∈ names ∧
      validateDependencyGraph policies (.ofList (idsOf policies)) =
        [⟨.dependencyCycle, "workflow_governance_bundle.policies.prerequisites",
          "cyclic policy dependencies involve " ++ ", ".intercalate names⟩] := by
  intro policies
  have distinct : (idsOf policies).Nodup := by decide
  have named : ∀ source target, target ∈ idsOf policies →
      (∃ policy ∈ policies, policy.id.value = source ∧ target ∈ policy.references) →
      Prerequisite policies source target := fun _ _ known listed => ⟨known, listed⟩
  have forward := named "a" "b" (by decide) (by decide)
  have back := named "b" "a" (by decide) (by decide)
  have behind := named "c" "a" (by decide) (by decide)
  obtain ⟨names, -, members, -, reported⟩ := prerequisite_cycles_exact policies distinct
  have member : "c" ∈ names := (members "c").mpr ⟨"a", .single behind, .tail (.single forward) back⟩
  rw [if_neg (ne_nil_of_mem member)] at reported
  exact ⟨distinct, names, member, reported⟩

end ForgeCore.WorkflowGovernance
