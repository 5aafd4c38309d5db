import ForgeCore.DomainPacks.Resolution

/-!
# What a resolution is for

A solution of a request is a set of admitted candidates, at most one for each
coordinate, that meets the roots and its own dependencies.  It says nothing
about how it is found.
-/

namespace ForgeCore.DomainPacks

section Specification

variable {Version Requirement : Type} (semver : Semver Version Requirement)

def Admitted.coordinate (admitted : Admitted Version) : DomainPackCoordinate :=
  (candidateIdentity admitted.candidate).coordinate

/-- The package has the coordinate, and meets what is asked of it: its version
matches, a prerelease only when the requirement names one, and its content has
the digest that is pinned. -/
structure Meets (package : Admitted Version) (pack : DomainPackCoordinate)
    (versionRequirement : String) (requiredContentDigest : Option String) : Prop where
  coordinate : package.coordinate = pack
  version : ∃ requirement, semver.parseRequirement versionRequirement = some requirement ∧
      semver.accepts requirement package.version = true ∧
      (semver.prerelease package.version = "" ∨
        ∃ prerelease ∈ semver.comparatorPrereleases requirement, prerelease ≠ "")
  digest : ∀ digest, requiredContentDigest = some digest →
    package.candidate.package.content.canonicalSha256 = digest

/-- A package declares a conflict that another one matches. -/
def Conflicts (package other : Admitted Version) : Prop :=
  ∃ conflict ∈ package.conflicts, conflict.pack = other.coordinate ∧ ∃ requirement,
      semver.parseRequirement conflict.versionRequirement = some requirement ∧
        semver.accepts requirement other.version = true

/-- A chosen package at the first coordinate depends on the second. -/
def DependsOn (chosen : List (Admitted Version)) (source target : DomainPackCoordinate) : Prop :=
  ∃ package ∈ chosen, package.coordinate = source ∧
    ∃ dependency ∈ package.dependencies, dependency.pack = target

def edgeOf (chosen : List (Admitted Version)) (package : Admitted Version)
    (dependency : DomainPackDependency) : Option DomainPackResolutionDependencyEdge :=
  (chosen.find? fun other => other.coordinate = dependency.pack).map
    fun target =>
      ⟨versionReference (candidateIdentity package.candidate),
        versionReference (candidateIdentity target.candidate), dependency.requiredContentDigest⟩

def edgesOf (chosen : List (Admitted Version)) : List DomainPackResolutionDependencyEdge :=
  chosen.flatMap fun package =>
    package.dependencies.filterMap (edgeOf chosen package)

variable (request : DomainPackResolutionRequest) (registry : DomainPackSupplyChainRegistry)

/-- The chosen packages meet the request, dependencies included. -/
structure Solution (chosen : List (Admitted Version)) : Prop where
  admitted : ∀ package ∈ chosen, package ∈ admittedCandidates semver request registry
  distinct : (chosen.map Admitted.coordinate).Nodup
  roots : ∀ root ∈ request.roots, ∃ package ∈ chosen,
    Meets semver package root.pack root.versionRequirement
      root.requiredContentDigest
  dependencies : ∀ package ∈ chosen, ∀ dependency ∈ package.dependencies, ∃ target ∈ chosen,
      Meets semver target dependency.pack dependency.versionRequirement
        dependency.requiredContentDigest
  compatible : ∀ package ∈ chosen, ∀ other ∈ chosen, ¬ Conflicts semver package other
  acyclic : ∀ coordinate, ¬ Relation.TransGen (DependsOn chosen) coordinate coordinate

variable {semver request registry}

variable {admitted : Admitted Version} {pack : DomainPackCoordinate}

theorem validCoordinate_of_admitted
    (member : admitted ∈ admittedCandidates semver request registry) :
    validCoordinate admitted.coordinate = true := by
  have valid := admitted_valid member
  rw [validIdentity, Bool.and_eq_true] at valid
  exact valid.1

/-- An admitted package is named by a coordinate just when it is found by its
key. -/
theorem key_eq_iff (valid : validCoordinate admitted.coordinate = true) :
    admitted.key = coordinateKey pack ↔ admitted.coordinate = pack := by
  constructor
  · exact coordinateKey_inj valid
  · rintro rfl
    rfl

/-- A package at the coordinate meets what a constraint on it asks. -/
theorem meets_iff (parsed : semver.parseRequirement versionRequirement = some requirement) :
    Meets semver package pack versionRequirement requiredContentDigest ↔ package.coordinate = pack ∧
      satisfiesOne semver package ⟨requirement, requiredContentDigest⟩ = true := by
  have allows : requirementExplicitlyAllowsPrerelease semver requirement = true ↔
        ∃ prerelease ∈ semver.comparatorPrereleases requirement, prerelease ≠ "" := by
    simp [requirementExplicitlyAllowsPrerelease]
  have digest : requiredContentDigest.all (fun digest =>
          digest = package.candidate.package.content.canonicalSha256) =
        true ↔
      ∀ digest, requiredContentDigest = some digest →
        package.candidate.package.content.canonicalSha256 = digest := by
    cases requiredContentDigest with
    | none => simp
    | some pinned => simp [eq_comm]
  simp only [satisfiesOne, Bool.and_eq_true, Bool.or_eq_true, String.isEmpty_iff, allows, digest]
  constructor
  · rintro ⟨coordinate, ⟨other, otherParsed, accepted, prerelease⟩, pinned⟩
    rw [parsed] at otherParsed
    cases otherParsed
    exact ⟨coordinate, ⟨accepted, pinned⟩, prerelease⟩
  · rintro ⟨coordinate, ⟨accepted, pinned⟩, prerelease⟩
    exact ⟨coordinate, ⟨requirement, parsed, accepted, prerelease⟩, pinned⟩

end Specification

end ForgeCore.DomainPacks
