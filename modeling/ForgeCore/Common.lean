import Mathlib

/-!
# Identifiers

The newtypes that every part of the workspace shares.
-/

namespace ForgeCore

structure ClaimId where
  value : String
  deriving DecidableEq, Repr

structure ScopeId where
  value : String
  deriving DecidableEq, Repr

/-- An identifier that keeps its meaning between runs. -/
structure StableId where
  value : String
  deriving DecidableEq, Repr

structure PrincipalId where
  value : String
  deriving DecidableEq, Repr

/-- A path as it is written in a contract, not yet normalized. -/
structure RepoPath where
  value : String
  deriving DecidableEq, Repr

theorem stableId_value_injective : Function.Injective StableId.value := by
  rintro ⟨left⟩ ⟨right⟩ same
  exact congrArg StableId.mk same

theorem principalId_value_injective : Function.Injective PrincipalId.value := by
  rintro ⟨left⟩ ⟨right⟩ same
  exact congrArg PrincipalId.mk same

end ForgeCore
