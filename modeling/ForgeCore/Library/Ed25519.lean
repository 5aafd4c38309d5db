import Mathlib

/-!
# Signature verification

The signature scheme is a parameter of what uses it.
-/

namespace ForgeCore.Ed25519

/-- What a verifier needs of an implementation. -/
structure Verifier where
  /-- `VerifyingKey::from_bytes` succeeds. -/
  isKey : List UInt8 → Bool
  /-- `verify_strict` of a message and a detached signature. -/
  verifyStrict : List UInt8 → List UInt8 → List UInt8 → Bool

end ForgeCore.Ed25519
