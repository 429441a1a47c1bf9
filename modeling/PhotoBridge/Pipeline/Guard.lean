/-
Reading a file and knowing what was read (`binary_verifier.cpp`,
`mutation_guard.cpp`).

Both functions read a file to its end in pieces of a buffer's size. A
read moves at least one byte or the loop ends, but a file can grow while
it is read; `rounds` bounds the loop, and a function that would need
more of them gives up.
-/
import PhotoBridge.Pipeline.Files

namespace PhotoBridge

open Concurrent

-- ========================================================== verification

inductive BinaryVerification
  | identical | mismatch | notApplicable | unverifiable
  deriving DecidableEq, Repr

structure BinaryVerificationResult where
  status : BinaryVerification
  bytesRead : Nat
  targetDigest : Digest
  targetBefore : FileIdentity
  targetAfter : FileIdentity
  deriving DecidableEq

/-- The loop of `VerifyBinary`: how many bytes were read, and the hasher
that was fed with them. -/
def verifyLoop (fd size : Nat) : Nat → Nat → Hasher → PipelineM (Nat × Hasher)
  | 0, _, _ => Attempt.spent
  | rounds + 1, bytesRead, hasher => do
      let chunk ← Files.read fd size
      if size < chunk.length then
        throw (.internal "target read exceeded buffer capacity")
      else if chunk = [] then pure (bytesRead, hasher)
      else if uint64Max - chunk.length < bytesRead then
        throw (.internal "verified byte count overflowed")
      else do
        let hasher ← Attempt.ofExcept (hasher.update chunk)
        verifyLoop fd size rounds (bytesRead + chunk.length) hasher

/-- The status `VerifyBinary` ends with. -/
def binaryStatus (expectedSize : Nat) (expectedDigest : Option Digest)
    (bytesRead : Nat) (digest : Digest) : BinaryVerification :=
  match expectedDigest with
  | none => .notApplicable
  | some expected =>
      if bytesRead = expectedSize ∧ digest = expected then .identical
      else .mismatch

variable (blake3 : Bytes → Digest)

/-- `VerifyBinary` with a buffer of `size` bytes. -/
def verifyBinary (hasher : Hasher) (fd expectedSize : Nat)
    (expectedDigest : Option Digest) (size rounds : Nat) :
    PipelineM BinaryVerificationResult :=
  if size = 0 then
    throw (.invalid "verification buffer must not be empty")
  else do
    let before ← Files.statFd fd
    let (bytesRead, hasher) ← verifyLoop fd size rounds 0 hasher
    let after ← Files.statFd fd
    if before ≠ after then
      throw (.internal "target file identity changed during verification")
    else do
      let digest ← Attempt.ofExcept (hasher.finalize blake3).1
      pure {
        status := binaryStatus expectedSize expectedDigest bytesRead digest
        bytesRead
        targetDigest := digest
        targetBefore := before
        targetAfter := after }

-- ============================================================== the guard

/-- `IdentityMismatch`. -/
def identityMismatch (phase : String) : Status :=
  .internal ("source file identity changed " ++ phase)

/-- `VerifyIdentity`. -/
def verifyIdentity (fd : Nat) (expected : FileIdentity) (phase : String) :
    PipelineM Unit := do
  let actual ← Files.statFd fd
  if actual ≠ expected then throw (identityMismatch phase)
  else pure ()

/-- `MutationGuard`. -/
structure MutationGuard where
  fd : Nat
  manifestIdentity : FileIdentity
  openedIdentity : FileIdentity
  deriving DecidableEq

namespace MutationGuard

/-- `MutationGuard::Open` of an asset with this path and identity. -/
def open_ (relativePath : RelativePath) (identity : FileIdentity) :
    PipelineM MutationGuard := do
  let fd ← Files.openSource .source relativePath
  let openedIdentity ← Files.statFd fd
  if openedIdentity ≠ identity then throw (identityMismatch "before read")
  else pure ⟨fd, identity, openedIdentity⟩

/-- `VerifyBeforeRead`, with the guard it leaves. -/
def verifyBeforeRead (guard : MutationGuard) : PipelineM MutationGuard := do
  let current ← Files.statFd guard.fd
  if current ≠ guard.manifestIdentity then
    throw (identityMismatch "before read")
  else pure { guard with openedIdentity := current }

/-- `VerifyAfterRead`. -/
def verifyAfterRead (guard : MutationGuard) : PipelineM Unit :=
  verifyIdentity guard.fd guard.openedIdentity "during read"

end MutationGuard

end PhotoBridge
