/-
The verify command (`verify_service.cpp`): every source is read again and
every target, and the two are compared.

The verdict is not taken asset by asset. What was read of each is put
into two lists, and the command succeeds when `DiffFileStates` finds
nothing between them.
-/
import PhotoBridge.Pipeline.Audit
import PhotoBridge.Pipeline.Guard
import PhotoBridge.Pipeline.Lock
import PhotoBridge.Plan.Artifact

namespace PhotoBridge.VerifyService

open Concurrent JsonText

variable (codec : Codec) (blake3 : Bytes → Digest)

/-- The size of the buffer. -/
def bufferSize : Nat := 2 ^ 20

structure VerificationSummary where
  bytes : Nat
  expected : DiffFileState
  observed : DiffFileState

/-- What `VerifyPlanAsset` does with the source: its size and its
digest. -/
def verifySource (asset : MinimalPlanAsset) (rounds : Nat) :
    PipelineM (Nat × Digest) := do
  let guard ← MutationGuard.open_ asset.sourcePath asset.sourceIdentity
  let guard ← guard.verifyBeforeRead
  let source ← verifyBinary blake3 .fresh guard.fd
    asset.sourceIdentity.size.toNat none bufferSize rounds
  guard.verifyAfterRead
  if source.targetBefore ≠ guard.manifestIdentity
      ∨ source.targetAfter ≠ guard.manifestIdentity
      ∨ source.bytesRead ≠ asset.sourceIdentity.size.toNat then
    throw (.internal "source changed during independent verification")
  else pure (source.bytesRead, source.targetDigest)

/-- `VerifyPlanAsset`. -/
def verifyPlanAsset (asset : MinimalPlanAsset) (rounds : Nat) :
    PipelineM VerificationSummary :=
  if asset.targetPath.components.length ≠ 1 then
    throw (.invalid
      "single-thread verification requires a single target path component")
  else do
    let (size, digest) ← verifySource blake3 asset rounds
    let targetFd ← Files.openSource .target asset.targetPath
    let target ← verifyBinary blake3 .fresh targetFd
      asset.sourceIdentity.size.toNat (some digest) bufferSize rounds
    pure {
      bytes := target.bytesRead
      expected := ⟨asset.targetPath.bytes, size, some digest⟩
      observed := ⟨asset.targetPath.bytes, target.bytesRead,
        some target.targetDigest⟩ }

/-- What the loop over the assets keeps. -/
structure Verified where
  bytes : Nat
  expected : List DiffFileState
  observed : List DiffFileState

/-- What the loop does with one asset. -/
def verifyTask (planId : Bytes) (rounds : Nat) (done : Verified)
    (asset : MinimalPlanAsset) : PipelineM Verified := do
  let task ← Attempt.ofExcept (taskSpecForPlanAsset blake3 asset)
  let runtime ← repository (.readRuntime planId task.id)
  if runtime.state ≠ .succeeded then
    throw (.invalid
      "binary verification requires every task to be succeeded")
  else do
    let summary ← verifyPlanAsset blake3 asset rounds
    if uint64Max - summary.bytes < done.bytes then
      throw (.internal "verified byte count overflowed")
    else pure {
      bytes := done.bytes + summary.bytes
      expected := done.expected ++ [summary.expected]
      observed := done.observed ++ [summary.observed] }

/-- The loop over the assets. -/
def verifyTasks (planId : Bytes) (rounds : Nat) (done : Verified)
    (assets : List MinimalPlanAsset) : PipelineM Verified :=
  assets.foldlM (verifyTask blake3 planId rounds) done

/-- What is reported of a diff. -/
def verifyReport (planId : Bytes) (diff : List DiffEntry) : AuditReport where
  planId := planId
  taskId := []
  action := text "verify"
  verification := if diff.isEmpty then text "IDENTICAL" else text "MISMATCH"
  diff := diff
  error := if diff.isEmpty then [] else text "target differs from source"

/-- The last line of the output. -/
def completedLine (planId : Bytes) (tasks bytes : Nat) : Bytes :=
  text "verify completed: " ++ planId ++ text " tasks=" ++ decimal tasks
    ++ text " status=IDENTICAL bytes=" ++ decimal bytes ++ [10]

/-- What follows the loop. -/
def conclude (artifact : FrozenPlanFile) (done : Verified) : PipelineM Unit := do
  let diff := diffFileStates done.expected done.observed
  let report ← Attempt.ofExcept
    (renderAuditReport codec (verifyReport artifact.planId diff))
  print report
  if diff ≠ [] then
    throw (.internal "target binary verification did not match source")
  else print (completedLine artifact.planId artifact.plan.assets.length
    done.bytes)

/-- `VerifyService::Execute`. -/
def execute (layout : WorkspaceLayout) (inputPath : Bytes) (rounds : Nat) :
    PipelineM Unit := do
  let planBytes ← readPlanFile inputPath
  let artifact ← Attempt.ofExcept (readFrozenPlan codec blake3 planBytes)
  if artifact.plan.assets = [] then
    throw (.invalid "verification plan must contain at least one asset")
  else do
    openDatabase layout.database
    let sourceRoot ← readManifestSourceRoot artifact.plan.sourceManifestId
    openRoot .source sourceRoot
    openRoot .target artifact.plan.targetRoot
    let done ← verifyTasks blake3 artifact.planId rounds ⟨0, [], []⟩
      artifact.plan.assets
    conclude codec artifact done

-- ====================================================== what it is for

/-- A workspace to verify: a plan that is accepted, all of its tasks done,
its sources as they were when it was made, and both roots there. -/
structure Setting where
  strerror : Nat → Bytes
  blake3 : Bytes → Digest
  codec : Codec
  layout : WorkspaceLayout
  inputPath : Bytes
  machine : Machine
  artifact : FrozenPlanFile
  lawful : codec.Lawful
  encoded : codec.Encoded
  sound : machine.disk.Sound
  /-- No two files that differ have one digest. -/
  collisionFree : ∀ f ∈ machine.disk.files, ∀ g ∈ machine.disk.files,
    blake3 f.current.content = blake3 g.current.content →
      f.current.content = g.current.content
  accepted : ∃ bytes, machine.planFiles inputPath = some bytes
    ∧ readFrozenPlan codec blake3 bytes = .ok artifact
  nonempty : artifact.plan.assets ≠ []
  single : ∀ asset ∈ artifact.plan.assets,
    asset.targetPath.components.length = 1
  succeeded : ∀ asset ∈ artifact.plan.assets, ∃ task runtime,
    taskSpecForPlanAsset blake3 asset = .ok task
      ∧ (Repository.readRuntime artifact.planId task.id : DbTxn TaskRuntime)
        machine.db = .ok (runtime, machine.db)
      ∧ runtime.state = .succeeded
  manifest : ∃ root, machine.db.readManifestSourceRoot
    artifact.plan.sourceManifestId = .ok root
  unchanged : ∀ asset ∈ artifact.plan.assets, ∃ source,
    machine.disk.version? .source asset.sourcePath.bytes = some source
      ∧ source.identity = asset.sourceIdentity

namespace Setting

variable (σ : Setting)

/-- The target of the asset has the bytes of its source. -/
def Matches (asset : MinimalPlanAsset) : Prop :=
  ∃ source target,
    σ.machine.disk.version? .source asset.sourcePath.bytes = some source
      ∧ σ.machine.disk.version? .target asset.targetPath.bytes = some target
      ∧ target.content = source.content

/-- The asset is the first in the plan with its target path. -/
def First (asset : MinimalPlanAsset) : Prop :=
  σ.artifact.plan.assets.find?
    (·.targetPath.bytes == asset.targetPath.bytes) = some asset

/-- The bytes of the asset's target. -/
def targetSize (asset : MinimalPlanAsset) : Nat :=
  match σ.machine.disk.version? .target asset.targetPath.bytes with
  | none => 0
  | some target => target.content.length

/-- The targets, one for each asset, have no more bytes than 64 bits can
count. -/
def Fits : Prop :=
  (σ.artifact.plan.assets.map σ.targetSize).sum ≤ uint64Max

/-- Every run of the command, given rounds enough for its files. -/
def Runs (P : Option (Except Status Unit) → Prop) : Prop :=
  Settles (pipelineEffects σ.strerror σ.blake3 .none)
    (fun rounds =>
      (execute σ.codec σ.blake3 σ.layout σ.inputPath rounds).program)
    σ.machine fun r _ => P r

/-- The command succeeds exactly when every target has the bytes of its
source. -/
def Correct : Prop :=
  σ.Runs fun r => r = some (.ok ())
    ↔ ∀ asset ∈ σ.artifact.plan.assets, σ.Matches asset

/-- The only targets that do not match are those of assets whose target
path an earlier asset has as well. -/
def Hidden : Prop :=
  σ.Fits ∧ (∀ asset ∈ σ.artifact.plan.assets, σ.First asset → σ.Matches asset)
    ∧ ∃ asset ∈ σ.artifact.plan.assets, ¬σ.Matches asset

/-- All targets match, and are too many bytes to count. -/
def TooLarge : Prop :=
  ¬σ.Fits ∧ ∀ asset ∈ σ.artifact.plan.assets, σ.Matches asset

end Setting

end PhotoBridge.VerifyService
