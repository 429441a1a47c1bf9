/-
Preparing one attempt (`migration_attempt_preparer.cpp`, and the copy loop
of `copy_and_hash.cpp` over the calls of the file system).

The source is copied to a temporary file, by the accelerated copy or by
the plain loop, and read back before the receipt is stored. Whatever
happens to the source in the meantime shows in its identity: the guard
compares it before the first read and after the last.
-/
import PhotoBridge.Pipeline.Guard
import PhotoBridge.Plan

namespace PhotoBridge.Preparer

open Concurrent

variable (blake3 : Bytes → Digest)

-- ================================================================ copying

/-- `WriteAll` of the bytes that are left; each round writes at least one
of them, so their number bounds the rounds. -/
def writeAll (targetFd : Nat) : Nat → Bytes → PipelineM Unit
  | 0, _ => pure ()
  | fuel + 1, bytes =>
      if bytes = [] then pure ()
      else do
        let written ← Files.write targetFd bytes
        if written = 0 then
          throw (.ioError "target write made no progress")
        else if bytes.length < written then
          throw (.internal "target write exceeded requested byte count")
        else writeAll targetFd fuel (bytes.drop written)

/-- The loop of `CopyAndHash`: how many bytes were copied, and the hasher
that was fed with them. -/
def copyLoop (sourceFd targetFd size : Nat) :
    Nat → Nat → Hasher → PipelineM (Nat × Hasher)
  | 0, _, _ => Attempt.spent
  | rounds + 1, bytesCopied, hasher => do
      let chunk ← Files.read sourceFd size
      if size < chunk.length then
        throw (.internal "source read exceeded buffer capacity")
      else if chunk = [] then pure (bytesCopied, hasher)
      else if uint64Max - chunk.length < bytesCopied then
        throw (.internal "copied byte count overflowed")
      else do
        let hasher ← Attempt.ofExcept (hasher.update chunk)
        writeAll targetFd chunk.length chunk
        copyLoop sourceFd targetFd size rounds (bytesCopied + chunk.length)
          hasher

/-- `CopyAndHash` of two descriptors. -/
def copyAndHash (hasher : Hasher) (sourceFd targetFd size rounds : Nat) :
    PipelineM CopyResult :=
  if size = 0 then throw (.invalid "copy buffer must not be empty")
  else do
    let (bytesCopied, hasher) ←
      copyLoop sourceFd targetFd size rounds 0 hasher
    let digest ← Attempt.ofExcept (hasher.finalize blake3).1
    pure ⟨bytesCopied, digest⟩

/-- `CopyAndHash` of a guarded source. -/
def guardedCopyAndHash (hasher : Hasher) (guard : MutationGuard)
    (targetFd size rounds : Nat) : PipelineM CopyResult := do
  let guard ← guard.verifyBeforeRead
  let result ← copyAndHash blake3 hasher guard.fd targetFd size rounds
  guard.verifyAfterRead
  pure result

/-- One way or the other. -/
def copySource (guard : MutationGuard) (tempFd size rounds : Nat) :
    PipelineM CopyResult := do
  let accelerated ← Files.tryIoUringCopyAndHash guard.fd tempFd
    guard.manifestIdentity.size
  match accelerated with
  | some copy => do
      guard.verifyAfterRead
      pure copy
  | none => guardedCopyAndHash blake3 .fresh guard tempFd size rounds

-- ============================================================== preparing

/-- The fields of an attempt. -/
structure AttemptKey where
  planId : Bytes
  taskId : Bytes
  executionEpoch : Nat
  attemptId : Bytes
  tempName : Bytes

/-- The receipt of a copy that was verified. -/
def receiptOf (guard : MutationGuard) (asset : MinimalPlanAsset)
    (key : AttemptKey) (copy : CopyResult) (targetDigest : Digest) :
    VerifiedReceipt where
  taskId := key.taskId
  attemptId := key.attemptId
  ownerEpoch := key.executionEpoch
  tempPath := key.tempName
  finalPath := asset.targetPath.bytes
  contentSize := copy.bytesCopied.toUInt64
  sourceDigest := some copy.sourceDigest
  targetDigest := targetDigest
  sourceIdentity := some guard.manifestIdentity

/-- Reading the temporary file back, and the receipt. -/
def verifyTemp (guard : MutationGuard) (asset : MinimalPlanAsset)
    (key : AttemptKey) (copy : CopyResult) (size rounds : Nat) :
    PipelineM VerifiedReceipt := do
  let tempPath ← Attempt.ofExcept (RelativePath.parse key.tempName)
  let verifyFd ← Files.openSource .target tempPath
  let verification ← verifyBinary blake3 .fresh verifyFd copy.bytesCopied
    (some copy.sourceDigest) size rounds
  if verification.status ≠ .identical then
    throw (.internal "temporary file failed independent binary verification")
  else do
    let receipt :=
      receiptOf guard asset key copy verification.targetDigest
    repository (.persistVerifiedReceipt key.planId receipt)
    pure receipt

/-- `MigrationAttemptPreparer::Prepare`. -/
def prepare (guard : MutationGuard) (asset : MinimalPlanAsset)
    (key : AttemptKey) (size rounds : Nat) : PipelineM VerifiedReceipt :=
  if key.planId.isEmpty || key.taskId.isEmpty || key.attemptId.isEmpty
      || key.tempName.isEmpty then
    throw (.invalid "migration attempt fields must not be empty")
  else if asset.targetPath.components.length ≠ 1 then
    throw (.invalid
      "single-thread temp preparation requires a single target path component")
  else do
    repository (.markCommitIntent key.planId key.taskId key.executionEpoch
      key.attemptId)
    let tempFd ← Files.createTempNoReplace key.tempName
    let guard ← guard.verifyBeforeRead
    let copy ← copySource blake3 guard tempFd size rounds
    Files.fdatasync tempFd
    repository (.markTempWritten key.planId key.taskId key.executionEpoch
      key.attemptId)
    verifyTemp blake3 guard asset key copy size rounds

-- ====================================================== what it is for

/-- An attempt about to be prepared: its guard has just opened the source,
it has no receipt yet, and its temporary file is not the final one. -/
structure Preparation where
  strerror : Nat → Bytes
  blake3 : Bytes → Digest
  machine : Machine
  guard : MutationGuard
  asset : MinimalPlanAsset
  key : AttemptKey
  /-- The source file, as a file of the disk. -/
  source : Nat
  file : DiskFile
  opened : machine.disk.openFile? guard.fd = some (⟨source, 0⟩, file)
  frozen : guard.manifestIdentity = asset.sourceIdentity
  fresh : machine.db.receipts.any
    (ReceiptRow.isAt key.planId key.taskId key.attemptId) = false
  apart : key.tempName ≠ asset.targetPath.bytes

namespace Preparation

variable (P : Preparation)

/-- Every call may fail, and the source may be modified at any moment. -/
def trouble : Trouble := ⟨True, (· = P.source)⟩

/-- A run of the preparation, with this buffer. -/
def Runs (size rounds : Nat) (r : Option (Except Status VerifiedReceipt))
    (w : Machine) : Prop :=
  Returns (pipelineEffects P.strerror P.blake3 P.trouble)
    (prepare P.blake3 P.guard P.asset P.key size rounds).program P.machine r w

/-- The temporary file has the bytes of the source at its frozen identity,
they are synced, and the stored receipt, which is this one, is about
them. -/
def Prepared (receipt : VerifiedReceipt) (w : Machine) : Prop :=
  ∃ (source temp : DiskFile) (version : FileVersion) (index : Nat),
    w.disk.files[P.source]? = some source ∧ version ∈ source.versions
      ∧ version.identity = P.asset.sourceIdentity
      ∧ w.disk.targets P.key.tempName = some index
      ∧ w.disk.files[index]? = some temp
      ∧ temp.current.content = version.content ∧ temp.synced = true
      ∧ receipt.contentSize = P.asset.sourceIdentity.size
      ∧ receipt.sourceDigest = some (P.blake3 version.content)
      ∧ receipt.targetDigest = P.blake3 version.content
      ∧ (Repository.readVerifiedReceipt P.key.planId P.key.taskId
          P.key.attemptId : DbTxn VerifiedReceipt) w.db = .ok (receipt, w.db)

/-- There is no receipt of the attempt, no other has gone or come, and the
final path is as it was; so is every file but the source. -/
structure Abandoned (w : Machine) : Prop where
  receipt : w.db.receipts.any
    (ReceiptRow.isAt P.key.planId P.key.taskId P.key.attemptId) = false
  receipts : w.db.receipts = P.machine.db.receipts
  final : w.disk.targets P.asset.targetPath.bytes
    = P.machine.disk.targets P.asset.targetPath.bytes
  files : ∀ index f, index ≠ P.source →
    P.machine.disk.files[index]? = some f → w.disk.files[index]? = some f

end Preparation

end PhotoBridge.Preparer
