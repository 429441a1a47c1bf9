/-
The resume command (`recovery_service.cpp`, and `ObserveRecoveryFile` of
`pipeline_shared.cpp`): every task that was left RUNNING is looked at and
brought to an end.

# One task

`recoverOne` is a value of the loop, not an exit from it: whatever goes
wrong with a task is a status, and the loop goes on with the next. The
one thing nobody catches is an exception of the JSON library while the
report of a task is rendered.

# Two looks

What is decided is decided on a first look at the source, the temp and
the final. Before anything is adopted the final is read again, and the
temp before it is removed or published.
-/
import PhotoBridge.Db.Ownership
import PhotoBridge.Db.Store
import PhotoBridge.Pipeline.Audit
import PhotoBridge.Pipeline.Guard
import PhotoBridge.Pipeline.Lock
import PhotoBridge.Pipeline.Materialize
import PhotoBridge.Pipeline.Reconcile
import PhotoBridge.Plan.Artifact

namespace PhotoBridge.RecoveryService

open Concurrent JsonText Reconciler

variable (codec : Codec) (blake3 : Bytes → Digest)

/-- The size of the buffer. -/
def bufferSize : Nat := 2 ^ 20

/-- `ReconcileActionName`. -/
def reconcileActionName : ReconcileAction → Bytes
  | .retryTask => text "retry_task"
  | .resumeCommitFromTemp => text "resume_commit"
  | .adoptFinal => text "adopt_final"
  | .adoptFinalAndCleanupTemp => text "adopt_final_cleanup_temp"
  | .reverifyCommitted => text "reverify_committed"
  | .targetConflict => text "target_conflict"
  | .inconsistent => text "inconsistent"

-- ================================================================ the job

/-- What `recover_one` has of its task before it looks at the files. -/
structure Job where
  planId : Bytes
  asset : MinimalPlanAsset
  task : TaskSpec
  runtime : TaskRuntime
  attemptId : Bytes
  recoveryEpoch : Nat
  /-- With the temp path of the receipt, where there is one. -/
  intent : CommitIntent
  receipt : Option VerifiedReceipt

/-- `expected_size`. -/
def Job.expectedSize (job : Job) : UInt64 :=
  match job.receipt with
  | some receipt => receipt.contentSize
  | none => job.asset.sourceIdentity.size

/-- `expected_digest`. -/
def Job.expectedDigest (job : Job) : Digest :=
  match job.receipt with
  | some receipt => receipt.targetDigest
  | none => .zero

/-- `recover_retryable`. -/
def recoverRetryable (job : Job) (reason : Bytes) : PipelineM Unit :=
  repository (.recoverRetryable job.planId job.task.id job.recoveryEpoch
    job.runtime.ownerEpoch job.attemptId reason)

/-- `recover_inconsistent`. -/
def recoverInconsistent (job : Job) (reason : Bytes) : PipelineM Unit :=
  repository (.recoverInconsistent job.planId job.task.id job.recoveryEpoch
    job.runtime.ownerEpoch job.attemptId reason)

/-- `recover_succeeded`. -/
def recoverSucceeded (job : Job) (reason : Bytes) : PipelineM Unit :=
  repository (.recoverSucceeded job.planId job.task.id job.recoveryEpoch
    job.runtime.ownerEpoch job.attemptId reason)

def notActive : Status :=
  .invalid "resume requires a running task with an active attempt"

/-- The task of an asset, if it is running with an attempt, and what the
attempt meant to commit. -/
def openJob (planId : Bytes) (recoveryEpoch : Nat) (asset : MinimalPlanAsset) :
    PipelineM Job := do
  let task ← Attempt.ofExcept (taskSpecForPlanAsset blake3 asset)
  let runtime ← repository (.readRuntime planId task.id)
  match runtime.attemptId with
  | none => throw notActive
  | some attemptId =>
      if runtime.state ≠ .running ∨ runtime.ownerEpoch = 0 then
        throw notActive
      else if asset.targetPath.components.length ≠ 1 then
        throw (.invalid "resume requires a single target path component")
      else pure {
        planId, asset, task, runtime, attemptId, recoveryEpoch
        intent := {
          taskId := task.id
          attemptId
          ownerEpoch := runtime.ownerEpoch
          tempPath := tempNameFor blake3 planId task.id attemptId
          finalPath := asset.targetPath.bytes }
        receipt := none }

/-- `receipt_matches_plan`. -/
def receiptMatchesPlan (job : Job) (receipt : VerifiedReceipt) : Bool :=
  receipt.taskId == job.task.id && receipt.attemptId == job.attemptId
    && receipt.ownerEpoch == job.runtime.ownerEpoch
    && receipt.finalPath == job.asset.targetPath.bytes
    && receipt.contentSize == job.asset.sourceIdentity.size
    && receipt.sourceIdentity == some job.asset.sourceIdentity
    && receipt.sourceDigest == some receipt.targetDigest

/-- The job with a stored receipt. -/
def Job.withReceipt (job : Job) (receipt : VerifiedReceipt) : Job :=
  { job with
    intent := { job.intent with tempPath := receipt.tempPath }
    receipt := some receipt }

def mismatchReason : Bytes :=
  text "verified receipt does not match the frozen plan"

/-- The receipt of the attempt is looked up; one that is about something
else ends the task. -/
def readReceipt (job : Job) : PipelineM Job := do
  let stored ← (repository
    (.readVerifiedReceipt job.planId job.task.id job.attemptId)).result
  match stored with
  | .ok receipt =>
      if receiptMatchesPlan job receipt then pure (job.withReceipt receipt)
      else do
        recoverInconsistent job mismatchReason
        throw ⟨.internal, mismatchReason⟩
  | .error e => if e.code = .notFound then pure job else throw e

-- ============================================================ observation

/-- What is known of the temp or of the final after it was read. -/
def see (temp : Bool) (observed : ObservedFileState)
    (verification : BinaryVerificationResult) : ObservedFileState :=
  if temp then { observed with
    tempExists := true
    tempSize := verification.bytesRead.toUInt64
    tempDigest := some verification.targetDigest
    tempIdentity := some verification.targetAfter }
  else { observed with
    finalExists := true
    finalSize := verification.bytesRead.toUInt64
    finalDigest := some verification.targetDigest
    finalIdentity := some verification.targetAfter }

/-- `ObserveRecoveryFile`, with what is known after it. -/
def observeRecoveryFile (pathBytes : Bytes) (expectedSize : UInt64)
    (expectedDigest : Digest) (temp : Bool) (observed : ObservedFileState)
    (rounds : Nat) : PipelineM (Bool × ObservedFileState) := do
  let path ← Attempt.ofExcept (RelativePath.parse pathBytes)
  let file ← (Files.openSource .target path).result
  match file with
  | .error e => if e.code = .notFound then pure (false, observed) else throw e
  | .ok fd => do
      let verification ← verifyBinary blake3 .fresh fd expectedSize.toNat
        (some expectedDigest) bufferSize rounds
      pure (true, see temp observed verification)

/-- What opening the source under guard shows. -/
def observeSource (asset : MinimalPlanAsset) : PipelineM ObservedFileState := do
  let sourceGuard ←
    (MutationGuard.open_ asset.sourcePath asset.sourceIdentity).result
  match sourceGuard with
  | .ok guard => pure {
      sourceAvailable := true
      sourceIdentity := some guard.manifestIdentity }
  | .error e =>
      if e.code = .notFound then pure {}
      else if e.code = .internal then pure { sourceChanged := true }
      else throw e

/-- The first look at everything. -/
def observe (job : Job) (rounds : Nat) : PipelineM ObservedFileState := do
  let observed ← observeSource job.asset
  let (_, observed) ← observeRecoveryFile blake3 job.intent.tempPath
    job.expectedSize job.expectedDigest true observed rounds
  let (_, observed) ← observeRecoveryFile blake3 job.intent.finalPath
    job.expectedSize job.expectedDigest false observed rounds
  pure observed

/-- What `recover_one` does until it knows what to do. -/
def examine (sourceManifestId targetRoot planId : Bytes) (recoveryEpoch : Nat)
    (asset : MinimalPlanAsset) (rounds : Nat) :
    PipelineM (Job × ObservedFileState × ReconcileDecision) := do
  let job ← openJob blake3 planId recoveryEpoch asset
  let job ← readReceipt job
  let sourceRoot ← readManifestSourceRoot sourceManifestId
  openRoot .source sourceRoot
  openRoot .target targetRoot
  let observed ← observe blake3 job rounds
  let decision ← Attempt.ofExcept
    (decide job.task job.runtime job.intent job.receipt observed)
  pure (job, observed, decision)

/-- `RecoveryAudit`. -/
def recoveryAudit (job : Job) (observed : ObservedFileState)
    (decision : ReconcileDecision) : AuditReport :=
  let expected : List DiffFileState := match job.receipt with
    | none => []
    | some receipt => [
        ⟨receipt.tempPath, receipt.contentSize.toNat, some receipt.targetDigest⟩,
        ⟨receipt.finalPath, receipt.contentSize.toNat, some receipt.targetDigest⟩]
  let temp : List DiffFileState := if observed.tempExists then
    [⟨job.intent.tempPath, observed.tempSize.toNat, observed.tempDigest⟩] else []
  let final : List DiffFileState := if observed.finalExists then
    [⟨job.intent.finalPath, observed.finalSize.toNat, observed.finalDigest⟩]
    else []
  { planId := job.planId
    taskId := job.task.id
    action := reconcileActionName decision.action
    verification := decision.reason
    diff := diffFileStates expected (temp ++ final)
    error := [] }

-- ================================================================ actions

/-- A task that cannot be brought to its end goes back to be retried. -/
def giveBack (job : Job) (reason : String) : PipelineM Unit := do
  recoverRetryable job (text reason)
  throw (.ioError reason)

/-- A second look at the final or at the temp: it is there, as expected. -/
def confirm (job : Job) (temp : Bool) (rounds : Nat) : PipelineM Bool := do
  let path := if temp then job.intent.tempPath else job.intent.finalPath
  let seen ← (observeRecoveryFile blake3 path job.expectedSize
    job.expectedDigest temp {} rounds).result
  match seen with
  | .error _ => pure false
  | .ok (found, confirmation) =>
      let size :=
        if temp then confirmation.tempSize else confirmation.finalSize
      let digest :=
        if temp then confirmation.tempDigest else confirmation.finalDigest
      pure (found && size == job.expectedSize
        && digest == some job.expectedDigest)

/-- The last line of a task's output. -/
def completedLine (job : Job) : Bytes :=
  text "resume completed: " ++ job.planId ++ text " task=" ++ job.task.id
    ++ text " target=" ++ job.asset.targetPath.bytes
    ++ text " state=SUCCEEDED" ++ [10]

/-- The task is done. -/
def complete (job : Job) (reason : Bytes) : PipelineM Unit := do
  recoverSucceeded job reason
  print (completedLine job)

/-- The temp of an adopted final is confirmed and removed. -/
def cleanUp (job : Job) (reason : Bytes) (rounds : Nat) : PipelineM Unit := do
  let confirmedTemp ← confirm blake3 job true rounds
  if confirmedTemp = false then
    giveBack job "verified temp changed before cleanup"
  else do
    Files.unlinkAt job.intent.tempPath
    Files.fsyncDirectory
    complete job reason

/-- `kAdoptFinal` and `kAdoptFinalAndCleanupTemp`. -/
def adopt (job : Job) (reason : Bytes) (cleanup : Bool) (rounds : Nat) :
    PipelineM Unit := do
  let confirmedFinal ← confirm blake3 job false rounds
  if confirmedFinal = false then
    giveBack job "final changed before recovery commit"
  else if cleanup then cleanUp blake3 job reason rounds
  else complete job reason

/-- `kResumeCommitFromTemp`. -/
def resumeCommit (job : Job) (reason : Bytes) (rounds : Nat) :
    PipelineM Unit := do
  let tempPath ← Attempt.ofExcept (RelativePath.parse job.intent.tempPath)
  let tempFd ← Files.openSource .target tempPath
  let verification ← verifyBinary blake3 .fresh tempFd job.expectedSize.toNat
    (some job.expectedDigest) bufferSize rounds
  if verification.status ≠ .identical then
    giveBack job "verified temp no longer matches receipt"
  else do
    Files.fdatasync tempFd
    Files.renameNoReplace job.intent.tempPath job.intent.finalPath
    Files.fsyncDirectory
    complete job reason

/-- What is done about a decision. -/
def act (job : Job) (decision : ReconcileDecision) (rounds : Nat) :
    PipelineM Unit :=
  match decision.action with
  | .retryTask => do
      recoverRetryable job decision.reason
      throw ⟨.ioError, decision.reason⟩
  | .targetConflict => do
      recoverInconsistent job decision.reason
      throw ⟨.alreadyExists, decision.reason⟩
  | .inconsistent => do
      recoverInconsistent job decision.reason
      throw ⟨.internal, decision.reason⟩
  | .adoptFinal => adopt blake3 job decision.reason false rounds
  | .adoptFinalAndCleanupTemp => adopt blake3 job decision.reason true rounds
  | .resumeCommitFromTemp => resumeCommit blake3 job decision.reason rounds
  | .reverifyCommitted =>
      throw (.invalid "resume cannot reverify a non-running task")

/-- `recover_one`: the status it returns. -/
def recoverOne (sourceManifestId targetRoot planId : Bytes)
    (recoveryEpoch rounds : Nat) (asset : MinimalPlanAsset) :
    PipelineM (Except Status Unit) := do
  let examined ← (examine blake3 sourceManifestId targetRoot planId
    recoveryEpoch asset rounds).result
  match examined with
  | .error e => pure (.error e)
  | .ok (job, observed, decision) => do
      let report ← Attempt.ofExcept
        (renderAuditReport codec (recoveryAudit job observed decision))
      print report
      (act blake3 job decision rounds).result

-- ============================================================ the command

/-- The assets whose tasks are RUNNING: those behind `running_indices`. -/
def runningAssets (planId : Bytes) :
    List MinimalPlanAsset → PipelineM (List MinimalPlanAsset)
  | [] => pure []
  | asset :: rest => do
      let candidate ← Attempt.ofExcept (taskSpecForPlanAsset blake3 asset)
      let runtime ← repository (.readRuntime planId candidate.id)
      let running ← runningAssets planId rest
      if runtime.state = .running then pure (asset :: running)
      else pure running

/-- The error to report once a task has ended with this result. -/
def keepFirst (first result : Except Status Unit) : Except Status Unit :=
  match first with
  | .ok () => result
  | .error e => .error e

/-- The loop over the running tasks, with `first_error`. -/
def recoverAll (recover : MinimalPlanAsset → PipelineM (Except Status Unit))
    (assets : List MinimalPlanAsset) (first : Except Status Unit) :
    PipelineM (Except Status Unit) :=
  assets.foldlM (fun first asset => do
    let result ← recover asset
    pure (keepFirst first result)) first

def noneRunning : Status :=
  ⟨.notFound, text "no RUNNING task remains in the materialized plan"⟩

/-- What is done once it is known which tasks are running. -/
def recoverRunning (artifact : FrozenPlanFile) (rounds : Nat)
    (running : List MinimalPlanAsset) : PipelineM Unit :=
  if running = [] then throw noneRunning
  else do
    let recoveryEpoch ← repository (.acquireNextExecutionEpoch artifact.planId)
    let first ← recoverAll (recoverOne codec blake3
      artifact.plan.sourceManifestId artifact.plan.targetRoot artifact.planId
      recoveryEpoch rounds) running (.ok ())
    Attempt.ofExcept first

/-- `RecoveryService::Execute`. -/
def execute (layout : WorkspaceLayout) (inputPath : Bytes) (rounds : Nat) :
    PipelineM Unit := do
  let planBytes ← readPlanFile inputPath
  let artifact ← Attempt.ofExcept (readFrozenPlan codec blake3 planBytes)
  if artifact.plan.assets = [] then
    throw (.invalid "resume plan must contain at least one asset")
  else do
    acquireLock (executionLockPath layout artifact.planId)
    openDatabase layout.database
    let running ← runningAssets blake3 artifact.planId artifact.plan.assets
    recoverRunning codec blake3 artifact rounds running

-- ====================================================== what it is for

/-- What recovery goes by of one task. -/
structure Evidence where
  asset : MinimalPlanAsset
  runtime : TaskRuntime
  receipt : Option VerifiedReceipt
  source : Option FileVersion
  temp : Option FileVersion
  final : Option FileVersion

/-- How a task ends: its runtime row, the state of the attempt it was
running under, and what is behind the two names. -/
structure Ending where
  runtime : TaskRuntime
  attempt : FileAttemptState
  temp : Option FileVersion
  final : Option FileVersion

namespace Evidence

variable (e : Evidence)

/-- The receipt is about the asset and the running attempt. -/
def consistent : Bool :=
  e.receipt.all fun receipt =>
    receipt.taskId == e.runtime.id
      && some receipt.attemptId == e.runtime.attemptId
      && receipt.ownerEpoch == e.runtime.ownerEpoch
      && receipt.finalPath == e.asset.targetPath.bytes
      && receipt.contentSize == e.asset.sourceIdentity.size
      && receipt.sourceIdentity == some e.asset.sourceIdentity
      && receipt.sourceDigest == some receipt.targetDigest

/-- What is seen of the files. -/
def observed : ObservedFileState where
  sourceAvailable := e.source.any (·.identity == e.asset.sourceIdentity)
  sourceChanged := e.source.any (·.identity != e.asset.sourceIdentity)
  tempExists := e.temp.isSome
  finalExists := e.final.isSome
  sourceIdentity := (e.source.filter
    (·.identity == e.asset.sourceIdentity)).map (·.identity)
  tempIdentity := e.temp.map (·.identity)
  finalIdentity := e.final.map (·.identity)
  tempSize := (e.temp.map (·.identity.size)).getD 0
  finalSize := (e.final.map (·.identity.size)).getD 0
  tempDigest := e.temp.map fun v => blake3 v.content
  finalDigest := e.final.map fun v => blake3 v.content

/-- The task released into a state, its files as they were. -/
def released (state : TaskState) (attempt : FileAttemptState)
    (lastError : Option Status) : Ending where
  runtime := { e.runtime with
    state, ownerEpoch := 0, attemptId := none, lastError }
  attempt := attempt
  temp := e.temp
  final := e.final

def retried (reason : Bytes) : Ending :=
  e.released .retryable .retryable (some ⟨.ioError, reason⟩)

def setAside (reason : Bytes) : Ending :=
  e.released .inconsistent .inconsistent (some ⟨.internal, reason⟩)

def succeeded : Ending := e.released .succeeded .committed none

/-- How the task ends, and what `recover_one` returns. -/
def fate : Ending × Except Status Unit :=
  if e.consistent = false then
    (e.setAside mismatchReason, .error ⟨.internal, mismatchReason⟩)
  else
    let decision := firstRule e.runtime e.receipt (e.observed blake3)
    match decision.action with
    | .retryTask =>
        (e.retried decision.reason, .error ⟨.ioError, decision.reason⟩)
    | .targetConflict =>
        (e.setAside decision.reason, .error ⟨.alreadyExists, decision.reason⟩)
    | .inconsistent =>
        (e.setAside decision.reason, .error ⟨.internal, decision.reason⟩)
    | .adoptFinal => (e.succeeded, .ok ())
    | .adoptFinalAndCleanupTemp => ({ e.succeeded with temp := none }, .ok ())
    | .resumeCommitFromTemp =>
        ({ e.succeeded with temp := none, final := e.temp }, .ok ())
    | .reverifyCommitted =>
        (e.released e.runtime.state .committed e.runtime.lastError,
          .error (.invalid "resume cannot reverify a non-running task"))

end Evidence

/-- The pipeline's way to use the repository: an error ends a batch, and a
receipt is about the temp that is named after its attempt. -/
def preparing : Store → Nat → Action → Prop := fun σ i action =>
  stopsAtError σ i action
    ∧ ∀ planId receipt,
      action = .call (.persistVerifiedReceipt planId receipt) →
        receipt.tempPath
          = tempNameFor blake3 planId receipt.taskId receipt.attemptId

/-- The rows of a task. -/
def rowsOf (db : Db) (planId taskId : Bytes) :
    Option TaskRow × List AttemptRow × List EventRow × List ReceiptRow :=
  (db.task? planId taskId, db.attemptsOf planId taskId,
    db.events.filter fun e => e.planId == planId && e.taskId == taskId,
    db.receipts.filter fun r => r.planId == planId && r.taskId == taskId)

/-- A workspace with a plan that was accepted and materialised, in a state
that commands may have left it in. The planner also makes targets inside
directories; `Execute` refuses to resume one of those (`single`). -/
structure Setting where
  strerror : Nat → Bytes
  blake3 : Bytes → Digest
  codec : Codec
  layout : WorkspaceLayout
  inputPath : Bytes
  machine : Machine
  artifact : FrozenPlanFile
  lawful : codec.Lawful
  encoded : codec.Encoded
  sound : machine.disk.Sound
  accepted : ∃ bytes, machine.planFiles inputPath = some bytes
    ∧ readFrozenPlan codec blake3 bytes = .ok artifact
  reachable : ∃ db t store, db.Fresh ∧ Run (preparing blake3) db t store
    ∧ store.committed = machine.db
  /-- As `MaterializePlan` leaves it: a row for each task, and one task for
  each asset. -/
  materialized : ∃ tasks, TasksOf blake3 artifact.plan.assets tasks
    ∧ (tasks.map TaskSpec.id).Nodup
    ∧ ∀ task ∈ tasks, validateTaskSpec task = .ok () ∧ ∃ runtime,
      (Repository.readRuntime artifact.planId task.id : DbTxn TaskRuntime)
        machine.db = .ok (runtime, machine.db)
  /-- The plan's epoch can be moved on. -/
  epochs : ∃ epoch db, (Repository.acquireNextExecutionEpoch artifact.planId :
    DbTxn Nat) machine.db = .ok (epoch, db)
  manifest : ∃ root, machine.db.readManifestSourceRoot
    artifact.plan.sourceManifestId = .ok root
  /-- No target is inside a directory. -/
  single : ∀ asset ∈ artifact.plan.assets,
    asset.targetPath.components.length = 1
  utf8 : ∀ asset ∈ artifact.plan.assets, IsUtf8 asset.targetPath.bytes
  distinct : (artifact.plan.assets.map (·.targetPath.bytes)).Nodup
  /-- No target is called like a temp. -/
  generated : ∀ asset ∈ artifact.plan.assets, ∀ taskId attemptId,
    asset.targetPath.bytes
      ≠ tempNameFor blake3 artifact.planId taskId attemptId

namespace Setting

variable (σ : Setting)

/-- The runtime row of an asset's task. -/
def runtimeIn (db : Db) (asset : MinimalPlanAsset) : Option TaskRuntime :=
  (taskSpecForPlanAsset σ.blake3 asset).toOption.bind fun task =>
    ((Repository.readRuntime σ.artifact.planId task.id : DbTxn TaskRuntime)
      db).toOption.map (·.1)

/-- The assets whose tasks are RUNNING, in plan order. -/
def running : List MinimalPlanAsset :=
  σ.artifact.plan.assets.filter fun asset =>
    (σ.runtimeIn σ.machine.db asset).any (·.state == .running)

/-- The temp of a task's active attempt. -/
def tempOf (runtime : TaskRuntime) : Bytes :=
  tempNameFor σ.blake3 σ.artifact.planId runtime.id (runtime.attemptId.getD [])

/-- What recovery goes by of an asset's task. -/
def evidence (asset : MinimalPlanAsset) : Option Evidence :=
  (σ.runtimeIn σ.machine.db asset).map fun runtime => {
    asset
    runtime
    receipt := ((Repository.readVerifiedReceipt σ.artifact.planId runtime.id
      (runtime.attemptId.getD []) : DbTxn VerifiedReceipt)
        σ.machine.db).toOption.map (·.1)
    source := σ.machine.disk.version? .source asset.sourcePath.bytes
    temp := σ.machine.disk.version? .target (σ.tempOf runtime)
    final := σ.machine.disk.version? .target asset.targetPath.bytes }

/-- How an asset's task has ended in a later state of the machine. -/
def ending (w : Machine) (asset : MinimalPlanAsset) : Option Ending :=
  (σ.evidence asset).bind fun e =>
    (σ.runtimeIn w.db asset).bind fun runtime =>
      (w.db.attemptState? σ.artifact.planId e.runtime.id
        (e.runtime.attemptId.getD []) e.runtime.ownerEpoch).map fun attempt => {
          runtime
          attempt
          temp := w.disk.version? .target (σ.tempOf e.runtime)
          final := w.disk.version? .target asset.targetPath.bytes }

/-- The asset's task has succeeded. -/
def succeededIn (w : Machine) (asset : MinimalPlanAsset) : Bool :=
  (σ.runtimeIn w.db asset).any (·.state == .succeeded)

/-- What the command leaves behind when it ends with this result. -/
structure Finished (r : Option (Except Status Unit)) (w : Machine) :
    Prop where
  /-- Every task that was RUNNING has met its fate. -/
  ended : ∀ asset ∈ σ.running, ∃ e, σ.evidence asset = some e
    ∧ σ.ending w asset = some (e.fate σ.blake3).1
  /-- No task is RUNNING. -/
  none_running : ∀ asset ∈ σ.artifact.plan.assets, ∃ runtime,
    σ.runtimeIn w.db asset = some runtime ∧ runtime.state ≠ .running
  /-- Every other task has the rows it had. -/
  others : ∀ planId taskId,
    (∀ asset ∈ σ.running, ∀ runtime,
      σ.runtimeIn σ.machine.db asset = some runtime →
        ¬(planId = σ.artifact.planId ∧ taskId = runtime.id)) →
    rowsOf w.db planId taskId = rowsOf σ.machine.db planId taskId
  ok_iff : r = some (.ok ()) ↔ ∀ asset ∈ σ.running, σ.succeededIn w asset = true
  /-- An error is that of the first task that has not succeeded. -/
  error_iff : ∀ error, r = some (.error error) ↔ ∃ asset e,
    σ.running.find? (fun asset => !σ.succeededIn w asset) = some asset
      ∧ σ.evidence asset = some e ∧ (e.fate σ.blake3).2 = .error error

/-- Every run of the command, given rounds enough for its files. -/
def Runs (P : Option (Except Status Unit) → Machine → Prop) : Prop :=
  Settles (pipelineEffects σ.strerror σ.blake3 .none)
    (fun rounds =>
      (execute σ.codec σ.blake3 σ.layout σ.inputPath rounds).program)
    σ.machine P

/-- A task that was RUNNING ends as it does where it is the only one. -/
def Independent : Prop :=
  ∀ asset ∈ σ.running, ∀ τ : Setting, τ.blake3 = σ.blake3 →
    τ.running = [asset] → τ.evidence asset = σ.evidence asset →
      σ.Runs fun _ w => τ.Runs fun _ w' => τ.ending w' asset = σ.ending w asset

/-- No file of one RUNNING task is a file of another: the hash tells their
temps apart, and no source is another's temp or final. -/
structure Apart : Prop where
  temps : ∀ a ∈ σ.running, ∀ b ∈ σ.running, a ≠ b → ∀ ra rb,
    σ.runtimeIn σ.machine.db a = some ra →
    σ.runtimeIn σ.machine.db b = some rb → σ.tempOf ra ≠ σ.tempOf rb
  sources : ∀ a ∈ σ.running, ∀ b ∈ σ.running, a ≠ b → ∀ rb,
    σ.runtimeIn σ.machine.db b = some rb →
      σ.machine.disk.sources a.sourcePath.bytes ≠ .target (σ.tempOf rb)
        ∧ σ.machine.disk.sources a.sourcePath.bytes
          ≠ .target b.targetPath.bytes

end Setting

end PhotoBridge.RecoveryService
