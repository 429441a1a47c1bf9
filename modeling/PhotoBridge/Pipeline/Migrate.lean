/-
The migrate command (`migration_service.cpp`): the tasks of a plan that
are READY are claimed one after the other and prepared by a pool of
workers.

# The pool

The producer claims tasks and queues them, eight at most; each worker
takes a task off the queue, prepares its attempt and reports a line or an
error. What the producer, the workers and the condition variable they
share do is that of any such pool (Lib/WorkerPool.lean); here are the
claim, what the producer makes of its answer, and a worker's job.

# The writer

The workers and the producer reach the database through one
`RuntimeDbWriter`. What it answers to a command it has answered once, and
it has done what the command says or nothing at all, in which case the
answer is an error: the command's own, that of another command of its
batch, or that the writer has stopped (Writer/).

# Open files

Every attempt has descriptors of its own, which are closed when it is
over: a descriptor is a place in the table of its attempt.
-/
import PhotoBridge.Lib.Keeping
import PhotoBridge.Lib.WorkerPool
import PhotoBridge.Pipeline.Lock
import PhotoBridge.Pipeline.Materialize
import PhotoBridge.Pipeline.Prepare
import PhotoBridge.Plan.Artifact

namespace PhotoBridge.MigrationService

open Concurrent JsonText

-- =============================================================== the calls

/-- The operations of the database that only this command uses. -/
inductive StoreCall
  | materializePlan (artifact : FrozenPlanFile) (artifactPath : Bytes)
  | readTaskStateCounts (planId : Bytes)
  | setReady (planId taskId : Bytes)
  | claimNextReady (planId : Bytes) (epoch : Nat)
  | markRetryable (planId taskId : Bytes) (epoch : Nat) (attemptId : Bytes)
      (error : Status)

/-- What an operation returns. -/
abbrev StoreCall.Value : StoreCall → Type
  | .materializePlan _ _ => Nat
  | .readTaskStateCounts _ => List Nat
  | .claimNextReady _ _ => ClaimedTask
  | _ => Unit

/-- The operation behind a call, in either reading. -/
def StoreCall.run (blake3 : Bytes → Digest) {m : Type → Type} [Monad m]
    [MonadExceptOf Status m] [SqlMonad m] [TxnMonad m] :
    (c : StoreCall) → m c.Value
  | .materializePlan artifact path =>
      PhotoBridge.materializePlan blake3 artifact path
  | .readTaskStateCounts p => PhotoBridge.readTaskStateCounts p
  | .setReady p t => PhotoBridge.setReady p t
  | .claimNextReady p e => Repository.claimNextReady p e none
  | .markRetryable p t e a error => Repository.markRetryable p t e a error

inductive MigrationCall
  | pipeline (c : PipelineCall)
  | store (c : StoreCall)
  /-- `RuntimeDbWriter::Start`. -/
  | startWriter (path : Bytes) (batchSize : Nat)

abbrev migrationCalls : Interface where
  Call := MigrationCall
  Answer
    | .pipeline c => pipelineCalls.Answer c
    | .store c => Except Status c.Value
    | .startWriter _ _ => Except Status Unit

abbrev MigrationM := Attempt migrationCalls Status

/-- A function of the pipeline, as a step of this command. -/
def pipeline {α : Type} (x : PipelineM α) : MigrationM α :=
  x.through .pipeline fun _ r => r

/-- One call. -/
def ask (c : MigrationCall) : Program migrationCalls (migrationCalls.Answer c) :=
  .call c .done

def store (c : StoreCall) : MigrationM c.Value := .lift (ask (.store c))

def startWriter (path : Bytes) (batchSize : Nat) : MigrationM Unit :=
  .lift (ask (.startWriter path batchSize))

-- ================================================================ the job

structure QueuedTask where
  claim : ClaimedTask
  assetIndex : Nat

/-- What `Execute` has when it starts the pool. -/
structure Session where
  artifact : FrozenPlanFile
  epoch : Nat
  sourceRoot : Bytes
  /-- The keys of `asset_indices`, at the index they stand for. -/
  taskIds : List Bytes
  taskCount : Nat

variable (codec : Codec) (blake3 : Bytes → Digest)

/-- The size of the buffer. -/
def bufferSize : Nat := 2 ^ 20

/-- The fields of the claimed attempt. -/
def Session.key (s : Session) (claimed : ClaimedTask) (attemptId : Bytes) :
    Preparer.AttemptKey where
  planId := s.artifact.planId
  taskId := claimed.id
  executionEpoch := s.epoch
  attemptId := attemptId
  tempName := tempNameFor blake3 s.artifact.planId claimed.id attemptId

/-- What `ExecuteClaimedTask` does up to its receipt. -/
def prepareClaimed (s : Session) (asset : MinimalPlanAsset)
    (key : Preparer.AttemptKey) (rounds : Nat) : PipelineM VerifiedReceipt := do
  openRoot .source s.sourceRoot
  let guard ← MutationGuard.open_ asset.sourcePath asset.sourceIdentity
  openRoot .target s.artifact.plan.targetRoot
  Preparer.prepare blake3 guard asset key bufferSize rounds

/-- The line of a prepared task. -/
def claimedLine (s : Session) (asset : MinimalPlanAsset)
    (key : Preparer.AttemptKey) (receipt : VerifiedReceipt) : Bytes :=
  text "migrate claimed: " ++ key.planId ++ text " task=" ++ key.taskId
    ++ text " tasks=" ++ decimal s.taskCount
    ++ text " source_bytes=" ++ decimal asset.sourceIdentity.size.toNat
    ++ text " temp=" ++ key.tempName
    ++ text " digest=" ++ (receipt.sourceDigest.getD .zero).toHex
    ++ text " receipt=VERIFIED_DURABLE state=RUNNING" ++ [10]

/-- `retry`: the task goes back, and the error is reported. -/
def retry (key : Preparer.AttemptKey) (error : Status) : MigrationM Bytes := do
  store (.markRetryable key.planId key.taskId key.executionEpoch key.attemptId
    error)
  throw error

/-- `ExecuteClaimedTask` of a task with an attempt, for its asset. -/
def executeAttempt (s : Session) (asset : MinimalPlanAsset)
    (key : Preparer.AttemptKey) (rounds : Nat) : MigrationM Bytes := do
  let prepared ← (pipeline (prepareClaimed blake3 s asset key rounds)).result
  match prepared with
  | .ok receipt => pure (claimedLine s asset key receipt)
  | .error e => retry key e

/-- `ExecuteClaimedTask`. There is no attempt id to be had of a claim
without one, and no asset at an index behind the last. -/
def executeClaimedTask (s : Session) (rounds : Nat) (item : QueuedTask) :
    MigrationM Bytes :=
  match item.claim.runtime.attemptId,
    s.artifact.plan.assets[item.assetIndex]? with
  | some attemptId, some asset =>
      executeAttempt blake3 s asset (s.key blake3 item.claim attemptId) rounds
  | _, _ => Attempt.spent

-- =============================================================== the pool

def missing : Status :=
  .internal "claimed task is missing from frozen plan"

/-- What the producer makes of the answer to a claim. -/
def decode (s : Session) : Except Status ClaimedTask →
    WorkerPool.Claim QueuedTask Status
  | .ok claim => match s.taskIds.idxOf? claim.id with
      | some assetIndex => .item ⟨claim, assetIndex⟩
      | none => .failed missing
  | .error e => if e.code = .notFound then .exhausted else .failed e

/-- The pool; an item is told by its attempt. -/
def pool (s : Session) (workers rounds : Nat) :
    WorkerPool.Design migrationCalls QueuedTask Bytes Bytes Status where
  workers := workers
  capacity := 8
  claim := .store (.claimNextReady s.artifact.planId s.epoch)
  decode := decode s
  name item := item.claim.runtime.attemptId.getD []
  job item := (executeClaimedTask blake3 s rounds item).program

-- ============================================================ the command

/-- A task that can be tried again is made READY. -/
def makeReady (planId taskId : Bytes) (state : TaskState) : MigrationM Unit :=
  if state = .retryable then store (.setReady planId taskId) else pure ()

/-- The loop over the assets: the ids of their tasks, and whether one of
them is READY now. -/
def readyTasks (planId : Bytes) :
    List MinimalPlanAsset → MigrationM (List Bytes × Bool)
  | [] => pure ([], false)
  | asset :: rest => do
      let task ← Attempt.ofExcept (taskSpecForPlanAsset blake3 asset)
      let runtime ← pipeline (repository (.readRuntime planId task.id))
      makeReady planId task.id runtime.state
      let (taskIds, found) ← readyTasks planId rest
      pure (task.id :: taskIds, runtime.state == .ready
        || runtime.state == .retryable || found)

/-- What is done once the plan is in the database. -/
def openSession (layout : WorkspaceLayout) (dbBatchSize : Nat)
    (artifact : FrozenPlanFile) (taskCount : Nat) : MigrationM Session := do
  let counts ← store (.readTaskStateCounts artifact.planId)
  if counts[TaskState.all.idxOf .running]? ≠ some 0 then
    throw (.invalid
      "migrate found RUNNING task; resume is required before migrate")
  else do
    let (taskIds, found) ←
      readyTasks blake3 artifact.planId artifact.plan.assets
    if found = false then
      throw ⟨.notFound, text "no READY task remains in the materialized plan"⟩
    else do
      let epoch ← pipeline
        (repository (.acquireNextExecutionEpoch artifact.planId))
      let sourceRoot ← pipeline
        (readManifestSourceRoot artifact.plan.sourceManifestId)
      startWriter layout.database dbBatchSize
      pure { artifact, epoch, sourceRoot, taskIds, taskCount }

/-- What `Execute` does before it starts the pool. -/
def begin (layout : WorkspaceLayout) (inputPath : Bytes)
    (workers dbBatchSize : Nat) : MigrationM Session :=
  if workers = 0 ∨ 8 < workers then
    throw (.invalid "migration worker count must be between 1 and 8")
  else if dbBatchSize = 0 ∨ 16 < dbBatchSize then
    throw (.invalid "runtime DB batch size must be between 1 and 16")
  else do
    let planBytes ← pipeline (readPlanFile inputPath)
    let artifact ← Attempt.ofExcept (readFrozenPlan codec blake3 planBytes)
    if artifact.plan.assets = [] then
      throw (.invalid "migration plan must contain at least one asset")
    else do
      pipeline (acquireLock (executionLockPath layout artifact.planId))
      pipeline (openDatabase layout.database)
      let taskCount ← store (.materializePlan artifact inputPath)
      openSession blake3 layout dbBatchSize artifact taskCount

/-- What `Execute` returns after the pool has ended. -/
def result (claimed : Nat) (producerError firstError : Option Status) :
    Except Status Unit :=
  match producerError, firstError with
  | some e, _ => .error e
  | none, some e => .error e
  | none, none =>
      if claimed = 0 then
        .error ⟨.notFound, text "no eligible ready task exists"⟩
      else .ok ()

-- ============================================================= the machine

variable (strerror : Nat → Bytes)

/-- What a call does where nobody modifies anything before it. -/
def migrationActs (trouble : Trouble) : Effects migrationCalls Machine
  | .pipeline c, w, r, w' => pipelineActs strerror blake3 trouble c w r w'
  | .store c, w, r, w' =>
      ∃ repo : Repo, repo.committed = w.db ∧ repo.txn = none
        ∧ repo.memory = none
        ∧ (trouble.fails ∨ repo.faults = [] ∧ repo.busy = false)
        ∧ r = ((c.run blake3 : RepoM c.Value) repo).1
        ∧ w' = { w with
          db := ((c.run blake3 : RepoM c.Value) repo).2.committed }
  | .startWriter _ _, w, r, w' =>
      (r = .ok () ∨ trouble.fails ∧ ∃ e, r = .error e) ∧ w' = w

/-- What a call can do: others modify files, then it acts. -/
def migrationEffects (trouble : Trouble) : Effects migrationCalls Machine :=
  fun c w r w' => ∃ disk, w.disk.Disturbed trouble disk
    ∧ migrationActs blake3 strerror trouble c { w with disk } r w'

/-- The writer has done nothing about a command, and says so. A claim is
never part of a batch, so there it is the writer that has stopped. -/
def refused : (c : MigrationCall) → migrationCalls.Answer c → Prop
  | .pipeline (.repository _), r => ∃ e, r = .error e
  | .store (.claimNextReady _ _), r => ∃ e, r = .error e ∧ e.code = .internal
  | .store _, r => ∃ e, r = .error e
  | _, _ => False

/-- The machine, and the open files of each attempt. -/
structure World where
  machine : Machine
  tables : Bytes → List OpenFile

namespace World

/-- The machine as an attempt sees it. -/
def view (w : World) (attemptId : Bytes) : Machine :=
  { w.machine with disk := { w.machine.disk with
    opened := w.tables attemptId } }

/-- The world after an attempt has made a call. -/
def put (w : World) (attemptId : Bytes) (m : Machine) : World where
  machine := { m with disk := { m.disk with
    opened := w.machine.disk.opened } }
  tables := Function.update w.tables attemptId m.disk.opened

/-- No attempt has opened anything. -/
def start (m : Machine) : World := ⟨m, fun _ => []⟩

end World

/-- What the calls of the pool do: those of the producer, and those of the
worker on an attempt. -/
def poolEffects (trouble : Trouble) :
    Option Bytes → Effects migrationCalls World
  | none, c, w, r, w' => ∃ m,
      (migrationEffects blake3 strerror trouble c w.machine r m
        ∨ refused c r ∧ m = w.machine)
      ∧ w' = { w with machine := m }
  | some attemptId, c, w, r, w' => ∃ m,
      (migrationEffects blake3 strerror trouble c (w.view attemptId) r m
        ∨ refused c r ∧ m = w.view attemptId)
      ∧ w' = w.put attemptId m

-- ================================================================ the runs

/-- One run of the command: the plan it is given, the options, and the
rounds its loops are given. -/
structure Invocation where
  layout : WorkspaceLayout
  inputPath : Bytes
  workers : Nat
  dbBatchSize : Nat
  rounds : Nat

/-- A state of the pool of a run. -/
abbrev Invocation.Pool (i : Invocation) (s : Session) :=
  WorkerPool.State (pool blake3 s i.workers i.rounds) World

/-- The pool of the run on `w` was started, and is in this state. -/
def Invocation.Pools (i : Invocation) (trouble : Trouble) (w : Machine)
    (s : Session) (p : i.Pool blake3 s) : Prop :=
  ∃ started, Returns (migrationEffects blake3 strerror trouble)
      (begin codec blake3 i.layout i.inputPath i.workers i.dbBatchSize).program
      w (some (.ok s)) started
    ∧ WorkerPool.Reachable (pool blake3 s i.workers i.rounds)
        (poolEffects blake3 strerror trouble) (.start started) p

/-- What the run on `w` can have reached. -/
inductive Invocation.Reaches (i : Invocation) (trouble : Trouble)
    (w : Machine) : Machine → Prop
  | begins {w' : Machine}
      (h : Visits (migrationEffects blake3 strerror trouble)
        (begin codec blake3 i.layout i.inputPath i.workers
          i.dbBatchSize).program w w') : Reaches i trouble w w'
  | pools {s : Session} {p : i.Pool blake3 s}
      (h : i.Pools codec blake3 strerror trouble w s p) :
      Reaches i trouble w p.world.machine
  | prints {s : Session} {p : i.Pool blake3 s} {error : Option Status}
      {printed : Nat} (h : i.Pools codec blake3 strerror trouble w s p)
      (hreturned : p.producer = .returned error) :
      Reaches i trouble w { p.world.machine with
        output := p.world.machine.output
          ++ (p.messages.take printed).flatten }

/-- The run on `w` returns. -/
inductive Invocation.Returns (i : Invocation) (trouble : Trouble)
    (w : Machine) : Except Status Unit → Machine → Prop
  | refused {w' : Machine} {e : Status}
      (h : Concurrent.Returns (migrationEffects blake3 strerror trouble)
        (begin codec blake3 i.layout i.inputPath i.workers
          i.dbBatchSize).program w (some (.error e)) w') :
      Returns i trouble w (.error e) w'
  | pooled {s : Session} {p : i.Pool blake3 s} {error : Option Status}
      (h : i.Pools codec blake3 strerror trouble w s p)
      (hreturned : p.producer = .returned error) :
      Returns i trouble w (result p.claimed.length error p.firstError)
        { p.world.machine with
          output := p.world.machine.output ++ p.messages.flatten }

end PhotoBridge.MigrationService
