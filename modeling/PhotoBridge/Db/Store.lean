/-
One database shared by any number of repositories: the calls a client
can make, the store they act on, and the runs they make up.

# Granularity

A call is one step. SQLite serialises write transactions, so what other
clients can do between two statements of one call is to hold the write
lock, and that is settled when the call begins. A write batch spans
several calls: its transaction stays open between them, holds the lock,
and is the only open transaction there is (`Store.writer`).

# Discipline

`Run` takes the rule under which calls are issued as a parameter.
`anyCall` allows everything. `stopsAtError` is what the one user of
batches does (`RuntimeDbWriter::ExecuteBatch`): after the first error
inside a batch its next call is `RollbackWriteBatch`.
-/
import Mathlib.Logic.Function.Basic
import PhotoBridge.Db.Repository

namespace PhotoBridge

open Transaction

-- ============================================================== calls

/-- The operations of `TaskRuntimeRepository` with their arguments. -/
inductive Call
  | addTask (planId : Bytes) (task : TaskSpec)
  | addDependency (planId task dependsOn : Bytes)
  | setReady (planId taskId : Bytes)
  | claimNextReady (planId : Bytes) (epoch : Nat) (supplied : Option Bytes)
  | markCommitIntent (planId taskId : Bytes) (epoch : Nat)
      (attemptId : Bytes)
  | markTempWritten (planId taskId : Bytes) (epoch : Nat) (attemptId : Bytes)
  | markSucceeded (planId taskId : Bytes) (epoch : Nat) (attemptId : Bytes)
  | markRetryable (planId taskId : Bytes) (epoch : Nat) (attemptId : Bytes)
      (error : Status)
  | recoverSucceeded (planId taskId : Bytes) (recoveryEpoch oldEpoch : Nat)
      (oldAttemptId reason : Bytes)
  | recoverRetryable (planId taskId : Bytes) (recoveryEpoch oldEpoch : Nat)
      (oldAttemptId reason : Bytes)
  | recoverInconsistent (planId taskId : Bytes)
      (recoveryEpoch oldEpoch : Nat) (oldAttemptId reason : Bytes)
  | persistVerifiedReceipt (planId : Bytes) (receipt : VerifiedReceipt)
  | acquireNextExecutionEpoch (planId : Bytes)
  | readCurrentEpoch (planId : Bytes)
  | readRuntime (planId taskId : Bytes)
  | readVerifiedReceipt (planId taskId attemptId : Bytes)

/-- What a call returns when it succeeds. -/
inductive Reply
  | done
  | claimed (task : ClaimedTask)
  | epoch (value : Nat)
  | runtime (value : TaskRuntime)
  | receipt (value : VerifiedReceipt)
  deriving DecidableEq

section Run

variable {m : Type → Type} [Monad m] [MonadExceptOf Status m] [SqlMonad m]
  [TxnMonad m]

/-- Run an operation and wrap its answer. -/
def answer {α : Type} (wrap : α → Reply) (operation : m α) : m Reply := do
  let a ← operation
  pure (wrap a)

/-- The operation behind a call, in either reading. -/
def Call.run : Call → m Reply
  | .addTask p task => answer (fun _ => .done) (PhotoBridge.addTask p task)
  | .addDependency p task d =>
      answer (fun _ => .done) (PhotoBridge.addDependency p task d)
  | .setReady p t => answer (fun _ => .done) (PhotoBridge.setReady p t)
  | .claimNextReady p e supplied =>
      answer .claimed (Repository.claimNextReady p e supplied)
  | .markCommitIntent p t e a =>
      answer (fun _ => .done) (Repository.markCommitIntent p t e a)
  | .markTempWritten p t e a =>
      answer (fun _ => .done) (Repository.markTempWritten p t e a)
  | .markSucceeded p t e a =>
      answer (fun _ => .done) (Repository.markSucceeded p t e a)
  | .markRetryable p t e a error =>
      answer (fun _ => .done) (Repository.markRetryable p t e a error)
  | .recoverSucceeded p t e old a reason =>
      answer (fun _ => .done)
        (Repository.recoverSucceeded p t e old a reason)
  | .recoverRetryable p t e old a reason =>
      answer (fun _ => .done)
        (Repository.recoverRetryable p t e old a reason)
  | .recoverInconsistent p t e old a reason =>
      answer (fun _ => .done)
        (Repository.recoverInconsistent p t e old a reason)
  | .persistVerifiedReceipt p receipt =>
      answer (fun _ => .done) (Repository.persistVerifiedReceipt p receipt)
  | .acquireNextExecutionEpoch p =>
      answer .epoch (Repository.acquireNextExecutionEpoch p)
  | .readCurrentEpoch p => answer .epoch (Repository.readCurrentEpoch p)
  | .readRuntime p t => answer .runtime (Repository.readRuntime p t)
  | .readVerifiedReceipt p t a =>
      answer .receipt (Repository.readVerifiedReceipt p t a)

end Run

/-- A call, or one of the three batch functions. -/
inductive Action
  | call (call : Call)
  | beginWriteBatch (planId : Bytes) (epoch : Nat)
  | commitWriteBatch
  | rollbackWriteBatch

/-- What an action does on one connection. -/
def Action.run : Action → RepoM Reply
  | .call c => c.run
  | .beginWriteBatch p e =>
      answer (fun _ => .done) (Repository.beginWriteBatch p e)
  | .commitWriteBatch =>
      answer (fun _ => .done) Repository.commitWriteBatch
  | .rollbackWriteBatch =>
      answer (fun _ => .done) Repository.rollbackWriteBatch

/-- The plan and epoch an action is fenced by: the executor's epoch, or
the recovery epoch of the three recovery calls. -/
def Action.presented : Action → Option (Bytes × Nat)
  | .call (.claimNextReady p e _) => some (p, e)
  | .call (.markCommitIntent p _ e _) => some (p, e)
  | .call (.markTempWritten p _ e _) => some (p, e)
  | .call (.markSucceeded p _ e _) => some (p, e)
  | .call (.markRetryable p _ e _ _) => some (p, e)
  | .call (.recoverSucceeded p _ e _ _ _) => some (p, e)
  | .call (.recoverRetryable p _ e _ _ _) => some (p, e)
  | .call (.recoverInconsistent p _ e _ _ _) => some (p, e)
  | .call (.persistVerifiedReceipt p receipt) => some (p, receipt.ownerEpoch)
  | .beginWriteBatch p e => some (p, e)
  | _ => none

-- ======================================================== the store

/-- The database and what each client's repository holds of it. -/
structure Store where
  committed : Db
  /-- The open write transaction: whose it is, and its working copy. -/
  writer : Option (Nat × Db)
  batches : Nat → BatchState
  /-- Not in the program: a call inside the client's batch failed. -/
  stopped : Nat → Bool

/-- A database no client has touched yet. -/
def Store.opened (db : Db) : Store where
  committed := db
  writer := none
  batches := fun _ => none
  stopped := fun _ => false

/-- The store as client `i`'s connection sees it. -/
def Store.repo (σ : Store) (i : Nat) (faults : List (Option Bytes)) :
    Repo where
  committed := σ.committed
  txn := match σ.writer with
    | some (j, s) => if j = i then some s else none
    | none => none
  busy := match σ.writer with
    | some (j, _) => j ≠ i
    | none => false
  faults := faults
  memory := σ.batches i

/-- What is left of the open transaction when client `i` has none. -/
def Store.othersWriter (σ : Store) (i : Nat) : Option (Nat × Db) :=
  match σ.writer with
  | some (j, s) => if j = i then none else some (j, s)
  | none => none

/-- The store after client `i`'s connection was left as `repo`. -/
def Store.put (σ : Store) (i : Nat) (repo : Repo) (failed : Bool) :
    Store where
  committed := repo.committed
  writer := match repo.txn with
    | some s => some (i, s)
    | none => σ.othersWriter i
  batches := Function.update σ.batches i repo.memory
  stopped := Function.update σ.stopped i
    (repo.memory.isSome && (σ.stopped i || failed))

/-- Client `i` performs an action, its statements failing as `faults`
says. -/
def Store.step (σ : Store) (i : Nat) (action : Action)
    (faults : List (Option Bytes)) : Except Status Reply × Store :=
  let out := action.run (σ.repo i faults)
  (out.1, σ.put i out.2 (!out.1.isOk))

/-- What can be seen of a run: an action with its answer, or a client's
end. -/
inductive Event
  | acted (client : Nat) (action : Action) (result : Except Status Reply)
  | closed (client : Nat)

/-- The store and the events after a list of actions without faults. -/
def Store.after (σ : Store) (t : List Event) :
    List (Nat × Action) → Store × List Event
  | [] => (σ, t)
  | (i, action) :: rest =>
      let out := σ.step i action []
      out.2.after (.acted i action out.1 :: t) rest

/-- Client `i` goes away: its transaction is lost. -/
def Store.close (σ : Store) (i : Nat) : Store where
  committed := σ.committed
  writer := σ.othersWriter i
  batches := Function.update σ.batches i none
  stopped := Function.update σ.stopped i false

/-- The store with rows other code adds: manifests, migrations and
plans. -/
def Db.withPlans (db : Db) (manifests : List SourceManifestRow)
    (migrations : List MigrationRow) (plans : List MigrationPlanRow) : Db :=
  { db with
    manifests := db.manifests ++ manifests
    migrations := db.migrations ++ migrations
    plans := db.plans ++ plans }

/-- The runtime tables are empty; manifests, migrations and plans are
whatever they are. -/
def Db.Fresh (db : Db) : Prop :=
  db.tasks = [] ∧ db.dependencies = [] ∧ db.attempts = [] ∧ db.events = []
    ∧ db.receipts = []

-- ============================================================== runs

/-- Runs from a database, with their events, the latest first. -/
inductive Run (rule : Store → Nat → Action → Prop) (db : Db) :
    List Event → Store → Prop
  | start : Run rule db [] (Store.opened db)
  | act {t : List Event} {σ : Store} (h : Run rule db t σ) (i : Nat)
      (action : Action) (faults : List (Option Bytes))
      (hrule : rule σ i action) :
      Run rule db (.acted i action (σ.step i action faults).1 :: t)
        (σ.step i action faults).2
  | close {t : List Event} {σ : Store} (h : Run rule db t σ) (i : Nat) :
      Run rule db (.closed i :: t) (σ.close i)
  | plan {t : List Event} {σ : Store} (h : Run rule db t σ)
      (hfree : σ.writer = none) (manifests : List SourceManifestRow)
      (migrations : List MigrationRow) (plans : List MigrationPlanRow) :
      Run rule db t
        { σ with committed :=
          σ.committed.withPlans manifests migrations plans }

/-- No rule. -/
def anyCall : Store → Nat → Action → Prop := fun _ _ _ => True

/-- After an error inside its batch a client rolls the batch back. -/
def stopsAtError : Store → Nat → Action → Prop := fun σ i action =>
  σ.stopped i = true → action = .rollbackWriteBatch

end PhotoBridge
