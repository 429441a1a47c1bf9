/-
The workspace database (`sqlite_schema.cpp`): its tables as lists of
rows, and the effect of each SQL statement of the runtime repository as
a function on them.

A row holds what the program reads back. Timestamps are written and
never read, so they are left out, except that `finished_at_ns` being
null is meaningful and is kept as `finished`. The paired columns for an
error's code and message are one optional `Status`. The primary keys,
unique constraints and foreign keys of the schema are the guards of the
inserting statements; an `UPDATE` is a map over the rows together with
the number of rows it changed, which is what `sqlite3_changes` reports.
-/
import PhotoBridge.Plan

namespace PhotoBridge

-- ================================================================= rows

structure SourceManifestRow where
  manifestId : Bytes
  sourceRoot : Bytes
  deriving DecidableEq

structure MigrationRow where
  migrationId : Bytes
  sourceManifestId : Bytes
  targetRoot : Bytes
  currentEpoch : Nat
  deriving DecidableEq

structure MigrationPlanRow where
  planId : Bytes
  migrationId : Bytes
  planPath : Bytes
  artifactDigest : Digest
  semanticDigest : Digest
  formatVersion : Nat
  deriving DecidableEq

structure TaskRow where
  planId : Bytes
  taskId : Bytes
  taskKey : Bytes
  type : TaskType
  state : TaskState
  ownerEpoch : Option Nat
  activeAttemptId : Option Bytes
  attemptCount : Nat
  targetPath : Bytes
  expectedSize : UInt64
  expectedDigest : Option Digest
  lastError : Option Status
  deriving DecidableEq

structure DependencyRow where
  planId : Bytes
  taskId : Bytes
  dependsOn : Bytes
  deriving DecidableEq

structure AttemptRow where
  attemptId : Bytes
  planId : Bytes
  taskId : Bytes
  ownerEpoch : Nat
  fileState : FileAttemptState
  /-- `finished_at_ns` is not null. -/
  finished : Bool
  result : Option TaskState
  error : Option Status
  deriving DecidableEq

/-- The texts of `task_event.event_type`. -/
inductive EventType
  | running | commitIntent | tempWritten | verifiedDurable | succeeded
  | retryable | recoverSucceeded | recoverRetryable | recoverInconsistent
  deriving DecidableEq, Repr

structure EventRow where
  planId : Bytes
  taskId : Bytes
  eventType : EventType
  ownerEpoch : Nat
  attemptId : Bytes
  detail : Bytes
  deriving DecidableEq

structure ReceiptRow where
  planId : Bytes
  taskId : Bytes
  attemptId : Bytes
  ownerEpoch : Nat
  tempPath : Bytes
  finalPath : Bytes
  contentSize : UInt64
  sourceDigest : Digest
  targetDigest : Digest
  sourceIdentity : Bytes
  deriving DecidableEq

/-- The tables. `events` is in `event_id` order. -/
structure Db where
  manifests : List SourceManifestRow
  migrations : List MigrationRow
  plans : List MigrationPlanRow
  tasks : List TaskRow
  dependencies : List DependencyRow
  attempts : List AttemptRow
  events : List EventRow
  receipts : List ReceiptRow
  deriving DecidableEq

/-- A workspace just initialised. -/
def Db.empty : Db := ⟨[], [], [], [], [], [], [], []⟩

-- ====================================================== row predicates

/-- `WHERE plan_id = ?1 AND task_id = ?2` on `plan_task`. -/
def TaskRow.isAt (planId taskId : Bytes) (row : TaskRow) : Bool :=
  row.planId == planId && row.taskId == taskId

/-- The row is that task's, running under that epoch and attempt. -/
def TaskRow.isOwnedBy (planId taskId : Bytes) (epoch : Nat)
    (attemptId : Bytes) (row : TaskRow) : Bool :=
  row.isAt planId taskId && row.ownerEpoch == some epoch
    && row.activeAttemptId == some attemptId && row.state == .running

/-- `WHERE plan_id AND task_id AND attempt_id AND owner_epoch` on
`task_attempt`. -/
def AttemptRow.isAt (planId taskId attemptId : Bytes) (epoch : Nat)
    (row : AttemptRow) : Bool :=
  row.planId == planId && row.taskId == taskId
    && row.attemptId == attemptId && row.ownerEpoch == epoch

/-- The primary key of `verified_receipt`. -/
def ReceiptRow.isAt (planId taskId attemptId : Bytes) (row : ReceiptRow) :
    Bool :=
  row.planId == planId && row.taskId == taskId
    && row.attemptId == attemptId

-- ============================================================ reading

namespace Db

/-- The task's row in `plan_task`. -/
def task? (db : Db) (planId taskId : Bytes) : Option TaskRow :=
  db.tasks.find? (TaskRow.isAt planId taskId)

/-- `SELECT migration.current_epoch FROM migration_plan JOIN migration`. -/
def currentEpoch? (db : Db) (planId : Bytes) : Option Nat :=
  match db.plans.find? (·.planId == planId) with
  | none => none
  | some plan =>
      (db.migrations.find? (·.migrationId == plan.migrationId)).map
        (·.currentEpoch)

/-- `SELECT file_state FROM task_attempt`. -/
def attemptState? (db : Db) (planId taskId attemptId : Bytes) (epoch : Nat) :
    Option FileAttemptState :=
  (db.attempts.find? (AttemptRow.isAt planId taskId attemptId epoch)).map
    (·.fileState)

/-- The receipt's row in `verified_receipt`. -/
def receipt? (db : Db) (planId taskId attemptId : Bytes) : Option ReceiptRow :=
  db.receipts.find? (ReceiptRow.isAt planId taskId attemptId)

/-- No dependency of the task is in a state other than SUCCEEDED. -/
def dependenciesDone (db : Db) (planId taskId : Bytes) : Bool :=
  db.dependencies.all fun d =>
    !(d.planId == planId && d.taskId == taskId)
      || db.tasks.all fun t =>
          !(t.isAt planId d.dependsOn) || t.state == .succeeded

/-- A READY task whose dependencies are done. -/
def eligible (db : Db) (planId : Bytes) (row : TaskRow) : Bool :=
  row.planId == planId && row.state == .ready
    && db.dependenciesDone planId row.taskId

/-- `ORDER BY task_id LIMIT 1`: SQLite compares text byte by byte. -/
def leastTask : List TaskRow → Option TaskRow
  | [] => none
  | row :: rows =>
      match leastTask rows with
      | none => some row
      | some least =>
          if least.taskId < row.taskId then some least else some row

/-- The query of `ClaimNextReady`. -/
def nextReady? (db : Db) (planId : Bytes) : Option TaskRow :=
  leastTask (db.tasks.filter (db.eligible planId))

/-- The number of tasks of the plan in a state. -/
def stateCount (db : Db) (planId : Bytes) (state : TaskState) : Nat :=
  db.tasks.countP fun row => row.planId == planId && row.state == state

/-- The tasks the recursive query of `AddDependency` adds to those it has
already reached. -/
def ancestorStep (db : Db) (planId : Bytes) (reached : List Bytes) :
    List Bytes :=
  db.dependencies.filterMap fun d =>
    if d.planId == planId && reached.contains d.taskId
      && !reached.contains d.dependsOn
    then some d.dependsOn else none

/-- The recursive query of `AddDependency` after at most `fuel` rounds.
`UNION` drops what is already there, so a round that adds nothing is the
last one; every round before that uses up a dependency row. -/
def ancestors (db : Db) (planId : Bytes) : Nat → List Bytes → List Bytes
  | 0, reached => reached
  | fuel + 1, reached =>
      match db.ancestorStep planId reached with
      | [] => reached
      | more => db.ancestors planId fuel (reached ++ more.eraseDups)

/-- The cycle check of `AddDependency`: `task` is an ancestor of
`dependsOn`. -/
def wouldCycle (db : Db) (planId task dependsOn : Bytes) : Bool :=
  (db.ancestors planId (db.dependencies.length + 1) [dependsOn]).contains task

-- ============================================================= writing

/-- `UPDATE plan_task SET ... WHERE p`, with the number of rows changed. -/
def updateTasks (db : Db) (p : TaskRow → Bool) (f : TaskRow → TaskRow) :
    Nat × Db :=
  (db.tasks.countP p,
    { db with tasks := db.tasks.map fun row => if p row then f row else row })

/-- `UPDATE task_attempt SET ... WHERE p`, with the number of rows changed. -/
def updateAttempts (db : Db) (p : AttemptRow → Bool)
    (f : AttemptRow → AttemptRow) : Nat × Db :=
  (db.attempts.countP p,
    { db with
      attempts := db.attempts.map fun row => if p row then f row else row })

/-- `UPDATE migration SET current_epoch`, with the number of rows
changed. -/
def setCurrentEpoch (db : Db) (planId : Bytes) (epoch : Nat) : Nat × Db :=
  match db.plans.find? (·.planId == planId) with
  | none => (0, db)
  | some plan =>
      (db.migrations.countP (·.migrationId == plan.migrationId),
        { db with
          migrations := db.migrations.map fun row =>
            if row.migrationId == plan.migrationId
            then { row with currentEpoch := epoch } else row })

/-- A task row as `AddTask` inserts it. -/
def newTaskRow (planId : Bytes) (task : TaskSpec) : TaskRow where
  planId := planId
  taskId := task.id
  taskKey := task.taskKey
  type := task.type
  state := .planned
  ownerEpoch := none
  activeAttemptId := none
  attemptCount := 0
  targetPath := task.targetPath.bytes
  expectedSize := task.estimatedBytes
  expectedDigest := task.expectedDigest
  lastError := none

/-- The constraints of `plan_task` refuse a row: the plan is unknown, or
its task id or key is taken. -/
def taskRefused (db : Db) (row : TaskRow) : Bool :=
  !(db.plans.any (·.planId == row.planId))
    || db.tasks.any fun t =>
        t.planId == row.planId
          && (t.taskId == row.taskId || t.taskKey == row.taskKey)

/-- The task exists: what the foreign keys on `plan_task` ask for. -/
def hasTask (db : Db) (planId taskId : Bytes) : Bool :=
  db.tasks.any (TaskRow.isAt planId taskId)

end Db

end PhotoBridge
