/-
Materialising a frozen plan (`pipeline_shared.cpp`): `MaterializePlan`
writes a plan's migration, plan and task rows in one transaction, or
recognises that they are there already.

# The spanned transaction

The task rows are written through `AddTask` and `SetReady`, which open no
transaction of their own, so the statements of all three tables run
inside the one that `MaterializePlan` opens. As in Db/Repository.lean
they are written once, over any monad that has them.

# The out parameter

`task_count` is the answer of a call that succeeds. After an error the
source leaves in it whatever it had counted, and no caller looks.
-/
import PhotoBridge.Db.Store

namespace PhotoBridge

open Transaction

/-- The states in the order of their numbers. -/
def TaskState.all : List TaskState :=
  [.planned, .ready, .running, .succeeded, .retryable, .failed,
    .needsReview, .inconsistent, .skipped]

/-- The migration of a plan. -/
def migrationIdFor (planId : Bytes) : Bytes := text "migration-" ++ planId

/-- The row `MaterializePlan` inserts into `migration`. -/
def migrationRow (artifact : FrozenPlanFile) : MigrationRow where
  migrationId := migrationIdFor artifact.planId
  sourceManifestId := artifact.plan.sourceManifestId
  targetRoot := artifact.plan.targetRoot
  currentEpoch := 0

/-- The row `MaterializePlan` inserts into `migration_plan`. -/
def migrationPlanRow (artifact : FrozenPlanFile) (artifactPath : Bytes) :
    MigrationPlanRow where
  planId := artifact.planId
  migrationId := migrationIdFor artifact.planId
  planPath := artifactPath
  artifactDigest := artifact.artifactDigest
  semanticDigest := artifact.semanticDigest
  formatVersion := artifact.plan.formatVersion

-- ======================================================== the statements

section Statements

variable {m : Type → Type} [Monad m] [MonadExceptOf Status m] [SqlMonad m]

/-- `BindPipelineText`. -/
def bindPipelineText (value : Bytes) : m Unit :=
  require (value.length ≤ intMax) (.invalid "SQLite text value is too large")

/-- `BindPipelineBlob`. -/
def bindPipelineBlob (value : Bytes) : m Unit :=
  require (value.length ≤ intMax) (.invalid "SQLite blob value is too large")

/-- `ReadTaskStateCounts`: the plan's tasks in each state. -/
def readTaskStateCounts (planId : Bytes) : m (List Nat) :=
  select "read task state summary" fun db =>
    TaskState.all.map (db.stateCount planId)

/-- `CheckMaterializedPlan`: whether the plan is there, with the same
metadata. -/
def checkMaterializedPlan (artifact : FrozenPlanFile) : m Bool := do
  bindPipelineText artifact.planId
  match ← select "look up materialized plan" fun db =>
      db.plans.find? (·.planId == artifact.planId) with
  | none => pure false
  | some row =>
      require (row.formatVersion = artifact.plan.formatVersion)
        ⟨.alreadyExists,
          text "materialized plan metadata differs: " ++ artifact.planId⟩
      require (row.artifactDigest = artifact.artifactDigest
          ∧ row.semanticDigest = artifact.semanticDigest)
        ⟨.alreadyExists,
          text "materialized plan digest differs: " ++ artifact.planId⟩
      pure true

/-- The insert into `migration`. -/
def insertMigration (artifact : FrozenPlanFile) : m Unit := do
  bindPipelineText (migrationIdFor artifact.planId)
  bindPipelineText artifact.plan.sourceManifestId
  bindPipelineBlob artifact.plan.targetRoot
  write "insert migration" fun db =>
    if db.migrations.any
        (·.migrationId == migrationIdFor artifact.planId) then
      .error ⟨.alreadyExists, text "migration already exists: "
        ++ migrationIdFor artifact.planId⟩
    else .ok ((), { db with
      migrations := db.migrations ++ [migrationRow artifact] })

/-- The insert into `migration_plan`. -/
def insertMigrationPlan (artifact : FrozenPlanFile) (artifactPath : Bytes) :
    m Unit := do
  bindPipelineText artifact.planId
  bindPipelineText (migrationIdFor artifact.planId)
  bindPipelineBlob artifactPath
  write "insert migration plan" fun db =>
    if db.plans.any (·.planId == artifact.planId) then
      .error (.sqlite "insert migration plan"
        (text "UNIQUE constraint failed: migration_plan.plan_id"))
    else if !db.migrations.any
        (·.migrationId == migrationIdFor artifact.planId) then
      .error (.sqlite "insert migration plan"
        (text "FOREIGN KEY constraint failed"))
    else .ok ((), { db with
      plans := db.plans ++ [migrationPlanRow artifact artifactPath] })

variable (blake3 : Bytes → Digest)

/-- One round of the loop over the assets. -/
def materializeTask (planId : Bytes) (asset : MinimalPlanAsset) :
    m Unit := do
  let task ← liftCheck (taskSpecForPlanAsset blake3 asset)
  addTask planId task
  setReady planId task.id

/-- The loop over the assets; `count` is `task_count`. -/
def materializeTasks (planId : Bytes) :
    List MinimalPlanAsset → Nat → m Nat
  | [], count => pure count
  | asset :: rest, count => do
      materializeTask blake3 planId asset
      materializeTasks planId rest (count + 1)

/-- What `MaterializePlan` does inside its transaction. -/
def materializePlanBody (artifact : FrozenPlanFile)
    (artifactPath : Bytes) : m Nat := do
  let materialized ← checkMaterializedPlan artifact
  if materialized then do
    let counts ← readTaskStateCounts artifact.planId
    require (counts.sum = artifact.plan.assets.length)
      (.internal "materialized plan task count differs from frozen plan")
    pure counts.sum
  else do
    insertMigration artifact
    insertMigrationPlan artifact artifactPath
    materializeTasks blake3 artifact.planId artifact.plan.assets 0

/-- `MaterializePlan`. -/
def materializePlan [TxnMonad m] (artifact : FrozenPlanFile)
    (artifactPath : Bytes) : m Nat := do
  require (artifact.planId.isEmpty = false)
    (.internal "frozen plan has an empty plan id")
  inTransaction (materializePlanBody blake3 artifact artifactPath)

end Statements

-- ====================================================== what it is for

/-- A plan's row in `migration_plan`. -/
def Db.plan? (db : Db) (planId : Bytes) : Option MigrationPlanRow :=
  db.plans.find? (·.planId == planId)

/-- The row records the artifact. -/
def MigrationPlanRow.records (row : MigrationPlanRow)
    (artifact : FrozenPlanFile) : Bool :=
  row.artifactDigest == artifact.artifactDigest
    && row.semanticDigest == artifact.semanticDigest
    && row.formatVersion == artifact.plan.formatVersion

/-- A task's row, READY and unowned. -/
def Db.readyTaskRow (planId : Bytes) (task : TaskSpec) : TaskRow where
  planId := planId
  taskId := task.id
  taskKey := task.taskKey
  type := task.type
  state := .ready
  ownerEpoch := none
  activeAttemptId := none
  attemptCount := 0
  targetPath := task.targetPath.bytes
  expectedSize := task.estimatedBytes
  expectedDigest := task.expectedDigest
  lastError := none

/-- The database with a plan, its migration and its tasks. -/
def Db.withPlan (db : Db) (artifact : FrozenPlanFile)
    (artifactPath : Bytes) (tasks : List TaskSpec) : Db :=
  { db with
    migrations := db.migrations ++ [migrationRow artifact]
    plans := db.plans ++ [migrationPlanRow artifact artifactPath]
    tasks := db.tasks ++ tasks.map (Db.readyTaskRow artifact.planId) }

/-- The tasks are those of the assets, one each. -/
abbrev TasksOf (blake3 : Bytes → Digest) :
    List MinimalPlanAsset → List TaskSpec → Prop :=
  List.Forall₂ fun asset task => taskSpecForPlanAsset blake3 asset = .ok task

/-- `MaterializePlan` on a connection is atomic and idempotent. -/
structure Materializes (blake3 : Bytes → Digest) (artifact : FrozenPlanFile)
    (artifactPath : Bytes) (repo : Repo)
    (result : Except Status Nat) (repo' : Repo) : Prop where
  /-- An error leaves the database as it was. -/
  failed : ∀ e, result = .error e → repo'.committed = repo.committed
  /-- A new plan gains its rows and nothing else changes. -/
  fresh : ∀ count, repo.committed.plan? artifact.planId = none →
    result = .ok count →
    ∃ tasks, TasksOf blake3 artifact.plan.assets tasks
      ∧ count = tasks.length
      ∧ repo'.committed
        = repo.committed.withPlan artifact artifactPath tasks
  /-- A plan already there is left as it is. -/
  repeated : ∀ row, repo.committed.plan? artifact.planId = some row →
    repo'.committed = repo.committed
  /-- Under another artifact it is an error. -/
  differs : ∀ row, repo.committed.plan? artifact.planId = some row →
    row.records artifact = false → ∃ e, result = .error e
  /-- Two assets with one task are an error. -/
  duplicate : ∀ tasks, repo.committed.plan? artifact.planId = none →
    TasksOf blake3 artifact.plan.assets tasks →
    ¬(tasks.map TaskSpec.id).Nodup → ∃ e, result = .error e
  /-- A task that is there already is an error. -/
  taken : ∀ asset ∈ artifact.plan.assets, ∀ task,
    repo.committed.plan? artifact.planId = none →
    taskSpecForPlanAsset blake3 asset = .ok task →
    repo.committed.hasTask artifact.planId task.id = true →
    ∃ e, result = .error e
  /-- A size out of SQLite's range is an error. -/
  oversized : ∀ asset ∈ artifact.plan.assets,
    repo.committed.plan? artifact.planId = none →
    int64Max < asset.sourceIdentity.size.toNat → ∃ e, result = .error e
  /-- After a success no statement had failed. -/
  heeded : ∀ count, result = .ok count →
    ∃ n, repo.faults = List.replicate n none ++ repo'.faults
  /-- The connection's own transaction is over, and one that was open
  before is still there. -/
  closed : repo'.txn = repo.txn

end PhotoBridge
