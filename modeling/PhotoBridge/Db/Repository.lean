/-
`TaskRuntimeRepository` (`task_runtime_repository.cpp`): every operation,
statement by statement.

# Two readings of one text

The statements of an operation are written once, over any monad that has
them (`SqlMonad`). Read over `RepoM` they are what the program does: each
statement can fail, sits inside or outside a transaction, and sees the
connection's batch. Read over `DbTxn` they are the pure function of the
tables the operation computes when no statement fails. Relating the two
readings is the business of Db/Proofs/Realise.lean.

# Transactions and batches

An operation opens its own transaction unless `BatchedEpochFor` finds an
active batch for its plan; then it joins the batch's transaction and
takes the epoch the batch was opened with for the current one. Either way
an error on the way rolls back the transaction it runs in
(`joinOrOwn`). `AddTask`, `AddDependency` and `SetReady` never open a
transaction.
-/
import PhotoBridge.Lib.Transaction
import PhotoBridge.Db.Schema

namespace PhotoBridge

open Transaction

-- ================================================= statements, abstractly

/-- The plan and epoch of the active write batch, if there is one:
`write_batch_active_`, `write_batch_plan_id_`, `write_batch_epoch_`. -/
abbrev BatchState := Option (Bytes × Nat)

/-- A repository with its connection. -/
abbrev Repo := Conn Db Bytes BatchState

/-- A repository operation. -/
abbrev RepoM := Session Db Bytes BatchState Status

/-- A repository operation as a function of the tables. -/
abbrev DbTxn := Txn Db Status

/-- A monad with SQL statements. `operation` is the text `SqliteError`
reports a failure under. -/
class SqlMonad (m : Type → Type) where
  select : {α : Type} → (operation : String) → (Db → α) → m α
  write : {α : Type} → (operation : String) →
    (Db → Except Status (α × Db)) → m α

/-- SQLite's message for a statement refused because of another
connection's write lock. -/
def lockedMessage : Bytes := text "database is locked"

instance : SqlMonad RepoM where
  select operation f := Session.select (.sqlite operation) f
  write operation f := Session.write (.sqlite operation) lockedMessage f

instance : SqlMonad DbTxn where
  select _ f := Txn.read f
  write _ f := Txn.edit f

export SqlMonad (select write)

-- ========================================================== the checks

/-- `CheckIds`. -/
def checkIds (planId taskId : Bytes) : Except Status Unit :=
  if planId.isEmpty || taskId.isEmpty then
    .error (.invalid "plan and task ids must not be empty")
  else if hasNul planId || hasNul taskId then
    .error (.invalid "plan and task ids must not contain NUL")
  else .ok ()

/-- `CheckEpochAttempt`. -/
def checkEpochAttempt (epoch : Nat) (attemptId : Bytes) : Except Status Unit :=
  if epoch == 0 || attemptId.isEmpty || hasNul attemptId then
    .error (.invalid "task claim requires a positive epoch and attempt id")
  else if epoch > int64Max then
    .error (.invalid "execution epoch exceeds SQLite integer range")
  else .ok ()

/-- The check of `AcquireNextExecutionEpoch` and `ReadCurrentEpoch`. -/
def checkPlanId (planId : Bytes) : Except Status Unit :=
  if planId.isEmpty || hasNul planId then
    .error (.invalid "plan id must be non-empty and NUL-free")
  else .ok ()

-- ================================================= identities as blobs

/-- The 64-bit value in the eight bytes at the front. -/
def uint64At (bytes : Bytes) : UInt64 :=
  (bytes.take 8).foldr (fun b acc => acc * 256 + b.toUInt64) 0

/-- `EncodeIdentity`: 49 bytes, the integers as they lie in memory. -/
def encodeIdentity (identity : FileIdentity) : Bytes :=
  uint64Bytes identity.device ++ uint64Bytes identity.inode
    ++ uint64Bytes identity.size
    ++ uint64Bytes identity.mtimeNs.toUInt64
    ++ uint64Bytes identity.ctimeNs.toUInt64
    ++ match identity.mountId with
      | some mount => 1 :: uint64Bytes mount
      | none => 0 :: List.replicate 8 0

/-- `DecodeIdentity`. -/
def decodeIdentity (blob : Bytes) : Except Status FileIdentity :=
  if blob.length ≠ 49 then
    .error (.internal "verified receipt has an invalid source identity")
  else
    let identity : FileIdentity := {
      device := uint64At blob
      inode := uint64At (blob.drop 8)
      size := uint64At (blob.drop 16)
      mtimeNs := (uint64At (blob.drop 24)).toInt64
      ctimeNs := (uint64At (blob.drop 32)).toInt64
      mountId := none }
    match (blob.drop 40).head? with
    | some 1 =>
        .ok { identity with mountId := some (uint64At (blob.drop 41)) }
    | some 0 => .ok identity
    | _ => .error (.internal "verified receipt has an invalid mount id marker")

/-- `SameVerifiedReceipt`. -/
def sameVerifiedReceipt (left right : VerifiedReceipt) : Bool :=
  left.taskId == right.taskId && left.attemptId == right.attemptId
    && left.ownerEpoch == right.ownerEpoch
    && left.tempPath == right.tempPath && left.finalPath == right.finalPath
    && left.contentSize == right.contentSize
    && left.sourceDigest == right.sourceDigest
    && left.targetDigest == right.targetDigest
    && left.sourceIdentity == right.sourceIdentity

-- ================================================== statement sequences

section Statements

variable {m : Type → Type} [Monad m] [MonadExceptOf Status m] [SqlMonad m]

/-- Lift a check of the arguments. -/
def liftCheck {α : Type} (check : Except Status α) : m α :=
  match check with
  | .ok a => pure a
  | .error e => throw e

/-- Go on only if `p` holds: the source's early return with an error. -/
def require (p : Prop) [Decidable p] (error : Status) : m Unit :=
  if p then pure () else throw error

/-- `ReadCurrentEpochForPlan`. -/
def readCurrentEpochForPlan (planId : Bytes) : m Nat := do
  match ← select "read current epoch" (·.currentEpoch? planId) with
  | none => throw (.notFound "migration plan was not found")
  | some epoch => pure epoch

/-- The epoch an operation is checked against: the batch's, or the one
read from the database. -/
def currentEpochFor (batched : Option Nat) (planId : Bytes) : m Nat :=
  match batched with
  | none => readCurrentEpochForPlan planId
  | some epoch => pure epoch

/-- `AppendTaskEvent`. -/
def appendTaskEvent (event : EventRow) : m Unit :=
  write "insert task event" fun db =>
    if db.hasTask event.planId event.taskId then
      .ok ((), { db with events := db.events ++ [event] })
    else .error (.sqlite "insert task event"
      (text "FOREIGN KEY constraint failed"))

/-- `UpdateAttemptState`. -/
def updateAttemptState (planId taskId attemptId : Bytes) (epoch : Nat)
    (state : FileAttemptState) (result : Option TaskState)
    (error : Option Status) (finish : Bool) : m Unit := do
  let changes ← write "update task attempt" fun db =>
    .ok (db.updateAttempts (AttemptRow.isAt planId taskId attemptId epoch)
      fun row => { row with
        fileState := state, finished := finish, result := result,
        error := error })
  require (changes = 1)
    (.invalid "task attempt was not found for state update")

/-- `ReadRuntimeWithStatement`. -/
def readRuntimeWithStatement (planId taskId : Bytes) : m TaskRuntime := do
  match ← select "read task runtime" (·.task? planId taskId) with
  | none => throw (.notFound "task runtime was not found")
  | some row =>
      require (row.attemptCount ≤ uint32Max)
        (.internal "invalid persisted attempt count")
      require (¬row.lastError.any Status.isOk)
        (.internal "unknown persisted error code")
      pure {
        id := row.taskId
        state := row.state
        ownerEpoch := row.ownerEpoch.getD 0
        attemptId := row.activeAttemptId
        attemptCount := row.attemptCount
        lastError := row.lastError }

/-- `CheckTaskOwnership`. -/
def checkTaskOwnership (planId taskId : Bytes) (epoch : Nat)
    (attemptId : Bytes) : m Unit := do
  match ← select "read task ownership" (·.task? planId taskId) with
  | none => throw (.notFound "task was not found")
  | some row =>
      require (row.ownerEpoch.isSome ∧ row.activeAttemptId.isSome)
        (.internal "task ownership has invalid columns")
      require (row.state = .running ∧ row.ownerEpoch = some epoch
          ∧ row.activeAttemptId = some attemptId)
        (.invalid "task ownership is stale or does not match receipt")

/-- The body of `FinishTask`, after the transaction is open. -/
def finishTaskBody (planId taskId : Bytes) (epoch : Nat)
    (attemptId : Bytes) (next : TaskState) (error : Option Status)
    (batched : Option Nat) : m Unit := do
  let current ← currentEpochFor batched planId
  require (current = epoch)
    (.invalid "stale executor epoch cannot finish a task")
  let changes ← write "complete task" fun db =>
    .ok (db.updateTasks (TaskRow.isOwnedBy planId taskId epoch attemptId)
      fun row => { row with
        state := next, ownerEpoch := none, activeAttemptId := none,
        lastError := error })
  require (changes = 1)
    (.invalid "task completion claim is stale or has an unexpected state")
  updateAttemptState planId taskId attemptId epoch
    (if next = .succeeded then .committed else .retryable) (some next)
    error true
  appendTaskEvent {
    planId := planId, taskId := taskId
    eventType := if next = .succeeded then .succeeded else .retryable
    ownerEpoch := epoch, attemptId := attemptId
    detail := match error with
      | none => text "completed"
      | some e => e.message }

/-- The body of `RecoverTask`. -/
def recoverTaskBody (planId taskId : Bytes) (recoveryEpoch oldEpoch : Nat)
    (oldAttemptId : Bytes) (next : TaskState) (attempt : FileAttemptState)
    (event : EventType) (reason : Bytes) (error : Option Status) :
    m Unit := do
  let current ← readCurrentEpochForPlan planId
  require (current = recoveryEpoch)
    (.invalid "stale recovery epoch cannot transition a task")
  let changes ← write "apply recovery transition" fun db =>
    .ok (db.updateTasks
      (TaskRow.isOwnedBy planId taskId oldEpoch oldAttemptId)
      fun row => { row with
        state := next, ownerEpoch := none, activeAttemptId := none,
        lastError := error })
  require (changes = 1)
    (.invalid "recovery ownership is stale or task is not running")
  updateAttemptState planId taskId oldAttemptId oldEpoch attempt
    (some next) error true
  appendTaskEvent {
    planId := planId, taskId := taskId, eventType := event
    ownerEpoch := recoveryEpoch, attemptId := oldAttemptId
    detail := text "old_epoch=" ++ decimal oldEpoch
      ++ text " old_attempt=" ++ oldAttemptId ++ text " reason=" ++ reason }

/-- The body of `AdvanceAttempt`. -/
def advanceAttemptBody (planId taskId : Bytes) (epoch : Nat)
    (attemptId : Bytes) (next : FileAttemptState) (event : EventType)
    (batched : Option Nat) : m Unit := do
  let current ← currentEpochFor batched planId
  require (current = epoch)
    (.invalid "stale executor epoch cannot advance an attempt")
  checkTaskOwnership planId taskId epoch attemptId
  match ← select "read attempt state"
      (·.attemptState? planId taskId attemptId epoch) with
  | none => throw (.notFound "task attempt was not found")
  | some previous =>
      -- a replay of a state already reached leaves no trace
      if previous = next then pure ()
      else if !previous.isValidTransition next then
        throw (.invalid "invalid task attempt lifecycle transition")
      else do
        updateAttemptState planId taskId attemptId epoch next none none false
        appendTaskEvent {
          planId := planId, taskId := taskId, eventType := event
          ownerEpoch := epoch, attemptId := attemptId
          detail := text "attempt lifecycle" }

/-- The attempt id `ClaimNextReady` generates when it is given none. -/
def generatedAttemptId (planId taskId : Bytes) (number : Nat) : Bytes :=
  text "attempt-" ++ planId ++ text "-" ++ taskId ++ text "-"
    ++ decimal number

/-- The body of `ClaimNextReadyImpl`. -/
def claimNextReadyBody (planId : Bytes) (epoch : Nat)
    (supplied : Option Bytes) : m ClaimedTask := do
  let current ← readCurrentEpochForPlan planId
  require (current = epoch)
    (.invalid "stale executor epoch cannot claim a ready task")
  match ← select "select ready task" (·.nextReady? planId) with
  | none => throw (.notFound "no eligible ready task exists")
  | some row =>
      require (row.attemptCount < uint32Max)
        (.invalid "task attempt count is invalid")
      let attemptId := supplied.getD
        (generatedAttemptId planId row.taskId (row.attemptCount + 1))
      let changes ← write "claim ready task" fun db =>
        .ok (db.updateTasks
          (fun t => t.isAt planId row.taskId && t.state == .ready
            && t.activeAttemptId.isNone)
          fun t => { t with
            state := .running, ownerEpoch := some epoch,
            activeAttemptId := some attemptId,
            attemptCount := t.attemptCount + 1, lastError := none })
      require (changes = 1) (.invalid "ready task claim was lost")
      write "insert task attempt" fun db =>
        if db.attempts.any (·.attemptId == attemptId) then
          .error (.sqlite "insert task attempt"
            (text "UNIQUE constraint failed: task_attempt.attempt_id"))
        else if !db.hasTask planId row.taskId then
          .error (.sqlite "insert task attempt"
            (text "FOREIGN KEY constraint failed"))
        else .ok ((), { db with attempts := db.attempts ++ [{
          attemptId := attemptId, planId := planId, taskId := row.taskId
          ownerEpoch := epoch, fileState := .running, finished := false
          result := none, error := none }] })
      appendTaskEvent {
        planId := planId, taskId := row.taskId, eventType := .running
        ownerEpoch := epoch, attemptId := attemptId
        detail := text "claim" }
      let runtime ← readRuntimeWithStatement planId row.taskId
      pure ⟨row.taskId, runtime⟩

/-- `ReadVerifiedReceipt`, after its argument checks. -/
def readVerifiedReceiptStatement (planId taskId attemptId : Bytes) :
    m VerifiedReceipt := do
  match ← select "read verified receipt"
      (·.receipt? planId taskId attemptId) with
  | none => throw (.notFound "verified receipt was not found")
  | some row =>
      require (row.ownerEpoch ≠ 0)
        (.internal "verified receipt has an invalid epoch or content size")
      match decodeIdentity row.sourceIdentity with
      | .error e => throw e
      | .ok identity => pure {
          taskId := row.taskId
          attemptId := row.attemptId
          ownerEpoch := row.ownerEpoch
          tempPath := row.tempPath
          finalPath := row.finalPath
          contentSize := row.contentSize
          sourceDigest := some row.sourceDigest
          targetDigest := row.targetDigest
          sourceIdentity := some identity }

/-- The row `PersistVerifiedReceipt` inserts. -/
def receiptRow (planId : Bytes) (receipt : VerifiedReceipt)
    (source : Digest) (identity : FileIdentity) : ReceiptRow where
  planId := planId
  taskId := receipt.taskId
  attemptId := receipt.attemptId
  ownerEpoch := receipt.ownerEpoch
  tempPath := receipt.tempPath
  finalPath := receipt.finalPath
  contentSize := receipt.contentSize
  sourceDigest := source
  targetDigest := receipt.targetDigest
  sourceIdentity := encodeIdentity identity

/-- The body of `PersistVerifiedReceipt`. -/
def persistVerifiedReceiptBody (planId : Bytes) (receipt : VerifiedReceipt)
    (source : Digest) (identity : FileIdentity) (batched : Option Nat) :
    m Unit := do
  let current ← currentEpochFor batched planId
  require (current = receipt.ownerEpoch)
    (.invalid "stale executor epoch cannot persist a verified receipt")
  checkTaskOwnership planId receipt.taskId receipt.ownerEpoch
    receipt.attemptId
  let changes ← write "insert verified receipt" fun db =>
    if db.receipts.any
        (ReceiptRow.isAt planId receipt.taskId receipt.attemptId) then
      .ok (0, db)
    else if !db.hasTask planId receipt.taskId
        || !db.attempts.any (·.attemptId == receipt.attemptId) then
      .error (.sqlite "insert verified receipt"
        (text "FOREIGN KEY constraint failed"))
    else .ok (1, { db with
      receipts := db.receipts ++ [receiptRow planId receipt source identity] })
  if changes = 0 then do
    let existing ← readVerifiedReceiptStatement planId receipt.taskId
      receipt.attemptId
    require (sameVerifiedReceipt existing receipt)
      (.internal "verified receipt conflicts with existing evidence")
  else do
    updateAttemptState planId receipt.taskId receipt.attemptId
      receipt.ownerEpoch .verifiedDurable none none false
    appendTaskEvent {
      planId := planId, taskId := receipt.taskId
      eventType := .verifiedDurable, ownerEpoch := receipt.ownerEpoch
      attemptId := receipt.attemptId
      detail := text "receipt persisted before publish" }

/-- The body of `AcquireNextExecutionEpoch`. -/
def acquireNextExecutionEpochBody (planId : Bytes) : m Nat := do
  let current ← readCurrentEpochForPlan planId
  require (current < int64Max) (.invalid "execution epoch overflow")
  let changes ← write "advance current epoch" fun db =>
    .ok (db.setCurrentEpoch planId (current + 1))
  require (changes = 1)
    (.invalid "migration plan epoch update changed no rows")
  pure (current + 1)

/-- `AddTask`. -/
def addTask (planId : Bytes) (task : TaskSpec) : m Unit := do
  liftCheck (checkIds planId task.id)
  liftCheck (validateTaskSpec task)
  require (task.estimatedBytes.toNat ≤ int64Max)
    (.invalid "estimated task bytes exceed SQLite integer range")
  write "insert task" fun db =>
    if db.taskRefused (Db.newTaskRow planId task) then
      .error (.alreadyExists
        "task id or task key already exists in this plan")
    else .ok ((), { db with
      tasks := db.tasks ++ [Db.newTaskRow planId task] })

/-- `AddDependency`. -/
def addDependency (planId task dependsOn : Bytes) : m Unit := do
  liftCheck (checkIds planId task)
  liftCheck (checkIds planId dependsOn)
  require (task ≠ dependsOn)
    (.invalid "task graph must not contain a self dependency")
  let cycle ← select "check dependency cycle"
    (·.wouldCycle planId task dependsOn)
  require (cycle = false)
    (.invalid "task graph dependency would create a cycle")
  let changes ← write "insert dependency" fun db =>
    if !(db.hasTask planId task && db.hasTask planId dependsOn) then
      .ok (0, db)
    else if db.dependencies.contains ⟨planId, task, dependsOn⟩ then
      .error (.sqlite "insert dependency" (text "UNIQUE constraint failed"))
    else .ok (1, { db with
      dependencies := db.dependencies ++ [⟨planId, task, dependsOn⟩] })
  require (changes ≠ 0)
    (.notFound "dependency references an unknown task")

/-- `SetReady`. -/
def setReady (planId taskId : Bytes) : m Unit := do
  liftCheck (checkIds planId taskId)
  let changes ← write "set task ready" fun db =>
    .ok (db.updateTasks
      (fun row => row.isAt planId taskId
        && (row.state == .planned || row.state == .retryable)
        && db.dependenciesDone planId taskId)
      fun row => { row with
        state := .ready, ownerEpoch := none, activeAttemptId := none,
        lastError := none })
  require (changes ≠ 0) (.invalid "task is not eligible for READY state")

end Statements

-- ================================================ transaction brackets

/-- `connection.Execute` of a bracket statement. -/
def executeError (errmsg : Bytes) : Status :=
  .sqlite "execute SQLite statement" errmsg

def nestedMessage : Bytes :=
  text "cannot start a transaction within a transaction"

def inactiveMessage : Bytes := text "cannot commit - no transaction is active"

/-- `BatchedEpochFor`. -/
def batchedEpochFor (planId : Bytes) (batch : BatchState) : Option Nat :=
  match batch with
  | some (plan, epoch) => if plan == planId then some epoch else none
  | none => none

/-- A monad in which an operation can ask for a transaction. -/
class TxnMonad (m : Type → Type) where
  /-- A body in a transaction of its own. -/
  inTransaction : {α : Type} → m α → m α
  /-- The shape of `FinishTask`, `AdvanceAttempt` and
  `PersistVerifiedReceipt`: inside an active batch of the plan the body
  joins the batch's transaction, otherwise it runs in its own; an error
  rolls back either way. -/
  joinOrOwn : Bytes → (Option Nat → m Unit) → m Unit

/-- The bracket every operation puts around its statements. -/
def bracket {α : Type} (body : RepoM α) : RepoM α :=
  Session.atomically executeError nestedMessage lockedMessage inactiveMessage
    body

instance : TxnMonad RepoM where
  inTransaction := bracket
  joinOrOwn planId body := do
    match batchedEpochFor planId (← Session.remembered) with
    | none => bracket (body none)
    | some epoch => Session.orRollback (body (some epoch))

/-- As a function of the tables a transaction is just its body. -/
instance : TxnMonad DbTxn where
  inTransaction body := body
  joinOrOwn _ body := body none

export TxnMonad (inTransaction joinOrOwn)

-- ======================================================== the operations

namespace Repository

section Operations

variable {m : Type → Type} [Monad m] [MonadExceptOf Status m] [SqlMonad m]
  [TxnMonad m]

/-- `ClaimNextReady`, with a supplied attempt id or a generated one. -/
def claimNextReady (planId : Bytes) (epoch : Nat)
    (supplied : Option Bytes) : m ClaimedTask := do
  liftCheck (checkIds planId (text "claim"))
  liftCheck (checkEpochAttempt epoch (supplied.getD (text "generated")))
  inTransaction (claimNextReadyBody planId epoch supplied)

/-- `MarkCommitIntent`. -/
def markCommitIntent (planId taskId : Bytes) (epoch : Nat)
    (attemptId : Bytes) : m Unit := do
  liftCheck (checkIds planId taskId)
  liftCheck (checkEpochAttempt epoch attemptId)
  joinOrOwn planId
    (advanceAttemptBody planId taskId epoch attemptId .commitIntent
      .commitIntent)

/-- `MarkTempWritten`. -/
def markTempWritten (planId taskId : Bytes) (epoch : Nat)
    (attemptId : Bytes) : m Unit := do
  liftCheck (checkIds planId taskId)
  liftCheck (checkEpochAttempt epoch attemptId)
  joinOrOwn planId
    (advanceAttemptBody planId taskId epoch attemptId .tempWritten
      .tempWritten)

/-- `MarkSucceeded`. -/
def markSucceeded (planId taskId : Bytes) (epoch : Nat)
    (attemptId : Bytes) : m Unit := do
  liftCheck (checkIds planId taskId)
  liftCheck (checkEpochAttempt epoch attemptId)
  joinOrOwn planId
    (finishTaskBody planId taskId epoch attemptId .succeeded none)

/-- `MarkRetryable`. -/
def markRetryable (planId taskId : Bytes) (epoch : Nat)
    (attemptId : Bytes) (error : Status) : m Unit := do
  liftCheck (checkIds planId taskId)
  liftCheck (checkEpochAttempt epoch attemptId)
  require (error.isOk = false)
    (.invalid "retryable task result requires an error")
  joinOrOwn planId
    (finishTaskBody planId taskId epoch attemptId .retryable (some error))

/-- The argument checks of the three recovery operations. -/
def checkRecovery (planId taskId : Bytes) (recoveryEpoch oldEpoch : Nat)
    (oldAttemptId reason : Bytes) : Except Status Unit := do
  checkIds planId taskId
  checkEpochAttempt recoveryEpoch oldAttemptId
  checkEpochAttempt oldEpoch oldAttemptId
  require (reason.isEmpty = false)
    (.invalid "recovery reason must not be empty")

/-- The common shape of the three recovery operations. -/
def recover (planId taskId : Bytes) (recoveryEpoch oldEpoch : Nat)
    (oldAttemptId reason : Bytes) (next : TaskState)
    (attempt : FileAttemptState) (event : EventType)
    (error : Option Status) : m Unit := do
  liftCheck (checkRecovery planId taskId recoveryEpoch oldEpoch oldAttemptId
    reason)
  inTransaction (recoverTaskBody planId taskId recoveryEpoch oldEpoch
    oldAttemptId next attempt event reason error)

/-- `RecoverSucceeded`. -/
def recoverSucceeded (planId taskId : Bytes) (recoveryEpoch oldEpoch : Nat)
    (oldAttemptId reason : Bytes) : m Unit :=
  recover planId taskId recoveryEpoch oldEpoch oldAttemptId reason
    .succeeded .committed .recoverSucceeded none

/-- `RecoverRetryable`. -/
def recoverRetryable (planId taskId : Bytes) (recoveryEpoch oldEpoch : Nat)
    (oldAttemptId reason : Bytes) : m Unit :=
  recover planId taskId recoveryEpoch oldEpoch oldAttemptId reason
    .retryable .retryable .recoverRetryable (some ⟨.ioError, reason⟩)

/-- `RecoverInconsistent`. -/
def recoverInconsistent (planId taskId : Bytes)
    (recoveryEpoch oldEpoch : Nat) (oldAttemptId reason : Bytes) :
    m Unit :=
  recover planId taskId recoveryEpoch oldEpoch oldAttemptId reason
    .inconsistent .inconsistent .recoverInconsistent
    (some ⟨.internal, reason⟩)

/-- The argument checks of `PersistVerifiedReceipt`. -/
def checkReceipt (planId : Bytes) (receipt : VerifiedReceipt) :
    Except Status (Digest × FileIdentity) := do
  checkIds planId receipt.taskId
  checkEpochAttempt receipt.ownerEpoch receipt.attemptId
  match receipt.sourceDigest, receipt.sourceIdentity with
  | some source, some identity =>
      require (receipt.tempPath.isEmpty = false
          ∧ receipt.finalPath.isEmpty = false)
        (.invalid "verified receipt is missing required fields")
      require (receipt.contentSize.toNat ≤ int64Max)
        (.invalid "verified receipt size exceeds SQLite integer range")
      pure (source, identity)
  | _, _ => throw (.invalid "verified receipt is missing required fields")

/-- `PersistVerifiedReceipt`. -/
def persistVerifiedReceipt (planId : Bytes) (receipt : VerifiedReceipt) :
    m Unit := do
  let (source, identity) ← liftCheck (checkReceipt planId receipt)
  joinOrOwn planId
    (persistVerifiedReceiptBody planId receipt source identity)

/-- `AcquireNextExecutionEpoch`. -/
def acquireNextExecutionEpoch (planId : Bytes) : m Nat := do
  liftCheck (checkPlanId planId)
  inTransaction (acquireNextExecutionEpochBody planId)

/-- `ReadCurrentEpoch`. -/
def readCurrentEpoch (planId : Bytes) : m Nat := do
  liftCheck (checkPlanId planId)
  readCurrentEpochForPlan planId

/-- `ReadRuntime`. -/
def readRuntime (planId taskId : Bytes) : m TaskRuntime := do
  liftCheck (checkIds planId taskId)
  readRuntimeWithStatement planId taskId

/-- The argument checks of `ReadVerifiedReceipt`. -/
def checkReceiptKey (planId taskId attemptId : Bytes) :
    Except Status Unit := do
  checkIds planId taskId
  require (attemptId.isEmpty = false ∧ hasNul attemptId = false)
    (.invalid "attempt id must be non-empty and NUL-free")

/-- `ReadVerifiedReceipt`. -/
def readVerifiedReceipt (planId taskId attemptId : Bytes) :
    m VerifiedReceipt := do
  liftCheck (checkReceiptKey planId taskId attemptId)
  readVerifiedReceiptStatement planId taskId attemptId

end Operations

-- ============================================================== batches

/-- The epoch check of `BeginWriteBatch`, inside its transaction. -/
def batchEpochCheck (planId : Bytes) (epoch : Nat) : RepoM Unit := do
  let current ← readCurrentEpochForPlan planId
  require (current = epoch)
    (.invalid "stale executor epoch cannot start a runtime write batch")

/-- `BeginWriteBatch`. -/
def beginWriteBatch (planId : Bytes) (epoch : Nat) : RepoM Unit := do
  let active ← Session.remembered
  require (active = none) (.internal "runtime write batch is already active")
  liftCheck (checkIds planId (text "batch"))
  liftCheck (checkEpochAttempt epoch (text "batch"))
  Session.beginImmediate executeError nestedMessage lockedMessage
  Session.orRollback (batchEpochCheck planId epoch)
  Session.remember (some (planId, epoch))

/-- `CommitWriteBatch`: the batch is over even when the commit fails. -/
def commitWriteBatch : RepoM Unit := fun repo =>
  if repo.memory.isNone then
    (.error (.internal "runtime write batch is not active"), repo)
  else
    let p := Session.orRollback
      (Session.commit executeError inactiveMessage : RepoM Unit) repo
    (p.1, { p.2 with memory := none })

/-- `RollbackWriteBatch`. -/
def rollbackWriteBatch : RepoM Unit := fun repo =>
  if repo.memory.isNone then (.ok (), repo)
  else (.ok (), { repo with txn := none, memory := none })

end Repository

end PhotoBridge
