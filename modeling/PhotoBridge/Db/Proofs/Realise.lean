/-
The two readings of the repository's statements agree: run inside an
open transaction, the program's reading of a body does what its pure
reading does or reports an error (`Session.Realises`).

Each proof follows the body it is about, one statement after the other;
from here on the rest of the development reasons about the pure bodies.
-/
import PhotoBridge.Db.Repository

namespace PhotoBridge

open Transaction Session

variable {α : Type}

-- ========================================================= transactions

/-- Outside a batch the body runs in a transaction of its own. -/
theorem joinOrOwn_own {planId : Bytes} {body : Option Nat → RepoM Unit}
    {c : Repo} (h : batchedEpochFor planId c.memory = none) :
    joinOrOwn planId body c = bracket (body none) c := by
  simp only [joinOrOwn, bind_apply, remembered, h]

/-- Inside a batch of the plan the body runs in the batch's transaction. -/
theorem joinOrOwn_joined {planId : Bytes} {body : Option Nat → RepoM Unit}
    {c : Repo} {epoch : Nat}
    (h : batchedEpochFor planId c.memory = some epoch) :
    joinOrOwn planId body c = Session.orRollback (body (some epoch)) c := by
  simp only [joinOrOwn, bind_apply, remembered, h]

-- =========================================================== statements

/-- A SELECT. -/
theorem realises_select (operation : String) (f : Db → α) :
    Realises (select operation f : RepoM α) (select operation f : DbTxn α) :=
  Realises.select _ f

/-- A statement that writes. -/
theorem realises_write (operation : String)
    (f : Db → Except Status (α × Db)) :
    Realises (write operation f : RepoM α) (write operation f : DbTxn α) :=
  Realises.write _ _ f

/-- A condition that is tested. -/
theorem realises_require (p : Prop) [Decidable p] (error : Status) :
    Realises (require p error : RepoM Unit) (require p error : DbTxn Unit) :=
  .ite (fun _ => .pure ()) fun _ => .throw error

/-- A check that touches no table. -/
theorem realises_liftCheck (check : Except Status α) :
    Realises (liftCheck check : RepoM α) (liftCheck check : DbTxn α) := by
  cases check with
  | ok a => exact .pure a
  | error e => exact .throw e

/-- The epoch of a plan. -/
theorem realises_readCurrentEpochForPlan (planId : Bytes) :
    Realises (readCurrentEpochForPlan planId : RepoM Nat)
      (readCurrentEpochForPlan planId : DbTxn Nat) := by
  unfold readCurrentEpochForPlan
  refine .bind (realises_select _ _) fun epoch? => ?_
  cases epoch? with
  | none => exact .throw _
  | some epoch => exact .pure epoch

/-- The epoch of the batch, or that of the plan. -/
theorem realises_currentEpochFor (batched : Option Nat) (planId : Bytes) :
    Realises (currentEpochFor batched planId : RepoM Nat)
      (currentEpochFor batched planId : DbTxn Nat) := by
  cases batched with
  | none => exact realises_readCurrentEpochForPlan planId
  | some epoch => exact .pure epoch

/-- A line of the event log. -/
theorem realises_appendTaskEvent (event : EventRow) :
    Realises (appendTaskEvent event : RepoM Unit)
      (appendTaskEvent event : DbTxn Unit) :=
  realises_write _ _

/-- The row of an attempt. -/
theorem realises_updateAttemptState (planId taskId attemptId : Bytes)
    (epoch : Nat) (state : FileAttemptState) (result : Option TaskState)
    (error : Option Status) (finish : Bool) :
    Realises (updateAttemptState planId taskId attemptId epoch state result
        error finish : RepoM Unit)
      (updateAttemptState planId taskId attemptId epoch state result error
        finish : DbTxn Unit) :=
  .bind (realises_write _ _) fun _ => realises_require _ _

/-- The row of a task, as `ReadRuntime` has it. -/
theorem realises_readRuntimeWithStatement (planId taskId : Bytes) :
    Realises (readRuntimeWithStatement planId taskId : RepoM TaskRuntime)
      (readRuntimeWithStatement planId taskId : DbTxn TaskRuntime) := by
  unfold readRuntimeWithStatement
  refine .bind (realises_select _ _) fun row? => ?_
  cases row? with
  | none => exact .throw _
  | some row =>
      exact .bind (realises_require _ _) fun _ =>
        .bind (realises_require _ _) fun _ => .pure _

/-- That an attempt owns its task. -/
theorem realises_checkTaskOwnership (planId taskId : Bytes) (epoch : Nat)
    (attemptId : Bytes) :
    Realises (checkTaskOwnership planId taskId epoch attemptId : RepoM Unit)
      (checkTaskOwnership planId taskId epoch attemptId : DbTxn Unit) := by
  unfold checkTaskOwnership
  refine .bind (realises_select _ _) fun row? => ?_
  cases row? with
  | none => exact .throw _
  | some row =>
      exact .bind (realises_require _ _) fun _ => realises_require _ _

/-- The receipt of an attempt. -/
theorem realises_readVerifiedReceiptStatement
    (planId taskId attemptId : Bytes) :
    Realises
      (readVerifiedReceiptStatement planId taskId attemptId :
        RepoM VerifiedReceipt)
      (readVerifiedReceiptStatement planId taskId attemptId :
        DbTxn VerifiedReceipt) := by
  unfold readVerifiedReceiptStatement
  refine .bind (realises_select _ _) fun row? => ?_
  cases row? with
  | none => exact .throw _
  | some row =>
      refine .bind (realises_require _ _) fun _ => ?_
      cases decodeIdentity row.sourceIdentity with
      | error e => exact .throw e
      | ok identity => exact .pure _

-- =============================================================== bodies

/-- The end of a task. -/
theorem realises_finishTaskBody (planId taskId : Bytes) (epoch : Nat)
    (attemptId : Bytes) (next : TaskState) (error : Option Status)
    (batched : Option Nat) :
    Realises (finishTaskBody planId taskId epoch attemptId next error
        batched : RepoM Unit)
      (finishTaskBody planId taskId epoch attemptId next error batched :
        DbTxn Unit) := by
  unfold finishTaskBody
  refine .bind (realises_currentEpochFor _ _) fun _ => ?_
  refine .bind (realises_require _ _) fun _ => ?_
  refine .bind (realises_write _ _) fun _ => ?_
  refine .bind (realises_require _ _) fun _ => ?_
  refine .bind (realises_updateAttemptState _ _ _ _ _ _ _ _) fun _ => ?_
  exact realises_appendTaskEvent _

/-- The end of a task that recovery has decided on. -/
theorem realises_recoverTaskBody (planId taskId : Bytes)
    (recoveryEpoch oldEpoch : Nat) (oldAttemptId : Bytes) (next : TaskState)
    (attempt : FileAttemptState) (event : EventType) (reason : Bytes)
    (error : Option Status) :
    Realises (recoverTaskBody planId taskId recoveryEpoch oldEpoch
        oldAttemptId next attempt event reason error : RepoM Unit)
      (recoverTaskBody planId taskId recoveryEpoch oldEpoch oldAttemptId
        next attempt event reason error : DbTxn Unit) := by
  unfold recoverTaskBody
  refine .bind (realises_readCurrentEpochForPlan _) fun _ => ?_
  refine .bind (realises_require _ _) fun _ => ?_
  refine .bind (realises_write _ _) fun _ => ?_
  refine .bind (realises_require _ _) fun _ => ?_
  refine .bind (realises_updateAttemptState _ _ _ _ _ _ _ _) fun _ => ?_
  exact realises_appendTaskEvent _

/-- A step of an attempt. -/
theorem realises_advanceAttemptBody (planId taskId : Bytes) (epoch : Nat)
    (attemptId : Bytes) (next : FileAttemptState) (event : EventType)
    (batched : Option Nat) :
    Realises (advanceAttemptBody planId taskId epoch attemptId next event
        batched : RepoM Unit)
      (advanceAttemptBody planId taskId epoch attemptId next event batched :
        DbTxn Unit) := by
  unfold advanceAttemptBody
  refine .bind (realises_currentEpochFor _ _) fun _ => ?_
  refine .bind (realises_require _ _) fun _ => ?_
  refine .bind (realises_checkTaskOwnership _ _ _ _) fun _ => ?_
  refine .bind (realises_select _ _) fun previous? => ?_
  cases previous? with
  | none => exact .throw _
  | some previous =>
      refine .ite (fun _ => .pure ()) fun _ => ?_
      refine .ite (fun _ => .throw _) fun _ => ?_
      refine .bind (realises_updateAttemptState _ _ _ _ _ _ _ _) fun _ => ?_
      exact realises_appendTaskEvent _

/-- A claim. -/
theorem realises_claimNextReadyBody (planId : Bytes) (epoch : Nat)
    (supplied : Option Bytes) :
    Realises (claimNextReadyBody planId epoch supplied : RepoM ClaimedTask)
      (claimNextReadyBody planId epoch supplied : DbTxn ClaimedTask) := by
  unfold claimNextReadyBody
  refine .bind (realises_readCurrentEpochForPlan _) fun _ => ?_
  refine .bind (realises_require _ _) fun _ => ?_
  refine .bind (realises_select _ _) fun row? => ?_
  cases row? with
  | none => exact .throw _
  | some row =>
      refine .bind (realises_require _ _) fun _ => ?_
      refine .bind (realises_write _ _) fun _ => ?_
      refine .bind (realises_require _ _) fun _ => ?_
      refine .bind (realises_write _ _) fun _ => ?_
      refine .bind (realises_appendTaskEvent _) fun _ => ?_
      refine .bind (realises_readRuntimeWithStatement _ _) fun _ => ?_
      exact .pure _

/-- A receipt that is stored. -/
theorem realises_persistVerifiedReceiptBody (planId : Bytes)
    (receipt : VerifiedReceipt) (source : Digest) (identity : FileIdentity)
    (batched : Option Nat) :
    Realises (persistVerifiedReceiptBody planId receipt source identity
        batched : RepoM Unit)
      (persistVerifiedReceiptBody planId receipt source identity batched :
        DbTxn Unit) := by
  unfold persistVerifiedReceiptBody
  refine .bind (realises_currentEpochFor _ _) fun _ => ?_
  refine .bind (realises_require _ _) fun _ => ?_
  refine .bind (realises_checkTaskOwnership _ _ _ _) fun _ => ?_
  refine .bind (realises_write _ _) fun _ => ?_
  refine .ite (fun _ => ?_) fun _ => ?_
  · refine .bind (realises_readVerifiedReceiptStatement _ _ _) fun _ => ?_
    exact realises_require _ _
  · refine .bind (realises_updateAttemptState _ _ _ _ _ _ _ _) fun _ => ?_
    exact realises_appendTaskEvent _

/-- The next epoch. -/
theorem realises_acquireNextExecutionEpochBody (planId : Bytes) :
    Realises (acquireNextExecutionEpochBody planId : RepoM Nat)
      (acquireNextExecutionEpochBody planId : DbTxn Nat) := by
  unfold acquireNextExecutionEpochBody
  refine .bind (realises_readCurrentEpochForPlan _) fun _ => ?_
  refine .bind (realises_require _ _) fun _ => ?_
  refine .bind (realises_write _ _) fun _ => ?_
  refine .bind (realises_require _ _) fun _ => ?_
  exact .pure _

/-- A task that is added. -/
theorem realises_addTask (planId : Bytes) (task : TaskSpec) :
    Realises (addTask planId task : RepoM Unit)
      (addTask planId task : DbTxn Unit) := by
  unfold addTask
  refine .bind (realises_liftCheck _) fun _ => ?_
  refine .bind (realises_liftCheck _) fun _ => ?_
  refine .bind (realises_require _ _) fun _ => ?_
  exact realises_write _ _

/-- An edge that is added. -/
theorem realises_addDependency (planId task dependsOn : Bytes) :
    Realises (addDependency planId task dependsOn : RepoM Unit)
      (addDependency planId task dependsOn : DbTxn Unit) := by
  unfold addDependency
  refine .bind (realises_liftCheck _) fun _ => ?_
  refine .bind (realises_liftCheck _) fun _ => ?_
  refine .bind (realises_require _ _) fun _ => ?_
  refine .bind (realises_select _ _) fun _ => ?_
  refine .bind (realises_require _ _) fun _ => ?_
  refine .bind (realises_write _ _) fun _ => ?_
  exact realises_require _ _

/-- A task that becomes READY. -/
theorem realises_setReady (planId taskId : Bytes) :
    Realises (setReady planId taskId : RepoM Unit)
      (setReady planId taskId : DbTxn Unit) := by
  unfold setReady
  refine .bind (realises_liftCheck _) fun _ => ?_
  refine .bind (realises_write _ _) fun _ => ?_
  exact realises_require _ _

end PhotoBridge
