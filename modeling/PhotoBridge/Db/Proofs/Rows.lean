/-
Which rows a call adds. Task ids, attempt counts, dependencies and
attempt ids change in four ways only (`call_counted`): not at all, by a
new task, by a new dependency, and by a claim, which counts the attempt
it begins. In contrast to `Db.Change` the call itself is part of the
statement, so what a claim was given and what a dependency was checked
for can be used.
-/
import PhotoBridge.Db.Proofs.Changes

namespace PhotoBridge

open Transaction

variable {db db' : Db} {r : Reply}

-- ============================================================ the same

/-- A task's key and how many attempts it has had. -/
def TaskRow.counted (row : TaskRow) : Bytes × Bytes × Nat :=
  (row.planId, row.taskId, row.attemptCount)

/-- Tasks, counts, dependencies and attempt ids are as before. -/
structure Db.SameRows (db db' : Db) : Prop where
  tasks : db'.tasks.map TaskRow.counted = db.tasks.map TaskRow.counted
  dependencies : db'.dependencies = db.dependencies
  attempts : db'.attempts.map (·.attemptId) = db.attempts.map (·.attemptId)

theorem Db.SameRows.refl (db : Db) : db.SameRows db := ⟨rfl, rfl, rfl⟩

/-- An update that leaves a value alone leaves the values of all rows
alone. -/
theorem map_update {α β : Type} {p : α → Bool} {f : α → α} {value : α → β}
    (hf : ∀ row, value (f row) = value row) (rows : List α) :
    (rows.map fun row => if p row then f row else row).map value
      = rows.map value := by
  rw [List.map_map]
  refine List.map_congr_left fun row _ => ?_
  show value (if p row then f row else row) = value row
  split
  · exact hf row
  · rfl

theorem Db.sameRows_updateTasks (db : Db) {p : TaskRow → Bool}
    {f : TaskRow → TaskRow} (hf : ∀ row, (f row).counted = row.counted) :
    db.SameRows (db.updateTasks p f).2 :=
  ⟨map_update hf _, rfl, rfl⟩

theorem Db.sameRows_updateAttempts (db : Db) {p : AttemptRow → Bool}
    {f : AttemptRow → AttemptRow}
    (hf : ∀ row, (f row).attemptId = row.attemptId) :
    db.SameRows (db.updateAttempts p f).2 :=
  ⟨rfl, rfl, map_update hf _⟩

theorem Db.sameRows_setAttempt (db : Db) (planId taskId attemptId : Bytes)
    (epoch : Nat) (state : FileAttemptState) (result : Option TaskState)
    (error : Option Status) (finish : Bool) :
    db.SameRows
      (db.setAttempt planId taskId attemptId epoch state result error finish) := by
  unfold Db.setAttempt
  apply db.sameRows_updateAttempts
  intro row
  rfl

theorem Db.sameRows_advance (db : Db) (planId taskId attemptId : Bytes)
    (epoch : Nat) (state : FileAttemptState) (event : EventRow) :
    db.SameRows (db.advance planId taskId attemptId epoch state event) := by
  have h := db.sameRows_setAttempt planId taskId attemptId epoch state none
    none false
  exact ⟨h.tasks, h.dependencies, h.attempts⟩

theorem Db.sameRows_settle (db : Db) (planId taskId attemptId : Bytes)
    (epoch : Nat) (next : TaskState) (attempt : FileAttemptState)
    (error : Option Status) (event : EventRow) :
    db.SameRows
      (db.settle planId taskId attemptId epoch next attempt error event) := by
  have h := db.sameRows_updateTasks
    (p := TaskRow.isOwnedBy planId taskId epoch attemptId)
    (f := TaskRow.release next error) fun _ => rfl
  have h' := (db.updateTasks (TaskRow.isOwnedBy planId taskId epoch attemptId)
    (TaskRow.release next error)).2.sameRows_setAttempt planId taskId
      attemptId epoch attempt (some next) error true
  exact ⟨h'.tasks.trans h.tasks, h'.dependencies.trans h.dependencies,
    h'.attempts.trans h.attempts⟩

theorem Db.sameRows_setCurrentEpoch (db : Db) (planId : Bytes)
    (epoch : Nat) : db.SameRows (db.setCurrentEpoch planId epoch).2 := by
  unfold Db.setCurrentEpoch
  split <;> exact ⟨rfl, rfl, rfl⟩

private theorem sameRows_advanceAttemptBody {planId taskId attemptId : Bytes}
    {epoch : Nat} {next : FileAttemptState} {event : EventType} {u : Unit}
    (h : (advanceAttemptBody planId taskId epoch attemptId next event none :
      DbTxn Unit) db = .ok (u, db')) : db.SameRows db' := by
  obtain ⟨-, -, previous, -, ⟨-, rfl⟩ | ⟨-, -, -, rfl⟩⟩ :=
    advanceAttemptBody_ok.1 h
  · exact .refl db'
  · exact db.sameRows_advance ..

-- ====================================================== what calls add

/-- What a call that succeeded did to tasks, counts, dependencies and
attempt ids. -/
inductive Db.Counted (db : Db) : Call → Db → Prop
  | same {c : Call} {db' : Db} (h : db.SameRows db') : Counted db c db'
  | addTask {planId : Bytes} {task : TaskSpec}
      (hfree : db.taskRefused (Db.newTaskRow planId task) = false) :
      Counted db (.addTask planId task)
        (db.addTaskRow (Db.newTaskRow planId task))
  | addDependency {planId task dependsOn : Bytes} (hne : task ≠ dependsOn)
      (hcycle : db.wouldCycle planId task dependsOn = false)
      (htask : db.hasTask planId task = true)
      (hdep : db.hasTask planId dependsOn = true) :
      Counted db (.addDependency planId task dependsOn)
        { db with
          dependencies := db.dependencies ++ [⟨planId, task, dependsOn⟩] }
  | claim {planId : Bytes} {epoch : Nat} {supplied : Option Bytes}
      {row : TaskRow} (hrow : db.nextReady? planId = some row)
      (hcount : db.tasks.countP (TaskRow.isClaimable planId row.taskId) = 1) :
      Counted db (.claimNextReady planId epoch supplied)
        (db.claim planId row.taskId (attemptIdFor planId row supplied) epoch)

theorem call_counted (c : Call)
    (h : (c.run : DbTxn Reply) db = .ok (r, db')) : db.Counted c db' := by
  cases c with
  | addTask p task =>
      obtain ⟨_, h, -⟩ := answer_ok.1 h
      obtain ⟨-, -, -, hfree, rfl⟩ := addTask_ok.1 h
      exact .addTask hfree
  | addDependency p t d =>
      obtain ⟨_, h, -⟩ := answer_ok.1 h
      obtain ⟨-, -, hne, hcycle, ht, hd, -, rfl⟩ := addDependency_ok.1 h
      exact .addDependency hne hcycle ht hd
  | setReady p t =>
      obtain ⟨_, h, -⟩ := answer_ok.1 h
      obtain ⟨-, -, rfl⟩ := setReady_ok.1 h
      exact .same (db.sameRows_updateTasks fun _ => rfl)
  | claimNextReady p e supplied =>
      obtain ⟨_, h, -⟩ := answer_ok.1 h
      obtain ⟨_, -, h⟩ := liftCheck_bind_ok.1 h
      obtain ⟨_, -, h⟩ := liftCheck_bind_ok.1 h
      obtain ⟨-, row, hrow, -, hcount, -, -, rfl, -, -⟩ :=
        claimNextReadyBody_ok.1 h
      exact .claim hrow hcount
  | markCommitIntent p t e a =>
      obtain ⟨_, h, -⟩ := answer_ok.1 h
      obtain ⟨_, -, h⟩ := liftCheck_bind_ok.1 h
      obtain ⟨_, -, h⟩ := liftCheck_bind_ok.1 h
      exact .same (sameRows_advanceAttemptBody h)
  | markTempWritten p t e a =>
      obtain ⟨_, h, -⟩ := answer_ok.1 h
      obtain ⟨_, -, h⟩ := liftCheck_bind_ok.1 h
      obtain ⟨_, -, h⟩ := liftCheck_bind_ok.1 h
      exact .same (sameRows_advanceAttemptBody h)
  | markSucceeded p t e a =>
      obtain ⟨_, h, -⟩ := answer_ok.1 h
      obtain ⟨_, -, h⟩ := liftCheck_bind_ok.1 h
      obtain ⟨_, -, h⟩ := liftCheck_bind_ok.1 h
      obtain ⟨-, -, -, rfl⟩ := finishTaskBody_ok.1 h
      exact .same (db.sameRows_settle ..)
  | markRetryable p t e a error =>
      obtain ⟨_, h, -⟩ := answer_ok.1 h
      obtain ⟨_, -, h⟩ := liftCheck_bind_ok.1 h
      obtain ⟨_, -, h⟩ := liftCheck_bind_ok.1 h
      obtain ⟨-, h⟩ := require_bind_ok.1 h
      obtain ⟨-, -, -, rfl⟩ := finishTaskBody_ok.1 h
      exact .same (db.sameRows_settle ..)
  | recoverSucceeded p t e old a reason =>
      obtain ⟨_, h, -⟩ := answer_ok.1 h
      obtain ⟨_, -, h⟩ := liftCheck_bind_ok.1 h
      obtain ⟨-, -, -, rfl⟩ := recoverTaskBody_ok.1 h
      exact .same (db.sameRows_settle ..)
  | recoverRetryable p t e old a reason =>
      obtain ⟨_, h, -⟩ := answer_ok.1 h
      obtain ⟨_, -, h⟩ := liftCheck_bind_ok.1 h
      obtain ⟨-, -, -, rfl⟩ := recoverTaskBody_ok.1 h
      exact .same (db.sameRows_settle ..)
  | recoverInconsistent p t e old a reason =>
      obtain ⟨_, h, -⟩ := answer_ok.1 h
      obtain ⟨_, -, h⟩ := liftCheck_bind_ok.1 h
      obtain ⟨-, -, -, rfl⟩ := recoverTaskBody_ok.1 h
      exact .same (db.sameRows_settle ..)
  | persistVerifiedReceipt p receipt =>
      obtain ⟨_, h, -⟩ := answer_ok.1 h
      obtain ⟨⟨source, identity⟩, -, h⟩ := liftCheck_bind_ok.1 h
      obtain ⟨-, -, ⟨-, rfl, -⟩ | ⟨-, -, -, rfl⟩⟩ :=
        persistVerifiedReceiptBody_ok.1 h
      · exact .same (.refl _)
      · have hrows := (db.addReceipt (receiptRow p receipt source
          identity)).sameRows_advance p receipt.taskId receipt.attemptId
            receipt.ownerEpoch .verifiedDurable (receiptEvent p receipt)
        exact .same ⟨hrows.tasks, hrows.dependencies, hrows.attempts⟩
  | acquireNextExecutionEpoch p =>
      obtain ⟨current, -, -, rfl⟩ := acquire_call_ok h
      exact .same (db.sameRows_setCurrentEpoch ..)
  | readCurrentEpoch p =>
      obtain ⟨_, h, -⟩ := answer_ok.1 h
      obtain ⟨_, -, h⟩ := liftCheck_bind_ok.1 h
      obtain ⟨-, rfl⟩ := readCurrentEpochForPlan_ok.1 h
      exact .same (.refl _)
  | readRuntime p t =>
      obtain ⟨_, h, -⟩ := answer_ok.1 h
      obtain ⟨_, -, h⟩ := liftCheck_bind_ok.1 h
      obtain ⟨-, rfl⟩ := readRuntimeWithStatement_ok.1 h
      exact .same (.refl _)
  | readVerifiedReceipt p t a =>
      obtain ⟨_, h, -⟩ := answer_ok.1 h
      obtain ⟨_, -, h⟩ := liftCheck_bind_ok.1 h
      obtain ⟨-, rfl⟩ := readVerifiedReceiptStatement_ok.1 h
      exact .same (.refl _)

end PhotoBridge
