/-
The ownership invariant of the runtime store: how a task's row, its
attempts, its events and its receipts hang together.

`Db.Keyed` collects what the keys and foreign keys of the schema promise
for any database; `Db.Ownership` is the invariant proper. Neither is
checked anywhere in the source: every operation has to keep them, and
Db/Proofs/Ownership.lean shows that it does.
-/
import PhotoBridge.Db.Schema

namespace PhotoBridge

namespace Db

/-- The attempts of a task. -/
def attemptsOf (db : Db) (planId taskId : Bytes) : List AttemptRow :=
  db.attempts.filter fun a => a.planId == planId && a.taskId == taskId

/-- The attempts of a task whose `finished_at_ns` is null. -/
def openAttempts (db : Db) (planId taskId : Bytes) : List AttemptRow :=
  (db.attemptsOf planId taskId).filter fun a => !a.finished

/-- The RUNNING events of a task. -/
def runningEvents (db : Db) (planId taskId : Bytes) : List EventRow :=
  db.events.filter fun e =>
    e.planId == planId && e.taskId == taskId && e.eventType == .running

/-- The epoch is one the plan has handed out: positive and at most the
current one. -/
def EpochGranted (db : Db) (planId : Bytes) (epoch : Nat) : Prop :=
  1 ≤ epoch ∧ ∃ current, db.currentEpoch? planId = some current
    ∧ epoch ≤ current

/-- The one open attempt of a task is `attemptId`'s, under `epoch`. -/
def OpenAttemptIs (db : Db) (planId taskId attemptId : Bytes)
    (epoch : Nat) : Prop :=
  ∃ row, db.openAttempts planId taskId = [row]
    ∧ row.attemptId = attemptId ∧ row.ownerEpoch = epoch

end Db

/-- One task agrees with the rest of the store. -/
structure TaskRow.OwnedSoundly (db : Db) (task : TaskRow) : Prop where
  owner_iff : task.state = .running ↔ task.ownerEpoch.isSome = true
  attempt_iff : task.state = .running ↔ task.activeAttemptId.isSome = true
  /-- A running task has one open attempt, the active one, under its own
  epoch. -/
  running : ∀ epoch attemptId, task.ownerEpoch = some epoch →
    task.activeAttemptId = some attemptId →
    db.OpenAttemptIs task.planId task.taskId attemptId epoch
      ∧ db.EpochGranted task.planId epoch
  idle : task.state ≠ .running → db.openAttempts task.planId task.taskId = []
  attempts_counted :
    task.attemptCount = (db.attemptsOf task.planId task.taskId).length
  events_counted :
    task.attemptCount = (db.runningEvents task.planId task.taskId).length

/-- The ownership invariant. -/
structure Db.Ownership (db : Db) : Prop where
  tasks : ∀ task ∈ db.tasks, task.OwnedSoundly db
  receipts : ∀ receipt ∈ db.receipts, ∃ attempt ∈ db.attempts,
    attempt.attemptId = receipt.attemptId
      ∧ attempt.planId = receipt.planId ∧ attempt.taskId = receipt.taskId
      ∧ attempt.ownerEpoch = receipt.ownerEpoch

/-- The keys of the schema: rows are told apart by their primary keys,
and attempts and events belong to tasks. -/
structure Db.Keyed (db : Db) : Prop where
  tasks : (db.tasks.map fun t => (t.planId, t.taskId)).Nodup
  attempts : (db.attempts.map AttemptRow.attemptId).Nodup
  attempt_task : ∀ a ∈ db.attempts, db.hasTask a.planId a.taskId = true
  event_task : ∀ e ∈ db.events, db.hasTask e.planId e.taskId = true

/-- Keys and ownership together: what every operation keeps. -/
structure Db.Sound (db : Db) : Prop where
  keyed : db.Keyed
  owned : db.Ownership

end PhotoBridge
