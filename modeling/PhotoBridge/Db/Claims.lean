/-
Claim order and the lifecycle of tasks, as properties of a set of runs:
which task `ClaimNextReady` hands out, and how the state column of
`plan_task` moves from version to version.
-/
import PhotoBridge.Db.Lineage

namespace PhotoBridge

namespace Db

/-- The state of a task. -/
def taskState? (db : Db) (planId taskId : Bytes) : Option TaskState :=
  (db.task? planId taskId).map (·.state)

/-- A READY task of the plan all of whose dependencies are SUCCEEDED. -/
def MayRun (db : Db) (planId taskId : Bytes) : Prop :=
  db.taskState? planId taskId = some .ready
    ∧ ∀ d ∈ db.dependencies, d.planId = planId → d.taskId = taskId →
      db.taskState? planId d.dependsOn = some .succeeded

/-- The least task, in byte order, that may run. -/
def IsNext (db : Db) (planId taskId : Bytes) : Prop :=
  db.MayRun planId taskId ∧ ∀ other, db.MayRun planId other → taskId ≤ other

/-- The attempt id `ClaimNextReady` would use for the task is taken, or
the task has no attempt left. -/
def ClaimBlocked (db : Db) (planId taskId : Bytes) (supplied : Option Bytes) :
    Prop :=
  ∃ row, db.task? planId taskId = some row
    ∧ (uint32Max ≤ row.attemptCount
      ∨ ∃ a ∈ db.attempts, a.attemptId
          = supplied.getD
            (generatedAttemptId planId taskId (row.attemptCount + 1)))

end Db

/-- How a task's state may differ between two consecutive versions: not
at all, the task is new and PLANNED, or along the transition table. -/
inductive StateStep : Option TaskState → Option TaskState → Prop
  | same (state : Option TaskState) : StateStep state state
  | added : StateStep none (some .planned)
  | moved {old new : TaskState} (h : old.isValidTransition new = true) :
      StateStep (some old) (some new)

/-- Every task's state moves by a `StateStep`. -/
def StatesStep (old new : Db) : Prop :=
  ∀ planId taskId, StateStep (old.taskState? planId taskId)
    (new.taskState? planId taskId)

/-- Claims and task states along all runs under a rule. -/
structure ClaimsInOrder (rule : Store → Nat → Action → Prop) : Prop where
  /-- A claim that succeeds presented the current epoch and got the least
  task that may run. -/
  claimed : ∀ {db : Db} {m : Moment}, db.Fresh → m.Reached rule db →
    ∀ (i : Nat) (planId : Bytes) (epoch : Nat) (supplied : Option Bytes)
      (faults : List (Option Bytes)) (task : ClaimedTask),
    (m.store.step i (.call (.claimNextReady planId epoch supplied))
        faults).1 = .ok (.claimed task) →
    m.store.committed.currentEpoch? planId = some epoch
      ∧ m.store.committed.IsNext planId task.id
  /-- NotFound under the current epoch: no task may run. -/
  notFound : ∀ {db : Db} {m : Moment}, db.Fresh → m.Reached rule db →
    ∀ (i : Nat) (planId : Bytes) (epoch : Nat) (supplied : Option Bytes)
      (faults : List (Option Bytes)) (error : Status),
    m.store.committed.currentEpoch? planId = some epoch →
    (m.store.step i (.call (.claimNextReady planId epoch supplied))
        faults).1 = .error error →
    error.code = .notFound →
    ∀ taskId, ¬m.store.committed.MayRun planId taskId
  /-- A claim with accepted arguments under the current epoch, with no
  transaction open and no statement failing: NotFound if no task may run,
  otherwise the least one that may, unless its attempt is blocked. -/
  answers : ∀ {db : Db} {m : Moment}, db.Fresh → m.Reached rule db →
    ∀ (i : Nat) (planId : Bytes) (epoch : Nat) (supplied : Option Bytes),
    m.store.writer = none →
    checkIds planId (text "claim") = .ok () →
    checkEpochAttempt epoch (supplied.getD (text "generated")) = .ok () →
    m.store.committed.currentEpoch? planId = some epoch →
    let result := (m.store.step i
      (.call (.claimNextReady planId epoch supplied)) []).1
    ((∀ taskId, ¬m.store.committed.MayRun planId taskId) →
        result = .error (.notFound "no eligible ready task exists"))
      ∧ ∀ taskId, m.store.committed.IsNext planId taskId →
        ¬m.store.committed.ClaimBlocked planId taskId supplied →
        ∃ task, result = .ok (.claimed task) ∧ task.id = taskId
  /-- Between two claims of one task lie a version in which it is
  RETRYABLE and, later, one in which it is READY. -/
  reclaimed : ∀ {db : Db} {m m' : Moment}, db.Fresh → m.Reached rule db →
    ∀ (i i' : Nat) (planId : Bytes) (epoch epoch' : Nat)
      (supplied supplied' : Option Bytes)
      (faults faults' : List (Option Bytes)) (task task' : ClaimedTask),
    let claim := Action.call (.claimNextReady planId epoch supplied)
    let claim' := Action.call (.claimNextReady planId epoch' supplied')
    rule m.store i claim →
    (m.store.step i claim faults).1 = .ok (.claimed task) →
    (m.act i claim faults).Leads rule m' →
    (m'.store.step i' claim' faults').1 = .ok (.claimed task') →
    task'.id = task.id →
    ∃ newest newer ready between retryable,
      m'.past.committed = newest ++ ready :: (between ++ retryable
          :: (newer ++ (m.act i claim faults).past.committed))
        ∧ Db.taskState? retryable planId task.id = some .retryable
        ∧ Db.taskState? ready planId task.id = some .ready
  /-- From version to version, committed or not, every change of a task's
  state is in the transition table. -/
  transitions : ∀ {db : Db} {m : Moment}, m.Reached rule db →
    m.past.committed.IsChain (fun new old => StatesStep old new)
      ∧ (m.past.working ++ m.past.committed).IsChain
        (fun new old => StatesStep old new)
  /-- SUCCEEDED and INCONSISTENT are never left. -/
  final : ∀ {db : Db} {m m' : Moment}, m.Reached rule db →
    m.Leads rule m' →
    ∀ (planId taskId : Bytes) (state : TaskState),
    state = .succeeded ∨ state = .inconsistent →
    m.store.committed.taskState? planId taskId = some state →
    m'.store.committed.taskState? planId taskId = some state

end PhotoBridge
