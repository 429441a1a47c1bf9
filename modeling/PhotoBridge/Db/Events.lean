/-
The event log of the runtime store, as a property of a set of runs:
`task_event` tells the story of every attempt, one row per change of its
`file_state`.
-/
import PhotoBridge.Db.Store

namespace PhotoBridge

/-- The file state an event names. -/
def EventType.names : EventType → FileAttemptState
  | .running => .running
  | .commitIntent => .commitIntent
  | .tempWritten => .tempWritten
  | .verifiedDurable => .verifiedDurable
  | .succeeded => .committed
  | .recoverSucceeded => .committed
  | .retryable => .retryable
  | .recoverRetryable => .retryable
  | .recoverInconsistent => .inconsistent

/-- The event closes its attempt. -/
def EventType.finishes : EventType → Bool
  | .running | .commitIntent | .tempWritten | .verifiedDurable => false
  | .succeeded | .retryable | .recoverSucceeded | .recoverRetryable
  | .recoverInconsistent => true

namespace Db

/-- The events of an attempt, in `event_id` order. -/
def eventsOf (db : Db) (attemptId : Bytes) : List EventRow :=
  db.events.filter (·.attemptId == attemptId)

/-- The attempts with their file states. -/
def fileStates (db : Db) : List (Bytes × FileAttemptState) :=
  db.attempts.map fun a => (a.attemptId, a.fileState)

end Db

/-- The log agrees with the attempt's row. -/
structure AttemptRow.LoggedIn (db : Db) (attempt : AttemptRow) : Prop where
  begins : (db.eventsOf attempt.attemptId).head?.map (·.eventType)
    = some .running
  /-- The last event names the file state. -/
  state : (db.eventsOf attempt.attemptId).getLast?.map (·.eventType.names)
    = some attempt.fileState
  /-- The result is set exactly when the last event is a finishing one. -/
  result : (db.eventsOf attempt.attemptId).getLast?.map
    (·.eventType.finishes) = some attempt.result.isSome

/-- The log agrees with every attempt. -/
def Db.Logged (db : Db) : Prop := ∀ a ∈ db.attempts, a.LoggedIn db

/-- The call asks for a state the attempt has, or for a receipt under a
key that has one. -/
def Call.Replays (db : Db) : Call → Prop
  | .markCommitIntent p t e a =>
      db.attemptState? p t a e = some .commitIntent
  | .markTempWritten p t e a => db.attemptState? p t a e = some .tempWritten
  | .persistVerifiedReceipt p receipt =>
      db.receipts.any
        (ReceiptRow.isAt p receipt.taskId receipt.attemptId) = true
  | _ => False

/-- What a call did to the log of the tables it worked on. -/
structure Logs (c : Call) (failed : Bool) (db db' : Db) : Prop where
  /-- One event for an inserted attempt or a changed file state. -/
  one : db'.fileStates ≠ db.fileStates →
    ∃ event, db'.events = db.events ++ [event]
  /-- No event otherwise. -/
  none : db'.fileStates = db.fileStates → db'.events = db.events
  /-- Failures and replays leave no trace at all. -/
  silent : failed = true ∨ c.Replays db → db' = db

/-- The event log along all runs under a rule. -/
structure LogFaithful (rule : Store → Nat → Action → Prop) : Prop where
  /-- A call outside a batch logs in the committed tables. -/
  outside : ∀ {db : Db} {t : List Event} {σ : Store}, db.Fresh →
    Run rule db t σ →
    ∀ (i : Nat) (c : Call) (faults : List (Option Bytes)),
    rule σ i (.call c) → σ.batches i = none →
    Logs c (!(σ.step i (.call c) faults).1.isOk) σ.committed
      (σ.step i (.call c) faults).2.committed
  /-- A call that succeeds inside a batch logs in its working copy. -/
  inside : ∀ {db : Db} {t : List Event} {σ : Store}, db.Fresh →
    Run rule db t σ →
    ∀ (i : Nat) (c : Call) (faults : List (Option Bytes)) (reply : Reply),
    rule σ i (.call c) → σ.batches i ≠ none →
    (σ.step i (.call c) faults).1 = .ok reply →
    ∃ s s', σ.writer = some (i, s)
      ∧ (σ.step i (.call c) faults).2.writer = some (i, s')
      ∧ (σ.step i (.call c) faults).2.committed = σ.committed
      ∧ Logs c false s s'
  /-- Inside a batch a failed call leaves the committed tables alone. -/
  failed : ∀ {db : Db} {t : List Event} {σ : Store}, db.Fresh →
    Run rule db t σ →
    ∀ (i : Nat) (action : Action) (faults : List (Option Bytes))
      (e : Status),
    rule σ i action → (σ.step i action faults).1 = .error e →
    (σ.step i action faults).2.committed = σ.committed
  /-- Committing a batch publishes its working copy, and what its calls
  logged there. -/
  published : ∀ {db : Db} {t : List Event} {σ : Store}, db.Fresh →
    Run rule db t σ →
    ∀ (i : Nat) (faults : List (Option Bytes)) (reply : Reply),
    rule σ i .commitWriteBatch →
    (σ.step i .commitWriteBatch faults).1 = .ok reply →
    ∃ s, σ.writer = some (i, s)
      ∧ (σ.step i .commitWriteBatch faults).2.committed = s
  /-- In every reachable database the log agrees with every attempt. -/
  logged : ∀ {db : Db} {t : List Event} {σ : Store}, db.Fresh →
    Run rule db t σ → σ.committed.Logged

end PhotoBridge
