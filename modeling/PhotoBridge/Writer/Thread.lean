/-
The writer thread of `RuntimeDbWriter`: `Run`, `Enqueue` and `Stop` as
steps on one state, one step for each critical section, each repository
call, each promise and each notification.

# Repository calls

Before a call the connection is whatever the other clients of the
database made of it (`Env`): they may hold the lock, and outside a
transaction of the writer they may have committed anything. A call either
returns or throws; what a throwing call left behind is not assumed to be
anything in particular.

# Ghosts

`accepted` lists the commands `Enqueue` took, in that order; `executed`
those whose repository operation was called; `published` each committed
transaction of the writer with the database before and after it;
`stopCalled` that `Stop` was called. No step looks at them.
-/
import PhotoBridge.Writer.Batch

namespace PhotoBridge.Writer

open Transaction

/-- An accepted command with its number. -/
abbrev Item := Nat × Command

/-- A committed transaction of the writer. -/
structure Publication where
  items : List Item
  before : Db
  after : Db

/-- Where the thread is in `Run`. -/
inductive Pc
  /-- In `changed_.wait`: about to test its condition, or asleep. -/
  | waiting (asleep : Bool)
  /-- About to call `Execute`'s repository operation. -/
  | executing (item : Item)
  /-- About to call `BeginWriteBatch`. -/
  | beginning (batch : List Item)
  /-- In the loop of `ExecuteBatch`, with this much of the batch done. -/
  | operating (batch done rest : List Item)
  /-- About to call `RollbackWriteBatch` after an operation failed. -/
  | rollingBack (batch : List Item) (failed : Nat) (error : Status)
  /-- About to call `CommitWriteBatch`. -/
  | committing (batch : List Item)
  /-- Setting promises, then back to the top of the loop. -/
  | completing (todo : List (Item × Answer))
  /-- In the handler, about to call `RollbackWriteBatch`. -/
  | unwinding (batch : List Item) (what : Option Bytes)
  /-- In the handler, setting the promises of the batch. -/
  | failing (todo : List Item) (failure : Status)
  /-- In the handler, setting the promises of the swapped-out queue. -/
  | draining (todo : List Item) (failure : Status)
  | exited
  /-- An exception left the handler: `std::terminate`. -/
  | terminated

structure State where
  commands : List Item
  stopping : Bool
  fatal : Option Status
  /-- Notifications announced by a critical section and not yet given. -/
  notifications : Nat
  pc : Pc
  repo : Repo
  answers : List (Item × Answer)
  accepted : List Item
  executed : List Item
  published : List Publication
  stopCalled : Bool

/-- The writer just started on a connection. -/
def State.initial (repo : Repo) : State where
  commands := []
  stopping := false
  fatal := none
  notifications := 0
  pc := .waiting false
  repo := repo
  answers := []
  accepted := []
  executed := []
  published := []
  stopCalled := false

/-- `StoppedStatus`. -/
def stoppedStatus : Status := .internal "runtime DB writer is stopped"

/-- The critical section of `Enqueue`. -/
def State.enqueue (s : State) (command : Command) :
    Except Status Unit × State :=
  match s.fatal with
  | some failure => (.error failure, s)
  | none =>
      if s.stopping then (.error stoppedStatus, s)
      else
        let item : Item := (s.accepted.length, command)
        (.ok (), { s with
          commands := s.commands ++ [item]
          accepted := s.accepted ++ [item]
          notifications := s.notifications + 1 })

/-- The critical section of `Stop`. -/
def State.stop (s : State) : State :=
  { s with
    stopping := true, stopCalled := true
    notifications := s.notifications + 1 }

/-- `notify_one`: the thread wakes if it is asleep. -/
def Pc.wake : Pc → Pc
  | .waiting _ => .waiting false
  | pc => pc

/-- The condition `changed_.wait` is given. -/
def State.ready (s : State) : Bool := s.stopping || !s.commands.isEmpty

/-- What the critical section of `Run` does once its condition holds. -/
def State.take (s : State) (maxBatchSize : Nat) : State :=
  match s.commands with
  | [] => { s with pc := .exited }
  | first :: rest =>
      let size :=
        (takeBatch maxBatchSize first.2 (rest.map Prod.snd)).1.length
      let batch := s.commands.take size
      { s with
        commands := s.commands.drop size
        pc := if batch.length > 1 then .beginning batch
          else .executing first }

/-- What other clients can make of the connection between two calls. -/
structure Env (repo repo' : Repo) : Prop where
  txn : repo'.txn = repo.txn
  memory : repo'.memory = repo.memory
  committed : repo.txn ≠ none → repo'.committed = repo.committed

/-- The status every promise gets after an exception. -/
def failureStatus (what : Option Bytes) : Status :=
  ⟨.internal, text "runtime DB writer failed"
    ++ match what with
      | some message => text ": " ++ message
      | none => text " with an unknown exception"⟩

/-- The promises of a batch with one answer for all. -/
def completeWith (batch : List Item) (result : Except Status Unit) :
    List (Item × Answer) :=
  batch.map fun item => (item, result.map fun _ => .done)

/-- The promises of a batch whose operation `failed` returned `error`. -/
def completeFailed (batch : List Item) (failed : Nat) (error : Status) :
    List (Item × Answer) :=
  batch.mapIdx fun index item =>
    (item, .error (if index = failed then error else rolledBack error))

/-- One step of the writer, of a producer, or of the one who stops it. -/
inductive Step (maxBatchSize : Nat) : State → State → Prop
  | enqueue (s : State) (command : Command) :
      Step maxBatchSize s (s.enqueue command).2
  | stop (s : State) : Step maxBatchSize s s.stop
  | notify (s : State) {n : Nat} (hn : s.notifications = n + 1) :
      Step maxBatchSize s { s with notifications := n, pc := s.pc.wake }
  /-- A wake-up without a notification. -/
  | spurious (s : State) (hpc : s.pc = .waiting true) :
      Step maxBatchSize s { s with pc := .waiting false }
  | sleep (s : State) (hpc : s.pc = .waiting false)
      (hready : s.ready = false) :
      Step maxBatchSize s { s with pc := .waiting true }
  | take (s : State) (hpc : s.pc = .waiting false)
      (hready : s.ready = true) :
      Step maxBatchSize s (s.take maxBatchSize)
  | execute (s : State) {item : Item} {repo : Repo}
      (hpc : s.pc = .executing item) (henv : Env s.repo repo) :
      Step maxBatchSize s
        { s with
          pc := .completing [(item, (execute item.2 repo).1)]
          repo := (execute item.2 repo).2
          executed := s.executed ++ [item]
          published := match (execute item.2 repo).1 with
            | .ok _ => s.published ++ [⟨[item], repo.committed,
                (execute item.2 repo).2.committed⟩]
            | .error _ => s.published }
  | begin (s : State) {batch : List Item} {first : Item}
      {rest : List Item} {repo : Repo} (hpc : s.pc = .beginning batch)
      (hbatch : batch = first :: rest) (henv : Env s.repo repo) :
      Step maxBatchSize s
        (let out := Repository.beginWriteBatch first.2.planId first.2.epoch
          repo
        { s with
          repo := out.2
          pc := match out.1 with
            | .ok _ => .operating batch [] batch
            | .error e => .completing (completeWith batch (.error e)) })
  | operate (s : State) {batch done rest : List Item} {item : Item}
      {repo : Repo} (hpc : s.pc = .operating batch done (item :: rest))
      (henv : Env s.repo repo) :
      Step maxBatchSize s
        (let out := executeBatchedOperation item.2 repo
        { s with
          repo := out.2
          executed := s.executed ++ [item]
          pc := match out.1 with
            | .ok _ => .operating batch (done ++ [item]) rest
            | .error e => .rollingBack batch done.length e })
  | operated (s : State) {batch done : List Item}
      (hpc : s.pc = .operating batch done []) :
      Step maxBatchSize s { s with pc := .committing batch }
  | rollBack (s : State) {batch : List Item} {failed : Nat}
      {error : Status} {repo : Repo}
      (hpc : s.pc = .rollingBack batch failed error)
      (henv : Env s.repo repo) :
      Step maxBatchSize s
        { s with
          repo := (Repository.rollbackWriteBatch repo).2
          pc := .completing (completeFailed batch failed error) }
  | commit (s : State) {batch : List Item} {repo : Repo}
      (hpc : s.pc = .committing batch) (henv : Env s.repo repo) :
      Step maxBatchSize s
        (let out := Repository.commitWriteBatch repo
        { s with
          repo := out.2
          pc := .completing (completeWith batch out.1)
          published := match out.1 with
            | .ok _ => s.published
                ++ [⟨batch, repo.committed, out.2.committed⟩]
            | .error _ => s.published })
  | complete (s : State) {item : Item} {answer : Answer}
      {todo : List (Item × Answer)}
      (hpc : s.pc = .completing ((item, answer) :: todo)) :
      Step maxBatchSize s
        { s with
          pc := .completing todo
          answers := s.answers ++ [(item, answer)] }
  | completed (s : State) (hpc : s.pc = .completing []) :
      Step maxBatchSize s { s with pc := .waiting false }
  /-- A repository call of `Execute` or `ExecuteBatch` throws. -/
  | throws (s : State) {batch : List Item} (what : Option Bytes)
      (repo : Repo)
      (hpc : (∃ item, s.pc = .executing item ∧ batch = [item])
        ∨ s.pc = .beginning batch
        ∨ (∃ done item rest, s.pc = .operating batch done (item :: rest))
        ∨ (∃ failed error, s.pc = .rollingBack batch failed error)
        ∨ s.pc = .committing batch) :
      Step maxBatchSize s
        { s with pc := .unwinding batch what, repo := repo }
  | unwind (s : State) {batch : List Item} {what : Option Bytes}
      (repo : Repo) (hpc : s.pc = .unwinding batch what) :
      Step maxBatchSize s
        { s with pc := .failing batch (failureStatus what), repo := repo }
  /-- `RollbackWriteBatch` throws inside the handler. -/
  | terminate (s : State) {batch : List Item} {what : Option Bytes}
      (hpc : s.pc = .unwinding batch what) :
      Step maxBatchSize s { s with pc := .terminated }
  | fail (s : State) {item : Item} {todo : List Item} {failure : Status}
      (hpc : s.pc = .failing (item :: todo) failure) :
      Step maxBatchSize s
        { s with
          pc := .failing todo failure
          answers := s.answers ++ [(item, .error failure)] }
  /-- The critical section of the handler. -/
  | poison (s : State) {failure : Status}
      (hpc : s.pc = .failing [] failure) :
      Step maxBatchSize s
        { s with
          fatal := some failure, stopping := true, commands := []
          pc := .draining s.commands failure }
  | drain (s : State) {item : Item} {todo : List Item} {failure : Status}
      (hpc : s.pc = .draining (item :: todo) failure) :
      Step maxBatchSize s
        { s with
          pc := .draining todo failure
          answers := s.answers ++ [(item, .error failure)] }
  | drained (s : State) {failure : Status}
      (hpc : s.pc = .draining [] failure) :
      Step maxBatchSize s { s with pc := .exited }

/-- The states of a writer started on an idle connection. -/
inductive Reachable (maxBatchSize : Nat) : State → Prop
  | init (repo : Repo) (ht : repo.txn = none) (hm : repo.memory = none) :
      Reachable maxBatchSize (State.initial repo)
  | step {s s' : State} (h : Reachable maxBatchSize s)
      (hs : Step maxBatchSize s s') : Reachable maxBatchSize s'

end PhotoBridge.Writer
