/-
`RuntimeDbWriter` (`runtime_db_writer.cpp`): its commands, how `Run` cuts
its queue into groups, and what `Execute` and `ExecuteBatch` do with one.

Threads, the lock and the promises come later; here a queue is a list and
executing a group answers a list, one answer for each command.
-/
import PhotoBridge.Db.Store

namespace PhotoBridge

open Transaction

-- ============================================================ commands

/-- The five command types of `RuntimeDbWriter`, without their promises. -/
inductive Command
  | claim (planId : Bytes) (epoch : Nat)
  | commitIntent (planId taskId attemptId : Bytes) (epoch : Nat)
  | tempWritten (planId taskId attemptId : Bytes) (epoch : Nat)
  | receipt (planId : Bytes) (receipt : VerifiedReceipt)
  | retryable (planId taskId attemptId : Bytes) (epoch : Nat)
      (error : Status)
  deriving DecidableEq

namespace Command

/-- `command.index()`. -/
def index : Command → Nat
  | .claim .. => 0
  | .commitIntent .. => 1
  | .tempWritten .. => 2
  | .receipt .. => 3
  | .retryable .. => 4

def planId : Command → Bytes
  | .claim p _ => p
  | .commitIntent p _ _ _ => p
  | .tempWritten p _ _ _ => p
  | .receipt p _ => p
  | .retryable p _ _ _ _ => p

def epoch : Command → Nat
  | .claim _ e => e
  | .commitIntent _ _ _ e => e
  | .tempWritten _ _ _ e => e
  | .receipt _ r => r.ownerEpoch
  | .retryable _ _ _ e _ => e

/-- `command_key`: kind, plan, task and epoch; a claim has none. -/
def key : Command → Option (Nat × Bytes × Bytes × Nat)
  | .claim .. => none
  | .commitIntent p t _ e => some (1, p, t, e)
  | .tempWritten p t _ e => some (2, p, t, e)
  | .receipt p r => some (3, p, r.taskId, r.ownerEpoch)
  | .retryable p t _ e _ => some (4, p, t, e)

/-- The repository operation of the command. -/
def call : Command → Call
  | .claim p e => .claimNextReady p e none
  | .commitIntent p t a e => .markCommitIntent p t e a
  | .tempWritten p t a e => .markTempWritten p t e a
  | .receipt p r => .persistVerifiedReceipt p r
  | .retryable p t a e error => .markRetryable p t e a error

end Command

-- ============================================================ grouping

/-- The command can join a group with this key and these task ids. -/
def Command.joins (first : Nat × Bytes × Bytes × Nat) (tasks : List Bytes)
    (next : Command) : Bool :=
  match next.key with
  | none => false
  | some k => k.1 == first.1 && k.2.1 == first.2.1 && k.2.2.2 == first.2.2.2
      && !tasks.contains k.2.2.1

/-- The inner loop of `Run`: take commands while there is room and they
join. `tasks` has the task ids taken so far. -/
def takeMore (first : Nat × Bytes × Bytes × Nat) :
    Nat → List Bytes → List Command → List Command × List Command
  | 0, _, queue => ([], queue)
  | _ + 1, _, [] => ([], [])
  | room + 1, tasks, next :: queue =>
      match next.key with
      | none => ([], next :: queue)
      | some k =>
          if next.joins first tasks then
            let (taken, rest) := takeMore first room (k.2.2.1 :: tasks) queue
            (next :: taken, rest)
          else ([], next :: queue)

/-- What `Run` takes off a queue that starts with `first`. -/
def takeBatch (maxBatchSize : Nat) (first : Command) (queue : List Command) :
    List Command × List Command :=
  match first.key with
  | none => ([first], queue)
  | some k =>
      let (taken, rest) := takeMore k (maxBatchSize - 1) [k.2.2.1] queue
      (first :: taken, rest)

private theorem takeMore_append (first : Nat × Bytes × Bytes × Nat) (room : Nat)
    (tasks : List Bytes) (queue : List Command) :
    (takeMore first room tasks queue).1 ++ (takeMore first room tasks queue).2
      = queue := by
  fun_induction takeMore first room tasks queue with
  | case1 => rfl
  | case2 => rfl
  | case3 => rfl
  | case4 room tasks next queue k hk hj taken rest heq ih =>
      rw [heq] at ih
      simp only [List.cons_append, ih]
  | case5 => rfl

theorem takeBatch_append (maxBatchSize : Nat) (first : Command)
    (queue : List Command) :
    (takeBatch maxBatchSize first queue).1
        ++ (takeBatch maxBatchSize first queue).2 = first :: queue := by
  unfold takeBatch
  split
  · rfl
  · simp only [List.cons_append, takeMore_append]

private theorem takeBatch_rest_length (maxBatchSize : Nat) (first : Command)
    (queue : List Command) :
    (takeBatch maxBatchSize first queue).2.length ≤ queue.length := by
  have happ := congrArg List.length (takeBatch_append maxBatchSize first queue)
  have hne : 1 ≤ (takeBatch maxBatchSize first queue).1.length := by
    unfold takeBatch
    split
    · exact Nat.le_refl 1
    · simp
  simp only [List.length_append, List.length_cons] at happ
  omega

/-- The groups `Run` executes one after the other when nothing is added
to its queue. -/
def groups (maxBatchSize : Nat) : List Command → List (List Command)
  | [] => []
  | first :: queue =>
      (takeBatch maxBatchSize first queue).1
        :: groups maxBatchSize (takeBatch maxBatchSize first queue).2
termination_by queue => queue.length
decreasing_by
  have := takeBatch_rest_length maxBatchSize first queue
  simp only [List.length_cons]
  omega

-- =========================================================== execution

/-- The answer to one command: a claim's promise carries the task. -/
abbrev Answer := Except Status Reply

/-- `Execute`: the command in a transaction of its own. -/
def execute (command : Command) : RepoM Reply := command.call.run

/-- `ExecuteBatchedOperation`. -/
def executeBatchedOperation : Command → RepoM Reply
  | .claim .. =>
      throw (.internal "claim command cannot join a runtime write batch")
  | command => command.call.run

/-- The loop of `ExecuteBatch`: the first failing index with its error. -/
def executeOperations :
    Nat → List Command → Repo → Option (Nat × Status) × Repo
  | _, [], repo => (none, repo)
  | index, command :: rest, repo =>
      match executeBatchedOperation command repo with
      | (.ok _, repo) => executeOperations (index + 1) rest repo
      | (.error e, repo) => (some (index, e), repo)

/-- The error of the commands of a batch that did not fail themselves. -/
def rolledBack (error : Status) : Status :=
  ⟨.internal, text "runtime DB batch rolled back: " ++ error.message⟩

/-- `Complete` with the outcome of the batch. -/
def completeAll (commands : List Command) (result : Except Status Unit) :
    List Answer :=
  commands.map fun _ => result.map fun _ => .done

/-- `ExecuteBatch`. -/
def executeBatch (commands : List Command) (repo : Repo) :
    List Answer × Repo :=
  match commands with
  | [] => ([], repo)
  | front :: _ =>
      match Repository.beginWriteBatch front.planId front.epoch repo with
      | (.error e, repo) => (completeAll commands (.error e), repo)
      | (.ok _, repo) =>
          match executeOperations 0 commands repo with
          | (some (failed, e), repo) =>
              let (_, repo) := Repository.rollbackWriteBatch repo
              (commands.mapIdx fun index _ =>
                .error (if index = failed then e else rolledBack e), repo)
          | (none, repo) =>
              let (result, repo) := Repository.commitWriteBatch repo
              (completeAll commands result, repo)

/-- The commands one after the other, each with `Execute`. -/
def executeEach : List Command → Repo → List Answer × Repo
  | [], repo => ([], repo)
  | command :: rest, repo =>
      let (answer, repo) := execute command repo
      let (answers, repo) := executeEach rest repo
      (answer :: answers, repo)

end PhotoBridge
