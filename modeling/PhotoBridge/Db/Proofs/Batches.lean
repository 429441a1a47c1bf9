/-
What `RollbackWriteBatch` undoes: everything its batch did, as long as
no call is issued after the batch's transaction is gone.

An operation that joined the batch and fails rolls the shared
transaction back itself and leaves the batch active. `Attached` excludes
calls after that point; a caller that stops at the first error, as
`RuntimeDbWriter::ExecuteBatch` does, satisfies it
(`attached_of_stops`). Without it the next call finds no transaction,
its statements commit one by one, and nothing undoes them.
-/
import PhotoBridge.Db.Proofs.Calls
import PhotoBridge.Db.Proofs.Fencing

namespace PhotoBridge

open Transaction Session

variable {repo repo' : Repo}

-- ================================================ statement vocabulary

/-- The plan a call is about. -/
def Call.planId : Call → Bytes
  | .addTask p _ => p
  | .addDependency p _ _ => p
  | .setReady p _ => p
  | .claimNextReady p _ _ => p
  | .markCommitIntent p _ _ _ => p
  | .markTempWritten p _ _ _ => p
  | .markSucceeded p _ _ _ => p
  | .markRetryable p _ _ _ _ => p
  | .recoverSucceeded p _ _ _ _ _ => p
  | .recoverRetryable p _ _ _ _ _ => p
  | .recoverInconsistent p _ _ _ _ _ => p
  | .persistVerifiedReceipt p _ => p
  | .acquireNextExecutionEpoch p => p
  | .readCurrentEpoch p => p
  | .readRuntime p _ => p
  | .readVerifiedReceipt p _ _ => p

/-- A call with the faults its statements meet. -/
abbrev Issued := Call × List (Option Bytes)

/-- One call on a repository's connection. -/
def Issued.run (issued : Issued) (repo : Repo) : Except Status Reply × Repo :=
  (issued.1.run : RepoM Reply) { repo with faults := issued.2 }

/-- The connection after a list of calls. -/
def issue (repo : Repo) : List Issued → Repo
  | [] => repo
  | call :: rest => issue (call.run repo).2 rest

/-- Every call finds a transaction open. -/
def Attached (repo : Repo) : List Issued → Prop
  | [] => True
  | call :: rest =>
      repo.txn.isSome = true ∧ Attached (call.run repo).2 rest

/-- Every call but the last succeeds. -/
def Stops (repo : Repo) : List Issued → Prop
  | [] => True
  | call :: rest =>
      (rest ≠ [] → (call.run repo).1.isOk = true)
        ∧ Stops (call.run repo).2 rest

-- ============================================== calls in a transaction

private theorem sheltered_liftCheck {α : Type} (check : Except Status α) :
    Sheltered (liftCheck check : RepoM α) :=
  .of_realises (realises_liftCheck check)

private theorem sheltered_require (p : Prop) [Decidable p] (error : Status) :
    Sheltered (require p error : RepoM Unit) :=
  .of_realises (realises_require p error)

theorem sheltered_answer {α : Type} (wrap : α → Reply) {operation : RepoM α}
    (h : Sheltered operation) : Sheltered (answer wrap operation) :=
  .bind h fun a => .of_realises (.pure (wrap a))

/-- Whether it joins the batch or is refused a transaction of its own. -/
theorem sheltered_joinOrOwn {planId : Bytes} {body : Option Nat → RepoM Unit}
    {body' : Option Nat → DbTxn Unit}
    (h : ∀ batched, Realises (body batched) (body' batched)) :
    Sheltered (joinOrOwn planId body) := by
  have hjoin : ∀ c : Repo, ∃ x : RepoM Unit,
      joinOrOwn planId body c = x c ∧ Sheltered x := by
    intro c
    cases hbatch : batchedEpochFor planId c.memory with
    | none =>
        exact ⟨bracket (body none), joinOrOwn_own hbatch,
          .atomically (body none)⟩
    | some epoch =>
        exact ⟨Session.orRollback (body (some epoch)), joinOrOwn_joined hbatch,
          .orRollback (h (some epoch))⟩
  constructor
  · intro c c' a hc hrun
    obtain ⟨x, hx, hshelter⟩ := hjoin c
    exact hshelter.ok hc (hx.symm.trans hrun)
  · intro c c' e hc hrun
    obtain ⟨x, hx, hshelter⟩ := hjoin c
    exact hshelter.error hc (hx.symm.trans hrun)

/-- No call inside a transaction reaches the committed tables. -/
theorem call_sheltered (c : Call) : Sheltered (c.run : RepoM Reply) := by
  cases c with
  | addTask p task =>
      exact sheltered_answer _ (.of_realises (realises_addTask p task))
  | addDependency p t d =>
      exact sheltered_answer _ (.of_realises (realises_addDependency p t d))
  | setReady p t =>
      exact sheltered_answer _ (.of_realises (realises_setReady p t))
  | claimNextReady p e supplied =>
      refine sheltered_answer _ (.bind (sheltered_liftCheck _) fun _ =>
        .bind (sheltered_liftCheck _) fun _ => ?_)
      exact .atomically (claimNextReadyBody p e supplied)
  | markCommitIntent p t e a =>
      refine sheltered_answer _ (.bind (sheltered_liftCheck _) fun _ =>
        .bind (sheltered_liftCheck _) fun _ => ?_)
      exact sheltered_joinOrOwn (realises_advanceAttemptBody p t e a _ _)
  | markTempWritten p t e a =>
      refine sheltered_answer _ (.bind (sheltered_liftCheck _) fun _ =>
        .bind (sheltered_liftCheck _) fun _ => ?_)
      exact sheltered_joinOrOwn (realises_advanceAttemptBody p t e a _ _)
  | markSucceeded p t e a =>
      refine sheltered_answer _ (.bind (sheltered_liftCheck _) fun _ =>
        .bind (sheltered_liftCheck _) fun _ => ?_)
      exact sheltered_joinOrOwn (realises_finishTaskBody p t e a _ _)
  | markRetryable p t e a error =>
      refine sheltered_answer _ (.bind (sheltered_liftCheck _) fun _ =>
        .bind (sheltered_liftCheck _) fun _ =>
          .bind (sheltered_require _ _) fun _ => ?_)
      exact sheltered_joinOrOwn (realises_finishTaskBody p t e a _ _)
  | recoverSucceeded p t e old a reason =>
      refine sheltered_answer _ (.bind (sheltered_liftCheck _) fun _ => ?_)
      exact .atomically (recoverTaskBody p t e old a _ _ _ _ _)
  | recoverRetryable p t e old a reason =>
      refine sheltered_answer _ (.bind (sheltered_liftCheck _) fun _ => ?_)
      exact .atomically (recoverTaskBody p t e old a _ _ _ _ _)
  | recoverInconsistent p t e old a reason =>
      refine sheltered_answer _ (.bind (sheltered_liftCheck _) fun _ => ?_)
      exact .atomically (recoverTaskBody p t e old a _ _ _ _ _)
  | persistVerifiedReceipt p receipt =>
      refine sheltered_answer _ (.bind (sheltered_liftCheck _) fun _ => ?_)
      exact sheltered_joinOrOwn
        (realises_persistVerifiedReceiptBody p receipt _ _)
  | acquireNextExecutionEpoch p =>
      refine sheltered_answer _ (.bind (sheltered_liftCheck _) fun _ => ?_)
      exact .atomically (acquireNextExecutionEpochBody p)
  | readCurrentEpoch p =>
      exact sheltered_answer _ (.bind (sheltered_liftCheck _) fun _ =>
        .of_realises (realises_readCurrentEpochForPlan p))
  | readRuntime p t =>
      exact sheltered_answer _ (.bind (sheltered_liftCheck _) fun _ =>
        .of_realises (realises_readRuntimeWithStatement p t))
  | readVerifiedReceipt p t a =>
      exact sheltered_answer _ (.bind (sheltered_liftCheck _) fun _ =>
        .of_realises (realises_readVerifiedReceiptStatement p t a))

/-- One call inside a transaction. -/
private theorem issued_same (call : Issued) (ht : repo.txn.isSome = true) :
    SameOutside repo (call.run repo).2 := by
  have hsame := (call_sheltered call.1).same
    (c := { repo with faults := call.2 }) ht
  exact ⟨hsame.committed, hsame.busy, hsame.memory⟩

/-- A call that succeeds keeps the transaction open. -/
theorem issued_open {call : Issued} (ht : repo.txn.isSome = true)
    (hok : (call.run repo).1.isOk = true) :
    (call.run repo).2.txn.isSome = true := by
  cases hrun : call.run repo with
  | mk r repo' =>
      cases r with
      | error e =>
          rw [hrun] at hok
          cases hok
      | ok reply =>
          exact ((call_sheltered call.1).ok
            (c := { repo with faults := call.2 }) ht hrun).1

-- ================================================ a whole batch

/-- Calls that all find a transaction open leave the committed tables. -/
theorem issue_same {calls : List Issued} (h : Attached repo calls) :
    (issue repo calls).committed = repo.committed
      ∧ (issue repo calls).memory = repo.memory := by
  induction calls generalizing repo with
  | nil => exact ⟨rfl, rfl⟩
  | cons call rest ih =>
      obtain ⟨ht, hrest⟩ := h
      have hsame := issued_same call ht
      obtain ⟨hdb, hmem⟩ := ih hrest
      exact ⟨hdb.trans hsame.committed, hmem.trans hsame.memory⟩

/-- A caller that stops at the first error never meets a lost
transaction. -/
theorem attached_of_stops {calls : List Issued} (ht : repo.txn.isSome = true)
    (h : Stops repo calls) : Attached repo calls := by
  induction calls generalizing repo with
  | nil => trivial
  | cons call rest ih =>
      obtain ⟨hok, hrest⟩ := h
      refine ⟨ht, ?_⟩
      cases rest with
      | nil => trivial
      | cons next rest =>
          exact ih (issued_open ht (hok (List.cons_ne_nil _ _))) hrest

/-- A batch that was begun holds its transaction. -/
theorem beginWriteBatch_open {planId : Bytes} {epoch : Nat}
    (h : Repository.beginWriteBatch planId epoch repo = (.ok (), repo')) :
    repo'.txn = some repo'.committed
      ∧ repo'.memory = some (planId, epoch) := by
  cases hm : repo.memory with
  | some batch =>
      have hrun : Repository.beginWriteBatch planId epoch repo
          = (.error (.internal "runtime write batch is already active"),
              repo) := by
        unfold Repository.beginWriteBatch
        simp only [bind_apply, remembered, hm]
        rfl
      rw [hrun] at h
      cases h
  | none =>
      cases ht : repo.txn with
      | none =>
          obtain ⟨err, repo₁, hrun, -⟩ | ⟨repo₁, hrun, htxn, hdb, hmem, -⟩ :=
            beginWriteBatch_cases planId epoch ht hm
          · rw [hrun] at h
            cases h
          · rw [hrun] at h
            cases h
            exact ⟨htxn.trans (congrArg some hdb.symm), hmem⟩
      | some s =>
          -- a transaction without a batch: `BEGIN IMMEDIATE` is refused
          rw [beginWriteBatch_eq planId epoch hm] at h
          cases hids : checkIds planId (text "batch") with
          | error err =>
              rw [hids] at h
              cases h
          | ok _ =>
          cases hepoch : checkEpochAttempt epoch (text "batch") with
          | error err =>
              rw [hids, hepoch] at h
              cases h
          | ok _ =>
              obtain ⟨err, repo₁, hbegin, -⟩ := beginImmediate_nested
                executeError nestedMessage lockedMessage ht
              rw [hids, hepoch] at h
              simp only [liftCheck, bind_apply, pure_apply] at h
              rw [hbegin] at h
              cases h

/-- `RollbackWriteBatch` undoes its batch, whatever the calls answered,
if each of them found the batch's transaction open. -/
theorem rollbackWriteBatch_undoes {planId : Bytes} {epoch : Nat}
    (hbegin : Repository.beginWriteBatch planId epoch repo = (.ok (), repo'))
    {calls : List Issued} (hcalls : Attached repo' calls) :
    let done := Repository.rollbackWriteBatch (issue repo' calls)
    done.1 = .ok () ∧ done.2.committed = repo'.committed
      ∧ done.2.txn = none ∧ done.2.memory = none := by
  obtain ⟨-, hmem⟩ := beginWriteBatch_open hbegin
  obtain ⟨hdb, hkept⟩ := issue_same hcalls
  have hactive : (issue repo' calls).memory.isNone = false := by
    rw [hkept, hmem]
    rfl
  simp only [Repository.rollbackWriteBatch, hactive, Bool.false_eq_true,
    if_false]
  exact ⟨trivial, hdb, trivial, trivial⟩

/-- A repository on `fencingDb`. -/
def fencingRepo : Repo where
  committed := fencingDb
  txn := none
  busy := false
  faults := []
  memory := none

/-- The second of two calls meets a disk error. -/
def failingBatch : List Issued :=
  [(.markCommitIntent (text "p") (text "t") 1 (text "a"), []),
    (.markTempWritten (text "p") (text "t") 1 (text "a"),
      [none, none, some (text "disk I/O error")])]

theorem rollbackWriteBatch_undoes_failingBatch :
    (issue (Repository.beginWriteBatch (text "p") 1 fencingRepo).2
        failingBatch).txn = none
      ∧ (Repository.rollbackWriteBatch
          (issue (Repository.beginWriteBatch (text "p") 1 fencingRepo).2
            failingBatch)).2.committed = fencingDb := by
  have hrun : Repository.beginWriteBatch (text "p") 1 fencingRepo
      = (.ok (), (Repository.beginWriteBatch (text "p") 1 fencingRepo).2) :=
    Prod.ext (by decide) rfl
  have hopen := (beginWriteBatch_open hrun).1
  have hcalls : Attached
      (Repository.beginWriteBatch (text "p") 1 fencingRepo).2
      failingBatch := by
    refine attached_of_stops (by rw [hopen]; rfl) ⟨fun _ => by decide, ?_⟩
    exact ⟨fun h => absurd rfl h, trivial⟩
  exact ⟨by decide, (rollbackWriteBatch_undoes hrun hcalls).2.1⟩

/-- Not so for every sequence of calls: the first call fails and takes
the transaction with it, the second one commits. -/
theorem not_rollbackWriteBatch_undoes :
    ¬∀ (repo repo' : Repo) (planId : Bytes) (epoch : Nat)
      (calls : List Issued),
      Repository.beginWriteBatch planId epoch repo = (.ok (), repo') →
      (∀ call ∈ calls, call.1.planId = planId) →
      (Repository.rollbackWriteBatch (issue repo' calls)).2.committed
        = repo'.committed := by
  intro h
  have hundone := h fencingRepo
    (Repository.beginWriteBatch (text "p") 1 fencingRepo).2 (text "p") 1
    [(.markTempWritten (text "p") (text "t") 1 (text "a"), []),
      (.markCommitIntent (text "p") (text "t") 1 (text "a"), [])]
    (Prod.ext (by decide) rfl) (by decide)
  have hkept : (Repository.rollbackWriteBatch (issue
      (Repository.beginWriteBatch (text "p") 1 fencingRepo).2
      [(.markTempWritten (text "p") (text "t") 1 (text "a"), []),
        (.markCommitIntent (text "p") (text "t") 1 (text "a"), [])]
      )).2.committed.events.length = 2 := by decide
  rw [hundone] at hkept
  have hone : (Repository.beginWriteBatch (text "p") 1
      fencingRepo).2.committed.events.length = 1 := by decide
  rw [hone] at hkept
  cases hkept

end PhotoBridge
