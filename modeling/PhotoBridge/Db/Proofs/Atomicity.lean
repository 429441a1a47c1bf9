/-
A repository action that fails outside a batch might as well not have
been called: the tables are those of before, no transaction is open and
no batch is active, so the next action finds the connection it would
have found.

Any statement of the action may be the one that fails, `BEGIN IMMEDIATE`
and `COMMIT` included. `ROLLBACK` inside an open transaction is the one
statement taken not to fail (`Session.rollback` has no fault): SQLite
documents none for it, and the source does not look at its result.
-/
import PhotoBridge.Db.Proofs.Store

namespace PhotoBridge

open Transaction Session

variable {repo repo' : Repo} {e : Status}

/-- No transaction is open on the connection and no batch is active. -/
structure Idle (repo : Repo) : Prop where
  txn : repo.txn = none
  batch : repo.memory = none

/-- Two connections that differ at most in the faults to come. -/
theorem eq_withFaults {repo repo' : Repo} (hdb : repo'.committed = repo.committed)
    (htxn : repo'.txn = repo.txn) (hbusy : repo'.busy = repo.busy)
    (hmem : repo'.memory = repo.memory) :
    repo' = { repo with faults := repo'.faults } := by
  cases repo
  cases repo'
  simp only at hdb htxn hbusy hmem
  subst hdb htxn hbusy hmem
  rfl

/-- A failed call leaves an idle connection as it was. -/
theorem call_error (hidle : Idle repo) (c : Call)
    (h : (c.run : RepoM Reply) repo = (.error e, repo')) :
    repo' = { repo with faults := repo'.faults } := by
  have hrule := call_atomic c
  obtain ⟨htxn, hbusy, hmem⟩ := hrule.closed hidle.txn hidle.batch
  have hout := hrule.outcome hidle.txn hidle.batch
  rw [h] at htxn hbusy hmem hout
  have hdb : repo'.committed = repo.committed := by
    generalize hdb' : repo'.committed = db' at hout
    cases hout with
    | refused e => rfl
  exact eq_withFaults hdb (htxn.trans hidle.txn.symm) hbusy hmem

/-- A failed `BeginWriteBatch` leaves an idle connection as it was. -/
theorem beginWriteBatch_error (hidle : Idle repo) (planId : Bytes)
    (epoch : Nat)
    (h : Repository.beginWriteBatch planId epoch repo = (.error e, repo')) :
    repo' = { repo with faults := repo'.faults } := by
  obtain ⟨err, repo₁, hrun, htxn, hsame⟩ | ⟨repo₁, hrun, -⟩ :=
    beginWriteBatch_cases planId epoch hidle.txn hidle.batch
  · rw [hrun] at h
    cases h
    exact eq_withFaults hsame.committed (htxn.trans hidle.txn.symm)
      hsame.busy hsame.memory
  · rw [hrun] at h
    cases h

/-- `CommitWriteBatch` and `RollbackWriteBatch` do nothing when no batch
is active. -/
private theorem commitWriteBatch_idle (hidle : Idle repo) :
    Repository.commitWriteBatch repo
      = (.error (.internal "runtime write batch is not active"), repo) := by
  unfold Repository.commitWriteBatch
  simp only [hidle.batch, Option.isNone_none, if_true]

private theorem rollbackWriteBatch_noBatch (hidle : Idle repo) :
    Repository.rollbackWriteBatch repo = (.ok (), repo) := by
  unfold Repository.rollbackWriteBatch
  simp only [hidle.batch, Option.isNone_none, if_true]

/-- A failed action leaves an idle connection as it was. -/
theorem action_error (hidle : Idle repo) (action : Action)
    (h : action.run repo = (.error e, repo')) :
    repo' = { repo with faults := repo'.faults } := by
  cases action with
  | call c => exact call_error hidle c h
  | beginWriteBatch p epoch =>
      cases hrun : Repository.beginWriteBatch p epoch repo with
      | mk r repo₁ =>
        have hall := (answer_run hrun).symm.trans h
        cases r with
        | ok _ => cases hall
        | error err =>
            cases hall
            exact beginWriteBatch_error hidle p epoch hrun
  | commitWriteBatch =>
      have hall := (answer_run (commitWriteBatch_idle hidle)).symm.trans h
      cases hall
      rfl
  | rollbackWriteBatch =>
      have hall := (answer_run (rollbackWriteBatch_noBatch hidle)).symm.trans h
      cases hall

/-- What a failed repository action leaves behind. -/
structure Untouched (repo repo' : Repo) : Prop where
  /-- Every table is as before. -/
  tables : repo'.committed = repo.committed
  /-- No transaction is open and no batch is active. -/
  idle : Idle repo'
  /-- Whatever is called next does what it would have done. -/
  next : ∀ (action : Action) (faults : List (Option Bytes)),
    action.run { repo' with faults := faults }
      = action.run { repo with faults := faults }

/-- Atomicity on error: over any tables, with any statement failing and
whether or not another connection holds the write lock. -/
theorem repository_error_untouched {repo : Repo} (hidle : Idle repo)
    (action : Action) {e : Status} (h : (action.run repo).1 = .error e) :
    Untouched repo (action.run repo).2 := by
  cases hrun : action.run repo with
  | mk r repo' =>
      rw [hrun] at h
      simp only at h
      subst h
      have heq := action_error hidle action hrun
      refine ⟨?_, ⟨?_, ?_⟩, fun next faults => ?_⟩ <;> simp only <;> rw [heq]
      · exact hidle.txn
      · exact hidle.batch

/-- The connection of `plannedDb` after its task was released, with the
fifth statement of the next operation failing. -/
def failingClaim : Repo where
  committed := ((Store.opened plannedDb).after [] (claimedHistory.take 3)
    ).1.committed
  txn := none
  busy := false
  faults := [none, none, none, none, some (text "disk I/O error")]
  memory := none

/-- The claim's update of `plan_task` is made and its insert into
`task_attempt` fails. -/
theorem repository_error_untouched_claim :
    ((Action.call (.claimNextReady (text "p") 1 none)).run failingClaim).1
        = .error (.sqlite "insert task attempt" (text "disk I/O error"))
      ∧ Untouched failingClaim
        ((Action.call (.claimNextReady (text "p") 1 none)).run
          failingClaim).2 := by
  have hrun : ((Action.call (.claimNextReady (text "p") 1 none)).run
      failingClaim).1
        = .error (.sqlite "insert task attempt" (text "disk I/O error")) := by
    decide
  exact ⟨hrun, repository_error_untouched ⟨rfl, rfl⟩ _ hrun⟩

end PhotoBridge
