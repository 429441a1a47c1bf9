/-
What the rows of the database say about the files, along every run of
migrate and resume.

`Ledger` is the database's part of what such runs keep. It is stated with
two parameters: that the temp of a receipt is there (`staged`) and that its
final is (`landed`). So a step that only moves files is one of the
parameters (`Ledger.mono`), and a call of the repository is one of the
tables. Most calls move tasks without taking up an attempt again, without
success and without a receipt (`Db.Calm`), and the ledger survives all of
these for one reason (`Ledger.calm`); the three that do more have a lemma
each.
-/
import PhotoBridge.Pipeline.Proofs.Materialize
import PhotoBridge.Pipeline.Proofs.Runtime
import PhotoBridge.Pipeline.Site

namespace PhotoBridge

open Transaction

variable {db db' : Db}

-- ============================================================ calm changes

/-- The row is running under the attempt. -/
def TaskRow.Runs (row : TaskRow) (attemptId : Bytes) : Prop :=
  row.state = .running ∧ row.activeAttemptId = some attemptId

/-- The primary key of `plan_task`. -/
def TaskRow.key (row : TaskRow) : Bytes × Bytes := (row.planId, row.taskId)

/-- The key of a task that was asked for. -/
theorem TaskRow.key_of_isAt {row : TaskRow} {planId taskId : Bytes}
    (h : row.isAt planId taskId = true) : row.key = (planId, taskId) := by
  obtain ⟨hp, ht⟩ := TaskRow.isAt_iff.1 h
  exact Prod.ext hp ht

/-- The key of a task that is owned. -/
theorem TaskRow.key_of_isOwnedBy {row : TaskRow} {planId taskId attemptId : Bytes}
    {epoch : Nat} (h : row.isOwnedBy planId taskId epoch attemptId = true) :
    row.key = (planId, taskId) := by
  unfold TaskRow.isOwnedBy at h
  rw [Bool.and_eq_true, Bool.and_eq_true, Bool.and_eq_true] at h
  exact TaskRow.key_of_isAt h.1.1.1

/-- The task a receipt is about is running under its attempt. -/
def Db.Pending (db : Db) (receipt : ReceiptRow) : Prop :=
  ∃ task ∈ db.tasks, task.key = (receipt.planId, receipt.taskId)
    ∧ task.Runs receipt.attemptId

/-- There is an attempt of this name. -/
def Db.Attempted (db : Db) (attemptId : Bytes) : Prop :=
  attemptId ∈ db.attempts.map AttemptRow.attemptId

/-- What it is for an attempt to have been made. -/
theorem Db.attempted_iff {attemptId : Bytes} : db.Attempted attemptId
    ↔ db.attempts.any (·.attemptId == attemptId) = true := by
  unfold Db.Attempted
  rw [List.mem_map, List.any_eq_true]
  simp

/-- The states a task of these commands can be in. -/
def TaskState.Usual : TaskState → Prop
  | .ready => True
  | .running => True
  | .succeeded => True
  | .retryable => True
  | .inconsistent => True
  | _ => False

/-- Tasks have moved, but only these have succeeded, none runs under an
attempt there was before, and no receipt has come or gone. -/
structure Db.Calm (done : Bytes × Bytes → Prop) (db db' : Db) : Prop where
  receipts : db'.receipts = db.receipts
  dependencies : db'.dependencies = db.dependencies
  keys : db'.tasks.map TaskRow.key = db.tasks.map TaskRow.key
  rows : ∀ new ∈ db'.tasks, ∃ old ∈ db.tasks, old.key = new.key
    ∧ (∀ attemptId, new.Runs attemptId → old.Runs attemptId
      ∨ ¬db.Attempted attemptId)
    ∧ (new.state = .succeeded → old.state = .succeeded ∨ done old.key)
    ∧ (new.state = old.state ∨ new.state.Usual)

namespace Db.Calm

variable {done : Bytes × Bytes → Prop}

/-- Only these tables tell that a change is calm. -/
theorem of_tables (hreceipts : db'.receipts = db.receipts)
    (hdependencies : db'.dependencies = db.dependencies)
    (htasks : db'.tasks = db.tasks) : Db.Calm done db db' where
  receipts := hreceipts
  dependencies := hdependencies
  keys := by rw [htasks]
  rows new hnew := by
    rw [htasks] at hnew
    exact ⟨new, hnew, rfl, fun _ hruns => .inl hruns, .inl, .inl rfl⟩

/-- Nothing has happened. -/
theorem refl (db : Db) : Db.Calm done db db := .of_tables rfl rfl rfl

/-- An update that keeps the keys. -/
theorem updateTasks {p : TaskRow → Bool} {f : TaskRow → TaskRow}
    (htasks : db'.tasks = (db.updateTasks p f).2.tasks)
    (hreceipts : db'.receipts = db.receipts)
    (hdependencies : db'.dependencies = db.dependencies)
    (hkey : ∀ row, (f row).key = row.key)
    (hruns : ∀ row attemptId, (f row).Runs attemptId →
      ¬db.Attempted attemptId)
    (hdone : ∀ row, p row = true → (f row).state = .succeeded → done row.key)
    (husual : ∀ row, (f row).state.Usual) : Db.Calm done db db' where
  receipts := hreceipts
  dependencies := hdependencies
  keys := by
    rw [htasks]
    show (db.tasks.map _).map _ = _
    rw [List.map_map]
    refine List.map_congr_left fun row _ => ?_
    rw [Function.comp_apply]
    split
    · exact hkey row
    · rfl
  rows new hnew := by
    rw [htasks] at hnew
    obtain ⟨old, hold, rfl⟩ := List.mem_map.1 hnew
    split
    · next hp =>
      exact ⟨old, hold, (hkey old).symm, fun a ha => .inr (hruns old a ha),
        fun h => .inr (hdone old hp h), .inr (husual old)⟩
    · exact ⟨old, hold, rfl, fun _ hruns => .inl hruns, .inl, .inl rfl⟩

/-- Tasks are released, as succeeded only if these. -/
theorem release {p : TaskRow → Bool} {next : TaskState} {error : Option Status}
    (htasks : db'.tasks = (db.updateTasks p (TaskRow.release next error)).2.tasks)
    (hreceipts : db'.receipts = db.receipts)
    (hdependencies : db'.dependencies = db.dependencies)
    (hdone : ∀ row, p row = true → next = .succeeded → done row.key)
    (husual : next.Usual) : Db.Calm done db db' := by
  refine .updateTasks htasks hreceipts hdependencies (fun _ => rfl) ?_ hdone
    fun _ => husual
  rintro row attemptId ⟨-, hactive⟩
  cases hactive

end Db.Calm

section Calls

variable {planId taskId attemptId reason : Bytes} {epoch oldEpoch : Nat}
  {u : Unit} {done : Bytes × Bytes → Prop}

/-- Making a task READY is calm. -/
theorem calm_setReady (h : (setReady planId taskId : DbTxn Unit) db
    = .ok (u, db')) : Db.Calm done db db' := by
  obtain ⟨-, -, rfl⟩ := setReady_ok.1 h
  exact .release rfl rfl rfl (fun _ _ => TaskState.noConfusion) trivial

/-- A step of an attempt is calm. -/
theorem calm_advance {next : FileAttemptState} {event : EventType}
    (h : (advanceAttemptBody planId taskId epoch attemptId next event none :
      DbTxn Unit) db = .ok (u, db')) : Db.Calm done db db' := by
  obtain ⟨-, -, previous, -, ⟨-, rfl⟩ | ⟨-, -, -, rfl⟩⟩ :=
    advanceAttemptBody_ok.1 h
  · exact .refl _
  · exact .of_tables rfl rfl rfl

/-- Giving a task back is calm. -/
theorem calm_markRetryable {error : Status}
    (h : (Repository.markRetryable planId taskId epoch attemptId error :
      DbTxn Unit) db = .ok (u, db')) : Db.Calm done db db' := by
  obtain ⟨_, -, h⟩ := liftCheck_bind_ok.1 h
  obtain ⟨_, -, h⟩ := liftCheck_bind_ok.1 h
  obtain ⟨-, h⟩ := require_bind_ok.1 h
  obtain ⟨-, -, -, rfl⟩ := finishTaskBody_ok.1 h
  exact .release rfl rfl rfl (fun _ _ => TaskState.noConfusion) trivial

/-- Ending a task is calm, if it may be. -/
private theorem calm_recover {next : TaskState} {attempt : FileAttemptState}
    {event : EventType} {error : Option Status}
    (hdone : next = .succeeded → done (planId, taskId))
    (h : (Repository.recover planId taskId epoch oldEpoch attemptId reason next
      attempt event error : DbTxn Unit) db = .ok (u, db'))
    (husual : next.Usual) : Db.Calm done db db' := by
  obtain ⟨_, -, h⟩ := liftCheck_bind_ok.1 h
  obtain ⟨-, -, -, rfl⟩ := recoverTaskBody_ok.1 h
  refine .release rfl rfl rfl (fun row hrow hnext => ?_) husual
  rw [TaskRow.key_of_isOwnedBy hrow]
  exact hdone hnext

/-- A claim is calm. -/
theorem calm_claim {supplied : Option Bytes} {claimed : ClaimedTask}
    (h : (Repository.claimNextReady planId epoch supplied :
      DbTxn ClaimedTask) db = .ok (claimed, db')) : Db.Calm done db db' := by
  obtain ⟨_, -, h⟩ := liftCheck_bind_ok.1 h
  obtain ⟨_, -, h⟩ := liftCheck_bind_ok.1 h
  obtain ⟨-, row, -, -, -, hfresh, -, rfl, -, -⟩ := claimNextReadyBody_ok.1 h
  refine .updateTasks (f := TaskRow.claim epoch (attemptIdFor planId row supplied))
    rfl rfl rfl (fun _ => rfl) ?_ (fun _ _ => TaskState.noConfusion)
    fun _ => trivial
  rintro row attemptId ⟨-, hactive⟩ hattempted
  rw [← Option.some.inj hactive, Db.attempted_iff, hfresh] at hattempted
  exact absurd hattempted Bool.false_ne_true

/-- The next epoch is calm. -/
private theorem calm_acquire {next : Nat}
    (h : (Repository.acquireNextExecutionEpoch planId : DbTxn Nat) db
      = .ok (next, db')) : Db.Calm done db db' := by
  obtain ⟨_, -, h⟩ := liftCheck_bind_ok.1 h
  obtain ⟨current, -, -, -, -, rfl⟩ := acquireNextExecutionEpochBody_ok.1 h
  obtain ⟨htasks, -, -, hreceipts⟩ := db.setCurrentEpoch_tables planId (current + 1)
  refine .of_tables hreceipts ?_ htasks
  unfold Db.setCurrentEpoch
  split <;> rfl

end Calls

/-- The task a call ends well. -/
def RepositoryCall.Finishes : RepositoryCall → Bytes × Bytes → Prop
  | .recoverSucceeded planId taskId _ _ _ _ => (· = (planId, taskId))
  | _ => fun _ => False

/-- A call of the pipeline that stores no receipt. -/
theorem repository_calm {c : RepositoryCall} {a : c.Value}
    (hpersist : ∀ planId receipt, c ≠ .persistVerifiedReceipt planId receipt)
    (h : (c.run : DbTxn c.Value) db = .ok (a, db')) :
    Db.Calm c.Finishes db db' := by
  cases c with
  | markCommitIntent p t e id =>
      obtain ⟨_, -, h⟩ := liftCheck_bind_ok.1 h
      obtain ⟨_, -, h⟩ := liftCheck_bind_ok.1 h
      exact calm_advance h
  | markTempWritten p t e id =>
      obtain ⟨_, -, h⟩ := liftCheck_bind_ok.1 h
      obtain ⟨_, -, h⟩ := liftCheck_bind_ok.1 h
      exact calm_advance h
  | persistVerifiedReceipt p receipt => exact absurd rfl (hpersist p receipt)
  | readRuntime p t =>
      obtain ⟨_, -, h⟩ := liftCheck_bind_ok.1 h
      obtain ⟨-, rfl⟩ := readRuntimeWithStatement_ok.1 h
      exact .refl _
  | readVerifiedReceipt p t id =>
      obtain ⟨_, -, h⟩ := liftCheck_bind_ok.1 h
      obtain ⟨-, rfl⟩ := readVerifiedReceiptStatement_ok.1 h
      exact .refl _
  | acquireNextExecutionEpoch p => exact calm_acquire h
  | recoverSucceeded p t e old id reason => exact calm_recover (fun _ => rfl) h trivial
  | recoverRetryable p t e old id reason =>
      exact calm_recover TaskState.noConfusion h trivial
  | recoverInconsistent p t e old id reason =>
      exact calm_recover TaskState.noConfusion h trivial

-- ============================================================ the history

/-- A connection that leaves nothing open leaves no trace in the store but
its tables. -/
theorem Store.opened_put {i : Nat} {repo : Repo} {failed : Bool}
    (hcommitted : repo.committed = db') (htxn : repo.txn = none)
    (hmemory : repo.memory = none) :
    (Store.opened db).put i repo failed = Store.opened db' := by
  obtain ⟨committed, txn, busy, faults, memory⟩ := repo
  subst hcommitted htxn hmemory
  unfold Store.put Store.opened
  congr 1
  · exact Function.update_eq_self i _
  · exact Function.update_eq_self i _

namespace Site

variable {σ : Site}

/-- The tables are what calls of the pipeline have made of them. -/
def History (σ : Site) (db : Db) : Prop :=
  ∃ t, Run (RecoveryService.preparing σ.blake3) σ.start.db t (Store.opened db)

namespace History

/-- The history before the first run. -/
theorem start (σ : Site) : σ.History σ.start.db := ⟨[], .start⟩

/-- What the history has come to the repository has come to. -/
theorem reached (h : σ.History db) :
    RecoveryService.Reached σ.blake3 db := by
  obtain ⟨t, hrun⟩ := h
  exact RecoveryService.reached_of_run hrun σ.fresh

/-- A call with no batch open. -/
theorem call (h : σ.History db) (c : Call)
    (hreceipt : ∀ planId receipt, c = .persistVerifiedReceipt planId receipt →
      receipt.tempPath
        = tempNameFor σ.blake3 planId receipt.taskId receipt.attemptId)
    {r : Reply} (hrun : (c.run : DbTxn Reply) db = .ok (r, db')) :
    σ.History db' := by
  obtain ⟨t, hreach⟩ := h
  have hstep := Run.act hreach 0 (.call c) []
    ⟨nofun, fun planId receipt hc =>
      hreceipt planId receipt (Action.call.inj hc)⟩
  have hatomic := call_atomic c
  let repo : Repo := (Store.opened db).repo 0 []
  have houtcome := hatomic.outcome (c := repo) rfl rfl
  obtain ⟨htxn, -, hmemory⟩ := hatomic.closed (c := repo) rfl rfl
  obtain ⟨hresult, -⟩ := hatomic.quiet (c := repo) rfl rfl rfl rfl
  have hcommitted : ((c.run : RepoM Reply) repo).2.committed = db' := by
    rw [show repo.committed = db from rfl, hrun] at hresult
    rw [hresult] at houtcome
    cases houtcome with
    | done hf => exact (Prod.mk.inj (Except.ok.inj (hf.symm.trans hrun))).2
  rw [show ((Store.opened db).step 0 (.call c) []).2 = Store.opened db' from
    Store.opened_put hcommitted htxn hmemory] at hstep
  exact ⟨_, hstep⟩

/-- An operation that is a call. -/
theorem answered {α : Type} (h : σ.History db) (c : Call) {wrap : α → Reply}
    {operation : DbTxn α} {a : α} (hc : c.run = answer wrap operation)
    (hreceipt : ∀ planId receipt, c ≠ .persistVerifiedReceipt planId receipt)
    (hrun : operation db = .ok (a, db')) : σ.History db' := by
  refine h.call c (fun _ _ heq => absurd heq (hreceipt _ _)) (r := wrap a) ?_
  rw [hc]
  exact answer_ok.2 ⟨a, hrun, rfl⟩

/-- Rows of a plan. -/
theorem plan (h : σ.History db) (migrations : List MigrationRow)
    (plans : List MigrationPlanRow) :
    σ.History (db.withPlans [] migrations plans) := by
  obtain ⟨t, hreach⟩ := h
  exact ⟨t, hreach.plan rfl [] migrations plans⟩

/-- An operation of the repository goes on with the history. -/
theorem repository (h : σ.History db) {c : RepositoryCall} {a : c.Value}
    (hreceipt : ∀ planId receipt, c = .persistVerifiedReceipt planId receipt →
      receipt.tempPath
        = tempNameFor σ.blake3 planId receipt.taskId receipt.attemptId)
    (hrun : (c.run : DbTxn c.Value) db = .ok (a, db')) : σ.History db' := by
  cases c with
  | markCommitIntent p t e id =>
      exact h.answered (.markCommitIntent p t e id) rfl nofun hrun
  | markTempWritten p t e id =>
      exact h.answered (.markTempWritten p t e id) rfl nofun hrun
  | persistVerifiedReceipt p receipt =>
      refine h.call (.persistVerifiedReceipt p receipt) (fun planId r heq => ?_)
        (answer_ok.2 ⟨a, hrun, rfl⟩)
      cases heq
      exact hreceipt p receipt rfl
  | readRuntime p t => exact h.answered (.readRuntime p t) rfl nofun hrun
  | readVerifiedReceipt p t id =>
      exact h.answered (.readVerifiedReceipt p t id) rfl nofun hrun
  | acquireNextExecutionEpoch p =>
      exact h.answered (.acquireNextExecutionEpoch p) rfl nofun hrun
  | recoverSucceeded p t e old id reason =>
      exact h.answered (.recoverSucceeded p t e old id reason) rfl nofun hrun
  | recoverRetryable p t e old id reason =>
      exact h.answered (.recoverRetryable p t e old id reason) rfl nofun hrun
  | recoverInconsistent p t e old id reason =>
      exact h.answered (.recoverInconsistent p t e old id reason) rfl nofun hrun

/-- Adding the tasks goes on with it. -/
theorem materializeTasks {planId : Bytes} {assets : List MinimalPlanAsset}
    {count total : Nat} (h : σ.History db)
    (hrun : (PhotoBridge.materializeTasks σ.blake3 planId assets count :
      DbTxn Nat) db = .ok (total, db')) : σ.History db' := by
  induction assets generalizing db count with
  | nil =>
      obtain ⟨-, rfl⟩ := Txn.pure_eq_ok.1 hrun
      exact h
  | cons asset rest ih =>
      obtain ⟨_, db₁, hone, hrest⟩ := Txn.bind_eq_ok.1 hrun
      obtain ⟨task, -, hone⟩ := liftCheck_bind_ok.1 hone
      obtain ⟨_, db₂, hadd, hready⟩ := Txn.bind_eq_ok.1 hone
      have hadded := h.answered (.addTask planId task) rfl nofun hadd
      exact ih (hadded.answered (.setReady planId task.id) rfl nofun hready) hrest

/-- Adding the plan goes on with it. -/
theorem materializePlanBody {artifact : FrozenPlanFile} {path : Bytes}
    {count : Nat} (h : σ.History db)
    (hrun : (PhotoBridge.materializePlanBody σ.blake3 artifact path :
      DbTxn Nat) db = .ok (count, db')) : σ.History db' := by
  obtain ⟨found, db₁, hcheck, hrun⟩ := Txn.bind_eq_ok.1 hrun
  obtain ⟨rfl, -⟩ := checkMaterializedPlan_ok hcheck
  cases found with
  | true =>
      obtain ⟨counts, db₂, hread, hrun⟩ := Txn.bind_eq_ok.1 hrun
      obtain ⟨-, rfl⟩ := select_ok.1 hread
      obtain ⟨-, hrun⟩ := require_bind_ok.1 hrun
      obtain ⟨-, rfl⟩ := Txn.pure_eq_ok.1 hrun
      exact h
  | false =>
      obtain ⟨_, db₂, hmigration, hrun⟩ := Txn.bind_eq_ok.1 hrun
      obtain ⟨_, db₃, hplan, hrun⟩ := Txn.bind_eq_ok.1 hrun
      cases insertMigration_ok hmigration
      cases insertMigrationPlan_ok hplan
      have hrows := h.plan [migrationRow artifact]
        [migrationPlanRow artifact path]
      unfold Db.withPlans at hrows
      rw [List.append_nil] at hrows
      exact hrows.materializeTasks hrun

end History

-- ============================================================= the ledger

/-- What a receipt says of an asset is true, and its temp is new. -/
structure Records (σ : Site) (asset : MinimalPlanAsset) (row : ReceiptRow) :
    Prop where
  planId : row.planId = σ.artifact.planId
  task : ∃ task, taskSpecForPlanAsset σ.blake3 asset = .ok task
    ∧ row.taskId = task.id
  fresh : σ.start.disk.targets row.tempPath = none
  finalPath : row.finalPath = asset.targetPath.bytes
  identity : row.sourceIdentity = encodeIdentity asset.sourceIdentity
  size : row.contentSize = asset.sourceIdentity.size
  digests : ∃ source, σ.Frozen asset source
    ∧ row.targetDigest = σ.blake3 source.content
    ∧ row.sourceDigest = σ.blake3 source.content

/-- The tasks are those of the plan, or there are none yet. -/
def Listed (σ : Site) (db : Db) : Prop :=
  db.tasks = [] ∨ ∃ tasks, TasksOf σ.blake3 σ.artifact.plan.assets tasks
    ∧ (tasks.map TaskSpec.id).Nodup
    ∧ db.tasks.map TaskRow.key = tasks.map fun t => (σ.artifact.planId, t.id)

/-- What the rows say. A receipt whose task is still running has its temp
or its final; a task that has succeeded has a receipt with its final. -/
structure Ledger (σ : Site) (staged landed : ReceiptRow → Prop) (db : Db) :
    Prop where
  history : σ.History db
  free : db.dependencies = []
  listed : σ.Listed db
  usual : ∀ task ∈ db.tasks, task.state.Usual
  recorded : ∀ row ∈ db.receipts,
    ∃ asset ∈ σ.artifact.plan.assets, σ.Records asset row
  /-- The key of a receipt can be asked for. -/
  checked : ∀ row ∈ db.receipts,
    Repository.checkReceiptKey row.planId row.taskId row.attemptId = .ok ()
  evident : ∀ row ∈ db.receipts, db.Pending row → staged row ∨ landed row
  /-- No two of them have one temp. -/
  apart : ∀ row ∈ db.receipts, ∀ other ∈ db.receipts, db.Pending row →
    db.Pending other → row.tempPath = other.tempPath → row = other
  succeeded : ∀ task ∈ db.tasks, task.state = .succeeded →
    ∃ row ∈ db.receipts, (row.planId, row.taskId) = task.key ∧ landed row

namespace Ledger

variable {staged landed staged' landed' : ReceiptRow → Prop}

/-- The ledger before the first run. -/
theorem start (σ : Site) (staged landed : ReceiptRow → Prop) :
    σ.Ledger staged landed σ.start.db := by
  obtain ⟨htasks, hdependencies, -, -, hreceipts⟩ := σ.fresh
  refine ⟨.start σ, hdependencies, .inl htasks, ?_, ?_, ?_, ?_, ?_, ?_⟩
  · rw [htasks]
    nofun
  · rw [hreceipts]
    nofun
  · rw [hreceipts]
    nofun
  · rw [hreceipts]
    nofun
  · rw [hreceipts]
    nofun
  · rw [htasks]
    nofun

/-- Files have come or moved: each receipt still has what it needs. -/
theorem mono (h : σ.Ledger staged landed db)
    (hstaged : ∀ row ∈ db.receipts, db.Pending row → staged row →
      staged' row ∨ landed' row)
    (hlanded : ∀ row ∈ db.receipts, landed row → landed' row) :
    σ.Ledger staged' landed' db where
  history := h.history
  free := h.free
  listed := h.listed
  usual := h.usual
  recorded := h.recorded
  checked := h.checked
  evident row hrow hpending := by
    rcases h.evident row hrow hpending with hs | hl
    · exact hstaged row hrow hpending hs
    · exact .inr (hlanded row hrow hl)
  apart := h.apart
  succeeded task htask hdone := by
    obtain ⟨row, hrow, hkey, hl⟩ := h.succeeded task htask hdone
    exact ⟨row, hrow, hkey, hlanded row hrow hl⟩

/-- Every receipt is of an attempt. -/
theorem attempted (h : σ.Ledger staged landed db) {row : ReceiptRow}
    (hrow : row ∈ db.receipts) : db.Attempted row.attemptId := by
  obtain ⟨attempt, hattempt, hid, -⟩ :=
    h.history.reached.sound.owned.receipts row hrow
  exact List.mem_map.2 ⟨attempt, hattempt, hid⟩

/-- A task that is running under the attempt of a receipt was so before. -/
theorem pending {done : Bytes × Bytes → Prop}
    (h : σ.Ledger staged landed db) (hcalm : Db.Calm done db db')
    {row : ReceiptRow} (hrow : row ∈ db.receipts) (hpending : db'.Pending row) :
    db.Pending row := by
  obtain ⟨new, hnew, hkey, hruns⟩ := hpending
  obtain ⟨old, hold, hsame, hbefore, -⟩ := hcalm.rows new hnew
  rcases hbefore _ hruns with hruns | hno
  · exact ⟨old, hold, hsame.trans hkey, hruns⟩
  · exact absurd (h.attempted hrow) hno

/-- Tasks have moved; those that have succeeded have a receipt. -/
theorem calm {done : Bytes × Bytes → Prop} (h : σ.Ledger staged landed db)
    (hcalm : Db.Calm done db db') (hhistory : σ.History db')
    (hdone : ∀ key, done key →
      ∃ row ∈ db.receipts, (row.planId, row.taskId) = key ∧ landed row) :
    σ.Ledger staged landed db' where
  history := hhistory
  free := hcalm.dependencies.trans h.free
  listed := by
    rcases h.listed with hnone | ⟨tasks, htasks, hnodup, hkeys⟩
    · refine .inl (List.map_eq_nil_iff.1 (hcalm.keys.trans ?_))
      rw [hnone, List.map_nil]
    · exact .inr ⟨tasks, htasks, hnodup, hcalm.keys.trans hkeys⟩
  usual new hnew := by
    obtain ⟨old, hold, -, -, -, hsame | husual⟩ := hcalm.rows new hnew
    · rw [hsame]
      exact h.usual old hold
    · exact husual
  recorded row hrow := h.recorded row (hcalm.receipts ▸ hrow)
  checked row hrow := h.checked row (hcalm.receipts ▸ hrow)
  evident row hrow hpending := by
    have hrow' : row ∈ db.receipts := hcalm.receipts ▸ hrow
    exact h.evident row hrow' (h.pending hcalm hrow' hpending)
  apart row hrow other hother hpending hpending' := by
    have hrow' : row ∈ db.receipts := hcalm.receipts ▸ hrow
    have hother' : other ∈ db.receipts := hcalm.receipts ▸ hother
    exact h.apart row hrow' other hother' (h.pending hcalm hrow' hpending)
      (h.pending hcalm hother' hpending')
  succeeded new hnew hstate := by
    obtain ⟨old, hold, hkey, -, hbefore, -⟩ := hcalm.rows new hnew
    rw [hcalm.receipts, ← hkey]
    rcases hbefore hstate with hsucceeded | hnow
    · exact h.succeeded old hold hsucceeded
    · exact hdone old.key hnow

end Ledger

end Site

-- ============================================================ the receipts

/-- What `CheckReceiptKey` accepts. -/
private theorem checkReceiptKey_ok {planId taskId attemptId : Bytes} :
    Repository.checkReceiptKey planId taskId attemptId = .ok ()
      ↔ (RecoveryService.IsId planId ∧ RecoveryService.IsId taskId)
        ∧ RecoveryService.IsId attemptId := by
  unfold Repository.checkReceiptKey
  rw [← RecoveryService.checkIds_ok]
  cases checkIds planId taskId with
  | error e => exact ⟨nofun, fun h => nomatch h.1⟩
  | ok u =>
      refine ⟨fun h => ⟨rfl, ?_⟩, fun h => if_pos h.2⟩
      by_contra hno
      have hthrown : (.error (.invalid "attempt id must be non-empty and NUL-free") :
          Except Status Unit) = .ok () := (if_neg hno).symm.trans h
      cases hthrown

/-- What storing a receipt does. -/
theorem persistVerifiedReceipt_cases {planId : Bytes} {receipt : VerifiedReceipt}
    {u : Unit} (h : (Repository.persistVerifiedReceipt planId receipt :
      DbTxn Unit) db = .ok (u, db')) :
    db' = db ∧ db.receipts.any (ReceiptRow.isAt planId receipt.taskId
        receipt.attemptId) = true
      ∨ ∃ source identity, receipt.sourceDigest = some source
        ∧ receipt.sourceIdentity = some identity
        ∧ db.Holds planId receipt.taskId receipt.attemptId receipt.ownerEpoch
        ∧ db' = (db.addReceipt (receiptRow planId receipt source
            identity)).advance planId receipt.taskId receipt.attemptId
            receipt.ownerEpoch .verifiedDurable (receiptEvent planId receipt) := by
  obtain ⟨⟨source, identity⟩, hcheck, h⟩ := liftCheck_bind_ok.1 h
  obtain ⟨-, -, hsource, hidentity⟩ := checkReceipt_ok hcheck
  obtain ⟨-, hholds, ⟨hstored, rfl, -⟩ | ⟨-, -, -, rfl⟩⟩ :=
    persistVerifiedReceiptBody_ok.1 h
  · exact .inl ⟨rfl, hstored⟩
  · exact .inr ⟨source, identity, hsource, hidentity, hholds, rfl⟩

namespace Site.Ledger

variable {σ : Site} {staged landed : ReceiptRow → Prop} {planId : Bytes}
  {receipt : VerifiedReceipt} {u : Unit}

/-- A new receipt, true and with its temp, which is nobody else's. -/
theorem persist (h : σ.Ledger staged landed db)
    (hrun : (Repository.persistVerifiedReceipt planId receipt : DbTxn Unit) db
      = .ok (u, db'))
    (htemp : receipt.tempPath
      = tempNameFor σ.blake3 planId receipt.taskId receipt.attemptId)
    (hnew : ∀ source identity, receipt.sourceDigest = some source →
      receipt.sourceIdentity = some identity →
      (∃ asset ∈ σ.artifact.plan.assets,
        σ.Records asset (receiptRow planId receipt source identity))
      ∧ staged (receiptRow planId receipt source identity))
    (hapart : ∀ row ∈ db.receipts, db.Pending row →
      row.tempPath ≠ receipt.tempPath) : σ.Ledger staged landed db' := by
  have hhistory : σ.History db' := h.history.repository
    (c := .persistVerifiedReceipt planId receipt) (fun p r heq => by
      cases heq
      exact htemp) hrun
  rcases persistVerifiedReceipt_cases hrun with
    ⟨rfl, -⟩ | ⟨source, identity, hsource, hidentity, -, hdb⟩
  · exact h
  -- a new receipt: its row comes last
  obtain ⟨hrecords, hstaged⟩ := hnew source identity hsource hidentity
  have hkey : Repository.checkReceiptKey planId receipt.taskId receipt.attemptId
      = .ok () := by
    obtain ⟨⟨_, _⟩, hcheck, -⟩ := liftCheck_bind_ok.1 hrun
    obtain ⟨hids, hattempt, -⟩ := checkReceipt_ok hcheck
    exact checkReceiptKey_ok.2
      ⟨RecoveryService.checkIds_ok.1 hids,
        (RecoveryService.checkEpochAttempt_ok.1 hattempt).2.1⟩
  have htasks : db'.tasks = db.tasks := by
    rw [hdb]
    rfl
  have hreceipts : db'.receipts
      = db.receipts ++ [receiptRow planId receipt source identity] := by
    rw [hdb]
    rfl
  have hpending : ∀ row, db'.Pending row ↔ db.Pending row := by
    unfold Db.Pending
    simp only [htasks, implies_true]
  refine ⟨hhistory, by rw [hdb]; exact h.free, ?_, by rw [htasks]; exact h.usual,
    fun row hrow => ?_, fun row hrow => ?_, fun row hrow hp => ?_, ?_,
    fun task htask hstate => ?_⟩
  -- the tasks are as they were, and the rows are the old ones and this one
  · unfold Listed
    rw [htasks]
    exact h.listed
  · rw [hreceipts] at hrow
    rcases List.mem_append.1 hrow with hold | hlast
    · exact h.recorded row hold
    · rw [List.mem_singleton.1 hlast]
      exact hrecords
  · rw [hreceipts] at hrow
    rcases List.mem_append.1 hrow with hold | hlast
    · exact h.checked row hold
    · rw [List.mem_singleton.1 hlast]
      exact hkey
  · rw [hreceipts] at hrow
    rcases List.mem_append.1 hrow with hold | hlast
    · exact h.evident row hold ((hpending row).1 hp)
    · rw [List.mem_singleton.1 hlast]
      exact .inl hstaged
  -- two rows of one temp: neither is the new one, or both are
  · intro row hrow other hother hp hp' hsame
    rw [hreceipts] at hrow hother
    rw [hpending] at hp hp'
    rcases List.mem_append.1 hrow with hold | hlast
    · rcases List.mem_append.1 hother with hold' | hlast'
      · exact h.apart row hold other hold' hp hp' hsame
      · rw [List.mem_singleton.1 hlast'] at hsame
        exact absurd hsame (hapart row hold hp)
    · rcases List.mem_append.1 hother with hold' | hlast'
      · rw [List.mem_singleton.1 hlast] at hsame
        exact absurd hsame.symm (hapart other hold' hp')
      · rw [List.mem_singleton.1 hlast, List.mem_singleton.1 hlast']
  -- a task that has succeeded has one of the old receipts
  · rw [htasks] at htask
    obtain ⟨row, hrow, hkey, hlanded⟩ := h.succeeded task htask hstate
    refine ⟨row, ?_, hkey, hlanded⟩
    rw [hreceipts]
    exact List.mem_append_left _ hrow

/-- The plan's tasks are there now, if they were not. -/
theorem materialize (h : σ.Ledger staged landed db) {path : Bytes} {count : Nat}
    (hrun : (materializePlanBody σ.blake3 σ.artifact path : DbTxn Nat) db
      = .ok (count, db')) : σ.Ledger staged landed db' := by
  have hhistory := h.history.materializePlanBody hrun
  rcases materializePlanBody_ok hrun with
    ⟨-, tasks, htasks, -, -, hnodup, hfree, rfl⟩ | ⟨rfl, -⟩
  · have hbefore : db.tasks = [] ∨ tasks = [] := by
      rcases h.listed with hnone | ⟨tasks', htasks', -, hkeys⟩
      · exact .inl hnone
      · refine .inr (List.eq_nil_iff_forall_not_mem.2 fun task htask => ?_)
        have hthere : (σ.artifact.planId, task.id) ∈ db.tasks.map TaskRow.key := by
          rw [hkeys, htasks'.unique htasks]
          exact List.mem_map_of_mem htask
        obtain ⟨row, hrow, hkey⟩ := List.mem_map.1 hthere
        obtain ⟨hp, ht⟩ := Prod.mk.inj hkey
        refine List.any_eq_false.1 (hfree task htask) row hrow ?_
        exact TaskRow.isAt_iff.2 ⟨hp, ht⟩
    have hready : ∀ row ∈ tasks.map (Db.readyTaskRow σ.artifact.planId),
        row.state = .ready := by
      intro row hrow
      obtain ⟨task, -, rfl⟩ := List.mem_map.1 hrow
      rfl
    have hpending : ∀ row, (db.withPlan σ.artifact path tasks).Pending row →
        db.Pending row := by
      rintro row ⟨task, htask, hkey, hruns⟩
      rcases List.mem_append.1 htask with hold | hnew
      · exact ⟨task, hold, hkey, hruns⟩
      · exact nomatch (hready task hnew).symm.trans hruns.1
    refine ⟨hhistory, h.free, ?_, fun task htask => ?_, h.recorded, h.checked,
      fun row hrow hp => h.evident row hrow (hpending row hp), fun row hrow other hother hp hp' =>
        h.apart row hrow other hother (hpending row hp) (hpending other hp'),
      fun task htask hstate => ?_⟩
    · rcases hbefore with hnone | hnone
      · refine .inr ⟨tasks, htasks, hnodup, ?_⟩
        show (db.tasks ++ _).map TaskRow.key = _
        rw [hnone, List.nil_append, List.map_map]
        rfl
      · subst hnone
        show (db.tasks ++ _) = [] ∨ _
        rw [List.map_nil, List.append_nil]
        rcases h.listed with hl | ⟨tasks', htasks', hnodup', hkeys⟩
        · exact .inl hl
        · refine .inr ⟨tasks', htasks', hnodup', ?_⟩
          show (db.tasks ++ []).map TaskRow.key = _
          rw [List.append_nil]
          exact hkeys
    · rcases List.mem_append.1 htask with hold | hnew
      · exact h.usual task hold
      · rw [hready task hnew]
        exact trivial
    · rcases List.mem_append.1 htask with hold | hnew
      · exact h.succeeded task hold hstate
      · exact nomatch (hready task hnew).symm.trans hstate
  · exact h

end Site.Ledger

end PhotoBridge
