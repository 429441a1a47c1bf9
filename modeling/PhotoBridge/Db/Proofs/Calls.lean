/-
Every repository call against its function of the tables.

Outside a batch a call does all of its function or nothing
(`call_atomic`). Inside a batch that still has its transaction, and whose
plan still has the batch's epoch, it does its function on the working
copy or fails (`call_joins`): the cached epoch stands in for the one the
call would have read.
-/
import PhotoBridge.Db.Store
import PhotoBridge.Db.Proofs.Effects
import PhotoBridge.Db.Proofs.Realise

namespace PhotoBridge

open Transaction Session

variable {α : Type} {planId : Bytes}

-- ==================================================== the cached epoch

/-- The batch is open on a working copy in which its epoch is current. -/
def InBatch (batch : BatchState) (s : Db) : Prop :=
  ∃ plan epoch, batch = some (plan, epoch)
    ∧ s.currentEpoch? plan = some epoch

/-- Only what is done here counts. -/
private theorem bind_congr_at {β : Type} {x y : DbTxn α} {s : Db}
    (h : x s = y s) (k : α → DbTxn β) : (x >>= k) s = (y >>= k) s := by
  show StateT.bind x k s = StateT.bind y k s
  unfold StateT.bind
  rw [h]

/-- The epoch of a batch is that of its plan. -/
private theorem currentEpochFor_batched {epoch : Nat} {s : Db}
    (h : s.currentEpoch? planId = some epoch) :
    (currentEpochFor (some epoch) planId : DbTxn Nat) s
      = (currentEpochFor none planId : DbTxn Nat) s := by
  rw [currentEpochFor_ok.2 (⟨rfl, rfl⟩ :
      EpochIs (some epoch) s planId epoch ∧ s = s)]
  exact (currentEpochFor_ok.2 (⟨h, rfl⟩ :
      EpochIs none s planId epoch ∧ s = s)).symm

/-- A body that looks at its batch only through `currentEpochFor`. -/
def EpochBlind (planId : Bytes) (body : Option Nat → DbTxn Unit) : Prop :=
  ∀ epoch s, s.currentEpoch? planId = some epoch →
    body (some epoch) s = body none s

/-- Ending a task does the same in a batch and outside, at the plan's
epoch. -/
theorem finishTaskBody_blind (taskId : Bytes) (epoch : Nat)
    (attemptId : Bytes) (next : TaskState) (error : Option Status) :
    EpochBlind planId
      (finishTaskBody planId taskId epoch attemptId next error) :=
  fun _ _ h => bind_congr_at (currentEpochFor_batched h) _

/-- A step of an attempt does, too. -/
theorem advanceAttemptBody_blind (taskId : Bytes) (epoch : Nat)
    (attemptId : Bytes) (next : FileAttemptState) (event : EventType) :
    EpochBlind planId
      (advanceAttemptBody planId taskId epoch attemptId next event) :=
  fun _ _ h => bind_congr_at (currentEpochFor_batched h) _

/-- Storing a receipt does, too. -/
theorem persistVerifiedReceiptBody_blind (receipt : VerifiedReceipt)
    (source : Digest) (identity : FileIdentity) :
    EpochBlind planId
      (persistVerifiedReceiptBody planId receipt source identity) :=
  fun _ _ h => bind_congr_at (currentEpochFor_batched h) _

-- ============================================================ brackets

/-- A check before an operation. -/
theorem atomic_check {check : Except Status α} {β : Type}
    {k : α → RepoM β} {g : α → DbTxn β} {I : BatchState → Prop}
    (h : ∀ a, check = .ok a → Atomic I (k a) (g a)) :
    Atomic I (liftCheck check >>= k) (liftCheck check >>= g) := by
  cases check with
  | ok a => exact h a rfl
  | error e => exact .throw e

private theorem joins_check {check : Except Status α} {β : Type}
    {k : α → RepoM β} {g : α → DbTxn β} {P : BatchState → Db → Prop}
    (h : ∀ a, check = .ok a → Joins P (k a) (g a)) :
    Joins P (liftCheck check >>= k) (liftCheck check >>= g) := by
  cases check with
  | ok a => exact h a rfl
  | error e => exact .throw e

/-- A condition before an operation. -/
theorem atomic_require {p : Prop} [Decidable p] {error : Status} {β : Type}
    {k : RepoM β} {g : DbTxn β} {I : BatchState → Prop}
    (h : p → Atomic I k g) :
    Atomic I (require p error >>= fun _ => k)
      (require p error >>= fun _ => g) := by
  unfold require
  by_cases hp : p
  · simp only [if_pos hp]
    exact h hp
  · simp only [if_neg hp]
    exact .throw error

theorem joins_require {p : Prop} [Decidable p] {error : Status} {β : Type}
    {k : RepoM β} {g : DbTxn β} {P : BatchState → Db → Prop}
    (h : p → Joins P k g) :
    Joins P (require p error >>= fun _ => k)
      (require p error >>= fun _ => g) := by
  unfold require
  by_cases hp : p
  · simp only [if_pos hp]
    exact h hp
  · simp only [if_neg hp]
    exact .throw error

/-- A bracketed body that succeeds found no transaction open and
committed its function. -/
theorem bracket_ok {α : Type} {body : RepoM α} {f : DbTxn α} {a : α}
    {repo repo' : Repo} (hbody : Realises body f)
    (h : bracket body repo = (.ok a, repo')) :
    repo.txn = none ∧ f repo.committed = .ok (a, repo'.committed)
      ∧ repo'.txn = none := by
  have hrule : Atomic (fun _ => True) (bracket body) f := .atomically hbody
  cases ht : repo.txn with
  | some s =>
      obtain ⟨⟨e, he⟩, -⟩ := atomically_nested executeError nestedMessage
        lockedMessage inactiveMessage body ht
      have hrun : (bracket body repo).1 = .error e := he
      rw [h] at hrun
      cases hrun
  | none =>
      have hout := hrule.outcome ht trivial
      have hclosed := (hrule.closed ht trivial).1
      rw [h] at hout hclosed
      refine ⟨rfl, ?_, hclosed⟩
      simp only at hout
      generalize repo'.committed = db' at hout
      cases hout with
      | done hf => exact hf

/-- A bracketed body that fails leaves the committed tables alone. -/
theorem bracket_error {α : Type} {body : RepoM α} {f : DbTxn α}
    {e : Status} {repo repo' : Repo} (hbody : Realises body f)
    (h : bracket body repo = (.error e, repo')) :
    repo'.committed = repo.committed := by
  have hrule : Atomic (fun _ => True) (bracket body) f := .atomically hbody
  cases ht : repo.txn with
  | some s =>
      obtain ⟨-, -, hsame⟩ := atomically_nested executeError nestedMessage
        lockedMessage inactiveMessage body ht
      have hdb : (bracket body repo).2.committed = repo.committed :=
        hsame.committed
      rw [h] at hdb
      exact hdb
  | none =>
      have hout := hrule.outcome ht trivial
      rw [h] at hout
      simp only at hout
      generalize repo'.committed = db' at hout
      cases hout with
      | refused => rfl

/-- A bracket closes the transaction it opened and no other. -/
theorem bracket_txn {α : Type} {body : RepoM α} {f : DbTxn α}
    (hbody : Realises body f) (repo : Repo) :
    (bracket body repo).2.txn = repo.txn := by
  have hrule : Atomic (fun _ => True) (bracket body) f := .atomically hbody
  cases ht : repo.txn with
  | some s =>
      exact (atomically_nested executeError nestedMessage lockedMessage
        inactiveMessage body ht).2.1
  | none => exact (hrule.closed ht trivial).1

/-- Outside a batch, `joinOrOwn` opens a transaction. -/
theorem atomic_joinOrOwn {body : Option Nat → RepoM Unit}
    {body' : Option Nat → DbTxn Unit}
    (h : Realises (body none) (body' none)) :
    Atomic (· = none) (joinOrOwn planId body) (joinOrOwn planId body') := by
  have hown : ∀ c : Repo, c.memory = none →
      joinOrOwn planId body c = bracket (body none) c := by
    intro c hc
    apply joinOrOwn_own
    rw [hc]
    rfl
  have hb : Atomic (· = none) (bracket (body none)) (body' none) :=
    .atomically h
  refine ⟨fun {c} hc hI => ?_, fun {c} hc hI => ?_, fun {c} hc hI hb' => ?_,
    fun {c} hc hI hq hb' => ?_⟩ <;> rw [hown c hI]
  · exact hb.outcome hc hI
  · exact hb.closed hc hI
  · exact hb.locked hc hI hb'
  · exact hb.quiet hc hI hq hb'

/-- Inside a batch, `joinOrOwn` joins it or is refused. -/
theorem joins_joinOrOwn {body : Option Nat → RepoM Unit}
    {body' : Option Nat → DbTxn Unit}
    (h : ∀ batched, Realises (body batched) (body' batched))
    (hblind : EpochBlind planId body') :
    Joins InBatch (joinOrOwn planId body) (joinOrOwn planId body') := by
  have hjoin : ∀ (c : Repo) (s : Db), InBatch c.memory s →
      ∃ x : RepoM Unit, joinOrOwn planId body c = x c
        ∧ Joins (fun b s' => b = c.memory ∧ s' = s) x (body' none) := by
    rintro c s ⟨plan, epoch, hb, hs⟩
    by_cases hp : plan = planId
    · subst hp
      refine ⟨Session.orRollback (body (some epoch)), ?_, ?_⟩
      · apply joinOrOwn_joined
        rw [hb]
        simp [batchedEpochFor]
      · refine .orRollback (h (some epoch)) ?_
        rintro _ _ ⟨-, rfl⟩
        exact hblind epoch _ hs
    · refine ⟨bracket (body none), joinOrOwn_own ?_, .refuses⟩
      rw [hb]
      simp [batchedEpochFor, hp]
  constructor
  · intro c c' s a hc hP hrun
    obtain ⟨x, hx, hjoins⟩ := hjoin c s hP
    exact hjoins.ok hc ⟨rfl, rfl⟩ (hx.symm.trans hrun)
  · intro c c' s e hc hP hrun
    obtain ⟨x, hx, hjoins⟩ := hjoin c s hP
    exact hjoins.error hc ⟨rfl, rfl⟩ (hx.symm.trans hrun)

-- =========================================== the statement-only calls

/-- `AddTask` is atomic. -/
private theorem addTask_atomic (p : Bytes) (task : TaskSpec) :
    Atomic (· = none) (addTask p task : RepoM Unit)
      (addTask p task : DbTxn Unit) := by
  exact atomic_check fun _ _ => atomic_check fun _ _ =>
    atomic_require fun _ => .write _ _ _

/-- `SetReady` is atomic. -/
theorem setReady_atomic (p t : Bytes) :
    Atomic (· = none) (setReady p t : RepoM Unit)
      (setReady p t : DbTxn Unit) := by
  refine atomic_check fun _ _ => ?_
  refine Atomic.write_test (Status.sqlite "set task ready") lockedMessage
    fun s a s' hw hzero => ?_
  obtain ⟨rfl, rfl⟩ := Prod.mk.inj (Except.ok.inj hw)
  -- no row matched, so the update left every row as it was
  have hnone : ∀ row ∈ s.tasks, s.isReadyable p t row = false := by
    have hcount : s.tasks.countP (s.isReadyable p t) = 0 :=
      Decidable.not_not.1 hzero
    intro row hrow
    exact Bool.eq_false_iff.2 (List.countP_eq_zero.1 hcount row hrow)
  have hmap : (s.updateTasks (s.isReadyable p t)
      (TaskRow.release .ready none)).2.tasks = s.tasks := by
    refine (List.map_congr_left fun row hrow => ?_).trans (List.map_id _)
    rw [hnone row hrow]
    rfl
  show ({ s with tasks := _ } : Db) = s
  exact (congrArg (fun tasks => { s with tasks := tasks }) hmap).trans rfl

/-- `AddDependency` is atomic. -/
theorem addDependency_atomic (p t d : Bytes) :
    Atomic (· = none) (addDependency p t d : RepoM Unit)
      (addDependency p t d : DbTxn Unit) := by
  refine atomic_check fun _ _ => atomic_check fun _ _ =>
    atomic_require fun _ => .bind_select _ _ fun _ =>
      atomic_require fun _ => ?_
  refine Atomic.write_test (Status.sqlite "insert dependency") lockedMessage
    fun s a s' hw hzero => ?_
  split at hw
  · exact (Prod.mk.inj (Except.ok.inj hw)).2.symm
  · split at hw
    · cases hw
    · obtain ⟨rfl, -⟩ := Prod.mk.inj (Except.ok.inj hw)
      exact absurd Nat.one_ne_zero hzero

-- ============================================ operations in general

/-- A recovery operation does all of its function or nothing. -/
theorem recover_atomic {p t old reason : Bytes} {e o : Nat}
    {next : TaskState} {attempt : FileAttemptState} {event : EventType}
    {error : Option Status} :
    Atomic (· = none)
      (Repository.recover p t e o old reason next attempt event error :
        RepoM Unit)
      (Repository.recover p t e o old reason next attempt event error :
        DbTxn Unit) :=
  atomic_check fun _ _ =>
    .atomically (realises_recoverTaskBody p t e o old _ _ _ _ _)

/-- `MarkCommitIntent` is atomic. -/
theorem markCommitIntent_atomic (p t : Bytes) (e : Nat) (a : Bytes) :
    Atomic (· = none) (Repository.markCommitIntent p t e a : RepoM Unit)
      (Repository.markCommitIntent p t e a : DbTxn Unit) :=
  atomic_check fun _ _ => atomic_check fun _ _ =>
    atomic_joinOrOwn (realises_advanceAttemptBody p t e a _ _ none)

/-- `MarkTempWritten` is atomic. -/
theorem markTempWritten_atomic (p t : Bytes) (e : Nat) (a : Bytes) :
    Atomic (· = none) (Repository.markTempWritten p t e a : RepoM Unit)
      (Repository.markTempWritten p t e a : DbTxn Unit) :=
  atomic_check fun _ _ => atomic_check fun _ _ =>
    atomic_joinOrOwn (realises_advanceAttemptBody p t e a _ _ none)

/-- `PersistVerifiedReceipt` is atomic. -/
theorem persistVerifiedReceipt_atomic (p : Bytes)
    (receipt : VerifiedReceipt) :
    Atomic (· = none) (Repository.persistVerifiedReceipt p receipt : RepoM Unit)
      (Repository.persistVerifiedReceipt p receipt : DbTxn Unit) :=
  atomic_check fun _ _ => atomic_joinOrOwn
    (realises_persistVerifiedReceiptBody p receipt _ _ none)

/-- `AcquireNextExecutionEpoch` is atomic. -/
theorem acquireNextExecutionEpoch_atomic (p : Bytes) :
    Atomic (· = none) (Repository.acquireNextExecutionEpoch p : RepoM Nat)
      (Repository.acquireNextExecutionEpoch p : DbTxn Nat) :=
  atomic_check fun _ _ =>
    .atomically (realises_acquireNextExecutionEpochBody p)

/-- `ReadRuntime` is atomic. -/
theorem readRuntime_atomic (p t : Bytes) :
    Atomic (· = none) (Repository.readRuntime p t : RepoM TaskRuntime)
      (Repository.readRuntime p t : DbTxn TaskRuntime) := by
  refine atomic_check fun _ _ => .bind_select _ _ fun row? => ?_
  cases row? with
  | none => exact .throw _
  | some row =>
      exact atomic_require fun _ => atomic_require fun _ => .pure _

/-- `ReadVerifiedReceipt` is atomic. -/
theorem readVerifiedReceipt_atomic (p t a : Bytes) :
    Atomic (· = none)
      (Repository.readVerifiedReceipt p t a : RepoM VerifiedReceipt)
      (Repository.readVerifiedReceipt p t a : DbTxn VerifiedReceipt) := by
  refine atomic_check fun _ _ => .bind_select _ _ fun row? => ?_
  cases row? with
  | none => exact .throw _
  | some row =>
      refine atomic_require fun _ => ?_
      cases decodeIdentity row.sourceIdentity with
      | error e => exact .throw e
      | ok identity => exact .pure _

-- ================================================== calls in general

/-- A call outside a batch does all of its function or nothing. -/
theorem call_atomic (c : Call) :
    Atomic (· = none) (c.run : RepoM Reply) (c.run : DbTxn Reply) := by
  cases c with
  | addTask p task => exact (addTask_atomic p task).map _
  | addDependency p t d => exact (addDependency_atomic p t d).map _
  | setReady p t => exact (setReady_atomic p t).map _
  | claimNextReady p e supplied =>
      refine Atomic.map (atomic_check fun _ _ => atomic_check fun _ _ => ?_) _
      exact .atomically (realises_claimNextReadyBody p e supplied)
  | markCommitIntent p t e a => exact (markCommitIntent_atomic p t e a).map _
  | markTempWritten p t e a => exact (markTempWritten_atomic p t e a).map _
  | markSucceeded p t e a =>
      refine Atomic.map (atomic_check fun _ _ => atomic_check fun _ _ => ?_) _
      exact atomic_joinOrOwn (realises_finishTaskBody p t e a _ _ none)
  | markRetryable p t e a error =>
      refine Atomic.map (atomic_check fun _ _ => atomic_check fun _ _ =>
        atomic_require fun _ => ?_) _
      exact atomic_joinOrOwn (realises_finishTaskBody p t e a _ _ none)
  | recoverSucceeded p t e old a reason => exact recover_atomic.map _
  | recoverRetryable p t e old a reason => exact recover_atomic.map _
  | recoverInconsistent p t e old a reason => exact recover_atomic.map _
  | persistVerifiedReceipt p receipt =>
      exact (persistVerifiedReceipt_atomic p receipt).map _
  | acquireNextExecutionEpoch p =>
      exact (acquireNextExecutionEpoch_atomic p).map _
  | readCurrentEpoch p =>
      refine Atomic.map (atomic_check fun _ _ => ?_) _
      refine .bind_select _ _ fun epoch? => ?_
      cases epoch? with
      | none => exact .throw _
      | some epoch => exact .pure epoch
  | readRuntime p t => exact (readRuntime_atomic p t).map _
  | readVerifiedReceipt p t a => exact (readVerifiedReceipt_atomic p t a).map _

/-- A call inside a sound batch does its function on the working copy or
fails. -/
theorem call_joins (c : Call) :
    Joins InBatch (c.run : RepoM Reply) (c.run : DbTxn Reply) := by
  cases c with
  | addTask p task => exact (Joins.of_realises (realises_addTask p task)).map _
  | addDependency p t d =>
      exact (Joins.of_realises (realises_addDependency p t d)).map _
  | setReady p t => exact (Joins.of_realises (realises_setReady p t)).map _
  | claimNextReady p e supplied =>
      exact Joins.map (joins_check fun _ _ => joins_check fun _ _ =>
        .refuses) _
  | markCommitIntent p t e a =>
      refine Joins.map (joins_check fun _ _ => joins_check fun _ _ => ?_) _
      exact joins_joinOrOwn (realises_advanceAttemptBody p t e a _ _)
        (advanceAttemptBody_blind t e a _ _)
  | markTempWritten p t e a =>
      refine Joins.map (joins_check fun _ _ => joins_check fun _ _ => ?_) _
      exact joins_joinOrOwn (realises_advanceAttemptBody p t e a _ _)
        (advanceAttemptBody_blind t e a _ _)
  | markSucceeded p t e a =>
      refine Joins.map (joins_check fun _ _ => joins_check fun _ _ => ?_) _
      exact joins_joinOrOwn (realises_finishTaskBody p t e a _ _)
        (finishTaskBody_blind t e a _ _)
  | markRetryable p t e a error =>
      refine Joins.map (joins_check fun _ _ => joins_check fun _ _ =>
        joins_require fun _ => ?_) _
      exact joins_joinOrOwn (realises_finishTaskBody p t e a _ _)
        (finishTaskBody_blind t e a _ _)
  | recoverSucceeded p t e old a reason =>
      exact Joins.map (joins_check fun _ _ => .refuses) _
  | recoverRetryable p t e old a reason =>
      exact Joins.map (joins_check fun _ _ => .refuses) _
  | recoverInconsistent p t e old a reason =>
      exact Joins.map (joins_check fun _ _ => .refuses) _
  | persistVerifiedReceipt p receipt =>
      refine Joins.map (joins_check fun _ _ => ?_) _
      exact joins_joinOrOwn
        (realises_persistVerifiedReceiptBody p receipt _ _)
        (persistVerifiedReceiptBody_blind receipt _ _)
  | acquireNextExecutionEpoch p =>
      exact Joins.map (joins_check fun _ _ => .refuses) _
  | readCurrentEpoch p =>
      exact Joins.map (joins_check fun _ _ =>
        .of_realises (realises_readCurrentEpochForPlan p)) _
  | readRuntime p t =>
      exact Joins.map (joins_check fun _ _ =>
        .of_realises (realises_readRuntimeWithStatement p t)) _
  | readVerifiedReceipt p t a =>
      exact Joins.map (joins_check fun _ _ =>
        .of_realises (realises_readVerifiedReceiptStatement p t a)) _

/-- No epoch is granted inside a batch. -/
theorem acquire_refused {P : BatchState → Db → Prop} (p : Bytes) :
    Joins P ((Call.acquireNextExecutionEpoch p).run : RepoM Reply)
      (throw (.internal "")) := by
  have hop : Joins P
      (Repository.acquireNextExecutionEpoch p : RepoM Nat)
      (throw (.internal "")) := by
    unfold Repository.acquireNextExecutionEpoch
    cases checkPlanId p with
    | ok u => exact .refuses
    | error e => exact .throw e
  exact hop.map Reply.epoch

end PhotoBridge
