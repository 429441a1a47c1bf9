/-
What a call can do to the tables of tasks, dependencies and receipts in
whatever mode its connection is, batches left broken included.

`Db.Edit` (Changes.lean) lists the whole effects of calls that succeed.
A call that fails in a batch whose transaction is already gone leaves
whatever its first statements did, each committed on its own, so there
the list is per table: `Db.Moved`. At most one statement of a call
writes to one of the three tables, which is why the list is short and
why it covers calls that fail half way.
-/
import PhotoBridge.Lib.Footprint
import PhotoBridge.Db.Proofs.Changes

namespace PhotoBridge

open Transaction Session

variable {α : Type} {db db₁ db' : Db} {R : Db → Db → Prop}

-- ============================================================ movement

/-- Tasks, dependencies and receipts are as before. -/
structure Db.Quiet (db db' : Db) : Prop where
  tasks : db'.tasks = db.tasks
  dependencies : db'.dependencies = db.dependencies
  receipts : db'.receipts = db.receipts

theorem Db.Quiet.refl (db : Db) : db.Quiet db := ⟨rfl, rfl, rfl⟩

theorem Db.Quiet.trans (h : db.Quiet db₁) (h' : db₁.Quiet db') :
    db.Quiet db' :=
  ⟨h'.tasks.trans h.tasks, h'.dependencies.trans h.dependencies,
    h'.receipts.trans h.receipts⟩

/-- The states a task can leave RUNNING for. -/
def TaskState.isRelease (next : TaskState) : Bool :=
  next == .succeeded || next == .retryable || next == .inconsistent

/-- One call's change to tasks, dependencies and receipts. -/
inductive Db.Moved (db db' : Db) : Prop
  | quiet (h : db.Quiet db')
  | addTask {planId : Bytes} {spec : TaskSpec}
      (hfree : db.taskRefused (Db.newTaskRow planId spec) = false)
      (h : (db.addTaskRow (Db.newTaskRow planId spec)).Quiet db')
  | addDependency (edge : DependencyRow)
      (htask : db.hasTask edge.planId edge.taskId = true)
      (hdep : db.hasTask edge.planId edge.dependsOn = true)
      (h : ({ db with dependencies := db.dependencies ++ [edge] } : Db).Quiet
        db')
  | setReady {planId taskId : Bytes}
      (h : (db.updateTasks (db.isReadyable planId taskId)
        (TaskRow.release .ready none)).2.Quiet db')
  | claim {planId taskId attemptId : Bytes} {epoch : Nat}
      (h : (db.updateTasks (TaskRow.isClaimable planId taskId)
        (TaskRow.claim epoch attemptId)).2.Quiet db')
  | release {planId taskId attemptId : Bytes} {epoch : Nat}
      {next : TaskState} (hnext : next.isRelease = true)
      {error : Option Status}
      (h : (db.updateTasks (TaskRow.isOwnedBy planId taskId epoch attemptId)
        (TaskRow.release next error)).2.Quiet db')
  | addReceipt {row : ReceiptRow}
      (hnew : db.receipts.any
        (ReceiptRow.isAt row.planId row.taskId row.attemptId) = false)
      (h : (db.addReceipt row).Quiet db')

theorem Db.Moved.refl (db : Db) : db.Moved db := .quiet (.refl db)

/-- What other tables do afterwards does not matter. -/
theorem Db.Moved.trans_quiet (h : db.Moved db₁) (h' : db₁.Quiet db') :
    db.Moved db' := by
  cases h with
  | quiet h => exact .quiet (h.trans h')
  | addTask hfree h => exact .addTask hfree (h.trans h')
  | addDependency edge ht hd h => exact .addDependency edge ht hd (h.trans h')
  | setReady h => exact .setReady (h.trans h')
  | claim h => exact .claim (h.trans h')
  | release hnext h => exact .release hnext (h.trans h')
  | addReceipt hnew h => exact .addReceipt hnew (h.trans h')

-- ========================================================= statements

theorem moves_select (hR : ∀ s, R s s) (operation : String) (f : Db → α) :
    Moves R (select operation f : RepoM α) :=
  .select hR _ f

private theorem moves_write (hR : ∀ s, R s s) (operation : String)
    {f : Db → Except Status (α × Db)}
    (hf : ∀ s a s', f s = .ok (a, s') → R s s') :
    Moves R (write operation f : RepoM α) :=
  .write hR _ _ hf

private theorem moves_require (hR : ∀ s, R s s) (p : Prop) [Decidable p]
    (error : Status) : Moves R (require p error : RepoM Unit) :=
  .ite (fun _ => .pure hR ()) fun _ => .throw hR error

private theorem moves_readCurrentEpochForPlan (planId : Bytes) :
    Moves Eq (readCurrentEpochForPlan planId : RepoM Nat) := by
  unfold readCurrentEpochForPlan
  refine .after_read (fun _ => rfl) (moves_select (fun _ => rfl) _ _)
    fun epoch? => ?_
  cases epoch? with
  | none => exact .throw (fun _ => rfl) _
  | some epoch => exact .pure (fun _ => rfl) epoch

private theorem moves_currentEpochFor (batched : Option Nat) (planId : Bytes) :
    Moves Eq (currentEpochFor batched planId : RepoM Nat) := by
  cases batched with
  | none => exact moves_readCurrentEpochForPlan planId
  | some epoch => exact .pure (fun _ => rfl) epoch

private theorem moves_checkTaskOwnership (planId taskId : Bytes) (epoch : Nat)
    (attemptId : Bytes) :
    Moves Eq
      (checkTaskOwnership planId taskId epoch attemptId : RepoM Unit) := by
  unfold checkTaskOwnership
  refine .after_read (fun _ => rfl) (moves_select (fun _ => rfl) _ _)
    fun row? => ?_
  cases row? with
  | none => exact .throw (fun _ => rfl) _
  | some row =>
      refine .after_read (fun _ => rfl) (moves_require (fun _ => rfl) _ _)
        fun _ => ?_
      exact moves_require (fun _ => rfl) _ _

private theorem moves_readRuntimeWithStatement (planId taskId : Bytes) :
    Moves Eq
      (readRuntimeWithStatement planId taskId : RepoM TaskRuntime) := by
  unfold readRuntimeWithStatement
  refine .after_read (fun _ => rfl) (moves_select (fun _ => rfl) _ _)
    fun row? => ?_
  cases row? with
  | none => exact .throw (fun _ => rfl) _
  | some row =>
      refine .after_read (fun _ => rfl) (moves_require (fun _ => rfl) _ _)
        fun _ => ?_
      refine .after_read (fun _ => rfl) (moves_require (fun _ => rfl) _ _)
        fun _ => ?_
      exact .pure (fun _ => rfl) _

private theorem moves_readVerifiedReceiptStatement
    (planId taskId attemptId : Bytes) :
    Moves Eq (readVerifiedReceiptStatement planId taskId attemptId :
      RepoM VerifiedReceipt) := by
  unfold readVerifiedReceiptStatement
  refine .after_read (fun _ => rfl) (moves_select (fun _ => rfl) _ _)
    fun row? => ?_
  cases row? with
  | none => exact .throw (fun _ => rfl) _
  | some row =>
      refine .after_read (fun _ => rfl) (moves_require (fun _ => rfl) _ _)
        fun _ => ?_
      cases decodeIdentity row.sourceIdentity with
      | error e => exact .throw (fun _ => rfl) e
      | ok identity => exact .pure (fun _ => rfl) _

/-- A block that only reads moves nothing. -/
theorem moves_quiet_of_read {x : RepoM α} (hx : Moves Eq x) :
    Moves Db.Quiet x where
  outside := by
    intro c hc
    obtain ⟨htxn, hdb⟩ := hx.outside hc
    rw [← hdb]
    exact ⟨htxn, .refl _⟩
  inside := by
    intro c s hc
    obtain ⟨hdb, s', htxn, rfl⟩ := hx.inside hc
    exact ⟨hdb, s, htxn, .refl s⟩
  locked := hx.locked
  busy := hx.busy
  memory := hx.memory

private theorem moves_appendTaskEvent (event : EventRow) :
    Moves Db.Quiet (appendTaskEvent event : RepoM Unit) := by
  refine moves_write Db.Quiet.refl _ fun s a s' h => ?_
  split at h
  · obtain ⟨-, rfl⟩ := Prod.mk.inj (Except.ok.inj h)
    exact ⟨rfl, rfl, rfl⟩
  · cases h

private theorem moves_updateAttemptState (planId taskId attemptId : Bytes)
    (epoch : Nat) (state : FileAttemptState) (result : Option TaskState)
    (error : Option Status) (finish : Bool) :
    Moves Db.Quiet (updateAttemptState planId taskId attemptId epoch state
      result error finish : RepoM Unit) := by
  refine Moves.bind (moves_write Db.Quiet.refl _ fun s a s' h => ?_)
    (fun _ => moves_require Db.Quiet.refl _ _) (fun _ _ h => h)
    fun _ _ _ => Db.Quiet.trans
  obtain ⟨-, rfl⟩ := Prod.mk.inj (Except.ok.inj h)
  exact ⟨rfl, rfl, rfl⟩

/-- What the operations on a running task end with. -/
theorem moves_setAttempt_logged (planId taskId attemptId : Bytes)
    (epoch : Nat) (state : FileAttemptState) (result : Option TaskState)
    (error : Option Status) (finish : Bool) (event : EventRow) :
    Moves Db.Quiet (do
      updateAttemptState planId taskId attemptId epoch state result error
        finish
      appendTaskEvent event : RepoM Unit) :=
  Moves.bind (moves_updateAttemptState _ _ _ _ _ _ _ _)
    (fun _ => moves_appendTaskEvent _) (fun _ _ h => h)
    fun _ _ _ => Db.Quiet.trans

-- ============================================================== bodies

private theorem moves_finishTaskBody (planId taskId : Bytes) (epoch : Nat)
    (attemptId : Bytes) {next : TaskState} (hnext : next.isRelease = true)
    (error : Option Status) (batched : Option Nat) :
    Moves Db.Moved (finishTaskBody planId taskId epoch attemptId next error
      batched : RepoM Unit) := by
  unfold finishTaskBody
  refine .after_read Db.Moved.refl (moves_currentEpochFor _ _) fun _ => ?_
  refine .after_read Db.Moved.refl (moves_require (fun _ => rfl) _ _)
    fun _ => ?_
  refine Moves.bind (moves_write Db.Moved.refl _ fun s a s' h => ?_)
    (fun _ => ?_) (fun _ _ h => h) fun _ _ _ => Db.Moved.trans_quiet
  · obtain ⟨-, rfl⟩ := Prod.mk.inj (Except.ok.inj h)
    exact .release hnext (.refl _)
  · refine .after_read Db.Quiet.refl (moves_require (fun _ => rfl) _ _)
      fun _ => ?_
    exact moves_setAttempt_logged _ _ _ _ _ _ _ _ _

private theorem moves_advanceAttemptBody (planId taskId : Bytes) (epoch : Nat)
    (attemptId : Bytes) (next : FileAttemptState) (event : EventType)
    (batched : Option Nat) :
    Moves Db.Quiet (advanceAttemptBody planId taskId epoch attemptId next
      event batched : RepoM Unit) := by
  unfold advanceAttemptBody
  refine .after_read Db.Quiet.refl (moves_currentEpochFor _ _) fun _ => ?_
  refine .after_read Db.Quiet.refl (moves_require (fun _ => rfl) _ _)
    fun _ => ?_
  refine .after_read Db.Quiet.refl (moves_checkTaskOwnership _ _ _ _)
    fun _ => ?_
  refine .after_read Db.Quiet.refl (moves_select (fun _ => rfl) _ _)
    fun previous? => ?_
  cases previous? with
  | none => exact .throw Db.Quiet.refl _
  | some previous =>
      refine .ite (fun _ => .pure Db.Quiet.refl ()) fun _ => ?_
      refine .ite (fun _ => .throw Db.Quiet.refl _) fun _ => ?_
      exact moves_setAttempt_logged _ _ _ _ _ _ _ _ _

private theorem moves_persistVerifiedReceiptBody (planId : Bytes)
    (receipt : VerifiedReceipt) (source : Digest) (identity : FileIdentity)
    (batched : Option Nat) :
    Moves Db.Moved (persistVerifiedReceiptBody planId receipt source identity
      batched : RepoM Unit) := by
  unfold persistVerifiedReceiptBody
  refine .after_read Db.Moved.refl (moves_currentEpochFor _ _) fun _ => ?_
  refine .after_read Db.Moved.refl (moves_require (fun _ => rfl) _ _)
    fun _ => ?_
  refine .after_read Db.Moved.refl (moves_checkTaskOwnership _ _ _ _)
    fun _ => ?_
  refine Moves.bind (moves_write Db.Moved.refl _ fun s a s' h => ?_)
    (fun _ => ?_) (fun _ _ h => h) fun _ _ _ => Db.Moved.trans_quiet
  · split at h
    · obtain ⟨-, rfl⟩ := Prod.mk.inj (Except.ok.inj h)
      exact .refl s
    · next hnew =>
      split at h
      · cases h
      · obtain ⟨-, rfl⟩ := Prod.mk.inj (Except.ok.inj h)
        have hfree : s.receipts.any (ReceiptRow.isAt planId receipt.taskId
            receipt.attemptId) = false := Bool.eq_false_iff.2 hnew
        let row := receiptRow planId receipt source identity
        exact @Db.Moved.addReceipt s _ row hfree (.refl _)
  · refine .ite (fun _ => ?_) fun _ => ?_
    · refine moves_quiet_of_read ?_
      refine .after_read (fun _ => rfl)
        (moves_readVerifiedReceiptStatement _ _ _) fun _ => ?_
      exact moves_require (fun _ => rfl) _ _
    · exact moves_setAttempt_logged _ _ _ _ _ _ _ _ _

private theorem moves_addTask (planId : Bytes) (task : TaskSpec) :
    Moves Db.Moved (write "insert task" fun db =>
      if db.taskRefused (Db.newTaskRow planId task) then
        .error (.alreadyExists
          "task id or task key already exists in this plan")
      else .ok ((), { db with
        tasks := db.tasks ++ [Db.newTaskRow planId task] }) :
      RepoM Unit) := by
  refine moves_write Db.Moved.refl _ fun s a s' h => ?_
  split at h
  · cases h
  · next hfree =>
    obtain ⟨-, rfl⟩ := Prod.mk.inj (Except.ok.inj h)
    exact .addTask (Bool.eq_false_iff.2 hfree) (.refl _)

-- =============================================================== calls

private theorem footprint_check {β : Type} {check : Except Status α}
    {k : α → RepoM β} (hR : ∀ s, R s s)
    (h : ∀ a, check = .ok a → Footprint R (k a)) :
    Footprint R (liftCheck check >>= k) := by
  cases check with
  | ok a => exact h a rfl
  | error e => exact .throw hR e

private theorem footprint_require {β : Type} {p : Prop} [Decidable p]
    {error : Status} {k : RepoM β} (hR : ∀ s, R s s)
    (h : p → Footprint R k) :
    Footprint R (require p error >>= fun _ => k) := by
  unfold require
  by_cases hp : p
  · simp only [if_pos hp]
    exact h hp
  · simp only [if_neg hp]
    exact .throw hR error

/-- An operation that joins a batch or opens its own transaction moves
the tables as its body does. -/
theorem footprint_joinOrOwn {planId : Bytes} {body : Option Nat → RepoM Unit}
    {body' : Option Nat → DbTxn Unit} (hR : ∀ s, R s s)
    (hm : ∀ batched, Moves R (body batched))
    (hr : ∀ batched, Realises (body batched) (body' batched)) :
    Footprint R (joinOrOwn planId body) := by
  have hown : Footprint R (bracket (body none)) :=
    .atomically hR (hr none) fun s a s' h => (hm none).realised (hr none) none h
  have hrun : ∀ c : Repo, ∃ x : RepoM Unit,
      joinOrOwn planId body c = x c ∧ Footprint R x := by
    intro c
    cases hbatch : batchedEpochFor planId c.memory with
    | none => exact ⟨_, joinOrOwn_own hbatch, hown⟩
    | some epoch =>
        exact ⟨_, joinOrOwn_joined hbatch, .orRollback (hm (some epoch))⟩
  refine ⟨fun {c} hc => ?_, fun {c s} hc => ?_, fun {c} hc hb => ?_⟩ <;>
    obtain ⟨x, hx, hfootprint⟩ := hrun c <;> rw [hx]
  · exact hfootprint.outside hc
  · exact hfootprint.inside hc
  · exact hfootprint.locked hc hb

/-- Whatever its connection's mode and however it ends, a call moves
tasks, dependencies and receipts in one of the listed ways. -/
theorem call_moved (c : Call) :
    Footprint Db.Moved (c.run : RepoM Reply) := by
  -- each kind of operation first, then one case for each call
  have hquiet : ∀ {x : RepoM Unit}, Moves Db.Quiet x → Moves Db.Moved x := by
    intro x hx
    refine ⟨fun hc => ?_, fun hc => ?_, hx.locked, hx.busy, hx.memory⟩
    · obtain ⟨htxn, hmove⟩ := hx.outside hc
      exact ⟨htxn, .quiet hmove⟩
    · obtain ⟨hdb, s', htxn, hmove⟩ := hx.inside hc
      exact ⟨hdb, s', htxn, .quiet hmove⟩
  have hread : ∀ {β : Type} {x : RepoM β}, Moves Eq x →
      Footprint Db.Moved x := by
    intro β x hx
    refine .of_moves ⟨fun hc => ?_, fun hc => ?_, hx.locked, hx.busy,
      hx.memory⟩
    · obtain ⟨htxn, hdb⟩ := hx.outside hc
      rw [← hdb]
      exact ⟨htxn, .refl _⟩
    · obtain ⟨hdb, s', htxn, rfl⟩ := hx.inside hc
      exact ⟨hdb, _, htxn, .refl _⟩
  have hadvance : ∀ p t e a next event,
      Footprint Db.Moved (joinOrOwn p
        (advanceAttemptBody p t e a next event : Option Nat → RepoM Unit)) := by
    intro p t e a next event
    exact footprint_joinOrOwn Db.Moved.refl
      (fun _ => hquiet (moves_advanceAttemptBody ..))
      fun _ => realises_advanceAttemptBody ..
  have hfinish : ∀ p t e a next error, next.isRelease = true →
      Footprint Db.Moved (joinOrOwn p
        (finishTaskBody p t e a next error : Option Nat → RepoM Unit)) := by
    intro p t e a next error hnext
    exact footprint_joinOrOwn Db.Moved.refl
      (fun _ => moves_finishTaskBody _ _ _ _ hnext _ _)
      fun _ => realises_finishTaskBody ..
  have hrecover : ∀ p t e old a next attempt event reason error,
      next.isRelease = true →
      Footprint Db.Moved (bracket (recoverTaskBody p t e old a next attempt
        event reason error)) := by
    intro p t e old a next attempt event reason error hnext
    refine .atomically Db.Moved.refl (realises_recoverTaskBody ..)
      fun s _ s' h => ?_
    obtain ⟨-, -, -, rfl⟩ := recoverTaskBody_ok.1 h
    exact .release hnext ⟨rfl, rfl, rfl⟩
  cases c with
  | addTask p task =>
      refine Footprint.map (footprint_check Db.Moved.refl fun _ _ =>
        footprint_check Db.Moved.refl fun _ _ =>
          footprint_require Db.Moved.refl fun _ => ?_) _
      exact .of_moves (moves_addTask p task)
  -- the row names two tasks that are there, or is not stored
  | addDependency p t d =>
      refine Footprint.map (footprint_check Db.Moved.refl fun _ _ =>
        footprint_check Db.Moved.refl fun _ _ =>
          footprint_require Db.Moved.refl fun _ => ?_) _
      refine .of_moves ?_
      refine .after_read Db.Moved.refl (moves_select (fun _ => rfl) _ _)
        fun _ => ?_
      refine .after_read Db.Moved.refl (moves_require (fun _ => rfl) _ _)
        fun _ => ?_
      refine Moves.bind (moves_write Db.Moved.refl _ fun s a s' h => ?_)
        (fun _ => moves_require Db.Quiet.refl _ _) (fun _ _ h => h)
        fun _ _ _ => Db.Moved.trans_quiet
      split at h
      · obtain ⟨-, rfl⟩ := Prod.mk.inj (Except.ok.inj h)
        exact .refl s
      · next hfk =>
        split at h
        · cases h
        · obtain ⟨-, rfl⟩ := Prod.mk.inj (Except.ok.inj h)
          simp only [Bool.not_eq_true', Bool.not_eq_false,
            Bool.and_eq_true] at hfk
          exact .addDependency ⟨p, t, d⟩ hfk.1 hfk.2 (.refl _)
  -- only a new task becomes READY
  | setReady p t =>
      refine Footprint.map (footprint_check Db.Moved.refl fun _ _ => ?_) _
      refine .of_moves (Moves.bind
        (moves_write Db.Moved.refl _ fun s a s' h => ?_)
        (fun _ => moves_require Db.Quiet.refl _ _) (fun _ _ h => h)
        fun _ _ _ => Db.Moved.trans_quiet)
      obtain ⟨-, rfl⟩ := Prod.mk.inj (Except.ok.inj h)
      exact .setReady (.refl _)
  | claimNextReady p e supplied =>
      refine Footprint.map (footprint_check Db.Moved.refl fun _ _ =>
        footprint_check Db.Moved.refl fun _ _ => ?_) _
      refine .atomically Db.Moved.refl (realises_claimNextReadyBody ..)
        fun s _ s' h => ?_
      obtain ⟨-, row, -, -, -, -, -, rfl, -⟩ := claimNextReadyBody_ok.1 h
      exact .claim ⟨rfl, rfl, rfl⟩
  | markCommitIntent p t e a =>
      exact Footprint.map (footprint_check Db.Moved.refl fun _ _ =>
        footprint_check Db.Moved.refl fun _ _ => hadvance ..) _
  | markTempWritten p t e a =>
      exact Footprint.map (footprint_check Db.Moved.refl fun _ _ =>
        footprint_check Db.Moved.refl fun _ _ => hadvance ..) _
  | markSucceeded p t e a =>
      exact Footprint.map (footprint_check Db.Moved.refl fun _ _ =>
        footprint_check Db.Moved.refl fun _ _ => hfinish _ _ _ _ _ _ rfl) _
  | markRetryable p t e a error =>
      exact Footprint.map (footprint_check Db.Moved.refl fun _ _ =>
        footprint_check Db.Moved.refl fun _ _ =>
          footprint_require Db.Moved.refl fun _ =>
            hfinish _ _ _ _ _ _ rfl) _
  | recoverSucceeded p t e old a reason =>
      exact Footprint.map (footprint_check Db.Moved.refl fun _ _ =>
        hrecover _ _ _ _ _ _ _ _ _ _ rfl) _
  | recoverRetryable p t e old a reason =>
      exact Footprint.map (footprint_check Db.Moved.refl fun _ _ =>
        hrecover _ _ _ _ _ _ _ _ _ _ rfl) _
  | recoverInconsistent p t e old a reason =>
      exact Footprint.map (footprint_check Db.Moved.refl fun _ _ =>
        hrecover _ _ _ _ _ _ _ _ _ _ rfl) _
  | persistVerifiedReceipt p receipt =>
      refine Footprint.map (footprint_check Db.Moved.refl fun _ _ => ?_) _
      exact footprint_joinOrOwn Db.Moved.refl
        (fun _ => moves_persistVerifiedReceiptBody ..)
        fun _ => realises_persistVerifiedReceiptBody ..
  -- a new epoch is no movement of a task
  | acquireNextExecutionEpoch p =>
      refine Footprint.map (footprint_check Db.Moved.refl fun _ _ => ?_) _
      refine .atomically Db.Moved.refl
        (realises_acquireNextExecutionEpochBody p) fun s _ s' h => ?_
      obtain ⟨current, -, -, -, -, rfl⟩ :=
        acquireNextExecutionEpochBody_ok.1 h
      refine .quiet ?_
      unfold Db.setCurrentEpoch
      split <;> exact ⟨rfl, rfl, rfl⟩
  | readCurrentEpoch p =>
      exact Footprint.map (footprint_check Db.Moved.refl fun _ _ =>
        hread (moves_readCurrentEpochForPlan p)) _
  | readRuntime p t =>
      exact Footprint.map (footprint_check Db.Moved.refl fun _ _ =>
        hread (moves_readRuntimeWithStatement p t)) _
  | readVerifiedReceipt p t a =>
      exact Footprint.map (footprint_check Db.Moved.refl fun _ _ =>
        hread (moves_readVerifiedReceiptStatement p t a)) _

end PhotoBridge
