/-
What a successful call can do, said once: `Db.Change` lists the ways a
call other than `AcquireNextExecutionEpoch` can move the tables, guards,
states and events included, and `call_change` shows that there are no
others. `Db.Edit` is the same list with the states and events left open.
An invariant of the runtime store is then a case analysis on one of the
two and one look at `AcquireNextExecutionEpoch`; the ownership invariant
is the first of them.
-/
import PhotoBridge.Db.Events
import PhotoBridge.Db.Proofs.Calls
import PhotoBridge.Db.Proofs.Ownership

namespace PhotoBridge

open Transaction

variable {α : Type} {db db' : Db} {r : Reply}

/-- One call's change to the tables, epochs apart. -/
inductive Db.Change (db : Db) : Db → Prop
  | same : Change db db
  | addTask {planId : Bytes} {spec : TaskSpec}
      (hfree : db.taskRefused (Db.newTaskRow planId spec) = false) :
      Change db (db.addTaskRow (Db.newTaskRow planId spec))
  | addDependency (edge : DependencyRow)
      (htask : db.hasTask edge.planId edge.taskId = true)
      (hdep : db.hasTask edge.planId edge.dependsOn = true) :
      Change db { db with dependencies := db.dependencies ++ [edge] }
  | setReady {planId taskId : Bytes} :
      Change db (db.updateTasks (db.isReadyable planId taskId)
        (TaskRow.release .ready none)).2
  | claim {planId taskId attemptId : Bytes} {epoch : Nat}
      (hpos : 1 ≤ epoch) (hcur : db.currentEpoch? planId = some epoch)
      (hcount : db.tasks.countP (TaskRow.isClaimable planId taskId) = 1)
      (hfresh : db.attempts.any (·.attemptId == attemptId) = false)
      (htask : db.hasTask planId taskId = true) :
      Change db (db.claim planId taskId attemptId epoch)
  | advance {planId taskId attemptId : Bytes} {epoch : Nat}
      (hh : db.Holds planId taskId attemptId epoch)
      (hatt : db.HasAttempt planId taskId attemptId epoch)
      {previous : FileAttemptState} {event : EventType}
      (hprev : db.attemptState? planId taskId attemptId epoch
        = some previous)
      (hne : previous ≠ event.names)
      (hvalid : previous.isValidTransition event.names = true)
      (hevent : event = .commitIntent ∨ event = .tempWritten) :
      Change db (db.advance planId taskId attemptId epoch event.names
        ⟨planId, taskId, event, epoch, attemptId, text "attempt lifecycle"⟩)
  | persist {planId : Bytes} {receipt : VerifiedReceipt} {source : Digest}
      {identity : FileIdentity}
      (hh : db.Holds planId receipt.taskId receipt.attemptId
        receipt.ownerEpoch)
      (hnew : db.receipts.any (ReceiptRow.isAt planId receipt.taskId
        receipt.attemptId) = false)
      (hatt : db.HasAttempt planId receipt.taskId receipt.attemptId
        receipt.ownerEpoch) :
      Change db ((db.addReceipt (receiptRow planId receipt source
        identity)).advance planId receipt.taskId receipt.attemptId
          receipt.ownerEpoch .verifiedDurable (receiptEvent planId receipt))
  | settle {planId taskId attemptId : Bytes} {epoch : Nat}
      (hown : db.Owned planId taskId attemptId epoch)
      (hatt : db.HasAttempt planId taskId attemptId epoch)
      {next : TaskState} (hnext : next ≠ .running) {event : EventType}
      (hevent : event.finishes = true) (error : Option Status)
      (actingEpoch : Nat) (detail : Bytes) :
      Change db (db.settle planId taskId attemptId epoch next event.names
        error ⟨planId, taskId, event, actingEpoch, attemptId, detail⟩)

/-- A change with its states and events left open. -/
inductive Db.Edit (db : Db) : Db → Prop
  | same : Edit db db
  | addTask {planId : Bytes} {spec : TaskSpec}
      (hfree : db.taskRefused (Db.newTaskRow planId spec) = false) :
      Edit db (db.addTaskRow (Db.newTaskRow planId spec))
  | addDependency (edge : DependencyRow)
      (htask : db.hasTask edge.planId edge.taskId = true)
      (hdep : db.hasTask edge.planId edge.dependsOn = true) :
      Edit db { db with dependencies := db.dependencies ++ [edge] }
  | setReady {planId taskId : Bytes} :
      Edit db (db.updateTasks (db.isReadyable planId taskId)
        (TaskRow.release .ready none)).2
  | claim {planId taskId attemptId : Bytes} {epoch : Nat}
      (hpos : 1 ≤ epoch) (hcur : db.currentEpoch? planId = some epoch)
      (hcount : db.tasks.countP (TaskRow.isClaimable planId taskId) = 1)
      (hfresh : db.attempts.any (·.attemptId == attemptId) = false)
      (htask : db.hasTask planId taskId = true) :
      Edit db (db.claim planId taskId attemptId epoch)
  | advance {planId taskId attemptId : Bytes} {epoch : Nat}
      (hh : db.Holds planId taskId attemptId epoch)
      (hatt : db.HasAttempt planId taskId attemptId epoch)
      (state : FileAttemptState) {event : EventRow}
      (hp : event.planId = planId) (ht : event.taskId = taskId)
      (htype : event.eventType ≠ .running) :
      Edit db (db.advance planId taskId attemptId epoch state event)
  | persist {row : ReceiptRow}
      (hh : db.Holds row.planId row.taskId row.attemptId row.ownerEpoch)
      (hnew : db.receipts.any
        (ReceiptRow.isAt row.planId row.taskId row.attemptId) = false)
      (hatt : db.HasAttempt row.planId row.taskId row.attemptId
        row.ownerEpoch)
      {event : EventRow} (hp : event.planId = row.planId)
      (ht : event.taskId = row.taskId) (htype : event.eventType ≠ .running) :
      Edit db ((db.addReceipt row).advance row.planId row.taskId
        row.attemptId row.ownerEpoch .verifiedDurable event)
  | settle {planId taskId attemptId : Bytes} {epoch : Nat}
      (hown : db.Owned planId taskId attemptId epoch)
      (hatt : db.HasAttempt planId taskId attemptId epoch)
      {next : TaskState} (hnext : next ≠ .running)
      (attempt : FileAttemptState) (error : Option Status)
      {event : EventRow} (hp : event.planId = planId)
      (ht : event.taskId = taskId) (htype : event.eventType ≠ .running) :
      Edit db (db.settle planId taskId attemptId epoch next attempt error
        event)

-- ========================================================== inversion

theorem answer_ok {wrap : α → Reply} {operation : DbTxn α} :
    answer wrap operation db = .ok (r, db')
      ↔ ∃ a, operation db = .ok (a, db') ∧ r = wrap a := by
  unfold answer
  simp only [Txn.bind_eq_ok]
  constructor
  · rintro ⟨a, db₁, h, hr⟩
    obtain ⟨rfl, rfl⟩ := Txn.pure_eq_ok.1 hr
    exact ⟨a, h, rfl⟩
  · rintro ⟨a, h, rfl⟩
    exact ⟨a, db', h, Txn.pure_eq_ok.2 ⟨rfl, rfl⟩⟩

theorem liftCheck_bind_ok {β : Type} {check : Except Status α}
    {k : α → DbTxn β} {b : β} :
    (liftCheck check >>= k : DbTxn β) db = .ok (b, db')
      ↔ ∃ a, check = .ok a ∧ k a db = .ok (b, db') := by
  rw [Txn.bind_eq_ok]
  constructor
  · rintro ⟨a, db₁, h, hk⟩
    obtain ⟨ha, rfl⟩ := liftCheck_ok.1 h
    exact ⟨a, ha, hk⟩
  · rintro ⟨a, ha, hk⟩
    exact ⟨a, db, liftCheck_ok.2 ⟨ha, rfl⟩, hk⟩

theorem require_bind_ok {β : Type} {p : Prop} [Decidable p]
    {error : Status} {k : DbTxn β} {b : β} :
    (require p error >>= fun _ => k : DbTxn β) db = .ok (b, db')
      ↔ p ∧ k db = .ok (b, db') := by
  rw [Txn.bind_eq_ok]
  constructor
  · rintro ⟨_, db₁, h, hk⟩
    obtain ⟨hp, rfl⟩ := require_ok.1 h
    exact ⟨hp, hk⟩
  · rintro ⟨hp, hk⟩
    exact ⟨(), db, require_ok.2 ⟨hp, rfl⟩, hk⟩

/-- An accepted epoch is positive. -/
theorem checkEpochAttempt_pos {epoch : Nat} {attemptId : Bytes} {u : Unit}
    (h : checkEpochAttempt epoch attemptId = .ok u) : 1 ≤ epoch := by
  unfold checkEpochAttempt at h
  split at h
  · cases h
  · next hbad =>
    simp only [Bool.or_eq_true, beq_iff_eq, not_or] at hbad
    exact Nat.pos_of_ne_zero hbad.1.1

/-- The shared part of the two operations that advance an attempt. -/
theorem advance_change {planId taskId attemptId : Bytes} {epoch : Nat}
    {u : Unit} (event : EventType)
    (hevent : event = .commitIntent ∨ event = .tempWritten)
    (h : (advanceAttemptBody planId taskId epoch attemptId event.names event
      none : DbTxn Unit) db = .ok (u, db')) : db.Change db' := by
  obtain ⟨-, hh, previous, hprev, ⟨-, rfl⟩ | ⟨hne, hvalid, hatt, rfl⟩⟩ :=
    advanceAttemptBody_ok.1 h
  · exact .same
  · exact .advance hh hatt hprev hne hvalid hevent

/-- The shared part of the operations that end an attempt. -/
theorem settle_change {planId taskId attemptId : Bytes} {epoch : Nat}
    {next : TaskState} {error : Option Status} {actingEpoch : Nat}
    {detail : Bytes} (event : EventType)
    (hown : db.Owned planId taskId attemptId epoch)
    (hatt : db.HasAttempt planId taskId attemptId epoch)
    (hnext : next ≠ .running) (hevent : event.finishes = true) :
    db.Change (db.settle planId taskId attemptId epoch next event.names
      error ⟨planId, taskId, event, actingEpoch, attemptId, detail⟩) :=
  .settle hown hatt hnext hevent error actingEpoch detail

/-- A successful call that does not move the epoch changes the tables in
one of the listed ways. -/
theorem call_change (c : Call)
    (hc : ∀ planId, c ≠ .acquireNextExecutionEpoch planId)
    (h : (c.run : DbTxn Reply) db = .ok (r, db')) : db.Change db' := by
  cases c with
  | addTask p task =>
      obtain ⟨_, h, -⟩ := answer_ok.1 h
      obtain ⟨-, -, -, hfree, rfl⟩ := addTask_ok.1 h
      exact .addTask hfree
  | addDependency p t d =>
      obtain ⟨_, h, -⟩ := answer_ok.1 h
      obtain ⟨-, -, -, -, ht, hd, -, rfl⟩ := addDependency_ok.1 h
      exact .addDependency ⟨p, t, d⟩ ht hd
  | setReady p t =>
      obtain ⟨_, h, -⟩ := answer_ok.1 h
      obtain ⟨-, -, rfl⟩ := setReady_ok.1 h
      exact .setReady
  | claimNextReady p e supplied =>
      obtain ⟨_, h, -⟩ := answer_ok.1 h
      obtain ⟨_, -, h⟩ := liftCheck_bind_ok.1 h
      obtain ⟨_, hpos, h⟩ := liftCheck_bind_ok.1 h
      obtain ⟨hcur, row, -, -, hcount, hfresh, htask, rfl, -, -⟩ :=
        claimNextReadyBody_ok.1 h
      exact .claim (checkEpochAttempt_pos hpos) hcur hcount hfresh htask
  | markCommitIntent p t e a =>
      obtain ⟨_, h, -⟩ := answer_ok.1 h
      obtain ⟨_, -, h⟩ := liftCheck_bind_ok.1 h
      obtain ⟨_, -, h⟩ := liftCheck_bind_ok.1 h
      exact advance_change .commitIntent (.inl rfl) h
  | markTempWritten p t e a =>
      obtain ⟨_, h, -⟩ := answer_ok.1 h
      obtain ⟨_, -, h⟩ := liftCheck_bind_ok.1 h
      obtain ⟨_, -, h⟩ := liftCheck_bind_ok.1 h
      exact advance_change .tempWritten (.inr rfl) h
  | markSucceeded p t e a =>
      obtain ⟨_, h, -⟩ := answer_ok.1 h
      obtain ⟨_, -, h⟩ := liftCheck_bind_ok.1 h
      obtain ⟨_, -, h⟩ := liftCheck_bind_ok.1 h
      obtain ⟨-, hown, hatt, rfl⟩ := finishTaskBody_ok.1 h
      exact settle_change .succeeded hown hatt TaskState.noConfusion rfl
  | markRetryable p t e a error =>
      obtain ⟨_, h, -⟩ := answer_ok.1 h
      obtain ⟨_, -, h⟩ := liftCheck_bind_ok.1 h
      obtain ⟨_, -, h⟩ := liftCheck_bind_ok.1 h
      obtain ⟨-, h⟩ := require_bind_ok.1 h
      obtain ⟨-, hown, hatt, rfl⟩ := finishTaskBody_ok.1 h
      exact settle_change .retryable hown hatt TaskState.noConfusion rfl
  | recoverSucceeded p t e old a reason =>
      obtain ⟨_, h, -⟩ := answer_ok.1 h
      obtain ⟨_, -, h⟩ := liftCheck_bind_ok.1 h
      obtain ⟨-, hown, hatt, rfl⟩ := recoverTaskBody_ok.1 h
      exact settle_change .recoverSucceeded hown hatt TaskState.noConfusion rfl
  | recoverRetryable p t e old a reason =>
      obtain ⟨_, h, -⟩ := answer_ok.1 h
      obtain ⟨_, -, h⟩ := liftCheck_bind_ok.1 h
      obtain ⟨-, hown, hatt, rfl⟩ := recoverTaskBody_ok.1 h
      exact settle_change .recoverRetryable hown hatt TaskState.noConfusion rfl
  | recoverInconsistent p t e old a reason =>
      obtain ⟨_, h, -⟩ := answer_ok.1 h
      obtain ⟨_, -, h⟩ := liftCheck_bind_ok.1 h
      obtain ⟨-, hown, hatt, rfl⟩ := recoverTaskBody_ok.1 h
      exact settle_change .recoverInconsistent hown hatt TaskState.noConfusion rfl
  | persistVerifiedReceipt p receipt =>
      obtain ⟨_, h, -⟩ := answer_ok.1 h
      obtain ⟨⟨source, identity⟩, -, h⟩ := liftCheck_bind_ok.1 h
      obtain ⟨-, hh, ⟨-, rfl, -⟩ | ⟨hnew, -, hatt, rfl⟩⟩ :=
        persistVerifiedReceiptBody_ok.1 h
      · exact .same
      · exact .persist hh hnew hatt
  | acquireNextExecutionEpoch p => exact absurd rfl (hc p)
  | readCurrentEpoch p =>
      obtain ⟨_, h, -⟩ := answer_ok.1 h
      obtain ⟨_, -, h⟩ := liftCheck_bind_ok.1 h
      obtain ⟨-, rfl⟩ := readCurrentEpochForPlan_ok.1 h
      exact .same
  | readRuntime p t =>
      obtain ⟨_, h, -⟩ := answer_ok.1 h
      obtain ⟨_, -, h⟩ := liftCheck_bind_ok.1 h
      obtain ⟨-, rfl⟩ := readRuntimeWithStatement_ok.1 h
      exact .same
  | readVerifiedReceipt p t a =>
      obtain ⟨_, h, -⟩ := answer_ok.1 h
      obtain ⟨_, -, h⟩ := liftCheck_bind_ok.1 h
      obtain ⟨-, rfl⟩ := readVerifiedReceiptStatement_ok.1 h
      exact .same

/-- The list with the states and events left open. -/
theorem Db.Change.edit (h : db.Change db') : db.Edit db' := by
  cases h with
  | same => exact .same
  | addTask hfree => exact .addTask hfree
  | addDependency edge ht hd => exact .addDependency edge ht hd
  | setReady => exact .setReady
  | claim hpos hcur hcount hfresh htask =>
      exact .claim hpos hcur hcount hfresh htask
  | @advance p t a e hh hatt previous event _ _ _ hevent =>
      refine .advance hh hatt event.names rfl rfl ?_
      rcases hevent with rfl | rfl <;> exact EventType.noConfusion
  | @persist p receipt source identity hh hnew hatt =>
      let row := receiptRow p receipt source identity
      exact @Db.Edit.persist db row hh hnew hatt (receiptEvent p receipt)
        rfl rfl EventType.noConfusion
  | @settle p t a e hown hatt next hnext event hevent error acting detail =>
      refine .settle hown hatt hnext event.names error rfl rfl ?_
      intro hrun
      rw [show event = .running from hrun] at hevent
      cases hevent

/-- A successful call that does not move the epoch, states and events
left open. -/
theorem call_edit (c : Call)
    (hc : ∀ planId, c ≠ .acquireNextExecutionEpoch planId)
    (h : (c.run : DbTxn Reply) db = .ok (r, db')) : db.Edit db' :=
  (call_change c hc h).edit

/-- `AcquireNextExecutionEpoch` returns the successor of the current epoch
and makes it the current one. -/
theorem acquire_call_ok {planId : Bytes}
    (h : ((Call.acquireNextExecutionEpoch planId).run : DbTxn Reply) db
      = .ok (r, db')) :
    ∃ current, db.currentEpoch? planId = some current
      ∧ r = .epoch (current + 1)
      ∧ db' = (db.setCurrentEpoch planId (current + 1)).2 := by
  obtain ⟨_, hop, rfl⟩ := answer_ok.1 h
  obtain ⟨_, -, hbody⟩ := liftCheck_bind_ok.1 hop
  obtain ⟨current, hcur, -, rfl, -, rfl⟩ :=
    acquireNextExecutionEpochBody_ok.1 hbody
  exact ⟨current, hcur, rfl, rfl⟩

-- ================================================ what changes keep

/-- Every edit keeps keys and ownership. -/
theorem Db.Edit.sound (hedit : db.Edit db') (h : db.Sound) :
    db'.Sound := by
  cases hedit with
  | same => exact h
  | addTask hfree => exact h.addTaskRow hfree
  | addDependency edge _ _ =>
      exact h.of_tables rfl rfl rfl rfl fun _ => .of_eq rfl
  | setReady => exact h.setReady
  | claim hpos hcur hcount hfresh htask =>
      exact h.claim ⟨hpos, _, hcur, Nat.le_refl _⟩ hcount hfresh htask
  | advance hh _ state hp ht htype => exact h.advance hh state hp ht htype
  | persist hh _ _ hp ht htype =>
      exact (h.addReceipt hh).advance hh _ hp ht htype
  | settle hown _ hnext attempt error hp ht htype =>
      exact h.settle hown hnext attempt error hp ht htype

/-- No edit moves an epoch. -/
theorem Db.Edit.epochs (hedit : db.Edit db') :
    db'.currentEpoch? = db.currentEpoch? := by
  cases hedit <;> rfl

/-- Moving a plan's epoch forward keeps keys and ownership. -/
theorem Db.Sound.acquire (h : db.Sound) {planId : Bytes} {current : Nat}
    (hcur : db.currentEpoch? planId = some current) :
    (db.setCurrentEpoch planId (current + 1)).2.Sound := by
  obtain ⟨h₁, h₂, h₃, h₄⟩ := db.setCurrentEpoch_tables planId (current + 1)
  exact h.of_tables h₁ h₂ h₃ h₄ (Db.EpochGrew.setCurrentEpoch hcur)

/-- Every successful call keeps keys and ownership. -/
theorem call_sound (c : Call) (h : (c.run : DbTxn Reply) db = .ok (r, db'))
    (hs : db.Sound) : db'.Sound := by
  by_cases hc : ∃ planId, c = .acquireNextExecutionEpoch planId
  · obtain ⟨planId, rfl⟩ := hc
    obtain ⟨current, hcur, -, rfl⟩ := acquire_call_ok h
    exact hs.acquire hcur
  · exact (call_edit c (fun p hp => hc ⟨p, hp⟩) h).sound hs

-- ============================================================ fencing

/-- A successful call presented the current epoch of its plan. -/
theorem call_epoch_current (c : Call) {planId : Bytes} {epoch : Nat}
    (hp : (Action.call c).presented = some (planId, epoch))
    (h : (c.run : DbTxn Reply) db = .ok (r, db')) :
    db.currentEpoch? planId = some epoch := by
  cases c with
  | claimNextReady p e supplied =>
      cases hp
      obtain ⟨_, h, -⟩ := answer_ok.1 h
      obtain ⟨_, -, h⟩ := liftCheck_bind_ok.1 h
      obtain ⟨_, -, h⟩ := liftCheck_bind_ok.1 h
      exact (claimNextReadyBody_ok.1 h).1
  | markCommitIntent p t e a =>
      cases hp
      obtain ⟨_, h, -⟩ := answer_ok.1 h
      obtain ⟨_, -, h⟩ := liftCheck_bind_ok.1 h
      obtain ⟨_, -, h⟩ := liftCheck_bind_ok.1 h
      exact (advanceAttemptBody_ok.1 h).1
  | markTempWritten p t e a =>
      cases hp
      obtain ⟨_, h, -⟩ := answer_ok.1 h
      obtain ⟨_, -, h⟩ := liftCheck_bind_ok.1 h
      obtain ⟨_, -, h⟩ := liftCheck_bind_ok.1 h
      exact (advanceAttemptBody_ok.1 h).1
  | markSucceeded p t e a =>
      cases hp
      obtain ⟨_, h, -⟩ := answer_ok.1 h
      obtain ⟨_, -, h⟩ := liftCheck_bind_ok.1 h
      obtain ⟨_, -, h⟩ := liftCheck_bind_ok.1 h
      exact (finishTaskBody_ok.1 h).1
  | markRetryable p t e a error =>
      cases hp
      obtain ⟨_, h, -⟩ := answer_ok.1 h
      obtain ⟨_, -, h⟩ := liftCheck_bind_ok.1 h
      obtain ⟨_, -, h⟩ := liftCheck_bind_ok.1 h
      obtain ⟨-, h⟩ := require_bind_ok.1 h
      exact (finishTaskBody_ok.1 h).1
  | recoverSucceeded p t e old a reason =>
      cases hp
      obtain ⟨_, h, -⟩ := answer_ok.1 h
      obtain ⟨_, -, h⟩ := liftCheck_bind_ok.1 h
      exact (recoverTaskBody_ok.1 h).1
  | recoverRetryable p t e old a reason =>
      cases hp
      obtain ⟨_, h, -⟩ := answer_ok.1 h
      obtain ⟨_, -, h⟩ := liftCheck_bind_ok.1 h
      exact (recoverTaskBody_ok.1 h).1
  | recoverInconsistent p t e old a reason =>
      cases hp
      obtain ⟨_, h, -⟩ := answer_ok.1 h
      obtain ⟨_, -, h⟩ := liftCheck_bind_ok.1 h
      exact (recoverTaskBody_ok.1 h).1
  | persistVerifiedReceipt p receipt =>
      cases hp
      obtain ⟨_, h, -⟩ := answer_ok.1 h
      obtain ⟨_, -, h⟩ := liftCheck_bind_ok.1 h
      exact (persistVerifiedReceiptBody_ok.1 h).1
  | _ => cases hp

end PhotoBridge
