/-
What each repository operation does to the tables when it succeeds: one
inversion lemma per body, giving its guards and the one store it leaves.

Later proofs use these and never open a body again. Three shapes of
effect cover the operations on a running task: `Db.advance` (the
attempt's row and one event), `Db.settle` (the task leaves RUNNING, its
attempt closes, one event) and `Db.claim` (a READY task becomes RUNNING
with a fresh attempt).
-/
import PhotoBridge.Db.Repository

namespace PhotoBridge

open Transaction

variable {α : Type} {db db' : Db}
variable {planId taskId attemptId : Bytes} {epoch : Nat}

-- ================================================= single statements

@[simp] theorem select_ok {operation : String} {f : Db → α} {a : α} :
    (select operation f : DbTxn α) db = .ok (a, db') ↔ a = f db ∧ db' = db :=
  Txn.read_eq_ok

@[simp] theorem write_ok {operation : String}
    {f : Db → Except Status (α × Db)} {a : α} :
    (write operation f : DbTxn α) db = .ok (a, db') ↔ f db = .ok (a, db') :=
  Iff.rfl

@[simp] theorem require_ok {p : Prop} [Decidable p] {error : Status}
    {u : Unit} :
    (require p error : DbTxn Unit) db = .ok (u, db') ↔ p ∧ db' = db := by
  unfold require
  by_cases hp : p <;> simp [hp]

/-- A condition fails with its own error. -/
theorem require_error {p : Prop} [Decidable p] {error e : Status} {s : Db} :
    (require p error : DbTxn Unit) s = .error e ↔ ¬p ∧ e = error := by
  unfold require
  by_cases hp : p
  · rw [if_pos hp]
    constructor
    · intro h
      cases h
    · intro h
      exact absurd hp h.1
  · rw [if_neg hp]
    constructor
    · intro h
      cases h
      exact ⟨hp, rfl⟩
    · rintro ⟨-, rfl⟩
      rfl

@[simp] theorem liftCheck_ok {check : Except Status α} {a : α} :
    (liftCheck check : DbTxn α) db = .ok (a, db')
      ↔ check = .ok a ∧ db' = db := by
  cases check with
  | ok b =>
      simp only [liftCheck, Txn.pure_eq_ok, Except.ok.injEq]
      rw [eq_comm]
  | error e => simp [liftCheck]

/-- A check fails with its own error. -/
theorem liftCheck_error {check : Except Status α} {e : Status} :
    (liftCheck check : DbTxn α) db = .error e ↔ check = .error e := by
  cases check with
  | ok a =>
      constructor
      · intro h
        cases h
      · intro h
        cases h
  | error error =>
      constructor
      · intro h
        cases h
        rfl
      · intro h
        cases h
        rfl

/-- Reading the epoch of a plan. -/
theorem readCurrentEpochForPlan_ok {current : Nat} :
    (readCurrentEpochForPlan planId : DbTxn Nat) db = .ok (current, db')
      ↔ db.currentEpoch? planId = some current ∧ db' = db := by
  unfold readCurrentEpochForPlan
  simp only [Txn.bind_eq_ok, select_ok]
  constructor
  · rintro ⟨_, db, ⟨rfl, rfl⟩, h⟩
    cases hc : db.currentEpoch? planId with
    | none => simp [hc] at h
    | some e =>
        simp only [hc, Txn.pure_eq_ok] at h
        exact ⟨congrArg some h.1.symm, h.2⟩
  · rintro ⟨h, rfl⟩
    exact ⟨_, _, ⟨rfl, rfl⟩, by simp [h]⟩

/-- The epoch an operation is checked against is `epoch`. -/
def EpochIs (batched : Option Nat) (db : Db) (planId : Bytes)
    (epoch : Nat) : Prop :=
  match batched with
  | none => db.currentEpoch? planId = some epoch
  | some e => e = epoch

/-- The epoch an operation is checked against. -/
theorem currentEpochFor_ok {batched : Option Nat} {current : Nat} :
    (currentEpochFor batched planId : DbTxn Nat) db = .ok (current, db')
      ↔ EpochIs batched db planId current ∧ db' = db := by
  cases batched with
  | none => exact readCurrentEpochForPlan_ok
  | some e =>
      simp only [currentEpochFor, EpochIs, Txn.pure_eq_ok]
      rw [eq_comm]

-- ==================================================== the table edits

/-- The store after a task event. -/
def Db.append (db : Db) (event : EventRow) : Db :=
  { db with events := db.events ++ [event] }

/-- The store after `UpdateAttemptState`. -/
def Db.setAttempt (db : Db) (planId taskId attemptId : Bytes) (epoch : Nat)
    (state : FileAttemptState) (result : Option TaskState)
    (error : Option Status) (finish : Bool) : Db :=
  (db.updateAttempts (AttemptRow.isAt planId taskId attemptId epoch)
    fun row => { row with
      fileState := state, finished := finish, result := result,
      error := error }).2

/-- Exactly one attempt row has this key and epoch. -/
def Db.HasAttempt (db : Db) (planId taskId attemptId : Bytes)
    (epoch : Nat) : Prop :=
  db.attempts.countP (AttemptRow.isAt planId taskId attemptId epoch) = 1

/-- An event is stored for a task that is there. -/
theorem appendTaskEvent_ok {event : EventRow} {u : Unit} :
    (appendTaskEvent event : DbTxn Unit) db = .ok (u, db')
      ↔ db.hasTask event.planId event.taskId = true
        ∧ db' = db.append event := by
  unfold appendTaskEvent
  rw [write_ok]
  by_cases h : db.hasTask event.planId event.taskId = true
  · simp [h, Db.append, eq_comm]
  · simp [h]

/-- The row of an attempt is updated if there is one. -/
private theorem updateAttemptState_ok {state : FileAttemptState}
    {result : Option TaskState} {error : Option Status} {finish : Bool}
    {u : Unit} :
    (updateAttemptState planId taskId attemptId epoch state result error
        finish : DbTxn Unit) db = .ok (u, db')
      ↔ db.HasAttempt planId taskId attemptId epoch
        ∧ db' = db.setAttempt planId taskId attemptId epoch state result
            error finish := by
  unfold updateAttemptState
  simp only [Txn.bind_eq_ok, write_ok, require_ok]
  constructor
  · rintro ⟨n, db₁, h, hn, rfl⟩
    obtain ⟨rfl, rfl⟩ := Prod.mk.inj (Except.ok.inj h)
    exact ⟨hn, rfl⟩
  · rintro ⟨h, rfl⟩
    exact ⟨_, _, rfl, h, rfl⟩

-- ======================================================== the effects

/-- The attempt's row gets a new state and the event is logged. -/
def Db.advance (db : Db) (planId taskId attemptId : Bytes) (epoch : Nat)
    (state : FileAttemptState) (event : EventRow) : Db :=
  (db.setAttempt planId taskId attemptId epoch state none none false).append
    event

/-- The task's row once it is no longer owned. -/
def TaskRow.release (next : TaskState) (error : Option Status)
    (row : TaskRow) : TaskRow :=
  { row with
    state := next, ownerEpoch := none, activeAttemptId := none,
    lastError := error }

/-- A running task leaves RUNNING: its row loses its owner, its attempt
is closed and the event is logged. -/
def Db.settle (db : Db) (planId taskId attemptId : Bytes) (epoch : Nat)
    (next : TaskState) (attempt : FileAttemptState)
    (error : Option Status) (event : EventRow) : Db :=
  ((db.updateTasks (TaskRow.isOwnedBy planId taskId epoch attemptId)
      (TaskRow.release next error)).2.setAttempt
    planId taskId attemptId epoch attempt (some next) error true).append event

/-- Exactly one task row is this task's, running under that epoch and
attempt. -/
def Db.Owned (db : Db) (planId taskId attemptId : Bytes) (epoch : Nat) :
    Prop :=
  db.tasks.countP (TaskRow.isOwnedBy planId taskId epoch attemptId) = 1

/-- What `finishTaskBody` and `recoverTaskBody` have in common after their
epoch check. -/
theorem settle_statements_ok {next : TaskState} {error : Option Status}
    {attempt : FileAttemptState} {eventType : EventType} {actingEpoch : Nat}
    {detail : Bytes} {stale : Status} {operation : String} {u : Unit} :
    (do
      let changes ← write operation fun db =>
        .ok (db.updateTasks (TaskRow.isOwnedBy planId taskId epoch attemptId)
          (TaskRow.release next error))
      require (changes = 1) stale
      updateAttemptState planId taskId attemptId epoch attempt (some next)
        error true
      appendTaskEvent ⟨planId, taskId, eventType, actingEpoch, attemptId, detail⟩ :
        DbTxn Unit) db = .ok (u, db')
      ↔ db.Owned planId taskId attemptId epoch
        ∧ db.HasAttempt planId taskId attemptId epoch
        ∧ db' = db.settle planId taskId attemptId epoch next attempt error
            ⟨planId, taskId, eventType, actingEpoch, attemptId, detail⟩ := by
  simp only [Txn.bind_eq_ok, write_ok, require_ok, updateAttemptState_ok,
    appendTaskEvent_ok]
  constructor
  · rintro ⟨n, db₁, hw, _, _, ⟨hn, rfl⟩, _, _, ⟨ha, rfl⟩, _, rfl⟩
    obtain ⟨rfl, rfl⟩ := Prod.mk.inj (Except.ok.inj hw)
    exact ⟨hn, ha, rfl⟩
  · rintro ⟨hown, hatt, rfl⟩
    refine ⟨_, _, rfl, (), _, ⟨hown, rfl⟩, (), _, ⟨hatt, rfl⟩, ?_, rfl⟩
    -- the task is still there: an update keeps every key
    have hpos : 0 < db.tasks.countP
        (TaskRow.isOwnedBy planId taskId epoch attemptId) := by
      rw [hown]
      exact Nat.one_pos
    obtain ⟨row, hrow, hp⟩ := List.countP_pos_iff.1 hpos
    have hat : row.isAt planId taskId = true := by
      simp only [TaskRow.isOwnedBy, Bool.and_eq_true] at hp
      exact hp.1.1.1
    simp only [Db.hasTask, Db.setAttempt, Db.updateAttempts,
      List.any_map, List.any_eq_true]
    refine ⟨row, hrow, ?_⟩
    simpa [hp, TaskRow.release, TaskRow.isAt] using hat

/-- `FinishTask` succeeds exactly when its epoch is the current one and
the task is owned as presented. -/
theorem finishTaskBody_ok {next : TaskState} {error : Option Status}
    {batched : Option Nat} {u : Unit} :
    (finishTaskBody planId taskId epoch attemptId next error batched :
        DbTxn Unit) db = .ok (u, db')
      ↔ EpochIs batched db planId epoch
        ∧ db.Owned planId taskId attemptId epoch
        ∧ db.HasAttempt planId taskId attemptId epoch
        ∧ db' = db.settle planId taskId attemptId epoch next
            (if next = .succeeded then .committed else .retryable) error {
              planId := planId, taskId := taskId
              eventType := if next = .succeeded then .succeeded
                else .retryable
              ownerEpoch := epoch, attemptId := attemptId
              detail := match error with
                | none => text "completed"
                | some e => e.message } := by
  unfold finishTaskBody
  rw [Txn.bind_eq_ok]
  constructor
  · rintro ⟨current, _, hc, h⟩
    obtain ⟨hc, rfl⟩ := currentEpochFor_ok.1 hc
    obtain ⟨_, _, hr, hs⟩ := Txn.bind_eq_ok.1 h
    obtain ⟨rfl, rfl⟩ := require_ok.1 hr
    exact ⟨hc, settle_statements_ok.1 hs⟩
  · rintro ⟨hc, h⟩
    exact ⟨_, _, currentEpochFor_ok.2 ⟨hc, rfl⟩, Txn.bind_eq_ok.2
      ⟨(), _, require_ok.2 ⟨rfl, rfl⟩, settle_statements_ok.2 h⟩⟩

/-- `RecoverTask` succeeds exactly when the recovery epoch is the current
one and the task is owned as presented. -/
theorem recoverTaskBody_ok {recoveryEpoch oldEpoch : Nat}
    {oldAttemptId reason : Bytes} {next : TaskState}
    {attempt : FileAttemptState} {event : EventType}
    {error : Option Status} {u : Unit} :
    (recoverTaskBody planId taskId recoveryEpoch oldEpoch oldAttemptId next
        attempt event reason error : DbTxn Unit) db = .ok (u, db')
      ↔ db.currentEpoch? planId = some recoveryEpoch
        ∧ db.Owned planId taskId oldAttemptId oldEpoch
        ∧ db.HasAttempt planId taskId oldAttemptId oldEpoch
        ∧ db' = db.settle planId taskId oldAttemptId oldEpoch next attempt
            error {
              planId := planId, taskId := taskId, eventType := event
              ownerEpoch := recoveryEpoch, attemptId := oldAttemptId
              detail := text "old_epoch=" ++ decimal oldEpoch
                ++ text " old_attempt=" ++ oldAttemptId
                ++ text " reason=" ++ reason } := by
  unfold recoverTaskBody
  rw [Txn.bind_eq_ok]
  constructor
  · rintro ⟨current, _, hc, h⟩
    obtain ⟨hc, rfl⟩ := readCurrentEpochForPlan_ok.1 hc
    obtain ⟨_, _, hr, hs⟩ := Txn.bind_eq_ok.1 h
    obtain ⟨rfl, rfl⟩ := require_ok.1 hr
    exact ⟨hc, settle_statements_ok.1 hs⟩
  · rintro ⟨hc, h⟩
    exact ⟨_, _, readCurrentEpochForPlan_ok.2 ⟨hc, rfl⟩, Txn.bind_eq_ok.2
      ⟨(), _, require_ok.2 ⟨rfl, rfl⟩, settle_statements_ok.2 h⟩⟩

-- ==================================================== owned attempts

/-- The task is running under that epoch and attempt, as
`CheckTaskOwnership` reads it. -/
def Db.Holds (db : Db) (planId taskId attemptId : Bytes) (epoch : Nat) :
    Prop :=
  ∃ row, db.task? planId taskId = some row ∧ row.state = .running
    ∧ row.ownerEpoch = some epoch ∧ row.activeAttemptId = some attemptId

/-- A task that is found is there. -/
theorem Db.hasTask_of_task? {row : TaskRow}
    (h : db.task? planId taskId = some row) :
    db.hasTask planId taskId = true :=
  List.any_eq_true.2 ⟨row, List.mem_of_find?_eq_some h,
    List.find?_some (p := TaskRow.isAt planId taskId) h⟩

/-- A task that is held is there. -/
theorem Db.Holds.hasTask (h : db.Holds planId taskId attemptId epoch) :
    db.hasTask planId taskId = true := by
  obtain ⟨row, hrow, -⟩ := h
  exact Db.hasTask_of_task? hrow

/-- The check succeeds for who owns the task. -/
private theorem checkTaskOwnership_ok {u : Unit} :
    (checkTaskOwnership planId taskId epoch attemptId : DbTxn Unit) db
        = .ok (u, db')
      ↔ db.Holds planId taskId attemptId epoch ∧ db' = db := by
  unfold checkTaskOwnership
  simp only [Txn.bind_eq_ok, select_ok]
  constructor
  · rintro ⟨_, db, ⟨rfl, rfl⟩, h⟩
    cases hrow : db.task? planId taskId with
    | none => simp [hrow] at h
    | some row =>
        simp only [hrow, Txn.bind_eq_ok, require_ok] at h
        obtain ⟨_, _, ⟨-, rfl⟩, ⟨hs, he, ha⟩, rfl⟩ := h
        exact ⟨⟨row, hrow, hs, he, ha⟩, rfl⟩
  · rintro ⟨⟨row, hrow, hs, he, ha⟩, rfl⟩
    refine ⟨_, _, ⟨rfl, rfl⟩, ?_⟩
    simp [hrow, Txn.bind_eq_ok, hs, he, ha]

/-- `AdvanceAttempt` succeeds on an owned task: it replays a state
already reached and changes nothing, or takes a permitted transition. -/
theorem advanceAttemptBody_ok {next : FileAttemptState} {event : EventType}
    {batched : Option Nat} {u : Unit} :
    (advanceAttemptBody planId taskId epoch attemptId next event batched :
        DbTxn Unit) db = .ok (u, db')
      ↔ EpochIs batched db planId epoch
        ∧ db.Holds planId taskId attemptId epoch
        ∧ ∃ previous,
          db.attemptState? planId taskId attemptId epoch = some previous
          ∧ (previous = next ∧ db' = db
            ∨ previous ≠ next ∧ previous.isValidTransition next = true
              ∧ db.HasAttempt planId taskId attemptId epoch
              ∧ db' = db.advance planId taskId attemptId epoch next {
                  planId := planId, taskId := taskId, eventType := event
                  ownerEpoch := epoch, attemptId := attemptId
                  detail := text "attempt lifecycle" }) := by
  unfold advanceAttemptBody
  simp only [Txn.bind_eq_ok, currentEpochFor_ok, require_ok,
    checkTaskOwnership_ok, select_ok]
  constructor
  · rintro ⟨_, _, ⟨hc, rfl⟩, _, _, ⟨rfl, rfl⟩, _, _, ⟨hh, rfl⟩, _, db,
      ⟨rfl, rfl⟩, h⟩
    refine ⟨hc, hh, ?_⟩
    cases hp : db.attemptState? planId taskId attemptId _ with
    | none => simp [hp] at h
    | some previous =>
        refine ⟨previous, rfl, ?_⟩
        simp only [hp] at h
        split at h
        · next heq => exact .inl ⟨heq, (Txn.pure_eq_ok.1 h).2⟩
        · next hne =>
          split at h
          · simp at h
          · next hv =>
            simp only [Txn.bind_eq_ok, updateAttemptState_ok,
              appendTaskEvent_ok] at h
            obtain ⟨_, _, ⟨ha, rfl⟩, -, rfl⟩ := h
            exact .inr ⟨hne, by simpa using hv, ha, rfl⟩
  · rintro ⟨hc, hh, previous, hp, h⟩
    refine ⟨_, _, ⟨hc, rfl⟩, (), _, ⟨rfl, rfl⟩, (), _, ⟨hh, rfl⟩, _, _,
      ⟨rfl, rfl⟩, ?_⟩
    simp only [hp]
    obtain ⟨heq, rfl⟩ | ⟨hne, hv, ha, rfl⟩ := h
    · simp [heq]
    · simp only [if_neg hne, hv, Bool.not_true, Bool.false_eq_true, if_false,
        Txn.bind_eq_ok, updateAttemptState_ok, appendTaskEvent_ok]
      exact ⟨(), _, ⟨ha, rfl⟩, hh.hasTask, rfl⟩

-- ============================================================ receipts

/-- The event `PersistVerifiedReceipt` logs. -/
def receiptEvent (planId : Bytes) (receipt : VerifiedReceipt) :
    EventRow where
  planId := planId
  taskId := receipt.taskId
  eventType := .verifiedDurable
  ownerEpoch := receipt.ownerEpoch
  attemptId := receipt.attemptId
  detail := text "receipt persisted before publish"

/-- The store with one more receipt. -/
def Db.addReceipt (db : Db) (row : ReceiptRow) : Db :=
  { db with receipts := db.receipts ++ [row] }

/-- A stored receipt as `ReadVerifiedReceipt` returns it. -/
def ReceiptRow.toReceipt (row : ReceiptRow) (identity : FileIdentity) :
    VerifiedReceipt where
  taskId := row.taskId
  attemptId := row.attemptId
  ownerEpoch := row.ownerEpoch
  tempPath := row.tempPath
  finalPath := row.finalPath
  contentSize := row.contentSize
  sourceDigest := some row.sourceDigest
  targetDigest := row.targetDigest
  sourceIdentity := some identity

/-- Reading a receipt. -/
theorem readVerifiedReceiptStatement_ok {receipt : VerifiedReceipt} :
    (readVerifiedReceiptStatement planId taskId attemptId :
        DbTxn VerifiedReceipt) db = .ok (receipt, db')
      ↔ (∃ row identity, db.receipt? planId taskId attemptId = some row
          ∧ row.ownerEpoch ≠ 0
          ∧ decodeIdentity row.sourceIdentity = .ok identity
          ∧ receipt = row.toReceipt identity)
        ∧ db' = db := by
  unfold readVerifiedReceiptStatement
  simp only [Txn.bind_eq_ok, select_ok]
  constructor
  · rintro ⟨_, db, ⟨rfl, rfl⟩, h⟩
    cases hrow : db.receipt? planId taskId attemptId with
    | none => simp [hrow] at h
    | some row =>
        simp only [hrow, Txn.bind_eq_ok, require_ok] at h
        obtain ⟨_, _, ⟨hepoch, rfl⟩, h⟩ := h
        cases hid : decodeIdentity row.sourceIdentity with
        | error e => simp [hid] at h
        | ok identity =>
            simp only [hid, Txn.pure_eq_ok] at h
            exact ⟨⟨row, identity, rfl, hepoch, hid, h.1⟩, h.2⟩
  · rintro ⟨⟨row, identity, hrow, hepoch, hid, rfl⟩, rfl⟩
    refine ⟨_, _, ⟨rfl, rfl⟩, ?_⟩
    simp only [hrow, Txn.bind_eq_ok, require_ok]
    exact ⟨(), _, ⟨hepoch, rfl⟩, by simp [hid, ReceiptRow.toReceipt]⟩

/-- `PersistVerifiedReceipt` succeeds on an owned task: it replays an
equal receipt and changes nothing, or stores the first one. -/
theorem persistVerifiedReceiptBody_ok {receipt : VerifiedReceipt}
    {source : Digest} {identity : FileIdentity} {batched : Option Nat}
    {u : Unit} :
    (persistVerifiedReceiptBody planId receipt source identity batched :
        DbTxn Unit) db = .ok (u, db')
      ↔ EpochIs batched db planId receipt.ownerEpoch
        ∧ db.Holds planId receipt.taskId receipt.attemptId receipt.ownerEpoch
        ∧ (db.receipts.any (ReceiptRow.isAt planId receipt.taskId
              receipt.attemptId) = true
            ∧ db' = db
            ∧ (∃ existing,
              (readVerifiedReceiptStatement planId receipt.taskId
                receipt.attemptId : DbTxn VerifiedReceipt) db
                  = .ok (existing, db)
              ∧ sameVerifiedReceipt existing receipt = true)
          ∨ db.receipts.any (ReceiptRow.isAt planId receipt.taskId
              receipt.attemptId) = false
            ∧ db.attempts.any (·.attemptId == receipt.attemptId) = true
            ∧ db.HasAttempt planId receipt.taskId receipt.attemptId
                receipt.ownerEpoch
            ∧ db' = (db.addReceipt
                  (receiptRow planId receipt source identity)).advance
                planId receipt.taskId receipt.attemptId receipt.ownerEpoch
                .verifiedDurable (receiptEvent planId receipt)) := by
  unfold persistVerifiedReceiptBody
  simp only [Txn.bind_eq_ok, currentEpochFor_ok, require_ok,
    checkTaskOwnership_ok, write_ok]
  constructor
  -- the statements, in their order, from the run
  · rintro ⟨_, _, ⟨hc, rfl⟩, _, _, ⟨rfl, rfl⟩, _, db, ⟨hh, rfl⟩, n, db₁,
      hw, h⟩
    refine ⟨hc, hh, ?_⟩
    -- the receipt is there already, or it is stored now
    by_cases hr : db.receipts.any (ReceiptRow.isAt planId receipt.taskId
        receipt.attemptId) = true
    · rw [if_pos hr] at hw
      obtain ⟨rfl, rfl⟩ := Prod.mk.inj (Except.ok.inj hw)
      simp only [if_true, Txn.bind_eq_ok, require_ok] at h
      obtain ⟨existing, db₂, hread, hsame, hdb⟩ := h
      obtain ⟨-, rfl⟩ := readVerifiedReceiptStatement_ok.1 hread
      subst hdb
      exact .inl ⟨hr, rfl, existing, hread, hsame⟩
    · rw [if_neg hr] at hw
      split at hw
      · cases hw
      · next hfk =>
        obtain ⟨rfl, rfl⟩ := Prod.mk.inj (Except.ok.inj hw)
        simp only [Nat.one_ne_zero, if_false, Txn.bind_eq_ok,
          updateAttemptState_ok, appendTaskEvent_ok] at h
        obtain ⟨_, _, ⟨ha, rfl⟩, -, rfl⟩ := h
        refine .inr ⟨by simpa using hr, ?_, ha, rfl⟩
        simp only [hh.hasTask, Bool.not_true, Bool.false_or,
          Bool.not_eq_true', Bool.not_eq_false] at hfk
        exact hfk
  -- and back
  · rintro ⟨hc, hh, h⟩
    refine ⟨_, _, ⟨hc, rfl⟩, (), _, ⟨rfl, rfl⟩, (), _, ⟨hh, rfl⟩, ?_⟩
    obtain ⟨hr, rfl, existing, hread, hsame⟩ | ⟨hr, hany, ha, rfl⟩ := h
    · refine ⟨0, _, by rw [if_pos hr], ?_⟩
      simp only [if_true, Txn.bind_eq_ok, require_ok]
      exact ⟨existing, _, hread, hsame, rfl⟩
    · refine ⟨1, db.addReceipt (receiptRow planId receipt source identity),
        ?_, ?_⟩
      · rw [if_neg (by simp [hr]), if_neg (by simp [hh.hasTask, hany])]
        rfl
      · simp only [Nat.one_ne_zero, if_false, Txn.bind_eq_ok,
          updateAttemptState_ok, appendTaskEvent_ok]
        exact ⟨(), _, ⟨ha, rfl⟩, hh.hasTask, rfl⟩

-- ============================================================== claims

/-- The row `ClaimNextReady` may claim for the task. -/
def TaskRow.isClaimable (planId taskId : Bytes) (row : TaskRow) : Bool :=
  row.isAt planId taskId && row.state == .ready
    && row.activeAttemptId.isNone

/-- The row of a claimed task. -/
def TaskRow.claim (epoch : Nat) (attemptId : Bytes) (row : TaskRow) :
    TaskRow :=
  { row with
    state := .running, ownerEpoch := some epoch,
    activeAttemptId := some attemptId,
    attemptCount := row.attemptCount + 1, lastError := none }

/-- The row of an attempt just begun. -/
def newAttemptRow (planId taskId attemptId : Bytes) (epoch : Nat) :
    AttemptRow where
  attemptId := attemptId
  planId := planId
  taskId := taskId
  ownerEpoch := epoch
  fileState := .running
  finished := false
  result := none
  error := none

/-- The event a claim logs. -/
def claimEvent (planId taskId attemptId : Bytes) (epoch : Nat) :
    EventRow where
  planId := planId
  taskId := taskId
  eventType := .running
  ownerEpoch := epoch
  attemptId := attemptId
  detail := text "claim"

/-- The store after a claim. -/
def Db.claim (db : Db) (planId taskId attemptId : Bytes) (epoch : Nat) : Db :=
  let tasks := (db.updateTasks (TaskRow.isClaimable planId taskId)
    (TaskRow.claim epoch attemptId)).2.tasks
  { db with
    tasks := tasks
    attempts := db.attempts ++ [newAttemptRow planId taskId attemptId epoch]
    events := db.events ++ [claimEvent planId taskId attemptId epoch] }

/-- The attempt id of a claim: the supplied one, or one generated from
the number of the attempt. -/
def attemptIdFor (planId : Bytes) (row : TaskRow) (supplied : Option Bytes) :
    Bytes :=
  supplied.getD (generatedAttemptId planId row.taskId (row.attemptCount + 1))

/-- Updating tasks takes none away. -/
theorem Db.hasTask_updateTasks {p : TaskRow → Bool} {f : TaskRow → TaskRow}
    (hf : ∀ row, (f row).isAt planId taskId = row.isAt planId taskId)
    (db : Db) :
    (db.updateTasks p f).2.hasTask planId taskId = db.hasTask planId taskId := by
  unfold Db.hasTask Db.updateTasks
  simp only [List.any_map]
  congr 1
  funext row
  simp only [Function.comp_apply]
  split
  · exact hf row
  · rfl

/-- A task's row as `ReadRuntime` returns it. -/
def TaskRow.toRuntime (row : TaskRow) : TaskRuntime where
  id := row.taskId
  state := row.state
  ownerEpoch := row.ownerEpoch.getD 0
  attemptId := row.activeAttemptId
  attemptCount := row.attemptCount
  lastError := row.lastError

/-- Reading the runtime of a task. -/
theorem readRuntimeWithStatement_ok {runtime : TaskRuntime} :
    (readRuntimeWithStatement planId taskId : DbTxn TaskRuntime) db
        = .ok (runtime, db')
      ↔ (∃ row, db.task? planId taskId = some row
          ∧ row.attemptCount ≤ uint32Max
          ∧ ¬row.lastError.any Status.isOk ∧ runtime = row.toRuntime)
        ∧ db' = db := by
  unfold readRuntimeWithStatement
  simp only [Txn.bind_eq_ok, select_ok]
  constructor
  · rintro ⟨_, db, ⟨rfl, rfl⟩, h⟩
    cases hrow : db.task? planId taskId with
    | none => simp [hrow] at h
    | some row =>
        simp only [hrow, Txn.bind_eq_ok, require_ok] at h
        obtain ⟨_, _, ⟨hcount, rfl⟩, _, _, ⟨herr, rfl⟩, hres⟩ := h
        obtain ⟨rfl, rfl⟩ := Txn.pure_eq_ok.1 hres
        exact ⟨⟨row, rfl, hcount, herr, rfl⟩, rfl⟩
  · rintro ⟨⟨row, hrow, hcount, herr, rfl⟩, rfl⟩
    refine ⟨_, _, ⟨rfl, rfl⟩, ?_⟩
    simp only [hrow, Txn.bind_eq_ok, require_ok]
    exact ⟨(), _, ⟨hcount, rfl⟩, (), _, ⟨herr, rfl⟩, by
      simp [TaskRow.toRuntime]⟩

/-- `ClaimNextReady` succeeds under the current epoch, on the least
eligible task, with an attempt id no attempt has. -/
theorem claimNextReadyBody_ok {supplied : Option Bytes}
    {claimed : ClaimedTask} :
    (claimNextReadyBody planId epoch supplied : DbTxn ClaimedTask) db
        = .ok (claimed, db')
      ↔ db.currentEpoch? planId = some epoch
        ∧ ∃ row, db.nextReady? planId = some row
          ∧ row.attemptCount < uint32Max
          ∧ db.tasks.countP (TaskRow.isClaimable planId row.taskId) = 1
          ∧ db.attempts.any
              (·.attemptId == attemptIdFor planId row supplied) = false
          ∧ db.hasTask planId row.taskId = true
          ∧ db' = db.claim planId row.taskId
              (attemptIdFor planId row supplied) epoch
          ∧ claimed.id = row.taskId
          ∧ (readRuntimeWithStatement planId row.taskId :
              DbTxn TaskRuntime) db' = .ok (claimed.runtime, db') := by
  unfold claimNextReadyBody
  simp only [Txn.bind_eq_ok, readCurrentEpochForPlan_ok, require_ok,
    select_ok]
  constructor
  -- the statements, in their order, from the run
  · rintro ⟨_, _, ⟨hc, rfl⟩, _, _, ⟨rfl, rfl⟩, _, db, ⟨rfl, rfl⟩, h⟩
    refine ⟨hc, ?_⟩
    cases hrow : db.nextReady? planId with
    | none => simp [hrow] at h
    | some row =>
        refine ⟨row, rfl, ?_⟩
        simp only [hrow, Txn.bind_eq_ok, require_ok, write_ok] at h
        obtain ⟨_, db, ⟨hcount, rfl⟩, n, db₁, hw, _, _, ⟨hn, rfl⟩, _, db₂,
          hins, _, db₃, hevent, runtime, db₄, hread, hres⟩ := h
        obtain ⟨rfl, rfl⟩ := Prod.mk.inj (Except.ok.inj hw)
        split at hins
        · cases hins
        · next hfresh =>
          split at hins
          · cases hins
          · next hfk =>
            obtain ⟨-, rfl⟩ := Prod.mk.inj (Except.ok.inj hins)
            obtain ⟨-, rfl⟩ := appendTaskEvent_ok.1 hevent
            obtain ⟨-, rfl⟩ := readRuntimeWithStatement_ok.1 hread
            obtain ⟨rfl, rfl⟩ := Txn.pure_eq_ok.1 hres
            have htask : db.hasTask planId row.taskId = true := by
              rw [Bool.not_eq_true', Bool.not_eq_false] at hfk
              exact (Db.hasTask_updateTasks (f := TaskRow.claim _ _)
                (fun _ => rfl) db).symm.trans hfk
            exact ⟨hcount, hn,
              by simpa [Db.updateTasks, attemptIdFor] using hfresh, htask,
              rfl, rfl, hread⟩
  -- and back
  · rintro ⟨hc, row, hrow, hcount, hn, hfresh, htask, rfl, hid, hread⟩
    refine ⟨_, _, ⟨hc, rfl⟩, (), _, ⟨rfl, rfl⟩, _, _, ⟨rfl, rfl⟩, ?_⟩
    simp only [hrow, Txn.bind_eq_ok, require_ok, write_ok]
    refine ⟨(), _, ⟨hcount, rfl⟩, _, _, rfl, (), _, ⟨hn, rfl⟩, ?_⟩
    have htask' : (db.updateTasks (TaskRow.isClaimable planId row.taskId)
        (TaskRow.claim epoch (attemptIdFor planId row supplied))).2.hasTask
          planId row.taskId = true :=
      (Db.hasTask_updateTasks (f := TaskRow.claim _ _) (fun _ => rfl)
        db).trans htask
    refine ⟨(), { (db.updateTasks (TaskRow.isClaimable planId row.taskId)
        (TaskRow.claim epoch (attemptIdFor planId row supplied))).2 with
        attempts := db.attempts ++ [newAttemptRow planId row.taskId
          (attemptIdFor planId row supplied) epoch] },
      ?_, (), _, ?_, claimed.runtime, _, hread, ?_⟩
    · rw [if_neg, if_neg]
      · rfl
      · rw [Bool.not_eq_true', Bool.not_eq_false]
        exact htask'
      · simpa [Db.updateTasks, attemptIdFor] using hfresh
    · exact appendTaskEvent_ok.2 ⟨htask', rfl⟩
    · rw [← hid]
      exact Txn.pure_eq_ok.2 ⟨rfl, rfl⟩

-- ============================================== epochs, tasks and edges

/-- `AcquireNextExecutionEpoch` returns the successor of the current
epoch. -/
theorem acquireNextExecutionEpochBody_ok {next : Nat} :
    (acquireNextExecutionEpochBody planId : DbTxn Nat) db = .ok (next, db')
      ↔ ∃ current, db.currentEpoch? planId = some current
        ∧ current < int64Max ∧ next = current + 1
        ∧ (db.setCurrentEpoch planId (current + 1)).1 = 1
        ∧ db' = (db.setCurrentEpoch planId (current + 1)).2 := by
  unfold acquireNextExecutionEpochBody
  simp only [Txn.bind_eq_ok, readCurrentEpochForPlan_ok, require_ok,
    write_ok, Txn.pure_eq_ok]
  constructor
  · rintro ⟨current, _, ⟨hc, rfl⟩, _, _, ⟨hlt, rfl⟩, n, db₁, hw, _, _,
      ⟨hn, rfl⟩, rfl, rfl⟩
    have hpair := Except.ok.inj hw
    exact ⟨current, hc, hlt, rfl, by rw [hpair]; exact hn, by rw [hpair]⟩
  · rintro ⟨current, hc, hlt, rfl, hn, rfl⟩
    exact ⟨current, _, ⟨hc, rfl⟩, (), _, ⟨hlt, rfl⟩, _, _, rfl, (), _,
      ⟨hn, rfl⟩, rfl, rfl⟩

/-- The store with one more task. -/
def Db.addTaskRow (db : Db) (row : TaskRow) : Db :=
  { db with tasks := db.tasks ++ [row] }

/-- What `AddTask` stores, and when. -/
theorem addTask_ok {task : TaskSpec} {u : Unit} :
    (addTask planId task : DbTxn Unit) db = .ok (u, db')
      ↔ checkIds planId task.id = .ok () ∧ validateTaskSpec task = .ok ()
        ∧ task.estimatedBytes.toNat ≤ int64Max
        ∧ db.taskRefused (Db.newTaskRow planId task) = false
        ∧ db' = db.addTaskRow (Db.newTaskRow planId task) := by
  unfold addTask
  simp only [Txn.bind_eq_ok, liftCheck_ok, require_ok, write_ok]
  constructor
  · rintro ⟨_, _, ⟨hids, rfl⟩, _, _, ⟨hspec, rfl⟩, _, _, ⟨hsize, rfl⟩, h⟩
    split at h
    · cases h
    · next hr =>
      obtain ⟨-, rfl⟩ := Prod.mk.inj (Except.ok.inj h)
      exact ⟨hids, hspec, hsize, by simpa using hr, rfl⟩
  · rintro ⟨hids, hspec, hsize, hr, rfl⟩
    refine ⟨(), _, ⟨hids, rfl⟩, (), _, ⟨hspec, rfl⟩, (), _, ⟨hsize, rfl⟩, ?_⟩
    rw [if_neg (by simp [hr])]
    rfl

/-- `AddDependency` adds an edge that is new, closes no cycle and is
between two tasks of the plan, and touches nothing else. -/
theorem addDependency_ok {task dependsOn : Bytes} {u : Unit} :
    (addDependency planId task dependsOn : DbTxn Unit) db = .ok (u, db')
      ↔ checkIds planId task = .ok () ∧ checkIds planId dependsOn = .ok ()
        ∧ task ≠ dependsOn ∧ db.wouldCycle planId task dependsOn = false
        ∧ db.hasTask planId task = true ∧ db.hasTask planId dependsOn = true
        ∧ db.dependencies.contains ⟨planId, task, dependsOn⟩ = false
        ∧ db' = { db with
            dependencies := db.dependencies ++ [⟨planId, task, dependsOn⟩] } := by
  unfold addDependency
  simp only [Txn.bind_eq_ok, liftCheck_ok, require_ok, write_ok,
    select_ok]
  constructor
  · intro h
    obtain ⟨_, _, ⟨htask, rfl⟩, _, _, ⟨hdep, rfl⟩, _, _, ⟨hne, rfl⟩, _, _,
      ⟨rfl, rfl⟩, _, _, ⟨hcycle, rfl⟩, n, db₁, hw, hn, rfl⟩ := h
    refine ⟨htask, hdep, hne, hcycle, ?_⟩
    split at hw
    · obtain ⟨rfl, -⟩ := Prod.mk.inj (Except.ok.inj hw)
      exact absurd rfl hn
    · next hfk =>
      split at hw
      · cases hw
      · next hnew =>
        obtain ⟨-, rfl⟩ := Prod.mk.inj (Except.ok.inj hw)
        simp only [Bool.not_eq_true', Bool.not_eq_false,
          Bool.and_eq_true] at hfk
        exact ⟨hfk.1, hfk.2, Bool.eq_false_iff.2 hnew, rfl⟩
  · intro h
    obtain ⟨htask, hdep, hne, hcycle, ht, hd, hnew, rfl⟩ := h
    refine ⟨(), _, ⟨htask, rfl⟩, (), _, ⟨hdep, rfl⟩, (), _, ⟨hne, rfl⟩, _, _,
      ⟨rfl, rfl⟩, (), _, ⟨hcycle, rfl⟩, 1, _, ?_, by decide, rfl⟩
    rw [ht, hd, hnew]
    rfl

/-- The row `SetReady` may release. -/
def Db.isReadyable (db : Db) (planId taskId : Bytes) (row : TaskRow) : Bool :=
  row.isAt planId taskId && (row.state == .planned || row.state == .retryable)
    && db.dependenciesDone planId taskId

/-- What `SetReady` stores, and when. -/
theorem setReady_ok {u : Unit} :
    (setReady planId taskId : DbTxn Unit) db = .ok (u, db')
      ↔ checkIds planId taskId = .ok ()
        ∧ db.tasks.countP (db.isReadyable planId taskId) ≠ 0
        ∧ db' = (db.updateTasks (db.isReadyable planId taskId)
            (TaskRow.release .ready none)).2 := by
  unfold setReady
  simp only [Txn.bind_eq_ok, liftCheck_ok, require_ok, write_ok]
  constructor
  · rintro ⟨_, _, ⟨hids, rfl⟩, n, db₁, hw, hn, rfl⟩
    obtain ⟨rfl, rfl⟩ := Prod.mk.inj (Except.ok.inj hw)
    exact ⟨hids, hn, rfl⟩
  · rintro ⟨hids, hn, rfl⟩
    exact ⟨(), _, ⟨hids, rfl⟩, _, _, rfl, hn, rfl⟩

end PhotoBridge
