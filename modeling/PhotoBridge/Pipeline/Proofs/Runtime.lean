/-
The database recovery finds, and what recovery does to it.

Recovery relies on a little more than keys and ownership: an active
attempt has an id that is accepted as one, and a stored receipt can be
read and names the temp after its attempt (`Named`). Every call the
pipeline makes keeps that (`call_named`).

A recovery operation then cannot be refused (`recover_ok`), and it
settles one task: the rows of all others are as before
(`rowsOf_settle`).
-/
import PhotoBridge.Db.Proofs.Claims
import PhotoBridge.Db.Proofs.Receipts
import PhotoBridge.Pipeline.Proofs.Names
import PhotoBridge.Pipeline.Recovery

namespace PhotoBridge.RecoveryService

open Transaction

variable {blake3 : Bytes → Digest} {db db' : Db}
  {planId taskId attemptId : Bytes} {epoch : Nat}

-- ================================================================== checks

/-- The id is accepted as an attempt's. -/
def IsId (id : Bytes) : Prop := id.isEmpty = false ∧ hasNul id = false

private theorem hasNul_append {a b : Bytes} :
    hasNul (a ++ b) = (hasNul a || hasNul b) := by
  unfold hasNul
  rw [Bool.eq_iff_iff]
  simp

private theorem hasNul_decimal (n : Nat) : hasNul (decimal n) = false := by
  unfold hasNul
  rw [Bool.eq_false_iff, Ne, List.contains_iff_mem]
  intro hmem
  exact absurd (mem_decimal hmem).1 (by decide)

theorem checkIds_ok : checkIds planId taskId = .ok () ↔ IsId planId ∧ IsId taskId := by
  unfold checkIds IsId
  cases planId.isEmpty <;> cases taskId.isEmpty <;> cases hasNul planId
    <;> cases hasNul taskId <;> simp

theorem checkEpochAttempt_ok : checkEpochAttempt epoch attemptId = .ok ()
    ↔ epoch ≠ 0 ∧ IsId attemptId ∧ epoch ≤ int64Max := by
  unfold checkEpochAttempt IsId
  by_cases hzero : epoch = 0
  · simp [hzero]
  · by_cases hmax : int64Max < epoch
    · cases attemptId.isEmpty <;> cases hasNul attemptId <;>
        simp [hzero, hmax, Nat.not_le.2 hmax]
    · cases attemptId.isEmpty <;> cases hasNul attemptId <;>
        simp [hzero, hmax, Nat.not_lt.1 hmax]

private theorem generatedAttemptId_isId (hplan : hasNul planId = false)
    (htask : hasNul taskId = false) (number : Nat) :
    IsId (generatedAttemptId planId taskId number) := by
  have hword : (text "attempt-").isEmpty = false ∧ hasNul (text "attempt-") = false
      ∧ hasNul (text "-") = false := by decide +kernel
  constructor
  · unfold generatedAttemptId
    rw [List.isEmpty_eq_false_iff] at *
    simp [hword.1]
  · simp only [generatedAttemptId, hasNul_append, hword, hplan, htask,
      hasNul_decimal, Bool.or_self]

-- =================================================================== named

/-- A stored receipt can be read, and its temp is named after its
attempt. -/
structure NamedReceipt (blake3 : Bytes → Digest) (row : ReceiptRow) : Prop where
  epoch : row.ownerEpoch ≠ 0
  identity : ∃ identity, row.sourceIdentity = encodeIdentity identity
  temp : row.tempPath = tempNameFor blake3 row.planId row.taskId row.attemptId

/-- Ids are ids, and receipts are readable. -/
structure Named (blake3 : Bytes → Digest) (db : Db) : Prop where
  tasks : ∀ row ∈ db.tasks, hasNul row.taskId = false
    ∧ ∀ id, row.activeAttemptId = some id → IsId id
  receipts : ∀ row ∈ db.receipts, NamedReceipt blake3 row

theorem Named.of_tables (h : Named blake3 db) (ht : db'.tasks = db.tasks)
    (hr : db'.receipts = db.receipts) : Named blake3 db' :=
  ⟨by rw [ht]; exact h.tasks, by rw [hr]; exact h.receipts⟩

/-- Rows that are updated without a new name in them. -/
theorem Named.updateTasks (h : Named blake3 db) {p : TaskRow → Bool}
    {f : TaskRow → TaskRow} (hf : ∀ row, (f row).taskId = row.taskId
      ∧ ∀ id, (f row).activeAttemptId = some id → IsId id) :
    Named blake3 (db.updateTasks p f).2 := by
  refine ⟨fun row hrow => ?_, h.receipts⟩
  obtain ⟨old, hold, rfl⟩ := List.mem_map.1 hrow
  split
  · rw [(hf old).1]
    exact ⟨(h.tasks old hold).1, (hf old).2⟩
  · exact h.tasks old hold

theorem Named.release (h : Named blake3 db) (p : TaskRow → Bool)
    (next : TaskState) (error : Option Status) :
    Named blake3 (db.updateTasks p (TaskRow.release next error)).2 :=
  h.updateTasks fun _ => ⟨rfl, nofun⟩

theorem Named.settle (h : Named blake3 db) {next : TaskState}
    {attempt : FileAttemptState} {error : Option Status} {event : EventRow} :
    Named blake3 (db.settle planId taskId attemptId epoch next attempt error
      event) :=
  (h.release (TaskRow.isOwnedBy planId taskId epoch attemptId) next error)
    |>.of_tables rfl rfl

theorem Named.finish (h : Named blake3 db) {next : TaskState}
    {error : Option Status} {u : Unit}
    (hrun : (finishTaskBody planId taskId epoch attemptId next error none :
      DbTxn Unit) db = .ok (u, db')) : Named blake3 db' := by
  obtain ⟨-, -, -, rfl⟩ := finishTaskBody_ok.1 hrun
  exact h.settle

theorem Named.recover (h : Named blake3 db) {recoveryEpoch : Nat}
    {reason : Bytes} {next : TaskState} {attempt : FileAttemptState}
    {event : EventType} {error : Option Status} {u : Unit}
    (hrun : (Repository.recover planId taskId recoveryEpoch epoch attemptId
      reason next attempt event error : DbTxn Unit) db = .ok (u, db')) :
    Named blake3 db' := by
  obtain ⟨_, -, hbody⟩ := liftCheck_bind_ok.1 hrun
  obtain ⟨-, -, -, rfl⟩ := recoverTaskBody_ok.1 hbody
  exact h.settle

theorem Named.advance (h : Named blake3 db) {next : FileAttemptState}
    {event : EventType} {u : Unit}
    (hrun : (advanceAttemptBody planId taskId epoch attemptId next event none :
      DbTxn Unit) db = .ok (u, db')) : Named blake3 db' := by
  obtain ⟨-, -, previous, -, ⟨-, rfl⟩ | ⟨-, -, -, rfl⟩⟩ :=
    advanceAttemptBody_ok.1 hrun
  · exact h
  · exact h.of_tables rfl rfl

/-- The id a claim gives its attempt is one. -/
theorem Named.attemptIdFor (h : Named blake3 db) {row : TaskRow}
    (hrow : row ∈ db.tasks) (hplan : hasNul planId = false)
    {supplied : Option Bytes}
    (hsupplied : IsId (supplied.getD (text "generated"))) :
    IsId (attemptIdFor planId row supplied) := by
  unfold PhotoBridge.attemptIdFor
  cases supplied with
  | none => exact generatedAttemptId_isId hplan (h.tasks row hrow).1 _
  | some id => exact hsupplied

theorem Named.claimNextReady (h : Named blake3 db) {supplied : Option Bytes}
    {claimed : ClaimedTask}
    (hrun : (Repository.claimNextReady planId epoch supplied :
      DbTxn ClaimedTask) db = .ok (claimed, db')) : Named blake3 db' := by
  obtain ⟨_, hids, hrun⟩ := liftCheck_bind_ok.1 hrun
  obtain ⟨_, hepoch, hrun⟩ := liftCheck_bind_ok.1 hrun
  obtain ⟨-, row, hrow, -, -, -, -, rfl, -, -⟩ := claimNextReadyBody_ok.1 hrun
  have hmem := (List.mem_filter.1 (leastTask_some hrow).1).1
  have hid := h.attemptIdFor hmem (checkIds_ok.1 hids).1.2
    (checkEpochAttempt_ok.1 hepoch).2.1
  have hclaimed := h.updateTasks (p := TaskRow.isClaimable planId row.taskId)
    (f := TaskRow.claim epoch (PhotoBridge.attemptIdFor planId row supplied))
    fun _ => ⟨rfl, fun id heq => Option.some.inj heq ▸ hid⟩
  exact hclaimed.of_tables rfl rfl

theorem Named.persist (h : Named blake3 db) {receipt : VerifiedReceipt}
    (htemp : receipt.tempPath
      = tempNameFor blake3 planId receipt.taskId receipt.attemptId) {u : Unit}
    (hrun : (Repository.persistVerifiedReceipt planId receipt : DbTxn Unit) db
      = .ok (u, db')) : Named blake3 db' := by
  obtain ⟨⟨source, identity⟩, hcheck, hrun⟩ := liftCheck_bind_ok.1 hrun
  obtain ⟨-, hepoch, -, -⟩ := checkReceipt_ok hcheck
  obtain ⟨-, -, ⟨-, rfl, -⟩ | ⟨-, -, -, rfl⟩⟩ :=
    persistVerifiedReceiptBody_ok.1 hrun
  · exact h
  · refine ⟨h.tasks, fun row hrow => ?_⟩
    rcases List.mem_append.1 hrow with hrow | hrow
    · exact h.receipts row hrow
    · rw [List.mem_singleton.1 hrow]
      exact ⟨(checkEpochAttempt_ok.1 hepoch).1, ⟨identity, rfl⟩, htemp⟩

/-- Every call the pipeline makes keeps the names. -/
theorem call_named (c : Call) (h : Named blake3 db)
    (hreceipt : ∀ planId receipt, c = .persistVerifiedReceipt planId receipt →
      receipt.tempPath
        = tempNameFor blake3 planId receipt.taskId receipt.attemptId)
    {r : Reply} (hrun : (c.run : DbTxn Reply) db = .ok (r, db')) :
    Named blake3 db' := by
  cases c with
  | addTask p task =>
      obtain ⟨_, hrun, -⟩ := answer_ok.1 hrun
      obtain ⟨hids, -, -, -, rfl⟩ := addTask_ok.1 hrun
      refine ⟨fun row hrow => ?_, h.receipts⟩
      rcases List.mem_append.1 hrow with hrow | hrow
      · exact h.tasks row hrow
      · rw [List.mem_singleton.1 hrow]
        exact ⟨(checkIds_ok.1 hids).2.2, nofun⟩
  | addDependency p t d =>
      obtain ⟨_, hrun, -⟩ := answer_ok.1 hrun
      obtain ⟨-, -, -, -, -, -, -, rfl⟩ := addDependency_ok.1 hrun
      exact h.of_tables rfl rfl
  | setReady p t =>
      obtain ⟨_, hrun, -⟩ := answer_ok.1 hrun
      obtain ⟨-, -, rfl⟩ := setReady_ok.1 hrun
      exact h.release (db.isReadyable p t) .ready none
  | claimNextReady p e supplied =>
      obtain ⟨_, hrun, -⟩ := answer_ok.1 hrun
      exact h.claimNextReady hrun
  | markCommitIntent p t e a =>
      obtain ⟨_, hrun, -⟩ := answer_ok.1 hrun
      obtain ⟨_, -, hrun⟩ := liftCheck_bind_ok.1 hrun
      obtain ⟨_, -, hrun⟩ := liftCheck_bind_ok.1 hrun
      exact h.advance hrun
  | markTempWritten p t e a =>
      obtain ⟨_, hrun, -⟩ := answer_ok.1 hrun
      obtain ⟨_, -, hrun⟩ := liftCheck_bind_ok.1 hrun
      obtain ⟨_, -, hrun⟩ := liftCheck_bind_ok.1 hrun
      exact h.advance hrun
  | markSucceeded p t e a =>
      obtain ⟨_, hrun, -⟩ := answer_ok.1 hrun
      obtain ⟨_, -, hrun⟩ := liftCheck_bind_ok.1 hrun
      obtain ⟨_, -, hrun⟩ := liftCheck_bind_ok.1 hrun
      exact h.finish hrun
  | markRetryable p t e a error =>
      obtain ⟨_, hrun, -⟩ := answer_ok.1 hrun
      obtain ⟨_, -, hrun⟩ := liftCheck_bind_ok.1 hrun
      obtain ⟨_, -, hrun⟩ := liftCheck_bind_ok.1 hrun
      obtain ⟨-, hrun⟩ := require_bind_ok.1 hrun
      exact h.finish hrun
  | recoverSucceeded p t e old a reason =>
      obtain ⟨_, hrun, -⟩ := answer_ok.1 hrun
      exact h.recover hrun
  | recoverRetryable p t e old a reason =>
      obtain ⟨_, hrun, -⟩ := answer_ok.1 hrun
      exact h.recover hrun
  | recoverInconsistent p t e old a reason =>
      obtain ⟨_, hrun, -⟩ := answer_ok.1 hrun
      exact h.recover hrun
  | persistVerifiedReceipt p receipt =>
      obtain ⟨_, hrun, -⟩ := answer_ok.1 hrun
      exact h.persist (hreceipt p receipt rfl) hrun
  | acquireNextExecutionEpoch p =>
      obtain ⟨current, -, -, rfl⟩ := acquire_call_ok hrun
      obtain ⟨ht, -, -, hr⟩ := db.setCurrentEpoch_tables p (current + 1)
      exact h.of_tables ht hr
  | readCurrentEpoch p =>
      obtain ⟨_, hrun, -⟩ := answer_ok.1 hrun
      obtain ⟨_, -, hrun⟩ := liftCheck_bind_ok.1 hrun
      obtain ⟨-, rfl⟩ := readCurrentEpochForPlan_ok.1 hrun
      exact h
  | readRuntime p t =>
      obtain ⟨_, hrun, -⟩ := answer_ok.1 hrun
      obtain ⟨_, -, hrun⟩ := liftCheck_bind_ok.1 hrun
      obtain ⟨-, rfl⟩ := readRuntimeWithStatement_ok.1 hrun
      exact h
  | readVerifiedReceipt p t a =>
      obtain ⟨_, hrun, -⟩ := answer_ok.1 hrun
      obtain ⟨_, -, hrun⟩ := liftCheck_bind_ok.1 hrun
      obtain ⟨-, rfl⟩ := readVerifiedReceiptStatement_ok.1 hrun
      exact h

/-- Sound and named: what every run of the pipeline leaves. -/
structure Reached (blake3 : Bytes → Digest) (db : Db) : Prop where
  sound : db.Sound
  named : Named blake3 db

theorem reached_of_run {t : List Event} {store : Store}
    (hrun : Run (preparing blake3) db t store) (hfresh : db.Fresh) :
    Reached blake3 store.committed := by
  have hnamed : Named blake3 db := by
    obtain ⟨ht, -, -, -, hr⟩ := hfresh
    exact ⟨by simp [ht], by simp [hr]⟩
  refine (Run.all (P := Reached blake3) hrun (fun _ _ _ h => h.1) ?_ ?_
    ⟨hfresh.sound, hnamed⟩).committed
  · intro σ i c db reply db' hrule hcall h
    refine ⟨call_sound c hcall h.sound, call_named c h.named ?_ hcall⟩
    rintro planId receipt rfl
    exact hrule.2 planId receipt rfl
  · exact fun db manifests migrations plans h =>
      ⟨h.sound.withPlans manifests migrations plans, h.named.of_tables rfl rfl⟩

-- ================================================================ settling

section Settle

variable {row : TaskRow} {next : TaskState} {attempt : FileAttemptState}
  {error : Option Status} {event : EventRow}

/-- A running task is the one the recovery operations ask for. -/
theorem owned_of_holds (h : db.Sound)
    (hh : db.Holds planId taskId attemptId epoch) :
    db.Owned planId taskId attemptId epoch
      ∧ db.HasAttempt planId taskId attemptId epoch := by
  obtain ⟨⟨open_, hopen, hid, hepoch⟩, -⟩ := h.holds hh
  obtain ⟨row, hrow, hstate, howner, hactive⟩ := hh
  obtain ⟨hmem, hp, ht⟩ := Db.task?_key hrow
  constructor
  · refine countP_eq_one h.keyed.tasks hmem
      (TaskRow.isOwnedBy_iff.2 ⟨⟨hp, ht⟩, howner, hactive, hstate⟩) ?_
    intro other _ hother
    obtain ⟨⟨hp', ht'⟩, -⟩ := TaskRow.isOwnedBy_iff.1 hother
    exact Prod.ext (hp'.trans hp.symm) (ht'.trans ht.symm)
  · have hmem : open_ ∈ db.openAttempts planId taskId := by
      rw [hopen]
      exact List.mem_singleton_self open_
    obtain ⟨hmem, hp, ht⟩ := Db.mem_attemptsOf.1 (Db.mem_openAttempts.1 hmem).1
    refine countP_eq_one h.keyed.attempts hmem
      (AttemptRow.isAt_iff.2 ⟨hp, ht, hid, hepoch⟩) fun other _ hother => ?_
    exact (AttemptRow.isAt_iff.1 hother).2.2.1.trans hid.symm

/-- The event a recovery operation logs. -/
def recoveryEvent (planId taskId : Bytes) (event : EventType)
    (recoveryEpoch oldEpoch : Nat) (attemptId reason : Bytes) : EventRow where
  planId := planId
  taskId := taskId
  eventType := event
  ownerEpoch := recoveryEpoch
  attemptId := attemptId
  detail := text "old_epoch=" ++ decimal oldEpoch ++ text " old_attempt="
    ++ attemptId ++ text " reason=" ++ reason

/-- Recovering a running task under the current epoch succeeds. -/
theorem recover_ok (h : db.Sound)
    (hh : db.Holds planId taskId attemptId epoch) {recoveryEpoch : Nat}
    (hcurrent : db.currentEpoch? planId = some recoveryEpoch)
    {reason : Bytes} (hcheck : Repository.checkRecovery planId taskId
      recoveryEpoch epoch attemptId reason = .ok ()) (event : EventType) :
    (Repository.recover planId taskId recoveryEpoch epoch attemptId reason next
      attempt event error : DbTxn Unit) db
      = .ok ((), db.settle planId taskId attemptId epoch next attempt error
        (recoveryEvent planId taskId event recoveryEpoch epoch attemptId
          reason)) := by
  obtain ⟨hown, hatt⟩ := owned_of_holds h hh
  exact liftCheck_bind_ok.2 ⟨(), hcheck,
    recoverTaskBody_ok.2 ⟨hcurrent, hown, hatt, rfl⟩⟩

/-- The settled task's row. -/
theorem task?_settle (hrow : db.task? planId taskId = some row)
    (hstate : row.state = .running) (howner : row.ownerEpoch = some epoch)
    (hactive : row.activeAttemptId = some attemptId) :
    (db.settle planId taskId attemptId epoch next attempt error event).task?
      planId taskId = some (row.release next error) := by
  obtain ⟨-, hp, ht⟩ := Db.task?_key hrow
  show (db.updateTasks (TaskRow.isOwnedBy planId taskId epoch attemptId)
    (TaskRow.release next error)).2.task? planId taskId = _
  rw [Db.task?_updateTasks (f := TaskRow.release next error) (fun _ => rfl),
    hrow, Option.map_some, if_pos
    (TaskRow.isOwnedBy_iff.2 ⟨⟨hp, ht⟩, howner, hactive, hstate⟩)]

/-- The state of its attempt. -/
theorem attemptState?_settle
    (hatt : db.HasAttempt planId taskId attemptId epoch) :
    (db.settle planId taskId attemptId epoch next attempt error
      event).attemptState? planId taskId attemptId epoch = some attempt := by
  have hpos : 0 < db.attempts.countP
      (AttemptRow.isAt planId taskId attemptId epoch) := by
    rw [hatt]
    exact Nat.one_pos
  have hfound : (db.attempts.find?
      (AttemptRow.isAt planId taskId attemptId epoch)).isSome = true := by
    rw [List.find?_isSome]
    exact List.countP_pos_iff.1 hpos
  obtain ⟨old, hold⟩ := Option.isSome_iff_exists.1 hfound
  have hkey : (AttemptRow.isAt planId taskId attemptId epoch)
      ∘ rewriteAttempt planId taskId attemptId epoch attempt (some next) error
        true = AttemptRow.isAt planId taskId attemptId epoch := by
    funext row
    simp only [Function.comp_apply, rewriteAttempt]
    split <;> rfl
  show ((db.attempts.map (rewriteAttempt planId taskId attemptId epoch attempt
    (some next) error true)).find? _).map _ = _
  rw [List.find?_map, hkey, hold, Option.map_some, Option.map_some,
    rewriteAttempt, if_pos (List.find?_some hold)]

/-- Other tasks have the rows they had. -/
theorem rowsOf_settle (hp : event.planId = planId) (ht : event.taskId = taskId)
    {p t : Bytes} (hne : ¬(p = planId ∧ t = taskId)) :
    rowsOf (db.settle planId taskId attemptId epoch next attempt error event) p t
      = rowsOf db p t := by
  have htasks : (db.settle planId taskId attemptId epoch next attempt error
      event).task? p t = db.task? p t := by
    show (db.updateTasks (TaskRow.isOwnedBy planId taskId epoch attemptId)
      (TaskRow.release next error)).2.task? p t = _
    rw [Db.task?_updateTasks (f := TaskRow.release next error) fun _ => rfl]
    cases hrow : db.task? p t with
    | none => rfl
    | some row =>
        obtain ⟨-, rfl, rfl⟩ := Db.task?_key hrow
        rw [Option.map_some, if_neg]
        intro hown
        exact hne (TaskRow.isOwnedBy_iff.1 hown).1
  have hattempts : (db.settle planId taskId attemptId epoch next attempt error
      event).attemptsOf p t = db.attemptsOf p t := by
    refine (Db.attemptsOf_setAttempt attempt (some next) error true
      (db.updateTasks (TaskRow.isOwnedBy planId taskId epoch attemptId)
        (TaskRow.release next error)).2 p t).trans ?_
    refine (List.map_congr_left fun row hrow => ?_).trans (List.map_id _)
    exact rewriteAttempt_other attemptId epoch attempt (some next) error true
      hrow hne
  have hevent : ([event].filter fun e => e.planId == p && e.taskId == t) = [] := by
    have hother : (event.planId == p && event.taskId == t) = false := by
      rw [hp, ht, Bool.and_eq_false_iff, beq_eq_false_iff_ne,
        beq_eq_false_iff_ne, ← not_and_or]
      rintro ⟨rfl, rfl⟩
      exact hne ⟨rfl, rfl⟩
    rw [List.filter_singleton, hother]
    rfl
  unfold rowsOf
  rw [htasks, hattempts]
  show (_, _, ((db.events ++ [event]).filter _), _) = _
  rw [List.filter_append, hevent, List.append_nil]
  rfl

end Settle

end PhotoBridge.RecoveryService
