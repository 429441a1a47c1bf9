/-
What the operations of a pool of workers do to the rows.

There are two kinds. What a worker asks for is about its attempt
(`Db.Worked`): the rows of other attempts are left, and a task that stops
running under this one can be tried again. What the producer asks for is a
claim (`Db.Claimed`): one task that was READY runs under an attempt that
is new. Either spares every other attempt (`Db.Spares`), makes no task
READY, and keeps to the tasks that were READY when the pool was started
(`Db.Since`).
-/
import PhotoBridge.Pipeline.Proofs.Ledger

namespace PhotoBridge

open Transaction

/-- An attempt, and the task it is an attempt at. -/
def AttemptRow.key (row : AttemptRow) : Bytes × Bytes × Bytes :=
  (row.attemptId, row.planId, row.taskId)

namespace Db

/-- No task is running. -/
def Idle (db : Db) : Prop := ∀ row ∈ db.tasks, row.state ≠ .running

/-- No task is READY. -/
def Drained (db : Db) : Prop := ∀ row ∈ db.tasks, row.state ≠ .ready

/-- The rows of an attempt are as they were: its receipts, and the task
that is running under it. -/
structure Spares (attemptId : Bytes) (db db' : Db) : Prop where
  attempts : ∀ id, db.Attempted id → db'.Attempted id
  receipts : db.Attempted attemptId → ∀ row : ReceiptRow,
    row.attemptId = attemptId → (row ∈ db'.receipts ↔ row ∈ db.receipts)
  tasks : db.Attempted attemptId → ∀ row ∈ db.tasks, row.Runs attemptId →
    row ∈ db'.tasks

/-- What a worker's operation does. -/
structure Worked (attemptId : Bytes) (db db' : Db) : Prop where
  attempts : db'.attempts.map AttemptRow.key = db.attempts.map AttemptRow.key
  epoch : ∀ planId, db'.currentEpoch? planId = db.currentEpoch? planId
  receipts : ∀ row : ReceiptRow, row.attemptId ≠ attemptId →
    (row ∈ db'.receipts ↔ row ∈ db.receipts)
  kept : ∀ row ∈ db.tasks, row.Runs attemptId ∨ row ∈ db'.tasks
  moved : ∀ row ∈ db'.tasks, row ∈ db.tasks ∨ row.state = .retryable
    ∧ ∃ old ∈ db.tasks, old.key = row.key ∧ old.Runs attemptId

/-- What a claim does. -/
structure Claimed (key : Bytes × Bytes) (attemptId : Bytes) (db db' : Db) :
    Prop where
  fresh : ¬db.Attempted attemptId
  attempts : db'.attempts.map AttemptRow.key
    = db.attempts.map AttemptRow.key ++ [(attemptId, key)]
  epoch : ∀ planId, db'.currentEpoch? planId = db.currentEpoch? planId
  receipts : db'.receipts = db.receipts
  kept : ∀ row ∈ db.tasks, row.state = .ready ∨ row ∈ db'.tasks
  moved : ∀ row ∈ db'.tasks, row ∈ db.tasks ∨ row.key = key
    ∧ row.Runs attemptId ∧ ∃ old ∈ db.tasks, old.key = key ∧ old.state = .ready
  runs : ∃ row ∈ db'.tasks, row.key = key ∧ row.Runs attemptId

/-- Since the pool was started tasks have moved only if they were READY,
under attempts that are new. -/
structure Since (base db : Db) : Prop where
  attempts : ∀ id, base.Attempted id → db.Attempted id
  rows : ∀ row ∈ db.tasks, row ∈ base.tasks
    ∨ (∃ old ∈ base.tasks, old.key = row.key ∧ old.state = .ready)
      ∧ ∃ attemptId, (attemptId, row.key) ∈ db.attempts.map AttemptRow.key
        ∧ ¬base.Attempted attemptId

variable {db db' db'' base : Db} {attemptId id : Bytes} {key : Bytes × Bytes}

/-- An attempt that was made has a row, of some task. -/
theorem attempted_iff_key : db.Attempted id
    ↔ ∃ key, (id, key) ∈ db.attempts.map AttemptRow.key := by
  unfold Attempted
  constructor
  · intro h
    obtain ⟨row, hrow, rfl⟩ := List.mem_map.1 h
    exact ⟨(row.planId, row.taskId), List.mem_map_of_mem hrow⟩
  · rintro ⟨key, h⟩
    obtain ⟨row, hrow, heq⟩ := List.mem_map.1 h
    exact List.mem_map.2 ⟨row, hrow, congrArg Prod.fst heq⟩

namespace Spares

/-- Nothing has been done. -/
theorem refl (attemptId : Bytes) (db : Db) : Spares attemptId db db :=
  ⟨fun _ h => h, fun _ _ _ => Iff.rfl, fun _ _ h _ => h⟩

/-- One thing after another. -/
theorem trans (h : Spares attemptId db db') (h' : Spares attemptId db' db'') :
    Spares attemptId db db'' where
  attempts id hid := h'.attempts id (h.attempts id hid)
  receipts hid row hrow :=
    (h'.receipts (h.attempts _ hid) row hrow).trans (h.receipts hid row hrow)
  tasks hid row hmem hruns :=
    h'.tasks (h.attempts _ hid) row (h.tasks hid row hmem hruns) hruns

end Spares

namespace Worked

/-- Nothing has been done. -/
theorem refl (attemptId : Bytes) (db : Db) : Worked attemptId db db :=
  ⟨rfl, fun _ => rfl, fun _ _ => Iff.rfl, fun _ h => .inr h, fun _ h => .inl h⟩

/-- Work on an attempt starts none. -/
theorem attempted (h : Worked attemptId db db') :
    db'.Attempted id ↔ db.Attempted id := by
  rw [attempted_iff_key, attempted_iff_key, h.attempts]

/-- Work on an attempt leaves the others alone. -/
theorem spares (h : Worked attemptId db db') (hne : id ≠ attemptId) :
    Spares id db db' where
  attempts id hid := h.attempted.2 hid
  receipts _ row hrow := h.receipts row (hrow ▸ hne)
  tasks _ row hmem hruns := by
    refine (h.kept row hmem).resolve_left fun hother => hne ?_
    exact Option.some.inj (hruns.2.symm.trans hother.2)

/-- Work makes no task READY. -/
theorem drained (h : Worked attemptId db db') (hdrained : db.Drained) :
    db'.Drained := by
  intro row hrow hready
  rcases h.moved row hrow with hold | ⟨hretryable, -⟩
  · exact hdrained row hold hready
  · exact nomatch hready.symm.trans hretryable

/-- Work does not touch what was there before the pool. -/
theorem since (h : Worked attemptId db db') (hbase : base.Idle)
    (hsince : base.Since db) : base.Since db' where
  attempts id hid := h.attempted.2 (hsince.attempts id hid)
  rows row hrow := by
    rw [h.attempts]
    rcases h.moved row hrow with hold | ⟨-, old, hold, hkey, hruns⟩
    · exact hsince.rows row hold
    · -- it was claimed in the meantime
      rw [← hkey]
      refine (hsince.rows old hold).elim (fun hmem => ?_) .inr
      exact absurd hruns.1 (hbase old hmem)

/-- The attempt's state is another one. -/
theorem of_tables (htasks : db'.tasks = db.tasks)
    (hreceipts : ∀ row : ReceiptRow, row.attemptId ≠ attemptId →
      (row ∈ db'.receipts ↔ row ∈ db.receipts))
    (hattempts : db'.attempts.map AttemptRow.key
      = db.attempts.map AttemptRow.key)
    (hepoch : ∀ planId, db'.currentEpoch? planId = db.currentEpoch? planId) :
    Worked attemptId db db' := by
  refine ⟨hattempts, hepoch, hreceipts, fun row hrow => .inr ?_,
    fun row hrow => .inl ?_⟩
  · rw [htasks]
    exact hrow
  · rw [← htasks]
    exact hrow

end Worked

namespace Claimed

/-- A claim starts one attempt. -/
theorem attempted (h : Claimed key attemptId db db') :
    db'.Attempted id ↔ db.Attempted id ∨ id = attemptId := by
  rw [attempted_iff_key, attempted_iff_key, h.attempts]
  simp only [List.mem_append, List.mem_singleton, Prod.mk.injEq, exists_or,
    exists_and_left, exists_eq, and_true]

/-- A claim leaves every attempt alone that was there. -/
theorem spares (h : Claimed key attemptId db db') (id : Bytes) :
    Spares id db db' where
  attempts id hid := h.attempted.2 (.inl hid)
  receipts _ row _ := by rw [h.receipts]
  tasks _ row hmem hruns := by
    refine (h.kept row hmem).resolve_left fun hready => ?_
    exact nomatch hready.symm.trans hruns.1

/-- A claim makes no task READY. -/
theorem drained (h : Claimed key attemptId db db') (hdrained : db.Drained) :
    db'.Drained := by
  intro row hrow hready
  rcases h.moved row hrow with hold | ⟨-, hruns, -⟩
  · exact hdrained row hold hready
  · exact nomatch hready.symm.trans hruns.1

/-- A claim does not touch what was there before, but for the task it
claims. -/
theorem since (h : Claimed key attemptId db db') (hsince : base.Since db) :
    base.Since db' where
  attempts id hid := h.attempted.2 (.inl (hsince.attempts id hid))
  rows row hrow := by
    rw [h.attempts]
    rcases h.moved row hrow with hold | ⟨hkey, -, old, hold, hold', hready⟩
    · refine (hsince.rows row hold).imp id ?_
      rintro ⟨hwas, attemptId, hmem, hnew⟩
      exact ⟨hwas, attemptId, List.mem_append_left _ hmem, hnew⟩
    · refine .inr ⟨?_, attemptId, ?_, fun hid =>
        h.fresh (hsince.attempts attemptId hid)⟩
      · rcases hsince.rows old hold with hmem | ⟨⟨first, hfirst, hkey', hwas⟩, -⟩
        · exact ⟨old, hmem, hold'.trans hkey.symm, hready⟩
        · exact ⟨first, hfirst, hkey'.trans (hold'.trans hkey.symm), hwas⟩
      · rw [hkey]
        exact List.mem_append_right _ (List.mem_singleton_self _)

end Claimed

-- ========================================================= the operations

section Operations

variable {planId taskId : Bytes} {epoch : Nat} {u : Unit}

/-- The state of an attempt is not in its key. -/
theorem setAttempt_keys {state : FileAttemptState} {result : Option TaskState}
    {error : Option Status} {finish : Bool} :
    (db.setAttempt planId taskId attemptId epoch state result error
      finish).attempts.map AttemptRow.key = db.attempts.map AttemptRow.key := by
  show (db.attempts.map _).map AttemptRow.key = _
  rw [List.map_map]
  refine List.map_congr_left fun row _ => ?_
  rw [Function.comp_apply]
  split <;> rfl

/-- A step of an attempt is work on it. -/
theorem worked_advance {next : FileAttemptState} {event : EventType}
    (h : (advanceAttemptBody planId taskId epoch attemptId next event none :
      DbTxn Unit) db = .ok (u, db')) : Worked attemptId db db' := by
  obtain ⟨-, -, previous, -, ⟨-, rfl⟩ | ⟨-, -, -, rfl⟩⟩ :=
    advanceAttemptBody_ok.1 h
  · exact .refl _ _
  · exact .of_tables rfl (fun _ _ => Iff.rfl) setAttempt_keys fun _ => rfl

/-- Storing its receipt is work on it. -/
theorem worked_persist {receipt : VerifiedReceipt}
    (h : (Repository.persistVerifiedReceipt planId receipt : DbTxn Unit) db
      = .ok (u, db')) : Worked receipt.attemptId db db' := by
  rcases persistVerifiedReceipt_cases h with ⟨rfl, -⟩ | ⟨source, identity, -, -, -, rfl⟩
  · exact .refl _ _
  · refine .of_tables rfl (fun row hrow => ?_) setAttempt_keys fun _ => rfl
    refine List.mem_append.trans (or_iff_left fun hlast => hrow ?_)
    rw [List.mem_singleton.1 hlast]
    rfl

/-- Giving its task back is work on it. -/
theorem worked_markRetryable {error : Status}
    (h : (Repository.markRetryable planId taskId epoch attemptId error :
      DbTxn Unit) db = .ok (u, db')) : Worked attemptId db db' := by
  obtain ⟨_, -, h⟩ := liftCheck_bind_ok.1 h
  obtain ⟨_, -, h⟩ := liftCheck_bind_ok.1 h
  obtain ⟨-, h⟩ := require_bind_ok.1 h
  obtain ⟨-, -, -, rfl⟩ := finishTaskBody_ok.1 h
  have howned : ∀ row : TaskRow,
      row.isOwnedBy planId taskId epoch attemptId = true →
      row.Runs attemptId := by
    intro row hrow
    unfold TaskRow.isOwnedBy at hrow
    simp only [Bool.and_eq_true, beq_iff_eq] at hrow
    exact ⟨hrow.2, hrow.1.2⟩
  refine ⟨setAttempt_keys, fun _ => rfl, fun _ _ => Iff.rfl, fun row hrow => ?_,
    fun row hrow => ?_⟩
  · by_cases hp : row.isOwnedBy planId taskId epoch attemptId = true
    · exact .inl (howned row hp)
    · refine .inr (List.mem_map.2 ⟨row, hrow, ?_⟩)
      rw [if_neg hp]
  · obtain ⟨old, hold, rfl⟩ := List.mem_map.1 hrow
    split
    · next hp => exact .inr ⟨rfl, old, hold, rfl, howned old hp⟩
    · exact .inl hold

/-- A claim that succeeds. -/
theorem claimed_ok {claimed : ClaimedTask} (hrows : db.RowsOk)
    (h : (Repository.claimNextReady planId epoch none : DbTxn ClaimedTask) db
      = .ok (claimed, db')) : ∃ attemptId,
      claimed.runtime.attemptId = some attemptId
        ∧ Claimed (planId, claimed.id) attemptId db db' := by
  obtain ⟨_, -, h⟩ := liftCheck_bind_ok.1 h
  obtain ⟨_, -, h⟩ := liftCheck_bind_ok.1 h
  obtain ⟨-, row, hrow, -, -, hfresh, -, rfl, hid, hread⟩ :=
    claimNextReadyBody_ok.1 h
  have hclaimable := hrows.nextReady?_claimable hrow
  obtain ⟨hmem, hplan, -⟩ := Db.task?_key (hrows.nextReady?_some hrow).1
  have hready : row.state = .ready := (TaskRow.isClaimable_iff.1 hclaimable).2.1
  have hkey : row.key = (planId, claimed.id) := Prod.ext hplan hid.symm
  have honly : ∀ other ∈ db.tasks,
      other.isClaimable planId row.taskId = true → other = row := by
    intro other hother hsame
    obtain ⟨⟨hp, ht⟩, -⟩ := TaskRow.isClaimable_iff.1 hsame
    exact List.inj_on_of_nodup_map hrows.keys hother hmem
      (Prod.ext (hp.trans hplan.symm) ht)
  obtain ⟨⟨found, hfound, -, -, hruntime⟩, -⟩ :=
    readRuntimeWithStatement_ok.1 hread
  rw [hrows.task?_claim hrow] at hfound
  cases hfound
  refine ⟨attemptIdFor planId row none, ?_, ?_⟩
  · rw [hruntime]
    rfl
  refine ⟨?_, ?_, fun _ => rfl, rfl, fun other hother => ?_, fun other hother => ?_,
    row.claim epoch (attemptIdFor planId row none), ?_, hkey, rfl, rfl⟩
  · rw [attempted_iff, hfresh]
    exact Bool.false_ne_true
  · show (db.attempts ++ [newAttemptRow planId row.taskId
      (attemptIdFor planId row none) epoch]).map AttemptRow.key = _
    rw [List.map_append, hid]
    rfl
  · by_cases hp : other.isClaimable planId row.taskId = true
    · exact .inl (TaskRow.isClaimable_iff.1 hp).2.1
    · refine .inr (List.mem_map.2 ⟨other, hother, ?_⟩)
      rw [if_neg hp]
  · obtain ⟨old, hold, rfl⟩ := List.mem_map.1 hother
    split
    · next hp =>
      cases honly old hold hp
      exact .inr ⟨hkey, ⟨rfl, rfl⟩, row, hmem, hkey, hready⟩
    · exact .inl hold
  · refine List.mem_map.2 ⟨row, hmem, ?_⟩
    rw [if_pos hclaimable]

end Operations

end Db

end PhotoBridge
