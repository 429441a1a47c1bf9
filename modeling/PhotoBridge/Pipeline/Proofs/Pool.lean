/-
The pool of migrate: its claims and its jobs get on with each other.

`contract` says what the claims and the jobs are about, `shared` that they
keep to it; what holds of any such pool (Lib/WorkerPool.lean) then holds of
this one: in every state of the pool the world is as the protocol has it
(`pooled`), nobody waits for ever (`pool_goes_on`), and once it has ended
without an error every task that was READY has been prepared
(`pool_prepared`).
-/
import PhotoBridge.Pipeline.Proofs.Worker

namespace PhotoBridge

open Concurrent MigrationService MigrationService.World Transaction

-- ================================================================ the queue

section Queue

variable {blake3 : Bytes → Digest} {strerror : Nat → Bytes} {trouble : Trouble}
  {s : Session} {workers rounds : Nat}

/-- The accelerated copy is between two open files. -/
def MigrationService.MigrationCall.Opened (d : Disk) : MigrationCall → Prop
  | .pipeline (.file (.tryIoUringCopyAndHash source target _)) =>
      (d.openFile? source).isSome = true ∧ (d.openFile? target).isSome = true
  | _ => True

/-- The accelerated copy of open files may always give way to the plain
one, or refuse its arguments. -/
theorem ioUringCopies_answers (source target : Nat) (size : UInt64)
    (content content' : Bytes) : ∃ r,
      IoUringCopies blake3 source target size content content' r content' := by
  cases hvalid : (ioUringArgs source target size).valid with
  | true => exact ⟨_, ioUringCopies_disabled hvalid⟩
  | false =>
      refine ⟨.error (.invalid
          "invalid io_uring copy descriptors, size, or queue depth"),
        idleKernel, none, 0, ⟨none, 0⟩, ⟨none, 0⟩, 0,
        ⟨content, content', .fresh, 0⟩, idleKernel_honest, .start, ?_, rfl⟩
      unfold IoUring.tryIoUringCopyAndHash
      rw [hvalid]
      rfl

/-- Where calls may fail, each has an answer. -/
theorem migration_answers (hfails : trouble.fails) (c : MigrationCall)
    (m : Machine) (h : c.Opened m.disk) :
    ∃ r m', migrationEffects blake3 strerror trouble c m r m' := by
  suffices ∃ r m', migrationActs blake3 strerror trouble c m r m' by
    obtain ⟨r, m', hacts⟩ := this
    exact ⟨r, m', m.disk, Disk.disturbed_refl _ _, hacts⟩
  cases c with
  | startWriter path batchSize => exact ⟨.ok (), m, .inl rfl, rfl⟩
  | store c =>
      exact ⟨_, _, ⟨m.db, none, false, [], none⟩, rfl, rfl, rfl, .inl hfails,
        rfl, rfl⟩
  | pipeline c =>
      cases c with
      | readPlanFile path => exact ⟨_, m, .inl rfl, rfl⟩
      | acquireLock path => exact ⟨_, m, .inl rfl, rfl⟩
      | openDatabase path => exact ⟨_, m, .inl rfl, rfl⟩
      | readManifestSourceRoot id => exact ⟨_, m, .inl rfl, rfl⟩
      | repository c =>
          exact ⟨_, _, ⟨m.db, none, false, [], none⟩, rfl, rfl, rfl, .inl hfails,
            rfl, rfl⟩
      | openRoot root path => exact ⟨_, m, .inl rfl, rfl⟩
      | print text => exact ⟨_, _, rfl, rfl⟩
      | file c =>
          cases c with
          | tryIoUringCopyAndHash source target size =>
              obtain ⟨⟨so, sf⟩, hsource⟩ := Option.isSome_iff_exists.1 h.1
              obtain ⟨⟨o, f⟩, htarget⟩ := Option.isSome_iff_exists.1 h.2
              obtain ⟨r, hcopies⟩ : ∃ r, IoUringCopies blake3 source target size
                  sf.current.content f.current.content r f.current.content :=
                ioUringCopies_answers source target size _ _
              refine ⟨r, m, m.disk, rfl, .inl ?_⟩
              simp only [fileActs, hsource, htarget]
              refine ⟨f.current.content, hcopies, ⟨⟨f, ?_, List.suffix_refl _, rfl,
                .inl rfl⟩, rfl, rfl⟩, trivial⟩
              exact (set_of_getElem? (Disk.openFile?_eq_some.1 htarget).2).symm
          | read fd size =>
              exact ⟨.error (.internal ""), m, m.disk, rfl,
                .inr (.inl ⟨hfails, .inl ⟨_, rfl⟩, rfl⟩)⟩
          | write fd data =>
              exact ⟨.error (.internal ""), m, m.disk, rfl,
                .inr (.inl ⟨hfails, .inl ⟨_, rfl⟩, .inl rfl⟩)⟩
          | _ =>
              exact ⟨.error (.internal ""), m, m.disk, rfl,
                .inr (.inl ⟨hfails, ⟨_, rfl⟩, rfl⟩)⟩

/-- There is always an answer to a claim: the writer has stopped. -/
private theorem claim_answers (w : MigrationService.World) : ∃ r w',
    poolEffects blake3 strerror trouble none (pool blake3 s workers rounds).claim
      w r w' :=
  ⟨.error (.internal ""), w, w.machine, .inr ⟨⟨_, rfl, rfl⟩, rfl⟩, rfl⟩

/-- No notification is lost: only a job can hold up the pool, where its
loops were given too few rounds or it copies between files that are not
open. -/
theorem pool_goes_on (hfails : trouble.fails) {started : MigrationService.World}
    {p : WorkerPool.State (pool blake3 s workers rounds) MigrationService.World}
    (h : WorkerPool.Reachable (pool blake3 s workers rounds)
      (poolEffects blake3 strerror trouble) started p)
    (hworkers : 0 < workers) (hover : ∀ error, p.producer ≠ .returned error) :
    (∃ p', WorkerPool.Acts (poolEffects blake3 strerror trouble) p p')
    ∨ ∃ i x rest, p.workers i = .working x rest
      ∧ (rest = .done none ∨ ∃ c next, rest = .call c next
        ∧ ¬c.Opened (p.world.view (x.claim.runtime.attemptId.getD [])).disk) := by
  by_contra hno
  obtain ⟨hstuck, hfree⟩ := not_or.1 hno
  refine hstuck (h.orderly.progress hworkers (Nat.succ_pos 7)
    (claim_answers p.world) (fun i x rest hpc => ?_) hover)
  refine WorkerPool.working_acts hpc (fun hspent => ?_) fun c next hcall => ?_
  · exact hfree ⟨i, x, rest, hpc, .inl hspent⟩
  · have hopened : c.Opened
        (p.world.view (x.claim.runtime.attemptId.getD [])).disk := by
      by_contra hclosed
      exact hfree ⟨i, x, rest, hpc, .inr ⟨c, next, hcall, hclosed⟩⟩
    obtain ⟨r, m, hm⟩ : ∃ r m,
        migrationEffects blake3 strerror trouble c _ r m :=
      migration_answers hfails c _ hopened
    exact ⟨r, _, m, .inl hm, rfl⟩

/-- A session for the sun, whose task is the first of its plan. -/
def asleepSession : Session where
  artifact := ⟨text "p", text "plan.jsonl", .zero, .zero,
    ⟨text "manifest", .zero, text "/target", ⟨[], []⟩, {},
      [Preparer.sunPreparation.asset]⟩⟩
  epoch := 1
  sourceRoot := text "/source"
  taskIds := [text "t"]
  taskCount := 1

/-- The machine with its task ready. -/
def asleepMachine : Machine := { Preparer.sunPreparation.machine with
  db := { Preparer.sunPreparation.machine.db with
    tasks := [⟨text "p", text "t", text "t", .migrateFile, .ready, none, none,
      0, text "f", 3, none, none⟩]
    attempts := [] } }

/-- The claim of the task, where nothing fails. -/
def asleepClaim : Except Status ClaimedTask × Repo :=
  ((StoreCall.claimNextReady (text "p") 1).run (fun _ => .zero) : RepoM _)
    ⟨asleepMachine.db, none, false, [], none⟩

private theorem asleepClaim_item : ∃ x,
    decode asleepSession asleepClaim.1 = .item x ∧ x.claim.id = text "t" :=
  ⟨_, rfl, rfl⟩

/-- Both workers are asleep, the task is in the queue, and the producer is
about to notify. -/
theorem pool_goes_on_asleep :
    ∃ p : WorkerPool.State (pool (fun _ => .zero) asleepSession 2 9)
      MigrationService.World,
    (∀ i, p.workers i = .waiting true)
      ∧ p.queue.map (·.claim.id) = [text "t"] ∧ p.producer = .announcing
      ∧ ((∃ p', WorkerPool.Acts (poolEffects (fun _ => .zero) (fun _ => [])
          ⟨True, fun _ => False⟩) p p')
        ∨ ∃ i x rest, p.workers i = .working x rest
          ∧ (rest = .done none ∨ ∃ c next, rest = .call c next ∧ ¬c.Opened
            (p.world.view (x.claim.runtime.attemptId.getD [])).disk)) := by
  obtain ⟨x, hitem, hid⟩ := asleepClaim_item
  have hfirst : WorkerPool.Reachable (pool (fun _ => .zero) asleepSession 2 9)
      (poolEffects (fun _ => .zero) (fun _ => []) ⟨True, fun _ => False⟩)
      (.start asleepMachine) _ := .init
  have hclaims : poolEffects (fun _ => .zero) (fun _ => [])
      ⟨True, fun _ => False⟩ none
      (pool (fun _ => .zero) asleepSession 2 9).claim (.start asleepMachine)
      asleepClaim.1 (.start { asleepMachine with
        db := asleepClaim.2.committed }) :=
    ⟨_, .inl ⟨asleepMachine.disk, Disk.disturbed_refl _ _,
      ⟨asleepMachine.db, none, false, [], none⟩, rfl, rfl, rfl, .inl trivial,
      rfl, rfl⟩, rfl⟩
  have hasleep := (hfirst.acts (.nap _ ⟨0, Nat.two_pos⟩ rfl rfl rfl)).acts
    (.nap _ ⟨1, Nat.one_lt_two⟩ rfl rfl rfl)
  have hclaimed := (hasleep.acts (.produce _ rfl rfl rfl)).acts
    (.claim _ rfl hclaims)
  have hpushed := hclaimed.acts
    (.push _ (congrArg WorkerPool.Producer.after hitem))
  refine ⟨_, ?_, ?_, rfl, pool_goes_on trivial hpushed Nat.two_pos nofun⟩
  · exact Fin.forall_fin_two.2 ⟨rfl, rfl⟩
  · exact congrArg (fun id => [id]) hid

end Queue

namespace Site

variable {σ : Site} {s : Session} {base : Machine} {a taskId : Bytes}
  {w w' : MigrationService.World} {α β : Type} {asset : MinimalPlanAsset}
  {key : Preparer.AttemptKey} {rounds workers : Nat}

-- ================================================================== a job

/-- The same of a step of the command. -/
abbrev Serves (σ : Site) (s : Session) (base : Machine) (a : Bytes)
    (ok : α → MigrationService.World → Prop) (x : MigrationM α)
    (w : MigrationService.World) : Prop :=
  Secures (σ.shares s base migrationCalls)
    (poolEffects σ.blake3 σ.strerror σ.trouble) (some a) True ok
    (fun _ _ => True) x w

theorem serves_pipeline {ok : α → MigrationService.World → Prop} {x : PipelineM α}
    (h : σ.Shares s base a ok x w) : σ.Serves s base a ok (pipeline x) w :=
  Secures.through h

/-- A task goes back. -/
theorem markRetryable_serves (hbase : σ.Starts s base) {planId : Bytes}
    {epoch : Nat} {error : Status} :
    σ.Serves s base a (fun _ _ => True)
      (store (.markRetryable planId taskId epoch a error)) w := by
  refine .perform ?_
  rintro w₁ hw₁ - r w₂ ⟨m, hm, rfl⟩
  rcases hm with heffect | ⟨⟨e, rfl⟩, rfl⟩
  · rcases store_cases heffect with ⟨e, rfl, rfl, -⟩ | ⟨_, db', rfl, rfl, hf⟩
    · rw [put_view]
      exact ⟨hw₁, .refl _ _, trivial⟩
    · have hcalm : Db.Calm (fun _ => False) w₁.machine.db db' :=
        calm_markRetryable hf
      have hhistory := hw₁.kept.ledger.history.answered
        (.markRetryable planId taskId epoch a error) rfl nofun hf
      have hledger := hw₁.kept.ledger.calm hcalm hhistory fun _ => False.elim
      obtain ⟨hpool, howes⟩ := hw₁.worked hbase (Db.worked_markRetryable hf)
        hledger (hw₁.held_calm hcalm)
      rw [show w₁.put a { w₁.view a with db := db' } = w₁.stored db'
        from put_stored w₁ a db']
      exact ⟨hpool, howes, trivial⟩
  · rw [put_view]
    exact ⟨hw₁, .refl _ _, trivial⟩

private theorem executeAttempt_serves (hbase : σ.Starts s base)
    (hpool : σ.Pooled s base w) (h : σ.Assigned asset key)
    (hw : σ.Working key.attemptId key.taskId w) :
    σ.Serves s base key.attemptId
      (fun _ w' => σ.Reported key.attemptId key.taskId w')
      (executeAttempt σ.blake3 s asset key rounds) w := by
  unfold executeAttempt
  refine .bind (.result (Secures.mono
    (serves_pipeline (prepareClaimed_shares hbase hpool h hw)) ?_ ?_))
  · exact fun receipt w' hreported => .pure hreported
  · exact fun e w' _ => .andThen (markRetryable_serves hbase) fun _ _ _ =>
      .throw trivial

-- ================================================================ the pool

/-- What the claims and the jobs are about. -/
def contract (σ : Site) (s : Session) (workers rounds : Nat) :
    WorkerPool.Contract (pool σ.blake3 s workers rounds)
      MigrationService.World where
  ready x w := ∃ a asset, x.claim.runtime.attemptId = some a
    ∧ s.artifact.plan.assets[x.assetIndex]? = some asset
    ∧ σ.Assigned asset (s.key σ.blake3 x.claim a) ∧ σ.Working a x.claim.id w
  issued a w := w.machine.db.Attempted a
  post x r w := Ends True
    (fun _ w => σ.Reported (x.claim.runtime.attemptId.getD []) x.claim.id w)
    (fun _ _ => True) r w
  drained w := w.machine.db.Drained

theorem Reported.rely (hw : σ.Pooled s base w) (h : σ.Reported a taskId w)
    (hrely : Rely a w w') : σ.Reported a taskId w' := by
  obtain ⟨row, hrow, hid, hkey, task, htask, htask', hruns⟩ := h
  have hattempted : w.machine.db.Attempted a := by
    rw [← hid]
    exact hw.kept.ledger.attempted hrow
  refine ⟨row, (hrely.rows.receipts hattempted row hid).2 hrow, hid, hkey, task, ?_,
    htask', hruns⟩
  rw [hid] at hruns
  exact hrely.rows.tasks hattempted task htask hruns

theorem post_stable {x : QueuedTask} {r : Option (Except Status Bytes)} :
    Stable (σ.shares s base migrationCalls)
      (some ((pool σ.blake3 s workers rounds).name x))
      ((σ.contract s workers rounds).post x r) := by
  intro w₁ w₂ hw₁ _ hrely hr
  match r with
  | none => exact trivial
  | some (.error e) => exact trivial
  | some (.ok line) => exact Reported.rely hw₁ hr (hrely _ rfl)

/-- The job of an item that was claimed. -/
theorem job_safe (hbase : σ.Starts s base) (x : QueuedTask) :
    Triple (σ.shares s base migrationCalls)
      (poolEffects σ.blake3 σ.strerror σ.trouble)
      (some ((pool σ.blake3 s workers rounds).name x))
      ((σ.contract s workers rounds).ready x)
      ((pool σ.blake3 s workers rounds).job x)
      ((σ.contract s workers rounds).post x) := by
  rintro w hpool ⟨a, asset, ha, hasset, hassigned, hw⟩
  have hname : (pool σ.blake3 s workers rounds).name x = a := by
    show x.claim.runtime.attemptId.getD [] = a
    rw [ha]
    rfl
  have hjob : (pool σ.blake3 s workers rounds).job x
      = (executeAttempt σ.blake3 s asset (s.key σ.blake3 x.claim a)
        rounds).program := by
    show (executeClaimedTask σ.blake3 s rounds x).program = _
    unfold executeClaimedTask
    rw [ha, hasset]
  have hserves : σ.Serves s base a (fun _ w' => σ.Reported a x.claim.id w')
      (executeAttempt σ.blake3 s asset (s.key σ.blake3 x.claim a) rounds) w :=
    executeAttempt_serves hbase hpool hassigned hw
  rw [hjob]
  refine Keeps.safe ?_ hpool fun r => post_stable
  rw [hname]
  refine Keeps.mono hserves fun r w' hr => ?_
  show Ends True (fun _ w => σ.Reported (x.claim.runtime.attemptId.getD [])
    x.claim.id w) (fun _ _ => True) r w'
  rw [ha]
  exact hr

-- ================================================================ the claim

/-- Keys are unique, and no task waits for another. -/
theorem Ledger.rowsOk {staged landed : ReceiptRow → Prop} {db : Db}
    (h : σ.Ledger staged landed db) : db.RowsOk where
  keys := h.history.reached.sound.keyed.tasks
  idle row hrow hidle := by
    have howned := h.history.reached.sound.owned.tasks row hrow
    by_contra hsome
    exact hidle (howned.attempt_iff.2 (Option.isSome_iff_ne_none.2 hsome))
  edges := by
    rw [h.free]
    nofun

/-- A receipt is of the task its attempt is of. -/
theorem Ledger.attempt_key {staged landed : ReceiptRow → Prop} {db : Db}
    (h : σ.Ledger staged landed db) {k : Bytes × Bytes} {receipt : ReceiptRow}
    (hmem : (a, k) ∈ db.attempts.map AttemptRow.key)
    (hreceipt : receipt ∈ db.receipts) (hid : receipt.attemptId = a) :
    k = (receipt.planId, receipt.taskId) := by
  have hsound := h.history.reached.sound
  obtain ⟨attempt, hattempt, hsame, hplan, htaskId, -⟩ :=
    hsound.owned.receipts receipt hreceipt
  obtain ⟨claimed, hclaimed, hkey⟩ := List.mem_map.1 hmem
  have hone : attempt = claimed := by
    refine List.inj_on_of_nodup_map hsound.keyed.attempts hattempt hclaimed ?_
    exact hsame.trans (hid.trans (congrArg Prod.fst hkey).symm)
  rw [← hplan, ← htaskId, hone]
  exact (congrArg Prod.snd hkey).symm

/-- A claim that finds no task: none is READY. -/
theorem Ledger.claim_drained {staged landed : ReceiptRow → Prop} {repo repo' : Repo}
    {epoch : Nat} {e : Status} (h : σ.Ledger staged landed repo.committed)
    (hepoch : repo.committed.currentEpoch? σ.artifact.planId = some epoch)
    (htxn : repo.txn = none) (hmemory : repo.memory = none)
    (hrun : (Repository.claimNextReady σ.artifact.planId epoch none :
      RepoM ClaimedTask) repo = (.error e, repo')) (hcode : e.code = .notFound) :
    repo.committed.Drained := by
  obtain ⟨db, txn, busy, faults, memory⟩ := repo
  subst htxn hmemory
  -- the connection is the first of a store
  let store : Store := { Store.opened db with
    writer := if busy then some (1, db) else none }
  have hrepo : store.repo 0 faults = ⟨db, none, busy, faults, none⟩ := by
    cases busy <;> rfl
  have hstep : (store.step 0 (.call (.claimNextReady σ.artifact.planId epoch none))
      faults).1 = .error e := by
    rw [← hrepo] at hrun
    rw [Store.step_eq (.call (.claimNextReady σ.artifact.planId epoch none))
      (answer_run hrun)]
    rfl
  have hnone : db.nextReady? σ.artifact.planId = none :=
    claim_step_notFound (show store.committed.RowsOk from h.rowsOk) hepoch hstep
      hcode
  intro row hrow hready
  refine h.rowsOk.nextReady?_none hnone row.taskId ⟨?_, ?_⟩
  · have hfound := h.rowsOk.task?_of_mem hrow
    rw [h.listed.planId hrow] at hfound
    unfold Db.taskState?
    rw [hfound, Option.map_some, hready]
  · rw [show db.dependencies = [] from h.free]
    nofun

private theorem decode_error (e : Status) : decode s (.error e)
    = if e.code = .notFound then .exhausted else .failed e := rfl

private theorem decode_ok {claim : ClaimedTask} {index : Nat}
    (h : s.taskIds.idxOf? claim.id = some index) :
    decode s (.ok claim) = .item ⟨claim, index⟩ := by
  simp only [decode, h]

/-- What a claim comes to. -/
theorem claim_cases {planId : Bytes} {epoch : Nat} {r : Except Status ClaimedTask}
    (h : poolEffects σ.blake3 σ.strerror σ.trouble none
      (.store (.claimNextReady planId epoch)) w r w') :
    (∃ e, r = .error e ∧ w' = w ∧ (e.code = .internal ∨ ∃ repo repo' : Repo,
      repo.committed = w.machine.db ∧ repo.txn = none ∧ repo.memory = none
        ∧ (Repository.claimNextReady planId epoch none : RepoM ClaimedTask) repo
          = (.error e, repo')))
    ∨ ∃ claim db', r = .ok claim ∧ w' = w.stored db'
      ∧ (Repository.claimNextReady planId epoch none : DbTxn ClaimedTask)
        w.machine.db = .ok (claim, db') := by
  obtain ⟨m, hm, rfl⟩ := h
  rcases hm with heffect | ⟨⟨e, rfl, hinternal⟩, rfl⟩
  · rcases store_cases heffect with ⟨e, rfl, rfl, hfailed⟩ | ⟨a, db', rfl, rfl, hf⟩
    · exact .inl ⟨e, rfl, rfl, .inr hfailed⟩
    · exact .inr ⟨a, db', rfl, rfl, hf⟩
  · exact .inl ⟨e, rfl, rfl, .inl hinternal⟩

/-- The task of a row is one of the plan's, at the index of its asset. -/
theorem Starts.index (hbase : σ.Starts s base) {db : Db} (hlisted : σ.Listed db)
    {row : TaskRow} (hrow : row ∈ db.tasks) : ∃ index asset task,
      s.taskIds.idxOf? row.taskId = some index
        ∧ s.artifact.plan.assets[index]? = some asset
        ∧ taskSpecForPlanAsset σ.blake3 asset = .ok task ∧ row.taskId = task.id := by
  obtain ⟨tasks, htasks, hids⟩ := hbase.ids
  rcases hlisted with hnone | ⟨tasks', htasks', -, hkeys⟩
  · rw [hnone] at hrow
    cases hrow
  cases htasks.unique htasks'
  have hmem : row.key ∈ tasks.map fun t => (σ.artifact.planId, t.id) := by
    rw [← hkeys]
    exact List.mem_map_of_mem hrow
  obtain ⟨named, hnamed, hkey⟩ := List.mem_map.1 hmem
  have hid : row.taskId ∈ s.taskIds := by
    rw [hids, ← (Prod.mk.inj hkey).2]
    exact List.mem_map_of_mem hnamed
  obtain ⟨index, hindex⟩ :=
    Option.isSome_iff_exists.1 (List.isSome_idxOf?.2 hid)
  obtain ⟨hlt, hat, -⟩ := List.idxOf?_eq_some_iff.1 hindex
  have hlt' : index < tasks.length := by
    rw [hids, List.length_map] at hlt
    exact hlt
  have hassets : index < σ.artifact.plan.assets.length := by
    rw [htasks.length_eq]
    exact hlt'
  refine ⟨index, σ.artifact.plan.assets[index], tasks[index], hindex, ?_, ?_, ?_⟩
  · rw [hbase.artifact]
    exact List.getElem?_eq_getElem hassets
  · exact htasks.get hassets hlt'
  · rw [← hat]
    simp only [hids, List.getElem_map]

/-- A claim starts an attempt at a task of the plan. -/
theorem claim_shared (hbase : σ.Starts s base)
    {r : Except Status ClaimedTask} (hpool : σ.Pooled s base w)
    (h : poolEffects σ.blake3 σ.strerror σ.trouble none
      (pool σ.blake3 s workers rounds).claim w r w') :
    σ.Pooled s base w' ∧ Owes none w w'
      ∧ (∀ x, decode s r = .item x → (σ.contract s workers rounds).ready x w'
        ∧ w'.machine.db.Attempted ((pool σ.blake3 s workers rounds).name x)
        ∧ ¬w.machine.db.Attempted ((pool σ.blake3 s workers rounds).name x))
      ∧ (decode s r = .exhausted → w'.machine.db.Drained)
      ∧ ∀ a, w'.machine.db.Attempted a → w.machine.db.Attempted a
        ∨ ∃ x, decode s r = .item x ∧ (pool σ.blake3 s workers rounds).name x = a := by
  have hepoch := hpool.epoch
  rw [← hbase.artifact] at hepoch
  rcases claim_cases h with ⟨e, rfl, rfl, hcause⟩ | ⟨claim, db', rfl, rfl, hrun⟩
  -- it fails: the writer has stopped, or nothing is READY, or the call failed
  · refine ⟨hpool, .refl none _, fun x hx => ?_, fun hx => ?_, fun _ => .inl⟩
    · rw [decode_error] at hx
      split at hx <;> cases hx
    · rw [decode_error] at hx
      rcases hcause with hinternal | ⟨repo, repo', hdb, htxn, hmemory, hfailed⟩
      · rw [if_neg (by rw [hinternal]; nofun)] at hx
        cases hx
      · have hcode : e.code = .notFound := by
          by_contra hno
          rw [if_neg hno] at hx
          cases hx
        rw [hbase.artifact] at hfailed
        rw [← hdb]
        exact Ledger.claim_drained (hdb ▸ hpool.kept.ledger) (hdb ▸ hpool.epoch)
          htxn hmemory hfailed hcode
  -- a task is claimed, under an attempt that is new
  · obtain ⟨a, ha, hclaimed⟩ :=
      Db.claimed_ok hpool.kept.ledger.rowsOk hrun
    have hcalm : Db.Calm (fun _ => False) w.machine.db db' := calm_claim hrun
    have hhistory := hpool.kept.ledger.history.answered
      (.claimNextReady s.artifact.planId s.epoch none) rfl nofun hrun
    obtain ⟨hpool', howes⟩ := hpool.claimed hclaimed hcalm hhistory
    -- it is one of the plan's, for the asset at its index
    obtain ⟨row, hrow, hkey, hruns⟩ := hclaimed.runs
    obtain ⟨index, asset, task, hindex, hasset, htask, hid⟩ :=
      hbase.index hpool'.kept.ledger.listed hrow
    have hsame : row.taskId = claim.id := (Prod.mk.inj hkey).2
    rw [hsame] at hindex hid
    have hdecode := decode_ok hindex
    have hname : (pool σ.blake3 s workers rounds).name ⟨claim, index⟩ = a := by
      show claim.runtime.attemptId.getD [] = a
      rw [ha]
      rfl
    have hassigned : σ.Assigned asset (s.key σ.blake3 claim a) := by
      refine ⟨?_, ⟨task, htask, hid⟩, ?_, rfl⟩
      · rw [← hbase.artifact]
        exact List.mem_of_getElem? hasset
      · exact congrArg FrozenPlanFile.planId hbase.artifact
    -- nothing is known of the attempt but that it is at work
    have hworking : σ.Working a claim.id (w.stored db') := by
      refine ⟨hclaimed.attempted.2 (.inr rfl), fun receipt hreceipt heq => ?_,
        row, hrow, ?_, hruns⟩
      · have hold : receipt ∈ w.machine.db.receipts := by
          rw [← hclaimed.receipts]
          exact hreceipt
        exact hclaimed.fresh (heq ▸ hpool.kept.ledger.attempted hold)
      · rw [hkey, hbase.artifact]
    refine ⟨hpool', howes, fun x hx => ?_, fun hx => ?_, fun b hb => ?_⟩
    · cases hdecode.symm.trans hx
      rw [hname]
      exact ⟨⟨a, asset, ha, hasset, hassigned, hworking⟩,
        hclaimed.attempted.2 (.inr rfl), hclaimed.fresh⟩
    · exact nomatch hdecode.symm.trans hx
    · rcases hclaimed.attempted.1 hb with hold | rfl
      · exact .inl hold
      · exact .inr ⟨⟨claim, index⟩, hdecode, hname⟩

-- ============================================================== every state

/-- The claims and the jobs of the pool get on with each other. -/
theorem pool_shared (hbase : σ.Starts s base) :
    WorkerPool.Shared (pool σ.blake3 s workers rounds)
      (poolEffects σ.blake3 σ.strerror σ.trouble)
      (σ.shares s base migrationCalls) (σ.contract s workers rounds) where
  claim _ _ _ hpool h := claim_shared hbase hpool h
  job x := job_safe hbase x
  ready_stable x := by
    rintro w w' - - hrely ⟨a, asset, ha, hasset, hassigned, hw⟩
    refine ⟨a, asset, ha, hasset, hassigned, hw.rely (hrely a ?_)⟩
    show some (x.claim.runtime.attemptId.getD []) = some a
    rw [ha]
    rfl
  post_stable x r := post_stable
  issued_kept k _ _ _ _ h := h.kept k
  issued_only k _ _ _ _ h := h.only nofun k
  drained_kept _ _ _ _ h := h.drained

/-- In every state of the pool the world is as the protocol has it. -/
theorem pooled (hbase : σ.Starts s base)
    {p : WorkerPool.State (pool σ.blake3 s workers rounds) MigrationService.World}
    (h : WorkerPool.Reachable (pool σ.blake3 s workers rounds)
      (poolEffects σ.blake3 σ.strerror σ.trouble) (.start base) p) :
    σ.Pooled s base p.world :=
  (h.safely (pool_shared hbase) hbase.pooled).inv

section Pools

variable {p : WorkerPool.State (pool σ.blake3 s workers rounds)
  MigrationService.World}

/-- A task that was READY, once the pool has ended without an error: it is
running under an attempt that has a receipt. -/
theorem pool_prepared (hbase : σ.Starts s base)
    (h : WorkerPool.Reachable (pool σ.blake3 s workers rounds)
      (poolEffects σ.blake3 σ.strerror σ.trouble) (.start base) p)
    (hworkers : 0 < workers) (hreturned : p.producer = .returned none)
    (hnone : p.firstError = none) {row : TaskRow}
    (hrow : row ∈ p.world.machine.db.tasks) : row.state ≠ .ready
      ∧ (row ∈ base.db.tasks ∨ ∃ receipt ∈ p.world.machine.db.receipts,
        row.key = (receipt.planId, receipt.taskId)
          ∧ row.Runs receipt.attemptId) := by
  have hshared : WorkerPool.Shared (pool σ.blake3 s workers rounds)
      (poolEffects σ.blake3 σ.strerror σ.trouble)
      (σ.shares s base migrationCalls) (σ.contract s workers rounds) :=
    pool_shared hbase
  have hsafely := h.safely hshared hbase.pooled
  have hinv : σ.Pooled s base p.world := hsafely.inv
  constructor
  · have hdrained : p.world.machine.db.Drained := by
      refine hsafely.drained ?_ hnone
      rw [hreturned]
      rfl
    exact hdrained row hrow
  rcases hinv.since.rows row hrow with hold | ⟨-, a, hmem, hnew⟩
  · exact .inl hold
  -- it was claimed, and its job has ended well
  have hissued := h.issued hshared hbase.pooled
    (show (σ.contract s workers rounds).issued a p.world from
      Db.attempted_iff_key.2 ⟨row.key, hmem⟩)
  obtain ⟨x, hx, hname⟩ := hissued.resolve_left hnew
  have hfinished := (h.orderly.returned hworkers hreturned).mem_iff.2 hx
  obtain ⟨⟨y, r⟩, hy, rfl⟩ := List.mem_map.1 hfinished
  obtain ⟨line, rfl⟩ := h.orderly.outcome.ok hnone hy
  have hreported : σ.Reported (y.claim.runtime.attemptId.getD []) y.claim.id
      p.world := hsafely.finished y (.ok line) hy
  obtain ⟨receipt, hreceipt, hid, -, task, htask, hkey, hruns⟩ := hreported
  have hid' : receipt.attemptId = a := hid.trans hname
  -- the receipt is of that attempt, so the task is this one
  have hrowKey : row.key = (receipt.planId, receipt.taskId) :=
    hinv.kept.ledger.attempt_key hmem hreceipt hid'
  have hthis : task = row :=
    List.inj_on_of_nodup_map hinv.kept.ledger.rowsOk.keys htask hrow
      (hkey.trans hrowKey.symm)
  exact .inr ⟨receipt, hreceipt, hrowKey, hthis ▸ hruns⟩

end Pools

end Site

end PhotoBridge
