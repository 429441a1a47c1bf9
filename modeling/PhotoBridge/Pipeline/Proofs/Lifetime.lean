/-
Migrate and resume, run after run: nothing that could be read before is
lost, every receipt is true, and a task has succeeded only where its final
is there.

What both commands keep (`Kept`) says this in terms of rows and files;
`Kept.unharmed` says it in those of the two roots and of what can be read
from the database. That it is kept is known of resume by itself
(`Kept.resumes`) and of migrate up to its pool and in every state of the
pool (`Kept.reaches`); the rest is an induction over the runs.

That there are such runs is shown by computing some: `simulateMigrate` and
`simulateResume` answer every call as it is answered where nothing fails.
-/
import PhotoBridge.Pipeline.Proofs.Fates
import PhotoBridge.Pipeline.Proofs.Pool

namespace PhotoBridge

open Concurrent JsonText MigrationService

namespace Site

variable {σ : Site} {w w' : Machine} {d : Disk} {db : Db}
  {staged landed : ReceiptRow → Prop} {row : ReceiptRow}
  {asset : MinimalPlanAsset} {task : TaskSpec}

-- =============================================================== the files

/-- What was found under a path is found there. -/
theorem Intact.lookUp (h : σ.Intact d) {root : Root} {path : Bytes} {index : Nat}
    (hlook : σ.start.disk.lookUp root path = some index) :
    d.lookUp root path = some index := by
  cases root with
  | target => exact h.targets path index hlook
  | source =>
      cases hentry : σ.start.disk.sources path with
      | absent =>
          simp only [Disk.lookUp, hentry] at hlook
          cases hlook
      | file i =>
          simp only [Disk.lookUp, hentry] at hlook
          simp only [Disk.lookUp, h.sources, hentry]
          exact hlook
      | target name =>
          simp only [Disk.lookUp, hentry] at hlook
          simp only [Disk.lookUp, h.sources, hentry]
          exact h.targets name index hlook

/-- A file that is intact has the version it had. -/
theorem Intact.version? (h : σ.Intact d) {root : Root} {path : Bytes}
    {v : FileVersion} (hv : σ.start.disk.version? root path = some v) :
    d.version? root path = some v := by
  obtain ⟨index, f, hlook, hf, rfl⟩ := Disk.version?_eq_some.1 hv
  obtain ⟨g, hg, hsame⟩ := h.files index f hf
  exact Disk.version?_eq_some.2 ⟨index, g, h.lookUp hlook, hg, hsame⟩

-- ============================================================ the receipts

/-- A receipt is about one asset. -/
theorem Ledger.asset_unique (h : σ.Ledger staged landed db)
    (hrow : row ∈ db.receipts) (hasset : asset ∈ σ.artifact.plan.assets)
    (htask : taskSpecForPlanAsset σ.blake3 asset = .ok task)
    (hid : row.taskId = task.id) {other : MinimalPlanAsset}
    (hother : other ∈ σ.artifact.plan.assets) (hrecords : σ.Records other row) :
    asset = other := by
  obtain ⟨named, hnamed, hsame⟩ := hrecords.task
  have hsound := h.history.reached.sound
  obtain ⟨attempt, hattempt, -⟩ := hsound.owned.receipts row hrow
  rcases h.listed with hnone | ⟨tasks, htasks, hnodup, -⟩
  · -- a receipt is of an attempt, and that is at a task
    have hhas := hsound.keyed.attempt_task attempt hattempt
    unfold Db.hasTask at hhas
    rw [hnone] at hhas
    cases hhas
  · exact RecoveryService.tasksOf_inj htasks hnodup hasset hother htask hnamed
      (hid.symm.trans hsame)

/-- The receipt of a task says what is true of its asset. -/
theorem Ledger.records (h : σ.Ledger staged landed db) (hrow : row ∈ db.receipts)
    (hasset : asset ∈ σ.artifact.plan.assets)
    (htask : taskSpecForPlanAsset σ.blake3 asset = .ok task)
    (hid : row.taskId = task.id) : σ.Records asset row := by
  obtain ⟨other, hother, hrecords⟩ := h.recorded row hrow
  rw [h.asset_unique hrow hasset htask hid hother hrecords]
  exact hrecords

/-- A receipt of the ledger attests its asset. -/
theorem Ledger.attests (h : σ.Ledger staged landed db)
    (hasset : asset ∈ σ.artifact.plan.assets)
    (htask : taskSpecForPlanAsset σ.blake3 asset = .ok task) {attemptId : Bytes}
    {receipt : VerifiedReceipt}
    (hreceipt : σ.HasReceipt db task.id attemptId receipt) :
    σ.Attests asset receipt := by
  obtain ⟨_, -, hread⟩ := liftCheck_bind_ok.1 hreceipt
  obtain ⟨⟨row, identity, hfound, -, hdecode, rfl⟩, -⟩ :=
    readVerifiedReceiptStatement_ok.1 hread
  have hat : row.isAt σ.artifact.planId task.id attemptId = true :=
    List.find?_some hfound
  simp only [ReceiptRow.isAt, Bool.and_eq_true, beq_iff_eq] at hat
  have hrecords := h.records (List.mem_of_find?_eq_some hfound) hasset htask
    hat.1.2
  rw [hrecords.identity, decodeIdentity_encodeIdentity] at hdecode
  obtain ⟨source, hfrozen, htarget, hsource⟩ := hrecords.digests
  exact ⟨hrecords.finalPath, congrArg some (Except.ok.inj hdecode).symm,
    hrecords.size, source, hfrozen, htarget, congrArg some hsource⟩

/-- Every receipt can be read, or another with its key. -/
theorem Ledger.hasReceipt (h : σ.Ledger staged landed db)
    (hrow : row ∈ db.receipts) (hplan : row.planId = σ.artifact.planId) :
    ∃ found ∈ db.receipts, (found.planId = row.planId
        ∧ found.taskId = row.taskId ∧ found.attemptId = row.attemptId)
      ∧ ∃ identity,
        σ.HasReceipt db row.taskId row.attemptId (found.toReceipt identity) := by
  have hsome : (db.receipt? row.planId row.taskId row.attemptId).isSome = true := by
    unfold Db.receipt?
    rw [List.find?_isSome]
    refine ⟨row, hrow, ?_⟩
    simp only [ReceiptRow.isAt, beq_self_eq_true, Bool.and_self]
  obtain ⟨found, hfound⟩ := Option.isSome_iff_exists.1 hsome
  obtain ⟨hepoch, ⟨identity, hidentity⟩, -⟩ :=
    h.history.reached.named.receipts found (List.mem_of_find?_eq_some hfound)
  have hdecode : decodeIdentity found.sourceIdentity = .ok identity := by
    rw [hidentity, decodeIdentity_encodeIdentity]
  have hat : found.isAt row.planId row.taskId row.attemptId = true :=
    List.find?_some hfound
  simp only [ReceiptRow.isAt, Bool.and_eq_true, beq_iff_eq] at hat
  refine ⟨found, List.mem_of_find?_eq_some hfound, ⟨hat.1.1, hat.1.2, hat.2⟩,
    identity, ?_⟩
  unfold HasReceipt
  rw [← hplan]
  exact liftCheck_bind_ok.2 ⟨(), h.checked row hrow, readVerifiedReceiptStatement_ok.2
    ⟨⟨found, identity, hfound, hepoch, hdecode, rfl⟩, rfl⟩⟩

-- ========================================================== what it is for

/-- A final that has landed agrees with the asset its receipt records. -/
theorem Records.agrees (h : σ.Records asset row) (hlanded : σ.Landed d row) :
    ∃ final, d.version? .target asset.targetPath.bytes = some final
      ∧ σ.Agrees asset final := by
  obtain ⟨final, hfinal, hsize, hdigest⟩ := hlanded
  obtain ⟨source, hfrozen, htarget, -⟩ := h.digests
  rw [h.finalPath] at hfinal
  refine ⟨final, hfinal, source, hfrozen, ?_, hdigest.trans htarget⟩
  rw [hsize, h.size, hfrozen.2]

/-- What is kept is what is promised. -/
theorem Kept.unharmed (h : σ.Kept w) : σ.Unharmed w where
  kept _ _ _ hv := h.intact.version? hv
  added name index hnone hindex := (h.intact.added name index hnone hindex).2
  attested _ hasset _ _ _ htask hreceipt := h.ledger.attests hasset htask hreceipt
  succeeded asset hasset task htask hstate := by
    obtain ⟨row, hrow, hsucceeded⟩ := Option.map_eq_some_iff.1 hstate
    obtain ⟨hmem, hplan, hid⟩ := Db.task?_key hrow
    obtain ⟨receipt, hreceipt, hkey, hlanded⟩ :=
      h.ledger.succeeded row hmem hsucceeded
    obtain ⟨hplan', hid'⟩ := Prod.mk.inj hkey
    obtain ⟨found, -, -, identity, hfound⟩ :=
      h.ledger.hasReceipt hreceipt (hplan'.trans hplan)
    have htaskId : receipt.taskId = task.id := hid'.trans hid
    rw [htaskId] at hfound
    exact ⟨⟨_, _, hfound⟩,
      (h.ledger.records hreceipt hasset htask htaskId).agrees hlanded⟩

-- ============================================================== every run

/-- Starting again keeps everything. -/
theorem Kept.restarted (h : σ.Kept w) : σ.Kept w.restarted :=
  h.carried rfl rfl (.of_files rfl rfl) rfl

/-- What a run of migrate can have reached. -/
theorem Kept.migrates {i : Invocation} (hw : σ.Kept w)
    (hrun : σ.Migrates i w w') : σ.Kept w' := by
  obtain ⟨-, hplan, hreaches⟩ := hrun
  have hbegin : σ.Ensured (fun s w' => σ.Starts s w') (fun _ _ => True)
      (begin σ.codec σ.blake3 i.layout i.inputPath i.workers i.dbBatchSize)
      w.restarted :=
    begin_ensured hw.restarted rfl hplan
  have hpools : ∀ s p, i.Pools σ.codec σ.blake3 σ.strerror σ.trouble w.restarted s p →
      σ.Kept p.world.machine := by
    rintro s p ⟨started, hreturns, hreach⟩
    have hstarts : σ.Starts s started :=
      (Keeps.returns hbegin hw.restarted hreturns).2
    exact (pooled hstarts hreach).kept
  cases hreaches with
  | begins h => exact Keeps.visits hbegin hw.restarted h
  | pools h => exact hpools _ _ h
  | prints h hreturned =>
      exact (hpools _ _ h).carried rfl rfl (.of_files rfl rfl) rfl

/-- A run that has a pool has workers. -/
theorem begin_workers {codec : Codec} {blake3 : Bytes → Digest}
    {effects : Effects migrationCalls Machine} {layout : WorkspaceLayout}
    {inputPath : Bytes} {workers dbBatchSize : Nat} {s : Session}
    (h : Returns effects
      (begin codec blake3 layout inputPath workers dbBatchSize).program w
      (some (.ok s)) w') : 0 < workers := by
  by_contra hno
  unfold begin at h
  rw [if_pos (.inl (Nat.eq_zero_of_not_pos hno))] at h
  cases h

/-- A pool that has ended without an error leaves migrate nothing to do. -/
theorem Pooled.migrated {s : Session} {base : Machine}
    {v : MigrationService.World} (hpool : σ.Pooled s base v)
    (hbase : σ.Starts s base) (hrows : ∀ row ∈ v.machine.db.tasks,
      row.state ≠ .ready ∧ (row ∈ base.db.tasks
        ∨ ∃ receipt ∈ v.machine.db.receipts,
          row.key = (receipt.planId, receipt.taskId)
            ∧ row.Runs receipt.attemptId)) : σ.Migrated v.machine := by
  intro asset hasset task htask
  have hledger := hpool.kept.ledger
  constructor
  · intro hready
    obtain ⟨row, hrow, hstate⟩ := Option.map_eq_some_iff.1 hready
    exact (hrows row (Db.task?_key hrow).1).1 hstate
  · intro hrunning
    obtain ⟨row, hrow, hstate⟩ := Option.map_eq_some_iff.1 hrunning
    obtain ⟨hmem, hplan, hid⟩ := Db.task?_key hrow
    obtain ⟨receipt, hreceipt, hkey, hruns⟩ := (hrows row hmem).2.resolve_left
      fun hold => hbase.idle row hold hstate
    obtain ⟨hplan', hid'⟩ := Prod.mk.inj hkey
    obtain ⟨found, hfound, ⟨hsame, hsame', hsameId⟩, identity, hread⟩ :=
      hledger.hasReceipt hreceipt (hplan'.symm.trans hplan)
    rw [← hid', hid] at hread
    have htaskId : found.taskId = task.id := hsame'.trans (hid'.symm.trans hid)
    have hpending : v.machine.db.Pending found := by
      refine ⟨row, hmem, ?_, hsameId ▸ hruns⟩
      rw [hkey, hsame, hsame']
    obtain ⟨⟨index, f, hindex, hf, hsynced, other, hother, hrecords, hcopies⟩, -⟩ :=
      hpool.held found hfound hpending
    rw [← hledger.asset_unique hfound hasset htask htaskId hother hrecords]
      at hcopies
    exact ⟨_, _, hread, hledger.attests hasset htask hread, index, f, hindex, hf,
      hsynced, hcopies⟩

/-- Everything is kept in every state that is reached. -/
theorem Reached.kept (h : σ.Reached w) : σ.Kept w := by
  induction h with
  | start => exact .start σ
  | migrates _ hrun ih => exact ih.migrates hrun
  | resumes _ hrun ih => exact ih.resumes hrun

/-- However often the two commands are run, and wherever they are killed,
nothing is lost and nothing is reported that is not so. -/
theorem reached_unharmed (h : σ.Reached w) : σ.Unharmed w := h.kept.unharmed

/-- A run of migrate that returns OK has prepared every task that was
READY. -/
theorem migrate_prepares {i : Invocation} (h : σ.Reached w)
    (hplan : σ.PlanAt i.inputPath)
    (hrun : i.Returns σ.codec σ.blake3 σ.strerror σ.trouble w.restarted (.ok ())
      w') : σ.Migrated w' := by
  have hw := h.kept.restarted
  have hbegin : σ.Ensured (fun s w' => σ.Starts s w') (fun _ _ => True)
      (begin σ.codec σ.blake3 i.layout i.inputPath i.workers i.dbBatchSize)
      w.restarted := begin_ensured hw rfl hplan
  generalize hr : (.ok () : Except Status Unit) = r at hrun
  cases hrun with
  | refused _ => cases hr
  | @pooled s p error hpools hreturned =>
      obtain ⟨started, hreturns, hreach⟩ := hpools
      have hstarts : σ.Starts s started := (Keeps.returns hbegin hw hreturns).2
      have hnone : error = none ∧ p.firstError = none := by
        unfold MigrationService.result at hr
        split at hr
        · cases hr
        · cases hr
        · next hfirst => exact ⟨rfl, hfirst⟩
      obtain ⟨rfl, hfirst⟩ := hnone
      have hpool : σ.Pooled s started p.world := pooled hstarts hreach
      have hmigrated := hpool.migrated hstarts fun row hrow =>
        pool_prepared hstarts hreach (begin_workers hreturns) hreturned hfirst hrow
      exact hmigrated

end Site

-- ============================================== runs in which nothing fails

namespace MigrationService

variable (blake3 : Bytes → Digest) (strerror : Nat → Bytes)

/-- A call that does not fail. -/
def simulate : (c : MigrationCall) → Machine → migrationCalls.Answer c × Machine
  | .pipeline c, w => w.simulate strerror c
  | .store c, w =>
      let p := (c.run blake3 : RepoM c.Value) ⟨w.db, none, false, [], none⟩
      (p.1, { w with db := p.2.committed })
  | .startWriter _ _, w => (.ok (), w)

/-- A call of an attempt that does not fail. -/
def simulateOn (attemptId : Bytes) (c : MigrationCall)
    (w : MigrationService.World) :
    migrationCalls.Answer c × MigrationService.World :=
  let p := simulate blake3 strerror c (w.view attemptId)
  (p.1, w.put attemptId p.2)

/-- The calls that are answered as they should be. -/
def MigrationCall.Simulated : MigrationCall → Machine → Prop
  | .pipeline c, w => c.Simulated w
  | _, _ => True

instance (c : MigrationCall) (w : Machine) : Decidable (c.Simulated w) :=
  match c with
  | .pipeline c => inferInstanceAs (Decidable (c.Simulated w))
  | .store _ => .isTrue trivial
  | .startWriter _ _ => .isTrue trivial

/-- The same of a call of an attempt. -/
abbrev simulatedOn (attemptId : Bytes) (c : MigrationCall)
    (w : MigrationService.World) : Prop :=
  c.Simulated (w.view attemptId)

variable {blake3 strerror} {trouble : Trouble}

/-- Each answer is one of those there can be. -/
theorem simulate_effects (c : MigrationCall) (w : Machine) (h : c.Simulated w) :
    migrationEffects blake3 strerror trouble c w
      (simulate blake3 strerror c w).1 (simulate blake3 strerror c w).2 := by
  cases c with
  | pipeline c => exact Machine.simulate_effects c w h
  | store c =>
      exact ⟨w.disk, Disk.disturbed_refl _ _, ⟨w.db, none, false, [], none⟩, rfl,
        rfl, rfl, .inr ⟨rfl, rfl⟩, rfl, rfl⟩
  | startWriter path batchSize =>
      exact ⟨w.disk, Disk.disturbed_refl _ _, .inl rfl, rfl⟩

private theorem simulateOn_effects (attemptId : Bytes) (c : MigrationCall)
    (w : MigrationService.World) (h : simulatedOn attemptId c w) :
    poolEffects blake3 strerror trouble (some attemptId) c w
      (simulateOn blake3 strerror attemptId c w).1
      (simulateOn blake3 strerror attemptId c w).2 :=
  ⟨_, .inl (simulate_effects c _ h), rfl⟩

variable (blake3) in
/-- What `begin` does with the plan it has read. -/
def beginWith (layout : WorkspaceLayout) (inputPath : Bytes) (dbBatchSize : Nat)
    (artifact : FrozenPlanFile) : MigrationM Session := do
  pipeline (acquireLock (executionLockPath layout artifact.planId))
  pipeline (openDatabase layout.database)
  let taskCount ← store (.materializePlan artifact inputPath)
  openSession blake3 layout dbBatchSize artifact taskCount

private theorem begin_returns {codec : Codec} {i : Invocation} {bytes : Bytes}
    {artifact : FrozenPlanFile} {w w' : Machine}
    {r : Option (Except Status Session)} (hworkers : 0 < i.workers ∧ i.workers ≤ 8)
    (hbatch : 0 < i.dbBatchSize ∧ i.dbBatchSize ≤ 16)
    (hfile : w.planFiles i.inputPath = some bytes)
    (hread : readFrozenPlan codec blake3 bytes = .ok artifact)
    (hassets : artifact.plan.assets ≠ [])
    (h : Returns (migrationEffects blake3 strerror trouble)
      (beginWith blake3 i.layout i.inputPath i.dbBatchSize artifact).program
      w r w') :
    Returns (migrationEffects blake3 strerror trouble)
      (begin codec blake3 i.layout i.inputPath i.workers i.dbBatchSize).program
      w r w' := by
  have hbytes : migrationEffects blake3 strerror trouble
      (.pipeline (.readPlanFile i.inputPath)) w (.ok bytes) w := by
    refine ⟨_, Disk.disturbed_refl _ _, .inl ?_, rfl⟩
    show Except.ok bytes = w.readPlanFile i.inputPath
    unfold Machine.readPlanFile
    rw [hfile]
  unfold begin
  rw [if_neg (by omega), if_neg (by omega)]
  refine .call hbytes ?_
  show Returns _ (Attempt.ofExcept (readFrozenPlan codec blake3 bytes)
    >>= fun artifact => if artifact.plan.assets = [] then _ else _ :
      MigrationM Session).program _ _ _
  rw [hread]
  show Returns _ (if artifact.plan.assets = [] then _ else _ :
    MigrationM Session).program _ _ _
  rw [if_neg hassets]
  exact h

end MigrationService

namespace RecoveryService

variable {codec : Codec} {blake3 : Bytes → Digest} {strerror : Nat → Bytes}
  {trouble : Trouble}

variable (codec blake3) in
/-- What `Execute` does with the plan it has read. -/
def executeWith (layout : WorkspaceLayout) (rounds : Nat)
    (artifact : FrozenPlanFile) : PipelineM Unit := do
  acquireLock (executionLockPath layout artifact.planId)
  openDatabase layout.database
  let running ← runningAssets blake3 artifact.planId artifact.plan.assets
  recoverRunning codec blake3 artifact rounds running

theorem execute_returns {layout : WorkspaceLayout} {inputPath bytes : Bytes}
    {rounds : Nat} {artifact : FrozenPlanFile} {w w' : Machine}
    {r : Option (Except Status Unit)}
    (hfile : w.planFiles inputPath = some bytes)
    (hread : readFrozenPlan codec blake3 bytes = .ok artifact)
    (hassets : artifact.plan.assets ≠ [])
    (h : Returns (pipelineEffects strerror blake3 trouble)
      (executeWith codec blake3 layout rounds artifact).program w r w') :
    Returns (pipelineEffects strerror blake3 trouble)
      (execute codec blake3 layout inputPath rounds).program w r w' := by
  have hbytes : pipelineEffects strerror blake3 trouble
      (.readPlanFile inputPath) w (.ok bytes) w := by
    refine ⟨_, Disk.disturbed_refl _ _, .inl ?_, rfl⟩
    show Except.ok bytes = w.readPlanFile inputPath
    unfold Machine.readPlanFile
    rw [hfile]
  unfold execute
  refine .call hbytes ?_
  show Returns _ (Attempt.ofExcept (readFrozenPlan codec blake3 bytes)
    >>= fun artifact => if artifact.plan.assets = [] then _ else _ :
      PipelineM Unit).program _ _ _
  rw [hread]
  show Returns _ (if artifact.plan.assets = [] then _ else _ :
    PipelineM Unit).program _ _ _
  rw [if_neg hassets]
  exact h

end RecoveryService

namespace Site

variable (σ : Site)

/-- What the pool of a run is started with. -/
def simulateBegin (i : Invocation) (w : Machine) :
    Option (Except Status Session) × Machine :=
  (beginWith σ.blake3 i.layout i.inputPath i.dbBatchSize
    σ.artifact).program.eval (simulate σ.blake3 σ.strerror) w.restarted

def simulateClaim (s : Session) (w : Machine) : Except Status ClaimedTask × Machine :=
  simulate σ.blake3 σ.strerror
    (.store (.claimNextReady s.artifact.planId s.epoch)) w

/-- What the job of an item leaves. -/
def simulateJob (i : Invocation) (s : Session) (x : QueuedTask) (w : Machine) :
    Option Machine :=
  if ((pool σ.blake3 s i.workers i.rounds).job x).Along
      (simulatedOn ((pool σ.blake3 s i.workers i.rounds).name x))
      (simulateOn σ.blake3 σ.strerror
        ((pool σ.blake3 s i.workers i.rounds).name x))
      (MigrationService.World.start w) then
    some (((pool σ.blake3 s i.workers i.rounds).job x).eval
      (simulateOn σ.blake3 σ.strerror
        ((pool σ.blake3 s i.workers i.rounds).name x))
      (MigrationService.World.start w)).2.machine
  else none

/-- A run of migrate up to the end of its first job, if nothing fails. -/
def simulateMigrate (i : Invocation) (w : Machine) : Option Machine :=
  if (beginWith σ.blake3 i.layout i.inputPath i.dbBatchSize
      σ.artifact).program.Along MigrationCall.Simulated
      (simulate σ.blake3 σ.strerror) w.restarted then
    ((σ.simulateBegin i w).1.bind (·.toOption)).bind fun s =>
      match decode s (σ.simulateClaim s (σ.simulateBegin i w).2).1 with
      | .item x =>
          σ.simulateJob i s x (σ.simulateClaim s (σ.simulateBegin i w).2).2
      | _ => none
  else none

/-- A run of resume to its end, if nothing fails. -/
def simulateResume (rounds : Nat) (w : Machine) : Option Machine :=
  if (RecoveryService.executeWith σ.codec σ.blake3 σ.layout rounds
      σ.artifact).program.Along PipelineCall.Simulated
      (fun c w => w.simulate σ.strerror c) w.restarted then
    some ((RecoveryService.executeWith σ.codec σ.blake3 σ.layout rounds
      σ.artifact).program.eval (fun c w => w.simulate σ.strerror c)
        w.restarted).2
  else none

variable {σ}

private theorem toOption_bind {ε α : Type} {r : Option (Except ε α)} {a : α}
    (h : r.bind (·.toOption) = some a) : r = some (.ok a) := by
  match r with
  | none => cases h
  | some (.error e) => cases h
  | some (.ok b) =>
      cases h
      rfl

/-- It is a run of migrate that is killed there. -/
theorem Kept.simulateMigrate {i : Invocation} (hw : σ.Kept w)
    (hlayout : i.layout = σ.layout) (hplan : σ.PlanAt i.inputPath)
    (hworkers : 0 < i.workers ∧ i.workers ≤ 8)
    (hbatch : 0 < i.dbBatchSize ∧ i.dbBatchSize ≤ 16)
    (hassets : σ.artifact.plan.assets ≠ [])
    (h : σ.simulateMigrate i w = some w') : σ.Migrates i w w' := by
  refine ⟨hlayout, hplan, ?_⟩
  obtain ⟨bytes, hfile, hread⟩ := hplan
  have hfile' : w.restarted.planFiles i.inputPath = some bytes := by
    show w.planFiles i.inputPath = some bytes
    rw [hw.planFiles]
    exact hfile
  unfold Site.simulateMigrate at h
  split at h
  case isFalse => cases h
  case isTrue halong =>
  obtain ⟨s, hs, h⟩ := Option.bind_eq_some_iff.1 h
  have hbegun : Returns (migrationEffects σ.blake3 σ.strerror σ.trouble)
      (beginWith σ.blake3 i.layout i.inputPath i.dbBatchSize σ.artifact).program
      w.restarted (σ.simulateBegin i w).1 (σ.simulateBegin i w).2 :=
    halong.returns simulate_effects
  rw [toOption_bind hs] at hbegun
  generalize (σ.simulateBegin i w).2 = started at hbegun h
  split at h
  case h_2 => cases h
  case h_1 x hdecoded =>
    have hitem : (pool σ.blake3 s i.workers i.rounds).decode
        (σ.simulateClaim s started).1 = .item x := hdecoded
    have hclaim : poolEffects σ.blake3 σ.strerror σ.trouble none
        (pool σ.blake3 s i.workers i.rounds).claim (.start started)
        (σ.simulateClaim s started).1 (.start (σ.simulateClaim s started).2) :=
      ⟨_, .inl (simulate_effects _ _ trivial), rfl⟩
    obtain ⟨p, hreach, hpc, hworld⟩ :=
      WorkerPool.Reachable.first ⟨0, hworkers.1⟩ (Nat.succ_pos 7) hclaim hitem
    unfold simulateJob at h
    split at h
    case isFalse => cases h
    case isTrue hjob =>
      cases h
      obtain ⟨r, world, hruns, hend⟩ : ∃ r world, Returns
            (poolEffects σ.blake3 σ.strerror σ.trouble
              (some ((pool σ.blake3 s i.workers i.rounds).name x)))
            ((pool σ.blake3 s i.workers i.rounds).job x)
            (.start (σ.simulateClaim s started).2) r world
          ∧ world.machine = _ := ⟨_, _, hjob.returns (simulateOn_effects _), rfl⟩
      rw [← hworld] at hruns
      rw [← hend]
      exact .pools ⟨_, begin_returns hworkers hbatch hfile' hread hassets hbegun,
        hreach.works hpc hruns⟩

/-- It is a run of resume. -/
theorem Kept.simulateResume {inputPath : Bytes} {rounds : Nat} (hw : σ.Kept w)
    (hplan : σ.PlanAt inputPath) (hassets : σ.artifact.plan.assets ≠ [])
    (h : σ.simulateResume rounds w = some w') :
    σ.Resumes inputPath rounds w w' := by
  refine ⟨hplan, ?_⟩
  obtain ⟨bytes, hfile, hread⟩ := hplan
  have hfile' : w.restarted.planFiles inputPath = some bytes := by
    show w.planFiles inputPath = some bytes
    rw [hw.planFiles]
    exact hfile
  unfold Site.simulateResume at h
  split at h
  case isFalse => cases h
  case isTrue halong =>
    cases h
    have hruns : Returns (pipelineEffects σ.strerror σ.blake3 σ.trouble)
        (RecoveryService.executeWith σ.codec σ.blake3 σ.layout rounds
          σ.artifact).program w.restarted _ _ :=
      halong.returns Machine.simulate_effects
    exact (RecoveryService.execute_returns hfile' hread hassets hruns).visits

-- =========================================================== two photos

open RecoveryService

/-- No target of the album is named like a temp. -/
theorem album_generated : ∀ asset ∈ interruptedPlan.assets, ∀ taskId attemptId,
    asset.targetPath.bytes
      ≠ tempNameFor VerifyService.lastBytes (text "plan") taskId attemptId := by
  intro asset hasset taskId attemptId heq
  have hhead := congrArg List.head? heq
  rcases mem_interrupted hasset with rfl | rfl
  · cases hhead
  · cases hhead

/-- No source of the album is a target. -/
theorem album_settled : ∀ asset ∈ interruptedPlan.assets, ∀ name,
    interruptedDisk.sources asset.sourcePath.bytes = .target name →
      interruptedDisk.targets name ≠ none := by
  intro asset hasset name hentry
  rcases mem_interrupted hasset with rfl | rfl
  · cases hentry
  · cases hentry

/-- The database before there is a plan. -/
def albumDb : Db := { Db.empty with
  manifests := [⟨text "manifest", text "/source"⟩] }

/-- There is no plan before the first run. -/
theorem albumDb_fresh : albumDb.Fresh := ⟨rfl, rfl, rfl, rfl, rfl⟩

/-- The workspace before the accepted plan of both photos. -/
def album : Site where
  strerror _ := []
  blake3 := VerifyService.lastBytes
  codec := utf8Strict
  layout := ⟨text "/w", text "/w/db", [], [], [], [], []⟩
  fails := False
  start := ⟨interruptedDisk, albumDb,
    fun _ => some (VerifyService.photosBytes [attic, shore]), []⟩
  artifact := VerifyService.photosFile [attic, shore]
  sound := interrupted_sound
  fresh := albumDb_fresh
  generated := album_generated
  settled := album_settled

def albumRun : Invocation := ⟨album.layout, text "plan.jsonl", 2, 4, 9⟩

/-- Migrate is killed after one job, resume is run to its end, and migrate
is killed after one job again. -/
def albumEnd : Option Machine :=
  (album.simulateMigrate albumRun album.start).bind fun w =>
    (album.simulateResume 9 w).bind (album.simulateMigrate albumRun)

/-- The file of the plan is there, and is read. -/
theorem album_read : album.PlanAt albumRun.inputPath :=
  ⟨_, rfl, interrupted_read⟩

private theorem album_nonempty : album.artifact.plan.assets ≠ [] := by
  show interruptedPlan.assets ≠ []
  rw [interrupted_assets]
  exact List.cons_ne_nil _ _

/-- The task of the first photo has succeeded, that of the second has been
prepared. -/
def albumDone (w : Machine) : Bool :=
  w.db.taskState? (text "plan") (photoTask attic).id == some .succeeded
    && w.db.taskState? (text "plan") (photoTask shore).id == some .running
    && w.db.receipts.length == 2 && (w.disk.targets attic.targetPath.bytes).isSome

/-- The second migration ends with a task that has SUCCEEDED, a temp and
two receipts. -/
theorem albumEnd_done : albumEnd.any albumDone = true := by decide +kernel

/-- It leaves a final, a temp and their receipts, and nothing is harmed. -/
theorem reached_unharmed_album : ∃ w, album.Reached w ∧ albumDone w = true
    ∧ album.Unharmed w := by
  obtain ⟨w, hend, hdone⟩ := (Option.any_eq_true _ _).1 albumEnd_done
  obtain ⟨w₁, h₁, hrest⟩ := Option.bind_eq_some_iff.1 hend
  obtain ⟨w₂, h₂, h₃⟩ := Option.bind_eq_some_iff.1 hrest
  have hworkers : 0 < albumRun.workers ∧ albumRun.workers ≤ 8 := by decide
  have hbatch : 0 < albumRun.dbBatchSize ∧ albumRun.dbBatchSize ≤ 16 := by decide
  have hreached₁ : album.Reached w₁ := .migrates .start
    ((Kept.start album).simulateMigrate rfl album_read hworkers hbatch
      album_nonempty h₁)
  have hreached₂ : album.Reached w₂ := .resumes hreached₁
    (hreached₁.kept.simulateResume album_read album_nonempty h₂)
  have hreached : album.Reached w := .migrates hreached₂
    (hreached₂.kept.simulateMigrate rfl album_read hworkers hbatch
      album_nonempty h₃)
  exact ⟨w, hreached, hdone, reached_unharmed hreached⟩

end Site

end PhotoBridge
