/-
What migrate does before it starts its pool keeps what there is, and
leaves the tasks of the plan for the pool: none is running, and the epoch
is a new one.

The functions of the pipeline among its calls are the ones resume makes,
so what looks there looks here (`secured_pipeline`). The database's
operations that only migrate uses are atomic like the others
(`storeCall_atomic`).
-/
import PhotoBridge.Pipeline.Proofs.ResumeKeeps
import PhotoBridge.Pipeline.Proofs.Turns

namespace PhotoBridge

open Concurrent JsonText Transaction MigrationService

-- ================================================================ the store

/-- Every operation does what its text says or nothing. -/
theorem storeCall_atomic (blake3 : Bytes → Digest) (c : StoreCall) :
    Session.Atomic (· = none) (c.run blake3 : RepoM c.Value)
      (c.run blake3 : DbTxn c.Value) := by
  cases c with
  | materializePlan artifact path =>
      exact atomic_require fun _ =>
        .atomically (realises_materializePlanBody artifact path)
  | readTaskStateCounts p =>
      have hread := Session.Atomic.bind_select (I := fun m : BatchState => m = none)
        (Status.sqlite "read task state summary")
        (fun db : Db => TaskState.all.map (db.stateCount p)) fun counts =>
          Session.Atomic.pure (φ := Bytes) counts
      rw [bind_pure, bind_pure] at hread
      exact hread
  | setReady p t => exact setReady_atomic p t
  | claimNextReady p e =>
      exact atomic_check fun _ _ => atomic_check fun _ _ =>
        .atomically (realises_claimNextReadyBody p e none)
  | markRetryable p t e a error =>
      exact atomic_check fun _ _ => atomic_check fun _ _ =>
        atomic_require fun _ => atomic_joinOrOwn
          (realises_finishTaskBody p t e a .retryable (some error) none)

namespace Site

variable {σ : Site} {w w' : Machine} {db db' : Db}
  {staged landed : ReceiptRow → Prop}

/-- None of them is a receipt, and none ends a task well. -/
theorem Ledger.store {c : StoreCall} {a : c.Value}
    (h : σ.Ledger staged landed db)
    (hplan : ∀ artifact path, c = .materializePlan artifact path →
      artifact = σ.artifact)
    (hrun : (c.run σ.blake3 : DbTxn c.Value) db = .ok (a, db')) :
    σ.Ledger staged landed db' := by
  cases c with
  | materializePlan artifact path =>
      obtain ⟨-, hrun⟩ := require_bind_ok.1 hrun
      cases hplan artifact path rfl
      exact h.materialize hrun
  | readTaskStateCounts p =>
      obtain ⟨-, rfl⟩ := select_ok.1 hrun
      exact h
  | setReady p t =>
      have hcalm : Db.Calm (fun _ => False) db db' := calm_setReady hrun
      exact h.calm hcalm (h.history.answered (.setReady p t) rfl nofun hrun)
        fun _ => False.elim
  | claimNextReady p e =>
      have hcalm : Db.Calm (fun _ => False) db db' := calm_claim hrun
      exact h.calm hcalm
        (h.history.answered (.claimNextReady p e none) rfl nofun hrun)
        fun _ => False.elim
  | markRetryable p t e id error =>
      have hcalm : Db.Calm (fun _ => False) db db' := calm_markRetryable hrun
      exact h.calm hcalm
        (h.history.answered (.markRetryable p t e id error) rfl nofun hrun)
        fun _ => False.elim

-- ================================================================== rules

/-- What the calls of a run of migrate do, which nobody disturbs. -/
abbrev commands (σ : Site) : Effects migrationCalls Machine :=
  migrationEffects σ.blake3 σ.strerror σ.trouble

variable {α β : Type} {ok : α → Machine → Prop} {fail : Status → Machine → Prop}

/-- By itself, and stopped anywhere, the attempt keeps what there is. -/
abbrev Ensured (σ : Site) (ok : α → Machine → Prop)
    (fail : Status → Machine → Prop) (x : MigrationM α) (w : Machine) : Prop :=
  Secures (Protocol.alone σ.Kept) (fun _ => σ.commands) () True ok fail x w

theorem Ensured.andThen {ok : β → Machine → Prop} {mid : α → Machine → Prop}
    {x : MigrationM α} {k : α → MigrationM β} (hw : σ.Kept w)
    (h : σ.Ensured mid fail x w)
    (hk : ∀ a w', σ.Kept w' → mid a w' → σ.Ensured ok fail (k a) w') :
    σ.Ensured ok fail (x >>= k) w :=
  Secures.seq hw h hk

/-- A function of the pipeline. -/
private theorem secured_pipeline {x : PipelineM α} (h : σ.Secured ok fail x w) :
    σ.Ensured ok fail (pipeline x) w := by
  refine Secures.through (Keeps.of_effects h ?_)
  rintro c w₁ r w₂ ⟨r', rfl, hc⟩
  exact hc

/-- An operation has done nothing, or what its text says. -/
theorem store_cases {c : StoreCall} {r : Except Status c.Value}
    (h : migrationEffects σ.blake3 σ.strerror σ.trouble (.store c) w r w') :
    (∃ e, r = .error e ∧ w' = w ∧ ∃ repo repo' : Repo, repo.committed = w.db
      ∧ repo.txn = none ∧ repo.memory = none
      ∧ (c.run σ.blake3 : RepoM c.Value) repo = (.error e, repo'))
    ∨ ∃ a db', r = .ok a ∧ w' = { w with db := db' }
      ∧ (c.run σ.blake3 : DbTxn c.Value) w.db = .ok (a, db') := by
  obtain ⟨disk, hdisk, repo, hdb, htxn, hmemory, -, rfl, rfl⟩ := h
  cases Disk.disturbed_calm (fun _ => id) hdisk
  change repo.committed = w.db at hdb
  have houtcome := (storeCall_atomic σ.blake3 c).outcome htxn hmemory
  rw [hdb] at houtcome
  generalize hrun : (c.run σ.blake3 : RepoM c.Value) repo = answer at houtcome ⊢
  obtain ⟨r, repo'⟩ := answer
  change Session.Outcome _ _ r repo'.committed at houtcome
  generalize repo'.committed = db' at houtcome ⊢
  cases houtcome with
  | refused e => exact .inl ⟨e, rfl, rfl, repo, repo', hdb, htxn, hmemory, hrun⟩
  | done hf => exact .inr ⟨_, db', rfl, rfl, hf⟩

/-- An operation of the database. -/
theorem ensured_store {c : StoreCall} {ok : c.Value → Machine → Prop}
    (hw : σ.Kept w)
    (hplan : ∀ artifact path, c = .materializePlan artifact path →
      artifact = σ.artifact)
    (hok : ∀ a db', (c.run σ.blake3 : DbTxn c.Value) w.db = .ok (a, db') →
      ok a { w with db := db' })
    (hfail : ∀ e, fail e w) : σ.Ensured ok fail (store c) w := by
  refine .perform ?_
  rintro w₁ _ hrely r w₂ heffect
  cases show w₁ = w from hrely
  rcases store_cases heffect with ⟨e, rfl, rfl, -⟩ | ⟨a, db', rfl, rfl, hf⟩
  · exact ⟨hw, trivial, hfail e⟩
  · exact ⟨hw.stored rfl rfl (hw.ledger.store hplan hf), trivial, hok a db' hf⟩

-- ============================================================= the session

/-- A task that is made READY is not running. -/
theorem setReady_idle {planId taskId : Bytes} {u : Unit} (h : db.Idle)
    (hrun : (PhotoBridge.setReady planId taskId : DbTxn Unit) db = .ok (u, db')) :
    db'.Idle := by
  obtain ⟨-, -, rfl⟩ := setReady_ok.1 hrun
  intro row hrow
  obtain ⟨old, hold, rfl⟩ := List.mem_map.1 hrow
  split
  · exact TaskState.noConfusion
  · exact h old hold

/-- The tasks are there for the pool: none of them is running, and the
epoch is the session's. -/
structure Starts (σ : Site) (s : Session) (w : Machine) : Prop where
  kept : σ.Kept w
  artifact : s.artifact = σ.artifact
  idle : w.db.Idle
  epoch : w.db.currentEpoch? σ.artifact.planId = some s.epoch
  ids : ∃ tasks, TasksOf σ.blake3 σ.artifact.plan.assets tasks
    ∧ s.taskIds = tasks.map TaskSpec.id

/-- A task that is RETRYABLE is made READY; the others are left. -/
theorem readyTasks_ensured (assets : List MinimalPlanAsset) (hw : σ.Kept w)
    (hidle : w.db.Idle) : σ.Ensured
      (fun r w' => w'.db.Idle ∧ ∃ tasks, TasksOf σ.blake3 assets tasks
        ∧ r.1 = tasks.map TaskSpec.id)
      (fun _ _ => True) (readyTasks σ.blake3 σ.artifact.planId assets) w := by
  induction assets generalizing w with
  | nil => exact .pure ⟨hidle, [], .nil, rfl⟩
  | cons asset rest ih =>
      rw [readyTasks]
      refine .bind (.ofExcept (fun task htask => ?_) fun _ _ => trivial)
      refine Ensured.andThen hw (secured_pipeline
        (secured_reads (.lift (uses_call trivial)))) fun runtime w₁ hw₁ hreads => ?_
      rw [← hreads.db] at hidle
      have hready : σ.Ensured (fun _ w₂ => w₂.db.Idle) (fun _ _ => True)
          (makeReady σ.artifact.planId task.id runtime.state) w₁ :=
        .ite (fun _ => ensured_store hw₁ nofun (fun _ _ h => setReady_idle hidle h)
          fun _ => trivial) fun _ => .pure hidle
      refine Ensured.andThen hw₁ hready fun _ w₂ hw₂ hidle₂ => ?_
      refine Ensured.andThen hw₂ (ih hw₂ hidle₂) ?_
      rintro ⟨ids, found⟩ w₃ - ⟨hidle₃, tasks, htasks, rfl⟩
      exact .pure ⟨hidle₃, task :: tasks, .cons htask htasks, rfl⟩

/-- Every task is one of the plan's. -/
theorem Listed.planId (h : σ.Listed db) {row : TaskRow} (hrow : row ∈ db.tasks) :
    row.planId = σ.artifact.planId := by
  rcases h with hnone | ⟨tasks, -, -, hkeys⟩
  · rw [hnone] at hrow
    cases hrow
  · have hmem : row.key ∈ tasks.map fun t => (σ.artifact.planId, t.id) := by
      rw [← hkeys]
      exact List.mem_map_of_mem hrow
    obtain ⟨task, -, hkey⟩ := List.mem_map.1 hmem
    exact (Prod.mk.inj hkey).1.symm

/-- Where the count of running tasks is zero, none is. -/
theorem Listed.idle (h : σ.Listed db) {counts : List Nat}
    (hcounts : counts = TaskState.all.map (db.stateCount σ.artifact.planId))
    (hzero : counts[TaskState.all.idxOf .running]? = some 0) : db.Idle := by
  intro row hrow hrunning
  rw [hcounts] at hzero
  have hcount : db.stateCount σ.artifact.planId .running = 0 :=
    Option.some.inj hzero
  refine List.countP_eq_zero.1 hcount row hrow ?_
  rw [h.planId hrow, hrunning]
  exact Bool.and_eq_true_iff.2 ⟨beq_self_eq_true _, rfl⟩

theorem openSession_ensured {layout : WorkspaceLayout} {dbBatchSize taskCount : Nat}
    (hw : σ.Kept w) : σ.Ensured (fun s w' => σ.Starts s w') (fun _ _ => True)
      (openSession σ.blake3 layout dbBatchSize σ.artifact taskCount) w := by
  unfold openSession
  have hread : σ.Ensured (fun counts w' => w' = w
        ∧ counts = TaskState.all.map (w.db.stateCount σ.artifact.planId))
      (fun _ _ => True) (store (.readTaskStateCounts σ.artifact.planId)) w := by
    refine ensured_store hw nofun (fun counts db' h => ?_) fun _ => trivial
    obtain ⟨rfl, rfl⟩ := select_ok.1 h
    exact ⟨rfl, rfl⟩
  refine Ensured.andThen hw hread ?_
  rintro counts w₁ hw₁ ⟨rfl, hcounts⟩
  refine .ite (fun _ => .throw trivial) fun hzero => ?_
  have hidle := hw₁.ledger.listed.idle hcounts (Decidable.not_not.1 hzero)
  refine Ensured.andThen hw₁ (readyTasks_ensured _ hw₁ hidle) ?_
  rintro ⟨ids, found⟩ w₂ hw₂ ⟨hidle₂, hids⟩
  refine .ite (fun _ => .throw trivial) fun _ => ?_
  have hacquire : σ.Secured (fun epoch w' => w'.db.Idle
        ∧ w'.db.currentEpoch? σ.artifact.planId = some epoch) (fun _ _ => True)
      (repository (.acquireNextExecutionEpoch σ.artifact.planId)) w₂ := by
    refine secured_repository hw₂ (fun epoch db' h =>
      ⟨Kept.calm (c := .acquireNextExecutionEpoch σ.artifact.planId) hw₂ nofun
        (fun _ => False.elim) h, fun _ => ?_⟩) fun _ => trivial
    obtain ⟨_, -, h⟩ := liftCheck_bind_ok.1 h
    obtain ⟨current, hcurrent, -, rfl, -, rfl⟩ :=
      acquireNextExecutionEpochBody_ok.1 h
    obtain ⟨htasks, -⟩ :=
      w₂.db.setCurrentEpoch_tables σ.artifact.planId (current + 1)
    refine ⟨fun row hrow => hidle₂ row ?_,
      Db.currentEpoch?_setCurrentEpoch_self (current + 1) hcurrent⟩
    rw [← htasks]
    exact hrow
  refine Ensured.andThen hw₂ (secured_pipeline hacquire) ?_
  rintro epoch w₃ hw₃ ⟨hidle₃, hepoch⟩
  refine Ensured.andThen hw₃ (secured_pipeline
    (secured_reads (.lift (uses_call trivial)))) fun root w₄ hw₄ hreads => ?_
  rw [← hreads.db] at hidle₃ hepoch
  have hwriter : σ.Ensured (fun _ w₅ => w₅ = w₄) (fun _ _ => True)
      (startWriter layout.database dbBatchSize) w₄ := by
    refine .perform ?_
    rintro w₅ _ hrely r w₆ ⟨disk, hdisk, hr, rfl⟩
    cases show w₅ = w₄ from hrely
    cases Disk.disturbed_calm (fun _ => id) hdisk
    refine ⟨hw₄, trivial, ?_⟩
    rcases hr with rfl | ⟨-, e, rfl⟩
    · exact rfl
    · exact trivial
  refine Ensured.andThen hw₄ hwriter ?_
  rintro _ w₅ hw₅ rfl
  exact .pure ⟨hw₅, rfl, hidle₃, hepoch, hids⟩

/-- What is found there is the plan. -/
theorem begin_ensured {codec : Codec} {layout : WorkspaceLayout}
    {inputPath : Bytes} {workers dbBatchSize : Nat} (hw : σ.Kept w)
    (hcodec : codec = σ.codec) (hplan : σ.PlanAt inputPath) :
    σ.Ensured (fun s w' => σ.Starts s w') (fun _ _ => True)
      (begin codec σ.blake3 layout inputPath workers dbBatchSize) w := by
  unfold begin
  refine .ite (fun _ => .throw trivial) fun _ =>
    .ite (fun _ => .throw trivial) fun _ => ?_
  have hread : σ.Secured (fun bytes w' => w.Reads w'
      ∧ w.planFiles inputPath = some bytes) (fun _ _ => True)
      (readPlanFile inputPath) w := by
    refine .perform (secured_ask ?_)
    rintro r w' ⟨hr, rfl⟩
    refine ⟨hw, ?_⟩
    rcases hr with rfl | ⟨-, e, rfl⟩
    · unfold Machine.readPlanFile
      cases hfile : w'.planFiles inputPath with
      | none => exact trivial
      | some bytes => exact ⟨.refl w', rfl⟩
    · exact trivial
  refine Ensured.andThen hw (secured_pipeline hread) ?_
  rintro bytes w₁ hw₁ ⟨-, hbytes⟩
  refine .bind (.ofExcept (fun artifact hartifact => ?_) fun _ _ => trivial)
  have hsame : artifact = σ.artifact := by
    obtain ⟨bytes', hbytes', haccepted⟩ := hplan
    rw [hw.planFiles, hbytes'] at hbytes
    cases hbytes
    rw [hcodec, haccepted] at hartifact
    exact (Except.ok.inj hartifact).symm
  subst hsame
  refine .ite (fun _ => .throw trivial) fun _ => ?_
  refine Ensured.andThen hw₁ (secured_pipeline
    (secured_reads (.lift (uses_call trivial)))) fun _ w₂ hw₂ _ => ?_
  refine Ensured.andThen hw₂ (secured_pipeline
    (secured_reads (.lift (uses_call trivial)))) fun _ w₃ hw₃ _ => ?_
  have hmaterialize : σ.Ensured (fun _ _ => True) (fun _ _ => True)
      (store (.materializePlan σ.artifact inputPath)) w₃ := by
    refine ensured_store hw₃ (fun artifact path heq => ?_) (fun _ _ _ => trivial)
      fun _ => trivial
    cases heq
    rfl
  exact Ensured.andThen hw₃ hmaterialize fun _ w₄ hw₄ _ => openSession_ensured hw₄

end Site

end PhotoBridge
