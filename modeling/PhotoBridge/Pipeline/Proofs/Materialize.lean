/-
`MaterializePlan` is atomic and idempotent. The bracket gives the
all-or-nothing part once the body is read as a function of the tables;
what that function does to a new plan is an induction on the assets,
one round of which adds one READY row (`materializeTask_ok`).
-/
import PhotoBridge.Lib.Heed
import PhotoBridge.Db.Proofs.Changes
import PhotoBridge.Pipeline.Materialize

namespace PhotoBridge

open Transaction Session

variable {α : Type} {db db' : Db} {planId artifactPath : Bytes}
  {artifact : FrozenPlanFile} {blake3 : Bytes → Digest}

-- ======================================================== two readings

private theorem realises_checkMaterializedPlan (artifact : FrozenPlanFile) :
    Realises (checkMaterializedPlan artifact : RepoM Bool)
      (checkMaterializedPlan artifact : DbTxn Bool) := by
  unfold checkMaterializedPlan bindPipelineText
  refine .bind (realises_require _ _) fun _ => ?_
  refine .bind (realises_select _ _) fun row? => ?_
  cases row? with
  | none => exact .pure false
  | some row =>
      refine .bind (realises_require _ _) fun _ => ?_
      exact .bind (realises_require _ _) fun _ => .pure true

private theorem realises_insertMigration (artifact : FrozenPlanFile) :
    Realises (insertMigration artifact : RepoM Unit)
      (insertMigration artifact : DbTxn Unit) := by
  unfold insertMigration bindPipelineText bindPipelineBlob
  refine .bind (realises_require _ _) fun _ => ?_
  refine .bind (realises_require _ _) fun _ => ?_
  refine .bind (realises_require _ _) fun _ => ?_
  exact realises_write _ _

private theorem realises_insertMigrationPlan (artifact : FrozenPlanFile)
    (artifactPath : Bytes) :
    Realises (insertMigrationPlan artifact artifactPath : RepoM Unit)
      (insertMigrationPlan artifact artifactPath : DbTxn Unit) := by
  unfold insertMigrationPlan bindPipelineText bindPipelineBlob
  refine .bind (realises_require _ _) fun _ => ?_
  refine .bind (realises_require _ _) fun _ => ?_
  refine .bind (realises_require _ _) fun _ => ?_
  exact realises_write _ _

private theorem realises_materializeTask (planId : Bytes)
    (asset : MinimalPlanAsset) :
    Realises (materializeTask blake3 planId asset : RepoM Unit)
      (materializeTask blake3 planId asset : DbTxn Unit) := by
  unfold materializeTask
  refine .bind (realises_liftCheck _) fun task => ?_
  refine .bind (realises_addTask planId task) fun _ => ?_
  exact realises_setReady planId task.id

private theorem realises_materializeTasks (planId : Bytes)
    (assets : List MinimalPlanAsset) (count : Nat) :
    Realises (materializeTasks blake3 planId assets count : RepoM Nat)
      (materializeTasks blake3 planId assets count : DbTxn Nat) := by
  induction assets generalizing count with
  | nil => exact .pure count
  | cons asset rest ih =>
      exact .bind (realises_materializeTask planId asset) fun _ =>
        ih (count + 1)

/-- The whole body reads and writes as its transaction does. -/
theorem realises_materializePlanBody (artifact : FrozenPlanFile)
    (artifactPath : Bytes) :
    Realises (materializePlanBody blake3 artifact artifactPath : RepoM Nat)
      (materializePlanBody blake3 artifact artifactPath : DbTxn Nat) := by
  unfold materializePlanBody readTaskStateCounts
  refine .bind (realises_checkMaterializedPlan artifact) fun found => ?_
  refine .ite (fun _ => ?_) fun _ => ?_
  · refine .bind (realises_select _ _) fun counts => ?_
    exact .bind (realises_require _ _) fun _ => .pure counts.sum
  · refine .bind (realises_insertMigration artifact) fun _ => ?_
    refine .bind (realises_insertMigrationPlan artifact artifactPath)
      fun _ => ?_
    exact realises_materializeTasks _ _ 0

-- =================================================== no fault swallowed

private theorem heeds_select (operation : String) (f : Db → α) :
    Heeds (select operation f : RepoM α) :=
  Heeds.select _ f

private theorem heeds_write (operation : String)
    (f : Db → Except Status (α × Db)) :
    Heeds (write operation f : RepoM α) :=
  Heeds.write _ _ f

private theorem heeds_require (p : Prop) [Decidable p] (error : Status) :
    Heeds (require p error : RepoM Unit) :=
  .ite (fun _ => .pure ()) fun _ => .throw error

private theorem heeds_liftCheck (check : Except Status α) :
    Heeds (liftCheck check : RepoM α) := by
  cases check with
  | ok a => exact .pure a
  | error e => exact .throw e

private theorem heeds_checkMaterializedPlan (artifact : FrozenPlanFile) :
    Heeds (checkMaterializedPlan artifact : RepoM Bool) := by
  unfold checkMaterializedPlan bindPipelineText
  refine .bind (heeds_require _ _) fun _ => ?_
  refine .bind (heeds_select _ _) fun row? => ?_
  cases row? with
  | none => exact .pure false
  | some row =>
      refine .bind (heeds_require _ _) fun _ => ?_
      exact .bind (heeds_require _ _) fun _ => .pure true

private theorem heeds_insertMigration (artifact : FrozenPlanFile) :
    Heeds (insertMigration artifact : RepoM Unit) := by
  unfold insertMigration bindPipelineText bindPipelineBlob
  refine .bind (heeds_require _ _) fun _ => ?_
  refine .bind (heeds_require _ _) fun _ => ?_
  refine .bind (heeds_require _ _) fun _ => ?_
  exact heeds_write _ _

private theorem heeds_insertMigrationPlan (artifact : FrozenPlanFile)
    (artifactPath : Bytes) :
    Heeds (insertMigrationPlan artifact artifactPath : RepoM Unit) := by
  unfold insertMigrationPlan bindPipelineText bindPipelineBlob
  refine .bind (heeds_require _ _) fun _ => ?_
  refine .bind (heeds_require _ _) fun _ => ?_
  refine .bind (heeds_require _ _) fun _ => ?_
  exact heeds_write _ _

/-- Adding a task heeds its errors. -/
theorem heeds_materializeTask (planId : Bytes) (asset : MinimalPlanAsset) :
    Heeds (materializeTask blake3 planId asset : RepoM Unit) := by
  unfold materializeTask addTask setReady
  refine .bind (heeds_liftCheck _) fun task => ?_
  refine .bind ?_ fun _ => ?_
  · refine .bind (heeds_liftCheck _) fun _ => ?_
    refine .bind (heeds_liftCheck _) fun _ => ?_
    refine .bind (heeds_require _ _) fun _ => ?_
    exact heeds_write _ _
  · refine .bind (heeds_liftCheck _) fun _ => ?_
    refine .bind (heeds_write _ _) fun _ => ?_
    exact heeds_require _ _

private theorem heeds_materializeTasks (planId : Bytes)
    (assets : List MinimalPlanAsset) (count : Nat) :
    Heeds (materializeTasks blake3 planId assets count : RepoM Nat) := by
  induction assets generalizing count with
  | nil => exact .pure count
  | cons asset rest ih =>
      exact .bind (heeds_materializeTask planId asset) fun _ =>
        ih (count + 1)

/-- The whole heeds its errors. -/
private theorem heeds_materializePlan (artifact : FrozenPlanFile)
    (artifactPath : Bytes) :
    Heeds (materializePlan blake3 artifact artifactPath : RepoM Nat) := by
  unfold materializePlan
  refine .bind (heeds_require _ _) fun _ => ?_
  refine .atomically ?_
  unfold materializePlanBody readTaskStateCounts
  refine .bind (heeds_checkMaterializedPlan artifact) fun found => ?_
  refine .ite (fun _ => ?_) fun _ => ?_
  · refine .bind (heeds_select _ _) fun counts => ?_
    exact .bind (heeds_require _ _) fun _ => .pure counts.sum
  · refine .bind (heeds_insertMigration artifact) fun _ => ?_
    refine .bind (heeds_insertMigrationPlan artifact artifactPath)
      fun _ => ?_
    exact heeds_materializeTasks _ _ 0

-- ======================================================= the three steps

/-- The check finds the plan under the same metadata, or does not find
it. -/
theorem checkMaterializedPlan_ok {found : Bool} :
    (checkMaterializedPlan artifact : DbTxn Bool) db = .ok (found, db')
      → db' = db ∧ (found = false ∧ db.plan? artifact.planId = none
        ∨ found = true ∧ ∃ row, db.plan? artifact.planId = some row
          ∧ row.records artifact = true) := by
  intro h
  unfold checkMaterializedPlan bindPipelineText at h
  obtain ⟨-, hlookup⟩ := require_bind_ok.1 h
  obtain ⟨row?, db₁, hselect, hrest⟩ := Txn.bind_eq_ok.1 hlookup
  obtain ⟨hrow, rfl⟩ := select_ok.1 hselect
  cases row? with
  | none =>
      obtain ⟨rfl, rfl⟩ := Txn.pure_eq_ok.1 hrest
      exact ⟨rfl, .inl ⟨rfl, hrow.symm⟩⟩
  | some row =>
      obtain ⟨hversion, hnext⟩ := require_bind_ok.1 hrest
      obtain ⟨⟨hartifact, hsemantic⟩, hpure⟩ := require_bind_ok.1 hnext
      obtain ⟨rfl, rfl⟩ := Txn.pure_eq_ok.1 hpure
      refine ⟨rfl, .inr ⟨rfl, row, hrow.symm, ?_⟩⟩
      simp [MigrationPlanRow.records, hversion, hartifact, hsemantic]

/-- What `InsertMigration` stores. -/
theorem insertMigration_ok {u : Unit}
    (h : (insertMigration artifact : DbTxn Unit) db = .ok (u, db')) :
    db' = { db with migrations := db.migrations ++ [migrationRow artifact] } := by
  unfold insertMigration bindPipelineText bindPipelineBlob at h
  obtain ⟨-, h₁⟩ := require_bind_ok.1 h
  obtain ⟨-, h₂⟩ := require_bind_ok.1 h₁
  obtain ⟨-, h₃⟩ := require_bind_ok.1 h₂
  have hw := write_ok.1 h₃
  split at hw
  · cases hw
  · cases hw
    rfl

/-- What `InsertMigrationPlan` stores. -/
theorem insertMigrationPlan_ok {u : Unit}
    (h : (insertMigrationPlan artifact artifactPath : DbTxn Unit) db
      = .ok (u, db')) :
    db' = { db with
      plans := db.plans ++ [migrationPlanRow artifact artifactPath] } := by
  unfold insertMigrationPlan bindPipelineText bindPipelineBlob at h
  obtain ⟨-, h₁⟩ := require_bind_ok.1 h
  obtain ⟨-, h₂⟩ := require_bind_ok.1 h₁
  obtain ⟨-, h₃⟩ := require_bind_ok.1 h₂
  have hw := write_ok.1 h₃
  split at hw
  · cases hw
  · split at hw
    · cases hw
    · cases hw
      rfl

/-- A row of another key is not released. -/
theorem Db.not_readyable_of_accepted {task : TaskSpec} {row : TaskRow}
    (hfree : db.taskRefused (Db.newTaskRow planId task) = false)
    (hrow : row ∈ db.tasks) (store : Db) :
    store.isReadyable planId task.id row = false := by
  unfold Db.taskRefused at hfree
  have hother := List.any_eq_false.1 (Bool.or_eq_false_iff.1 hfree).2 row hrow
  have hat : row.isAt planId task.id = false := by
    cases hkey : row.isAt planId task.id with
    | false => rfl
    | true =>
        obtain ⟨hp, ht⟩ := TaskRow.isAt_iff.1 hkey
        refine absurd ?_ hother
        simp [Db.newTaskRow, hp, ht]
  simp [Db.isReadyable, hat]

/-- Adding a task and releasing it adds one READY row. -/
theorem materializeTask_ok {asset : MinimalPlanAsset} {u : Unit}
    (h : (materializeTask blake3 planId asset : DbTxn Unit) db
      = .ok (u, db')) :
    ∃ task, taskSpecForPlanAsset blake3 asset = .ok task
      ∧ task.estimatedBytes.toNat ≤ int64Max
      ∧ db.hasTask planId task.id = false
      ∧ db' = { db with tasks := db.tasks ++ [Db.readyTaskRow planId task] } := by
  unfold materializeTask at h
  obtain ⟨task, hspec, hadd⟩ := liftCheck_bind_ok.1 h
  obtain ⟨_, db₁, hadded, hready⟩ := Txn.bind_eq_ok.1 hadd
  obtain ⟨-, -, hsize, hfree, rfl⟩ := addTask_ok.1 hadded
  obtain ⟨-, hcount, rfl⟩ := setReady_ok.1 hready
  have hold : ∀ row ∈ db.tasks,
      (db.addTaskRow (Db.newTaskRow planId task)).isReadyable planId task.id
        row = false := fun row hrow =>
    Db.not_readyable_of_accepted hfree hrow _
  refine ⟨task, hspec, hsize, ?_, ?_⟩
  · refine List.any_eq_false.2 fun row hrow hat => ?_
    unfold Db.taskRefused at hfree
    have hother := List.any_eq_false.1 (Bool.or_eq_false_iff.1 hfree).2 row
      hrow
    obtain ⟨hp, ht⟩ := TaskRow.isAt_iff.1 hat
    refine hother ?_
    simp [Db.newTaskRow, hp, ht]
  · -- the one row that changed is the one just added
    have hnew : (db.addTaskRow (Db.newTaskRow planId task)).isReadyable planId
        task.id (Db.newTaskRow planId task) = true := by
      by_contra hnot
      refine hcount (List.countP_eq_zero.2 fun row hrow => ?_)
      rcases List.mem_append.1 hrow with hmem | hlast
      · rw [hold row hmem]
        exact Bool.false_ne_true
      · rw [List.mem_singleton.1 hlast]
        exact hnot
    unfold Db.updateTasks
    show Db.mk _ _ _ _ _ _ _ _ = Db.mk _ _ _ _ _ _ _ _
    congr 1
    show (db.tasks ++ [Db.newTaskRow planId task]).map _ = _
    rw [List.map_append, List.map_singleton, if_pos hnew]
    congr 1
    rw [List.map_congr_left (g := id), List.map_id]
    intro row hrow
    rw [if_neg (by rw [hold row hrow]; exact Bool.false_ne_true)]
    rfl

-- ============================================================= the loop

/-- What the loop over the assets adds. -/
theorem materializeTasks_ok {assets : List MinimalPlanAsset}
    {count total : Nat}
    (h : (materializeTasks blake3 planId assets count : DbTxn Nat) db
      = .ok (total, db')) :
    ∃ tasks, TasksOf blake3 assets tasks
      ∧ total = count + tasks.length
      ∧ (∀ task ∈ tasks, task.estimatedBytes.toNat ≤ int64Max)
      ∧ (tasks.map TaskSpec.id).Nodup
      ∧ (∀ task ∈ tasks, db.hasTask planId task.id = false)
      ∧ db' = { db with
          tasks := db.tasks ++ tasks.map (Db.readyTaskRow planId) } := by
  induction assets generalizing db count with
  | nil =>
      obtain ⟨rfl, rfl⟩ := Txn.pure_eq_ok.1 h
      refine ⟨[], .nil, rfl, ?_, List.nodup_nil, ?_, ?_⟩
      · simp
      · simp
      · simp
  | cons asset rest ih =>
      obtain ⟨_, db₁, hone, hrest⟩ := Txn.bind_eq_ok.1 h
      obtain ⟨task, hspec, hsize, hfree, rfl⟩ := materializeTask_ok hone
      obtain ⟨tasks, htasks, rfl, hsizes, hnodup, hfrees, rfl⟩ := ih hrest
      -- a later task is neither an old row's nor the one just added
      have hlater : ∀ t ∈ tasks, t.id ≠ task.id
          ∧ db.hasTask planId t.id = false := by
        intro t ht
        have hnone := List.any_eq_false.1 (hfrees t ht)
        refine ⟨fun hsame => ?_, List.any_eq_false.2 fun row hrow => ?_⟩
        · refine hnone (Db.readyTaskRow planId task)
            (List.mem_append_right _ (List.mem_singleton_self _)) ?_
          exact TaskRow.isAt_iff.2 ⟨rfl, hsame.symm⟩
        · exact hnone row (List.mem_append_left _ hrow)
      refine ⟨task :: tasks, .cons hspec htasks, ?_, ?_, ?_, ?_, ?_⟩
      · rw [List.length_cons]
        omega
      · intro t ht
        rcases List.mem_cons.1 ht with rfl | ht'
        · exact hsize
        · exact hsizes t ht'
      · rw [List.map_cons, List.nodup_cons]
        refine ⟨fun hmem => ?_, hnodup⟩
        obtain ⟨t, ht, hid⟩ := List.mem_map.1 hmem
        exact (hlater t ht).1 hid
      · intro t ht
        rcases List.mem_cons.1 ht with rfl | ht'
        · exact hfree
        · exact (hlater t ht').2
      · simp [List.append_assoc]

/-- What the body does to a plan that is not there, and to one that
is. -/
theorem materializePlanBody_ok {count : Nat}
    (h : (materializePlanBody blake3 artifact artifactPath : DbTxn Nat) db
      = .ok (count, db')) :
    (db.plan? artifact.planId = none
      ∧ ∃ tasks, TasksOf blake3 artifact.plan.assets tasks
        ∧ count = tasks.length
        ∧ (∀ task ∈ tasks, task.estimatedBytes.toNat ≤ int64Max)
        ∧ (tasks.map TaskSpec.id).Nodup
        ∧ (∀ task ∈ tasks, db.hasTask artifact.planId task.id = false)
        ∧ db' = db.withPlan artifact artifactPath tasks)
      ∨ db' = db ∧ ∃ row, db.plan? artifact.planId = some row
        ∧ row.records artifact = true := by
  unfold materializePlanBody at h
  obtain ⟨found, db₁, hcheck, hrest⟩ := Txn.bind_eq_ok.1 h
  obtain ⟨rfl, ⟨rfl, hnone⟩ | ⟨rfl, hsome⟩⟩ := checkMaterializedPlan_ok hcheck
  · rw [if_neg Bool.false_ne_true] at hrest
    obtain ⟨_, db₂, hmigration, h₂⟩ := Txn.bind_eq_ok.1 hrest
    obtain ⟨_, db₃, hplan, h₃⟩ := Txn.bind_eq_ok.1 h₂
    obtain rfl := insertMigration_ok hmigration
    obtain rfl := insertMigrationPlan_ok hplan
    obtain ⟨tasks, htasks, hcount, hsizes, hnodup, hfrees, rfl⟩ :=
      materializeTasks_ok h₃
    refine .inl ⟨hnone, tasks, htasks, ?_, hsizes, hnodup, hfrees, rfl⟩
    rw [hcount, Nat.zero_add]
  · rw [if_pos rfl] at hrest
    obtain ⟨counts, db₂, hselect, h₂⟩ := Txn.bind_eq_ok.1 hrest
    obtain ⟨-, rfl⟩ := select_ok.1 hselect
    obtain ⟨-, h₃⟩ := require_bind_ok.1 h₂
    obtain ⟨-, rfl⟩ := Txn.pure_eq_ok.1 h₃
    exact .inr ⟨rfl, hsome⟩

-- ======================================================= the whole call

/-- A call ends with an error and nothing changed, or with all of what
the body does. -/
theorem materializePlan_cases (blake3 : Bytes → Digest)
    (artifact : FrozenPlanFile) (artifactPath : Bytes) (repo : Repo)
    {result : Except Status Nat} {repo' : Repo}
    (hrun : (materializePlan blake3 artifact artifactPath : RepoM Nat) repo
      = (result, repo')) :
    repo'.txn = repo.txn
      ∧ ((∃ e, result = .error e) ∧ repo'.committed = repo.committed
        ∨ ∃ count, result = .ok count
          ∧ (materializePlanBody blake3 artifact artifactPath : DbTxn Nat)
              repo.committed = .ok (count, repo'.committed)) := by
  unfold materializePlan at hrun
  by_cases hid : artifact.planId.isEmpty = false
  · rw [show (require (artifact.planId.isEmpty = false)
        (.internal "frozen plan has an empty plan id") : RepoM Unit)
        = pure () from if_pos hid] at hrun
    have hbody : Realises
        (materializePlanBody blake3 artifact artifactPath : RepoM Nat)
        (materializePlanBody blake3 artifact artifactPath : DbTxn Nat) :=
      realises_materializePlanBody artifact artifactPath
    have hbracket : bracket (materializePlanBody blake3 artifact artifactPath)
        repo = (result, repo') := hrun
    have htxn := bracket_txn hbody repo
    rw [hbracket] at htxn
    refine ⟨htxn, ?_⟩
    cases result with
    | error e => exact .inl ⟨⟨e, rfl⟩, bracket_error hbody hbracket⟩
    | ok count =>
        exact .inr ⟨count, rfl, (bracket_ok hbody hbracket).2.1⟩
  · rw [show (require (artifact.planId.isEmpty = false)
        (.internal "frozen plan has an empty plan id") : RepoM Unit)
        = throw (.internal "frozen plan has an empty plan id")
        from if_neg hid] at hrun
    cases hrun
    exact ⟨rfl, .inl ⟨⟨_, rfl⟩, rfl⟩⟩

/-- Assets have one task each. -/
theorem TasksOf.unique {assets : List MinimalPlanAsset}
    {tasks tasks' : List TaskSpec} (h : TasksOf blake3 assets tasks)
    (h' : TasksOf blake3 assets tasks') : tasks = tasks' := by
  induction h generalizing tasks' with
  | nil =>
      cases h'
      rfl
  | cons hspec _ ih =>
      cases h' with
      | cons hspec' hrest =>
          rw [hspec] at hspec'
          rw [Except.ok.inj hspec', ih hrest]

/-- An asset's task is among the tasks. -/
theorem TasksOf.mem {assets : List MinimalPlanAsset}
    {tasks : List TaskSpec} (h : TasksOf blake3 assets tasks)
    {asset : MinimalPlanAsset} (hasset : asset ∈ assets) :
    ∃ task ∈ tasks, taskSpecForPlanAsset blake3 asset = .ok task := by
  induction h with
  | nil => cases hasset
  | cons hspec _ ih =>
      rcases List.mem_cons.1 hasset with rfl | hrest
      · exact ⟨_, List.mem_cons_self, hspec⟩
      · obtain ⟨task, hmem, htask⟩ := ih hrest
        exact ⟨task, List.mem_cons_of_mem _ hmem, htask⟩

/-- A task's size is its asset's. -/
theorem taskSpecForPlanAsset_size {asset : MinimalPlanAsset}
    {task : TaskSpec} (h : taskSpecForPlanAsset blake3 asset = .ok task) :
    task.estimatedBytes = asset.sourceIdentity.size := by
  unfold taskSpecForPlanAsset at h
  cases hkey : taskKeyFor blake3 (unkeyedTaskSpec asset) with
  | error e =>
      rw [hkey] at h
      cases h
  | ok key =>
      rw [hkey] at h
      cases h
      rfl

/-- `MaterializePlan` is atomic and idempotent: for every database, every
artifact and whatever faults its statements meet. -/
theorem materializePlan_materializes (blake3 : Bytes → Digest)
    (artifact : FrozenPlanFile) (artifactPath : Bytes) (repo : Repo) :
    Materializes blake3 artifact artifactPath repo
      ((materializePlan blake3 artifact artifactPath : RepoM Nat) repo).1
      ((materializePlan blake3 artifact artifactPath : RepoM Nat) repo).2 := by
  cases hrun : (materializePlan blake3 artifact artifactPath : RepoM Nat)
      repo with
  | mk result repo' =>
  obtain ⟨htxn, ⟨⟨e, rfl⟩, hsame⟩ | ⟨count, rfl, hbody⟩⟩ :=
    materializePlan_cases blake3 artifact artifactPath repo hrun
  · have hfails : ∃ e', (.error e : Except Status Nat) = .error e' := ⟨e, rfl⟩
    exact ⟨fun _ _ => hsame, fun _ _ h => (by cases h), fun _ _ => hsame,
      fun _ _ _ => hfails, fun _ _ _ _ => hfails,
      fun _ _ _ _ _ _ => hfails, fun _ _ _ _ => hfails,
      fun _ h => (by cases h), htxn⟩
  · have hheeds := (heeds_materializePlan artifact artifactPath).ok hrun
    obtain ⟨hnone, tasks, htasks, hcount, hsizes, hnodup, hfree, hdb⟩
      | ⟨hdb, found, hfound, hrecords⟩ := materializePlanBody_ok hbody
    · refine ⟨fun e h => ?_, fun n _ hn => ?_, fun row hrow => ?_,
        fun row hrow => ?_, fun tasks' _ htasks' hdup => ?_,
        fun asset hasset task _ htask hthere => ?_,
        fun asset hasset _ hbig => ?_, fun _ _ => hheeds, htxn⟩
      · cases h
      · cases hn
        exact ⟨tasks, htasks, hcount, hdb⟩
      · rw [hnone] at hrow
        cases hrow
      · rw [hnone] at hrow
        cases hrow
      · rw [← htasks.unique htasks'] at hdup
        exact absurd hnodup hdup
      · obtain ⟨task', hmem, htask'⟩ := htasks.mem hasset
        rw [htask] at htask'
        cases htask'
        rw [hfree task hmem] at hthere
        cases hthere
      · obtain ⟨task, hmem, htask⟩ := htasks.mem hasset
        have hsize := hsizes task hmem
        rw [taskSpecForPlanAsset_size htask] at hsize
        omega
    · refine ⟨fun e h => ?_, fun n hnone => ?_, fun _ _ => hdb,
        fun row hrow hdiffer => ?_, fun _ hnone => ?_,
        fun _ _ _ hnone => ?_, fun _ _ hnone => ?_, fun _ _ => hheeds, htxn⟩
      · cases h
      · rw [hfound] at hnone
        cases hnone
      · rw [hfound] at hrow
        cases hrow
        rw [hrecords] at hdiffer
        cases hdiffer
      · rw [hfound] at hnone
        cases hnone
      · rw [hfound] at hnone
        cases hnone
      · rw [hfound] at hnone
        cases hnone

theorem oneAsset_parsed : checkRelativePath (text "f") = .ok [text "f"] := by
  decide

/-- A frozen plan with one asset. -/
def oneAssetArtifact : FrozenPlanFile where
  planId := text "p"
  bytes := []
  artifactDigest := .zero
  semanticDigest := .zero
  plan := {
    sourceManifestId := text "s", sourceManifestDigest := .zero
    targetRoot := text "/t", capabilities := ⟨text "v", []⟩, policy := {}
    assets := [⟨text "l", text "a", ⟨text "f", [text "f"], oneAsset_parsed⟩,
      ⟨text "f", [text "f"], oneAsset_parsed⟩, ⟨1, 2, 3, 4, 5, none⟩⟩] }

example : ((materializePlan (fun _ => .zero) oneAssetArtifact (text "/p") :
    RepoM Nat) ((Store.opened Db.empty).repo 0 [])).1 = .ok 1 := by decide

end PhotoBridge
