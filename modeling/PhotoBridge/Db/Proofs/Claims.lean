/-
`ClaimNextReady` hands out the least task that may run, and the state
column of `plan_task` follows the transition table, under every
interleaving of calls and batches.

The five statements that write the state column are three cases of
`Db.Moved`; each is read against the table once (`moved_statesStep`) and
the rest is about chains of versions.
-/
import PhotoBridge.Db.Claims
import PhotoBridge.Db.Proofs.Lineage

namespace PhotoBridge

open Transaction Session

variable {db db' : Db} {planId taskId : Bytes}

-- ====================================================== rows by key

/-- A task after an update. -/
theorem Db.task?_updateTasks {p : TaskRow → Bool} {f : TaskRow → TaskRow}
    (hf : ∀ row, (f row).isAt planId taskId = row.isAt planId taskId)
    (db : Db) :
    (db.updateTasks p f).2.task? planId taskId
      = (db.task? planId taskId).map fun row =>
          if p row then f row else row := by
  unfold Db.task? Db.updateTasks
  simp only [List.find?_map]
  congr 1
  congr 1
  funext row
  simp only [Function.comp_apply]
  by_cases hp : p row = true
  · rw [if_pos hp]
    exact hf row
  · rw [if_neg hp]

/-- The task that is found is the one asked for. -/
theorem Db.task?_key {row : TaskRow} (h : db.task? planId taskId = some row) :
    row ∈ db.tasks ∧ row.planId = planId ∧ row.taskId = taskId := by
  have hat := List.find?_some h
  rw [TaskRow.isAt_iff] at hat
  exact ⟨List.mem_of_find?_eq_some h, hat⟩

/-- An update that moves every row it matches along the table. -/
theorem statesStep_updateTasks {p : TaskRow → Bool} {f : TaskRow → TaskRow}
    (hkey : ∀ row, (f row).planId = row.planId
      ∧ (f row).taskId = row.taskId)
    (hmove : ∀ row, p row = true →
      row.state.isValidTransition (f row).state = true) :
    StatesStep db (db.updateTasks p f).2 := by
  intro planId taskId
  have hat : ∀ row, (f row).isAt planId taskId = row.isAt planId taskId := by
    intro row
    obtain ⟨hp, ht⟩ := hkey row
    unfold TaskRow.isAt
    rw [hp, ht]
  unfold Db.taskState?
  rw [Db.task?_updateTasks hat]
  cases db.task? planId taskId with
  | none => exact .same none
  | some row =>
      by_cases hp : p row = true
      · simp only [Option.map_some, if_pos hp]
        exact .moved (hmove row hp)
      · simp only [Option.map_some, if_neg hp]
        exact .same _

/-- Only the tasks tell which steps were taken. -/
theorem StatesStep.of_tasks {db₁ : Db} (ht : db'.tasks = db₁.tasks)
    (h : StatesStep db db₁) : StatesStep db db' := by
  intro planId taskId
  have hsame : db'.taskState? planId taskId = db₁.taskState? planId taskId := by
    unfold Db.taskState? Db.task?
    rw [ht]
  rw [hsame]
  exact h planId taskId

/-- One call moves every task's state along the transition table. -/
theorem moved_statesStep (h : db.Moved db') : StatesStep db db' := by
  cases h with
  | quiet h => exact .of_tasks h.tasks fun _ _ => .same _
  | @addTask p spec hfree h =>
      refine .of_tasks h.tasks fun planId taskId => ?_
      unfold Db.taskState? Db.task? Db.addTaskRow
      simp only [List.find?_append]
      cases db.tasks.find? (TaskRow.isAt planId taskId) with
      | some row => exact .same _
      | none =>
          simp only [Option.none_or, List.find?_cons, List.find?_nil]
          cases (Db.newTaskRow p spec).isAt planId taskId with
          | true => exact .added
          | false => exact .same none
  | addDependency edge _ _ h =>
      exact .of_tasks h.tasks fun _ _ => .same _
  | @setReady p t h =>
      refine .of_tasks h.tasks ?_
      refine statesStep_updateTasks (fun _ => ⟨rfl, rfl⟩) fun row hrow => ?_
      simp only [Db.isReadyable, Bool.and_eq_true, Bool.or_eq_true,
        beq_iff_eq] at hrow
      rcases hrow.1.2 with hs | hs <;> rw [hs] <;> rfl
  | @claim p t a e h =>
      refine .of_tasks h.tasks ?_
      refine statesStep_updateTasks (fun _ => ⟨rfl, rfl⟩) fun row hrow => ?_
      simp only [TaskRow.isClaimable, Bool.and_eq_true, beq_iff_eq] at hrow
      rw [hrow.1.2]
      rfl
  | @release p t a e next hnext error h =>
      refine .of_tasks h.tasks ?_
      refine statesStep_updateTasks (fun _ => ⟨rfl, rfl⟩) fun row hrow => ?_
      simp only [TaskRow.isOwnedBy, Bool.and_eq_true, beq_iff_eq] at hrow
      show row.state.isValidTransition next = true
      rw [hrow.2]
      simp only [TaskState.isRelease, Bool.or_eq_true, beq_iff_eq] at hnext
      rcases hnext with (rfl | rfl) | rfl <;> rfl
  | addReceipt _ h =>
      exact .of_tasks h.tasks fun _ _ => .same _

-- ===================================================== row invariants

/-- What claims rely on: keys are unique, a task that is not running has
no active attempt, and dependencies are on tasks of the plan. -/
structure Db.RowsOk (db : Db) : Prop where
  keys : (db.tasks.map fun t => (t.planId, t.taskId)).Nodup
  idle : ∀ row ∈ db.tasks, row.state ≠ .running → row.activeAttemptId = none
  edges : ∀ d ∈ db.dependencies, db.hasTask d.planId d.dependsOn = true

/-- A fresh database is in order. -/
theorem Db.Fresh.rowsOk (h : db.Fresh) : db.RowsOk := by
  obtain ⟨ht, hd, -⟩ := h
  refine ⟨?_, ?_, ?_⟩ <;> simp [ht, hd]

/-- A change that touches no tasks keeps the rows in order. -/
theorem Db.RowsOk.of_quiet {db₁ : Db} (hq : db₁.Quiet db')
    (h : db₁.RowsOk) : db'.RowsOk := by
  refine ⟨?_, ?_, ?_⟩
  · rw [hq.tasks]
    exact h.keys
  · rw [hq.tasks]
    exact h.idle
  · unfold Db.hasTask
    rw [hq.tasks, hq.dependencies]
    exact h.edges

/-- An update that keeps the keys keeps them in order. -/
theorem Db.RowsOk.updateTasks {p : TaskRow → Bool} {f : TaskRow → TaskRow}
    (h : db.RowsOk)
    (hkey : ∀ row, (f row).planId = row.planId
      ∧ (f row).taskId = row.taskId)
    (hidle : ∀ row, (f row).state ≠ .running →
      (f row).activeAttemptId = none) :
    (db.updateTasks p f).2.RowsOk := by
  refine ⟨?_, ?_, ?_⟩
  · have hmap : (db.updateTasks p f).2.tasks.map
        (fun t => (t.planId, t.taskId))
          = db.tasks.map fun t => (t.planId, t.taskId) := by
      unfold Db.updateTasks
      simp only [List.map_map]
      apply List.map_congr_left
      intro row _
      simp only [Function.comp_apply]
      by_cases hp : p row = true
      · rw [if_pos hp, (hkey row).1, (hkey row).2]
      · rw [if_neg hp]
    rw [hmap]
    exact h.keys
  · intro row hrow hstate
    obtain ⟨old, hold, rfl⟩ := List.mem_map.1 hrow
    by_cases hp : p old = true
    · rw [if_pos hp] at hstate ⊢
      exact hidle old hstate
    · rw [if_neg hp] at hstate ⊢
      exact h.idle old hold hstate
  · intro d hd
    have hat : ∀ row : TaskRow, (f row).isAt d.planId d.dependsOn
        = row.isAt d.planId d.dependsOn := by
      intro row
      unfold TaskRow.isAt
      rw [(hkey row).1, (hkey row).2]
    exact (Db.hasTask_updateTasks hat db).trans (h.edges d hd)

/-- Every movement keeps them in order. -/
theorem Db.RowsOk.moved (hm : db.Moved db') (h : db.RowsOk) : db'.RowsOk := by
  cases hm with
  | quiet hq => exact .of_quiet hq h
  | @addTask p spec hfree hq =>
      refine .of_quiet hq ⟨?_, ?_, ?_⟩
      · unfold Db.addTaskRow
        simp only [List.map_append, List.map_cons, List.map_nil]
        rw [List.nodup_append]
        refine ⟨h.keys, List.nodup_singleton _, fun key hkey last hlast => ?_⟩
        rw [List.mem_singleton] at hlast
        subst hlast
        obtain ⟨row, hrow, rfl⟩ := List.mem_map.1 hkey
        intro heq
        -- the constraint on the key refused nothing
        simp only [Db.taskRefused, Bool.or_eq_false_iff] at hfree
        have hclash := List.any_eq_false.1 hfree.2 row hrow
        obtain ⟨hp, ht⟩ := Prod.mk.inj heq
        simp [hp, ht] at hclash
      · intro row hrow hstate
        rcases List.mem_append.1 hrow with hrow | hrow
        · exact h.idle row hrow hstate
        · rw [List.mem_singleton.1 hrow]
          rfl
      · intro d hd
        have hold := h.edges d hd
        unfold Db.hasTask at hold ⊢
        simp only [Db.addTaskRow, List.any_append, hold, Bool.true_or]
  | addDependency edge htask hdep hq =>
      refine .of_quiet hq ⟨h.keys, h.idle, fun d hd => ?_⟩
      rcases List.mem_append.1 hd with hd | hd
      · exact h.edges d hd
      · rw [List.mem_singleton.1 hd]
        exact hdep
  | setReady hq =>
      apply Db.RowsOk.of_quiet hq
      exact h.updateTasks (fun _ => ⟨rfl, rfl⟩) fun _ _ => rfl
  | claim hq =>
      apply Db.RowsOk.of_quiet hq
      refine h.updateTasks (fun _ => ⟨rfl, rfl⟩) fun row hrow => ?_
      exact absurd rfl hrow
  | release _ hq =>
      apply Db.RowsOk.of_quiet hq
      exact h.updateTasks (fun _ => ⟨rfl, rfl⟩) fun _ _ => rfl
  | addReceipt _ hq => exact .of_quiet hq ⟨h.keys, h.idle, h.edges⟩

/-- In every reachable database the rows are in order. -/
theorem Moment.Reached.rowsOk {rule : Store → Nat → Action → Prop}
    {m : Moment} (h : m.Reached rule db) (hfresh : db.Fresh) :
    m.store.committed.RowsOk := by
  refine (Moment.Leads.keeps (P := Db.RowsOk) (fun hm h => .moved hm h) h
    hfresh.rowsOk fun i s hw => ?_).1
  cases hw

/-- A row is the one found under its key. -/
theorem Db.RowsOk.task?_of_mem (h : db.RowsOk) {row : TaskRow}
    (hrow : row ∈ db.tasks) :
    db.task? row.planId row.taskId = some row := by
  have hsome : (db.task? row.planId row.taskId).isSome = true := by
    unfold Db.task?
    rw [List.find?_isSome]
    exact ⟨row, hrow, TaskRow.isAt_iff.2 ⟨rfl, rfl⟩⟩
  obtain ⟨found, hfound⟩ := Option.isSome_iff_exists.1 hsome
  obtain ⟨hmem, hp, ht⟩ := Db.task?_key hfound
  have heq : found = row :=
    List.inj_on_of_nodup_map h.keys hmem hrow (Prod.ext hp ht)
  rw [hfound, heq]

-- ========================================================== the query

/-- The query's dependency test is the claim's. -/
theorem Db.RowsOk.dependenciesDone_iff (h : db.RowsOk) :
    db.dependenciesDone planId taskId = true
      ↔ ∀ d ∈ db.dependencies, d.planId = planId → d.taskId = taskId →
        db.taskState? planId d.dependsOn = some .succeeded := by
  unfold Db.dependenciesDone
  rw [List.all_eq_true]
  constructor
  · intro hall d hd hp ht
    have htask := h.edges d hd
    rw [hp] at htask
    obtain ⟨row, hrow, hat⟩ := List.any_eq_true.1 htask
    rw [TaskRow.isAt_iff] at hat
    obtain ⟨hrp, hrt⟩ := hat
    have hd' := hall d hd
    simp only [hp, ht, beq_self_eq_true, Bool.and_self, Bool.not_true,
      Bool.false_or, List.all_eq_true] at hd'
    have hs := hd' row hrow
    have hat' : row.isAt planId d.dependsOn = true :=
      TaskRow.isAt_iff.2 ⟨hrp, hrt⟩
    simp only [hat', Bool.not_true, Bool.false_or, beq_iff_eq] at hs
    have hfound := h.task?_of_mem hrow
    rw [hrp, hrt] at hfound
    unfold Db.taskState?
    rw [hfound, Option.map_some, hs]
  · intro hall d hd
    by_cases hkey : d.planId = planId ∧ d.taskId = taskId
    · obtain ⟨hp, ht⟩ := hkey
      have hs := hall d hd hp ht
      simp only [hp, ht, beq_self_eq_true, Bool.and_self, Bool.not_true,
        Bool.false_or, List.all_eq_true]
      intro row hrow
      by_cases hat : row.isAt planId d.dependsOn = true
      · have hkey := TaskRow.isAt_iff.1 hat
        have hfound := h.task?_of_mem hrow
        rw [hkey.1, hkey.2] at hfound
        unfold Db.taskState? at hs
        rw [hfound, Option.map_some, Option.some.injEq] at hs
        simp only [hat, hs, Bool.not_true, Bool.false_or, beq_self_eq_true]
      · simp only [Bool.eq_false_iff.2 hat, Bool.not_false, Bool.true_or]
    · have hne : (d.planId == planId && d.taskId == taskId) = false := by
        rw [Bool.eq_false_iff]
        intro hboth
        simp only [Bool.and_eq_true, beq_iff_eq] at hboth
        exact hkey hboth
      simp only [hne, Bool.not_false, Bool.true_or]

/-- A row may be claimed exactly if its task may run. -/
theorem Db.RowsOk.eligible_iff (h : db.RowsOk) {row : TaskRow}
    (hrow : row ∈ db.tasks) :
    db.eligible planId row = true
      ↔ row.planId = planId ∧ db.MayRun planId row.taskId := by
  unfold Db.eligible Db.MayRun
  simp only [Bool.and_eq_true, beq_iff_eq, h.dependenciesDone_iff]
  constructor
  · rintro ⟨⟨hp, hs⟩, hd⟩
    have hfound := h.task?_of_mem hrow
    rw [hp] at hfound
    refine ⟨hp, ?_, hd⟩
    unfold Db.taskState?
    rw [hfound, Option.map_some, hs]
  · rintro ⟨hp, hs, hd⟩
    have hfound := h.task?_of_mem hrow
    rw [hp] at hfound
    unfold Db.taskState? at hs
    rw [hfound, Option.map_some, Option.some.injEq] at hs
    exact ⟨⟨hp, hs⟩, hd⟩

/-- A task that may run has an eligible row. -/
theorem Db.RowsOk.row_of_mayRun (h : db.RowsOk)
    (hmay : db.MayRun planId taskId) :
    ∃ row, db.task? planId taskId = some row
      ∧ row ∈ db.tasks.filter (db.eligible planId) := by
  have hs := hmay.1
  unfold Db.taskState? at hs
  obtain ⟨row, hfound, -⟩ := Option.map_eq_some_iff.1 hs
  obtain ⟨hmem, hp, ht⟩ := Db.task?_key hfound
  refine ⟨row, hfound, List.mem_filter.2 ⟨hmem, ?_⟩⟩
  rw [h.eligible_iff hmem, ht]
  exact ⟨hp, hmay⟩

/-- The least task is one of them, and the least. -/
theorem leastTask_some {rows : List TaskRow} {least : TaskRow}
    (h : Db.leastTask rows = some least) :
    least ∈ rows ∧ ∀ row ∈ rows, least.taskId ≤ row.taskId := by
  induction rows generalizing least with
  | nil => cases h
  | cons head rest ih =>
      unfold Db.leastTask at h
      cases hrest : Db.leastTask rest with
      | none =>
          rw [hrest] at h
          cases h
          refine ⟨List.mem_cons_self .., fun row hrow => ?_⟩
          rcases List.mem_cons.1 hrow with rfl | hrow
          · exact List.le_refl _
          · -- the rest has no least row, so it has none at all
            cases rest with
            | nil => cases hrow
            | cons next more =>
                unfold Db.leastTask at hrest
                split at hrest
                · cases hrest
                · split at hrest <;> cases hrest
      | some other =>
          obtain ⟨hmem, hle⟩ := ih hrest
          rw [hrest] at h
          simp only at h
          by_cases hlt : other.taskId < head.taskId
          · rw [if_pos hlt] at h
            cases h
            refine ⟨List.mem_cons_of_mem _ hmem, fun row hrow => ?_⟩
            rcases List.mem_cons.1 hrow with rfl | hrow
            · exact List.le_of_lt hlt
            · exact hle row hrow
          · rw [if_neg hlt] at h
            cases h
            refine ⟨List.mem_cons_self .., fun row hrow => ?_⟩
            rcases List.mem_cons.1 hrow with rfl | hrow
            · exact List.le_refl _
            · exact List.le_trans (List.not_lt.1 hlt) (hle row hrow)

/-- Only of no tasks is there no least one. -/
theorem leastTask_none {rows : List TaskRow}
    (h : Db.leastTask rows = none) : rows = [] := by
  cases rows with
  | nil => rfl
  | cons head rest =>
      unfold Db.leastTask at h
      split at h
      · cases h
      · split at h <;> cases h

/-- The query finds the least task that may run. -/
theorem Db.RowsOk.nextReady?_some (h : db.RowsOk) {row : TaskRow}
    (hrow : db.nextReady? planId = some row) :
    db.task? planId row.taskId = some row ∧ db.IsNext planId row.taskId := by
  obtain ⟨hmem, hleast⟩ := leastTask_some hrow
  obtain ⟨hin, helig⟩ := List.mem_filter.1 hmem
  obtain ⟨hp, hmay⟩ := (h.eligible_iff hin).1 helig
  have hfound := h.task?_of_mem hin
  rw [hp] at hfound
  refine ⟨hfound, hmay, fun other hother => ?_⟩
  obtain ⟨row', hfound', hmem'⟩ := h.row_of_mayRun hother
  obtain ⟨-, -, ht⟩ := Db.task?_key hfound'
  rw [← ht]
  exact hleast row' hmem'

/-- If there is no next task, none may run. -/
theorem Db.RowsOk.nextReady?_none (h : db.RowsOk)
    (hnone : db.nextReady? planId = none) (taskId : Bytes) :
    ¬db.MayRun planId taskId := by
  intro hmay
  obtain ⟨row, -, hmem⟩ := h.row_of_mayRun hmay
  rw [leastTask_none hnone] at hmem
  cases hmem

/-- The next task is the one that is found. -/
theorem Db.RowsOk.nextReady?_eq (h : db.RowsOk)
    (hnext : db.IsNext planId taskId) :
    ∃ row, db.nextReady? planId = some row ∧ row.taskId = taskId := by
  cases hrow : db.nextReady? planId with
  | none => exact absurd hnext.1 (h.nextReady?_none hrow taskId)
  | some row =>
      obtain ⟨-, hmay, hleast⟩ := h.nextReady?_some hrow
      exact ⟨row, rfl,
        List.le_antisymm (hleast taskId hnext.1) (hnext.2 row.taskId hmay)⟩

-- ======================================================= one claim

variable {epoch : Nat} {supplied : Option Bytes}

/-- A claim never joins a batch, whatever its connection remembers. -/
theorem claim_atomic (planId : Bytes) (epoch : Nat)
    (supplied : Option Bytes) :
    Atomic (fun _ => True)
      ((Call.claimNextReady planId epoch supplied).run : RepoM Reply)
      ((Call.claimNextReady planId epoch supplied).run : DbTxn Reply) := by
  refine Atomic.map (atomic_check fun _ _ => atomic_check fun _ _ => ?_) _
  exact .atomically (realises_claimNextReadyBody planId epoch supplied)

/-- A claim inside a batch is refused. -/
theorem claim_refused (planId : Bytes) (epoch : Nat)
    (supplied : Option Bytes) {P : BatchState → Db → Prop} :
    Joins P
      ((Call.claimNextReady planId epoch supplied).run : RepoM Reply)
      (throw (.internal "")) := by
  have hop : Joins P
      (Repository.claimNextReady planId epoch supplied : RepoM ClaimedTask)
      (throw (.internal "")) := by
    unfold Repository.claimNextReady
    cases checkIds planId (text "claim") with
    | error e => exact .throw e
    | ok _ =>
        cases checkEpochAttempt epoch
            (supplied.getD (text "generated")) with
        | error e => exact .throw e
        | ok _ => exact .refuses
  exact hop.map Reply.claimed

variable {σ : Store} {i : Nat} {faults : List (Option Bytes)}

/-- A claim that succeeds did its function to the committed tables. -/
theorem claim_step_ok {reply : Reply}
    (h : (σ.step i (.call (.claimNextReady planId epoch supplied))
      faults).1 = .ok reply) :
    ((Call.claimNextReady planId epoch supplied).run : DbTxn Reply)
        σ.committed
      = .ok (reply, (σ.step i
          (.call (.claimNextReady planId epoch supplied))
          faults).2.committed) := by
  cases hrun : ((Call.claimNextReady planId epoch supplied).run :
      RepoM Reply) (σ.repo i faults) with
  | mk r repo =>
      rw [Store.step_eq
        (.call (.claimNextReady planId epoch supplied)) hrun] at h ⊢
      simp only at h
      subst h
      obtain ⟨s, -, ht, -⟩ | ⟨ht, -, -⟩ := σ.repo_cases i faults
      · have hnest := claim_refused planId epoch supplied
          (P := fun _ _ => True)
        obtain ⟨_, hthrow, -⟩ := hnest.ok ht trivial hrun
        cases hthrow
      · have hout := (claim_atomic planId epoch supplied).outcome ht trivial
        rw [hrun] at hout
        show _ = Except.ok (reply, repo.committed)
        generalize repo.committed = db' at hout
        cases hout with
        | done hdone => exact hdone

/-- What the function of a claim does when it succeeds. -/
theorem claim_call_ok {reply : Reply}
    (h : ((Call.claimNextReady planId epoch supplied).run : DbTxn Reply) db
      = .ok (reply, db')) :
    ∃ claimed row, reply = .claimed claimed
      ∧ db.currentEpoch? planId = some epoch
      ∧ db.nextReady? planId = some row ∧ claimed.id = row.taskId
      ∧ db' = db.claim planId row.taskId (attemptIdFor planId row supplied)
          epoch := by
  obtain ⟨claimed, hop, rfl⟩ := answer_ok.1 h
  obtain ⟨_, -, hop⟩ := liftCheck_bind_ok.1 hop
  obtain ⟨_, -, hop⟩ := liftCheck_bind_ok.1 hop
  obtain ⟨hcur, row, hrow, -, -, -, -, hdb, hid, -⟩ :=
    claimNextReadyBody_ok.1 hop
  exact ⟨claimed, row, rfl, hcur, hrow, hid, hdb⟩

/-- The row the query finds is one the claim's update matches. -/
theorem Db.RowsOk.nextReady?_claimable (h : db.RowsOk) {row : TaskRow}
    (hrow : db.nextReady? planId = some row) :
    row.isClaimable planId row.taskId = true := by
  obtain ⟨hfound, hnext⟩ := h.nextReady?_some hrow
  obtain ⟨hmem, hp, -⟩ := Db.task?_key hfound
  have hs : row.state = .ready := by
    have := hnext.1.1
    unfold Db.taskState? at this
    rw [hfound, Option.map_some, Option.some.injEq] at this
    exact this
  rw [TaskRow.isClaimable_iff]
  refine ⟨⟨hp, rfl⟩, hs, h.idle row hmem ?_⟩
  rw [hs]
  exact TaskState.noConfusion

/-- The claimed task's row. -/
theorem Db.RowsOk.task?_claim (h : db.RowsOk) {row : TaskRow}
    (hrow : db.nextReady? planId = some row) (attemptId : Bytes)
    (epoch : Nat) :
    (db.claim planId row.taskId attemptId epoch).task? planId row.taskId
      = some (row.claim epoch attemptId) := by
  have hat : ∀ t : TaskRow, (t.claim epoch attemptId).isAt planId row.taskId
      = t.isAt planId row.taskId := fun _ => rfl
  refine (Db.task?_updateTasks (p := TaskRow.isClaimable planId row.taskId)
    hat db).trans ?_
  rw [(h.nextReady?_some hrow).1, Option.map_some,
    if_pos (h.nextReady?_claimable hrow)]

/-- A task that is claimed is running. -/
theorem Db.RowsOk.claim_running (h : db.RowsOk) {row : TaskRow}
    (hrow : db.nextReady? planId = some row) (attemptId : Bytes)
    (epoch : Nat) :
    (db.claim planId row.taskId attemptId epoch).taskState? planId
      row.taskId = some .running := by
  unfold Db.taskState?
  rw [h.task?_claim hrow]
  rfl

/-- The claim's update matches one row. -/
theorem Db.RowsOk.countP_claimable (h : db.RowsOk) {row : TaskRow}
    (hrow : db.nextReady? planId = some row) :
    db.tasks.countP (TaskRow.isClaimable planId row.taskId) = 1 := by
  have hclaim := h.nextReady?_claimable hrow
  obtain ⟨hmem, hp, -⟩ := Db.task?_key (h.nextReady?_some hrow).1
  refine countP_eq_one h.keys hmem hclaim fun other _ hsame => ?_
  obtain ⟨⟨hp', ht'⟩, -⟩ := TaskRow.isClaimable_iff.1 hsame
  exact Prod.ext (hp'.trans hp.symm) ht'

/-- A claim that is not blocked succeeds. -/
theorem Db.RowsOk.claim_succeeds (h : db.RowsOk)
    (hcur : db.currentEpoch? planId = some epoch)
    (hnext : db.IsNext planId taskId)
    (hfree : ¬db.ClaimBlocked planId taskId supplied) :
    ∃ claimed db', (claimNextReadyBody planId epoch supplied :
        DbTxn ClaimedTask) db = .ok (claimed, db') ∧ claimed.id = taskId := by
  obtain ⟨row, hrow, rfl⟩ := h.nextReady?_eq hnext
  obtain ⟨hfound, -⟩ := h.nextReady?_some hrow
  have hcount : row.attemptCount < uint32Max := by
    by_contra hfull
    exact hfree ⟨row, hfound, .inl (Nat.le_of_not_lt hfull)⟩
  have hfresh : db.attempts.any
      (·.attemptId == attemptIdFor planId row supplied) = false := by
    rw [List.any_eq_false]
    intro a ha htaken
    rw [beq_iff_eq] at htaken
    exact hfree ⟨row, hfound, .inr ⟨a, ha, htaken⟩⟩
  let claimed := row.claim epoch (attemptIdFor planId row supplied)
  refine ⟨⟨row.taskId, claimed.toRuntime⟩, _, claimNextReadyBody_ok.2
    ⟨hcur, row, hrow, hcount, h.countP_claimable hrow, hfresh,
      Db.hasTask_of_task? hfound, rfl, rfl, ?_⟩, rfl⟩
  refine readRuntimeWithStatement_ok.2 ⟨⟨claimed, h.task?_claim hrow _ _,
    ?_, ?_, rfl⟩, rfl⟩
  · exact hcount
  · exact Bool.false_ne_true

/-- Reading a task that is there never reports that it is not. -/
theorem readRuntimeWithStatement_error {row : TaskRow} {e : Status}
    (hrow : db.task? planId taskId = some row)
    (herr : (readRuntimeWithStatement planId taskId : DbTxn TaskRuntime) db
      = .error e) : e.code ≠ .notFound := by
  unfold readRuntimeWithStatement at herr
  rcases Txn.bind_eq_error.1 herr with h₁ | ⟨_, s, hsel, h₁⟩
  · cases h₁
  obtain ⟨rfl, rfl⟩ := select_ok.1 hsel
  simp only [hrow] at h₁
  rcases Txn.bind_eq_error.1 h₁ with h₂ | ⟨_, _, -, h₂⟩
  · rw [(require_error.1 h₂).2]
    exact StatusCode.noConfusion
  rcases Txn.bind_eq_error.1 h₂ with h₃ | ⟨_, _, -, h₃⟩
  · rw [(require_error.1 h₃).2]
    exact StatusCode.noConfusion
  · cases h₃

/-- Once the query has found a row, no error of the claim says
NotFound. -/
theorem Db.RowsOk.claim_error (h : db.RowsOk) {row : TaskRow} {e : Status}
    (hcur : db.currentEpoch? planId = some epoch)
    (hrow : db.nextReady? planId = some row)
    (herr : (claimNextReadyBody planId epoch supplied : DbTxn ClaimedTask)
      db = .error e) : e.code ≠ .notFound := by
  -- statement by statement: none of them reports that
  unfold claimNextReadyBody at herr
  rcases Txn.bind_eq_error.1 herr with h₁ | ⟨current, s, hread, h₁⟩
  · rw [readCurrentEpochForPlan_ok.2 ⟨hcur, rfl⟩] at h₁
    cases h₁
  obtain ⟨-, rfl⟩ := readCurrentEpochForPlan_ok.1 hread
  rcases Txn.bind_eq_error.1 h₁ with h₂ | ⟨_, _, hreq, h₂⟩
  · rw [(require_error.1 h₂).2]
    exact StatusCode.noConfusion
  obtain ⟨-, rfl⟩ := require_ok.1 hreq
  rcases Txn.bind_eq_error.1 h₂ with h₃ | ⟨_, s₁, hsel, h₃⟩
  · cases h₃
  obtain ⟨rfl, rfl⟩ := select_ok.1 hsel
  simp only [hrow] at h₃
  rcases Txn.bind_eq_error.1 h₃ with h₄ | ⟨_, s₂, hreq, h₄⟩
  · rw [(require_error.1 h₄).2]
    exact StatusCode.noConfusion
  obtain ⟨-, rfl⟩ := require_ok.1 hreq
  rcases Txn.bind_eq_error.1 h₄ with h₅ | ⟨n, s₃, hupd, h₅⟩
  · cases h₅
  obtain ⟨-, rfl⟩ := Prod.mk.inj (Except.ok.inj (write_ok.1 hupd))
  rcases Txn.bind_eq_error.1 h₅ with h₆ | ⟨_, s₄, hreq, h₆⟩
  · rw [(require_error.1 h₆).2]
    exact StatusCode.noConfusion
  obtain ⟨-, rfl⟩ := require_ok.1 hreq
  rcases Txn.bind_eq_error.1 h₆ with h₇ | ⟨_, s₅, hins, h₇⟩
  · change (if _ then Except.error _ else if _ then Except.error _
      else Except.ok _) = Except.error e at h₇
    split at h₇
    · cases h₇
      exact StatusCode.noConfusion
    · split at h₇
      · cases h₇
        exact StatusCode.noConfusion
      · cases h₇
  rw [write_ok] at hins
  have hs₅ : s₅.tasks = (s₂.claim planId row.taskId
      (attemptIdFor planId row supplied) epoch).tasks := by
    split at hins
    · cases hins
    · split at hins
      · cases hins
      · obtain ⟨-, rfl⟩ := Prod.mk.inj (Except.ok.inj hins)
        rfl
  rcases Txn.bind_eq_error.1 h₇ with h₈ | ⟨_, s₆, hevent, h₈⟩
  · change (if _ then Except.ok _ else Except.error _)
      = Except.error e at h₈
    split at h₈
    · cases h₈
    · cases h₈
      exact StatusCode.noConfusion
  obtain ⟨-, rfl⟩ := appendTaskEvent_ok.1 hevent
  rcases Txn.bind_eq_error.1 h₈ with h₉ | ⟨_, _, -, h₉⟩
  · -- the row is there, so reading it back can only find it malformed
    have hfound : (s₅.append (claimEvent planId row.taskId
        (attemptIdFor planId row supplied) epoch)).task? planId row.taskId
          = some (row.claim epoch (attemptIdFor planId row supplied)) := by
      rw [← h.task?_claim hrow]
      unfold Db.task? Db.append
      rw [hs₅]
    exact readRuntimeWithStatement_error hfound h₉
  · cases h₉

-- ===================================================== where errors come from

/-- The code of everything SQLite reports. -/
def Status.IsIo (e : Status) : Prop := e.code = .ioError

/-- What SQLite reports is an I/O error. -/
private theorem sqlite_isIo (operation : String) (errmsg : Bytes) :
    (Status.sqlite operation errmsg).IsIo := rfl

/-- A query fails with an I/O error only. -/
private theorem blames_select {α : Type} (operation : String) (f : Db → α) :
    Blames Status.IsIo (select operation f : RepoM α)
      (select operation f : DbTxn α) :=
  Blames.select (sqlite_isIo operation) f

/-- A statement fails with an I/O error, or its own. -/
private theorem blames_write {α : Type} (operation : String)
    (f : Db → Except Status (α × Db)) :
    Blames Status.IsIo (write operation f : RepoM α)
      (write operation f : DbTxn α) :=
  Blames.write (sqlite_isIo operation) _ f

/-- A condition fails with its own error only. -/
private theorem blames_require (p : Prop) [Decidable p] (error : Status) :
    Blames Status.IsIo (require p error : RepoM Unit)
      (require p error : DbTxn Unit) :=
  .ite (fun _ => .pure ()) fun _ => .throw error

/-- Reading the epoch. -/
theorem blames_readCurrentEpochForPlan (planId : Bytes) :
    Blames Status.IsIo (readCurrentEpochForPlan planId : RepoM Nat)
      (readCurrentEpochForPlan planId : DbTxn Nat) := by
  refine .bind (realises_select _ _) (blames_select _ _) fun epoch? => ?_
  cases epoch? with
  | none => exact .throw _
  | some epoch => exact .pure epoch

/-- Reading the runtime. -/
theorem blames_readRuntimeWithStatement (planId taskId : Bytes) :
    Blames Status.IsIo
      (readRuntimeWithStatement planId taskId : RepoM TaskRuntime)
      (readRuntimeWithStatement planId taskId : DbTxn TaskRuntime) := by
  refine .bind (realises_select _ _) (blames_select _ _) fun row? => ?_
  cases row? with
  | none => exact .throw _
  | some row =>
      refine .bind (realises_require _ _) (blames_require _ _) fun _ => ?_
      refine .bind (realises_require _ _) (blames_require _ _) fun _ => ?_
      exact .pure _

/-- A claim fails with an I/O error, or its own. -/
theorem blames_claimNextReadyBody (planId : Bytes) (epoch : Nat)
    (supplied : Option Bytes) :
    Blames Status.IsIo
      (claimNextReadyBody planId epoch supplied : RepoM ClaimedTask)
      (claimNextReadyBody planId epoch supplied : DbTxn ClaimedTask) := by
  unfold claimNextReadyBody
  refine .bind (realises_readCurrentEpochForPlan _)
    (blames_readCurrentEpochForPlan _) fun _ => ?_
  refine .bind (realises_require _ _) (blames_require _ _) fun _ => ?_
  refine .bind (realises_select _ _) (blames_select _ _) fun row? => ?_
  cases row? with
  | none => exact .throw _
  | some row =>
      refine .bind (realises_require _ _) (blames_require _ _) fun _ => ?_
      refine .bind (realises_write _ _) (blames_write _ _) fun _ => ?_
      refine .bind (realises_require _ _) (blames_require _ _) fun _ => ?_
      refine .bind (realises_write _ _) (blames_write _ _) fun _ => ?_
      refine .bind (realises_appendTaskEvent _) (blames_write _ _)
        fun _ => ?_
      refine .bind (realises_readRuntimeWithStatement _ _)
        (blames_readRuntimeWithStatement _ _) fun _ => ?_
      exact .pure _

/-- Ids that are refused are an invalid argument. -/
theorem checkIds_error {p t : Bytes} {e : Status}
    (h : checkIds p t = .error e) : e.code = .invalidArgument := by
  unfold checkIds at h
  split at h
  · cases h
    rfl
  · split at h
    · cases h
      rfl
    · cases h

/-- An epoch or an attempt that is refused is an invalid argument. -/
theorem checkEpochAttempt_error {e : Nat} {a : Bytes} {err : Status}
    (h : checkEpochAttempt e a = .error err) :
    err.code = .invalidArgument := by
  unfold checkEpochAttempt at h
  split at h
  · cases h
    rfl
  · split at h
    · cases h
      rfl
    · cases h

/-- NotFound from a claim under the current epoch is the query's. -/
theorem claim_step_notFound {e : Status}
    (hrows : σ.committed.RowsOk)
    (hcur : σ.committed.currentEpoch? planId = some epoch)
    (h : (σ.step i (.call (.claimNextReady planId epoch supplied))
      faults).1 = .error e) (hcode : e.code = .notFound) :
    σ.committed.nextReady? planId = none := by
  have hop : ∃ repo', (Repository.claimNextReady planId epoch supplied :
      RepoM ClaimedTask) (σ.repo i faults) = (.error e, repo') := by
    cases hrun : (Repository.claimNextReady planId epoch supplied :
        RepoM ClaimedTask) (σ.repo i faults) with
    | mk r repo' =>
        rw [Store.step_eq (.call (.claimNextReady planId epoch supplied))
          (answer_run hrun)] at h
        cases r with
        | ok a => cases h
        | error e' =>
            cases h
            exact ⟨repo', rfl⟩
  -- the checks of the arguments report an invalid one
  obtain ⟨repo', hop⟩ := hop
  unfold Repository.claimNextReady at hop
  cases hids : checkIds planId (text "claim") with
  | error e' =>
      rw [hids] at hop
      cases hop
      rw [checkIds_error hids] at hcode
      cases hcode
  | ok _ =>
  cases hargs : checkEpochAttempt epoch
      (supplied.getD (text "generated")) with
  | error e' =>
      rw [hids, hargs] at hop
      cases hop
      rw [checkEpochAttempt_error hargs] at hcode
      cases hcode
  | ok _ =>
  rw [hids, hargs] at hop
  have hbody : Session.atomically executeError nestedMessage lockedMessage
      inactiveMessage (claimNextReadyBody planId epoch supplied)
        (σ.repo i faults) = (.error e, repo') := hop
  obtain ⟨s, -, ht, -⟩ | ⟨ht, -, -⟩ := σ.repo_cases i faults
  · -- inside a transaction the claim fails at its `BEGIN`
    obtain ⟨err, repo₁, hbegin, -⟩ := beginImmediate_nested executeError
      nestedMessage lockedMessage ht
    have hio : Status.IsIo err := by
      unfold beginImmediate at hbegin
      split at hbegin
      · cases hbegin
        rfl
      · split at hbegin
        · cases hbegin
          rfl
        · split at hbegin <;> cases hbegin
          rfl
    simp only [Session.atomically, bind_apply, hbegin] at hbody
    cases hbody
    rw [hio] at hcode
    cases hcode
  -- in a transaction of its own it fails with an I/O error, or by itself
  · rcases Blames.atomically (sqlite_isIo "execute SQLite statement")
        (blames_claimNextReadyBody planId epoch supplied) ht hbody with
      hio | hpure
    · rw [hio] at hcode
      cases hcode
    · cases hrow : σ.committed.nextReady? planId with
      | none => rfl
      | some row => exact absurd hcode (hrows.claim_error hcur hrow hpure)

-- ====================================================== chains of states

/-- A version chain whose newest state is PLANNED or absent has no other
states. -/
theorem unstarted_of_newest {key : Db → Option TaskState}
    {versions : List Db}
    (h : versions.IsChain fun new old => StateStep (key old) (key new))
    (hnew : ∀ v ∈ versions.head?, key v = none ∨ key v = some .planned) :
    ∀ v ∈ versions, key v = none ∨ key v = some .planned := by
  induction versions with
  | nil =>
      intro v hv
      cases hv
  | cons newest rest ih =>
      have hhead := hnew newest rfl
      rw [List.isChain_cons] at h
      have hrest : ∀ v ∈ rest.head?, key v = none ∨ key v = some .planned := by
        intro v hv
        have hstep := h.1 v hv
        cases hold : key v with
        | none => exact .inl rfl
        | some old =>
            right
            rw [hold] at hstep
            rcases hhead with hn | hn <;> rw [hn] at hstep
            · cases hstep
            · cases hstep with
              | same => rfl
              | moved hmove => cases old <;> cases hmove
      intro v hv
      rcases List.mem_cons.1 hv with rfl | hv
      · exact hhead
      · exact ih h.2 hrest v hv

/-- From RUNNING back to READY a task goes through RETRYABLE. -/
theorem retryable_between {key : Db → Option TaskState}
    {newer older : List Db} {base : Db}
    (h : (newer ++ base :: older).IsChain
      fun new old => StateStep (key old) (key new))
    (hbase : key base = some .running)
    (hnew : ∀ v ∈ (newer ++ base :: older).head?, key v = some .ready) :
    ∃ newest ready between retryable rest,
      newer = newest ++ ready :: (between ++ retryable :: rest)
        ∧ key retryable = some .retryable ∧ key ready = some .ready := by
  induction newer with
  | nil =>
      have hready := hnew base rfl
      rw [hbase] at hready
      cases hready
  | cons head rest ih =>
      have hhead := hnew head rfl
      rw [List.cons_append, List.isChain_cons] at h
      cases hr : (rest ++ base :: older).head? with
      | none => simp at hr
      | some next =>
          have hstep := h.1 next hr
          rw [hhead] at hstep
          cases hold : key next with
          | none =>
              rw [hold] at hstep
              cases hstep
          | some old =>
              rw [hold] at hstep
              cases hstep with
              | same =>
                  -- the task was READY already: go on from there
                  have hall : ∀ v ∈ (rest ++ base :: older).head?,
                      key v = some .ready := by
                    intro v hv
                    rw [hr] at hv
                    cases hv
                    exact hold
                  obtain ⟨newest, ready, between, retryable, tail, hsplit,
                    hkeys⟩ := ih h.2 hall
                  exact ⟨head :: newest, ready, between, retryable, tail,
                    by rw [hsplit]; rfl, hkeys⟩
              | moved hmove =>
                  have hcases : old = .planned ∨ old = .retryable := by
                    cases old <;> simp_all [TaskState.isValidTransition]
                  rcases hcases with rfl | rfl
                  · -- a task that was only planned never ran
                    have hall : ∀ v ∈ (rest ++ base :: older).head?,
                        key v = none ∨ key v = some .planned := by
                      intro v hv
                      rw [hr] at hv
                      cases hv
                      exact .inr hold
                    have hun := unstarted_of_newest h.2 hall base (by simp)
                    rw [hbase] at hun
                    rcases hun with hun | hun <;> cases hun
                  · cases rest with
                    | nil =>
                        simp only [List.nil_append, List.head?_cons,
                          Option.some.injEq] at hr
                        subst hr
                        rw [hbase] at hold
                        cases hold
                    | cons next' tail =>
                        simp only [List.cons_append, List.head?_cons,
                          Option.some.injEq] at hr
                        subst hr
                        exact ⟨[], head, [], next', tail, rfl, hold, hhead⟩

-- ============================================================ all runs

variable {rule : Store → Nat → Action → Prop}

/-- In every run a task moves along the steps it may take. -/
theorem Moment.Traced.statesStep {m : Moment} (h : m.Traced) :
    m.past.committed.IsChain (fun new old => StatesStep old new) :=
  h.chain.imp fun _ _ hm => moved_statesStep hm

/-- A final state stays. -/
theorem Db.Moved.final {state : TaskState}
    (hstate : state = .succeeded ∨ state = .inconsistent)
    (hm : db.Moved db') (h : db.taskState? planId taskId = some state) :
    db'.taskState? planId taskId = some state := by
  have hstep := moved_statesStep hm planId taskId
  rw [h] at hstep
  generalize db'.taskState? planId taskId = new at hstep
  cases hstep with
  | same => rfl
  | moved hmove => rcases hstate with rfl | rfl <;> cases hmove

/-- With the lock free and no fault to come, a claim with accepted
arguments answers what its body answers. -/
theorem claim_step_quiet (hfree : σ.writer = none)
    (hids : checkIds planId (text "claim") = .ok ())
    (hargs : checkEpochAttempt epoch (supplied.getD (text "generated"))
      = .ok ()) :
    (σ.step i (.call (.claimNextReady planId epoch supplied)) []).1
      = ((claimNextReadyBody planId epoch supplied : DbTxn ClaimedTask)
          σ.committed).map fun p => Reply.claimed p.1 := by
  have ht : (σ.repo i []).txn = none := by
    simp only [Store.repo, hfree]
  have hb : (σ.repo i []).busy = false := by
    simp only [Store.repo, hfree]
  have hquiet := ((claim_atomic planId epoch supplied).quiet ht trivial rfl
    hb).1
  have hpure : ((Call.claimNextReady planId epoch supplied).run :
      DbTxn Reply) σ.committed
        = (answer Reply.claimed (claimNextReadyBody planId epoch supplied) :
            DbTxn Reply) σ.committed := by
    show (answer Reply.claimed (Repository.claimNextReady planId epoch
      supplied) : DbTxn Reply) σ.committed = _
    unfold Repository.claimNextReady
    rw [hids, hargs]
    rfl
  refine hquiet.trans ?_
  show (((Call.claimNextReady planId epoch supplied).run : DbTxn Reply)
    σ.committed).map Prod.fst = _
  rw [hpure]
  cases hbody : (claimNextReadyBody planId epoch supplied :
      DbTxn ClaimedTask) σ.committed with
  | error e =>
      have herr : (answer Reply.claimed
          (claimNextReadyBody planId epoch supplied) : DbTxn Reply)
            σ.committed = .error e := Txn.bind_eq_error.2 (.inl hbody)
      rw [herr]
      rfl
  | ok p =>
      rw [answer_ok.2 ⟨p.1, hbody, rfl⟩]
      rfl

/-- A claim when no task may run. -/
theorem Db.RowsOk.claim_nothing (h : db.RowsOk)
    (hcur : db.currentEpoch? planId = some epoch)
    (hnone : ∀ taskId, ¬db.MayRun planId taskId) :
    (claimNextReadyBody planId epoch supplied : DbTxn ClaimedTask) db
      = .error (.notFound "no eligible ready task exists") := by
  have hrow : db.nextReady? planId = none := by
    cases hrow : db.nextReady? planId with
    | none => rfl
    | some row =>
        exact absurd (h.nextReady?_some hrow).2.1 (hnone row.taskId)
  unfold claimNextReadyBody
  refine Txn.bind_eq_error.2 (.inr ⟨epoch, db,
    readCurrentEpochForPlan_ok.2 ⟨hcur, rfl⟩, ?_⟩)
  refine Txn.bind_eq_error.2 (.inr ⟨(), db, require_ok.2 ⟨rfl, rfl⟩, ?_⟩)
  refine Txn.bind_eq_error.2 (.inr ⟨none, db,
    select_ok.2 ⟨hrow.symm, rfl⟩, ?_⟩)
  rfl

/-- The versions between a claim and the next one of the same task. -/
theorem Moment.Reached.reclaimed {m m' : Moment} {i' : Nat}
    {epoch' : Nat} {supplied' : Option Bytes}
    {faults' : List (Option Bytes)} {task task' : ClaimedTask}
    (hfresh : db.Fresh) (hrun : m.Reached rule db)
    (hrule : rule m.store i
      (.call (.claimNextReady planId epoch supplied)))
    (hok : (m.store.step i (.call (.claimNextReady planId epoch supplied))
      faults).1 = .ok (.claimed task))
    (hleads : (m.act i (.call (.claimNextReady planId epoch supplied))
      faults).Leads rule m')
    (hok' : (m'.store.step i'
      (.call (.claimNextReady planId epoch' supplied')) faults').1
        = .ok (.claimed task'))
    (hid : task'.id = task.id) :
    ∃ newest newer ready between retryable,
      m'.past.committed = newest ++ ready :: (between ++ retryable
          :: (newer ++ (m.act i
            (.call (.claimNextReady planId epoch supplied))
            faults).past.committed))
        ∧ Db.taskState? retryable planId task.id = some .retryable
        ∧ Db.taskState? ready planId task.id = some .ready := by
  have hrows := hrun.rowsOk hfresh
  generalize hm₁ : m.act i (.call (.claimNextReady planId epoch supplied))
    faults = m₁ at hleads
  have hrun₁ : m₁.Reached rule db := by
    rw [← hm₁]
    exact Relation.ReflTransGen.tail hrun (.act m i _ faults hrule)
  have hrun' : m'.Reached rule db := hrun₁.trans hleads
  -- the first claim leaves the task RUNNING
  have hrunning : m₁.store.committed.taskState? planId task.id
      = some .running := by
    obtain ⟨_, row, hreply, -, hrow, hid₁, hdb⟩ :=
      claim_call_ok (claim_step_ok hok)
    cases hreply
    rw [← hm₁, hid₁]
    show (m.store.step i _ faults).2.committed.taskState? planId
      row.taskId = _
    rw [hdb]
    exact hrows.claim_running hrow _ _
  -- the second one finds it READY
  have hready : m'.store.committed.taskState? planId task.id
      = some .ready := by
    obtain ⟨_, row, hreply, -, hrow, hid₂, -⟩ :=
      claim_call_ok (claim_step_ok hok')
    cases hreply
    rw [← hid, hid₂]
    exact ((hrun'.rowsOk hfresh).nextReady?_some hrow).2.1.1
  -- and the versions in between form a chain
  have htraced' := hrun'.traced
  obtain ⟨newer, hnewer⟩ := hleads.grows
  obtain ⟨older, hpast⟩ : ∃ older,
      m₁.past.committed = m₁.store.committed :: older :=
    List.head?_eq_some_iff.1 hrun₁.traced.present
  rw [hpast] at hnewer
  have hchain : (newer ++ m₁.store.committed :: older).IsChain
      fun new old => StateStep (old.taskState? planId task.id)
        (new.taskState? planId task.id) := by
    rw [hnewer]
    exact htraced'.statesStep.imp fun _ _ hstep => hstep planId task.id
  have hhead : ∀ v ∈ (newer ++ m₁.store.committed :: older).head?,
      v.taskState? planId task.id = some .ready := by
    intro v hv
    rw [hnewer, htraced'.present] at hv
    cases hv
    exact hready
  obtain ⟨newest, ready, between, retryable, rest, hsplit, hre, hrd⟩ :=
    retryable_between hchain hrunning hhead
  refine ⟨newest, rest, ready, between, retryable, ?_, hre, hrd⟩
  rw [hpast, ← hnewer, hsplit]
  simp only [List.append_assoc, List.cons_append]

/-- Claims are in order and task states follow the table, whatever the
clients do. -/
theorem claimsInOrder_anyCall : ClaimsInOrder anyCall where
  claimed := by
    intro db m hfresh hrun i planId epoch supplied faults task hok
    obtain ⟨claimed, row, hreply, hcur, hrow, hid, -⟩ :=
      claim_call_ok (claim_step_ok hok)
    cases hreply
    rw [hid]
    exact ⟨hcur, ((hrun.rowsOk hfresh).nextReady?_some hrow).2⟩
  notFound := by
    intro db m hfresh hrun i planId epoch supplied faults error hcur herr
      hcode taskId
    have hrows := hrun.rowsOk hfresh
    exact hrows.nextReady?_none
      (claim_step_notFound hrows hcur herr hcode) taskId
  answers := by
    intro db m hfresh hrun i planId epoch supplied hfree hids hargs hcur
    have hrows := hrun.rowsOk hfresh
    have hquiet := claim_step_quiet (i := i) hfree hids hargs
    refine ⟨fun hnone => ?_, fun taskId hnext hopen => ?_⟩
    · rw [hrows.claim_nothing hcur hnone] at hquiet
      exact hquiet
    · obtain ⟨claimed, db', hbody, hid⟩ :=
        hrows.claim_succeeds hcur hnext hopen
      rw [hbody] at hquiet
      exact ⟨claimed, hquiet, hid⟩
  reclaimed := by
    intro db m m' hfresh hrun i i' planId epoch epoch' supplied supplied'
      faults faults' task task' claim claim' hrule hok hleads hok' hid
    exact hrun.reclaimed hfresh hrule hok hleads hok' hid
  transitions := by
    intro db m hrun
    have htraced := hrun.traced
    refine ⟨htraced.statesStep, ?_⟩
    rw [List.isChain_append]
    refine ⟨htraced.copies.imp fun _ _ hm => moved_statesStep hm,
      htraced.statesStep, fun x hx y hy => ?_⟩
    -- the working copy began as the committed tables
    have hne : m.store.writer ≠ none := by
      intro hnone
      rw [htraced.idle hnone] at hx
      cases hx
    rw [htraced.base hne] at hx
    rw [htraced.present] at hy
    cases hx
    cases hy
    exact fun _ _ => .same _
  final := by
    intro db m m' hrun hleads planId taskId state hstate h
    have hkeep : ∀ {s s' : Db}, s.Moved s' →
        s.taskState? planId taskId = some state →
        s'.taskState? planId taskId = some state :=
      fun hm h => hm.final hstate h
    exact (hleads.keeps hkeep h (hrun.traced.keeps_working hkeep h)).1

-- =================================================== a taken attempt id

/-- Two tasks are released, and the first is claimed as attempt `a`. -/
def takenHistory : List (Nat × Action) :=
  let second : TaskSpec :=
    { plannedTask with id := text "u", taskKey := text "u" }
  [(0, .call (.acquireNextExecutionEpoch (text "p"))),
    (0, .call (.addTask (text "p") plannedTask)),
    (0, .call (.addTask (text "p") second)),
    (0, .call (.setReady (text "p") (text "t"))),
    (0, .call (.setReady (text "p") (text "u"))),
    (0, .call (.claimNextReady (text "p") 1 (some (text "a"))))]

/-- A claim under the current epoch does not always get the least task
that may run: with the attempt id `a` again, it fails although the second
task may run. -/
theorem not_claims_least :
    ¬∀ {db : Db} {m : Moment}, db.Fresh → m.Reached anyCall db →
      ∀ (i : Nat) (planId : Bytes) (epoch : Nat) (supplied : Option Bytes),
      m.store.writer = none →
      m.store.committed.currentEpoch? planId = some epoch →
      ∀ taskId, m.store.committed.IsNext planId taskId →
      ∃ task, (m.store.step i
          (.call (.claimNextReady planId epoch supplied)) []).1
            = .ok (.claimed task)
        ∧ task.id = taskId := by
  intro h
  have hfresh : plannedDb.Fresh := ⟨rfl, rfl, rfl, rfl, rfl⟩
  obtain ⟨past, hrun⟩ := (Run.after (.start : Run _ plannedDb _ _)
    takenHistory).reached
  have hrows := hrun.rowsOk hfresh
  have hrow : ((((Store.opened plannedDb).after [] takenHistory
      ).1.committed.nextReady? (text "p")).map (·.taskId))
        = some (text "u") := by decide
  obtain ⟨row, hrow, -⟩ := Option.map_eq_some_iff.1 hrow
  have hfree : ((Store.opened plannedDb).after [] takenHistory).1.writer
      = none := by decide
  have hcur : ((Store.opened plannedDb).after [] takenHistory
      ).1.committed.currentEpoch? (text "p") = some 1 := by decide
  obtain ⟨task, hok, -⟩ := h hfresh hrun 0 (text "p") 1 (some (text "a"))
    hfree hcur row.taskId (hrows.nextReady?_some hrow).2
  have herr : (((Store.opened plannedDb).after [] takenHistory).1.step 0
      (.call (.claimNextReady (text "p") 1 (some (text "a")))) []).1
        = .error (.sqlite "insert task attempt"
          (text "UNIQUE constraint failed: task_attempt.attempt_id")) := by
    decide
  rw [hok] at herr
  cases herr

end PhotoBridge
