/-
Attempt ids are never taken twice. Every attempt is numbered by the
count its task had when it was claimed, counts only grow, and an id
determines plan, task and number; so the id the next claim generates is
one no attempt has (`Db.Numbered.free`), and the primary key of
`task_attempt`, which is global, does not get in its way.

The runs are those of the program: tasks are added under the keys
`TaskKeyFor` makes, and claims generate their attempt ids, as
`RuntimeDbWriter` has them do.
-/
import PhotoBridge.Db.Proofs.Claims
import PhotoBridge.Db.Proofs.Rows
import PhotoBridge.Plan.Proofs.Identifiers

namespace PhotoBridge

open Transaction

variable {db db' : Db} {planId : Bytes}

-- ============================================================ numbering

/-- Task keys are distinct and as `TaskKeyFor` makes them, and every
attempt bears a number its task has counted. -/
structure Db.Numbered (db : Db) : Prop where
  keys : (db.tasks.map fun t => (t.planId, t.taskId)).Nodup
  shaped : ∀ row ∈ db.tasks, IsTaskKey row.taskId
  numbered : ∀ attempt ∈ db.attempts, ∃ row ∈ db.tasks,
    ∃ n ≤ row.attemptCount,
      attempt.attemptId = generatedAttemptId row.planId row.taskId n

theorem Db.Fresh.numbered (h : db.Fresh) : db.Numbered := by
  obtain ⟨ht, -, ha, -⟩ := h
  refine ⟨?_, ?_, ?_⟩ <;> simp [ht, ha]

/-- The id of a task's next attempt is free. -/
theorem Db.Numbered.free (h : db.Numbered) {row : TaskRow}
    (hrow : row ∈ db.tasks) :
    ∀ attempt ∈ db.attempts, attempt.attemptId
      ≠ generatedAttemptId row.planId row.taskId (row.attemptCount + 1) := by
  intro attempt hattempt heq
  obtain ⟨other, hother, n, hn, hid⟩ := h.numbered attempt hattempt
  obtain ⟨hplan, htask, hnumber⟩ := generatedAttemptId_inj
    (h.shaped other hother) (h.shaped row hrow) (hid.symm.trans heq)
  have hsame : other = row :=
    List.inj_on_of_nodup_map h.keys hother hrow (Prod.ext hplan htask)
  rw [hsame] at hn
  omega

-- ============================================================ one call

/-- Every task of `db` is one of `db'`, with no fewer attempts counted. -/
def Db.CountsGrew (db db' : Db) : Prop :=
  ∀ row ∈ db.tasks, ∃ row' ∈ db'.tasks, row'.planId = row.planId
    ∧ row'.taskId = row.taskId ∧ row.attemptCount ≤ row'.attemptCount

theorem Db.CountsGrew.numbered (h : db.CountsGrew db')
    {attemptId : Bytes}
    (hid : ∃ row ∈ db.tasks, ∃ n ≤ row.attemptCount,
      attemptId = generatedAttemptId row.planId row.taskId n) :
    ∃ row ∈ db'.tasks, ∃ n ≤ row.attemptCount,
      attemptId = generatedAttemptId row.planId row.taskId n := by
  obtain ⟨row, hrow, n, hn, hid⟩ := hid
  obtain ⟨row', hrow', hplan, htask, hcount⟩ := h row hrow
  refine ⟨row', hrow', n, Nat.le_trans hn hcount, ?_⟩
  rw [hid, hplan, htask]

/-- Nothing is lost with rows that count the same. -/
theorem Db.Numbered.same (h : db.Numbered) (hsame : db.SameRows db') :
    db'.Numbered := by
  have hkey : ∀ s : Db, s.tasks.map (fun t => (t.planId, t.taskId))
      = (s.tasks.map TaskRow.counted).map fun k => (k.1, k.2.1) := by
    intro s
    rw [List.map_map]
    rfl
  have hback : ∀ row' ∈ db'.tasks, ∃ row ∈ db.tasks,
      row.counted = row'.counted := by
    intro row' hrow'
    have hmem := List.mem_map_of_mem (f := TaskRow.counted) hrow'
    rw [hsame.tasks] at hmem
    exact List.mem_map.1 hmem
  have hgrew : db.CountsGrew db' := by
    intro row hrow
    have hmem := List.mem_map_of_mem (f := TaskRow.counted) hrow
    rw [← hsame.tasks] at hmem
    obtain ⟨row', hrow', hcounted⟩ := List.mem_map.1 hmem
    simp only [TaskRow.counted, Prod.mk.injEq] at hcounted
    exact ⟨row', hrow', hcounted.1, hcounted.2.1, hcounted.2.2.ge⟩
  refine ⟨?_, ?_, ?_⟩
  · rw [hkey, hsame.tasks, ← hkey]
    exact h.keys
  · intro row' hrow'
    obtain ⟨row, hrow, hcounted⟩ := hback row' hrow'
    simp only [TaskRow.counted, Prod.mk.injEq] at hcounted
    rw [← hcounted.2.1]
    exact h.shaped row hrow
  · intro attempt hattempt
    have hmem := List.mem_map_of_mem (f := AttemptRow.attemptId) hattempt
    rw [hsame.attempts] at hmem
    obtain ⟨old, hold, hid⟩ := List.mem_map.1 hmem
    rw [← hid]
    exact hgrew.numbered (h.numbered old hold)

theorem Db.Numbered.addTaskRow (h : db.Numbered) {task : TaskSpec}
    (hfree : db.taskRefused (Db.newTaskRow planId task) = false)
    (hkey : IsTaskKey task.id) :
    (db.addTaskRow (Db.newTaskRow planId task)).Numbered := by
  have hgrew : db.CountsGrew (db.addTaskRow (Db.newTaskRow planId task)) :=
    fun row hrow => ⟨row, List.mem_append_left _ hrow, rfl, rfl,
      Nat.le_refl _⟩
  refine ⟨?_, ?_, fun attempt hattempt =>
    hgrew.numbered (h.numbered attempt hattempt)⟩
  · show ((db.tasks ++ [_]).map _).Nodup
    rw [List.map_append, List.nodup_append]
    refine ⟨h.keys, List.nodup_singleton _, ?_⟩
    intro a ha b hb hab
    obtain ⟨row, hrow, rfl⟩ := List.mem_map.1 ha
    rw [List.map_singleton, List.mem_singleton] at hb
    rw [hb] at hab
    obtain ⟨hplan, htask⟩ := Prod.mk.inj hab
    unfold Db.taskRefused at hfree
    rw [Bool.or_eq_false_iff, List.any_eq_false] at hfree
    refine hfree.2 row hrow ?_
    rw [hplan, htask]
    simp
  · intro row hrow
    rcases List.mem_append.1 hrow with hrow | hrow
    · exact h.shaped row hrow
    · rw [List.mem_singleton.1 hrow]
      exact hkey

/-- What the query of a claim finds is a row of the plan. -/
theorem Db.nextReady?_mem {row : TaskRow}
    (hrow : db.nextReady? planId = some row) :
    row ∈ db.tasks ∧ row.planId = planId := by
  obtain ⟨hmem, -⟩ := leastTask_some hrow
  obtain ⟨hin, helig⟩ := List.mem_filter.1 hmem
  unfold Db.eligible at helig
  simp only [Bool.and_eq_true, beq_iff_eq] at helig
  exact ⟨hin, helig.1.1⟩

/-- A claim counts the attempt it begins. -/
theorem Db.Numbered.claim (h : db.Numbered) {row : TaskRow}
    (hrow : db.nextReady? planId = some row)
    (hcount : db.tasks.countP (TaskRow.isClaimable planId row.taskId) = 1)
    (epoch : Nat) :
    (db.claim planId row.taskId (attemptIdFor planId row none)
      epoch).Numbered := by
  obtain ⟨hmem, hplan⟩ := Db.nextReady?_mem hrow
  let update := fun t : TaskRow =>
    if TaskRow.isClaimable planId row.taskId t
    then t.claim epoch (attemptIdFor planId row none) else t
  have hupdate : ∀ t, (update t).planId = t.planId
      ∧ (update t).taskId = t.taskId
      ∧ t.attemptCount ≤ (update t).attemptCount := by
    intro t
    simp only [update]
    split
    · exact ⟨rfl, rfl, Nat.le_succ _⟩
    · exact ⟨rfl, rfl, Nat.le_refl _⟩
  have hgrew : db.CountsGrew (db.claim planId row.taskId
      (attemptIdFor planId row none) epoch) := fun t ht =>
    ⟨update t, List.mem_map_of_mem ht, hupdate t⟩
  -- the row the update matches is the one the query found
  have hclaimable : row.isClaimable planId row.taskId = true := by
    have hpos : 0 < db.tasks.countP
        (TaskRow.isClaimable planId row.taskId) := by omega
    obtain ⟨other, hother, hclaim⟩ := List.countP_pos_iff.1 hpos
    obtain ⟨⟨hp, ht⟩, -⟩ := TaskRow.isClaimable_iff.1 hclaim
    have hsame : other = row := List.inj_on_of_nodup_map h.keys hother hmem
      (Prod.ext (hp.trans hplan.symm) ht)
    rw [← hsame] at hclaim ⊢
    exact hclaim
  refine ⟨?_, ?_, ?_⟩
  · have hkeys : ((db.tasks.map update).map fun t => (t.planId, t.taskId))
        = db.tasks.map fun t => (t.planId, t.taskId) := by
      rw [List.map_map]
      exact List.map_congr_left fun t _ =>
        Prod.ext (hupdate t).1 (hupdate t).2.1
    show ((db.tasks.map update).map _).Nodup
    rw [hkeys]
    exact h.keys
  · intro t ht
    obtain ⟨old, hold, rfl⟩ := List.mem_map.1 ht
    rw [(hupdate old).2.1]
    exact h.shaped old hold
  · intro attempt hattempt
    rcases List.mem_append.1 hattempt with hold | hnew
    · exact hgrew.numbered (h.numbered attempt hold)
    · rw [List.mem_singleton.1 hnew]
      refine ⟨update row, List.mem_map_of_mem hmem, row.attemptCount + 1,
        ?_, ?_⟩
      · simp only [update, if_pos hclaimable]
        exact Nat.le_refl _
      · rw [(hupdate row).1, (hupdate row).2.1, hplan]
        rfl

-- ================================================================ runs

/-- How the program issues calls: batches stop at an error, tasks are
added under their keys, claims generate their attempt ids. -/
def keyedCalls (σ : Store) (i : Nat) (action : Action) : Prop :=
  stopsAtError σ i action
    ∧ (∀ planId task, action = .call (.addTask planId task) →
        IsTaskKey task.id)
    ∧ ∀ planId epoch supplied,
        action = .call (.claimNextReady planId epoch supplied) →
        supplied = none

private theorem call_numbered {σ : Store} {i : Nat} {c : Call} {r : Reply}
    (hrule : keyedCalls σ i (.call c))
    (h : (c.run : DbTxn Reply) db = .ok (r, db')) (hnum : db.Numbered) :
    db'.Numbered := by
  cases call_counted c h with
  | same hsame => exact hnum.same hsame
  | addTask hfree => exact hnum.addTaskRow hfree (hrule.2.1 _ _ rfl)
  | addDependency => exact ⟨hnum.keys, hnum.shaped, hnum.numbered⟩
  | claim hrow hcount =>
      have hnone := hrule.2.2 _ _ _ rfl
      subst hnone
      exact hnum.claim hrow hcount _

/-- Along every run of such calls attempts are numbered. -/
theorem Run.numbered {t : List Event} {σ : Store}
    (hrun : Run keyedCalls db t σ) (h : db.Fresh) :
    σ.All Db.Numbered :=
  hrun.all (fun _ _ _ hrule => hrule.1)
    (fun _ _ _ _ _ _ hrule hcall => call_numbered hrule hcall)
    (fun _ _ _ _ h => ⟨h.keys, h.shaped, h.numbered⟩) h.numbered

/-- Every store of a run is that of a moment. -/
theorem Run.moment {rule : Store → Nat → Action → Prop} {t : List Event}
    {σ : Store} (hrun : Run rule db t σ) :
    ∃ m : Moment, m.Reached rule db ∧ m.store = σ := by
  induction hrun with
  | start => exact ⟨Moment.start db, .refl, rfl⟩
  | act _ i action faults hrule ih =>
      obtain ⟨m, hm, rfl⟩ := ih
      exact ⟨m.act i action faults, hm.tail (.act m i action faults hrule),
        rfl⟩
  | close _ i ih =>
      obtain ⟨m, hm, rfl⟩ := ih
      exact ⟨m.close i, hm.tail (.close m i), rfl⟩
  | plan _ hfree manifests migrations plans ih =>
      obtain ⟨m, hm, rfl⟩ := ih
      exact ⟨m.plan manifests migrations plans,
        hm.tail (.plan m hfree manifests migrations plans), rfl⟩

/-- In every store of a run no attempt has the id the next claim of a
plan inserts, and a claim of a plan with a task that may run and has
attempts left succeeds. -/
theorem Run.claims {t : List Event} {σ : Store}
    (hrun : Run keyedCalls db t σ) (hfresh : db.Fresh) :
    σ.All (fun db => ∀ planId row, db.nextReady? planId = some row →
        ∀ attempt ∈ db.attempts,
          attempt.attemptId ≠ attemptIdFor planId row none)
      ∧ ∀ i planId epoch taskId row, σ.writer = none →
        checkIds planId (text "claim") = .ok () →
        checkEpochAttempt epoch (text "generated") = .ok () →
        σ.committed.currentEpoch? planId = some epoch →
        σ.committed.IsNext planId taskId →
        σ.committed.task? planId taskId = some row →
        row.attemptCount < uint32Max →
        ∃ task, (σ.step i (.call (.claimNextReady planId epoch none)) []).1
            = .ok (.claimed task) ∧ task.id = taskId := by
  have hnum := hrun.numbered hfresh
  have hfree : ∀ s : Db, s.Numbered → ∀ planId row,
      s.nextReady? planId = some row → ∀ attempt ∈ s.attempts,
        attempt.attemptId ≠ attemptIdFor planId row none := by
    intro s hs planId row hrow
    obtain ⟨hmem, hplan⟩ := Db.nextReady?_mem hrow
    rw [← hplan]
    exact hs.free hmem
  refine ⟨⟨hfree _ hnum.committed, fun i s hw hstop =>
    hfree s (hnum.working i s hw hstop)⟩, ?_⟩
  intro i planId epoch taskId row hw hids hargs hcur hnext hrow hleft
  obtain ⟨m, hm, rfl⟩ := hrun.moment
  have hrows := hm.rowsOk hfresh
  have hopen : ¬m.store.committed.ClaimBlocked planId taskId none := by
    intro hblocked
    obtain ⟨row', hrow', hwhy⟩ := hblocked
    rw [hrow] at hrow'
    cases hrow'
    obtain ⟨hmem, hplan, htask⟩ := Db.task?_key hrow
    rcases hwhy with hfull | ⟨attempt, hattempt, hid⟩
    · omega
    · have hne := hnum.committed.free hmem attempt hattempt
      rw [hplan, htask] at hne
      exact hne hid
  obtain ⟨claimed, db', hbody, hid⟩ := hrows.claim_succeeds hcur hnext hopen
  have hquiet : (m.store.step i
      (.call (.claimNextReady planId epoch none)) []).1 = _ :=
    claim_step_quiet hw hids hargs
  rw [hbody] at hquiet
  exact ⟨claimed, hquiet, hid⟩

-- ========================================================== all of it

/-- What the identifiers of the runtime say, under a hash `blake3`. -/
structure IdentifierLaws (blake3 : Bytes → Digest) : Prop where
  taskKeys : ∀ a b : TaskSpec, a.FitsSize → b.FitsSize →
    taskKeyPayload a = taskKeyPayload b → a.SameKeyFields b
  tempNames : ∀ p t a p' t' a' : Bytes,
    tempNamePayload p t a = tempNamePayload p' t' a' →
    p = p' ∧ t = t' ∧ a = a'
  /-- Task ids are task keys: `TaskKeyFor` makes no others. -/
  keys : ∀ task key, taskKeyFor blake3 task = .ok key → IsTaskKey key
  attemptIds : ∀ (p t p' t' : Bytes) (n n' : Nat), IsTaskKey t →
    IsTaskKey t' → generatedAttemptId p t n = generatedAttemptId p' t' n' →
    p = p' ∧ t = t' ∧ n = n'
  /-- No two assets of a plan share a task, unless their payloads
  collide. -/
  tasks : ∀ input plan, CanonicalMinimalPlan.build input = .ok plan →
    (∀ asset ∈ plan.assets, asset.FitsSize) →
    KeepsTasksApart blake3 plan.assets →
    plan.assets.Pairwise fun a b => ∀ s s',
      taskSpecForPlanAsset blake3 a = .ok s →
      taskSpecForPlanAsset blake3 b = .ok s' → s.id ≠ s'.id
  /-- No two attempts share a temp name, unless their payloads collide. -/
  temps : ∀ p t a p' t' a' : Bytes,
    (blake3 (tempNamePayload p t a) = blake3 (tempNamePayload p' t' a') →
      tempNamePayload p t a = tempNamePayload p' t' a') →
    tempNameFor blake3 p t a = tempNameFor blake3 p' t' a' →
    p = p' ∧ t = t' ∧ a = a'
  /-- The id a claim inserts is free in every store of every run. -/
  free : ∀ db : Db, db.Fresh → ∀ t σ, Run keyedCalls db t σ →
    σ.All fun db => ∀ planId row, db.nextReady? planId = some row →
      ∀ attempt ∈ db.attempts,
        attempt.attemptId ≠ attemptIdFor planId row none
  /-- A claim that may be made is. -/
  claims : ∀ db : Db, db.Fresh → ∀ t σ, Run keyedCalls db t σ →
    ∀ i planId epoch taskId row, σ.writer = none →
    checkIds planId (text "claim") = .ok () →
    checkEpochAttempt epoch (text "generated") = .ok () →
    σ.committed.currentEpoch? planId = some epoch →
    σ.committed.IsNext planId taskId →
    σ.committed.task? planId taskId = some row →
    row.attemptCount < uint32Max →
    ∃ task, (σ.step i (.call (.claimNextReady planId epoch none)) []).1
        = .ok (.claimed task) ∧ task.id = taskId

theorem runtime_identifiers (blake3 : Bytes → Digest) :
    IdentifierLaws blake3 where
  taskKeys := fun _ _ ha hb h => taskKeyPayload_inj ha hb h
  tempNames := fun _ _ _ _ _ _ h => tempNamePayload_inj h
  keys := fun _ _ h => taskKeyFor_isTaskKey h
  attemptIds := fun _ _ _ _ _ _ ht ht' h => generatedAttemptId_inj ht ht' h
  tasks := fun _ _ hbuild hfits hapart => tasks_distinct hbuild hfits hapart
  temps := fun _ _ _ _ _ _ hapart h => tempNames_distinct hapart h
  free := fun _ hfresh _ _ hrun => (hrun.claims hfresh).1
  claims := fun _ hfresh _ _ hrun => (hrun.claims hfresh).2

end PhotoBridge
