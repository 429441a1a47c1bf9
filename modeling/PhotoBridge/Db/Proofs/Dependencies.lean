/-
Dependencies stay acyclic (`TaskRuntimeRepository::AddDependency`). The
recursive query computes what a task depends on, directly or not, in its
own plan; so an edge that passes the check closes no cycle, and every
call keeps the relation of every plan without cycles and between tasks
that exist.
-/
import PhotoBridge.Lib.Closure
import PhotoBridge.Db.Proofs.Rows
import PhotoBridge.Db.Proofs.Store

namespace PhotoBridge

open Closure Relation Transaction

variable {db db' : Db} {planId : Bytes} {r : Reply}

-- =========================================================== the query

/-- The dependencies of a plan, as pairs. -/
def Db.edgesOf (db : Db) (planId : Bytes) : List (Bytes × Bytes) :=
  db.dependencies.filterMap fun d =>
    if d.planId == planId then some (d.taskId, d.dependsOn) else none

/-- In the plan, the task depends on the other directly. -/
def Db.DependsOn (db : Db) (planId task other : Bytes) : Prop :=
  ⟨planId, task, other⟩ ∈ db.dependencies

theorem Db.mem_edgesOf {task other : Bytes} :
    (task, other) ∈ db.edgesOf planId ↔ db.DependsOn planId task other := by
  unfold Db.edgesOf Db.DependsOn
  rw [List.mem_filterMap]
  constructor
  · intro h
    obtain ⟨d, hd, hedge⟩ := h
    split at hedge
    · next hplan =>
      cases hedge
      rw [← beq_iff_eq.1 hplan]
      exact hd
    · cases hedge
  · intro h
    exact ⟨_, h, by simp⟩

theorem Db.ancestorStep_eq (db : Db) (planId : Bytes)
    (reached : List Bytes) :
    db.ancestorStep planId reached = expand (db.edgesOf planId) reached := by
  unfold Db.ancestorStep expand Db.edgesOf
  rw [List.filterMap_filterMap]
  refine List.filterMap_congr fun d _ => ?_
  by_cases hplan : d.planId == planId
  · simp only [hplan, if_true, Bool.true_and, Option.bind_some]
  · simp only [hplan, Bool.false_and, Bool.false_eq_true, if_false,
      Option.bind_none]

theorem Db.ancestors_eq (db : Db) (planId : Bytes) (fuel : Nat)
    (reached : List Bytes) :
    db.ancestors planId fuel reached
      = close (db.edgesOf planId) fuel reached := by
  induction fuel generalizing reached with
  | zero => rfl
  | succ fuel ih =>
      unfold Db.ancestors close
      rw [db.ancestorStep_eq]
      cases expand (db.edgesOf planId) reached with
      | nil => rfl
      | cons task more =>
          simp only
          exact ih _

theorem Db.length_edgesOf (db : Db) (planId : Bytes) :
    (db.edgesOf planId).length ≤ db.dependencies.length :=
  List.length_filterMap_le _ _

/-- The query ends, whatever is stored: after as many rounds as there
are rows a round adds nothing. -/
theorem Db.ancestors_end (db : Db) (planId start : Bytes) :
    db.ancestorStep planId
      (db.ancestors planId (db.dependencies.length + 1) [start]) = [] := by
  rw [db.ancestorStep_eq, db.ancestors_eq]
  have hedges := db.length_edgesOf planId
  have hunused := unused_le (db.edgesOf planId) [start]
  exact expand_close (by omega)

/-- What the query finds is what the task depends on. -/
theorem Db.mem_ancestors (db : Db) (planId start task : Bytes) :
    task ∈ db.ancestors planId (db.dependencies.length + 1) [start]
      ↔ ReflTransGen (db.DependsOn planId) start task := by
  have hedge : Edge (db.edgesOf planId) = db.DependsOn planId := by
    funext a b
    exact propext Db.mem_edgesOf
  have hedges := db.length_edgesOf planId
  rw [db.ancestors_eq, mem_close (by omega), hedge]
  simp

/-- The query finds the task exactly if the other depends on it. -/
theorem Db.wouldCycle_iff (db : Db) (planId task dependsOn : Bytes) :
    db.wouldCycle planId task dependsOn = true
      ↔ ReflTransGen (db.DependsOn planId) dependsOn task := by
  unfold Db.wouldCycle
  rw [List.contains_iff_mem, db.mem_ancestors]

-- ======================================================== what is kept

/-- The dependencies of every plan are without cycles and between tasks
of the plan. -/
structure Db.Graph (db : Db) : Prop where
  acyclic : ∀ planId, Acyclic (db.DependsOn planId)
  existing : ∀ d ∈ db.dependencies, db.hasTask d.planId d.taskId = true
    ∧ db.hasTask d.planId d.dependsOn = true

theorem Db.Fresh.graph (h : db.Fresh) : db.Graph := by
  obtain ⟨-, hd, -⟩ := h
  refine ⟨fun planId x hcycle => ?_, fun d hmem => ?_⟩
  · obtain ⟨y, hedge, -⟩ := TransGen.head'_iff.1 hcycle
    unfold Db.DependsOn at hedge
    rw [hd] at hedge
    cases hedge
  · rw [hd] at hmem
    cases hmem

/-- The same dependencies, and no task is lost. -/
theorem Db.Graph.of_tasks (h : db.Graph)
    (hdeps : db'.dependencies = db.dependencies)
    (htasks : ∀ p t, db.hasTask p t = true → db'.hasTask p t = true) :
    db'.Graph := by
  refine ⟨fun planId => ?_, fun d hd => ?_⟩
  · have hsame : db'.DependsOn planId = db.DependsOn planId := by
      unfold Db.DependsOn
      rw [hdeps]
    rw [hsame]
    exact h.acyclic planId
  · rw [hdeps] at hd
    obtain ⟨htask, hdep⟩ := h.existing d hd
    exact ⟨htasks _ _ htask, htasks _ _ hdep⟩

theorem Db.SameRows.hasTask (h : db.SameRows db') (p t : Bytes) :
    db'.hasTask p t = db.hasTask p t := by
  have hcounted : ∀ s : Db, s.hasTask p t
      = (s.tasks.map TaskRow.counted).any
        fun k => k.1 == p && k.2.1 == t := by
    intro s
    rw [List.any_map]
    rfl
  rw [hcounted, hcounted, h.tasks]

/-- A dependency that passed the check closes no cycle. -/
theorem Db.Graph.addDependency (h : db.Graph) {task dependsOn : Bytes}
    (hcycle : db.wouldCycle planId task dependsOn = false)
    (htask : db.hasTask planId task = true)
    (hdep : db.hasTask planId dependsOn = true) :
    Db.Graph { db with
      dependencies := db.dependencies ++ [⟨planId, task, dependsOn⟩] } := by
  have hback : ¬ReflTransGen (db.DependsOn planId) dependsOn task := by
    rw [← db.wouldCycle_iff, hcycle]
    exact Bool.false_ne_true
  refine ⟨fun q => ?_, fun d hd => ?_⟩
  · by_cases hq : q = planId
    · rw [hq]
      refine ((h.acyclic planId).adding hback).mono fun x y hedge => ?_
      rcases List.mem_append.1 hedge with hold | hnew
      · exact Or.inl hold
      · rw [List.mem_singleton, DependencyRow.mk.injEq] at hnew
        exact Or.inr hnew.2
    · refine (h.acyclic q).mono fun x y hedge => ?_
      rcases List.mem_append.1 hedge with hold | hnew
      · exact hold
      · rw [List.mem_singleton, DependencyRow.mk.injEq] at hnew
        exact absurd hnew.1 hq
  · rcases List.mem_append.1 hd with hold | hnew
    · exact h.existing d hold
    · rw [List.mem_singleton.1 hnew]
      exact ⟨htask, hdep⟩

/-- Every call that succeeds keeps the dependencies in order. -/
theorem call_graph (c : Call) (hrun : (c.run : DbTxn Reply) db = .ok (r, db'))
    (h : db.Graph) : db'.Graph := by
  cases call_counted c hrun with
  | same hsame =>
      refine h.of_tasks hsame.dependencies fun p t htask => ?_
      rw [hsame.hasTask]
      exact htask
  | addTask hfree =>
      refine h.of_tasks rfl fun p t htask => ?_
      unfold Db.hasTask at htask ⊢
      simp only [Db.addTaskRow, List.any_append, htask, Bool.true_or]
  | addDependency _ hcycle htask hdep =>
      exact h.addDependency hcycle htask hdep
  | claim hrow hcount =>
      refine h.of_tasks rfl fun p t htask => ?_
      exact (Db.hasTask_updateTasks (f := TaskRow.claim _ _)
        (fun _ => rfl) db).trans htask

/-- Along every run the dependencies are in order. -/
theorem Run.graph {t : List Event} {σ : Store}
    (hrun : Run stopsAtError db t σ) (h : db.Fresh) : σ.All Db.Graph :=
  hrun.all (fun _ _ _ hrule => hrule)
    (fun _ _ c _ _ _ _ hcall => call_graph c hcall)
    (fun _ _ _ _ h => ⟨h.acyclic, h.existing⟩) h.graph

-- ========================================================= what is refused

/-- The error for a task that would depend on itself. -/
def selfDependency : Status :=
  .invalid "task graph must not contain a self dependency"

/-- The error for a dependency that would close a cycle. -/
def dependencyCycle : Status :=
  .invalid "task graph dependency would create a cycle"

/-- The call was refused as a self dependency or as a cycle. -/
def IsCycleError (error : Status) : Prop :=
  error = selfDependency ∨ error = dependencyCycle

private theorem checkIds_not_cycle {p t : Bytes} {error : Status}
    (h : checkIds p t = .error error) : ¬IsCycleError error := by
  intro hcycle
  unfold checkIds at h
  split at h
  · cases h
    rcases hcycle with hself | hcycle
    · have htext := text_injective (congrArg Status.message hself)
      exact absurd htext (by decide)
    · have htext := text_injective (congrArg Status.message hcycle)
      exact absurd htext (by decide)
  · split at h
    · cases h
      rcases hcycle with hself | hcycle
      · have htext := text_injective (congrArg Status.message hself)
        exact absurd htext (by decide)
      · have htext := text_injective (congrArg Status.message hcycle)
        exact absurd htext (by decide)
    · cases h

theorem IsCycleError.code {error : Status} (h : IsCycleError error) :
    error.code = .invalidArgument := by
  rcases h with h | h
  · rw [h]
    rfl
  · rw [h]
    rfl

/-- As a function of the tables, `AddDependency` refuses a cycle exactly
if a path leads back. -/
theorem addDependency_refused (db : Db) (planId task dependsOn : Bytes) :
    (∃ error, (addDependency planId task dependsOn : DbTxn Unit) db
        = .error error ∧ IsCycleError error)
      ↔ checkIds planId task = .ok () ∧ checkIds planId dependsOn = .ok ()
        ∧ ReflTransGen (db.DependsOn planId) dependsOn task := by
  constructor
  · intro h
    obtain ⟨error, herr, hcycle⟩ := h
    unfold addDependency at herr
    rcases Txn.bind_eq_error.1 herr with h₁ | ⟨_, _, hids, h₁⟩
    · exact absurd hcycle (checkIds_not_cycle (liftCheck_error.1 h₁))
    obtain ⟨hok, rfl⟩ := liftCheck_ok.1 hids
    rcases Txn.bind_eq_error.1 h₁ with h₂ | ⟨_, _, hids', h₂⟩
    · exact absurd hcycle (checkIds_not_cycle (liftCheck_error.1 h₂))
    obtain ⟨hok', rfl⟩ := liftCheck_ok.1 hids'
    refine ⟨hok, hok', ?_⟩
    rcases Txn.bind_eq_error.1 h₂ with h₃ | ⟨_, _, hne, h₃⟩
    · have hself := not_not.1 (require_error.1 h₃).1
      rw [hself]
    obtain ⟨-, rfl⟩ := require_ok.1 hne
    rcases Txn.bind_eq_error.1 h₃ with h₄ | ⟨_, _, hsel, h₄⟩
    · cases h₄
    obtain ⟨rfl, rfl⟩ := select_ok.1 hsel
    rcases Txn.bind_eq_error.1 h₄ with h₅ | ⟨_, _, -, h₅⟩
    · rw [← Db.wouldCycle_iff]
      exact Bool.not_eq_false _ ▸ (require_error.1 h₅).1
    -- what the insertion and the test after it say is of another kind
    rcases Txn.bind_eq_error.1 h₅ with h₆ | ⟨_, _, -, h₆⟩
    · have hcode := hcycle.code
      change (if _ then Except.ok _ else if _ then Except.error _
        else Except.ok _) = Except.error error at h₆
      split at h₆
      · cases h₆
      · split at h₆
        · cases h₆
          cases hcode
        · cases h₆
    · have hcode := hcycle.code
      rw [(require_error.1 h₆).2] at hcode
      cases hcode
  · intro h
    obtain ⟨hids, hids', hpath⟩ := h
    have hcheck {p t : Bytes} (hok : checkIds p t = .ok ()) :
        (liftCheck (checkIds p t) : DbTxn Unit) db = .ok ((), db) :=
      liftCheck_ok.2 ⟨hok, rfl⟩
    by_cases hne : task = dependsOn
    · refine ⟨selfDependency, ?_, .inl rfl⟩
      refine Txn.bind_eq_error.2 (.inr ⟨(), db, hcheck hids, ?_⟩)
      refine Txn.bind_eq_error.2 (.inr ⟨(), db, hcheck hids', ?_⟩)
      refine Txn.bind_eq_error.2 (.inl ?_)
      exact require_error.2 ⟨not_not.2 hne, rfl⟩
    · refine ⟨dependencyCycle, ?_, .inr rfl⟩
      refine Txn.bind_eq_error.2 (.inr ⟨(), db, hcheck hids, ?_⟩)
      refine Txn.bind_eq_error.2 (.inr ⟨(), db, hcheck hids', ?_⟩)
      refine Txn.bind_eq_error.2 (.inr ⟨(), db, require_ok.2 ⟨hne, rfl⟩, ?_⟩)
      refine Txn.bind_eq_error.2 (.inr ⟨_, db, select_ok.2 ⟨rfl, rfl⟩, ?_⟩)
      refine Txn.bind_eq_error.2 (.inl ?_)
      refine require_error.2 ⟨?_, rfl⟩
      rw [(db.wouldCycle_iff planId task dependsOn).2 hpath]
      exact Bool.noConfusion

-- ==================================================== calls one at a time

/-- No batches: every action is a single call. -/
def singleCalls : Store → Nat → Action → Prop :=
  fun _ _ action => ∃ c, action = .call c

/-- No transaction is open, no batch either, and no batch has failed. -/
structure Store.Idle (σ : Store) : Prop where
  writer : σ.writer = none
  batches : ∀ i, σ.batches i = none
  stopped : ∀ i, σ.stopped i = false

section Idle

variable {σ : Store} {t : List Event}

theorem Store.Idle.othersWriter (h : σ.Idle) (i : Nat) :
    σ.othersWriter i = none := by
  unfold Store.othersWriter
  rw [h.writer]

theorem Store.Idle.txn (h : σ.Idle) (i : Nat) (faults : List (Option Bytes)) :
    (σ.repo i faults).txn = none := by
  simp only [Store.repo, h.writer]

/-- A single call leaves nothing open. -/
theorem Store.Idle.call (h : σ.Idle) (i : Nat) (c : Call)
    (faults : List (Option Bytes)) :
    (σ.step i (.call c) faults).2.Idle := by
  obtain ⟨htxn, -, hmemory⟩ := (call_atomic c).closed (h.txn i faults)
    (h.batches i)
  refine ⟨?_, fun j => ?_, fun j => ?_⟩
  · simp only [Store.step, Store.put, Action.run, htxn]
    exact h.othersWriter i
  · simp only [Store.step, Store.put, Action.run, hmemory]
    by_cases hj : j = i
    · rw [hj, Function.update_self]
      exact h.batches i
    · rw [Function.update_of_ne hj]
      exact h.batches j
  · simp only [Store.step, Store.put, Action.run, hmemory]
    by_cases hj : j = i
    · rw [hj, Function.update_self]
      simp [Store.repo, h.batches i]
    · rw [Function.update_of_ne hj]
      exact h.stopped j

theorem Run.idle (hrun : Run singleCalls db t σ) : σ.Idle := by
  induction hrun with
  | start => exact ⟨rfl, fun _ => rfl, fun _ => rfl⟩
  | act _ i action faults hrule ih =>
      obtain ⟨c, rfl⟩ := hrule
      exact ih.call i c faults
  | close _ i ih =>
      refine ⟨ih.othersWriter i, fun j => ?_, fun j => ?_⟩
      · by_cases hj : j = i
        · rw [hj]
          exact Function.update_self ..
        · exact (Function.update_of_ne hj ..).trans (ih.batches j)
      · by_cases hj : j = i
        · rw [hj]
          exact Function.update_self ..
        · exact (Function.update_of_ne hj ..).trans (ih.stopped j)
  | plan _ _ _ _ _ ih => exact ⟨ih.writer, ih.batches, ih.stopped⟩

/-- Single calls are among the runs whose clients stop at an error. -/
theorem Run.stops (hrun : Run singleCalls db t σ) :
    Run stopsAtError db t σ := by
  induction hrun with
  | start => exact .start
  | act hrun i action faults hrule ih =>
      refine ih.act i action faults fun hstopped => ?_
      rw [hrun.idle.stopped i] at hstopped
      cases hstopped
  | close _ i ih => exact ih.close i
  | plan _ hfree manifests migrations plans ih =>
      exact ih.plan hfree manifests migrations plans

/-- With no transaction open and no fault to come, `AddDependency`
answers what it answers as a function of the tables. -/
theorem Store.Idle.addDependency (h : σ.Idle) (i : Nat)
    (planId task dependsOn : Bytes) :
    (σ.step i (.call (.addDependency planId task dependsOn)) []).1
      = ((PhotoBridge.addDependency planId task dependsOn : DbTxn Unit)
          σ.committed).map fun _ => Reply.done := by
  have hbusy : (σ.repo i []).busy = false := by
    simp only [Store.repo, h.writer]
  have hquiet := ((addDependency_atomic planId task dependsOn).map
    fun _ => Reply.done).quiet (h.txn i []) (h.batches i) rfl hbusy
  refine hquiet.1.trans ?_
  show ((answer (fun _ => Reply.done) (PhotoBridge.addDependency planId task
    dependsOn) : DbTxn Reply) σ.committed).map Prod.fst = _
  cases hbody : (PhotoBridge.addDependency planId task dependsOn :
      DbTxn Unit) σ.committed with
  | error e =>
      have herr : (answer (fun _ => Reply.done) (PhotoBridge.addDependency
          planId task dependsOn) : DbTxn Reply) σ.committed = .error e :=
        Txn.bind_eq_error.2 (.inl hbody)
      rw [herr]
      rfl
  | ok p =>
      rw [answer_ok.2 ⟨p.1, hbody, rfl⟩]
      rfl

theorem select_bind {β : Type} {operation : String} {f : Db → α}
    {k : α → DbTxn β} :
    (select operation f >>= k : DbTxn β) db = k (f db) db := rfl

private theorem write_bind {β : Type} {operation : String}
    {f : Db → Except Status (α × Db)} {k : α → DbTxn β} :
    (write operation f >>= k : DbTxn β) db
      = (f db).bind fun p => k p.1 p.2 := rfl

theorem require_bind {β : Type} {p : Prop} [Decidable p] {error : Status}
    {k : Unit → DbTxn β} :
    (require p error >>= k : DbTxn β) db
      = if p then k () db else .error error := by
  unfold require
  by_cases hp : p
  · rw [if_pos hp, if_pos hp]
    rfl
  · rw [if_neg hp, if_neg hp]
    rfl

private theorem map_fst_map {x : Except Status (Unit × Db)} :
    (x.map Prod.fst).map (fun _ => Reply.done)
      = x.map fun _ => Reply.done := by
  cases x with
  | error e => rfl
  | ok p => rfl

/-- What is answered depends on the edges and tasks of the plan alone. -/
theorem addDependency_separate (task dependsOn : Bytes)
    (hedges : ∀ a b, db.DependsOn planId a b ↔ db'.DependsOn planId a b)
    (htasks : ∀ t, db.hasTask planId t = db'.hasTask planId t) :
    ((addDependency planId task dependsOn : DbTxn Unit) db).map Prod.fst
      = ((addDependency planId task dependsOn : DbTxn Unit) db').map
          Prod.fst := by
  have hsame : db.DependsOn planId = db'.DependsOn planId := by
    funext a b
    exact propext (hedges a b)
  have hcycle : db.wouldCycle planId task dependsOn
      = db'.wouldCycle planId task dependsOn := by
    rw [Bool.eq_iff_iff, db.wouldCycle_iff, db'.wouldCycle_iff, hsame]
  have hknown : db.dependencies.contains ⟨planId, task, dependsOn⟩
      = db'.dependencies.contains ⟨planId, task, dependsOn⟩ := by
    rw [Bool.eq_iff_iff, List.contains_iff_mem, List.contains_iff_mem]
    exact hedges task dependsOn
  unfold addDependency
  cases checkIds planId task with
  | error e => rfl
  | ok _ =>
  cases checkIds planId dependsOn with
  | error e => rfl
  | ok _ =>
  simp only [liftCheck, pure_bind, require_bind, select_bind, hcycle]
  by_cases hself : task ≠ dependsOn
  · rw [if_pos hself, if_pos hself]
    by_cases hcyc : db'.wouldCycle planId task dependsOn = false
    · rw [if_pos hcyc, if_pos hcyc, write_bind, write_bind, htasks, htasks,
        hknown]
      cases hexist : db'.hasTask planId task && db'.hasTask planId dependsOn
      · rfl
      · cases hrow : db'.dependencies.contains ⟨planId, task, dependsOn⟩
        · rfl
        · rfl
    · rw [if_neg hcyc, if_neg hcyc]
  · rw [if_neg hself, if_neg hself]

end Idle

-- ============================================================ statements

/-- The dependencies of every plan stay acyclic. -/
structure DependenciesAcyclic : Prop where
  /-- In what is stored, and in a transaction's working copy. -/
  acyclic : ∀ {db : Db} {t : List Event} {σ : Store}, db.Fresh →
    Run stopsAtError db t σ → σ.All Db.Graph
  refused : ∀ {db : Db} {t : List Event} {σ : Store} (i : Nat)
    (planId task dependsOn : Bytes), Run singleCalls db t σ →
    ((∃ error, (σ.step i (.call (.addDependency planId task dependsOn)) []).1
        = .error error ∧ IsCycleError error)
      ↔ checkIds planId task = .ok () ∧ checkIds planId dependsOn = .ok ()
        ∧ ReflTransGen (σ.committed.DependsOn planId) dependsOn task)
  /-- A round of the query that adds nothing is reached on any tables,
  and by then it has found what a path leads to. -/
  ends : ∀ (db : Db) (planId start : Bytes), ∃ rounds,
    db.ancestorStep planId (db.ancestors planId rounds [start]) = []
      ∧ ∀ task, task ∈ db.ancestors planId rounds [start]
        ↔ ReflTransGen (db.DependsOn planId) start task
  separate : ∀ {db db' : Db} {t t' : List Event} {σ σ' : Store} (i : Nat)
    (planId task dependsOn : Bytes), Run singleCalls db t σ →
    Run singleCalls db' t' σ' →
    (∀ a b, σ.committed.DependsOn planId a b
      ↔ σ'.committed.DependsOn planId a b) →
    (∀ taskId, σ.committed.hasTask planId taskId
      = σ'.committed.hasTask planId taskId) →
    (σ.step i (.call (.addDependency planId task dependsOn)) []).1
      = (σ'.step i (.call (.addDependency planId task dependsOn)) []).1

/-- Whatever the clients call, in any order. -/
theorem dependencies_acyclic : DependenciesAcyclic where
  acyclic := fun hfresh hrun => hrun.graph hfresh
  refused := by
    intro db t σ i planId task dependsOn hrun
    rw [hrun.idle.addDependency, ← addDependency_refused]
    constructor
    · intro h
      obtain ⟨error, herr, hcycle⟩ := h
      cases hbody : (addDependency planId task dependsOn : DbTxn Unit)
          σ.committed with
      | error e =>
          rw [hbody] at herr
          cases herr
          exact ⟨_, rfl, hcycle⟩
      | ok p =>
          rw [hbody] at herr
          cases herr
    · intro h
      obtain ⟨error, herr, hcycle⟩ := h
      rw [herr]
      exact ⟨error, rfl, hcycle⟩
  ends := by
    intro db planId start
    exact ⟨_, db.ancestors_end planId start,
      fun task => db.mem_ancestors planId start task⟩
  separate := by
    intro db db' t t' σ σ' i planId task dependsOn hrun hrun' hedges htasks
    have hsame := addDependency_separate task dependsOn hedges htasks
    rw [hrun.idle.addDependency, hrun'.idle.addDependency,
      ← map_fst_map, hsame, map_fst_map]

end PhotoBridge
