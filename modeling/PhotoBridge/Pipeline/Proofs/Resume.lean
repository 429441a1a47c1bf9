/-
The resume command, as a whole.

The loop comes to one task after another, and each finds its evidence as
it was when the command began: what was done about the tasks before it is
in other rows and under other names (`Recovered.others`). So every task
meets the fate its own evidence decides, whatever else was RUNNING, and
the command reports the first task that has not succeeded.
-/
import PhotoBridge.Pipeline.Proofs.Actions
import PhotoBridge.Plan.Proofs.Limits
import Mathlib.Algebra.Order.BigOperators.Group.List
import Mathlib.Algebra.Order.Group.Nat
import Mathlib.Data.List.Find

namespace PhotoBridge.RecoveryService

open Concurrent JsonText Reconciler Transaction

variable {strerror : Nat → Bytes} {blake3 : Bytes → Digest} {planId : Bytes}
  {epoch rounds : Nat} {task : TaskSpec} {e : Evidence} {w w' : Machine}
  {r : Except Status Unit}

-- ============================================================= the endings

/-- The ending leaves the task in another state, and says when that is a
success. -/
structure Released (e : Evidence) (ending : Ending) (r : Except Status Unit) :
    Prop where
  runtime : ending.runtime = { e.runtime with
    state := ending.runtime.state, ownerEpoch := 0, attemptId := none
    lastError := ending.runtime.lastError }
  idle : ending.runtime.state ≠ .running
  error : ¬ending.runtime.lastError.any Status.isOk
  succeeded : r = .ok () ↔ ending.runtime.state = .succeeded

/-- A task that ends with an error has not succeeded. -/
theorem Released.of_error {ending : Ending} {status : Status}
    (hruntime : ending.runtime = { e.runtime with
      state := ending.runtime.state, ownerEpoch := 0, attemptId := none
      lastError := ending.runtime.lastError })
    (hidle : ending.runtime.state ≠ .running)
    (hfailed : ending.runtime.state ≠ .succeeded)
    (herror : ¬ending.runtime.lastError.any Status.isOk) :
    Released e ending (.error status) where
  runtime := hruntime
  idle := hidle
  error := herror
  succeeded := by
    constructor
    · intro hok
      cases hok
    · exact fun hsucceeded => absurd hsucceeded hfailed

private theorem released_prescribed {decision : ReconcileDecision}
    (h : decision.action ≠ .reverifyCommitted) :
    Released e (e.prescribed decision).1 (e.prescribed decision).2 := by
  obtain ⟨action, reason⟩ := decision
  cases action with
  | reverifyCommitted => exact absurd rfl h
  | retryTask =>
      exact .of_error rfl TaskState.noConfusion TaskState.noConfusion
        Bool.noConfusion
  | targetConflict =>
      exact .of_error rfl TaskState.noConfusion TaskState.noConfusion
        Bool.noConfusion
  | inconsistent =>
      exact .of_error rfl TaskState.noConfusion TaskState.noConfusion
        Bool.noConfusion
  | adoptFinal =>
      exact ⟨rfl, TaskState.noConfusion, Bool.noConfusion, iff_of_true rfl rfl⟩
  | adoptFinalAndCleanupTemp =>
      exact ⟨rfl, TaskState.noConfusion, Bool.noConfusion, iff_of_true rfl rfl⟩
  | resumeCommitFromTemp =>
      exact ⟨rfl, TaskState.noConfusion, Bool.noConfusion, iff_of_true rfl rfl⟩

/-- A running task is released whatever its fate. -/
theorem released_fate (hstate : e.runtime.state = .running) :
    Released e (e.fate blake3).1 (e.fate blake3).2 := by
  cases hconsistent : e.consistent with
  | false =>
      unfold Evidence.fate
      rw [if_pos hconsistent]
      exact .of_error rfl TaskState.noConfusion TaskState.noConfusion
        Bool.noConfusion
  | true =>
      rw [fate_of_consistent hconsistent]
      refine released_prescribed fun haction => ?_
      obtain ⟨verified, -, hsucceeded⟩ := firstRule_warranted haction
        ReconcileAction.noConfusion ReconcileAction.noConfusion
        ReconcileAction.noConfusion
      cases hsucceeded.symm.trans hstate

/-- The task's rows and files are as its fate has it. -/
structure Met (blake3 : Bytes → Digest) (planId : Bytes) (e : Evidence)
    (w : Machine) : Prop where
  row : ∃ row, w.db.task? planId e.runtime.id = some row
    ∧ row.toRuntime = (e.fate blake3).1.runtime
    ∧ row.attemptCount ≤ uint32Max ∧ ¬row.lastError.any Status.isOk
  attempt : w.db.attemptState? planId e.runtime.id e.attemptId
    e.runtime.ownerEpoch = some (e.fate blake3).1.attempt
  temp : w.disk.version? .target (e.tempName blake3 planId)
    = (e.fate blake3).1.temp
  final : w.disk.version? .target e.finalName = (e.fate blake3).1.final

theorem Recovered.met (hrec : Recovered blake3 planId e w r w')
    (h : Running blake3 planId epoch task e w.db)
    (hr : Recoverable blake3 planId epoch rounds task e) :
    Met blake3 planId e w' := by
  obtain ⟨hholds, -⟩ := h.holds hr.state
  obtain ⟨-, hatt⟩ := owned_of_holds h.reached.sound hholds
  obtain ⟨row, hrow, hruntime, hcount, -⟩ := h.row
  obtain ⟨held, hheld, hstate, howner, hactive⟩ := hholds
  cases hrow.symm.trans hheld
  obtain ⟨event, -, -, -, hdb⟩ := hrec.settled
  have hreleased := @released_fate blake3 e hr.state
  rw [h.id] at hdb
  refine ⟨⟨row.release (e.fate blake3).1.runtime.state
    (e.fate blake3).1.runtime.lastError, ?_, ?_, hcount, hreleased.error⟩, ?_,
    hrec.temp, hrec.final⟩
  · rw [hdb, h.id]
    exact task?_settle hrow hstate howner hactive
  · rw [hreleased.runtime, hruntime]
    rfl
  · rw [hdb, h.id]
    exact attemptState?_settle hatt

-- ============================================================== the others

/-- Two tasks with nothing in common: neither has a row, a name or a source
of the other. -/
structure Separate (blake3 : Bytes → Digest) (planId : Bytes) (d : Disk)
    (a b : Evidence) : Prop where
  tasks : a.runtime.id ≠ b.runtime.id
  names : ∀ name, a.Owns blake3 planId name → ¬b.Owns blake3 planId name
  source : ∀ name, a.Owns blake3 planId name →
    d.sources b.asset.sourcePath.bytes ≠ .target name

section Others

variable {a b : Evidence} {ta tb : TaskSpec}

/-- The rows of another task are as they were. -/
theorem Recovered.rowsOf (hrec : Recovered blake3 planId a w r w')
    {p t : Bytes} (hne : ¬(p = planId ∧ t = a.runtime.id)) :
    rowsOf w'.db p t = rowsOf w.db p t := by
  obtain ⟨event, hp, ht, -, hdb⟩ := hrec.settled
  rw [hdb]
  exact rowsOf_settle hp ht hne

/-- Recovering one task leaves another as it was found. -/
theorem Recovered.running (hrec : Recovered blake3 planId a w r w')
    (ha : Running blake3 planId epoch ta a w.db)
    (hra : Recoverable blake3 planId epoch rounds ta a)
    (hb : Running blake3 planId epoch tb b w.db)
    (hne : a.runtime.id ≠ b.runtime.id) :
    Running blake3 planId epoch tb b w'.db := by
  have hrows := hrec.rowsOf (p := planId) (t := tb.id)
    fun ⟨_, hid⟩ => hne (hid.symm.trans hb.id.symm)
  obtain ⟨hholds, -⟩ := ha.holds hra.state
  obtain ⟨hown, -⟩ := owned_of_holds ha.reached.sound hholds
  obtain ⟨event, hp, ht, hevent, hdb⟩ := hrec.settled
  have hidle := (@released_fate blake3 a hra.state).idle
  have htask : w'.db.task? planId tb.id = w.db.task? planId tb.id :=
    congrArg Prod.fst hrows
  rw [← ha.id] at hown
  refine ⟨⟨?_, ?_⟩, ?_, ?_, ?_⟩
  · rw [hdb]
    exact ha.reached.sound.settle hown hidle _ _ hp ht hevent
  · rw [hdb]
    exact ha.reached.named.settle
  · rw [hdb]
    exact hb.current
  · rw [htask]
    exact hb.row
  · rw [hdb]
    exact hb.receipt

theorem Recovered.found (hrec : Recovered blake3 planId a w r w')
    (hb : Found blake3 planId b w.disk)
    (hsep : Separate blake3 planId w.disk a b) :
    Found blake3 planId b w'.disk where
  sound := hrec.within.sound hb.sound
  source := hb.source.trans
    (hrec.within.version?_source hsep.source).symm
  temp := hb.temp.trans (hrec.within.version?_target
    fun hname => hsep.names _ hname (.inl rfl)).symm
  final := hb.final.trans (hrec.within.version?_target
    fun hname => hsep.names _ hname (.inr rfl)).symm

end Others

-- ================================================================ the loop

/-- The loop can come to the task. -/
structure Ready (blake3 : Bytes → Digest) (planId : Bytes)
    (epoch rounds : Nat) (w : Machine) (item : Evidence × TaskSpec) :
    Prop where
  running : Running blake3 planId epoch item.2 item.1 w.db
  found : Found blake3 planId item.1 w.disk
  recoverable : Recoverable blake3 planId epoch rounds item.2 item.1

/-- The state of an attempt is among those of its task. -/
theorem attemptState?_attemptsOf (db : Db) (planId taskId attemptId : Bytes)
    (epoch : Nat) : db.attemptState? planId taskId attemptId epoch
      = ((db.attemptsOf planId taskId).find?
        (AttemptRow.isAt planId taskId attemptId epoch)).map (·.fileState) := by
  unfold Db.attemptState? Db.attemptsOf
  rw [List.find?_filter]
  congr 2
  funext row
  rw [Bool.eq_iff_iff]
  simp only [AttemptRow.isAt, Bool.and_eq_true, beq_iff_eq, decide_eq_true_iff]
  exact ⟨fun h => ⟨h.1.1, h⟩, And.right⟩

/-- What is done about other tasks does not undo a fate. -/
theorem Met.of_within {names : Bytes → Prop} (h : Met blake3 planId e w)
    (hrows : rowsOf w'.db planId e.runtime.id = rowsOf w.db planId e.runtime.id)
    (hwithin : w.disk.Within names w'.disk)
    (hnames : ∀ name, e.Owns blake3 planId name → ¬names name) :
    Met blake3 planId e w' where
  row := by
    have htask : w'.db.task? planId e.runtime.id = w.db.task? planId e.runtime.id :=
      congrArg Prod.fst hrows
    rw [htask]
    exact h.row
  attempt := by
    have hattempts : w'.db.attemptsOf planId e.runtime.id
        = w.db.attemptsOf planId e.runtime.id :=
      congrArg (·.2.1) hrows
    rw [attemptState?_attemptsOf, hattempts, ← attemptState?_attemptsOf]
    exact h.attempt
  temp := (hwithin.version?_target (hnames _ (.inl rfl))).trans h.temp
  final := (hwithin.version?_target (hnames _ (.inr rfl))).trans h.final

/-- The loop, from any round on. -/
structure Looped (blake3 : Bytes → Digest) (planId : Bytes)
    (items : List (Evidence × TaskSpec)) (first : Except Status Unit)
    (w : Machine) (r : Except Status Unit) (w' : Machine) : Prop where
  met : ∀ item ∈ items, Met blake3 planId item.1 w'
  result : r = items.foldl (fun first item =>
    keepFirst first (item.1.fate blake3).2) first
  others : ∀ p t, (∀ item ∈ items, ¬(p = planId ∧ t = item.1.runtime.id)) →
    rowsOf w'.db p t = rowsOf w.db p t
  within : w.disk.Within
    (fun name => ∃ item ∈ items, item.1.Owns blake3 planId name) w'.disk

theorem recoverAll_quiet {codec : Codec} (hcodec : codec.Lawful)
    {sourceManifestId targetRoot : Bytes}
    {fail : Status → Machine → Prop} (items : List (Evidence × TaskSpec)) :
    ∀ (w : Machine) (first : Except Status Unit),
      (∀ item ∈ items, Ready blake3 planId epoch rounds w item) →
      items.Pairwise (fun a b => Separate blake3 planId w.disk a.1 b.1) →
      (∃ root, w.db.readManifestSourceRoot sourceManifestId = .ok root) →
      Yields (pipelineEffects strerror blake3 .none) False
        (fun r w' => Looped blake3 planId items first w r w') fail
        (recoverAll (recoverOne codec blake3 sourceManifestId targetRoot planId
          epoch rounds) (items.map (·.1.asset)) first) w := by
  induction items with
  | nil =>
      intro w first _ _ _
      unfold recoverAll
      rw [List.map_nil, List.foldlM_nil]
      refine .pure ⟨?_, rfl, fun _ _ _ => rfl, .refl _ _⟩
      exact fun item hitem => absurd hitem List.not_mem_nil
  | cons item rest ih =>
      intro w first hready hseparate hroot
      -- this one is recovered, and leaves the others as they were
      obtain ⟨hrunning, hfound, hrecoverable⟩ := hready item List.mem_cons_self
      obtain ⟨hhead, htail⟩ := List.pairwise_cons.1 hseparate
      unfold recoverAll
      rw [List.map_cons, List.foldlM_cons]
      refine .bind (.bind ((recoverOne_quiet hcodec hrunning hfound hrecoverable
        hroot).mono ?_ fun _ _ h => h))
      intro r w₁ hrec
      refine .pure ?_
      have hready₁ : ∀ other ∈ rest, Ready blake3 planId epoch rounds w₁ other := by
        intro other hother
        obtain ⟨hrun, hfind, hrecov⟩ := hready other (List.mem_cons_of_mem _ hother)
        exact ⟨hrec.running hrunning hrecoverable hrun (hhead other hother).tasks,
          hrec.found hfind (hhead other hother), hrecov⟩
      have hseparate₁ : rest.Pairwise fun a b =>
          Separate blake3 planId w₁.disk a.1 b.1 := by
        refine htail.imp fun h => ⟨h.tasks, h.names, ?_⟩
        rw [hrec.within.sources]
        exact h.source
      have hroot₁ : ∃ root, w₁.db.readManifestSourceRoot sourceManifestId
          = .ok root := by
        obtain ⟨event, -, -, -, hdb⟩ := hrec.settled
        rw [hdb]
        exact hroot
      -- so the rest is recovered as if by itself
      refine (ih w₁ (keepFirst first r) hready₁ hseparate₁ hroot₁).mono ?_
        fun _ _ h => h
      intro r' w' hrest
      refine ⟨List.forall_mem_cons.2 ⟨?_, hrest.met⟩, ?_, ?_, ?_⟩
      -- what the rest does leaves this one as it is
      · refine (hrec.met hrunning hrecoverable).of_within
          (hrest.others _ _ ?_) hrest.within ?_
        · rintro other hother ⟨-, hid⟩
          exact (hhead other hother).tasks hid
        · rintro name hname ⟨other, hother, howns⟩
          exact (hhead other hother).names name hname howns
      · rw [hrest.result, hrec.result, List.foldl_cons]
      · intro p t hne
        rw [hrest.others p t fun other hother =>
          hne other (List.mem_cons_of_mem _ hother)]
        exact hrec.rowsOf (hne item List.mem_cons_self)
      · refine (hrec.within.mono ?_).trans (hrest.within.mono ?_)
        · exact fun name hname => ⟨item, List.mem_cons_self, hname⟩
        · rintro name ⟨other, hother, howns⟩
          exact ⟨other, List.mem_cons_of_mem _ hother, howns⟩

/-- What is kept in the end is the first error, where there is one. -/
theorem keepFirst_foldl {α : Type} (f : α → Except Status Unit) (xs : List α) :
    xs.foldl (fun first x => keepFirst first (f x)) (.ok ())
      = match xs.find? (fun x => !(f x).isOk) with
        | none => .ok ()
        | some x => f x := by
  have hkept : ∀ (e : Status) (xs : List α),
      xs.foldl (fun first x => keepFirst first (f x)) (.error e) = .error e := by
    intro e xs
    induction xs with
    | nil => rfl
    | cons x rest ih => exact ih
  induction xs with
  | nil => rfl
  | cons x rest ih =>
      rw [List.foldl_cons, List.find?_cons]
      show rest.foldl _ (f x) = _
      cases hx : f x with
      | ok u => exact ih
      | error e => exact (hkept e rest).trans hx.symm

-- ============================================================= the command

theorem exists_map_eq {α β : Type} {f : β → α} {P : β → Prop} {xs : List α}
    (h : ∀ x ∈ xs, ∃ y, f y = x ∧ P y) :
    ∃ ys : List β, ys.map f = xs ∧ ∀ y ∈ ys, P y := by
  induction xs with
  | nil => exact ⟨[], rfl, nofun⟩
  | cons x rest ih =>
      obtain ⟨y, hy, hP⟩ := h x List.mem_cons_self
      obtain ⟨ys, hys, hall⟩ := ih fun x hx => h x (List.mem_cons_of_mem _ hx)
      exact ⟨y :: ys, by rw [List.map_cons, hy, hys],
        List.forall_mem_cons.2 ⟨hP, hall⟩⟩

/-- The runtime rows are read, and the assets of the running tasks kept. -/
theorem runningAssets_quiet {fail : Status → Machine → Prop}
    (assets : List MinimalPlanAsset) (running : MinimalPlanAsset → Bool)
    (h : ∀ asset ∈ assets, ∃ task runtime,
      taskSpecForPlanAsset blake3 asset = .ok task
        ∧ (Repository.readRuntime planId task.id : DbTxn TaskRuntime) w.db
          = .ok (runtime, w.db)
        ∧ running asset = (runtime.state == .running)) :
    Yields (pipelineEffects strerror blake3 .none) False
      (fun found w' => found = assets.filter running ∧ w' = w) fail
      (runningAssets blake3 planId assets) w := by
  induction assets with
  | nil => exact .pure ⟨rfl, rfl⟩
  | cons asset rest ih =>
      obtain ⟨task, runtime, htask, hread, hrunning⟩ := h asset List.mem_cons_self
      unfold runningAssets
      refine .bind (.ofExcept (fun task' htask' => ?_) fun err herr => ?_)
      swap
      · cases htask.symm.trans herr
      cases htask.symm.trans htask'
      refine .bind (repository_quiet (fun runtime' db' hread' => ?_)
        fun err herr => ?_)
      swap
      · cases hread.symm.trans herr
      cases hread.symm.trans hread'
      refine (ih fun asset hasset =>
        h asset (List.mem_cons_of_mem _ hasset)).andThen ?_
      rintro found _ ⟨rfl, rfl⟩
      rw [List.filter_cons, hrunning]
      refine .ite (fun hstate => .pure ⟨?_, rfl⟩) fun hstate => .pure ⟨?_, rfl⟩
      · rw [if_pos (beq_iff_eq.2 hstate)]
      · rw [if_neg fun hyes => hstate (beq_iff_eq.1 hyes)]

/-- A new epoch changes nothing a task goes by. -/
theorem acquired {db db' : Db}
    (h : (Repository.acquireNextExecutionEpoch planId : DbTxn Nat) db
      = .ok (epoch, db')) :
    db'.currentEpoch? planId = some epoch ∧ epoch ≤ int64Max
      ∧ (∀ p t, rowsOf db' p t = rowsOf db p t)
      ∧ db'.receipts = db.receipts ∧ db'.manifests = db.manifests
      ∧ (Reached blake3 db → Reached blake3 db') := by
  obtain ⟨_, -, hbody⟩ := liftCheck_bind_ok.1 h
  obtain ⟨current, hcurrent, hmax, rfl, -, rfl⟩ :=
    acquireNextExecutionEpochBody_ok.1 hbody
  obtain ⟨ht, ha, he, hr⟩ := db.setCurrentEpoch_tables planId (current + 1)
  refine ⟨Db.currentEpoch?_setCurrentEpoch_self _ hcurrent, by omega, ?_, hr, ?_,
    fun hreached => ⟨hreached.sound.acquire hcurrent,
      hreached.named.of_tables ht hr⟩⟩
  · intro p t
    unfold rowsOf Db.task? Db.attemptsOf
    rw [ht, ha, he, hr]
  · unfold Db.setCurrentEpoch
    cases db.plans.find? (·.planId == planId) <;> rfl

/-- Assets with distinct tasks. -/
theorem tasksOf_inj {assets : List MinimalPlanAsset} {tasks : List TaskSpec}
    (h : TasksOf blake3 assets tasks) (hnodup : (tasks.map TaskSpec.id).Nodup)
    {a b : MinimalPlanAsset} (ha : a ∈ assets) (hb : b ∈ assets)
    {ta tb : TaskSpec} (hta : taskSpecForPlanAsset blake3 a = .ok ta)
    (htb : taskSpecForPlanAsset blake3 b = .ok tb) (hid : ta.id = tb.id) :
    a = b := by
  induction h with
  | nil => cases ha
  | cons hspec hrest ih =>
      rw [List.map_cons, List.nodup_cons] at hnodup
      rcases List.mem_cons.1 ha with rfl | ha'
      · rcases List.mem_cons.1 hb with rfl | hb
        · rfl
        · obtain ⟨task, htask, hother⟩ := Joining.forall₂_exists_right hrest hb
          cases hspec.symm.trans hta
          cases hother.symm.trans htb
          exact absurd (hid ▸ List.mem_map_of_mem htask) hnodup.1
      · rcases List.mem_cons.1 hb with rfl | hb
        · obtain ⟨task, htask, hother⟩ := Joining.forall₂_exists_right hrest ha'
          cases hspec.symm.trans htb
          cases hother.symm.trans hta
          exact absurd (hid ▸ List.mem_map_of_mem htask) hnodup.1
        · exact ih hnodup.2 ha' hb

namespace Setting

variable (σ : Setting) {asset a b : MinimalPlanAsset} {db db' : Db}

/-- What the database says of a task of the plan. -/
structure Planned (asset : MinimalPlanAsset) (task : TaskSpec) : Prop where
  spec : taskSpecForPlanAsset σ.blake3 asset = .ok task
  valid : validateTaskSpec task = .ok ()
  ids : checkIds σ.artifact.planId task.id = .ok ()
  row : ∃ row, σ.machine.db.task? σ.artifact.planId task.id = some row
    ∧ row.attemptCount ≤ uint32Max ∧ ¬row.lastError.any Status.isOk

theorem planned (hasset : asset ∈ σ.artifact.plan.assets) :
    ∃ task, σ.Planned asset task := by
  obtain ⟨tasks, htasks, -, hall⟩ := σ.materialized
  obtain ⟨task, htask, hspec⟩ := Joining.forall₂_exists_right htasks hasset
  obtain ⟨hvalid, runtime, hread⟩ := hall task htask
  obtain ⟨_, hids, hbody⟩ := liftCheck_bind_ok.1 hread
  obtain ⟨⟨row, hrow, hcount, herror, -⟩, -⟩ :=
    readRuntimeWithStatement_ok.1 hbody
  exact ⟨task, hspec, hvalid, hids, row, hrow, hcount, herror⟩

/-- The tasks of different assets are different. -/
theorem task_inj (ha : a ∈ σ.artifact.plan.assets)
    (hb : b ∈ σ.artifact.plan.assets) {ta tb : TaskSpec}
    (hta : taskSpecForPlanAsset σ.blake3 a = .ok ta)
    (htb : taskSpecForPlanAsset σ.blake3 b = .ok tb) (hid : ta.id = tb.id) :
    a = b := by
  obtain ⟨tasks, htasks, hnodup, -⟩ := σ.materialized
  exact tasksOf_inj htasks hnodup ha hb hta htb hid

/-- The runtime row of a planned task, in any state of the database. -/
theorem runtimeIn_eq {task : TaskSpec}
    (hspec : taskSpecForPlanAsset σ.blake3 asset = .ok task)
    (hids : checkIds σ.artifact.planId task.id = .ok ()) {row : TaskRow}
    (hrow : db.task? σ.artifact.planId task.id = some row)
    (hcount : row.attemptCount ≤ uint32Max)
    (herror : ¬row.lastError.any Status.isOk) :
    σ.runtimeIn db asset = some row.toRuntime := by
  have hread : (Repository.readRuntime σ.artifact.planId task.id :
      DbTxn TaskRuntime) db = .ok (row.toRuntime, db) :=
    liftCheck_bind_ok.2 ⟨(), hids, readRuntimeWithStatement_ok.2
      ⟨⟨row, hrow, hcount, herror, rfl⟩, rfl⟩⟩
  unfold runtimeIn
  rw [hspec]
  show ((Repository.readRuntime σ.artifact.planId task.id :
    DbTxn TaskRuntime) db).toOption.map (·.1) = _
  rw [hread]
  rfl

/-- The runtime row is the task's. -/
theorem runtimeIn_id {task : TaskSpec} (hplanned : σ.Planned asset task)
    {runtime : TaskRuntime}
    (h : σ.runtimeIn σ.machine.db asset = some runtime) :
    runtime.id = task.id := by
  obtain ⟨row, hrow, hcount, herror⟩ := hplanned.row
  rw [σ.runtimeIn_eq hplanned.spec hplanned.ids hrow hcount herror] at h
  cases h
  exact (Db.task?_key hrow).2.2

theorem reached : Reached σ.blake3 σ.machine.db := by
  obtain ⟨db, t, store, hfresh, hrun, hcommitted⟩ := σ.reachable
  rw [← hcommitted]
  exact reached_of_run hrun hfresh

/-- More rounds than any file has bytes. -/
def bound : Nat :=
  (σ.machine.disk.files.map (·.current.content.length)).sum + 1

theorem lt_bound {root : Root} {path : Bytes} {v : FileVersion}
    (hv : σ.machine.disk.version? root path = some v) :
    v.content.length < σ.bound := by
  obtain ⟨index, f, -, hf, rfl⟩ := Disk.version?_eq_some.1 hv
  have hle : f.current.content.length
      ≤ (σ.machine.disk.files.map (·.current.content.length)).sum :=
    List.le_sum_of_mem (List.mem_map_of_mem (List.mem_of_getElem? hf))
  unfold bound
  omega

private theorem mem_running : asset ∈ σ.running ↔ asset ∈ σ.artifact.plan.assets
    ∧ (σ.runtimeIn σ.machine.db asset).any (·.state == .running) = true :=
  List.mem_filter

private theorem planId_utf8 : IsUtf8 σ.artifact.planId := by
  obtain ⟨bytes, -, haccepted⟩ := σ.accepted
  exact readFrozenPlan_utf8 σ.encoded haccepted

/-- The evidence of a task, with the receipt as it is stored. -/
def evidenceOf (asset : MinimalPlanAsset) (runtime : TaskRuntime) : Evidence where
  asset := asset
  runtime := runtime
  receipt := storedReceipt σ.machine.db σ.artifact.planId runtime.id
    (runtime.attemptId.getD [])
  source := σ.machine.disk.version? .source asset.sourcePath.bytes
  temp := σ.machine.disk.version? .target (σ.tempOf runtime)
  final := σ.machine.disk.version? .target asset.targetPath.bytes

/-- Once the epoch is acquired, the loop can come to any task that is
RUNNING, and finds its evidence. -/
theorem ready (hacquire : (Repository.acquireNextExecutionEpoch
      σ.artifact.planId : DbTxn Nat) σ.machine.db = .ok (epoch, db'))
    (hrounds : σ.bound ≤ rounds) (hasset : asset ∈ σ.running) :
    ∃ item : Evidence × TaskSpec, item.1.asset = asset
      ∧ σ.evidence asset = some item.1
      ∧ Ready σ.blake3 σ.artifact.planId epoch rounds
        { σ.machine with db := db' } item := by
  obtain ⟨hmem, hany⟩ := σ.mem_running.1 hasset
  obtain ⟨task, hplanned⟩ := σ.planned hmem
  obtain ⟨row, hrow, hcount, herror⟩ := hplanned.row
  have hruntime : σ.runtimeIn σ.machine.db asset = some row.toRuntime :=
    σ.runtimeIn_eq hplanned.spec hplanned.ids hrow hcount herror
  rw [hruntime, Option.any_some, beq_iff_eq] at hany
  obtain ⟨hcurrent, hmax, hrows, hreceipts, -, hreached⟩ :=
    @acquired σ.blake3 _ _ _ _ hacquire
  have hid : row.taskId = task.id := (Db.task?_key hrow).2.2
  have hrecoverable : Recoverable σ.blake3 σ.artifact.planId epoch rounds task
      (σ.evidenceOf asset row.toRuntime) := by
    refine ⟨(checkIds_ok.1 hplanned.ids).1, σ.planId_utf8, hmax, hplanned.spec,
      hplanned.valid, hany, σ.single asset hmem, σ.utf8 asset hmem,
      (σ.generated asset hmem _ _).symm, ?_⟩
    rintro v (hv | hv)
    · exact Nat.lt_of_lt_of_le (σ.lt_bound hv) hrounds
    · exact Nat.lt_of_lt_of_le (σ.lt_bound hv) hrounds
  have hrunning : Running σ.blake3 σ.artifact.planId epoch task
      (σ.evidenceOf asset row.toRuntime) db' := by
    have htask : db'.task? σ.artifact.planId task.id
        = σ.machine.db.task? σ.artifact.planId task.id :=
      congrArg Prod.fst (hrows _ _)
    refine ⟨hreached σ.reached, hcurrent, ⟨row, htask.trans hrow, rfl, hcount,
      herror⟩, ?_⟩
    unfold storedReceipt Db.receipt?
    rw [hreceipts]
    rfl
  have hfound : Found σ.blake3 σ.artifact.planId (σ.evidenceOf asset row.toRuntime)
      σ.machine.disk := ⟨σ.sound, rfl, rfl, rfl⟩
  refine ⟨⟨_, task⟩, rfl, ?_, hrunning, hfound, hrecoverable⟩
  obtain ⟨htask, hattempt, -, -⟩ := hrunning.accepted hrecoverable
  have htask : IsId row.toRuntime.id := hrunning.id ▸ htask
  have hattempt : IsId (row.toRuntime.attemptId.getD []) := hattempt
  have hstored : ((Repository.readVerifiedReceipt σ.artifact.planId
      row.toRuntime.id (row.toRuntime.attemptId.getD []) :
      DbTxn VerifiedReceipt) σ.machine.db).toOption.map (·.1)
      = storedReceipt σ.machine.db σ.artifact.planId row.toRuntime.id
        (row.toRuntime.attemptId.getD []) := by
    rw [readVerifiedReceipt_stored σ.reached.named
      ⟨hrecoverable.plan, htask⟩ hattempt]
    cases storedReceipt σ.machine.db σ.artifact.planId row.toRuntime.id
      (row.toRuntime.attemptId.getD []) <;> rfl
  unfold evidence
  rw [hruntime, Option.map_some, hstored]

/-- Different RUNNING tasks have nothing in common. -/
theorem separate (hapart : σ.Apart) {ea eb : Evidence}
    (ha : ea.asset ∈ σ.running) (hb : eb.asset ∈ σ.running)
    (hea : σ.evidence ea.asset = some ea) (heb : σ.evidence eb.asset = some eb)
    (hne : ea.asset ≠ eb.asset) :
    Separate σ.blake3 σ.artifact.planId σ.machine.disk ea eb := by
  obtain ⟨ra, hra, hea⟩ := Option.map_eq_some_iff.1 hea
  obtain ⟨rb, hrb, heb⟩ := Option.map_eq_some_iff.1 heb
  have hruntimea : ea.runtime = ra := by rw [← hea]
  have hruntimeb : eb.runtime = rb := by rw [← heb]
  have hma := (σ.mem_running.1 ha).1
  have hmb := (σ.mem_running.1 hb).1
  -- the names of the one and of the other
  have htempa : ea.tempName σ.blake3 σ.artifact.planId = σ.tempOf ra := by
    rw [← hruntimea]
    rfl
  have htempb : eb.tempName σ.blake3 σ.artifact.planId = σ.tempOf rb := by
    rw [← hruntimeb]
    rfl
  have hfinals : ea.finalName ≠ eb.finalName := fun heq =>
    hne (List.inj_on_of_nodup_map σ.distinct hma hmb heq)
  refine ⟨fun hid => ?_, ?_, ?_⟩
  · obtain ⟨ta, hta⟩ := σ.planned hma
    obtain ⟨tb, htb⟩ := σ.planned hmb
    have hida : ea.runtime.id = ta.id := by
      rw [hruntimea]
      exact σ.runtimeIn_id hta hra
    have hidb : eb.runtime.id = tb.id := by
      rw [hruntimeb]
      exact σ.runtimeIn_id htb hrb
    exact hne (σ.task_inj hma hmb hta.spec htb.spec
      (hida.symm.trans (hid.trans hidb)))
  · rintro name (rfl | rfl) (hname | hname)
    · rw [htempa, htempb] at hname
      exact hapart.temps _ ha _ hb hne _ _ hra hrb hname
    · exact σ.generated _ hmb _ _ hname.symm
    · exact σ.generated _ hma _ _ hname
    · exact hfinals hname
  · obtain ⟨hsource, hsource'⟩ := hapart.sources _ hb _ ha hne.symm _ hra
    rintro name (rfl | rfl)
    · rw [htempa]
      exact hsource
    · exact hsource'

section Finish

variable {σ} {items : List (Evidence × TaskSpec)} {r : Except Status Unit}
  {w : Machine}

/-- The runtime row of a task that has met its fate. -/
theorem met_runtime (hasset : e.asset ∈ σ.artifact.plan.assets)
    (hevidence : σ.evidence e.asset = some e)
    (hmet : Met σ.blake3 σ.artifact.planId e w) :
    σ.runtimeIn w.db e.asset = some (e.fate σ.blake3).1.runtime := by
  obtain ⟨task, hplanned⟩ := σ.planned hasset
  obtain ⟨runtime, hruntime, he⟩ := Option.map_eq_some_iff.1 hevidence
  have hid : e.runtime.id = task.id := by
    rw [← he]
    exact σ.runtimeIn_id hplanned hruntime
  obtain ⟨row, hrow, hfate, hcount, herror⟩ := hmet.row
  rw [hid] at hrow
  rw [← hfate]
  exact σ.runtimeIn_eq hplanned.spec hplanned.ids hrow hcount herror

private theorem met_ending (hasset : e.asset ∈ σ.artifact.plan.assets)
    (hevidence : σ.evidence e.asset = some e)
    (hmet : Met σ.blake3 σ.artifact.planId e w) :
    σ.ending w e.asset = some (e.fate σ.blake3).1 := by
  have hattempt : w.db.attemptState? σ.artifact.planId e.runtime.id
      (e.runtime.attemptId.getD []) e.runtime.ownerEpoch
        = some (e.fate σ.blake3).1.attempt := hmet.attempt
  have htemp : w.disk.version? .target (σ.tempOf e.runtime)
      = (e.fate σ.blake3).1.temp := hmet.temp
  have hfinal : w.disk.version? .target e.asset.targetPath.bytes
      = (e.fate σ.blake3).1.final := hmet.final
  unfold ending
  rw [hevidence, Option.bind_some, met_runtime hasset hevidence hmet,
    Option.bind_some, hattempt, Option.map_some, htemp, hfinal]

/-- One item for each RUNNING task, in plan order. -/
structure Covers (σ : Setting) (items : List (Evidence × TaskSpec)) : Prop where
  assets : items.map (·.1.asset) = σ.running
  evidence : ∀ item ∈ items, σ.evidence item.1.asset = some item.1
  running : ∀ item ∈ items, item.1.runtime.state = .running

section Covered

variable (hcovers : Covers σ items)
  (hmet : ∀ item ∈ items, Met σ.blake3 σ.artifact.planId item.1 w)
include hcovers

theorem Covers.mem {item : Evidence × TaskSpec} (hitem : item ∈ items) :
    item.1.asset ∈ σ.running := hcovers.assets ▸ List.mem_map_of_mem hitem

theorem Covers.exists (hasset : asset ∈ σ.running) :
    ∃ item ∈ items, item.1.asset = asset := by
  rw [← hcovers.assets] at hasset
  exact List.mem_map.1 hasset

include hmet

/-- A task has succeeded exactly if its round was a success. -/
theorem succeededIn_iff {item : Evidence × TaskSpec} (hitem : item ∈ items) :
    σ.succeededIn w item.1.asset = (item.1.fate σ.blake3).2.isOk := by
  have hmem := (σ.mem_running.1 (hcovers.mem hitem)).1
  have hruntime := met_runtime hmem (hcovers.evidence item hitem)
    (hmet item hitem)
  have hreleased := @released_fate σ.blake3 item.1 (hcovers.running item hitem)
  unfold succeededIn
  rw [hruntime, Option.any_some, Bool.eq_iff_iff, beq_iff_eq,
    ← hreleased.succeeded]
  cases (item.1.fate σ.blake3).2 with
  | ok _ => exact iff_of_true rfl rfl
  | error e => exact iff_of_false (fun h => by cases h) Bool.false_ne_true

/-- The first task that has not succeeded is the first whose round was not
a success. -/
theorem find_failed : (σ.running.find? fun asset => !σ.succeededIn w asset)
    = (items.find? fun item => !(item.1.fate σ.blake3).2.isOk).map
      (·.1.asset) := by
  rw [← hcovers.assets, List.find?_map]
  congr 1
  refine List.find?_congr fun item hitem => ?_
  rw [Function.comp_apply, succeededIn_iff hcovers hmet hitem]

end Covered

/-- A task that was not RUNNING has the row it had. -/
theorem idle_of_looped (hcovers : Covers σ items) {w₁ : Machine}
    {first : Except Status Unit}
    (hrows : ∀ p t, rowsOf w₁.db p t = rowsOf σ.machine.db p t)
    (h : Looped σ.blake3 σ.artifact.planId items first w₁ r w)
    (hasset : asset ∈ σ.artifact.plan.assets) (hidle : asset ∉ σ.running) :
    ∃ runtime, σ.runtimeIn w.db asset = some runtime
      ∧ runtime.state ≠ .running := by
  obtain ⟨task, hplanned⟩ := σ.planned hasset
  obtain ⟨row, hrow, hcount, herror⟩ := hplanned.row
  have hsame : w.db.task? σ.artifact.planId task.id
      = σ.machine.db.task? σ.artifact.planId task.id := by
    refine congrArg Prod.fst ((h.others _ _ ?_).trans (hrows _ _))
    rintro item hitem ⟨-, hid⟩
    have hmem := hcovers.mem hitem
    obtain ⟨other, hother⟩ := σ.planned (σ.mem_running.1 hmem).1
    obtain ⟨runtime, hruntime, he⟩ := Option.map_eq_some_iff.1
      (hcovers.evidence item hitem)
    have hid' : item.1.runtime.id = other.id := by
      rw [← he]
      exact σ.runtimeIn_id hother hruntime
    have heq := σ.task_inj hasset (σ.mem_running.1 hmem).1 hplanned.spec
      hother.spec (hid.trans hid')
    exact hidle (heq ▸ hmem)
  refine ⟨row.toRuntime, σ.runtimeIn_eq hplanned.spec hplanned.ids
    (hsame.trans hrow) hcount herror, fun hrunning => hidle ?_⟩
  rw [σ.mem_running, σ.runtimeIn_eq hplanned.spec hplanned.ids hrow hcount herror,
    Option.any_some, beq_iff_eq]
  exact ⟨hasset, hrunning⟩

/-- What the loop leaves is what the command is for. -/
theorem finished_of_looped (hcovers : Covers σ items) {w₁ : Machine}
    (hrows : ∀ p t, rowsOf w₁.db p t = rowsOf σ.machine.db p t)
    (h : Looped σ.blake3 σ.artifact.planId items (.ok ()) w₁ r w) :
    σ.Finished (some r) w := by
  have hresult := h.result
  rw [keepFirst_foldl fun item : Evidence × TaskSpec =>
    (item.1.fate σ.blake3).2] at hresult
  have hfind := find_failed hcovers h.met
  have hall : (∀ asset ∈ σ.running, σ.succeededIn w asset = true)
      ↔ (σ.running.find? fun asset => !σ.succeededIn w asset) = none := by
    rw [List.find?_eq_none]
    simp
  refine ⟨?_, ?_, ?_, ?_, ?_⟩
  · intro asset hasset
    obtain ⟨item, hitem, rfl⟩ := hcovers.exists hasset
    exact ⟨item.1, hcovers.evidence item hitem, met_ending
      (σ.mem_running.1 hasset).1 (hcovers.evidence item hitem)
      (h.met item hitem)⟩
  · intro asset hasset
    by_cases hrunning : asset ∈ σ.running
    · obtain ⟨item, hitem, rfl⟩ := hcovers.exists hrunning
      exact ⟨_, met_runtime hasset (hcovers.evidence item hitem)
        (h.met item hitem),
        (@released_fate σ.blake3 item.1 (hcovers.running item hitem)).idle⟩
    · exact idle_of_looped hcovers hrows h hasset hrunning
  · intro p t hne
    rw [h.others p t ?_, hrows]
    intro item hitem
    obtain ⟨runtime, hruntime, he⟩ := Option.map_eq_some_iff.1
      (hcovers.evidence item hitem)
    have hid : item.1.runtime = runtime := by rw [← he]
    rw [hid]
    exact hne _ (hcovers.mem hitem) runtime hruntime
  · rw [hall, hfind, hresult]
    cases hfailed : items.find? fun item => !(item.1.fate σ.blake3).2.isOk with
    | none => exact iff_of_true rfl rfl
    | some item =>
        have hno := List.find?_some (p := fun item : Evidence × TaskSpec =>
          !(item.1.fate σ.blake3).2.isOk) hfailed
        refine iff_of_false (fun hok => ?_) nofun
        have hok : (item.1.fate σ.blake3).2 = .ok () := Option.some.inj hok
        simp [hok, Except.isOk, Except.toBool] at hno
  · intro error
    rw [hfind, hresult]
    cases hfailed : items.find? fun item => !(item.1.fate σ.blake3).2.isOk with
    | none =>
        refine iff_of_false (fun h => by cases h) ?_
        rintro ⟨asset, e, hnone, -⟩
        cases hnone
    | some item =>
        have hevidence := hcovers.evidence item
          (List.mem_of_find?_eq_some hfailed)
        constructor
        · intro herror
          exact ⟨_, _, rfl, hevidence, Option.some.inj herror⟩
        · rintro ⟨asset, e, hasset, he, herror⟩
          cases hasset
          cases hevidence.symm.trans he
          exact congrArg some herror

end Finish

end Setting

end PhotoBridge.RecoveryService
