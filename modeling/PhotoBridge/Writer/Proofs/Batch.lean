/-
Batching refines one-at-a-time execution.

Both ways of executing a group are compared with `applyAll`, the
commands' functions of the tables applied one after the other until one
fails: `executeEach` answers OK throughout exactly when `applyAll`
succeeds and then leaves its result (`executeEach_quiet`), and so does a
batch under the current epoch (`executeOperations_quiet`).
-/
import PhotoBridge.Db.Proofs.Store
import PhotoBridge.Writer.Batch

namespace PhotoBridge

open Transaction Session

variable {α : Type}

-- ============================================================ groups

/-- A run of same-kind, same-plan, same-epoch commands with pairwise
distinct tasks, none of them a claim. -/
def SameKind (group : List Command) : Prop :=
  ∃ (kind : Nat) (planId : Bytes) (epoch : Nat) (tasks : List Bytes),
    tasks.Nodup
    ∧ group.map Command.key
      = tasks.map fun task => some (kind, planId, task, epoch)

/-- What `takeMore` takes joins the group: same kind, plan and epoch, and
task ids that are new. -/
theorem takeMore_tasks (first : Nat × Bytes × Bytes × Nat) (room : Nat)
    (tasks : List Bytes) (queue : List Command) :
    ∃ more : List Bytes, more.Nodup ∧ (∀ task ∈ more, task ∉ tasks)
      ∧ more.length ≤ room
      ∧ (takeMore first room tasks queue).1.map Command.key
        = more.map fun task =>
          some (first.1, first.2.1, task, first.2.2.2) := by
  fun_induction takeMore first room tasks queue with
  | case1 => exact ⟨[], .nil, by simp, by simp, rfl⟩
  | case2 => exact ⟨[], .nil, by simp, by simp, rfl⟩
  | case3 => exact ⟨[], .nil, by simp, by simp, rfl⟩
  | case4 room tasks next queue k hk hj taken rest heq ih =>
      rw [heq] at ih
      obtain ⟨more, hnodup, hnew, hlen, hmap⟩ := ih
      simp only [Command.joins, hk, Bool.and_eq_true, beq_iff_eq,
        Bool.not_eq_true', List.contains_eq_mem,
        decide_eq_false_iff_not] at hj
      obtain ⟨⟨⟨hkind, hplan⟩, hepoch⟩, hfresh⟩ := hj
      refine ⟨k.2.2.1 :: more, ?_, ?_, ?_, ?_⟩
      · refine List.nodup_cons.2 ⟨fun hmem => ?_, hnodup⟩
        exact hnew _ hmem (List.mem_cons_self ..)
      · intro task htask
        obtain rfl | htask := List.mem_cons.1 htask
        · exact hfresh
        · exact fun hmem => hnew task htask (List.mem_cons_of_mem _ hmem)
      · simpa using hlen
      · simp only [List.map_cons, hmap, hk, ← hkind, ← hplan, ← hepoch]
  | case5 => exact ⟨[], .nil, by simp, by simp, rfl⟩

/-- A group is not empty, fits, and is one command or a run of one
kind. -/
structure IsGroup (maxBatchSize : Nat) (group : List Command) : Prop where
  nonempty : group ≠ []
  fits : group.length ≤ maxBatchSize
  shape : (∃ command, group = [command]) ∨ SameKind group

/-- A group of more than one command is a run of one kind. -/
theorem IsGroup.sameKind {maxBatchSize : Nat} {group : List Command}
    (h : IsGroup maxBatchSize group) (hlong : 1 < group.length) :
    SameKind group := by
  obtain ⟨command, rfl⟩ | hkind := h.shape
  · simp at hlong
  · exact hkind

theorem takeBatch_isGroup {maxBatchSize : Nat} (hmax : 1 ≤ maxBatchSize)
    (first : Command) (queue : List Command) :
    IsGroup maxBatchSize (takeBatch maxBatchSize first queue).1 := by
  unfold takeBatch
  split
  · exact ⟨by simp, hmax, .inl ⟨first, rfl⟩⟩
  · next k hk =>
    obtain ⟨more, hnodup, hnew, hlen, hmap⟩ :=
      takeMore_tasks k (maxBatchSize - 1) [k.2.2.1] queue
    have hlength := congrArg List.length hmap
    simp only [List.length_map] at hlength
    refine ⟨by simp, ?_, .inr ⟨k.1, k.2.1, k.2.2.2, k.2.2.1 :: more, ?_, ?_⟩⟩
    · simp only [List.length_cons, hlength]
      omega
    · refine List.nodup_cons.2 ⟨fun hmem => ?_, hnodup⟩
      exact hnew _ hmem (List.mem_singleton_self _)
    · simp only [List.map_cons, hmap, hk]

/-- The groups are the queue, cut into consecutive pieces. -/
theorem groups_flatten (maxBatchSize : Nat) (queue : List Command) :
    (groups maxBatchSize queue).flatten = queue := by
  fun_induction groups maxBatchSize queue with
  | case1 => rfl
  | case2 first queue ih =>
      rw [List.flatten_cons, ih]
      exact takeBatch_append maxBatchSize first queue

private theorem groups_isGroup {maxBatchSize : Nat} (hmax : 1 ≤ maxBatchSize)
    (queue : List Command) :
    ∀ group ∈ groups maxBatchSize queue, IsGroup maxBatchSize group := by
  fun_induction groups maxBatchSize queue with
  | case1 => simp
  | case2 first queue ih =>
      intro group hgroup
      obtain rfl | hgroup := List.mem_cons.1 hgroup
      · exact takeBatch_isGroup hmax first queue
      · exact ih group hgroup

-- ================================================ one after the other

/-- The commands' functions of the tables, one after the other. -/
def applyAll : List Command → Db → Option Db
  | [], db => some db
  | command :: rest, db =>
      match (command.call.run : DbTxn Reply) db with
      | .ok (_, db') => applyAll rest db'
      | .error _ => none

/-- A connection outside any transaction or batch, with the lock free and
no fault to come. -/
structure Quiet (repo : Repo) : Prop where
  txn : repo.txn = none
  memory : repo.memory = none
  busy : repo.busy = false
  faults : repo.faults = []

/-- One command on a quiet connection does its function. -/
theorem execute_quiet (command : Command) {repo : Repo} (h : Quiet repo) :
    Quiet (execute command repo).2
      ∧ match (command.call.run : DbTxn Reply) repo.committed with
        | .ok (reply, db') => (execute command repo).1 = .ok reply
            ∧ (execute command repo).2.committed = db'
        | .error e => (execute command repo).1 = .error e
            ∧ (execute command repo).2.committed = repo.committed := by
  have hatomic := call_atomic command.call
  obtain ⟨ht, hb, hm⟩ := hatomic.closed h.txn h.memory
  obtain ⟨hr, hq⟩ := hatomic.quiet h.txn h.memory h.faults h.busy
  refine ⟨⟨ht, hm.trans h.memory, hb.trans h.busy, hq⟩, ?_⟩
  have hout := hatomic.outcome h.txn h.memory
  unfold execute
  revert hr hout
  generalize (command.call.run : RepoM Reply) repo = out
  obtain ⟨answer, repo'⟩ := out
  intro hr hout
  simp only at hr hout ⊢
  generalize repo'.committed = db' at hout ⊢
  cases hout with
  | done hdone =>
      rw [hdone]
      exact ⟨rfl, rfl⟩
  | refused e =>
      cases hf : (command.call.run : DbTxn Reply) repo.committed with
      | ok p =>
          rw [hf] at hr
          cases hr
      | error e' =>
          rw [hf] at hr
          cases hr
          exact ⟨rfl, rfl⟩

/-- Executing one by one answers OK throughout exactly when `applyAll`
succeeds, and then leaves its result. -/
theorem executeEach_quiet (commands : List Command) {repo : Repo}
    (h : Quiet repo) :
    ((∀ answer ∈ (executeEach commands repo).1, answer.isOk = true)
        ↔ (applyAll commands repo.committed).isSome = true)
      ∧ ∀ db', applyAll commands repo.committed = some db' →
        (executeEach commands repo).2.committed = db' := by
  induction commands generalizing repo with
  | nil => simp [executeEach, applyAll]
  | cons command rest ih =>
      obtain ⟨hquiet, hone⟩ := execute_quiet command h
      obtain ⟨hall, hdb⟩ := ih hquiet
      simp only [executeEach, applyAll, List.mem_cons, forall_eq_or_imp]
      cases hf : (command.call.run : DbTxn Reply) repo.committed with
      | error e =>
          rw [hf] at hone
          simp [hone.1, Except.isOk, Except.toBool]
      | ok p =>
          obtain ⟨reply, db₁⟩ := p
          rw [hf] at hone
          obtain ⟨hans, hcom⟩ := hone
          rw [hcom] at hall hdb
          refine ⟨?_, hdb⟩
          rw [hans, hall]
          simp [Except.isOk, Except.toBool]

-- ========================================================== in a batch

/-- Inside a batch of the plan, with no fault to come, `x` answers what
`f` answers. -/
def QuietIn (planId : Bytes) (epoch : Nat) (x : RepoM α) (f : DbTxn α) :
    Prop :=
  ∀ (repo : Repo) (s : Db), repo.txn = some s →
    repo.memory = some (planId, epoch) → s.currentEpoch? planId = some epoch →
    repo.faults = [] →
    (x repo).1 = (f s).map Prod.fst ∧ (x repo).2.faults = []

variable {planId : Bytes} {epoch : Nat}

private theorem quietIn_throw (e : Status) :
    QuietIn planId epoch (throw e : RepoM α) (throw e) :=
  fun _ _ _ _ _ hq => ⟨rfl, hq⟩

private theorem quietIn_check {check : Except Status α} {β : Type}
    {k : α → RepoM β} {g : α → DbTxn β}
    (h : ∀ a, QuietIn planId epoch (k a) (g a)) :
    QuietIn planId epoch (liftCheck check >>= k) (liftCheck check >>= g) := by
  cases check with
  | ok a => exact h a
  | error e => exact quietIn_throw e

private theorem quietIn_require {p : Prop} [Decidable p] {error : Status}
    {β : Type} {k : RepoM β} {g : DbTxn β} (h : QuietIn planId epoch k g) :
    QuietIn planId epoch (require p error >>= fun _ => k)
      (require p error >>= fun _ => g) := by
  unfold require
  by_cases hp : p
  · simp only [if_pos hp]
    exact h
  · simp only [if_neg hp]
    exact quietIn_throw error

private theorem quietIn_answer {x : RepoM α} {f : DbTxn α} (wrap : α → Reply)
    (h : QuietIn planId epoch x f) :
    QuietIn planId epoch (answer wrap x) (answer wrap f) := by
  intro repo s ht hm hc hq
  obtain ⟨hr, hq'⟩ := h repo s ht hm hc hq
  cases hx : x repo with
  | mk r repo' =>
      rw [hx] at hr hq'
      simp only at hr hq'
      rw [answer_run hx]
      refine ⟨?_, hq'⟩
      simp only [hr]
      unfold answer
      show _ = (StateT.bind f _ s).map Prod.fst
      unfold StateT.bind
      cases f s <;> rfl

/-- A body that joins the batch. -/
theorem quietIn_joinOrOwn {body : Option Nat → RepoM Unit}
    {body' : Option Nat → DbTxn Unit}
    (h : ∀ batched, Realises (body batched) (body' batched))
    (hblind : EpochBlind planId body') :
    QuietIn planId epoch (joinOrOwn planId body) (joinOrOwn planId body') := by
  intro repo s ht hm hc hq
  have hrun : joinOrOwn planId body repo
      = Session.orRollback (body (some epoch)) repo := by
    apply joinOrOwn_joined
    simp [hm, batchedEpochFor]
  obtain ⟨hq', hr⟩ := (h (some epoch)).quiet ht hq
  rw [hrun]
  show _ = (body' none s).map Prod.fst ∧ _
  rw [← hblind epoch s hc, ← hr]
  unfold Session.orRollback
  cases hx : body (some epoch) repo with
  | mk r repo' =>
      rw [hx] at hq'
      cases r with
      | ok a => exact ⟨rfl, hq'⟩
      | error e => exact ⟨rfl, hq'⟩

/-- A command with a key, inside a batch of its plan. -/
theorem executeBatchedOperation_quiet {command : Command}
    {k : Nat × Bytes × Bytes × Nat} (hk : command.key = some k) :
    QuietIn command.planId epoch (executeBatchedOperation command)
      command.call.run := by
  cases command with
  | claim p e => cases hk
  | commitIntent p t a e =>
      exact quietIn_answer _ (quietIn_check fun _ => quietIn_check fun _ =>
        quietIn_joinOrOwn (realises_advanceAttemptBody p t e a _ _)
          (advanceAttemptBody_blind t e a _ _))
  | tempWritten p t a e =>
      exact quietIn_answer _ (quietIn_check fun _ => quietIn_check fun _ =>
        quietIn_joinOrOwn (realises_advanceAttemptBody p t e a _ _)
          (advanceAttemptBody_blind t e a _ _))
  | receipt p r =>
      exact quietIn_answer _ (quietIn_check fun _ =>
        quietIn_joinOrOwn (realises_persistVerifiedReceiptBody p r _ _)
          (persistVerifiedReceiptBody_blind r _ _))
  | retryable p t a e error =>
      exact quietIn_answer _ (quietIn_check fun _ => quietIn_check fun _ =>
        quietIn_require (quietIn_joinOrOwn
          (realises_finishTaskBody p t e a _ _)
          (finishTaskBody_blind t e a _ _)))

theorem executeBatchedOperation_call {command : Command}
    {k : Nat × Bytes × Bytes × Nat} (hk : command.key = some k) :
    executeBatchedOperation command = command.call.run := by
  cases command with
  | claim p e => cases hk
  | _ => rfl

/-- Commands with keys never ask for an epoch. -/
theorem Command.call_ne_acquire (command : Command) (p : Bytes) :
    command.call ≠ .acquireNextExecutionEpoch p := by
  cases command <;> simp [Command.call]

/-- The operations of a batch under the current epoch do what `applyAll`
does to the working copy, or one of them fails. -/
theorem executeOperations_quiet (commands : List Command) (index : Nat)
    {repo : Repo} {s : Db} (ht : repo.txn = some s)
    (hm : repo.memory = some (planId, epoch))
    (hc : s.currentEpoch? planId = some epoch) (hq : repo.faults = [])
    (hkeys : ∀ c ∈ commands, c.key ≠ none ∧ c.planId = planId) :
    let out := executeOperations index commands repo
    SameOutside repo out.2
      ∧ match applyAll commands s with
        | some s' => out.1 = none ∧ out.2.txn = some s'
            ∧ out.2.faults = []
        | none => ∃ failed e, out.1 = some (failed, e) := by
  induction commands generalizing index repo s with
  | nil => exact ⟨.refl repo, rfl, ht, hq⟩
  | cons command rest ih =>
      obtain ⟨hkey, rfl⟩ := hkeys command (List.mem_cons_self ..)
      obtain ⟨k, hk⟩ := Option.ne_none_iff_exists'.1 hkey
      obtain ⟨hr, hq'⟩ :=
        executeBatchedOperation_quiet hk repo s ht hm hc hq
      have hjoin := call_joins command.call
      have hin : InBatch repo.memory s := ⟨_, _, hm, hc⟩
      simp only [executeOperations, applyAll]
      cases hx : executeBatchedOperation command repo with
      | mk r repo₁ =>
          rw [hx] at hr hq'
          rw [executeBatchedOperation_call hk] at hx
          cases r with
          | error e =>
              simp only at hr hq' ⊢
              cases hf : (command.call.run : DbTxn Reply) s with
              | ok p =>
                  rw [hf] at hr
                  cases hr
              | error e' => exact ⟨hjoin.error ht hin hx, index, e, rfl⟩
          | ok reply =>
              obtain ⟨s₁, hf, ht₁, hsame⟩ := hjoin.ok ht hin hx
              have hepochs := (call_edit command.call
                command.call_ne_acquire hf).epochs
              simp only [hf]
              have hrest := ih (index + 1) ht₁ (hsame.memory.trans hm)
                (by rw [hepochs]; exact hc) hq'
                fun c hmem => hkeys c (List.mem_cons_of_mem _ hmem)
              exact ⟨hsame.trans hrest.1, hrest.2⟩

-- ====================================================== the refinement

/-- `BeginWriteBatch` on a quiet connection: refused, or open under the
current epoch. -/
theorem beginWriteBatch_quiet (p : Bytes) (e : Nat) {repo : Repo}
    (h : Quiet repo) :
    (∃ err repo', Repository.beginWriteBatch p e repo = (.error err, repo')
        ∧ repo'.committed = repo.committed
        ∧ ¬(checkIds p (text "batch") = .ok ()
          ∧ checkEpochAttempt e (text "batch") = .ok ()
          ∧ repo.committed.currentEpoch? p = some e))
      ∨ repo.committed.currentEpoch? p = some e
        ∧ ∃ repo', Repository.beginWriteBatch p e repo = (.ok (), repo')
          ∧ repo'.txn = some repo.committed ∧ repo'.memory = some (p, e)
          ∧ repo'.committed = repo.committed ∧ repo'.faults = [] := by
  by_cases hchecks : checkIds p (text "batch") = .ok ()
      ∧ checkEpochAttempt e (text "batch") = .ok ()
      ∧ repo.committed.currentEpoch? p = some e
  · obtain ⟨hids, hepoch, hcur⟩ := hchecks
    refine .inr ⟨hcur, ?_⟩
    have hbegin : Session.beginImmediate executeError nestedMessage
        lockedMessage repo = ((.ok () : Except Status Unit),
          { repo with txn := some repo.committed }) := by
      simp [beginImmediate, nextFault_quiet h.faults, h.txn, h.busy]
    have hcheck : (readCurrentEpochForPlan p >>= fun current =>
        require (current = e) (.invalid
          "stale executor epoch cannot start a runtime write batch") :
        DbTxn Unit) repo.committed = .ok ((), repo.committed) :=
      Txn.bind_eq_ok.2 ⟨e, _, readCurrentEpochForPlan_ok.2 ⟨hcur, rfl⟩,
        require_ok.2 ⟨rfl, rfl⟩⟩
    obtain ⟨hq, hr⟩ := (realises_batchEpochCheck p e).quiet
      (c := { repo with txn := some repo.committed }) rfl h.faults
    rw [beginWriteBatch_eq p e h.memory, hids, hepoch]
    simp only [liftCheck, bind_apply, pure_apply, hbegin,
      Session.orRollback]
    cases hx : Repository.batchEpochCheck p e
        { repo with txn := some repo.committed } with
    | mk r repo₁ =>
        rw [hx] at hq hr
        simp only [hcheck] at hr hq
        subst hr
        obtain ⟨s, hs, ht, hsame⟩ := (realises_batchEpochCheck p e).ok
          (c := { repo with txn := some repo.committed }) rfl hx
        rw [hcheck] at hs
        cases hs
        exact ⟨_, rfl, ht, rfl, hsame.committed, hq⟩
  · left
    obtain ⟨err, repo', hrun, -, hsame⟩ | ⟨repo', hrun, -, -, -, -, hcur⟩ :=
      beginWriteBatch_cases p e h.txn h.memory
    · exact ⟨err, repo', hrun, hsame.committed, hchecks⟩
    · exfalso
      rw [beginWriteBatch_eq p e h.memory] at hrun
      cases hids : checkIds p (text "batch") with
      | error err =>
          rw [hids] at hrun
          cases hrun
      | ok _ =>
          cases hepoch : checkEpochAttempt e (text "batch") with
          | error err =>
              rw [hids, hepoch] at hrun
              cases hrun
          | ok _ => exact hchecks ⟨hids, hepoch, hcur⟩

/-- A successful command has arguments `BeginWriteBatch` accepts and the
current epoch. -/
theorem Command.call_checks {command : Command}
    {k : Nat × Bytes × Bytes × Nat} (hk : command.key = some k)
    {db db' : Db} {reply : Reply}
    (h : (command.call.run : DbTxn Reply) db = .ok (reply, db')) :
    checkIds command.planId (text "batch") = .ok ()
      ∧ checkEpochAttempt command.epoch (text "batch") = .ok ()
      ∧ db.currentEpoch? command.planId = some command.epoch := by
  have hids : ∀ {p t : Bytes} {u : Unit}, checkIds p t = .ok u →
      checkIds p (text "batch") = .ok () := by
    intro p t u h
    unfold checkIds at h ⊢
    split at h
    · cases h
    · next hempty =>
      split at h
      · cases h
      · next hnul =>
        simp only [Bool.or_eq_true, not_or, Bool.not_eq_true] at hempty hnul
        simp only [hempty.1, hnul.1, Bool.false_or]
        decide
  have hepoch : ∀ {e : Nat} {a : Bytes} {u : Unit},
      checkEpochAttempt e a = .ok u →
      checkEpochAttempt e (text "batch") = .ok () := by
    intro e a u h
    unfold checkEpochAttempt at h ⊢
    split at h
    · cases h
    · next hbad =>
      split at h
      · cases h
      · next hbig =>
        simp only [Bool.or_eq_true, not_or, Bool.not_eq_true] at hbad
        rw [if_neg, if_neg hbig]
        simp only [hbad.1.1, Bool.false_or]
        decide
  cases command with
  | claim p e => cases hk
  | commitIntent p t a e =>
      refine ⟨?_, ?_, call_epoch_current _ rfl h⟩ <;>
        obtain ⟨_, h, -⟩ := answer_ok.1 h <;>
        obtain ⟨_, h₁, h⟩ := liftCheck_bind_ok.1 h <;>
        obtain ⟨_, h₂, -⟩ := liftCheck_bind_ok.1 h
      · exact hids h₁
      · exact hepoch h₂
  | tempWritten p t a e =>
      refine ⟨?_, ?_, call_epoch_current _ rfl h⟩ <;>
        obtain ⟨_, h, -⟩ := answer_ok.1 h <;>
        obtain ⟨_, h₁, h⟩ := liftCheck_bind_ok.1 h <;>
        obtain ⟨_, h₂, -⟩ := liftCheck_bind_ok.1 h
      · exact hids h₁
      · exact hepoch h₂
  | receipt p r =>
      refine ⟨?_, ?_, call_epoch_current _ rfl h⟩ <;>
        obtain ⟨_, h, -⟩ := answer_ok.1 h <;>
        obtain ⟨_, hcheck, -⟩ := liftCheck_bind_ok.1 h <;>
        unfold Repository.checkReceipt at hcheck
      · cases h₁ : checkIds p r.taskId with
        | error e => rw [h₁] at hcheck; cases hcheck
        | ok u => exact hids h₁
      · cases h₁ : checkIds p r.taskId with
        | error e => rw [h₁] at hcheck; cases hcheck
        | ok u =>
            cases h₂ : checkEpochAttempt r.ownerEpoch r.attemptId with
            | error e => rw [h₁, h₂] at hcheck; cases hcheck
            | ok u => exact hepoch h₂
  | retryable p t a e error =>
      refine ⟨?_, ?_, call_epoch_current _ rfl h⟩ <;>
        obtain ⟨_, h, -⟩ := answer_ok.1 h <;>
        obtain ⟨_, h₁, h⟩ := liftCheck_bind_ok.1 h <;>
        obtain ⟨_, h₂, -⟩ := liftCheck_bind_ok.1 h
      · exact hids h₁
      · exact hepoch h₂

/-- The commands of a run of one kind agree on plan and epoch. -/
theorem SameKind.keys {group : List Command} (h : SameKind group) :
    ∃ planId epoch, ∀ c ∈ group,
      c.key ≠ none ∧ c.planId = planId ∧ c.epoch = epoch := by
  obtain ⟨kind, planId, epoch, tasks, -, hmap⟩ := h
  refine ⟨planId, epoch, fun c hc => ?_⟩
  have hkey : c.key ∈ tasks.map fun task =>
      some (kind, planId, task, epoch) := by
    rw [← hmap]
    exact List.mem_map_of_mem hc
  obtain ⟨task, -, hk⟩ := List.mem_map.1 hkey
  cases c <;> simp_all [Command.key, Command.planId, Command.epoch]

/-- Committing the working copy with no fault to come. -/
theorem commitWriteBatch_quiet {repo : Repo} {s : Db}
    {batch : Bytes × Nat} (ht : repo.txn = some s)
    (hm : repo.memory = some batch) (hq : repo.faults = []) :
    (Repository.commitWriteBatch repo).1 = .ok ()
      ∧ (Repository.commitWriteBatch repo).2.committed = s := by
  unfold Repository.commitWriteBatch
  simp [hm, Session.orRollback, Session.commit, nextFault_quiet hq, ht]

/-- A batch of a run of one kind, on a quiet connection, follows
`applyAll`: all OK with its result, or all failed with nothing done. -/
theorem executeBatch_quiet {group : List Command} (hne : group ≠ [])
    (hkind : SameKind group) {repo : Repo} (h : Quiet repo) :
    match applyAll group repo.committed with
    | some db' => (executeBatch group repo).1 = group.map (fun _ => .ok .done)
        ∧ (executeBatch group repo).2.committed = db'
    | none => (executeBatch group repo).1.length = group.length
        ∧ (∀ answer ∈ (executeBatch group repo).1, answer.isOk = false)
        ∧ (executeBatch group repo).2.committed = repo.committed := by
  obtain ⟨planId, epoch, hkeys⟩ := hkind.keys
  obtain ⟨front, rest, rfl⟩ := List.exists_cons_of_ne_nil hne
  obtain ⟨hkey, rfl, rfl⟩ := hkeys front (List.mem_cons_self ..)
  obtain ⟨k, hk⟩ := Option.ne_none_iff_exists'.1 hkey
  obtain ⟨err, repo₁, hbegin, hcom, hnot⟩ | ⟨hcur, repo₁, hbegin, ht, hm,
    hcom, hq⟩ := beginWriteBatch_quiet front.planId front.epoch h
  · -- the batch cannot begin, so its first command would fail as well
    have hfail : applyAll (front :: rest) repo.committed = none := by
      simp only [applyAll]
      cases hf : (front.call.run : DbTxn Reply) repo.committed with
      | error e => rfl
      | ok p => exact absurd (Command.call_checks hk hf) hnot
    simp only [hfail, executeBatch, hbegin]
    refine ⟨by simp [completeAll], ?_, hcom⟩
    intro answer hanswer
    obtain ⟨_, -, rfl⟩ := List.mem_map.1 hanswer
    rfl
  · have hops := executeOperations_quiet (front :: rest) 0 ht hm hcur hq
      fun c hc => ⟨(hkeys c hc).1, (hkeys c hc).2.1⟩
    simp only [executeBatch, hbegin]
    cases hx : executeOperations 0 (front :: rest) repo₁ with
    | mk failed repo₂ =>
        rw [hx] at hops
        obtain ⟨hsame, hops⟩ := hops
        cases happ : applyAll (front :: rest) repo.committed with
        | some db' =>
            rw [happ] at hops
            obtain ⟨rfl, ht₂, hq₂⟩ := hops
            obtain ⟨hr, hdb⟩ := commitWriteBatch_quiet ht₂
              (hsame.memory.trans hm) hq₂
            simp only [hr, completeAll]
            exact ⟨rfl, hdb⟩
        | none =>
            rw [happ] at hops
            obtain ⟨index, e, rfl⟩ := hops
            have hmem : repo₂.memory = some (front.planId, front.epoch) :=
              hsame.memory.trans hm
            simp only [Repository.rollbackWriteBatch, hmem,
              Option.isNone_some, Bool.false_eq_true, if_false]
            refine ⟨by simp, ?_, hsame.committed.trans hcom⟩
            intro answer hanswer
            obtain ⟨i, hi, rfl⟩ := List.mem_mapIdx.1 hanswer
            rfl

/-- For every queue and batch size, `Run`'s groups are the queue cut into
consecutive single commands and runs of one kind; and a group of several
commands, executed as a batch on a quiet connection, answers all OK with
the database of executing them one by one when that succeeds throughout,
and otherwise answers only errors and leaves the database as it was. -/
theorem batching_refines {maxBatchSize : Nat} (hmax : 1 ≤ maxBatchSize)
    (queue : List Command) :
    (groups maxBatchSize queue).flatten = queue
      ∧ ∀ group ∈ groups maxBatchSize queue,
        IsGroup maxBatchSize group
        ∧ ∀ repo : Repo, 1 < group.length → Quiet repo →
          ((∀ answer ∈ (executeEach group repo).1, answer.isOk = true) →
            (executeBatch group repo).1 = group.map (fun _ => .ok .done)
              ∧ (executeBatch group repo).2.committed
                = (executeEach group repo).2.committed)
          ∧ (¬(∀ answer ∈ (executeEach group repo).1, answer.isOk = true) →
            (executeBatch group repo).1.length = group.length
              ∧ (∀ answer ∈ (executeBatch group repo).1,
                answer.isOk = false)
              ∧ (executeBatch group repo).2.committed = repo.committed) := by
  refine ⟨groups_flatten maxBatchSize queue, fun group hgroup => ?_⟩
  have hg := groups_isGroup hmax queue group hgroup
  refine ⟨hg, fun repo hlong hquiet => ?_⟩
  have hbatch := executeBatch_quiet hg.nonempty (hg.sameKind hlong) hquiet
  obtain ⟨hall, hdb⟩ := executeEach_quiet group hquiet
  cases happ : applyAll group repo.committed with
  | some db' =>
      rw [happ] at hbatch hall
      refine ⟨fun _ => ⟨hbatch.1, ?_⟩, fun hnot => ?_⟩
      · rw [hdb db' happ]
        exact hbatch.2
      · exact absurd (hall.2 rfl) hnot
  | none =>
      rw [happ] at hbatch hall
      exact ⟨fun hok => absurd (hall.1 hok) Bool.false_ne_true,
        fun _ => hbatch⟩

/-- A plan at epoch 1 with two tasks running under it. -/
def twoTasksDb : Db :=
  let plan := text "p"
  let row := fun (task attempt : Bytes) =>
    (⟨plan, task, task, .migrateFile, .running, some 1, some attempt, 1, task,
      0, none, none⟩ : TaskRow)
  { Db.empty with
    migrations := [⟨text "m", [], [], 1⟩]
    plans := [⟨plan, text "m", [], .zero, .zero, 1⟩]
    tasks := [row (text "t") (text "a"), row (text "u") (text "b")]
    attempts := [newAttemptRow plan (text "t") (text "a") 1,
      newAttemptRow plan (text "u") (text "b") 1] }

def twoIntents : List Command :=
  [.commitIntent (text "p") (text "t") (text "a") 1,
    .commitIntent (text "p") (text "u") (text "b") 1]

private theorem groups_twoIntents : groups 8 twoIntents = [twoIntents] := by
  rw [twoIntents, groups]
  have h : takeBatch 8 (.commitIntent (text "p") (text "t") (text "a") 1)
      [.commitIntent (text "p") (text "u") (text "b") 1]
        = (twoIntents, []) := by decide
  rw [h, groups]
  rfl

theorem batching_refines_twoIntents :
    (groups 8 twoIntents).flatten = twoIntents
      ∧ (executeBatch twoIntents ⟨twoTasksDb, none, false, [], none⟩).1
        = [.ok .done, .ok .done]
      ∧ (executeBatch twoIntents ⟨twoTasksDb, none, false, [], none⟩
          ).2.committed
        = (executeEach twoIntents ⟨twoTasksDb, none, false, [], none⟩
          ).2.committed := by
  have h := @batching_refines 8 (by decide) twoIntents
  refine ⟨h.1, ?_⟩
  have hgroup := (h.2 twoIntents (by simp [groups_twoIntents])).2
    ⟨twoTasksDb, none, false, [], none⟩ (by decide) ⟨rfl, rfl, rfl, rfl⟩
  exact hgroup.1 (by decide)

end PhotoBridge
