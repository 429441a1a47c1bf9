/-
Delivery by the writer thread, by invariants of its steps.

# The invariants

- `Delivery`: what was answered, what the thread has in hand and what is
  queued make up, in this order, exactly what was accepted.
- `Order`: what was executed, what is left of the batch to execute and
  what is queued is accepted in this order.
- `Flags`: the stop flag is set once `Stop` was called or an exception
  was caught, and nothing is queued once the thread is leaving.
- `Wakeful`: the thread does not sleep through its condition.
- `Link`: how far the connection has got with the batch in hand.
- `Backed`: an OK answer, given or about to be, has its committed
  transaction.

Each is kept by every step, and `writer_delivery` puts them together.
-/
import PhotoBridge.Writer.Thread
import PhotoBridge.Writer.Proofs.Batch

namespace PhotoBridge.Writer

open Transaction Session

variable {maxBatchSize : Nat} {s s' : State}

-- ============================================================ delivery

/-- The accepted commands the thread has in hand, not yet answered. -/
def Pc.inHand : Pc → List Item
  | .waiting _ => []
  | .executing item => [item]
  | .beginning batch => batch
  | .operating batch _ _ => batch
  | .rollingBack batch _ _ => batch
  | .committing batch => batch
  | .completing todo => todo.map Prod.fst
  | .unwinding batch _ => batch
  | .failing todo _ => todo
  | .draining todo _ => todo
  | .exited => []
  | .terminated => []

/-- Nothing accepted is lost, answered twice or answered out of order. -/
def Delivery (s : State) : Prop :=
  s.pc ≠ .terminated →
    s.answers.map Prod.fst ++ s.pc.inHand ++ s.commands = s.accepted

theorem completeWith_items (batch : List Item) (r : Except Status Unit) :
    (completeWith batch r).map Prod.fst = batch := by
  simp [completeWith, Function.comp_def]

private theorem completeFailed_items (batch : List Item) (failed : Nat)
    (error : Status) :
    (completeFailed batch failed error).map Prod.fst = batch := by
  apply List.ext_getElem
  · simp [completeFailed]
  · intro n h₁ h₂
    simp [completeFailed]

/-- Taking a batch moves the front of the queue into the thread's
hands. -/
theorem State.take_inHand (s : State) (maxBatchSize : Nat) :
    (s.take maxBatchSize).pc.inHand ++ (s.take maxBatchSize).commands
      = s.commands
      ∧ (s.take maxBatchSize).answers = s.answers
      ∧ (s.take maxBatchSize).accepted = s.accepted
      ∧ (s.take maxBatchSize).pc ≠ .terminated := by
  unfold State.take
  split
  · next hnil => exact ⟨by simp [Pc.inHand, hnil], rfl, rfl, by simp⟩
  · next first rest hcons =>
    have hpos : 1 ≤ (takeBatch maxBatchSize first.2
        (rest.map Prod.snd)).1.length := by
      unfold takeBatch
      split
      · exact Nat.le_refl 1
      · simp
    refine ⟨?_, rfl, rfl, ?_⟩
    · simp only
      split
      · simp only [Pc.inHand, List.take_append_drop]
      · next hshort =>
        -- a batch of one is the first command
        have hone : (takeBatch maxBatchSize first.2
            (rest.map Prod.snd)).1.length = 1 ∨ rest = [] := by
          simp only [hcons, List.length_take, List.length_cons] at hshort
          cases rest with
          | nil => exact .inr rfl
          | cons _ _ =>
              left
              simp only [List.length_cons] at hshort
              omega
        obtain hone | rfl := hone
        · simp [Pc.inHand, hone, hcons]
        · simp only [Pc.inHand, hcons]
          rw [List.drop_eq_nil_of_le (by simpa using hpos)]
          rfl
    · simp only
      split <;> simp

/-- Every step keeps delivery. -/
theorem Step.delivery (hs : Step maxBatchSize s s') (h : Delivery s) :
    Delivery s' := by
  intro hterm
  cases hs with
  -- a command is taken or refused
  | enqueue command =>
      unfold State.enqueue at hterm ⊢
      cases hf : s.fatal with
      | some failure =>
          simp only [hf] at hterm ⊢
          exact h hterm
      | none =>
          cases hst : s.stopping with
          | true =>
              simp only [hf, hst, if_true] at hterm ⊢
              exact h hterm
          | false =>
              simp only [hf, hst, Bool.false_eq_true, if_false] at hterm ⊢
              rw [← List.append_assoc, h hterm]
  | stop => exact h hterm
  | notify =>
      have hwake : s.pc.wake.inHand = s.pc.inHand := by
        cases hpc : s.pc <;> rfl
      simp only [hwake]
      refine h fun hpc => hterm ?_
      simp only [hpc, Pc.wake]
  | spurious hpc => simpa [hpc, Pc.inHand] using h (by simp [hpc])
  | sleep hpc => simpa [hpc, Pc.inHand] using h (by simp [hpc])
  -- a batch goes from the queue into the hand
  | take hpc =>
      obtain ⟨hhand, hans, hacc, -⟩ := s.take_inHand maxBatchSize
      have hold := h (by simp [hpc])
      rw [hans, hacc, List.append_assoc, hhand]
      simpa [hpc, Pc.inHand] using hold
  | execute hpc => simpa [hpc, Pc.inHand] using h (by simp [hpc])
  -- a batch that cannot be begun is answered
  | begin hpc =>
      have hold := h (by simp [hpc])
      simp only [hpc, Pc.inHand] at hold
      simp only
      split
      · exact hold
      · simpa only [Pc.inHand, completeWith_items] using hold
  | operate hpc =>
      have hold := h (by simp [hpc])
      simp only [hpc, Pc.inHand] at hold
      simp only
      split <;> exact hold
  | operated hpc => simpa [hpc, Pc.inHand] using h (by simp [hpc])
  -- so is one that is rolled back
  | rollBack hpc =>
      have hold := h (by simp [hpc])
      simp only [hpc, Pc.inHand] at hold
      simpa only [Pc.inHand, completeFailed_items] using hold
  -- and one that is committed
  | commit hpc =>
      have hold := h (by simp [hpc])
      simp only [hpc, Pc.inHand] at hold
      simpa only [Pc.inHand, completeWith_items] using hold
  | complete hpc =>
      have hold := h (by simp [hpc])
      simpa [hpc, Pc.inHand] using hold
  | completed hpc => simpa [hpc, Pc.inHand] using h (by simp [hpc])
  -- what was in hand stays there
  | @throws batch what repo hpc =>
      have hhand : s.pc ≠ .terminated ∧ s.pc.inHand = batch := by
        obtain ⟨item, hpc, rfl⟩ | hpc | ⟨done, item, rest, hpc⟩
          | ⟨failed, error, hpc⟩ | hpc := hpc <;>
          exact ⟨by simp [hpc], by rw [hpc]; rfl⟩
      have hold := h hhand.1
      rw [hhand.2] at hold
      exact hold
  | unwind repo hpc => simpa [hpc, Pc.inHand] using h (by simp [hpc])
  | terminate => exact absurd rfl hterm
  | fail hpc => simpa [hpc, Pc.inHand] using h (by simp [hpc])
  | poison hpc => simpa [hpc, Pc.inHand] using h (by simp [hpc])
  | drain hpc => simpa [hpc, Pc.inHand] using h (by simp [hpc])
  | drained hpc => simpa [hpc, Pc.inHand] using h (by simp [hpc])

-- =============================================================== order

/-- What is left of the batch to execute. -/
def Pc.toExecute : Pc → List Item
  | .executing item => [item]
  | .beginning batch => batch
  | .operating _ _ rest => rest
  | _ => []

/-- Commands are executed in the order of their acceptance. -/
def Order (s : State) : Prop :=
  (s.executed ++ s.pc.toExecute ++ s.commands).Sublist s.accepted

/-- Giving up part of the batch keeps the order. -/
theorem Order.skip (executed : List Item) {rest rest' commands accepted : List Item}
    (h : (executed ++ rest ++ commands).Sublist accepted)
    (hskip : rest'.Sublist rest) :
    (executed ++ rest' ++ commands).Sublist accepted := by
  refine List.Sublist.trans ?_ h
  exact ((List.Sublist.refl executed).append hskip).append (.refl commands)

theorem State.take_toExecute (s : State) (maxBatchSize : Nat) :
    (s.take maxBatchSize).pc.toExecute = (s.take maxBatchSize).pc.inHand
      ∧ (s.take maxBatchSize).executed = s.executed := by
  unfold State.take
  split
  · exact ⟨rfl, rfl⟩
  · refine ⟨?_, rfl⟩
    simp only
    split <;> rfl

/-- Every step keeps the order of execution. -/
theorem Step.order (hs : Step maxBatchSize s s') (h : Order s) :
    Order s' := by
  unfold Order at h ⊢
  cases hs with
  | enqueue command =>
      unfold State.enqueue
      cases hf : s.fatal with
      | some failure => exact h
      | none =>
          cases hst : s.stopping with
          | true => exact h
          | false =>
              simp only [Bool.false_eq_true, if_false]
              rw [← List.append_assoc]
              exact h.append (.refl _)
  | stop => exact h
  | notify =>
      have hwake : s.pc.wake.toExecute = s.pc.toExecute := by
        cases hpc : s.pc <;> rfl
      simpa only [hwake] using h
  | spurious hpc => simpa [hpc, Pc.toExecute] using h
  | sleep hpc => simpa [hpc, Pc.toExecute] using h
  | take hpc =>
      obtain ⟨hhand, -, hacc, -⟩ := s.take_inHand maxBatchSize
      obtain ⟨hexec, hdone⟩ := s.take_toExecute maxBatchSize
      rw [hexec, hdone, hacc, List.append_assoc, hhand]
      simpa [hpc, Pc.toExecute] using h
  | execute hpc => simpa [hpc, Pc.toExecute] using h
  | begin hpc =>
      rw [hpc] at h
      simp only
      split
      · exact h
      · exact Order.skip _ h (List.nil_sublist _)
  | operate hpc =>
      rw [hpc] at h
      simp only [Pc.toExecute] at h
      simp only
      split
      · simpa [Pc.toExecute] using h
      · have hskip := Order.skip (s.executed ++ [_])
          (by simpa using h) (List.nil_sublist _)
        exact hskip
  | operated hpc => simpa [hpc, Pc.toExecute] using h
  | rollBack hpc => simpa [hpc, Pc.toExecute] using h
  | commit hpc => simpa [hpc, Pc.toExecute] using h
  | complete hpc => simpa [hpc, Pc.toExecute] using h
  | completed hpc => simpa [hpc, Pc.toExecute] using h
  | throws what repo hpc => exact Order.skip _ h (List.nil_sublist _)
  | unwind repo hpc => simpa [hpc, Pc.toExecute] using h
  | terminate hpc => simpa [hpc, Pc.toExecute] using h
  | fail hpc => simpa [hpc, Pc.toExecute] using h
  | poison hpc =>
      simp only [hpc, Pc.toExecute, List.append_nil] at h ⊢
      exact (List.sublist_append_left _ _).trans h
  | drain hpc => simpa [hpc, Pc.toExecute] using h
  | drained hpc => simpa [hpc, Pc.toExecute] using h

-- =============================================================== flags

/-- The thread is on its way out. -/
def Pc.leaving : Pc → Bool
  | .draining _ _ => true
  | .exited => true
  | _ => false

/-- The flags `Enqueue` looks at, and the numbering of the commands. -/
structure Flags (s : State) : Prop where
  stop : s.stopCalled = true → s.stopping = true
  fatal : s.fatal ≠ none → s.stopping = true
  leaving : s.pc.leaving = true → s.stopping = true ∧ s.commands = []
  numbered : s.accepted.map Prod.fst = List.range s.accepted.length

theorem Step.flags (hs : Step maxBatchSize s s') (h : Flags s) :
    Flags s' := by
  cases hs with
  | enqueue command =>
      unfold State.enqueue
      cases hf : s.fatal with
      | some failure => exact h
      | none =>
          cases hst : s.stopping with
          | true =>
              simp only [if_true]
              exact h
          | false =>
              simp only [Bool.false_eq_true, if_false]
              refine ⟨fun hc => hst.symm.trans (h.stop hc),
                fun hne => absurd rfl hne, fun hl => ?_, ?_⟩
              · have := (h.leaving hl).1
                rw [hst] at this
                cases this
              · simp only [List.map_append, h.numbered, List.map_cons,
                  List.map_nil, List.length_append, List.length_cons,
                  List.length_nil]
                exact List.range_succ.symm
  | stop =>
      exact ⟨fun _ => rfl, fun _ => rfl,
        fun hl => ⟨rfl, (h.leaving hl).2⟩, h.numbered⟩
  | notify =>
      refine ⟨h.stop, h.fatal, fun hl => h.leaving ?_, h.numbered⟩
      cases hpc : s.pc <;> simp_all [Pc.wake, Pc.leaving]
  | spurious => exact ⟨h.stop, h.fatal, by simp [Pc.leaving], h.numbered⟩
  | sleep => exact ⟨h.stop, h.fatal, by simp [Pc.leaving], h.numbered⟩
  | take hpc hready =>
      unfold State.take
      split
      · next hnil =>
        refine ⟨h.stop, h.fatal, fun _ => ⟨?_, hnil⟩, h.numbered⟩
        simpa [State.ready, hnil] using hready
      · refine ⟨h.stop, h.fatal, fun hl => ?_, h.numbered⟩
        simp only at hl
        split at hl <;> cases hl
  | execute => exact ⟨h.stop, h.fatal, by simp [Pc.leaving], h.numbered⟩
  | begin =>
      refine ⟨h.stop, h.fatal, fun hl => ?_, h.numbered⟩
      simp only at hl
      split at hl <;> cases hl
  | operate =>
      refine ⟨h.stop, h.fatal, fun hl => ?_, h.numbered⟩
      simp only at hl
      split at hl <;> cases hl
  | operated => exact ⟨h.stop, h.fatal, by simp [Pc.leaving], h.numbered⟩
  | rollBack => exact ⟨h.stop, h.fatal, by simp [Pc.leaving], h.numbered⟩
  | commit => exact ⟨h.stop, h.fatal, by simp [Pc.leaving], h.numbered⟩
  | complete => exact ⟨h.stop, h.fatal, by simp [Pc.leaving], h.numbered⟩
  | completed => exact ⟨h.stop, h.fatal, by simp [Pc.leaving], h.numbered⟩
  | throws => exact ⟨h.stop, h.fatal, by simp [Pc.leaving], h.numbered⟩
  | unwind => exact ⟨h.stop, h.fatal, by simp [Pc.leaving], h.numbered⟩
  | terminate => exact ⟨h.stop, h.fatal, by simp [Pc.leaving], h.numbered⟩
  | fail => exact ⟨h.stop, h.fatal, by simp [Pc.leaving], h.numbered⟩
  | poison =>
      exact ⟨fun _ => rfl, fun _ => rfl, fun _ => ⟨rfl, rfl⟩, h.numbered⟩
  | drain hpc =>
      exact ⟨h.stop, h.fatal, fun _ => h.leaving (by rw [hpc]; rfl),
        h.numbered⟩
  | drained hpc =>
      exact ⟨h.stop, h.fatal, fun _ => h.leaving (by rw [hpc]; rfl),
        h.numbered⟩

-- ============================================================ wake-ups

/-- A sleeping thread whose condition holds has a notification coming. -/
def Wakeful (s : State) : Prop :=
  s.pc = .waiting true → s.ready = true → 0 < s.notifications

theorem Step.wakeful (hs : Step maxBatchSize s s') (h : Wakeful s) :
    Wakeful s' := by
  intro hasleep hready
  cases hs with
  | enqueue command =>
      unfold State.enqueue at hasleep hready ⊢
      cases hf : s.fatal with
      | some failure =>
          simp only [hf] at hasleep hready ⊢
          exact h hasleep hready
      | none =>
          cases hst : s.stopping with
          | true =>
              simp only [hf, hst, if_true] at hasleep hready ⊢
              exact h hasleep hready
          | false =>
              simp only [Bool.false_eq_true, if_false]
              omega
  | stop =>
      show 0 < s.notifications + 1
      omega
  | notify =>
      -- a notified thread is awake
      exfalso
      revert hasleep
      cases s.pc <;> simp [Pc.wake]
  | sleep _ hnot =>
      have : s.ready = true := hready
      rw [hnot] at this
      cases this
  | take =>
      exfalso
      revert hasleep
      unfold State.take
      split
      · simp
      · simp only
        split <;> simp
  | begin =>
      exfalso
      revert hasleep
      simp only
      split <;> simp
  | operate =>
      exfalso
      revert hasleep
      simp only
      split <;> simp
  | _ => cases hasleep

-- ====================================================== the connection

private theorem applyAll_append (commands : List Command) (command : Command)
    (db : Db) {db₁ db₂ : Db} {reply : Reply}
    (h : applyAll commands db = some db₁)
    (hrun : (command.call.run : DbTxn Reply) db₁ = .ok (reply, db₂)) :
    applyAll (commands ++ [command]) db = some db₂ := by
  induction commands generalizing db with
  | nil =>
      cases h
      simp only [List.nil_append, applyAll, hrun]
  | cons head rest ih =>
      simp only [List.cons_append, applyAll] at h ⊢
      cases hf : (head.call.run : DbTxn Reply) db with
      | error e => simp [hf] at h
      | ok p =>
          simp only [hf] at h ⊢
          exact ih p.2 h

/-- The connection holds no transaction and no batch. -/
def Idle (repo : Repo) : Prop := repo.txn = none ∧ repo.memory = none

theorem Env.idle {repo repo' : Repo} (henv : Env repo repo')
    (h : Idle repo) : Idle repo' :=
  ⟨henv.txn.trans h.1, henv.memory.trans h.2⟩

/-- How far the connection has got with what the thread has in hand. -/
def Link (s : State) : Prop :=
  match s.pc with
  | .waiting _ => Idle s.repo
  | .executing _ => Idle s.repo
  | .completing _ => Idle s.repo
  | .beginning batch => Idle s.repo ∧ SameKind (batch.map Prod.snd)
  | .operating batch done rest => batch = done ++ rest
      ∧ ∃ planId epoch working, s.repo.memory = some (planId, epoch)
        ∧ s.repo.txn = some working
        ∧ working.currentEpoch? planId = some epoch
        ∧ (∀ item ∈ rest, item.2.key ≠ none ∧ item.2.planId = planId)
        ∧ applyAll (done.map Prod.snd) s.repo.committed = some working
  | .committing batch => ∃ active working, s.repo.memory = some active
      ∧ s.repo.txn = some working
      ∧ applyAll (batch.map Prod.snd) s.repo.committed = some working
  | .rollingBack _ _ _ => s.repo.memory ≠ none
  | _ => True

/-- `Execute` on an idle connection leaves it idle. -/
theorem execute_idle (command : Command) {repo : Repo} (h : Idle repo) :
    Idle (execute command repo).2 := by
  obtain ⟨ht, -, hm⟩ := (call_atomic command.call).closed h.1 h.2
  exact ⟨ht, hm.trans h.2⟩

/-- An OK of `Execute` is a committed transaction. -/
theorem execute_ok (command : Command) {repo : Repo} (h : Idle repo)
    {reply : Reply} (hok : (execute command repo).1 = .ok reply) :
    applyAll [command] repo.committed
      = some (execute command repo).2.committed := by
  have hout := (call_atomic command.call).outcome h.1 h.2
  unfold execute at hok ⊢
  rw [hok] at hout
  cases hout with
  | done hdone => simp only [applyAll, hdone]

/-- `CommitWriteBatch` with a batch active leaves the connection idle, and
its OK publishes the working copy. -/
theorem commitWriteBatch_link {repo : Repo} {active : Bytes × Nat}
    {working : Db} (hm : repo.memory = some active)
    (ht : repo.txn = some working) :
    Idle (Repository.commitWriteBatch repo).2
      ∧ ((Repository.commitWriteBatch repo).1 = .ok () →
        (Repository.commitWriteBatch repo).2.committed = working) := by
  unfold Repository.commitWriteBatch
  simp only [hm, Option.isNone_some, Bool.false_eq_true, if_false,
    Session.orRollback]
  obtain ⟨e, repo', hrun, -, -⟩ | ⟨repo', hrun, ht', hc', -, -⟩ :=
    Session.commit_cases executeError inactiveMessage ht
  · simp only [hrun]
    refine ⟨⟨rfl, rfl⟩, fun h => ?_⟩
    cases h
  · simp only [hrun]
    exact ⟨⟨ht', rfl⟩, fun _ => hc'⟩

private theorem rollbackWriteBatch_idle {repo : Repo} (h : repo.memory ≠ none) :
    Idle (Repository.rollbackWriteBatch repo).2 := by
  obtain ⟨active, hm⟩ := Option.ne_none_iff_exists'.1 h
  unfold Repository.rollbackWriteBatch
  simp only [hm, Option.isNone_some, Bool.false_eq_true, if_false]
  exact ⟨rfl, rfl⟩

/-- A batch the thread takes is a group. -/
theorem State.take_link (h : Idle s.repo) (hmax : 1 ≤ maxBatchSize) :
    Link (s.take maxBatchSize) := by
  unfold State.take
  split
  · exact trivial
  · next first rest hcons =>
    have hgroup := takeBatch_isGroup hmax first.2 (rest.map Prod.snd)
    have happ := takeBatch_append maxBatchSize first.2 (rest.map Prod.snd)
    have hbatch : ((s.commands.take (takeBatch maxBatchSize first.2
        (rest.map Prod.snd)).1.length).map Prod.snd)
          = (takeBatch maxBatchSize first.2 (rest.map Prod.snd)).1 := by
      rw [List.map_take, hcons, List.map_cons, ← happ, List.take_left]
    by_cases hlong : (s.commands.take (takeBatch maxBatchSize first.2
        (rest.map Prod.snd)).1.length).length > 1
    · simp only [if_pos hlong]
      refine ⟨h, ?_⟩
      have hlen := congrArg List.length hbatch
      rw [List.length_map] at hlen
      rw [hbatch]
      exact hgroup.sameKind (by omega)
    · simp only [if_neg hlong]
      exact h

/-- Every step keeps the connection in line. -/
theorem Step.link (hs : Step maxBatchSize s s') (hmax : 1 ≤ maxBatchSize)
    (h : Link s) : Link s' := by
  cases hs with
  -- the producers leave the connection alone
  | enqueue command =>
      unfold State.enqueue
      cases s.fatal with
      | some failure => exact h
      | none =>
          cases s.stopping with
          | true => exact h
          | false => exact h
  | stop => exact h
  | notify =>
      unfold Link at h ⊢
      cases hpc : s.pc <;> rw [hpc] at h <;> exact h
  | spurious hpc =>
      unfold Link at h
      rw [hpc] at h
      exact h
  | sleep hpc =>
      unfold Link at h
      rw [hpc] at h
      exact h
  -- the writer takes a batch with the connection at rest
  | take hpc =>
      unfold Link at h
      rw [hpc] at h
      exact State.take_link h hmax
  | execute hpc henv =>
      unfold Link at h
      rw [hpc] at h
      exact execute_idle _ (henv.idle h)
  -- the batch is begun, or nothing is
  | @begin batch first rest repo hpc hbatch henv =>
      unfold Link at h
      rw [hpc] at h
      obtain ⟨hidle, hkind⟩ := h
      have hidle' := henv.idle hidle
      obtain ⟨e, repo', hrun, ht, hsame⟩ | ⟨repo', hrun, ht, hc, hm, -, hcur⟩ :=
        beginWriteBatch_cases first.2.planId first.2.epoch hidle'.1 hidle'.2
      · simp only [hrun]
        exact ⟨ht, hsame.memory.trans hidle'.2⟩
      · simp only [hrun]
        obtain ⟨planId, epoch, hkeys⟩ := hkind.keys
        have hfirst := hkeys first.2 (by simp [hbatch])
        refine ⟨rfl, first.2.planId, first.2.epoch, repo.committed, hm, ht,
          hcur, fun item hitem => ?_, by rw [hc]; rfl⟩
        have hitem := hkeys item.2 (List.mem_map_of_mem hitem)
        exact ⟨hitem.1, hitem.2.1.trans hfirst.2.1.symm⟩
  -- each operation of the batch joins its transaction, and adds its effect
  | @operate batch done rest item repo hpc henv =>
      unfold Link at h
      rw [hpc] at h
      obtain ⟨hsplit, planId, epoch, working, hm, ht, hcur, hkeys, happ⟩ := h
      obtain ⟨hkey, hplan⟩ := hkeys item (List.mem_cons_self ..)
      obtain ⟨k, hk⟩ := Option.ne_none_iff_exists'.1 hkey
      have ht' : repo.txn = some working := henv.txn.trans ht
      have hm' : repo.memory = some (planId, epoch) := henv.memory.trans hm
      have hc' : repo.committed = s.repo.committed :=
        henv.committed (by rw [ht]; exact Option.some_ne_none _)
      have hjoin := call_joins item.2.call
      have hin : InBatch repo.memory working := ⟨_, _, hm', hcur⟩
      rw [executeBatchedOperation_call hk]
      cases hrun : (item.2.call.run : RepoM Reply) repo with
      | mk r repo' =>
          cases r with
          -- a refused one leaves the batch to be rolled back
          | error e =>
              have hsame := hjoin.error ht' hin hrun
              show repo'.memory ≠ none
              rw [hsame.memory, hm']
              exact Option.some_ne_none _
          | ok reply =>
              obtain ⟨working', hdone, htxn, hsame⟩ :=
                hjoin.ok ht' hin hrun
              have hepochs := (call_edit item.2.call
                item.2.call_ne_acquire hdone).epochs
              refine ⟨by simpa using hsplit, planId, epoch, working',
                hsame.memory.trans hm', htxn, by rw [hepochs]; exact hcur,
                fun i hi => hkeys i (List.mem_cons_of_mem _ hi), ?_⟩
              rw [hsame.committed, hc', List.map_append]
              exact applyAll_append _ _ _ happ hdone
  -- the effects of all of them are in the transaction
  | operated hpc =>
      unfold Link at h
      rw [hpc] at h
      obtain ⟨hsplit, planId, epoch, working, hm, ht, -, -, happ⟩ := h
      refine ⟨(planId, epoch), working, hm, ht, ?_⟩
      rw [hsplit, List.append_nil]
      exact happ
  | rollBack hpc henv =>
      unfold Link at h
      rw [hpc] at h
      exact rollbackWriteBatch_idle (by rw [henv.memory]; exact h)
  -- and are committed as one
  | commit hpc henv =>
      unfold Link at h
      rw [hpc] at h
      obtain ⟨active, working, hm, ht, -⟩ := h
      exact (commitWriteBatch_link (henv.memory.trans hm)
        (henv.txn.trans ht)).1
  | complete hpc =>
      unfold Link at h
      rw [hpc] at h
      exact h
  | completed hpc =>
      unfold Link at h
      rw [hpc] at h
      exact h
  -- nothing is said of a writer that throws
  | throws => exact trivial
  | unwind => exact trivial
  | terminate => exact trivial
  | fail => exact trivial
  | poison => exact trivial
  | drain => exact trivial
  | drained => exact trivial

-- ======================================================== publications

/-- The promises about to be set. -/
def Pc.toAnswer : Pc → List (Item × Answer)
  | .completing todo => todo
  | _ => []

/-- Publications are what they say, and every OK has one. -/
structure Backed (s : State) : Prop where
  exact_ : ∀ p ∈ s.published,
    applyAll (p.items.map Prod.snd) p.before = some p.after
  answered : ∀ item reply,
    (item, .ok reply) ∈ s.answers ++ s.pc.toAnswer →
    ∃ p ∈ s.published, item ∈ p.items

/-- A step that publishes nothing and promises nothing new. -/
theorem Backed.of_sublist (h : Backed s)
    (hp : s'.published = s.published)
    (ha : (s'.answers ++ s'.pc.toAnswer).Sublist
      (s.answers ++ s.pc.toAnswer)) : Backed s' := by
  refine ⟨by rw [hp]; exact h.exact_, fun item reply hmem => ?_⟩
  rw [hp]
  exact h.answered item reply (ha.subset hmem)

/-- A step that only promises errors. -/
theorem Backed.of_errors (h : Backed s) (hp : s'.published = s.published)
    (ha : ∀ item reply, (item, .ok reply) ∈ s'.answers ++ s'.pc.toAnswer →
      (item, .ok reply) ∈ s.answers) : Backed s' := by
  refine ⟨by rw [hp]; exact h.exact_, fun item reply hmem => ?_⟩
  rw [hp]
  exact h.answered item reply (List.mem_append_left _ (ha item reply hmem))

/-- A step that publishes a transaction and then promises OK to its
items. -/
theorem Backed.publish (h : Backed s) {p : Publication}
    (hexact : applyAll (p.items.map Prod.snd) p.before = some p.after)
    (hp : s'.published = s.published ++ [p])
    (ha : ∀ item reply, (item, .ok reply) ∈ s'.answers ++ s'.pc.toAnswer →
      (item, .ok reply) ∈ s.answers ∨ item ∈ p.items) : Backed s' := by
  refine ⟨fun q hq => ?_, fun item reply hmem => ?_⟩
  · rw [hp, List.mem_append, List.mem_singleton] at hq
    obtain hq | rfl := hq
    · exact h.exact_ q hq
    · exact hexact
  · rw [hp]
    obtain hold | hnew := ha item reply hmem
    · obtain ⟨q, hq, hitem⟩ :=
        h.answered item reply (List.mem_append_left _ hold)
      exact ⟨q, List.mem_append_left _ hq, hitem⟩
    · exact ⟨p, by simp, hnew⟩

theorem completeWith_ok {batch : List Item} {result : Except Status Unit}
    {item : Item} {reply : Reply}
    (h : (item, .ok reply) ∈ completeWith batch result) :
    item ∈ batch ∧ result = .ok () := by
  obtain ⟨i, hi, heq⟩ := List.mem_map.1 h
  obtain ⟨rfl, hr⟩ := Prod.mk.inj heq
  cases result with
  | error e => cases hr
  | ok u => exact ⟨hi, rfl⟩

private theorem completeFailed_ok {batch : List Item} {failed : Nat}
    {error : Status} {item : Item} {reply : Reply}
    (h : (item, .ok reply) ∈ completeFailed batch failed error) : False := by
  obtain ⟨i, hi, heq⟩ := List.mem_mapIdx.1 h
  cases (Prod.mk.inj heq).2

/-- Every step keeps OK answers backed by their transactions. -/
theorem Step.backed (hs : Step maxBatchSize s s') (hlink : Link s)
    (h : Backed s) : Backed s' := by
  cases hs with
  | enqueue command =>
      refine h.of_sublist ?_ ?_ <;> unfold State.enqueue <;>
        cases s.fatal <;> cases s.stopping <;> simp
  | stop => exact h.of_sublist rfl (.refl _)
  | notify =>
      refine h.of_sublist rfl ?_
      cases hpc : s.pc <;> simp [Pc.wake, Pc.toAnswer]
  | spurious => exact h.of_sublist rfl (by simp [Pc.toAnswer])
  | sleep => exact h.of_sublist rfl (by simp [Pc.toAnswer])
  | take =>
      refine h.of_sublist ?_ ?_
      · unfold State.take
        split <;> rfl
      · unfold State.take
        split
        · simp [Pc.toAnswer]
        · simp only
          split <;> simp [Pc.toAnswer]
  -- an operation of its own publishes itself
  | @execute item repo hpc henv =>
      unfold Link at hlink
      rw [hpc] at hlink
      have hidle := henv.idle hlink
      cases hr : (PhotoBridge.execute item.2 repo).1 with
      | error e =>
          refine h.of_errors (by simp only) fun i reply hmem => ?_
          simpa [Pc.toAnswer] using hmem
      | ok reply =>
          refine h.publish (p := ⟨[item], repo.committed, _⟩)
            (execute_ok item.2 hidle hr) (by simp only)
            fun i reply hmem => ?_
          simp only [Pc.toAnswer, List.mem_append, List.mem_singleton,
            Prod.mk.injEq] at hmem
          obtain hold | ⟨rfl, -⟩ := hmem
          · exact .inl hold
          · exact .inr (List.mem_singleton_self _)
  -- a batch that cannot be begun is answered with errors only
  | @begin batch first rest repo hpc hbatch henv =>
      refine h.of_errors rfl fun i reply hmem => ?_
      simp only at hmem
      split at hmem
      · simpa [Pc.toAnswer] using hmem
      · obtain hold | hnew := List.mem_append.1 hmem
        · exact hold
        · cases (completeWith_ok hnew).2
  | operate hpc =>
      refine h.of_errors rfl fun i reply hmem => ?_
      simp only at hmem
      split at hmem <;> simpa [Pc.toAnswer] using hmem
  | operated => exact h.of_sublist rfl (by simp [Pc.toAnswer])
  | rollBack hpc henv =>
      refine h.of_errors rfl fun i reply hmem => ?_
      obtain hold | hnew := List.mem_append.1 hmem
      · exact hold
      · exact (completeFailed_ok hnew).elim
  -- a committed batch publishes all it was answered for
  | @commit batch repo hpc henv =>
      unfold Link at hlink
      rw [hpc] at hlink
      obtain ⟨active, working, hm, ht, happ⟩ := hlink
      have hcom : repo.committed = s.repo.committed :=
        henv.committed (by rw [ht]; exact Option.some_ne_none _)
      have hpub := (commitWriteBatch_link (henv.memory.trans hm)
        (henv.txn.trans ht)).2
      cases hr : (Repository.commitWriteBatch repo).1 with
      | error e =>
          refine h.of_errors (by simp only [hr]) fun i reply hmem => ?_
          simp only [hr] at hmem
          obtain hold | hnew := List.mem_append.1 hmem
          · exact hold
          · cases (completeWith_ok hnew).2
      | ok u =>
          refine h.publish (p := ⟨batch, repo.committed,
            (Repository.commitWriteBatch repo).2.committed⟩) ?_
            (by simp only [hr]) fun i reply hmem => ?_
          · simp only [hpub hr, hcom]
            exact happ
          · simp only [hr] at hmem
            obtain hold | hnew := List.mem_append.1 hmem
            · exact .inl hold
            · exact .inr (completeWith_ok hnew).1
  | complete hpc => exact h.of_sublist rfl (by simp [hpc, Pc.toAnswer])
  | completed hpc => exact h.of_sublist rfl (by simp [Pc.toAnswer])
  | throws => exact h.of_sublist rfl (by simp [Pc.toAnswer])
  | unwind => exact h.of_sublist rfl (by simp [Pc.toAnswer])
  | terminate => exact h.of_sublist rfl (by simp [Pc.toAnswer])
  | fail hpc =>
      refine h.of_errors rfl fun i reply hmem => ?_
      simpa [Pc.toAnswer] using hmem
  | poison => exact h.of_sublist rfl (by simp [Pc.toAnswer])
  | drain hpc =>
      refine h.of_errors rfl fun i reply hmem => ?_
      simpa [Pc.toAnswer] using hmem
  | drained => exact h.of_sublist rfl (by simp [Pc.toAnswer])

-- ========================================================== whole runs

/-- All the invariants together. -/
structure Inv (s : State) : Prop where
  delivery : Delivery s
  order : Order s
  flags : Flags s
  wakeful : Wakeful s
  link : Link s
  backed : Backed s

theorem Inv.initial {repo : Repo} (ht : repo.txn = none)
    (hm : repo.memory = none) : Inv (State.initial repo) where
  delivery := fun _ => rfl
  order := .refl _
  flags := ⟨by simp [State.initial], by simp [State.initial],
    by simp [State.initial, Pc.leaving], by simp [State.initial]⟩
  wakeful := by
    intro h
    cases h
  link := ⟨ht, hm⟩
  backed := ⟨by simp [State.initial], by simp [State.initial, Pc.toAnswer]⟩

theorem Reachable.inv (hmax : 1 ≤ maxBatchSize)
    (h : Reachable maxBatchSize s) : Inv s := by
  induction h with
  | init repo ht hm => exact .initial ht hm
  | step _ hs ih =>
      exact ⟨hs.delivery ih.delivery, hs.order ih.order, hs.flags ih.flags,
        hs.wakeful ih.wakeful, hs.link hmax ih.link,
        hs.backed ih.link ih.backed⟩

/-- Delivery by the writer thread, in every interleaving of producers,
`Stop` and the thread, whatever repository calls return or throw:

- when the thread has exited nothing is queued and the promises set are
  those of the accepted commands, each once and in order; before that
  none is set twice;
- commands are executed in the order of acceptance, none twice;
- an OK answer has a committed transaction with the command's effect;
- after `Stop` or a fatal failure `Enqueue` refuses;
- the thread never sleeps on a condition that holds without a
  notification on its way. -/
theorem writer_delivery (hmax : 1 ≤ maxBatchSize)
    (h : Reachable maxBatchSize s) :
    (s.pc = .exited →
        s.commands = [] ∧ s.answers.map Prod.fst = s.accepted)
      ∧ (s.pc ≠ .terminated → (s.answers.map Prod.fst).Nodup)
      ∧ s.executed.Sublist s.accepted ∧ s.accepted.Nodup
      ∧ (∀ item reply, (item, .ok reply) ∈ s.answers →
        ∃ p ∈ s.published, item ∈ p.items
          ∧ applyAll (p.items.map Prod.snd) p.before = some p.after)
      ∧ (s.stopCalled = true ∨ s.fatal ≠ none → ∀ command,
        (∃ e, (s.enqueue command).1 = .error e)
          ∧ (s.enqueue command).2 = s)
      ∧ (s.pc = .waiting true → s.ready = true → 0 < s.notifications) := by
  have hinv := h.inv hmax
  have hnodup : s.accepted.Nodup :=
    List.Nodup.of_map Prod.fst (by
      rw [hinv.flags.numbered]
      exact List.nodup_range)
  refine ⟨fun hexit => ?_, fun hterm => ?_, ?_, hnodup,
    fun item reply hmem => ?_, fun hstop command => ?_, hinv.wakeful⟩
  · have hq := (hinv.flags.leaving (by rw [hexit]; rfl)).2
    have hall := hinv.delivery (by simp [hexit])
    rw [hexit, hq] at hall
    simp only [Pc.inHand, List.append_nil] at hall
    exact ⟨hq, hall⟩
  · have hall := hinv.delivery hterm
    rw [← hall, List.append_assoc] at hnodup
    exact (List.nodup_append.1 hnodup).1
  · have hord := hinv.order
    unfold Order at hord
    rw [List.append_assoc] at hord
    exact (List.sublist_append_left _ _).trans hord
  · obtain ⟨p, hp, hitem⟩ :=
      hinv.backed.answered item reply (List.mem_append_left _ hmem)
    exact ⟨p, hp, hitem, hinv.backed.exact_ p hp⟩
  · have hset : s.stopping = true := by
      obtain hcalled | hfatal := hstop
      · exact hinv.flags.stop hcalled
      · exact hinv.flags.fatal hfatal
    unfold State.enqueue
    cases s.fatal with
    | some failure => exact ⟨⟨failure, rfl⟩, rfl⟩
    | none =>
        simp only [hset, if_true]
        exact ⟨⟨_, rfl⟩, trivial⟩

/-- A claim of a plan that is not there, up to the exit of the thread
after `Stop`. -/
theorem writer_delivery_claim :
    ∃ s : State, Reachable 8 s ∧ s.pc = .exited
      ∧ s.accepted.length = 1
      ∧ s.answers.map Prod.fst = s.accepted := by
  let repo : Repo := ⟨Db.empty, none, false, [], none⟩
  let command : Command := .claim (text "p") 1
  have h₀ : Reachable 8 (State.initial repo) := .init repo rfl rfl
  have h₁ := h₀.step (.enqueue _ command)
  have h₂ := h₁.step (.take _ rfl rfl)
  have h₃ := h₂.step
    (.execute _ rfl (⟨rfl, rfl, fun _ => rfl⟩ : Env repo repo))
  have h₄ := h₃.step (.complete _ rfl)
  have h₅ := h₄.step (.completed _ rfl)
  have h₆ := h₅.step (.stop _)
  have h₇ := h₆.step (.take _ rfl rfl)
  exact ⟨_, h₇, rfl, rfl, ((writer_delivery (by decide) h₇).1 rfl).2⟩

end PhotoBridge.Writer
