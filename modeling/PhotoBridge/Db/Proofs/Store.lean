/-
One step of the shared store, inverted: in a store whose batches are in
order (`Store.Ok`), an action issued under `stopsAtError` ends in one of
the ways `Stepped` lists. Both the ownership invariant and epoch fencing
are read off that list, first for a step and then for whole runs.
-/
import PhotoBridge.Db.Proofs.Changes

namespace PhotoBridge

open Transaction Session

variable {σ : Store} {i : Nat} {db : Db}

-- ================================================= batches in order

/-- The batches agree with the open transaction. -/
structure Store.Ok (σ : Store) : Prop where
  /-- A batch no call has failed in still has its transaction, under its
  own epoch. -/
  batch : ∀ i p e, σ.batches i = some (p, e) → σ.stopped i = false →
    ∃ s, σ.writer = some (i, s) ∧ s.currentEpoch? p = some e
  /-- Only a batch keeps a transaction open. -/
  writer : ∀ i s, σ.writer = some (i, s) → σ.batches i ≠ none
  /-- A batch does not move epochs. -/
  epochs : ∀ i s, σ.writer = some (i, s) → σ.stopped i = false →
    s.currentEpoch? = σ.committed.currentEpoch?
  idle : ∀ i, σ.batches i = none → σ.stopped i = false

/-- A store just opened is in order. -/
theorem Store.Ok.opened (db : Db) : (Store.opened db).Ok :=
  ⟨by simp [Store.opened], by simp [Store.opened], by simp [Store.opened],
    by simp [Store.opened]⟩

/-- Who has no batch sees others write. -/
theorem Store.Ok.othersWriter (h : σ.Ok) (hb : σ.batches i = none) :
    σ.othersWriter i = σ.writer := by
  unfold Store.othersWriter
  cases hw : σ.writer with
  | none => rfl
  | some w =>
      obtain ⟨j, s⟩ := w
      have hne : j ≠ i := by
        rintro rfl
        exact h.writer j s hw hb
      simp [hne]

/-- Who has no batch has no transaction. -/
theorem Store.Ok.repo_txn (h : σ.Ok) (hb : σ.batches i = none)
    (faults : List (Option Bytes)) : (σ.repo i faults).txn = none := by
  unfold Store.repo
  cases hw : σ.writer with
  | none => rfl
  | some w =>
      obtain ⟨j, s⟩ := w
      have hne : j ≠ i := by
        rintro rfl
        exact h.writer j s hw hb
      simp [hne]

/-- Who writes has its own transaction. -/
theorem Store.repo_txn_self {s : Db} (hw : σ.writer = some (i, s))
    (faults : List (Option Bytes)) : (σ.repo i faults).txn = some s := by
  simp [Store.repo, hw]

/-- Where nobody waits nobody writes. -/
theorem Store.repo_busy (faults : List (Option Bytes))
    (h : (σ.repo i faults).busy = false)
    (ht : (σ.repo i faults).txn = none) : σ.writer = none := by
  unfold Store.repo at h ht
  cases hw : σ.writer with
  | none => rfl
  | some w =>
      obtain ⟨j, s⟩ := w
      by_cases hj : j = i
      · simp [hw, hj] at ht
      · simp [hw, hj] at h

-- ======================================================= one step

/-- How an action can end. -/
inductive Stepped (σ : Store) (i : Nat) :
    Action → Except Status Reply → Store → Prop
  /-- Outside a batch an error leaves everything as it was. -/
  | refused {action : Action} (e : Status) (hb : σ.batches i = none) :
      Stepped σ i action (.error e) σ
  | own {c : Call} {r : Reply} {db' : Db} (hb : σ.batches i = none)
      (h : (c.run : DbTxn Reply) σ.committed = .ok (r, db'))
      (hw : σ.writer = none ∨ db' = σ.committed) :
      Stepped σ i (.call c) (.ok r) { σ with committed := db' }
  | joined {c : Call} {r : Reply} {s s' : Db} (hb : σ.batches i ≠ none)
      (hs : σ.stopped i = false) (hw : σ.writer = some (i, s))
      (hc : ∀ planId, c ≠ .acquireNextExecutionEpoch planId)
      (h : (c.run : DbTxn Reply) s = .ok (r, s')) :
      Stepped σ i (.call c) (.ok r) { σ with writer := some (i, s') }
  /-- Inside a batch an error leaves the batch to be rolled back. -/
  | failed {action : Action} (e : Status) (hb : σ.batches i ≠ none)
      {s : Db} (hold : σ.writer = some (i, s))
      {w : Option (Nat × Db)} (hw : ∀ j s, w = some (j, s) → j = i) :
      Stepped σ i action (.error e)
        { σ with
          writer := w, stopped := Function.update σ.stopped i true }
  | began {p : Bytes} {e : Nat} (hb : σ.batches i = none)
      (hw : σ.writer = none)
      (hc : σ.committed.currentEpoch? p = some e) :
      Stepped σ i (.beginWriteBatch p e) (.ok .done)
        { σ with
          writer := some (i, σ.committed)
          batches := Function.update σ.batches i (some (p, e)) }
  | published {s : Db} (hb : σ.batches i ≠ none)
      (hs : σ.stopped i = false) (hw : σ.writer = some (i, s)) :
      Stepped σ i .commitWriteBatch (.ok .done)
        { committed := s, writer := none
          batches := Function.update σ.batches i none
          stopped := Function.update σ.stopped i false }
  /-- The batch's transaction, if there is one, is lost. -/
  | dropped {action : Action} {r : Except Status Reply}
      (ha : action = .commitWriteBatch ∧ (∃ e, r = .error e)
        ∨ action = .rollbackWriteBatch) :
      Stepped σ i action r (σ.close i)

/-- A connection left as it was leaves the store as it was. -/
theorem Store.put_idle (h : σ.Ok) (hb : σ.batches i = none) {repo : Repo}
    (ht : repo.txn = none) (hm : repo.memory = none) (failed : Bool) :
    σ.put i repo failed = { σ with committed := repo.committed } := by
  unfold Store.put
  have hstop : Function.update σ.stopped i false = σ.stopped := by
    rw [← h.idle i hb]
    exact Function.update_eq_self i σ.stopped
  have hbatch : Function.update σ.batches i none = σ.batches := by
    rw [← hb]
    exact Function.update_eq_self i σ.batches
  simp only [ht, hm, Option.isSome_none, Bool.false_and, hstop, hbatch,
    h.othersWriter hb]

/-- An error inside a batch, with the connection's memory kept. -/
theorem Store.put_failed (repo : Repo) {s : Db}
    (hw : σ.writer = some (i, s)) (hb : σ.batches i ≠ none)
    (hm : repo.memory = σ.batches i) (hc : repo.committed = σ.committed) :
    ∃ w : Option (Nat × Db), (∀ j s, w = some (j, s) → j = i)
      ∧ σ.put i repo true = { σ with
          writer := w, stopped := Function.update σ.stopped i true } := by
  have hsome : (σ.batches i).isSome = true := Option.isSome_iff_ne_none.2 hb
  refine ⟨repo.txn.map fun s => (i, s), ?_, ?_⟩
  · intro j s' hj
    obtain ⟨s'', -, hpair⟩ := Option.map_eq_some_iff.1 hj
    exact (Prod.mk.inj hpair).1.symm
  · unfold Store.put
    simp only [hc, hm, hsome, Bool.or_true, Bool.true_and,
      Function.update_eq_self]
    cases repo.txn with
    | none => simp [Store.othersWriter, hw]
    | some s'' => rfl

/-- A step is what the action does to its repository. -/
theorem Store.step_eq (action : Action) {faults : List (Option Bytes)}
    {r : Except Status Reply} {repo : Repo}
    (h : action.run (σ.repo i faults) = (r, repo)) :
    σ.step i action faults = (r, σ.put i repo (!r.isOk)) := by
  unfold Store.step
  rw [h]

/-- A call outside a batch. -/
theorem step_call_idle (h : σ.Ok) (c : Call) (faults : List (Option Bytes))
    (hb : σ.batches i = none) :
    Stepped σ i (.call c) (σ.step i (.call c) faults).1
      (σ.step i (.call c) faults).2 := by
  have hrule := call_atomic c
  have ht := h.repo_txn hb faults
  have hm : (σ.repo i faults).memory = none := hb
  obtain ⟨htxn, -, hmem⟩ := hrule.closed ht hm
  have hout := hrule.outcome ht hm
  have hlock := hrule.locked ht hm
  cases hrun : (c.run : RepoM Reply) (σ.repo i faults) with
  | mk r repo =>
      rw [hrun] at htxn hmem hout hlock
      rw [Store.step_eq (.call c) hrun]
      simp only
      rw [Store.put_idle h hb htxn (hmem.trans hb)]
      simp only at hout hlock
      generalize repo.committed = db' at hout hlock
      cases hout with
      | refused e => exact .refused e hb
      | done hdone =>
          refine .own hb hdone ?_
          cases hbusy : (σ.repo i faults).busy with
          | true => exact .inr (hlock hbusy)
          | false => exact .inl (Store.repo_busy faults hbusy ht)

/-- A call inside a batch in order. -/
theorem step_call_batch (h : σ.Ok) (c : Call) (faults : List (Option Bytes))
    (hb : σ.batches i ≠ none) (hs : σ.stopped i = false) :
    Stepped σ i (.call c) (σ.step i (.call c) faults).1
      (σ.step i (.call c) faults).2 := by
  obtain ⟨⟨p, e⟩, hbatch⟩ := Option.ne_none_iff_exists'.1 hb
  obtain ⟨s, hw, hepoch⟩ := h.batch i p e hbatch hs
  have hjoin := call_joins c
  have ht := Store.repo_txn_self hw faults
  have hin : InBatch (σ.repo i faults).memory s := ⟨p, e, hbatch, hepoch⟩
  cases hrun : (c.run : RepoM Reply) (σ.repo i faults) with
  | mk r repo =>
      rw [Store.step_eq (.call c) hrun]
      cases r with
      | ok reply =>
          obtain ⟨s', hdone, htxn, hsame⟩ := hjoin.ok ht hin hrun
          have hc : ∀ planId, c ≠ .acquireNextExecutionEpoch planId := by
            rintro planId rfl
            obtain ⟨_, hthrow, -⟩ := (acquire_refused (P := InBatch)
              planId).ok ht hin hrun
            cases hthrow
          have hput : σ.put i repo false
              = { σ with writer := some (i, s') } := by
            unfold Store.put
            have hm : repo.memory = σ.batches i := hsame.memory
            have hc : repo.committed = σ.committed := hsame.committed
            simp only [htxn, hm, hc, hs, Function.update_eq_self,
              Bool.or_self, Bool.and_false]
            congr 1
            rw [← hs]
            exact Function.update_eq_self i σ.stopped
          show Stepped σ i _ (.ok reply) (σ.put i repo false)
          rw [hput]
          exact .joined hb hs hw hc hdone
      | error err =>
          have hsame := hjoin.error ht hin hrun
          obtain ⟨w, hwi, hput⟩ := Store.put_failed _ hw hb hsame.memory
            hsame.committed
          show Stepped σ i _ (.error err) (σ.put i repo true)
          rw [hput]
          exact .failed err hb hw hwi

-- ================================================= the batch functions

/-- The check of a batch's epoch. -/
theorem realises_batchEpochCheck (p : Bytes) (e : Nat) :
    Realises (Repository.batchEpochCheck p e)
      (readCurrentEpochForPlan p >>= fun current =>
        require (current = e)
          (.invalid "stale executor epoch cannot start a runtime write batch")) :=
  .bind (realises_readCurrentEpochForPlan p) fun _ => realises_require _ _

/-- `BeginWriteBatch` once no batch is active. -/
theorem beginWriteBatch_eq (p : Bytes) (e : Nat) {repo : Repo}
    (hm : repo.memory = none) :
    Repository.beginWriteBatch p e repo
      = (liftCheck (checkIds p (text "batch")) >>= fun _ =>
          liftCheck (checkEpochAttempt e (text "batch")) >>= fun _ => do
            Session.beginImmediate executeError nestedMessage lockedMessage
            Session.orRollback (Repository.batchEpochCheck p e)
            Session.remember (some (p, e)) : RepoM Unit) repo := by
  unfold Repository.beginWriteBatch
  simp only [bind_apply, remembered, hm]
  rfl

/-- `BeginWriteBatch` on an idle connection: refused with nothing
changed, or a transaction under the current epoch. -/
theorem beginWriteBatch_cases (p : Bytes) (e : Nat) {repo : Repo}
    (ht : repo.txn = none) (hm : repo.memory = none) :
    (∃ err repo', Repository.beginWriteBatch p e repo = (.error err, repo')
        ∧ repo'.txn = none ∧ SameOutside repo repo')
      ∨ ∃ repo', Repository.beginWriteBatch p e repo = (.ok (), repo')
        ∧ repo'.txn = some repo.committed
        ∧ repo'.committed = repo.committed ∧ repo'.memory = some (p, e)
        ∧ repo.busy = false
        ∧ repo.committed.currentEpoch? p = some e := by
  rw [beginWriteBatch_eq p e hm]
  cases checkIds p (text "batch") with
  | error err => exact .inl ⟨err, repo, rfl, ht, .refl repo⟩
  | ok _ =>
  cases checkEpochAttempt e (text "batch") with
  | error err => exact .inl ⟨err, repo, rfl, ht, .refl repo⟩
  | ok _ =>
  simp only [liftCheck, bind_apply, pure_apply]
  obtain ⟨err, repo₁, hbegin, ht₁, hsame₁⟩ | ⟨repo₁, hbegin, ht₁, hsame₁,
    hfree⟩ := beginImmediate_cases executeError nestedMessage lockedMessage ht
  · rw [hbegin]
    exact .inl ⟨err, repo₁, rfl, ht₁, hsame₁⟩
  · rw [hbegin]
    simp only
    obtain ⟨hsame₂, ⟨_, s, hok, hcheck, ht₂⟩ | ⟨err, herr, ht₂⟩⟩ :=
      orRollback_spec (realises_batchEpochCheck p e) ht₁
    · -- the check read the epoch and left the copy as it was
      obtain ⟨current, _, hread, hreq⟩ := Txn.bind_eq_ok.1 hcheck
      obtain ⟨hepoch, rfl⟩ := readCurrentEpochForPlan_ok.1 hread
      obtain ⟨rfl, rfl⟩ := require_ok.1 hreq
      right
      cases hor : Session.orRollback (Repository.batchEpochCheck p current)
          repo₁ with
      | mk r repo₂ =>
          rw [hor] at hok ht₂ hsame₂
          cases hok
          exact ⟨_, rfl, ht₂, hsame₂.committed.trans hsame₁.committed, rfl,
            hfree, hepoch⟩
    · left
      cases hor : Session.orRollback (Repository.batchEpochCheck p e)
          repo₁ with
      | mk r repo₂ =>
          rw [hor] at herr ht₂ hsame₂
          cases herr
          exact ⟨err, repo₂, rfl, ht₂, hsame₁.trans hsame₂⟩

/-- The reply to an operation is its answer. -/
theorem answer_run {α : Type} {wrap : α → Reply} {operation : RepoM α}
    {repo repo' : Repo} {r : Except Status α}
    (h : operation repo = (r, repo')) :
    answer wrap operation repo = (r.map wrap, repo') := by
  unfold answer
  rw [bind_apply, h]
  cases r <;> rfl

private theorem step_begin (h : σ.Ok) (p : Bytes) (e : Nat)
    (faults : List (Option Bytes)) (hs : σ.stopped i = false) :
    Stepped σ i (.beginWriteBatch p e)
      (σ.step i (.beginWriteBatch p e) faults).1
      (σ.step i (.beginWriteBatch p e) faults).2 := by
  cases hb : σ.batches i with
  | some b =>
      have hne : σ.batches i ≠ none := by
        rw [hb]
        exact Option.some_ne_none b
      obtain ⟨s, hw, -⟩ := h.batch i b.1 b.2 hb hs
      have hrun : Repository.beginWriteBatch p e (σ.repo i faults)
          = (.error (.internal "runtime write batch is already active"),
              σ.repo i faults) := by
        unfold Repository.beginWriteBatch
        have hm : (σ.repo i faults).memory = some b := hb
        simp only [bind_apply, remembered, hm]
        rfl
      rw [Store.step_eq (.beginWriteBatch p e) (answer_run hrun)]
      obtain ⟨w, hwi, hput⟩ := Store.put_failed
        (σ.repo i faults) hw hne rfl rfl
      show Stepped σ i _ (.error _) (σ.put i _ true)
      rw [hput]
      exact .failed _ hne hw hwi
  | none =>
      have ht := h.repo_txn hb faults
      obtain ⟨err, repo', hrun, ht', hsame⟩
        | ⟨repo', hrun, ht', hc', hm', hfree, hepoch⟩ :=
        beginWriteBatch_cases p e ht hb
      · rw [Store.step_eq (.beginWriteBatch p e)
          (answer_run hrun)]
        simp only
        rw [Store.put_idle h hb ht' (hsame.memory.trans hb),
          hsame.committed]
        exact .refused err hb
      · rw [Store.step_eq (.beginWriteBatch p e)
          (answer_run hrun)]
        have hput : σ.put i repo' false = { σ with
            writer := some (i, σ.committed)
            batches := Function.update σ.batches i (some (p, e)) } := by
          have hstop : Function.update σ.stopped i false = σ.stopped := by
            rw [← hs]
            exact Function.update_eq_self i σ.stopped
          unfold Store.put
          simp only [ht', hc', hm', hs, Bool.or_self, Bool.and_false, hstop]
          rfl
        show Stepped σ i _ (.ok .done) (σ.put i repo' false)
        rw [hput]
        exact .began hb (Store.repo_busy faults hfree ht) hepoch

/-- A connection with no transaction and no batch left. -/
theorem Store.put_closed (repo : Repo) (ht : repo.txn = none)
    (hm : repo.memory = none) (hc : repo.committed = σ.committed)
    (failed : Bool) : σ.put i repo failed = σ.close i := by
  unfold Store.put Store.close
  simp only [ht, hm, hc, Option.isSome_none, Bool.false_and]

private theorem step_commit (h : σ.Ok) (faults : List (Option Bytes))
    (hs : σ.stopped i = false) :
    Stepped σ i .commitWriteBatch (σ.step i .commitWriteBatch faults).1
      (σ.step i .commitWriteBatch faults).2 := by
  cases hb : σ.batches i with
  | none =>
      have hrun : Repository.commitWriteBatch (σ.repo i faults)
          = (.error (.internal "runtime write batch is not active"),
              σ.repo i faults) := by
        have hm : (σ.repo i faults).memory = none := hb
        unfold Repository.commitWriteBatch
        simp only [hm, Option.isNone_none, if_true]
      rw [Store.step_eq .commitWriteBatch (answer_run hrun)]
      simp only
      rw [Store.put_idle h hb (h.repo_txn hb faults) hb]
      exact .refused _ hb
  | some b =>
      have hne : σ.batches i ≠ none := by
        rw [hb]
        exact Option.some_ne_none b
      obtain ⟨s, hw, -⟩ := h.batch i b.1 b.2 hb hs
      have hm : (σ.repo i faults).memory = some b := hb
      have ht := Store.repo_txn_self hw faults
      obtain ⟨err, repo', hrun, -, hsame⟩ | ⟨repo', hrun, ht', hc', -, -⟩ :=
        Session.commit_cases executeError inactiveMessage ht
      · have hall : Repository.commitWriteBatch (σ.repo i faults)
            = (.error err, { repo' with txn := none, memory := none }) := by
          unfold Repository.commitWriteBatch
          simp only [hm, Option.isNone_some, Bool.false_eq_true, if_false,
            Session.orRollback, hrun]
        rw [Store.step_eq .commitWriteBatch (answer_run hall)]
        simp only
        rw [Store.put_closed
          { repo' with txn := none, memory := none } rfl rfl
          hsame.committed]
        exact .dropped (.inl ⟨rfl, err, rfl⟩)
      · have hall : Repository.commitWriteBatch (σ.repo i faults)
            = (.ok (), { repo' with memory := none }) := by
          unfold Repository.commitWriteBatch
          simp only [hm, Option.isNone_some, Bool.false_eq_true, if_false,
            Session.orRollback, hrun]
        rw [Store.step_eq .commitWriteBatch (answer_run hall)]
        have hput : σ.put i { repo' with memory := none } false
            = { committed := s, writer := none
                batches := Function.update σ.batches i none
                stopped := Function.update σ.stopped i false } := by
          unfold Store.put
          simp [ht', hc', Store.othersWriter, hw]
        show Stepped σ i _ (.ok .done) (σ.put i _ false)
        rw [hput]
        exact .published hne hs hw

private theorem step_rollback (h : σ.Ok) (faults : List (Option Bytes)) :
    Stepped σ i .rollbackWriteBatch (σ.step i .rollbackWriteBatch faults).1
      (σ.step i .rollbackWriteBatch faults).2 := by
  cases hb : σ.batches i with
  | none =>
      have hrun : Repository.rollbackWriteBatch (σ.repo i faults)
          = (.ok (), σ.repo i faults) := by
        have hm : (σ.repo i faults).memory = none := hb
        unfold Repository.rollbackWriteBatch
        simp only [hm, Option.isNone_none, if_true]
      rw [Store.step_eq .rollbackWriteBatch (answer_run hrun)]
      simp only
      rw [Store.put_closed _ (h.repo_txn hb faults) hb rfl]
      exact .dropped (.inr rfl)
  | some b =>
      have hrun : Repository.rollbackWriteBatch (σ.repo i faults)
          = (.ok (), { σ.repo i faults with txn := none, memory := none }) := by
        have hm : (σ.repo i faults).memory = some b := hb
        unfold Repository.rollbackWriteBatch
        simp only [hm, Option.isNone_some, Bool.false_eq_true, if_false]
      rw [Store.step_eq .rollbackWriteBatch (answer_run hrun)]
      simp only
      rw [Store.put_closed _ rfl rfl rfl]
      exact .dropped (.inr rfl)

/-- Every disciplined action ends in one of the ways of `Stepped`. -/
theorem step_cases (h : σ.Ok) (action : Action)
    (hrule : stopsAtError σ i action) (faults : List (Option Bytes)) :
    Stepped σ i action (σ.step i action faults).1
      (σ.step i action faults).2 := by
  cases hs : σ.stopped i with
  | true =>
      rw [hrule hs]
      exact step_rollback h faults
  | false =>
      cases action with
      | call c =>
          by_cases hb : σ.batches i = none
          · exact step_call_idle h c faults hb
          · exact step_call_batch h c faults hb hs
      | beginWriteBatch p e => exact step_begin h p e faults hs
      | commitWriteBatch => exact step_commit h faults hs
      | rollbackWriteBatch => exact step_rollback h faults

-- ==================================================== what a step keeps

variable {action : Action} {r : Except Status Reply} {σ' : Store}

/-- A connection that goes away leaves the others' transactions. -/
theorem Store.close_writer {j : Nat} {s : Db}
    (hj : (σ.close i).writer = some (j, s)) :
    j ≠ i ∧ σ.writer = some (j, s) := by
  simp only [Store.close, Store.othersWriter] at hj
  cases hw : σ.writer with
  | none => simp [hw] at hj
  | some w =>
      obtain ⟨k, s'⟩ := w
      by_cases hk : k = i
      · simp [hw, hk] at hj
      · simp only [hw, hk, if_false, Option.some.injEq, Prod.mk.injEq] at hj
        obtain ⟨rfl, rfl⟩ := hj
        exact ⟨hk, rfl⟩

/-- Closing a connection keeps the batches in order. -/
theorem Store.Ok.close (h : σ.Ok) (i : Nat) : (σ.close i).Ok := by
  constructor
  · intro j p e hb hs
    by_cases hj : j = i
    · subst hj
      simp [Store.close] at hb
    · simp only [Store.close, Function.update_of_ne hj] at hb hs
      obtain ⟨s, hw, he⟩ := h.batch j p e hb hs
      refine ⟨s, ?_, he⟩
      simp [Store.close, Store.othersWriter, hw, hj]
  · intro j s hj
    obtain ⟨hne, hw⟩ := Store.close_writer hj
    simp only [Store.close, Function.update_of_ne hne]
    exact h.writer j s hw
  · intro j s hj hs
    obtain ⟨hne, hw⟩ := Store.close_writer hj
    simp only [Store.close, Function.update_of_ne hne] at hs
    exact h.epochs j s hw hs
  · intro j hb
    by_cases hj : j = i
    · subst hj
      simp [Store.close]
    · simp only [Store.close, Function.update_of_ne hj] at hb ⊢
      exact h.idle j hb

/-- A step keeps the batches in order. -/
theorem Stepped.ok (hstep : Stepped σ i action r σ') (h : σ.Ok) :
    σ'.Ok := by
  cases hstep with
  | refused => exact h
  | own hb hrun hw =>
      refine ⟨h.batch, h.writer, fun j s hj hs => ?_, h.idle⟩
      obtain hw | rfl := hw
      · rw [hw] at hj
        cases hj
      · exact h.epochs j s hj hs
  | joined hb hs hw hc hrun =>
      have hepochs := (call_edit _ hc hrun).epochs
      refine ⟨fun j p e hbj hsj => ?_, fun j s hj => ?_, fun j s hj hsj => ?_,
        h.idle⟩
      · obtain ⟨s, hwj, he⟩ := h.batch j p e hbj hsj
        rw [hw] at hwj
        cases hwj
        exact ⟨_, rfl, by rw [hepochs]; exact he⟩
      · cases hj
        exact hb
      · cases hj
        exact hepochs.trans (h.epochs _ _ hw hsj)
  | failed e hb hold hwi =>
      refine ⟨fun j p e hbj hsj => ?_, fun j s hj => ?_, fun j s hj hsj => ?_,
        fun j hbj => ?_⟩
      · have hj : j ≠ i := by
          rintro rfl
          simp at hsj
        simp only [Function.update_of_ne hj] at hsj
        -- the client's own open transaction leaves no room for another's
        obtain ⟨s, hwj, -⟩ := h.batch j p e hbj hsj
        rw [hold] at hwj
        cases hwj
        exact absurd rfl hj
      · rw [hwi j s hj]
        exact hb
      · rw [hwi j s hj] at hsj
        simp at hsj
      · have hj : j ≠ i := by
          rintro rfl
          exact hb hbj
        simp only [Function.update_of_ne hj]
        exact h.idle j hbj
  | began hb hw hc =>
      refine ⟨fun j p e hbj hsj => ?_, fun j s hj => ?_, fun j s hj hsj => ?_,
        fun j hbj => ?_⟩
      · by_cases hj : j = i
        · subst hj
          simp only [Function.update_self, Option.some.injEq,
            Prod.mk.injEq] at hbj
          obtain ⟨rfl, rfl⟩ := hbj
          exact ⟨_, rfl, hc⟩
        · simp only [Function.update_of_ne hj] at hbj
          obtain ⟨s, hwj, -⟩ := h.batch j p e hbj hsj
          rw [hw] at hwj
          cases hwj
      · cases hj
        simp
      · cases hj
        rfl
      · by_cases hj : j = i
        · subst hj
          exact h.idle j hb
        · simp only [Function.update_of_ne hj] at hbj
          exact h.idle j hbj
  | published hb hs hw =>
      refine ⟨fun j p e hbj hsj => ?_, fun j s hj => ?_, fun j s hj => ?_,
        fun j hbj => ?_⟩
      · have hj : j ≠ i := by
          rintro rfl
          simp at hbj
        simp only [Function.update_of_ne hj] at hbj hsj
        obtain ⟨s, hwj, -⟩ := h.batch j p e hbj hsj
        rw [hw] at hwj
        cases hwj
        exact absurd rfl hj
      · cases hj
      · cases hj
      · by_cases hj : j = i
        · subst hj
          simp
        · simp only [Function.update_of_ne hj] at hbj ⊢
          exact h.idle j hbj
  | dropped ha => exact h.close i

/-- A property of the committed store and of the working copy of a batch
in order. -/
structure Store.All (P : Db → Prop) (σ : Store) : Prop where
  committed : P σ.committed
  working : ∀ i s, σ.writer = some (i, s) → σ.stopped i = false → P s

/-- A handle that is closed leaves the tables as they were. -/
theorem Store.All.close {P : Db → Prop} (h : σ.All P) (i : Nat) :
    (σ.close i).All P := by
  refine ⟨h.committed, fun j s hj hs => ?_⟩
  obtain ⟨hne, hw⟩ := Store.close_writer hj
  simp only [Store.close, Function.update_of_ne hne] at hs
  exact h.working j s hw hs

/-- A step keeps what the call it performs keeps. -/
theorem Stepped.all {P : Db → Prop} (hstep : Stepped σ i action r σ')
    (hcall : ∀ c db reply db', action = .call c →
      (c.run : DbTxn Reply) db = .ok (reply, db') → P db → P db')
    (h : σ.All P) : σ'.All P := by
  cases hstep with
  | refused => exact h
  | own hb hrun hw => exact ⟨hcall _ _ _ _ rfl hrun h.committed, h.working⟩
  | joined hb hs hw hc hrun =>
      refine ⟨h.committed, fun j s hj hsj => ?_⟩
      cases hj
      exact hcall _ _ _ _ rfl hrun (h.working _ _ hw hs)
  | failed e hb hold hwi =>
      refine ⟨h.committed, fun j s hj hsj => ?_⟩
      rw [hwi j s hj] at hsj
      simp at hsj
  | began hb hw hc =>
      refine ⟨h.committed, fun j s hj hsj => ?_⟩
      cases hj
      exact h.committed
  | published hb hs hw =>
      refine ⟨h.working _ _ hw hs, fun j s hj => ?_⟩
      cases hj
  | dropped ha => exact h.close i

/-- The committed store and the working copy of a batch in order are
sound. -/
structure Store.Sound (σ : Store) : Prop where
  committed : σ.committed.Sound
  working : ∀ i s, σ.writer = some (i, s) → σ.stopped i = false → s.Sound

/-- A store is sound if all of its tables are. -/
theorem Store.sound_iff : σ.Sound ↔ σ.All Db.Sound :=
  ⟨fun h => ⟨h.committed, h.working⟩, fun h => ⟨h.committed, h.working⟩⟩

/-- A handle that is closed leaves the store sound. -/
theorem Store.Sound.close (h : σ.Sound) (i : Nat) : (σ.close i).Sound :=
  Store.sound_iff.2 ((Store.sound_iff.1 h).close i)

/-- A step keeps the stores sound. -/
theorem Stepped.sound (hstep : Stepped σ i action r σ') (h : σ.Sound) :
    σ'.Sound := by
  refine Store.sound_iff.2 (hstep.all (fun c db reply db' _ hrun hdb => ?_)
    (Store.sound_iff.1 h))
  exact call_sound c hrun hdb

-- ========================================================== whole runs

/-- Rows of other tables do not take an epoch back. -/
theorem Db.EpochGrew.withPlans (db : Db)
    (manifests : List SourceManifestRow) (migrations : List MigrationRow)
    (plans : List MigrationPlanRow) (q : Bytes) :
    db.EpochGrew (db.withPlans manifests migrations plans) q := by
  intro current hc
  refine ⟨current, ?_, Nat.le_refl current⟩
  unfold Db.currentEpoch? at hc ⊢
  simp only [Db.withPlans, List.find?_append]
  cases hp : db.plans.find? (·.planId == q) with
  | none => simp [hp] at hc
  | some plan =>
      simp only [hp, Option.some_or] at hc ⊢
      cases hm : db.migrations.find?
          (·.migrationId == plan.migrationId) with
      | none => simp [hm] at hc
      | some row =>
          rw [hm] at hc
          simpa using hc

/-- Plans do not touch the ownership of a task. -/
theorem Db.Sound.withPlans (h : db.Sound)
    (manifests : List SourceManifestRow) (migrations : List MigrationRow)
    (plans : List MigrationPlanRow) :
    (db.withPlans manifests migrations plans).Sound :=
  h.of_tables rfl rfl rfl rfl
    (Db.EpochGrew.withPlans db manifests migrations plans)

variable {t : List Event}

/-- Along every disciplined run the batches are in order. -/
theorem Run.ok (hrun : Run stopsAtError db t σ) : σ.Ok := by
  induction hrun with
  | start => exact .opened db
  | act _ i action faults hrule ih =>
      exact (step_cases ih action hrule faults).ok ih
  | close _ i ih => exact ih.close i
  | plan _ hfree _ _ _ ih =>
      refine ⟨ih.batch, ih.writer, fun j s hj => ?_, ih.idle⟩
      rw [hfree] at hj
      cases hj

/-- A run under a rule is one under every weaker rule. -/
theorem Run.mono {rule rule' : Store → Nat → Action → Prop}
    (hrun : Run rule db t σ) (h : ∀ σ i a, rule σ i a → rule' σ i a) :
    Run rule' db t σ := by
  induction hrun with
  | start => exact .start
  | act _ i action faults hrule ih =>
      exact ih.act i action faults (h _ i action hrule)
  | close _ i ih => exact ih.close i
  | plan _ hfree manifests migrations plans ih =>
      exact ih.plan hfree manifests migrations plans

/-- What the calls of a disciplined run keep, and what new plans keep, is
so all along it. -/
theorem Run.all {P : Db → Prop} {rule : Store → Nat → Action → Prop}
    (hrun : Run rule db t σ) (hstop : ∀ σ i a, rule σ i a → stopsAtError σ i a)
    (hcall : ∀ σ i c db reply db', rule σ i (.call c) →
      (c.run : DbTxn Reply) db = .ok (reply, db') → P db → P db')
    (hplans : ∀ db manifests migrations plans, P db →
      P (Db.withPlans db manifests migrations plans)) (h : P db) : σ.All P := by
  induction hrun with
  | start => exact ⟨h, by simp [Store.opened]⟩
  | act hrun i action faults hrule ih =>
      refine (step_cases (hrun.mono hstop).ok action (hstop _ i action hrule)
        faults).all (fun c _ _ _ haction => ?_) ih
      subst haction
      exact hcall _ i c _ _ _ hrule
  | close _ i ih => exact ih.close i
  | plan _ hfree _ _ _ ih =>
      exact ⟨hplans _ _ _ _ ih.committed, ih.working⟩

/-- Along every disciplined run from a sound database every store is
sound. -/
theorem Run.sound (hrun : Run stopsAtError db t σ) (h : db.Sound) :
    σ.Sound := by
  induction hrun with
  | start => exact ⟨h, by simp [Store.opened]⟩
  | act hrun i action faults hrule ih =>
      exact (step_cases hrun.ok action hrule faults).sound ih
  | close _ i ih => exact ih.close i
  | plan _ hfree _ _ _ ih =>
      exact ⟨ih.committed.withPlans _ _ _, ih.working⟩

/-- A list of actions without faults is a run. -/
theorem Run.after (hrun : Run anyCall db t σ) :
    ∀ actions : List (Nat × Action),
      Run anyCall db (σ.after t actions).2 (σ.after t actions).1 := by
  intro actions
  induction actions generalizing σ t with
  | nil => exact hrun
  | cons head rest ih =>
      obtain ⟨i, action⟩ := head
      exact ih (hrun.act i action [] trivial)

/-- Tables with no attempts are sound. -/
theorem Db.Fresh.sound (h : db.Fresh) : db.Sound := by
  obtain ⟨ht, -, ha, he, hr⟩ := h
  refine ⟨⟨?_, ?_, ?_, ?_⟩, ?_, ?_⟩ <;> simp [ht, ha, he, hr]

/-- Every database reachable by repository operations, from any number of
clients whose batches stop at the first error, satisfies the ownership
invariant. -/
theorem ownership_invariant {db : Db} (hfresh : db.Fresh) {t : List Event}
    {σ : Store} (hrun : Run stopsAtError db t σ) : σ.committed.Ownership :=
  (hrun.sound hfresh.sound).committed.owned

/-- A plan with no tasks yet, at epoch 0. -/
def plannedDb : Db :=
  { Db.empty with
    migrations := [⟨text "m", [], [], 0⟩]
    plans := [⟨text "p", text "m", [], .zero, .zero, 1⟩] }

/-- A task for it. -/
def plannedTask : TaskSpec where
  id := text "t"
  taskKey := text "t"
  type := .migrateFile
  assetId := text "asset"
  sourceAssetId := some (text "source")
  targetPath := ⟨text "f", [text "f"], by decide⟩
  estimatedBytes := 3
  expectedDigest := none

/-- An epoch is granted, the task is added and released, and claimed. -/
def claimedHistory : List (Nat × Action) :=
  [(0, .call (.acquireNextExecutionEpoch (text "p"))),
    (1, .call (.addTask (text "p") plannedTask)),
    (1, .call (.setReady (text "p") (text "t"))),
    (0, .call (.claimNextReady (text "p") 1 none))]

theorem ownership_invariant_claimed :
    ((Store.opened plannedDb).after [] claimedHistory).1.committed.tasks.map
        (fun task => (task.state, task.ownerEpoch)) = [(.running, some 1)]
      ∧ ((Store.opened plannedDb).after [] claimedHistory
          ).1.committed.Ownership :=
  ⟨by decide, ownership_invariant
    (⟨rfl, rfl, rfl, rfl, rfl⟩ : plannedDb.Fresh)
    ((((Run.start.act 0 _ [] fun h => absurd h (by decide)).act 1 _ []
      fun h => absurd h (by decide)).act 1 _ []
      fun h => absurd h (by decide)).act 0 _ []
      fun h => absurd h (by decide))⟩

end PhotoBridge
