/-
Epoch fencing holds when clients stop their batches at the first error,
and fails when they do not: an operation's error rolls the batch's
transaction back but leaves the batch active, so the next operation runs
outside any transaction and is checked against the epoch the batch was
opened with.
-/
import PhotoBridge.Db.Fencing
import PhotoBridge.Db.Proofs.Store

namespace PhotoBridge

open Transaction

variable {db : Db} {t : List Event} {σ σ' : Store} {i : Nat}
variable {action : Action} {r : Except Status Reply}

-- ================================================= stale actions

/-- A stale action is refused and changes no table. -/
theorem Stepped.stale (hstep : Stepped σ i action r σ') (h : σ.Ok)
    {planId : Bytes} {epoch : Nat}
    (hp : action.presented = some (planId, epoch))
    (hne : σ.committed.currentEpoch? planId ≠ some epoch) :
    (∃ e, r = .error e) ∧ σ'.committed = σ.committed := by
  cases hstep with
  | refused e => exact ⟨⟨e, rfl⟩, rfl⟩
  | own hb hrun => exact absurd (call_epoch_current _ hp hrun) hne
  | joined hb hs hw hc hrun =>
      rw [← h.epochs _ _ hw hs] at hne
      exact absurd (call_epoch_current _ hp hrun) hne
  | failed e => exact ⟨⟨e, rfl⟩, rfl⟩
  | began hb hw hc =>
      cases hp
      exact absurd hc hne
  | published => cases hp
  | dropped ha =>
      obtain ⟨rfl, -⟩ | rfl := ha <;> cases hp

-- ================================================= grants and batches

/-- Only a successful `AcquireNextExecutionEpoch` grants an epoch. -/
theorem Event.grant?_eq_some {planId : Bytes} {epoch : Nat}
    (h : (Event.acted i action r).grant? planId = some epoch) :
    action = .call (.acquireNextExecutionEpoch planId)
      ∧ r = .ok (.epoch epoch) := by
  unfold Event.grant? at h
  split at h
  · next heq =>
    split at h
    · next hp =>
      cases h
      cases heq
      subst hp
      exact ⟨rfl, rfl⟩
    · cases h
  · cases h

theorem Event.commitsBatch_eq_true {j : Nat}
    (h : (Event.acted j action r).commitsBatch i = true) :
    j = i ∧ action = .commitWriteBatch := by
  unfold Event.commitsBatch at h
  split at h
  · next heq =>
    obtain ⟨rfl, rfl, -⟩ := Event.acted.inj heq
    exact ⟨beq_iff_eq.1 h, rfl⟩
  · cases h

/-- A step that grants an epoch finds no transaction open. -/
theorem Stepped.grant (hstep : Stepped σ i action r σ') {planId : Bytes}
    {epoch : Nat}
    (hg : (Event.acted i action r).grant? planId = some epoch) :
    σ.writer = none
      ∧ ∃ current, σ.committed.currentEpoch? planId = some current
        ∧ epoch = current + 1
        ∧ σ' = { σ with committed :=
          (σ.committed.setCurrentEpoch planId (current + 1)).2 } := by
  obtain ⟨rfl, rfl⟩ := Event.grant?_eq_some hg
  cases hstep with
  | own hb hrun hw =>
      obtain ⟨current, hcur, hr, rfl⟩ := acquire_call_ok hrun
      cases hr
      refine ⟨?_, current, hcur, rfl, rfl⟩
      obtain hw | hsame := hw
      · exact hw
      · -- the epoch has moved, so the store is not the one before
        have hnew := Db.currentEpoch?_setCurrentEpoch_self
          (current + 1) hcur
        rw [hsame, hcur] at hnew
        cases hnew
  | joined _ _ _ hc => exact absurd rfl (hc planId)
  | dropped ha => obtain ⟨ha, -⟩ | ha := ha <;> cases ha

/-- A client with a batch that has not ended since it was begun. -/
structure Pending (t : List Event) (i : Nat) (rest : List Event) : Prop where
  split : ∃ planId begin_ before, t = rest ++ begin_ :: before
    ∧ begin_.beginsBatch i planId = true
  live : ∀ event ∈ rest, event.endsBatch i = false

/-- A batch that is not over is still active, and stopped if an epoch was
granted meanwhile. -/
def PendingStops (t : List Event) (σ : Store) : Prop :=
  ∀ i rest, Pending t i rest → σ.batches i ≠ none
    ∧ ((∃ event ∈ rest, ∃ planId, (event.grant? planId).isSome = true) →
      σ.stopped i = true)

/-- A step by a client other than through the end of its batch keeps the
batch, and keeps it stopped. -/
theorem Stepped.keeps {j : Nat} (hstep : Stepped σ j action r σ')
    (hlive : (Event.acted j action r).endsBatch i = false)
    (hb : σ.batches i ≠ none) :
    σ'.batches i ≠ none ∧ (σ.stopped i = true → σ'.stopped i = true) := by
  cases hstep with
  | refused => exact ⟨hb, id⟩
  | own => exact ⟨hb, id⟩
  | joined => exact ⟨hb, id⟩
  | failed =>
      refine ⟨hb, fun hs => ?_⟩
      by_cases hj : i = j
      · subst hj
        simp
      · simpa [Function.update_of_ne hj] using hs
  | began hbj =>
      have hj : i ≠ j := by
        rintro rfl
        exact hb hbj
      exact ⟨by simpa [Function.update_of_ne hj] using hb, id⟩
  | published =>
      have hj : i ≠ j := by
        rintro rfl
        simp [Event.endsBatch] at hlive
      simp only [Function.update_of_ne hj]
      exact ⟨hb, id⟩
  | dropped ha =>
      have hj : i ≠ j := by
        rintro rfl
        obtain ⟨rfl, -⟩ | rfl := ha <;> simp [Event.endsBatch] at hlive
      simp only [Store.close, Function.update_of_ne hj]
      exact ⟨hb, id⟩

/-- The split of a longer history: its latest event opened the batch, or
the batch was pending before. -/
theorem Pending.cons {event : Event} {rest : List Event}
    (h : Pending (event :: t) i rest) :
    (rest = [] ∧ ∃ planId, event.beginsBatch i planId = true)
      ∨ ∃ rest', rest = event :: rest' ∧ event.endsBatch i = false
        ∧ Pending t i rest' := by
  obtain ⟨⟨planId, begin_, before, hsplit, hbegin⟩, hlive⟩ := h
  cases rest with
  | nil =>
      cases hsplit
      exact .inl ⟨rfl, planId, hbegin⟩
  | cons event' rest' =>
      cases hsplit
      exact .inr ⟨rest', rfl, hlive event (List.mem_cons_self ..),
        ⟨planId, begin_, before, rfl, hbegin⟩,
        fun e he => hlive e (List.mem_cons_of_mem _ he)⟩

theorem Stepped.begins {j : Nat} (hstep : Stepped σ j action r σ')
    {planId : Bytes}
    (hbegin : (Event.acted j action r).beginsBatch i planId = true) :
    σ'.batches i ≠ none := by
  cases hstep with
  | began =>
      simp only [Event.beginsBatch, Bool.and_eq_true, beq_iff_eq] at hbegin
      rw [hbegin.1]
      simp
  | dropped ha => obtain ⟨rfl, -⟩ | rfl := ha <;> cases hbegin
  | _ => simp [Event.beginsBatch] at hbegin

/-- Along every disciplined run, a batch that is not over is stopped once
an epoch has been granted. -/
theorem Run.pendingStops (hrun : Run stopsAtError db t σ) :
    PendingStops t σ := by
  induction hrun with
  | start =>
      rintro i rest ⟨⟨_, _, _, hsplit, -⟩, -⟩
      simp at hsplit
  | @act t σ hrun j action faults hrule ih =>
      have hstep := step_cases hrun.ok action hrule faults
      intro i rest hpend
      obtain ⟨rfl, planId, hbegin⟩ | ⟨rest', rfl, hlive, hpend⟩ := hpend.cons
      · refine ⟨hstep.begins hbegin, ?_⟩
        rintro ⟨_, hmem, -⟩
        cases hmem
      · obtain ⟨hb, hstop⟩ := ih i rest' hpend
        obtain ⟨hb', hkeep⟩ := hstep.keeps hlive hb
        refine ⟨hb', ?_⟩
        rintro ⟨event, hmem, planId, hgrant⟩
        obtain rfl | hmem := List.mem_cons.1 hmem
        · -- the grant itself: no transaction was open, so the batch had
          -- already lost its own
          obtain ⟨epoch, hepoch⟩ := Option.isSome_iff_exists.1 hgrant
          obtain ⟨hw, -⟩ := hstep.grant hepoch
          apply hkeep
          by_contra hs
          obtain ⟨⟨p, e⟩, hbatch⟩ := Option.ne_none_iff_exists'.1 hb
          obtain ⟨s, hws, -⟩ := hrun.ok.batch i p e hbatch
            (Bool.eq_false_iff.2 hs)
          rw [hw] at hws
          cases hws
        · exact hkeep (hstop ⟨event, hmem, planId, hgrant⟩)
  | @close t σ hrun j ih =>
      intro i rest hpend
      obtain ⟨-, planId, hbegin⟩ | ⟨rest', rfl, hlive, hpend⟩ := hpend.cons
      · cases hbegin
      · have hj : i ≠ j := by
          rintro rfl
          simp [Event.endsBatch] at hlive
        obtain ⟨hb, hstop⟩ := ih i rest' hpend
        simp only [Store.close, Function.update_of_ne hj]
        refine ⟨hb, ?_⟩
        rintro ⟨event, hmem, planId, hgrant⟩
        obtain rfl | hmem := List.mem_cons.1 hmem
        · cases hgrant
        · exact hstop ⟨event, hmem, planId, hgrant⟩
  | plan _ _ _ _ _ ih => exact ih

/-- A grant between the begin of a batch and a commit of the client means
that the batch ended in between. -/
theorem Run.batch_over (hrun : Run stopsAtError db t σ)
    {planId : Bytes} {later between since before : List Event}
    {commit grant begin_ : Event}
    (ht : t = later ++ commit
      :: (between ++ grant :: (since ++ begin_ :: before)))
    (hbegin : begin_.beginsBatch i planId = true)
    (hgrant : (grant.grant? planId).isSome = true)
    (hcommit : commit.commitsBatch i = true) :
    ∃ event ∈ between ++ since, event.endsBatch i = true := by
  induction hrun generalizing later with
  | start => simp at ht
  | @act t σ hrun j action faults hrule ih =>
      cases later with
      | cons event later' =>
          cases ht
          exact ih rfl
      | nil =>
          by_contra hlive
          push Not at hlive
          obtain ⟨hev, rfl⟩ := List.cons.inj ht
          -- the batch is pending before the commit, and stopped
          have hpend : Pending
              (between ++ grant :: (since ++ begin_ :: before)) i
              (between ++ grant :: since) := by
            refine ⟨⟨planId, begin_, before, by simp, hbegin⟩, ?_⟩
            intro event hmem
            rw [List.mem_append, List.mem_cons] at hmem
            obtain hmem | rfl | hmem := hmem
            · exact Bool.eq_false_iff.2
                (hlive event (List.mem_append_left _ hmem))
            · cases event with
              | acted k a r =>
                  obtain ⟨epoch, hepoch⟩ := Option.isSome_iff_exists.1 hgrant
                  obtain ⟨rfl, rfl⟩ := Event.grant?_eq_some hepoch
                  rfl
              | closed k => cases hgrant
            · exact Bool.eq_false_iff.2
                (hlive event (List.mem_append_right _ hmem))
          have hstop := (hrun.pendingStops i _ hpend).2
            ⟨grant, by simp, planId, hgrant⟩
          rw [← hev] at hcommit
          -- a stopped client only rolls back
          obtain ⟨rfl, rfl⟩ := Event.commitsBatch_eq_true hcommit
          cases hrule hstop
  | @close t σ hrun j ih =>
      cases later with
      | cons event later' =>
          cases ht
          exact ih rfl
      | nil =>
          obtain ⟨rfl, -⟩ := List.cons.inj ht
          cases hcommit
  | plan _ _ _ _ _ ih => exact ih ht

-- ==================================================== growing epochs

/-- Every epoch granted so far is at most the current one. -/
def GrantsBounded (t : List Event) (σ : Store) : Prop :=
  ∀ planId, ∀ epoch ∈ grants planId t, ∃ current,
    σ.committed.currentEpoch? planId = some current ∧ epoch ≤ current

theorem GrantsBounded.grew (h : GrantsBounded t σ)
    (hg : ∀ planId, σ.committed.EpochGrew σ'.committed planId) :
    GrantsBounded t σ' := by
  intro planId epoch hmem
  obtain ⟨current, hc, hle⟩ := h planId epoch hmem
  obtain ⟨current', hc', hle'⟩ := hg planId current hc
  exact ⟨current', hc', Nat.le_trans hle hle'⟩

/-- No step takes an epoch back. -/
theorem Stepped.epochGrew (hstep : Stepped σ i action r σ') (h : σ.Ok)
    (planId : Bytes) : σ.committed.EpochGrew σ'.committed planId := by
  cases hstep with
  | @own c reply db' hb hrun hw =>
      by_cases hc : ∃ p, c = .acquireNextExecutionEpoch p
      · obtain ⟨p, rfl⟩ := hc
        obtain ⟨current, hcur, -, rfl⟩ := acquire_call_ok hrun
        exact Db.EpochGrew.setCurrentEpoch hcur planId
      · have hedit := call_edit c (fun p hp => hc ⟨p, hp⟩) hrun
        exact .of_eq (congrFun hedit.epochs planId)
  | published hb hs hw =>
      exact .of_eq (congrFun (h.epochs _ _ hw hs) planId)
  | _ => exact .of_eq rfl

/-- An event that grants no epoch for the plan leaves its grants. -/
theorem grants_cons (planId : Bytes) (event : Event) (t : List Event) :
    grants planId (event :: t)
      = (event.grant? planId).toList ++ grants planId t := by
  unfold grants
  rw [List.filterMap_cons]
  cases event.grant? planId <;> rfl

theorem Run.grantsBounded (hrun : Run stopsAtError db t σ) :
    GrantsBounded t σ := by
  induction hrun with
  | start =>
      intro planId epoch hmem
      cases hmem
  | @act t σ hrun j action faults hrule ih =>
      have hstep := step_cases hrun.ok action hrule faults
      have hold := ih.grew (hstep.epochGrew hrun.ok)
      intro planId epoch hmem
      rw [grants_cons, List.mem_append] at hmem
      obtain hnew | hmem := hmem
      · rw [Option.mem_toList] at hnew
        obtain ⟨-, current, hcur, rfl, hσ⟩ := hstep.grant hnew
        rw [hσ]
        exact ⟨current + 1, Db.currentEpoch?_setCurrentEpoch_self _ hcur,
          Nat.le_refl _⟩
      · exact hold planId epoch hmem
  | close hrun j ih => exact ih
  | plan _ _ _ _ _ ih =>
      exact ih.grew (Db.EpochGrew.withPlans _ _ _ _)

/-- Granted epochs grow along every disciplined run. -/
theorem Run.grants_increasing (hrun : Run stopsAtError db t σ)
    (planId : Bytes) : (grants planId t).Pairwise (· > ·) := by
  induction hrun with
  | start => exact .nil
  | @act t σ hrun j action faults hrule ih =>
      have hstep := step_cases hrun.ok action hrule faults
      rw [grants_cons]
      cases hg : Event.grant? planId
          (.acted j action (σ.step j action faults).1) with
      | none => exact ih
      | some epoch =>
          obtain ⟨-, current, hcur, rfl, -⟩ := hstep.grant hg
          refine List.pairwise_cons.2 ⟨fun e he => ?_, ih⟩
          obtain ⟨current', hcur', hle⟩ := hrun.grantsBounded planId e he
          rw [hcur] at hcur'
          cases hcur'
          exact Nat.lt_succ_of_le hle
  | close hrun j ih => exact ih
  | plan _ _ _ _ _ ih => exact ih

-- ============================================================ fencing

/-- Runs whose clients stop their batches at the first error are
fenced. -/
theorem fenced_stopsAtError : Fenced stopsAtError where
  stale := by
    intro db t σ hrun i action faults planId epoch hrule hp _ hne
    exact (step_cases hrun.ok action hrule faults).stale hrun.ok hp hne
  batches := by
    intro db t σ hrun i planId later between since before commit grant
      begin_ ht hbegin hgrant hcommit
    exact hrun.batch_over ht hbegin hgrant hcommit
  increasing := fun hrun planId => hrun.grants_increasing planId

-- ================================== the failure without the discipline

/-- One plan at epoch 1 with one task, running under it. -/
def fencingDb : Db :=
  let plan := text "p"
  let task := text "t"
  let attempt := text "a"
  { Db.empty with
    migrations := [⟨text "m", [], [], 1⟩]
    plans := [⟨plan, text "m", [], .zero, .zero, 1⟩]
    tasks := [⟨plan, task, task, .migrateFile, .running, some 1,
      some attempt, 1, text "f", 0, none, none⟩]
    attempts := [newAttemptRow plan task attempt 1]
    events := [claimEvent plan task attempt 1] }

/-- A batch of epoch 1 fails in its first operation and is left active;
another client is granted epoch 2; the next operation of the batch still
presents epoch 1. -/
def fencingHistory : List (Nat × Action) :=
  [(0, .beginWriteBatch (text "p") 1),
    (0, .call (.markTempWritten (text "p") (text "t") 1 (text "a"))),
    (1, .call (.acquireNextExecutionEpoch (text "p")))]

/-- Without the discipline, an operation with a stale epoch succeeds. -/
theorem not_fenced_anyCall : ¬Fenced anyCall := by
  intro h
  have hrun := Run.after (.start : Run _ fencingDb _ _) fencingHistory
  obtain ⟨⟨e, he⟩, -⟩ := h.stale hrun 0
    (.call (.markCommitIntent (text "p") (text "t") 1 (text "a"))) []
    (text "p") 1 trivial rfl (by decide) (by decide)
  have hok : (((Store.opened fencingDb).after [] fencingHistory).1.step 0
      (.call (.markCommitIntent (text "p") (text "t") 1 (text "a")))
      []).1.isOk = true := by decide
  rw [he] at hok
  cases hok

end PhotoBridge
