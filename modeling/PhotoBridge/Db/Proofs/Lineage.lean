/-
One step of the shared store under no discipline at all, and what it
does to the versions of the tables: consecutive versions differ by one
call (`Db.Moved`), and the past only grows.
-/
import Mathlib.Data.List.Chain
import PhotoBridge.Db.Lineage
import PhotoBridge.Db.Proofs.Movement
import PhotoBridge.Db.Proofs.Store

namespace PhotoBridge

open Transaction Session

variable {σ σ' : Store} {i : Nat} {db : Db}
  {rule : Store → Nat → Action → Prop}

-- =========================================================== one step

/-- How a step can move the tables; `true` when it published the working
copy. -/
inductive Shifted (σ σ' : Store) : Bool → Prop
  | own (hw : σ'.writer = σ.writer)
      (hm : σ.committed.Moved σ'.committed)
      (hlock : σ.writer = none ∨ σ'.committed = σ.committed) :
      Shifted σ σ' false
  | worked {i : Nat} {s s' : Db} (hw : σ.writer = some (i, s))
      (hw' : σ'.writer = some (i, s')) (hm : s.Moved s')
      (hc : σ'.committed = σ.committed) : Shifted σ σ' false
  | began {i : Nat} (hw : σ.writer = none)
      (hw' : σ'.writer = some (i, σ.committed))
      (hc : σ'.committed = σ.committed) : Shifted σ σ' false
  | published {i : Nat} {s : Db} (hw : σ.writer = some (i, s))
      (hw' : σ'.writer = none) (hc : σ'.committed = s) :
      Shifted σ σ' true
  | dropped (hw' : σ'.writer = none) (hc : σ'.committed = σ.committed) :
      Shifted σ σ' false

/-- A client's transaction is the store's open one, or the client sees
the lock of another. -/
theorem Store.repo_cases (σ : Store) (i : Nat) (faults : List (Option Bytes)) :
    (∃ s, σ.writer = some (i, s) ∧ (σ.repo i faults).txn = some s
        ∧ σ.othersWriter i = none)
      ∨ (σ.repo i faults).txn = none ∧ σ.othersWriter i = σ.writer
        ∧ ((σ.repo i faults).busy = false → σ.writer = none) := by
  cases hw : σ.writer with
  | none =>
      right
      refine ⟨?_, ?_, fun _ => rfl⟩
      · simp only [Store.repo, hw]
      · simp only [Store.othersWriter, hw]
  | some w =>
      obtain ⟨j, s⟩ := w
      by_cases hj : j = i
      · left
        subst hj
        refine ⟨s, rfl, ?_, ?_⟩
        · simp only [Store.repo, hw, if_true]
        · simp only [Store.othersWriter, hw, if_true]
      · right
        refine ⟨?_, ?_, fun hb => ?_⟩
        · simp only [Store.repo, hw, if_neg hj]
        · simp only [Store.othersWriter, hw, if_neg hj]
        · simp [Store.repo, hw, hj] at hb

/-- A connection left with its tables as they were. -/
theorem Shifted.still (faults : List (Option Bytes)) {repo : Repo}
    (htxn : repo.txn = (σ.repo i faults).txn)
    (hdb : repo.committed = σ.committed) (failed : Bool) :
    Shifted σ (σ.put i repo failed) false := by
  have hmoved : σ.committed.Moved (σ.put i repo failed).committed := by
    show σ.committed.Moved repo.committed
    rw [hdb]
    exact .refl _
  obtain ⟨s, hw, ht, -⟩ | ⟨ht, ho, -⟩ := σ.repo_cases i faults
  · refine .own ?_ hmoved (.inr hdb)
    simp only [Store.put, htxn, ht, hw]
  · refine .own ?_ hmoved (.inr hdb)
    simp only [Store.put, htxn, ht, ho]

/-- A connection left without a transaction. -/
theorem Shifted.without {repo : Repo} (htxn : repo.txn = none)
    (hdb : repo.committed = σ.committed) (failed : Bool) :
    Shifted σ (σ.put i repo failed) false := by
  obtain ⟨s, hw, -, ho⟩ | ⟨-, ho, -⟩ := σ.repo_cases i []
  · refine .dropped ?_ hdb
    simp only [Store.put, htxn, ho]
  · refine .own ?_ ?_ (.inr hdb)
    · simp only [Store.put, htxn, ho]
    · show σ.committed.Moved repo.committed
      rw [hdb]
      exact .refl _

private theorem call_shifted (c : Call) (faults : List (Option Bytes)) :
    Shifted σ (σ.step i (.call c) faults).2 false := by
  have hfoot := call_moved c
  cases hrun : (c.run : RepoM Reply) (σ.repo i faults) with
  | mk r repo =>
      rw [Store.step_eq (.call c) hrun]
      obtain ⟨s, hw, ht, ho⟩ | ⟨ht, ho, hfree⟩ := σ.repo_cases i faults
      · obtain ⟨hdb, hmove⟩ := hfoot.inside ht
        rw [hrun] at hdb hmove
        cases htxn : repo.txn with
        | none => exact .without htxn hdb _
        | some s' =>
            refine .worked hw ?_ (hmove s' htxn) hdb
            simp only [Store.put, htxn]
      · obtain ⟨htxn, hmove⟩ := hfoot.outside ht
        have hlock := hfoot.locked ht
        rw [hrun] at htxn hmove hlock
        simp only at htxn
        refine .own ?_ hmove ?_
        · simp only [Store.put, htxn, ho]
        · cases hb : (σ.repo i faults).busy with
          | true => exact .inr (hlock hb)
          | false => exact .inl (hfree hb)

/-- `BeginWriteBatch` in any mode: nothing, or a copy of the committed
tables. -/
theorem beginWriteBatch_shift (p : Bytes) (e : Nat) (repo : Repo) :
    let out := (Repository.beginWriteBatch p e repo).2
    out.committed = repo.committed
      ∧ (out.txn = repo.txn
        ∨ repo.txn = none ∧ repo.busy = false
          ∧ out.txn = some repo.committed) := by
  cases hm : repo.memory with
  | some b =>
      have hrun : Repository.beginWriteBatch p e repo
          = (.error (.internal "runtime write batch is already active"),
              repo) := by
        unfold Repository.beginWriteBatch
        simp only [bind_apply, remembered, hm]
        rfl
      rw [hrun]
      exact ⟨rfl, .inl rfl⟩
  | none =>
      cases ht : repo.txn with
      | none =>
          obtain ⟨err, repo', hrun, ht', hsame⟩
            | ⟨repo', hrun, ht', hc', -, hfree, -⟩ :=
            beginWriteBatch_cases p e ht hm
          · rw [hrun]
            exact ⟨hsame.committed, .inl ht'⟩
          · rw [hrun]
            exact ⟨hc', .inr ⟨rfl, hfree, ht'⟩⟩
      | some s =>
          -- a transaction without a batch: `BEGIN` is refused
          rw [beginWriteBatch_eq p e hm]
          cases checkIds p (text "batch") with
          | error err => exact ⟨rfl, .inl ht⟩
          | ok _ =>
          cases checkEpochAttempt e (text "batch") with
          | error err => exact ⟨rfl, .inl ht⟩
          | ok _ =>
          obtain ⟨err, repo', hrun, ht', hsame⟩ :=
            beginImmediate_nested executeError nestedMessage lockedMessage ht
          simp only [liftCheck, bind_apply, pure_apply, hrun]
          exact ⟨hsame.committed, .inl ht'⟩

/-- `CommitWriteBatch` in any mode: nothing, the working copy published,
or dropped. -/
theorem commitWriteBatch_shift (repo : Repo) :
    let out := Repository.commitWriteBatch repo
    (out.2.committed = repo.committed ∧ out.1.isOk = false
        ∧ (out.2.txn = repo.txn ∨ out.2.txn = none))
      ∨ ∃ s, repo.txn = some s ∧ out.1 = .ok () ∧ out.2.committed = s
        ∧ out.2.txn = none := by
  unfold Repository.commitWriteBatch
  cases hm : repo.memory with
  | none =>
      simp only [Option.isNone_none, if_true]
      exact .inl ⟨trivial, rfl, .inl trivial⟩
  | some b =>
      simp only [Option.isNone_some, Bool.false_eq_true, if_false,
        Session.orRollback]
      cases ht : repo.txn with
      | some s =>
          obtain ⟨err, repo', hrun, -, hsame⟩ | ⟨repo', hrun, ht', hc', -⟩ :=
            Session.commit_cases executeError inactiveMessage ht
          · simp only [hrun]
            exact .inl ⟨hsame.committed, rfl, .inr trivial⟩
          · simp only [hrun]
            exact .inr ⟨s, rfl, trivial, hc', ht'⟩
      | none =>
          left
          obtain ⟨htxn, hsame⟩ := nextFault_same repo
          unfold Session.commit
          cases hn : repo.nextFault with
          | mk fault repo₁ =>
              rw [hn] at htxn hsame
              have hnone : repo₁.txn = none := htxn.trans ht
              cases fault with
              | some m => exact ⟨hsame.committed, rfl, .inr rfl⟩
              | none =>
                  simp only [hnone]
                  exact ⟨hsame.committed, rfl, .inr trivial⟩

/-- Every step moves the tables in one of the listed ways. -/
theorem step_shifted (action : Action) (faults : List (Option Bytes)) :
    Shifted σ (σ.step i action faults).2
      (Event.publishes (.acted i action (σ.step i action faults).1)) := by
  cases action with
  | call c => exact call_shifted c faults
  | beginWriteBatch p e =>
      show Shifted σ _ false
      obtain ⟨hdb, hcases⟩ :=
        beginWriteBatch_shift p e (σ.repo i faults)
      cases hrun : Repository.beginWriteBatch p e (σ.repo i faults) with
      | mk r repo =>
          rw [hrun] at hdb hcases
          rw [Store.step_eq (.beginWriteBatch p e) (answer_run hrun)]
          obtain hsame | ⟨hnone, hfree, hcopy⟩ := hcases
          · exact .still faults hsame hdb _
          · refine .began (i := i) (Store.repo_busy faults hfree hnone) ?_ hdb
            simp only at hcopy
            simp only [Store.put, hcopy]
            rfl
  | commitWriteBatch =>
      have hcases := commitWriteBatch_shift (σ.repo i faults)
      cases hrun : Repository.commitWriteBatch (σ.repo i faults) with
      | mk r repo =>
          rw [hrun] at hcases
          rw [Store.step_eq .commitWriteBatch (answer_run hrun)]
          obtain ⟨hdb, hfail, htxn⟩ | ⟨s, hsome, hok, hdb, htxn⟩ := hcases
          · cases r with
            | ok u => cases hfail
            | error err =>
                show Shifted σ _ false
                obtain htxn | htxn := htxn
                · exact .still faults htxn hdb _
                · exact .without htxn hdb _
          · simp only at hok
            subst hok
            show Shifted σ _ true
            obtain ⟨s', hw, ht, ho⟩ | ⟨ht, -⟩ := σ.repo_cases i faults
            · rw [hsome] at ht
              cases ht
              refine .published hw ?_ hdb
              simp only at htxn
              simp only [Store.put, htxn, ho]
            · rw [hsome] at ht
              cases ht
  | rollbackWriteBatch =>
      show Shifted σ _ false
      cases hb : σ.batches i with
      | none =>
          have hrun : Repository.rollbackWriteBatch (σ.repo i faults)
              = (.ok (), σ.repo i faults) := by
            have hm : (σ.repo i faults).memory = none := hb
            unfold Repository.rollbackWriteBatch
            simp only [hm, Option.isNone_none, if_true]
          rw [Store.step_eq .rollbackWriteBatch (answer_run hrun)]
          exact .still faults rfl rfl _
      | some b =>
          have hrun : Repository.rollbackWriteBatch (σ.repo i faults)
              = (.ok (),
                  { σ.repo i faults with txn := none, memory := none }) := by
            have hm : (σ.repo i faults).memory = some b := hb
            unfold Repository.rollbackWriteBatch
            simp only [hm, Option.isNone_some, Bool.false_eq_true, if_false]
          rw [Store.step_eq .rollbackWriteBatch (answer_run hrun)]
          exact .without rfl rfl _

private theorem close_shifted (σ : Store) (i : Nat) :
    Shifted σ (σ.close i) false := by
  obtain ⟨s, -, -, ho⟩ | ⟨-, ho, -⟩ := σ.repo_cases i []
  · exact .dropped ho rfl
  · exact .own ho (.refl _) (.inr rfl)

private theorem withPlans_shifted (hfree : σ.writer = none)
    (manifests : List SourceManifestRow) (migrations : List MigrationRow)
    (plans : List MigrationPlanRow) :
    Shifted σ { σ with committed :=
      σ.committed.withPlans manifests migrations plans } false :=
  .own rfl (.quiet ⟨rfl, rfl, rfl⟩) (.inl hfree)

/-- Every step of a run is one of the listed ones and extends the past
by it. -/
theorem Moment.Step.shifted {m m' : Moment} (h : Moment.Step rule m m') :
    ∃ published, Shifted m.store m'.store published
      ∧ m'.past = m.past.next m.store m'.store published := by
  cases h with
  | act i action faults _ => exact ⟨_, step_shifted action faults, rfl⟩
  | close i => exact ⟨_, close_shifted m.store i, rfl⟩
  | plan hfree manifests migrations plans =>
      exact ⟨_, withPlans_shifted hfree manifests migrations plans, rfl⟩

-- ============================================================ versions

/-- The past belongs to the store, and consecutive versions differ by
one call. -/
structure Moment.Traced (m : Moment) : Prop where
  present : m.past.committed.head? = some m.store.committed
  working : ∀ i s, m.store.writer = some (i, s) →
    m.past.working.head? = some s
  /-- The oldest version of the working copy is the committed one. -/
  base : m.store.writer ≠ none →
    m.past.working.getLast? = some m.store.committed
  chain : m.past.committed.IsChain fun new old => old.Moved new
  copies : m.past.working.IsChain fun new old => old.Moved new
  idle : m.store.writer = none → m.past.working = []

theorem Moment.Traced.start (db : Db) : (Moment.start db).Traced :=
  ⟨rfl, by simp [Moment.start, Store.opened],
    by simp [Moment.start, Store.opened], .singleton _, .nil, fun _ => rfl⟩

/-- A new version on top of a chain. -/
theorem isChain_version {new old : Db} {versions : List Db}
    (h : versions.IsChain fun new old => old.Moved new)
    (hhead : versions.head? = some old) (hm : old.Moved new) :
    (new :: versions).IsChain fun new old => old.Moved new := by
  rw [List.isChain_cons]
  refine ⟨fun y hy => ?_, h⟩
  rw [hhead] at hy
  cases hy
  exact hm

theorem Shifted.traced {m : Moment} {published : Bool} (h : m.Traced)
    (hs : Shifted m.store σ' published) (events : List Event) :
    (⟨events, σ', m.past.next m.store σ' published⟩ : Moment).Traced := by
  cases hs with
  -- the writer works on, or somebody reads
  | own hw hm hlock =>
      have hwork : (m.past.next m.store σ' false).working.head?
          = m.past.working.head? ∧
          (m.past.next m.store σ' false).working.getLast?
          = m.past.working.getLast? ∧
          (m.past.next m.store σ' false).working.IsChain
            (fun new old => old.Moved new) := by
        unfold Lineage.next
        simp only [hw]
        cases hs : m.store.writer with
        | none =>
            rw [h.idle hs]
            exact ⟨rfl, rfl, .nil⟩
        | some w =>
            obtain ⟨i, s⟩ := w
            have hhead := h.working i s hs
            simp only [Option.isSome_some, if_true]
            refine ⟨by rw [hhead]; rfl, ?_,
              isChain_version h.copies hhead (.refl s)⟩
            rw [List.getLast?_cons]
            have hlast := h.base (by rw [hs]; exact Option.some_ne_none _)
            rw [hlast]
            rfl
      refine ⟨rfl, fun i s hi => ?_, fun hi => ?_,
        isChain_version h.chain h.present hm, hwork.2.2, fun hi => ?_⟩
      · rw [hw] at hi
        exact hwork.1.trans (h.working i s hi)
      · simp only [hw] at hi
        refine (hwork.2.1.trans (h.base hi)).trans ?_
        obtain hnone | hsame := hlock
        · exact absurd hnone hi
        · rw [hsame]
      · simp only at hi
        simp only [Lineage.next, hi]
  -- a new version of the working copy
  | @worked i s s' hw hw' hm hc =>
      have hhead := h.working i s hw
      have hne : m.store.writer ≠ none := by
        rw [hw]
        exact Option.some_ne_none _
      have hwork : (m.past.next m.store σ' false).working
          = s' :: m.past.working := by
        simp only [Lineage.next, hw', hw, Option.isSome_some, if_true]
      refine ⟨rfl, fun j t ht => ?_, fun _ => ?_, ?_, ?_, fun hi => ?_⟩
      · rw [hw'] at ht
        cases ht
        rw [hwork]
        rfl
      · rw [hwork, List.getLast?_cons, h.base hne, hc]
        rfl
      · refine isChain_version h.chain h.present ?_
        rw [hc]
        exact .refl _
      · rw [hwork]
        exact isChain_version h.copies hhead hm
      · rw [hw'] at hi
        cases hi
  -- the working copy begins as what is committed
  | @began i hw hw' hc =>
      have hwork : (m.past.next m.store σ' false).working
          = [m.store.committed] := by
        simp only [Lineage.next, hw', hw, Option.isSome_none,
          Bool.false_eq_true, if_false]
      refine ⟨rfl, fun j t ht => ?_, fun _ => ?_, ?_, ?_, fun hi => ?_⟩
      · rw [hw'] at ht
        cases ht
        rw [hwork]
        rfl
      · rw [hwork, hc]
        rfl
      · refine isChain_version h.chain h.present ?_
        rw [hc]
        exact .refl _
      · rw [hwork]
        exact .singleton _
      · rw [hw'] at hi
        cases hi
  -- the working copy is published: its versions come before the committed
  -- ones
  | @published i s hw hw' hc =>
      have hhead := h.working i s hw
      have hne : m.store.writer ≠ none := by
        rw [hw]
        exact Option.some_ne_none _
      have hver : (m.past.next m.store σ' true).committed
          = m.past.working ++ m.past.committed := by
        simp only [Lineage.next, if_true]
      have hwork : (m.past.next m.store σ' true).working = [] := by
        simp only [Lineage.next, hw']
      refine ⟨?_, fun j t ht => ?_, fun hi => absurd hw' hi, ?_, ?_,
        fun _ => hwork⟩
      · rw [hver, List.head?_append, hhead, hc]
        rfl
      · rw [hw'] at ht
        cases ht
      · rw [hver, List.isChain_append]
        refine ⟨h.copies, h.chain, fun x hx y hy => ?_⟩
        rw [h.base hne] at hx
        rw [h.present] at hy
        cases hx
        cases hy
        exact .refl _
      · rw [hwork]
        exact .nil
  -- the working copy is dropped
  | dropped hw' hc =>
      have hwork : (m.past.next m.store σ' false).working = [] := by
        simp only [Lineage.next, hw']
      refine ⟨rfl, fun j t ht => ?_, fun hi => absurd hw' hi, ?_, ?_,
        fun _ => hwork⟩
      · rw [hw'] at ht
        cases ht
      · refine isChain_version h.chain h.present ?_
        rw [hc]
        exact .refl _
      · rw [hwork]
        exact .nil

theorem Moment.Step.traced {m m' : Moment} (hstep : Moment.Step rule m m')
    (h : m.Traced) : m'.Traced := by
  obtain ⟨published, hs, hpast⟩ := hstep.shifted
  have := hs.traced h m'.events
  rw [← hpast] at this
  exact this

/-- Along every run the past belongs to the store. -/
theorem Moment.Reached.traced {m : Moment} (h : Moment.Reached rule db m) :
    m.Traced := by
  induction h with
  | refl => exact .start db
  | tail _ hstep ih => exact hstep.traced ih

/-- The past of the committed tables only grows. -/
theorem Moment.Step.grows {m m' : Moment} (hstep : Moment.Step rule m m') :
    m.past.committed <:+ m'.past.committed := by
  obtain ⟨published, -, hpast⟩ := hstep.shifted
  rw [hpast]
  unfold Lineage.next
  cases published with
  | true => exact List.suffix_append _ _
  | false => exact List.suffix_cons _ _

theorem Moment.Leads.grows {m m' : Moment} (h : Moment.Leads rule m m') :
    m.past.committed <:+ m'.past.committed := by
  induction h with
  | refl => exact List.suffix_refl _
  | tail _ hstep ih => exact ih.trans hstep.grows

-- ==================================================== what versions keep

section Keeps

variable {P : Db → Prop} (hP : ∀ {s s' : Db}, s.Moved s' → P s → P s')
include hP

/-- What every call keeps holds in all versions newer than one. -/
theorem isChain_keeps {versions : List Db} {oldest : Db}
    (h : versions.IsChain fun new old => old.Moved new)
    (hlast : versions.getLast? = some oldest) (ho : P oldest) :
    ∀ version ∈ versions, P version := by
  induction versions with
  | nil =>
      intro version hmem
      cases hmem
  | cons newest rest ih =>
      cases rest with
      | nil =>
          intro version hmem
          cases hlast
          rw [List.mem_singleton.1 hmem]
          exact ho
      | cons next rest =>
          rw [List.isChain_cons_cons] at h
          rw [List.getLast?_cons_cons] at hlast
          have hrest := ih h.2 hlast
          intro version hmem
          rcases List.mem_cons.1 hmem with rfl | hmem
          · exact hP h.1 (hrest next (List.mem_cons_self ..))
          · exact hrest version hmem

/-- What holds of the committed tables holds of the working copy. -/
theorem Moment.Traced.keeps_working {m : Moment} (h : m.Traced)
    (hc : P m.store.committed) :
    ∀ i s, m.store.writer = some (i, s) → P s := by
  intro i s hw
  have hne : m.store.writer ≠ none := by
    rw [hw]
    exact Option.some_ne_none _
  exact isChain_keeps hP h.copies (h.base hne) hc s
    (List.mem_of_mem_head? (h.working i s hw))

theorem Shifted.keeps {published : Bool} (hs : Shifted σ σ' published)
    (hc : P σ.committed) (hw : ∀ i s, σ.writer = some (i, s) → P s) :
    P σ'.committed ∧ ∀ i s, σ'.writer = some (i, s) → P s := by
  cases hs with
  | own hsame hm _ =>
      rw [hsame]
      exact ⟨hP hm hc, hw⟩
  | worked hold hnew hm hsame =>
      rw [hsame, hnew]
      refine ⟨hc, fun j t ht => ?_⟩
      cases ht
      exact hP hm (hw _ _ hold)
  | began _ hnew hsame =>
      rw [hsame, hnew]
      refine ⟨hc, fun j t ht => ?_⟩
      cases ht
      exact hc
  | published hold hnew hsame =>
      rw [hsame, hnew]
      refine ⟨hw _ _ hold, fun j t ht => ?_⟩
      cases ht
  | dropped hnew hsame =>
      rw [hsame, hnew]
      refine ⟨hc, fun j t ht => ?_⟩
      cases ht

/-- What every call keeps, kept along a run. -/
theorem Moment.Leads.keeps {m m' : Moment} (h : Moment.Leads rule m m')
    (hc : P m.store.committed)
    (hw : ∀ i s, m.store.writer = some (i, s) → P s) :
    P m'.store.committed ∧ ∀ i s, m'.store.writer = some (i, s) → P s := by
  induction h with
  | refl => exact ⟨hc, hw⟩
  | tail _ hstep ih =>
      obtain ⟨published, hs, -⟩ := hstep.shifted
      exact hs.keeps hP ih.1 ih.2

end Keeps

-- ================================================= moments and runs

/-- A point of a run is the end of one. -/
theorem Moment.Reached.run {m : Moment} (h : Moment.Reached rule db m) :
    Run rule db m.events m.store := by
  induction h with
  | refl => exact .start
  | tail _ hstep ih =>
      cases hstep with
      | act i action faults hrule => exact ih.act i action faults hrule
      | close i => exact ih.close i
      | plan hfree manifests migrations plans =>
          exact ih.plan hfree manifests migrations plans

/-- Every run has a past. -/
theorem Run.reached {t : List Event} (h : Run rule db t σ) :
    ∃ past, Moment.Reached rule db ⟨t, σ, past⟩ := by
  induction h with
  | start => exact ⟨_, .refl⟩
  | act _ i action faults hrule ih =>
      obtain ⟨past, h⟩ := ih
      exact ⟨_, h.tail (.act _ i action faults hrule)⟩
  | close _ i ih =>
      obtain ⟨past, h⟩ := ih
      exact ⟨_, h.tail (.close _ i)⟩
  | plan _ hfree manifests migrations plans ih =>
      obtain ⟨past, h⟩ := ih
      exact ⟨_, h.tail (.plan _ hfree manifests migrations plans)⟩

end PhotoBridge
