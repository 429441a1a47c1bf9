/-
Receipts are exact and immutable: the identity blob round trips, a
stored row is never touched again, and `PersistVerifiedReceipt` on a key
that has one writes nothing.

In a batch whose transaction is gone the operation runs in autocommit
mode, so its successes are compared with its body by `Follows` and its
failures by `Rests`; in the other modes the transaction does the work.
-/
import PhotoBridge.Proofs.Encoding
import PhotoBridge.Db.Receipts
import PhotoBridge.Db.Proofs.Lineage

namespace PhotoBridge

open Transaction Session

variable {db db' : Db} {planId taskId attemptId : Bytes}
  {σ : Store} {i : Nat} {faults : List (Option Bytes)}
  {rule : Store → Nat → Action → Prop}

-- =========================================================== the view

/-- A repository of the store sees what its handle sees. -/
theorem Store.repo_view (σ : Store) (i : Nat) (faults : List (Option Bytes)) :
    (σ.repo i faults).view = σ.view i := by
  unfold Store.view Store.repo Conn.view
  cases hw : σ.writer with
  | none => rfl
  | some w =>
      obtain ⟨j, s⟩ := w
      by_cases hj : j = i
      · simp only [if_pos hj, Option.getD_some]
      · simp only [if_neg hj, Option.getD_none]

/-- A handle sees what its repository left. -/
theorem Store.put_view (σ : Store) (i : Nat) (repo : Repo) (failed : Bool) :
    (σ.put i repo failed).view i = repo.view := by
  unfold Store.view Store.put Conn.view
  cases ht : repo.txn with
  | some s => simp only [if_true, Option.getD_some]
  | none =>
      simp only [Store.othersWriter, Option.getD_none]
      cases σ.writer with
      | none => rfl
      | some w =>
          obtain ⟨j, s⟩ := w
          by_cases hj : j = i
          · simp only [if_pos hj]
          · simp only [if_neg hj]

/-- What a handle has seen so far is a chain of movements. -/
theorem Moment.Traced.seenBy_chain {m : Moment} (h : m.Traced) (i : Nat) :
    (m.seenBy i).IsChain (fun new old => old.Moved new)
      ∧ (m.seenBy i).head? = some (m.store.view i) := by
  unfold Moment.seenBy Store.view
  cases hw : m.store.writer with
  | none => exact ⟨h.chain, h.present⟩
  | some w =>
      obtain ⟨j, s⟩ := w
      have hne : m.store.writer ≠ none := by
        rw [hw]
        exact Option.some_ne_none _
      by_cases hj : j = i
      · simp only [if_pos hj]
        refine ⟨?_, by rw [List.head?_append, h.working j s hw]; rfl⟩
        rw [List.isChain_append]
        refine ⟨h.copies, h.chain, fun x hx y hy => ?_⟩
        rw [h.base hne] at hx
        rw [h.present] at hy
        cases hx
        cases hy
        exact .refl _
      · simp only [if_neg hj]
        exact ⟨h.chain, h.present⟩

/-- What every call keeps passes from a version to all newer ones. -/
theorem isChain_newest {P : Db → Prop}
    (hP : ∀ {s s' : Db}, s.Moved s' → P s → P s') {versions : List Db}
    (h : versions.IsChain fun new old => old.Moved new) {version : Db}
    (hmem : version ∈ versions) (hv : P version) :
    ∀ newest ∈ versions.head?, P newest := by
  induction versions with
  | nil => cases hmem
  | cons head rest ih =>
      rw [List.isChain_cons] at h
      intro newest hnewest
      cases hnewest
      rcases List.mem_cons.1 hmem with rfl | hmem
      · exact hv
      · cases hr : rest.head? with
        | none =>
            rw [List.head?_eq_none_iff.1 hr] at hmem
            cases hmem
        | some next => exact hP (h.1 next hr) (ih h.2 hmem next hr)

-- ==================================================== rows are immutable

/-- A change that stores no receipt leaves the receipts. -/
theorem Db.Quiet.receipt? (h : db.Quiet db') :
    db'.receipt? planId taskId attemptId
      = db.receipt? planId taskId attemptId := by
  unfold Db.receipt?
  rw [h.receipts]

/-- No call touches a stored receipt. -/
theorem Db.Moved.receipt? (hm : db.Moved db') {row : ReceiptRow}
    (h : db.receipt? planId taskId attemptId = some row) :
    db'.receipt? planId taskId attemptId = some row := by
  cases hm with
  | quiet hq => rw [hq.receipt?]; exact h
  | addTask _ hq => rw [hq.receipt?]; exact h
  | addDependency _ _ _ hq => rw [hq.receipt?]; exact h
  | setReady hq => rw [hq.receipt?]; exact h
  | claim hq => rw [hq.receipt?]; exact h
  | release _ hq => rw [hq.receipt?]; exact h
  | addReceipt _ hq =>
      rw [hq.receipt?]
      unfold Db.receipt? Db.addReceipt at *
      rw [List.find?_append, h]
      rfl

/-- A receipt that is found is there. -/
theorem Db.receipt?_any (h : (db.receipt? planId taskId attemptId).isSome) :
    db.receipts.any (ReceiptRow.isAt planId taskId attemptId) = true := by
  unfold Db.receipt? at h
  rw [List.find?_isSome] at h
  exact List.any_eq_true.2 h

/-- The tables hold the receipt for its plan. -/
def Db.Stores (db : Db) (planId : Bytes) (receipt : VerifiedReceipt) : Prop :=
  ∃ row identity,
    db.receipt? planId receipt.taskId receipt.attemptId = some row
      ∧ row.ownerEpoch ≠ 0
      ∧ decodeIdentity row.sourceIdentity = .ok identity
      ∧ receipt = row.toReceipt identity

/-- A receipt that is stored stays stored. -/
theorem Db.Stores.moved {receipt : VerifiedReceipt} (hm : db.Moved db')
    (h : db.Stores planId receipt) : db'.Stores planId receipt := by
  obtain ⟨row, identity, hrow, hrest⟩ := h
  exact ⟨row, identity, hm.receipt? hrow, hrest⟩

/-- A receipt that is stored is there. -/
theorem Db.Stores.any {receipt : VerifiedReceipt}
    (h : db.Stores planId receipt) :
    db.receipts.any
      (ReceiptRow.isAt planId receipt.taskId receipt.attemptId) = true := by
  obtain ⟨row, identity, hrow, -⟩ := h
  apply Db.receipt?_any
  rw [hrow]
  rfl

/-- A receipt that is stored is what reading it answers. -/
theorem Db.Stores.read {receipt : VerifiedReceipt}
    (h : db.Stores planId receipt) :
    (readVerifiedReceiptStatement planId receipt.taskId receipt.attemptId :
      DbTxn VerifiedReceipt) db = .ok (receipt, db) :=
  readVerifiedReceiptStatement_ok.2 ⟨h, rfl⟩

/-- `SameVerifiedReceipt` compares every field. -/
private theorem sameVerifiedReceipt_iff {left right : VerifiedReceipt} :
    sameVerifiedReceipt left right = true ↔ left = right := by
  obtain ⟨t, a, e, tp, fp, c, sd, td, si⟩ := left
  obtain ⟨t', a', e', tp', fp', c', sd', td', si'⟩ := right
  simp [sameVerifiedReceipt, and_assoc]

-- ============================================== the body, when it succeeds

/-- A receipt that passes the checks of `PersistVerifiedReceipt`. -/
theorem checkReceipt_ok {receipt : VerifiedReceipt} {source : Digest}
    {identity : FileIdentity}
    (h : Repository.checkReceipt planId receipt = .ok (source, identity)) :
    checkIds planId receipt.taskId = .ok ()
      ∧ checkEpochAttempt receipt.ownerEpoch receipt.attemptId = .ok ()
      ∧ receipt.sourceDigest = some source
      ∧ receipt.sourceIdentity = some identity := by
  unfold Repository.checkReceipt at h
  cases hids : checkIds planId receipt.taskId with
  | error e =>
      rw [hids] at h
      cases h
  | ok _ =>
  cases hargs : checkEpochAttempt receipt.ownerEpoch receipt.attemptId with
  | error e =>
      rw [hids, hargs] at h
      cases h
  | ok _ =>
  rw [hids, hargs] at h
  refine ⟨rfl, rfl, ?_⟩
  cases hs : receipt.sourceDigest with
  | none =>
      rw [hs] at h
      cases h
  | some source' =>
  cases hi : receipt.sourceIdentity with
  | none =>
      rw [hs, hi] at h
      cases h
  | some identity' =>
      rw [hs, hi] at h
      by_cases hpaths : receipt.tempPath.isEmpty = false
          ∧ receipt.finalPath.isEmpty = false
      · by_cases hsize : receipt.contentSize.toNat ≤ int64Max
        · simp only [require, if_pos hpaths, if_pos hsize] at h
          cases h
          exact ⟨rfl, rfl⟩
        · simp only [require, if_pos hpaths, if_neg hsize] at h
          cases h
      · simp only [require, if_neg hpaths] at h
        cases h

/-- The row stored for a receipt reads back as it. -/
theorem receiptRow_toReceipt {receipt : VerifiedReceipt} {source : Digest}
    {identity : FileIdentity} (hs : receipt.sourceDigest = some source)
    (hi : receipt.sourceIdentity = some identity) :
    (receiptRow planId receipt source identity).toReceipt identity
      = receipt := by
  obtain ⟨t, a, e, tp, fp, c, sd, td, si⟩ := receipt
  simp only at hs hi
  subst hs hi
  rfl

/-- After a body that succeeded the tables hold the receipt, whichever
branch it took. -/
theorem persistBody_stores {receipt : VerifiedReceipt} {source : Digest}
    {identity : FileIdentity} {batched : Option Nat} {u : Unit}
    (hcheck : Repository.checkReceipt planId receipt = .ok (source, identity))
    (h : (persistVerifiedReceiptBody planId receipt source identity batched :
      DbTxn Unit) db = .ok (u, db')) : db'.Stores planId receipt := by
  obtain ⟨-, hargs, hs, hi⟩ := checkReceipt_ok hcheck
  obtain ⟨-, -, ⟨-, rfl, existing, hread, hsame⟩ | ⟨hnew, -, -, rfl⟩⟩ :=
    persistVerifiedReceiptBody_ok.1 h
  · obtain ⟨hfound, -⟩ := readVerifiedReceiptStatement_ok.1 hread
    rw [sameVerifiedReceipt_iff.1 hsame] at hfound
    exact hfound
  · refine ⟨receiptRow planId receipt source identity, identity, ?_, ?_,
      decodeIdentity_encodeIdentity identity,
      (receiptRow_toReceipt hs hi).symm⟩
    · show ((db.receipts ++ [receiptRow planId receipt source
        identity]).find? (ReceiptRow.isAt planId receipt.taskId
          receipt.attemptId)) = _
      have hnone : db.receipts.find? (ReceiptRow.isAt planId receipt.taskId
          receipt.attemptId) = none := by
        rw [List.find?_eq_none]
        intro row hrow
        exact List.any_eq_false.1 hnew row hrow
      rw [List.find?_append, hnone]
      simp [receiptRow, ReceiptRow.isAt]
    · show receipt.ownerEpoch ≠ 0
      have hpos := checkEpochAttempt_pos hargs
      omega

-- ============================================ following and resting

/-- A query. -/
private theorem follows_select {α : Type} (operation : String) (f : Db → α) :
    Follows (select operation f : RepoM α) (select operation f : DbTxn α) :=
  .select _ f

/-- A statement that writes. -/
private theorem follows_write {α : Type} (operation : String)
    (f : Db → Except Status (α × Db)) :
    Follows (write operation f : RepoM α) (write operation f : DbTxn α) :=
  .write _ _ f

/-- A condition that is tested. -/
private theorem follows_require (p : Prop) [Decidable p] (error : Status) :
    Follows (require p error : RepoM Unit) (require p error : DbTxn Unit) :=
  .ite (fun _ => .pure ()) fun _ => .throw error

/-- Reading a receipt. -/
theorem follows_readVerifiedReceiptStatement
    (planId taskId attemptId : Bytes) :
    Follows
      (readVerifiedReceiptStatement planId taskId attemptId :
        RepoM VerifiedReceipt)
      (readVerifiedReceiptStatement planId taskId attemptId :
        DbTxn VerifiedReceipt) := by
  unfold readVerifiedReceiptStatement
  refine .bind (follows_select _ _) fun row? => ?_
  cases row? with
  | none => exact .throw _
  | some row =>
      refine .bind (follows_require _ _) fun _ => ?_
      cases decodeIdentity row.sourceIdentity with
      | error e => exact .throw e
      | ok identity => exact .pure _

/-- The check of who owns a task. -/
theorem follows_checkTaskOwnership (planId taskId : Bytes) (epoch : Nat)
    (attemptId : Bytes) :
    Follows (checkTaskOwnership planId taskId epoch attemptId : RepoM Unit)
      (checkTaskOwnership planId taskId epoch attemptId : DbTxn Unit) := by
  unfold checkTaskOwnership
  refine .bind (follows_select _ _) fun row? => ?_
  cases row? with
  | none => exact .throw _
  | some row =>
      exact .bind (follows_require _ _) fun _ => follows_require _ _

/-- Storing a receipt. -/
theorem follows_persistVerifiedReceiptBody (receipt : VerifiedReceipt)
    (source : Digest) (identity : FileIdentity) (epoch : Nat) :
    Follows
      (persistVerifiedReceiptBody planId receipt source identity
        (some epoch) : RepoM Unit)
      (persistVerifiedReceiptBody planId receipt source identity
        (some epoch) : DbTxn Unit) := by
  unfold persistVerifiedReceiptBody
  refine .bind (.pure epoch) fun _ => ?_
  refine .bind (follows_require _ _) fun _ => ?_
  refine .bind (follows_checkTaskOwnership _ _ _ _) fun _ => ?_
  refine .bind (follows_write _ _) fun _ => ?_
  refine .ite (fun _ => ?_) fun _ => ?_
  · refine .bind (follows_readVerifiedReceiptStatement _ _ _) fun _ => ?_
    exact follows_require _ _
  · refine .bind ?_ fun _ => follows_write _ _
    exact .bind (follows_write _ _) fun _ => follows_require _ _

section Rests

variable {P : Db → Prop}

/-- A query. -/
private theorem rests_select {α : Type} (operation : String) (f : Db → α) :
    Rests P (fun _ => True) (select operation f : RepoM α) :=
  .select _ f

/-- A condition that is tested. -/
theorem rests_require (p : Prop) [Decidable p] (error : Status) :
    Rests P (fun _ => True) (require p error : RepoM Unit) := by
  unfold require
  by_cases hp : p
  · rw [if_pos hp]
    exact .pure trivial
  · rw [if_neg hp]
    exact .throw error

/-- The check of who owns a task. -/
theorem rests_checkTaskOwnership (planId taskId : Bytes) (epoch : Nat)
    (attemptId : Bytes) :
    Rests P (fun _ => True)
      (checkTaskOwnership planId taskId epoch attemptId : RepoM Unit) := by
  unfold checkTaskOwnership
  refine .bind (rests_select _ _) fun row? _ => ?_
  cases row? with
  | none => exact .throw _
  | some row =>
      exact .bind (rests_require _ _) fun _ _ => rests_require _ _

/-- Reading a receipt. -/
theorem rests_readVerifiedReceiptStatement
    (planId taskId attemptId : Bytes) :
    Rests P (fun _ => True)
      (readVerifiedReceiptStatement planId taskId attemptId :
        RepoM VerifiedReceipt) := by
  unfold readVerifiedReceiptStatement
  refine .bind (rests_select _ _) fun row? _ => ?_
  cases row? with
  | none => exact .throw _
  | some row =>
      refine .bind (rests_require _ _) fun _ _ => ?_
      cases decodeIdentity row.sourceIdentity with
      | error e => exact .throw e
      | ok identity => exact .pure trivial

/-- On tables that have a receipt under the key, persisting writes
nothing. -/
theorem rests_persistVerifiedReceiptBody (receipt : VerifiedReceipt)
    (source : Digest) (identity : FileIdentity) (epoch : Nat) :
    Rests (fun db => db.receipts.any (ReceiptRow.isAt planId receipt.taskId
        receipt.attemptId) = true) (fun _ => True)
      (persistVerifiedReceiptBody planId receipt source identity
        (some epoch) : RepoM Unit) := by
  unfold persistVerifiedReceiptBody
  refine .bind (Q := fun _ => True) (.pure trivial) fun _ _ => ?_
  refine .bind (rests_require _ _) fun _ _ => ?_
  refine .bind (rests_checkTaskOwnership _ _ _ _) fun _ _ => ?_
  refine .bind (Rests.write _ _ (a := 0) fun s hs => if_pos hs)
    fun n hn => ?_
  rw [if_pos hn]
  refine .bind (rests_readVerifiedReceiptStatement _ _ _) fun _ _ => ?_
  exact rests_require _ _

end Rests

-- ========================================================= one operation

variable {receipt : VerifiedReceipt}

/-- A joining body that succeeds is its inner run. -/
theorem orRollback_ok {α : Type} {body : RepoM α} {a : α}
    {repo repo' : Repo} (h : Session.orRollback body repo = (.ok a, repo')) :
    body repo = (.ok a, repo') := by
  unfold Session.orRollback at h
  cases hrun : body repo with
  | mk r repo₁ =>
      rw [hrun] at h
      cases r with
      | ok b => exact h
      | error e => cases h

/-- `PersistVerifiedReceipt` once its checks have passed. -/
theorem persist_eq {source : Digest} {identity : FileIdentity}
    (hcheck : Repository.checkReceipt planId receipt = .ok (source, identity))
    (repo : Repo) :
    (Repository.persistVerifiedReceipt planId receipt : RepoM Unit) repo
      = (match batchedEpochFor planId repo.memory with
        | none => bracket
            (persistVerifiedReceiptBody planId receipt source identity none)
        | some epoch => Session.orRollback
            (persistVerifiedReceiptBody planId receipt source identity
              (some epoch))) repo := by
  unfold Repository.persistVerifiedReceipt
  rw [hcheck]
  rfl

/-- A receipt that is accepted passed the checks and is in the tables
its client sees. -/
theorem persist_ok_stores {repo repo' : Repo}
    (h : (Repository.persistVerifiedReceipt planId receipt : RepoM Unit) repo
      = (.ok (), repo')) :
    (∃ source identity,
        Repository.checkReceipt planId receipt = .ok (source, identity))
      ∧ repo'.view.Stores planId receipt := by
  cases hcheck : Repository.checkReceipt planId receipt with
  | error e =>
      unfold Repository.persistVerifiedReceipt at h
      rw [hcheck] at h
      cases h
  | ok p =>
      obtain ⟨source, identity⟩ := p
      refine ⟨⟨source, identity, rfl⟩, ?_⟩
      rw [persist_eq hcheck] at h
      cases hb : batchedEpochFor planId repo.memory with
      | none =>
          rw [hb] at h
          obtain ⟨-, hbody, ht'⟩ := bracket_ok
            (realises_persistVerifiedReceiptBody planId receipt source
              identity none) h
          rw [Conn.view, ht']
          exact persistBody_stores hcheck hbody
      | some epoch =>
          rw [hb] at h
          obtain ⟨hbody, -⟩ := (follows_persistVerifiedReceiptBody receipt
            source identity epoch).ok (orRollback_ok h)
          exact persistBody_stores hcheck hbody

/-- `ReadVerifiedReceipt` on a connection that sees the receipt. -/
theorem read_stores {repo : Repo} (hq : repo.faults = [])
    (hkey : Repository.checkReceiptKey planId receipt.taskId
      receipt.attemptId = .ok ())
    (h : repo.view.Stores planId receipt) :
    (Repository.readVerifiedReceipt planId receipt.taskId
      receipt.attemptId : RepoM VerifiedReceipt) repo
        = (.ok receipt, repo) := by
  obtain ⟨row, identity, hrow, hepoch, hid, heq⟩ := h
  have hselect : (select "read verified receipt"
      (·.receipt? planId receipt.taskId receipt.attemptId) :
        RepoM (Option ReceiptRow)) repo = (.ok (some row), repo) := by
    show Session.select _ _ repo = _
    unfold Session.select
    rw [nextFault_quiet hq]
    simp only [hrow]
  unfold Repository.readVerifiedReceipt
  rw [hkey]
  show (readVerifiedReceiptStatement planId receipt.taskId
    receipt.attemptId : RepoM VerifiedReceipt) repo = _
  unfold readVerifiedReceiptStatement
  rw [bind_apply, hselect]
  simp only [bind_apply, require, if_pos hepoch, pure_apply, hid]
  rw [heq]
  rfl

/-- The checks of a receipt begin with those of its key. -/
theorem checkReceipt_key {source : Digest} {identity : FileIdentity}
    (h : Repository.checkReceipt planId receipt = .ok (source, identity)) :
    Repository.checkReceiptKey planId receipt.taskId receipt.attemptId
      = .ok () := by
  obtain ⟨hids, hargs, -⟩ := checkReceipt_ok h
  have hattempt : receipt.attemptId.isEmpty = false
      ∧ hasNul receipt.attemptId = false := by
    unfold checkEpochAttempt at hargs
    split at hargs
    · cases hargs
    · next hbad =>
      simp only [Bool.or_eq_true, not_or, Bool.not_eq_true] at hbad
      exact ⟨hbad.1.2, hbad.2⟩
  unfold Repository.checkReceiptKey
  rw [hids]
  show (require _ _ : Except Status Unit) = _
  unfold require
  rw [if_pos hattempt]
  rfl

/-- Persisting another receipt under a key that has one fails and writes
nothing. -/
theorem persist_conflict {repo : Repo} {other : VerifiedReceipt}
    (h : repo.view.Stores planId receipt)
    (ht : other.taskId = receipt.taskId)
    (ha : other.attemptId = receipt.attemptId) (hne : other ≠ receipt) :
    ∃ e repo', (Repository.persistVerifiedReceipt planId other :
        RepoM Unit) repo = (.error e, repo')
      ∧ repo'.committed = repo.committed := by
  cases hrun : (Repository.persistVerifiedReceipt planId other :
      RepoM Unit) repo with
  | mk r repo' =>
  cases hcheck : Repository.checkReceipt planId other with
  | error e =>
      unfold Repository.persistVerifiedReceipt at hrun
      rw [hcheck] at hrun
      cases hrun
      exact ⟨e, repo, rfl, rfl⟩
  | ok p =>
      obtain ⟨source, identity⟩ := p
      have hany : repo.view.receipts.any
          (ReceiptRow.isAt planId other.taskId other.attemptId) = true := by
        rw [ht, ha]
        exact h.any
      -- the body would have to find the two receipts equal
      have hbody : ∀ batched u db', (persistVerifiedReceiptBody planId other
          source identity batched : DbTxn Unit) repo.view
            ≠ .ok (u, db') := by
        intro batched u db' hok
        obtain ⟨-, -, ⟨-, -, existing, hread, hsame⟩ | ⟨hnew, -⟩⟩ :=
          persistVerifiedReceiptBody_ok.1 hok
        · rw [ht, ha, h.read] at hread
          cases hread
          exact hne (sameVerifiedReceipt_iff.1 hsame).symm
        · rw [hany] at hnew
          cases hnew
      rw [persist_eq hcheck] at hrun
      cases hb : batchedEpochFor planId repo.memory with
      | none =>
          rw [hb] at hrun
          have hreal := realises_persistVerifiedReceiptBody planId other
            source identity none
          cases r with
          | ok u =>
              obtain ⟨ht', hok, -⟩ := bracket_ok hreal hrun
              have hview : repo.view = repo.committed := by
                rw [Conn.view, ht']
                rfl
              rw [← hview] at hok
              exact absurd hok (hbody none u _)
          | error e => exact ⟨e, repo', rfl, bracket_error hreal hrun⟩
      | some epoch =>
          rw [hb] at hrun
          cases r with
          | ok u =>
              obtain ⟨hok, -⟩ := (follows_persistVerifiedReceiptBody other
                source identity epoch).ok (orRollback_ok hrun)
              exact absurd hok (hbody (some epoch) u _)
          | error e =>
              refine ⟨e, repo', rfl, ?_⟩
              obtain ⟨-, hsame⟩ := (rests_persistVerifiedReceiptBody other
                source identity epoch).still hany
              simp only [Session.orRollback] at hrun
              cases hbrun : (persistVerifiedReceiptBody planId other source
                  identity (some epoch) : RepoM Unit) repo with
              | mk r₁ repo₁ =>
                  rw [hbrun] at hrun hsame
                  cases r₁ with
                  | ok u => cases hrun
                  | error e₁ =>
                      cases hrun
                      exact hsame.committed

/-- Persisting the receipt again changes nothing. -/
theorem persist_replay {source : Digest} {identity : FileIdentity}
    {batched : Option Nat}
    (hepoch : EpochIs batched db planId receipt.ownerEpoch)
    (hholds : db.Holds planId receipt.taskId receipt.attemptId
      receipt.ownerEpoch)
    (h : db.Stores planId receipt) :
    (persistVerifiedReceiptBody planId receipt source identity batched :
      DbTxn Unit) db = .ok ((), db) :=
  persistVerifiedReceiptBody_ok.2 ⟨hepoch, hholds, .inl ⟨h.any, rfl,
    receipt, h.read, sameVerifiedReceipt_iff.2 rfl⟩⟩

-- ============================================================ all runs

/-- An accepted receipt passed the checks and is in the tables its client
sees next. -/
theorem persist_step_ok
    (h : (σ.step i (.call (.persistVerifiedReceipt planId receipt))
      faults).1 = .ok .done) :
    (∃ source identity,
        Repository.checkReceipt planId receipt = .ok (source, identity))
      ∧ ((σ.step i (.call (.persistVerifiedReceipt planId receipt))
          faults).2.view i).Stores planId receipt := by
  cases hrun : (Repository.persistVerifiedReceipt planId receipt :
      RepoM Unit) (σ.repo i faults) with
  | mk r repo =>
      have hstep := Store.step_eq
        (.call (.persistVerifiedReceipt planId receipt)) (answer_run hrun)
      rw [hstep] at h ⊢
      cases r with
      | error e => cases h
      | ok u =>
          obtain ⟨hcheck, hstores⟩ := persist_ok_stores hrun
          refine ⟨hcheck, ?_⟩
          show ((σ.put i repo _).view i).Stores planId receipt
          rw [Store.put_view]
          exact hstores

/-- A client that sees the receipt reads it. -/
theorem read_step {source : Digest} {identity : FileIdentity}
    (hcheck : Repository.checkReceipt planId receipt = .ok (source, identity))
    (h : (σ.view i).Stores planId receipt) :
    (σ.step i (.call (.readVerifiedReceipt planId receipt.taskId
      receipt.attemptId)) []).1 = .ok (.receipt receipt) := by
  have hview : (σ.repo i []).view.Stores planId receipt := by
    rw [Store.repo_view]
    exact h
  have hrun := read_stores rfl (checkReceipt_key hcheck) hview
  rw [Store.step_eq (.call (.readVerifiedReceipt planId receipt.taskId
    receipt.attemptId)) (answer_run hrun)]
  rfl

/-- Whoever's tables descend from a version that holds the receipt sees
it. -/
theorem Moment.Reached.sees {m : Moment} {version : Db}
    (hrun : m.Reached rule db) (hmem : version ∈ m.seenBy i)
    (h : version.Stores planId receipt) :
    (m.store.view i).Stores planId receipt := by
  obtain ⟨hchain, hhead⟩ := hrun.traced.seenBy_chain i
  exact isChain_newest (fun hm h => Db.Stores.moved hm h) hchain hmem h _
    hhead

/-- The versions a client sees include the committed ones. -/
theorem Moment.committed_seenBy {m : Moment} {version : Db}
    (h : version ∈ m.past.committed) (i : Nat) : version ∈ m.seenBy i := by
  unfold Moment.seenBy
  cases m.store.writer with
  | none => exact h
  | some w =>
      obtain ⟨j, s⟩ := w
      by_cases hj : j = i
      · simp only [if_pos hj]
        exact List.mem_append_right _ h
      · simp only [if_neg hj]
        exact h

/-- A client that can write persists the receipt again without a
trace. -/
theorem replay_step {source : Digest} {identity : FileIdentity}
    (hcheck : Repository.checkReceipt planId receipt = .ok (source, identity))
    (h : (σ.view i).Stores planId receipt)
    (hholds : (σ.view i).Holds planId receipt.taskId receipt.attemptId
      receipt.ownerEpoch)
    (hcan : σ.CanWrite i planId receipt.ownerEpoch) :
    let out := σ.step i (.call (.persistVerifiedReceipt planId receipt)) []
    out.1 = .ok .done ∧ out.2.view i = σ.view i
      ∧ out.2.committed = σ.committed := by
  have hrule : ∃ repo', (Repository.persistVerifiedReceipt planId receipt :
      RepoM Unit) (σ.repo i []) = (.ok (), repo')
        ∧ repo'.view = σ.view i ∧ repo'.committed = σ.committed := by
    rw [persist_eq hcheck]
    obtain ⟨hw, hb, hcur⟩ | ⟨s, hw, hb⟩ := hcan
    · -- in a transaction of its own
      have ht : (σ.repo i []).txn = none := by
        simp only [Store.repo, hw]
      have hfree : (σ.repo i []).busy = false := by
        simp only [Store.repo, hw]
      have hv : σ.view i = σ.committed := by
        simp only [Store.view, hw]
      rw [hv] at h hholds
      rw [show (σ.repo i []).memory = σ.batches i from rfl, hb]
      have hreal := realises_persistVerifiedReceiptBody planId receipt source
        identity none
      have hbracket : Atomic (fun _ => True) (bracket
          (persistVerifiedReceiptBody planId receipt source identity none))
            (persistVerifiedReceiptBody planId receipt source identity
              none) := .atomically hreal
      have hans := (hbracket.quiet ht trivial rfl hfree).1
      -- the receipt is there, so the body changes nothing
      have hbody : (persistVerifiedReceiptBody planId receipt source
          identity none : DbTxn Unit) σ.committed = .ok ((), σ.committed) :=
        persist_replay hcur hholds h
      rw [show (σ.repo i []).committed = σ.committed from rfl, hbody] at hans
      refine ⟨_, Prod.ext hans rfl, ?_⟩
      obtain ⟨-, hdone, htxn⟩ := bracket_ok hreal (Prod.ext hans rfl)
      rw [show (σ.repo i []).committed = σ.committed from rfl, hbody] at hdone
      have hdb := (Prod.mk.inj (Except.ok.inj hdone)).2.symm
      refine ⟨?_, hdb⟩
      rw [hv, Conn.view, htxn]
      exact hdb
    · -- inside the batch
      have ht := Store.repo_txn_self hw []
      have hv : σ.view i = s := by
        simp only [Store.view, hw, if_true]
      rw [hv] at h hholds
      rw [show (σ.repo i []).memory = σ.batches i from rfl, hb]
      have hreal := realises_persistVerifiedReceiptBody planId receipt source
        identity (some receipt.ownerEpoch)
      have hbody : (persistVerifiedReceiptBody planId receipt source
          identity (some receipt.ownerEpoch) : DbTxn Unit) s
            = .ok ((), s) := persist_replay rfl hholds h
      have hans := (hreal.quiet ht rfl).2
      rw [hbody] at hans
      obtain ⟨s', hdone, htxn, hsame⟩ := hreal.ok ht (Prod.ext hans rfl)
      rw [hbody] at hdone
      cases hdone
      refine ⟨_, ?_, ?_, hsame.committed⟩
      · show Session.orRollback _ _ = _
        unfold Session.orRollback
        cases hrun : (persistVerifiedReceiptBody planId receipt source
            identity (some receipt.ownerEpoch) : RepoM Unit)
              (σ.repo i []) with
        | mk r repo₁ =>
            rw [hrun] at hans
            simp only at hans
            subst hans
            rfl
      · rw [hv, Conn.view, htxn]
        rfl
  obtain ⟨repo', hrun, hview, hdb⟩ := hrule
  rw [Store.step_eq (.call (.persistVerifiedReceipt planId receipt))
    (answer_run hrun)]
  refine ⟨rfl, ?_, hdb⟩
  show (σ.put i repo' _).view i = _
  rw [Store.put_view]
  exact hview

/-- Receipts are exact and immutable, whatever the clients do. -/
theorem receiptsExact_anyCall : ReceiptsExact anyCall where
  immediate := by
    intro db m hrun i planId receipt faults _ persist hrule hok
    obtain ⟨⟨source, identity, hcheck⟩, hstores⟩ := persist_step_ok hok
    exact read_step hcheck hstores
  forever := by
    intro db m m' m'' hrun i j planId receipt faults _ persist hrule hok
      hleads hmem hleads'
    obtain ⟨⟨source, identity, hcheck⟩, hstores⟩ := persist_step_ok hok
    have hrun'' : m''.Reached anyCall db :=
      ((hrun.tail (.act m i persist faults hrule)).trans hleads).trans hleads'
    have hmem'' := Moment.committed_seenBy (hleads'.grows.mem hmem) j
    exact read_step hcheck (hrun''.sees hmem'' hstores)
  committed_alone := by
    intro db m hrun i planId receipt faults persist hrule hfree hok
    have hrun₁ : (m.act i persist faults).Reached anyCall db :=
      hrun.tail (.act m i persist faults hrule)
    have hview : (m.act i persist faults).store.view i
        = (m.act i persist faults).store.committed := by
      -- a call opens no transaction that it does not close
      obtain ⟨s, hw, -⟩ | ⟨ht, ho, -⟩ := m.store.repo_cases i faults
      · exact absurd hw (hfree s)
      · have hclosed := ((call_moved (.persistVerifiedReceipt planId
          receipt)).outside ht).1
        show ((m.store.put i _ _).view i) = _
        rw [Store.put_view, Conn.view]
        exact (congrArg (fun t => Option.getD t _) hclosed).trans rfl
    rw [hview]
    exact List.mem_of_mem_head? hrun₁.traced.present
  committed_batch := by
    intro db m hrun i faults hok version hmem
    have hpub : (m.act i .commitWriteBatch faults).past.committed
        = m.past.working ++ m.past.committed := by
      show (Lineage.next _ _ _ (Event.publishes (.acted i .commitWriteBatch
        (m.store.step i .commitWriteBatch faults).1))).committed = _
      rw [hok]
      rfl
    rw [hpub]
    unfold Moment.seenBy at hmem
    cases hw : m.store.writer with
    | none =>
        rw [hw] at hmem
        exact List.mem_append_right _ hmem
    | some w =>
        obtain ⟨j, s⟩ := w
        rw [hw] at hmem
        by_cases hj : j = i
        · simp only [if_pos hj] at hmem
          exact hmem
        · simp only [if_neg hj] at hmem
          exact List.mem_append_right _ hmem
  replay := by
    intro db m m' hrun i j planId receipt faults _ persist hrule hok hleads
      hmem howned hcan
    obtain ⟨⟨source, identity, hcheck⟩, hstores⟩ := persist_step_ok hok
    have hrun' : m'.Reached anyCall db :=
      (hrun.tail (.act m i persist faults hrule)).trans hleads
    have hview := hrun'.sees hmem hstores
    have hholds : (m'.store.view j).Holds planId receipt.taskId
        receipt.attemptId receipt.ownerEpoch := by
      obtain ⟨row, hrow, hown⟩ := (Option.any_eq_true _ _).1 howned
      obtain ⟨-, he, ha, hs⟩ := TaskRow.isOwnedBy_iff.1 hown
      exact ⟨row, hrow, hs, he, ha⟩
    exact replay_step hcheck hview hholds hcan
  conflict := by
    intro db m m' hrun i j planId receipt other faults faults' _ persist
      hrule hok hleads hmem ht ha hne
    obtain ⟨-, hstores⟩ := persist_step_ok hok
    have hrun' : m'.Reached anyCall db :=
      (hrun.tail (.act m i persist faults hrule)).trans hleads
    have hview : (m'.store.repo j faults').view.Stores planId receipt := by
      rw [Store.repo_view]
      exact hrun'.sees hmem hstores
    obtain ⟨e, repo', hrun₁, hdb⟩ := persist_conflict hview ht ha hne
    rw [Store.step_eq (.call (.persistVerifiedReceipt planId other))
      (answer_run hrun₁)]
    exact ⟨⟨e, rfl⟩, hdb⟩

-- ========================================== receipts lost and fenced off

/-- A moment after a list of actions without faults. -/
def Moment.after (m : Moment) (actions : List (Nat × Action)) : Moment :=
  actions.foldl (fun m a => m.act a.1 a.2 []) m

/-- Any actions lead from a moment to the one after them. -/
theorem Moment.leads_after (m : Moment) (actions : List (Nat × Action)) :
    m.Leads anyCall (m.after actions) := by
  induction actions generalizing m with
  | nil => exact .refl
  | cons head rest ih =>
      exact .head (.act m head.1 head.2 [] trivial) (ih _)

/-- A receipt for the attempt `a` of `plannedTask`. -/
def plannedReceipt : VerifiedReceipt where
  taskId := text "t"
  attemptId := text "a"
  ownerEpoch := 1
  tempPath := text ".x.pbtmp"
  finalPath := text "f"
  contentSize := 3
  sourceDigest := some .zero
  targetDigest := .zero
  sourceIdentity := some ⟨1, 2, 3, -4, 5, none⟩

/-- The task is claimed as attempt `a` under epoch 1. -/
def runningHistory : List (Nat × Action) :=
  [(0, .call (.acquireNextExecutionEpoch (text "p"))),
    (0, .call (.addTask (text "p") plannedTask)),
    (0, .call (.setReady (text "p") (text "t"))),
    (0, .call (.claimNextReady (text "p") 1 (some (text "a"))))]

/-- A receipt accepted in a batch is gone once the batch is rolled back,
and an equal one is refused after a later epoch was granted, although the
task is still owned under the old one. -/
theorem not_receipts_absolute :
    (¬∀ {db : Db} {m m' : Moment}, m.Reached anyCall db →
      ∀ (i j : Nat) (planId : Bytes) (receipt : VerifiedReceipt),
      let persist := Action.call (.persistVerifiedReceipt planId receipt)
      (m.store.step i persist []).1 = .ok .done →
      (m.act i persist []).Leads anyCall m' →
      (m'.store.step j
          (.call (.readVerifiedReceipt planId receipt.taskId
            receipt.attemptId)) []).1 = .ok (.receipt receipt))
    ∧ ¬∀ {db : Db} {m m' : Moment}, m.Reached anyCall db →
      ∀ (i j : Nat) (planId : Bytes) (receipt : VerifiedReceipt),
      let persist := Action.call (.persistVerifiedReceipt planId receipt)
      (m.store.step i persist []).1 = .ok .done →
      (m.act i persist []).Leads anyCall m' →
      m'.store.writer = none → m'.store.batches j = none →
      (m'.store.committed.task? planId receipt.taskId).any
        (TaskRow.isOwnedBy planId receipt.taskId receipt.ownerEpoch
          receipt.attemptId) = true →
      (m'.store.step j persist []).1 = .ok .done := by
  constructor
  · intro h
    let m := ((Moment.start plannedDb).after runningHistory).after
      [(0, .beginWriteBatch (text "p") 1)]
    have hrun : m.Reached anyCall plannedDb :=
      (Moment.leads_after _ _).trans (Moment.leads_after _ _)
    have hok : (m.store.step 0 (.call (.persistVerifiedReceipt (text "p")
        plannedReceipt)) []).1 = .ok .done := by decide
    have hread := h hrun 0 0 (text "p") plannedReceipt hok
      (Moment.leads_after _ [(0, .rollbackWriteBatch)])
    have hgone : (((m.act 0 (.call (.persistVerifiedReceipt (text "p")
        plannedReceipt)) []).after [(0, .rollbackWriteBatch)]).store.step 0
          (.call (.readVerifiedReceipt (text "p") plannedReceipt.taskId
            plannedReceipt.attemptId)) []).1
              = .error (.notFound "verified receipt was not found") := by
      decide
    rw [hread] at hgone
    cases hgone
  · intro h
    let m := (Moment.start plannedDb).after runningHistory
    have hrun : m.Reached anyCall plannedDb := Moment.leads_after _ _
    have hok : (m.store.step 0 (.call (.persistVerifiedReceipt (text "p")
        plannedReceipt)) []).1 = .ok .done := by decide
    have hreplay := h hrun 0 0 (text "p") plannedReceipt hok
      (Moment.leads_after _
        [(1, .call (.acquireNextExecutionEpoch (text "p")))])
      (by decide) (by decide) (by decide)
    have hstale : (((m.act 0 (.call (.persistVerifiedReceipt (text "p")
        plannedReceipt)) []).after
          [(1, .call (.acquireNextExecutionEpoch (text "p")))]).store.step 0
            (.call (.persistVerifiedReceipt (text "p") plannedReceipt))
              []).1 = .error (.invalid
                "stale executor epoch cannot persist a verified receipt") := by
      decide
    rw [hreplay] at hstale
    cases hstale

end PhotoBridge
