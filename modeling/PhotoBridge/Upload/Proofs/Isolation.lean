/-
The operations of the upload store among threads that do not reach into
each other's transactions: each does all of its effect at once, or
nothing.
-/
import PhotoBridge.Upload.Effects

namespace PhotoBridge.Upload

open Concurrent SharedConnection

section Isolation

variable {τ φ α : Type} [DecidableEq τ] {quiet : Bool}
  {outside : Effects storeCalls φ} {t : τ} {init a b : UploadDb}
  {effect : UploadDb → Option (α × UploadDb)}

private theorem updated_ok {p : Nat × UploadDb} {row : Unit} {n : Nat}
    (h : UploadQuery.updated p = .ok (row, n, b)) : p = (n, b) := by
  cases h
  rfl

-- ========================================================== shared tails

theorem sqliteError_bind {β : Type} (operation : String) (k : Status → StoreM β) :
    (sqliteError operation >>= k)
      = .call (.inl .errmsg) fun message => k (.sqlite operation message) := rfl

/-- An error made of SQLite's message or of a text. -/
inductive Reports : StoreM Status → Prop
  | pure (e : Status) : Reports (pure e)
  | sqlite (operation : String) : Reports (sqliteError operation)

/-- Reporting an error changes nothing. -/
theorem correct_report {error : StoreM Status} (h : Reports error) :
    Correct uploadStatements quiet outside t init
      (SharedConnection.Idle t)
      (error >>= fun e => pure (.error e))
      (Isolated init effect t (φ := φ)) := by
  cases h with
  | pure e => exact .done Idle.stable fun w _ hidle => hidle.isolated
  | sqlite operation =>
      rw [sqliteError_bind]
      refine .aside (.inr (.inl rfl)) Idle.isPrivate fun message => ?_
      exact .done Idle.stable fun w _ hidle => hidle.isolated

/-- A failed operation that rolls back has done nothing. -/
private theorem correct_rolledBack {error : StoreM Status} (h : Reports error) :
    Correct uploadStatements quiet outside t init (Held t) (rolledBack error)
      (Isolated init effect t (φ := φ)) :=
  .rollback fun _ => correct_report h

private theorem own_rolledBack {error : StoreM Status} (h : Reports error) :
    Correct uploadStatements quiet outside t init (Own t a b) (rolledBack error)
      (Isolated init effect t (φ := φ)) :=
  (correct_rolledBack h).weaken fun _ _ hown => .inl ⟨a, b, hown⟩

/-- A test, by its two branches. -/
theorem correct_ite {p : Prop} [Decidable p] {x y : StoreM α}
    {pre : Shared τ UploadDb φ → Prop}
    {post : α → Shared τ UploadDb φ → Prop}
    (hx : p → Correct uploadStatements quiet outside t init pre x post)
    (hy : ¬p → Correct uploadStatements quiet outside t init pre y post) :
    Correct uploadStatements quiet outside t init pre (if p then x else y)
      post := by
  by_cases hp : p
  · rw [if_pos hp]
    exact hx hp
  · rw [if_neg hp]
    exact hy hp

/-- `result == SQLITE_DONE && changes == 1` of a step that was done. -/
theorem one_changed {n : Nat}
    (h : ¬(!(Except.ok () : Except Bytes Unit).isOk || n != 1) = true) :
    n = 1 := by
  by_cases hone : n = 1
  · exact hone
  · exact absurd (Bool.or_eq_true_iff.2 (.inr (bne_iff_ne.2 hone))) h

/-- An operation that commits has done its effect. -/
theorem correct_committing {v : α} (hv : effect a = some (v, b)) :
    Correct uploadStatements quiet outside t init (Own t a b) (committing v)
      (Isolated init effect t (φ := φ)) := by
  refine .commit ?_ fun message => ?_
  · exact .done Ended.stable fun w _ hended => hended.isolated hv
  · refine .rollback fun _ => ?_
    exact .done Idle.stable fun w _ hidle => hidle.isolated

/-- An operation that only looked answers what was so. -/
theorem correct_looked {v : α} (hv : effect a = some (v, a)) :
    Correct uploadStatements quiet outside t init (Own t a a)
      (execRollback >>= fun _ => pure (.ok v : Except Status α))
      (Isolated init effect t (φ := φ)) := by
  refine .seen (fun w hkept hown => hown.seen hkept) ?_
  have hrollback : Correct uploadStatements quiet outside t init (Held t)
      (execRollback >>= fun _ => pure (.ok v : Except Status α))
      fun r w => w.Seen init a → Isolated init effect t (φ := φ) r w := by
    refine .rollback fun _ => ?_
    exact .done Idle.stable fun w _ hidle hseen => hidle.isolated_ok hv hseen
  exact hrollback.weaken fun w _ hown => .inl ⟨a, a, hown⟩

-- ============================================================ operations

/-- `BeginUpload` once it has seen that the file can be taken. -/
theorem beginUpload_started {sessionId fileId : Bytes}
    {effect : UploadDb → Option (BeginUploadResult × UploadDb)}
    (h : (a.begin_ sessionId fileId).1 = 1 →
      effect a = some (.started, (a.begin_ sessionId fileId).2)) :
    Correct uploadStatements quiet outside t init (Own t a a)
      (do
        match ← prepare with
        | some _ => rolledBack (sqliteError "prepare begin upload")
        | none => do
            let result ← step (.beginUpload sessionId fileId)
            let changed ← changes
            if !result.isOk || changed != 1 then
              rolledBack (sqliteError "begin upload")
            else committing .started)
      (Isolated init effect t (φ := φ)) := by
  refine .aside (.inl rfl) Own.isPrivate fun prepared => ?_
  cases prepared with
  | some _ => exact own_rolledBack (.sqlite _)
  | none =>
  refine .stepWrite rfl (fun row n b hrun => ?_) fun message => ?_
  · have htaken : a.begin_ sessionId fileId = (n, b) := updated_ok hrun
    rw [htaken] at h
    refine .changes (correct_ite (fun _ => own_rolledBack (.sqlite _)) ?_)
    intro htest
    have hone := one_changed htest
    subst hone
    exact correct_committing (h rfl)
  · refine .aside (.inr (.inr (.inl rfl))) Held.isPrivate fun changed => ?_
    exact correct_rolledBack (.sqlite _)

private theorem beginUpload_isolated (sessionId fileId : Bytes) :
    Correct uploadStatements quiet outside t init
      (SharedConnection.Idle t)
      (beginUpload sessionId fileId)
      (Isolated init (UploadDb.beginUpload sessionId fileId) t (φ := φ)) := by
  refine .begin (fun a => ?_) fun message => ?_
  · refine .aside (.inl rfl) Own.isPrivate fun prepared => ?_
    cases prepared with
    | some _ => exact own_rolledBack (.sqlite _)
    | none =>
    refine .stepRead rfl (fun row n hrun => ?_) fun _ => correct_rolledBack (.pure _)
    cases hrun
    cases hfile : a.file? sessionId fileId with
    | none => exact own_rolledBack (.pure _)
    | some file =>
    simp only [Option.map_some]
    cases hstate : file.state with
    | received =>
        refine correct_looked ?_
        simp only [UploadDb.beginUpload, hfile, hstate]
    | receiving =>
        refine correct_looked ?_
        simp only [UploadDb.beginUpload, hfile, hstate]
    | pending =>
        refine beginUpload_started fun hone => ?_
        simp only [UploadDb.beginUpload, hfile, hstate, if_pos hone]
    | failed =>
        refine beginUpload_started fun hone => ?_
        simp only [UploadDb.beginUpload, hfile, hstate, if_pos hone]
  · exact .done Idle.stable fun w _ hidle => hidle.isolated

private theorem markUploadFailed_isolated (sessionId fileId : Bytes) :
    Correct uploadStatements quiet outside t init
      (SharedConnection.Idle t)
      (markUploadFailed sessionId fileId)
      (Isolated init (UploadDb.markUploadFailed sessionId fileId) t
        (φ := φ)) := by
  refine .aside (.inl rfl) Idle.isPrivate fun prepared => ?_
  cases prepared with
  | some _ => exact correct_report (.sqlite _)
  | none =>
  refine .stepAlone rfl (fun row n a b hrun => ?_) fun message => ?_
  · have hmarked : a.markFailed sessionId fileId = (n, b) := updated_ok hrun
    refine .done Ended.stable fun w _ hended => hended.isolated ?_
    simp only [UploadDb.markUploadFailed, hmarked]
  · exact correct_report (.sqlite _)

/-- The second half of `CommitUpload`. -/
theorem commitUpload_progress {sessionId : Bytes}
    {effect : UploadDb → Option (Unit × UploadDb)}
    (h : ∀ p, b.updateProgress sessionId = .ok p →
      effect a = some ((), p.2)) :
    Correct uploadStatements quiet outside t init (Own t a b)
      (do
        match ← prepare with
        | some _ => rolledBack (sqliteError "prepare session progress update")
        | none =>
        match ← step (.updateProgress sessionId) with
        | .error _ => rolledBack (sqliteError "update session progress")
        | .ok _ => committing ())
      (Isolated init effect t (φ := φ)) := by
  refine .aside (.inl rfl) Own.isPrivate fun prepared => ?_
  cases prepared with
  | some _ => exact own_rolledBack (.sqlite _)
  | none =>
  refine .stepOwn (fun row n b' hrun => ?_) fun _ =>
    correct_rolledBack (.sqlite _)
  have hupdated : ∃ p, b.updateProgress sessionId = .ok p ∧ p.2 = b' := by
    have hrun' : (b.updateProgress sessionId).map
        (fun p => ((), p)) = .ok (row, n, b') := hrun
    cases hp : b.updateProgress sessionId with
    | error e =>
        rw [hp] at hrun'
        cases hrun'
    | ok p =>
        rw [hp] at hrun'
        cases hrun'
        exact ⟨_, rfl, rfl⟩
  obtain ⟨p, hp, rfl⟩ := hupdated
  exact correct_committing (h p hp)

private theorem commitUpload_isolated (sessionId fileId : Bytes)
    (receivedSize : UInt64) (serverDigest : Digest) :
    Correct uploadStatements quiet outside t init
      (SharedConnection.Idle t)
      (commitUpload sessionId fileId receivedSize serverDigest)
      (Isolated init (UploadDb.commitUpload sessionId fileId receivedSize
        serverDigest) t (φ := φ)) := by
  refine .begin (fun a => ?_) fun message => ?_
  · refine .aside (.inl rfl) Own.isPrivate fun prepared => ?_
    cases prepared with
    | some _ => exact own_rolledBack (.sqlite _)
    | none =>
    refine .stepWrite rfl (fun row n b hrun => ?_) fun message => ?_
    · have hreceived : a.receive sessionId fileId receivedSize.toInt64
          serverDigest = (n, b) := updated_ok hrun
      refine .changes (correct_ite (fun _ => own_rolledBack (.pure _)) ?_)
      intro htest
      have hone := one_changed htest
      subst hone
      refine commitUpload_progress fun p hp => ?_
      simp only [UploadDb.commitUpload, hreceived, if_true, hp]
    · refine .aside (.inr (.inr (.inl rfl))) Held.isPrivate fun changed => ?_
      exact correct_rolledBack (.pure _)
  · exact .done Idle.stable fun w _ hidle => hidle.isolated

private theorem completeSession_isolated (sessionId : Bytes) :
    Correct uploadStatements quiet outside t init
      (SharedConnection.Idle t)
      (completeSession sessionId)
      (Isolated init (UploadDb.completeSession sessionId) t (φ := φ)) := by
  refine .begin (fun a => ?_) fun message => ?_
  · refine .aside (.inl rfl) Own.isPrivate fun prepared => ?_
    cases prepared with
    | some _ => exact own_rolledBack (.sqlite _)
    | none =>
    refine .stepRead rfl (fun row n hrun => ?_) fun _ =>
      correct_rolledBack (.sqlite _)
    have hcounts : a.completion sessionId = row := by
      cases hrun
      rfl
    obtain ⟨fileCount, incompleteCount⟩ := row
    refine correct_ite (fun _ => own_rolledBack (.pure _)) fun hcount => ?_
    refine correct_ite (fun _ => own_rolledBack (.pure _)) fun hcomplete => ?_
    refine .aside (.inl rfl) Own.isPrivate fun prepared => ?_
    cases prepared with
    | some _ => exact own_rolledBack (.sqlite _)
    | none =>
    refine .stepWrite rfl (fun row n b hrun => ?_) fun message => ?_
    · have hcompleted : a.complete sessionId = (n, b) := updated_ok hrun
      refine .changes ?_
      refine correct_ite (fun _ => own_rolledBack (.pure _)) fun hzero => ?_
      refine correct_committing ?_
      simp only [UploadDb.completeSession, hcounts, hcompleted, hcount,
        hcomplete, hzero, or_self, if_false]
    · refine .aside (.inr (.inr (.inl rfl))) Held.isPrivate fun changed => ?_
      exact correct_rolledBack (.sqlite _)
  · exact .done Idle.stable fun w _ hidle => hidle.isolated

-- ========================================================= CreateSession

/-- The loop over the files: all of them inserted, or the transaction to
be rolled back. -/
theorem insertFiles_correct (rows : List UploadFileRow) :
    Correct uploadStatements quiet outside t init (Own t a b)
      (insertFiles rows) fun done w => match done with
        | true => ∃ b', b.insertAll rows = some b' ∧ Own t a b' w
        | false => Held t (φ := φ) w := by
  induction rows generalizing b with
  | nil => exact .done Own.stable fun w _ hown => ⟨b, rfl, hown⟩
  | cons row rest ih =>
      refine .stepOwn (fun answer n b₁ hrun => ?_) fun message => ?_
      · have hinserted : b.insertFile row = .ok b₁ := by
          have hrun' : UploadQuery.inserted (b.insertFile row)
              = .ok (answer, n, b₁) := hrun
          cases hdb : b.insertFile row with
          | error e =>
              rw [hdb] at hrun'
              cases hrun'
          | ok db =>
              rw [hdb] at hrun'
              cases hrun'
              rfl
        refine Triple.strengthen ih fun done w _ h => ?_
        cases done with
        | false => exact h
        | true =>
            obtain ⟨b', hb', hown⟩ := h
            refine ⟨b', ?_, hown⟩
            rw [UploadDb.insertAll, hinserted]
            exact hb'
      · exact .done Held.stable fun w _ hheld => hheld

/-- The last part of `CreateSession`: its files, and the commit. -/
theorem createSession_files {rows : List UploadFileRow} {session : UploadSession}
    {effect : UploadDb → Option (UploadSession × UploadDb)}
    (h : ∀ b', b.insertAll rows = some b' → effect a = some (session, b')) :
    Correct uploadStatements quiet outside t init (Own t a b)
      (do
        match ← prepare with
        | some _ => rolledBack (sqliteError "prepare file insert")
        | none =>
        if !(← insertFiles rows) then
          rolledBack (sqliteError "insert upload file")
        else
          committing session)
      (Isolated init effect t (φ := φ)) := by
  refine .aside (.inl rfl) Own.isPrivate fun prepared => ?_
  cases prepared with
  | some _ => exact own_rolledBack (.sqlite _)
  | none =>
  have hrest : Correct uploadStatements quiet outside t init (Own t a b)
      (insertFiles rows >>= fun done =>
        if !done then rolledBack (sqliteError "insert upload file")
        else committing session)
      (Isolated init effect t (φ := φ)) := by
    refine Triple.bind (insertFiles_correct rows) fun done => ?_
    cases done with
    | false => exact correct_rolledBack (.sqlite _)
    | true =>
        refine .given_exists fun b' => .given fun hall => ?_
        exact correct_committing (h b' hall)
  exact hrest

private theorem createSession_isolated (quota : UploadQuota) (drawn : Drawn)
    (files : List UploadFileRequest) :
    Correct uploadStatements quiet outside t init
      (SharedConnection.Idle t)
      (createSession quota drawn files)
      (Isolated init (UploadDb.createSession quota drawn files) t
        (φ := φ)) := by
  unfold createSession
  refine correct_ite (fun _ => ?_) fun hfiles => ?_
  · exact .done Idle.stable fun w _ hidle => hidle.isolated
  cases hadmit : admitFiles quota 0 [] files with
  | error e => exact .done Idle.stable fun w _ hidle => hidle.isolated
  | ok admitted =>
  obtain ⟨total, safeNames⟩ := admitted
  refine .begin (fun a => ?_) fun message => ?_
  · refine .aside (.inl rfl) Own.isPrivate fun prepared => ?_
    cases prepared with
    | some _ => exact own_rolledBack (.sqlite _)
    | none =>
    refine .stepRead rfl (fun reserved n hrun => ?_) fun _ =>
      correct_rolledBack (.pure _)
    have hreserved := UploadQuery.run_reservedBytes hrun
    refine correct_ite (fun _ => own_rolledBack (.pure _)) fun hwithin => ?_
    refine .aside (.inr (.inr (.inr ⟨_, rfl⟩))) Own.isPrivate fun _ => ?_
    refine .aside (.inr (.inr (.inr ⟨_, rfl⟩))) Own.isPrivate fun made => ?_
    cases made with
    | some message => exact own_rolledBack (.pure _)
    | none =>
    refine .aside (.inl rfl) Own.isPrivate fun prepared => ?_
    cases prepared with
    | some _ => exact own_rolledBack (.sqlite _)
    | none =>
    refine .stepOwn (fun answer n b hrun => ?_) fun _ =>
      correct_rolledBack (.sqlite _)
    have hinserted : a.insertSession (sessionRow drawn total) = .ok b := by
      have hrun' : UploadQuery.inserted
          (a.insertSession (sessionRow drawn total)) = .ok (answer, n, b) :=
        hrun
      cases hdb : a.insertSession (sessionRow drawn total) with
      | error e =>
          rw [hdb] at hrun'
          cases hrun'
      | ok db =>
          rw [hdb] at hrun'
          cases hrun'
          rfl
    refine createSession_files fun b' hall => ?_
    have hadmitted : withinReserve quota reserved.toUInt64 total = true := by
      simpa using hwithin
    simp only [UploadDb.createSession, if_neg hfiles, hadmit, hreserved,
      if_pos hadmitted, hinserted, hall, Option.map_some]
  · exact .done Idle.stable fun w _ hidle => hidle.isolated

theorem Operation.correct (op : Operation) :
    Correct uploadStatements quiet outside t init
      (SharedConnection.Idle t) op.program
      (Isolated init op.effect t (φ := φ)) := by
  cases op with
  | createSession quota drawn files =>
      exact createSession_isolated quota drawn files
  | beginUpload s f => exact beginUpload_isolated s f
  | markUploadFailed s f => exact markUploadFailed_isolated s f
  | commitUpload s f size digest => exact commitUpload_isolated s f size digest
  | completeSession s => exact completeSession_isolated s

end Isolation

end PhotoBridge.Upload
