/-
Resume by itself keeps what there is, wherever it is stopped and whatever
fails on the way.

Most of the command only looks (`PipelineCall.Looks`): what it finds out is
proved with the rules of `Yields`, and that looking keeps everything is
proved once. What is left are the calls that act. Each has what it needs
from the job (`Recovers`): a job that has a receipt has it from the
database, and its task is still running under it.
-/
import PhotoBridge.Lib.Keeping
import PhotoBridge.Pipeline.Proofs.Kept
import PhotoBridge.Pipeline.Proofs.Reconcile

namespace PhotoBridge

open Concurrent JsonText RecoveryService Reconciler

-- ================================================================ looking

/-- The calls that change nothing but what is open. -/
def PipelineCall.Looks : PipelineCall → Prop
  | .repository (.readRuntime _ _) => True
  | .repository (.readVerifiedReceipt _ _ _) => True
  | .repository _ => False
  | .print _ => False
  | .file (.openSource _ _) => True
  | .file (.statFd _) => True
  | .file (.read _ _) => True
  | .file _ => False
  | _ => True

section Uses

variable {blake3 : Bytes → Digest}

/-- Opening a job only looks. -/
theorem openJob_looks {planId : Bytes} {epoch : Nat} {asset : MinimalPlanAsset} :
    (openJob blake3 planId epoch asset).Uses PipelineCall.Looks := by
  unfold openJob
  refine .bind (.ofExcept _) fun task => .bind (.lift (uses_call trivial))
    fun runtime => ?_
  cases runtime.attemptId with
  | none => exact .throw _
  | some attemptId => exact .ite (.throw _) (.ite (.throw _) (.pure _))

/-- Observing a file only looks. -/
theorem observeRecoveryFile_looks {path : Bytes} {expectedSize : UInt64}
    {expectedDigest : Digest} {temp : Bool} {observed : ObservedFileState}
    {rounds : Nat} : (observeRecoveryFile blake3 path expectedSize expectedDigest
      temp observed rounds).Uses PipelineCall.Looks := by
  unfold observeRecoveryFile
  refine .bind (.ofExcept _) fun parsed =>
    .bind (.result (.lift (uses_call trivial))) fun file => ?_
  cases file with
  | error e => exact .ite (.pure _) (.throw _)
  | ok fd =>
      exact .bind (verifyBinary_calls trivial trivial) fun verification => .pure _

/-- Observing a source only looks. -/
theorem observeSource_looks {asset : MinimalPlanAsset} :
    (observeSource asset).Uses PipelineCall.Looks := by
  unfold observeSource MutationGuard.open_
  refine .bind (.result (.bind (.lift (uses_call trivial)) fun fd =>
    .bind (.lift (uses_call trivial)) fun identity =>
      .ite (.throw _) (.pure _))) fun guard => ?_
  cases guard with
  | error e => exact .ite (.pure _) (.ite (.pure _) (.throw _))
  | ok guard => exact .pure _

/-- Observing a job only looks. -/
theorem observe_looks {job : Job} {rounds : Nat} :
    (observe blake3 job rounds).Uses PipelineCall.Looks := by
  unfold observe
  refine .bind observeSource_looks fun observed => ?_
  refine .bind observeRecoveryFile_looks fun temp => ?_
  obtain ⟨_, observed⟩ := temp
  refine .bind observeRecoveryFile_looks fun final => ?_
  obtain ⟨_, observed⟩ := final
  exact .pure _

/-- Confirming a final only looks. -/
theorem confirm_looks {job : Job} {temp : Bool} {rounds : Nat} :
    (confirm blake3 job temp rounds).Uses PipelineCall.Looks := by
  unfold confirm
  refine .bind (.result observeRecoveryFile_looks) fun seen => ?_
  cases seen with
  | error e => exact .pure _
  | ok seen =>
      obtain ⟨found, confirmation⟩ := seen
      exact .pure _

/-- Finding the running tasks only looks. -/
theorem runningAssets_looks {planId : Bytes} {assets : List MinimalPlanAsset} :
    (runningAssets blake3 planId assets).Uses PipelineCall.Looks := by
  induction assets with
  | nil => exact .pure _
  | cons asset rest ih =>
      rw [runningAssets]
      refine .bind (.ofExcept _) fun task => .bind (.lift (uses_call trivial))
        fun runtime => .bind ih fun running => ?_
      exact .ite (.pure _) (.pure _)

end Uses

namespace Site

variable {σ : Site} {w w' : Machine}

/-- What the calls of a run do, which nobody disturbs. -/
abbrev effects (σ : Site) : Effects pipelineCalls Machine :=
  pipelineEffects σ.strerror σ.blake3 σ.trouble

/-- The effects of a call, without those of others. -/
theorem effects_iff {c : PipelineCall} {r : pipelineCalls.Answer c} :
    σ.effects c w r w'
      ↔ pipelineActs σ.strerror σ.blake3 σ.trouble c w r w' := by
  constructor
  · rintro ⟨disk, hdisk, h⟩
    rw [Disk.disturbed_calm (fun _ => id) hdisk] at h
    exact h
  · intro h
    exact ⟨w.disk, ⟨rfl, rfl, rfl, rfl, fun _ f f' hf hf' =>
      .inl (Option.some.inj (hf'.symm.trans hf))⟩, h⟩

/-- Files are opened and read. -/
theorem looks_reads {c : PipelineCall} {r : pipelineCalls.Answer c}
    (hc : c.Looks) (h : σ.effects c w r w') : w.Reads w' := by
  rw [effects_iff] at h
  cases c with
  | readPlanFile path => exact h.2 ▸ .refl w
  | acquireLock path => exact h.2 ▸ .refl w
  | openDatabase path => exact h.2 ▸ .refl w
  | readManifestSourceRoot id => exact h.2 ▸ .refl w
  | openRoot root path => exact h.2 ▸ .refl w
  | print line => exact hc.elim
  | repository c =>
      obtain ⟨repo, hdb, htxn, hmemory, -, rfl, rfl⟩ := h
      have houtcome := (repositoryCall_atomic c).outcome htxn hmemory
      suffices hsame : ((c.run : RepoM c.Value) repo).2.committed = w.db by
        rw [hsame]
        exact .refl w
      rw [hdb] at houtcome
      generalize ((c.run : RepoM c.Value) repo).1 = r at houtcome
      generalize ((c.run : RepoM c.Value) repo).2.committed = db' at houtcome ⊢
      cases houtcome with
      | refused e => rfl
      | done hf =>
          cases c with
          | readRuntime p t =>
              obtain ⟨_, -, hf⟩ := liftCheck_bind_ok.1 hf
              exact (readRuntimeWithStatement_ok.1 hf).2
          | readVerifiedReceipt p t id =>
              obtain ⟨_, -, hf⟩ := liftCheck_bind_ok.1 hf
              exact (readVerifiedReceiptStatement_ok.1 hf).2
          | _ => exact hc.elim
  | file c =>
      obtain ⟨disk, rfl, h⟩ := h
      cases c with
      | openSource root path =>
          rcases h with h | ⟨-, h⟩ | h
          · simp only [fileActs] at h
            cases hlook : w.disk.lookUp root path.bytes with
            | none =>
                rw [hlook] at h
                exact h.2 ▸ .refl w
            | some index =>
                rw [hlook] at h
                exact h.2 ▸ .opening w index
          · exact h.2 ▸ .refl w
          · exact h.elim
      | statFd fd =>
          rcases h with h | ⟨-, h⟩ | h
          · simp only [fileActs] at h
            cases hopen : w.disk.openFile? fd with
            | none =>
                rw [hopen] at h
                exact h.2 ▸ .refl w
            | some f =>
                rw [hopen] at h
                exact h.2 ▸ .refl w
          · exact h.2 ▸ .refl w
          · exact h.elim
      | read fd size =>
          rcases h with h | ⟨-, h⟩ | h
          · simp only [fileActs] at h
            cases hopen : w.disk.openFile? fd with
            | none =>
                rw [hopen] at h
                exact h.2 ▸ .refl w
            | some f =>
                rw [hopen] at h
                obtain ⟨n, -, -, -, -, rfl⟩ := h
                exact .seek w fd f.1 _
          · exact h.2 ▸ .refl w
          · exact h.elim
      | _ => exact hc.elim

/-- Reading keeps everything. -/
theorem Kept.reads (h : σ.Kept w) (hreads : w.Reads w') : σ.Kept w' := by
  obtain ⟨opened, rfl⟩ := hreads
  exact h.carried rfl rfl (.of_files rfl rfl) rfl

-- ================================================================== rules

variable {α : Type} {ok : α → Machine → Prop} {fail : Status → Machine → Prop}

/-- By itself, and stopped anywhere, the attempt keeps what there is. -/
abbrev Secured (σ : Site) (ok : α → Machine → Prop)
    (fail : Status → Machine → Prop) (x : PipelineM α) (w : Machine) : Prop :=
  Secures (Protocol.alone σ.Kept) (fun _ => σ.effects) () True ok fail x w

/-- The same, whatever it ends with. -/
abbrev Safely (σ : Site) (x : PipelineM α) (w : Machine) : Prop :=
  σ.Secured (fun _ _ => True) (fun _ _ => True) x w

/-- A call that does right whatever it answers. -/
theorem yields_ask {c : PipelineCall} {post : pipelineCalls.Answer c → Machine → Prop}
    (h : ∀ r w', pipelineActs σ.strerror σ.blake3 σ.trouble c w r w' →
      post r w') : Meets σ.effects post (ask c) w :=
  fun r w' hc => h r w' (effects_iff.1 hc)

/-- A call that keeps everything, and does right. -/
theorem secured_ask {c : PipelineCall} {post : pipelineCalls.Answer c → Machine → Prop}
    (h : ∀ r w', pipelineActs σ.strerror σ.blake3 σ.trouble c w r w' →
      σ.Kept w' ∧ post r w') :
    Keeps (Protocol.alone σ.Kept) (fun _ => σ.effects) () post (ask c) w := by
  intro s' _ hrely r s'' hc
  rw [show s' = w from hrely] at hc
  obtain ⟨hkept, hpost⟩ := h r s'' (effects_iff.1 hc)
  exact ⟨hkept, trivial, hpost⟩

/-- An operation of the database. -/
theorem secured_repository {c : RepositoryCall} {ok : c.Value → Machine → Prop}
    (hw : σ.Kept w)
    (hok : ∀ a db', (c.run : DbTxn c.Value) w.db = .ok (a, db') →
      σ.Ledger (σ.Staged w.disk) (σ.Landed w.disk) db'
        ∧ (σ.Kept { w with db := db' } → ok a { w with db := db' }))
    (hfail : ∀ e, fail e w) : σ.Secured ok fail (repository c) w := by
  refine .perform (secured_ask ?_)
  rintro r w' ⟨repo, hdb, htxn, hmemory, -, rfl, rfl⟩
  have houtcome := (repositoryCall_atomic c).outcome htxn hmemory
  rw [hdb] at houtcome
  generalize ((c.run : RepoM c.Value) repo).1 = r at houtcome ⊢
  generalize ((c.run : RepoM c.Value) repo).2.committed = db' at houtcome ⊢
  cases houtcome with
  | refused e => exact ⟨hw, hfail e⟩
  | done hf =>
      obtain ⟨hledger, hpost⟩ := hok _ _ hf
      have hkept : σ.Kept { w with db := db' } := hw.stored rfl rfl hledger
      exact ⟨hkept, hpost hkept⟩

/-- An operation that stores no receipt. -/
theorem Kept.calm {c : RepositoryCall} (hw : σ.Kept w) {a : c.Value} {db' : Db}
    (hpersist : ∀ planId receipt, c ≠ .persistVerifiedReceipt planId receipt)
    (hdone : ∀ key, c.Finishes key → ∃ row ∈ w.db.receipts,
      (row.planId, row.taskId) = key ∧ σ.Landed w.disk row)
    (h : (c.run : DbTxn c.Value) w.db = .ok (a, db')) :
    σ.Ledger (σ.Staged w.disk) (σ.Landed w.disk) db' :=
  hw.ledger.calm (repository_calm hpersist h)
    (hw.ledger.history.repository (fun _ _ heq => absurd heq (hpersist _ _)) h)
    hdone

/-- What looks keeps everything, and its values are what they are for a
program alone. -/
theorem secured_looks {x : PipelineM α} (hx : x.Uses PipelineCall.Looks)
    (h : Yields σ.effects True ok fail x w) :
    σ.Secured (fun a w' => w.Reads w' ∧ ok a w')
      (fun e w' => w.Reads w' ∧ fail e w') x w := by
  have hmeets : ∀ {p : Program pipelineCalls (Option (Except Status α))}
      {w₁ : Machine}, p.Uses PipelineCall.Looks → w.Reads w₁ →
      Meets σ.effects (Ends True ok fail) p w₁ →
      Meets σ.effects (fun r w' => w.Reads w' ∧ Ends True ok fail r w') p w₁ := by
    intro p
    induction p with
    | done r => exact fun _ hreads hend => ⟨hreads, hend⟩
    | call c next ih =>
        intro w₁ hp hreads hnext r w₂ hc
        exact ih r (hp.2 r) (hreads.trans (looks_reads hp.1 hc)) (hnext r w₂ hc)
  have hkeeps : ∀ c w₁ r w₂, PipelineCall.Looks c → σ.Kept w₁ →
      σ.effects c w₁ r w₂ → σ.Kept w₂ :=
    fun c w₁ r w₂ hlooks hw hc => hw.reads (looks_reads hlooks hc)
  refine Keeps.mono (Meets.keeps_alone hkeeps (hmeets hx (.refl w) h) hx) ?_
  intro r w' hr
  match r with
  | none => exact trivial
  | some (.ok a) => exact hr
  | some (.error e) => exact hr

/-- Whatever it finds out. -/
theorem secured_reads {x : PipelineM α} (hx : x.Uses PipelineCall.Looks) :
    σ.Secured (fun _ w' => w.Reads w') (fun _ _ => True) x w := by
  have hmeets : ∀ {p : Program pipelineCalls (Option (Except Status α))}
      {w₁ : Machine}, Meets σ.effects
        (Ends True (fun _ _ => True) fun _ _ => True) p w₁ := by
    intro p
    induction p with
    | done r =>
        intro w₁
        match r with
        | none => exact trivial
        | some (.ok a) => exact trivial
        | some (.error e) => exact trivial
    | call c next ih => exact fun r w₂ _ => ih r
  exact (secured_looks hx hmeets).mono (fun _ _ h => h.1) fun _ _ _ => trivial

/-- Printing a line. -/
theorem safely_print {line : Bytes} (hw : σ.Kept w) : σ.Safely (print line) w := by
  refine .perform (secured_ask ?_)
  rintro r w' ⟨rfl, rfl⟩
  exact ⟨hw.carried rfl rfl (.of_files rfl rfl) rfl, trivial⟩

-- ================================================================ the files

/-- What is opened is what the path leads to. -/
theorem openSource_yields (hsound : w.disk.Sound) {root : Root}
    {path : RelativePath} : Yields σ.effects True
      (fun fd w' => w.Reads w' ∧ ∃ o f, o.position = 0
        ∧ w'.disk.openFile? fd = some (o, f)
        ∧ w.disk.version? root path.bytes = some f.current)
      (fun _ _ => True) (Files.openSource root path) w := by
  refine .perform (yields_ask ?_)
  rintro r w' ⟨disk, rfl, h | ⟨-, h⟩ | h⟩
  · simp only [fileActs] at h
    cases hlook : w.disk.lookUp root path.bytes with
    | none =>
        rw [hlook] at h
        rw [h.1]
        exact trivial
    | some index =>
        rw [hlook] at h
        obtain ⟨rfl, rfl⟩ := h
        have hlt := hsound root path.bytes index hlook
        have hfile := List.getElem?_eq_getElem hlt
        exact ⟨.opening w index, ⟨index, 0⟩, w.disk.files[index], rfl,
          Disk.openFile?_opening hfile,
          Disk.version?_eq_some.2 ⟨index, _, hlook, hfile, rfl⟩⟩
  · obtain ⟨⟨e, rfl⟩, -⟩ := h
    exact trivial
  · exact h.elim

/-- What a recovery reads of a file. -/
theorem observeRecoveryFile_yields (hsound : w.disk.Sound) {name : Bytes}
    {expectedSize : UInt64} {expectedDigest : Digest} {temp : Bool}
    {observed : ObservedFileState} {rounds : Nat} : Yields σ.effects True
      (fun r _ => r.1 = true → ∃ v, w.disk.version? .target name = some v
        ∧ r.2 = see temp observed (verificationOf σ.blake3 v
          expectedSize.toNat (some expectedDigest)))
      (fun _ _ => True)
      (observeRecoveryFile σ.blake3 name expectedSize expectedDigest temp
        observed rounds) w := by
  unfold observeRecoveryFile
  refine .bind (.ofExcept (fun path hpath => ?_) fun _ _ => trivial)
  refine .bind (.result ((openSource_yields hsound).mono ?_ fun e w' _ => ?_))
  · rintro fd w' ⟨hreads, o, f, hstart, hopen, hv⟩
    rw [RelativePath.parse_bytes hpath] at hv
    have hlasting : Lasting σ.trouble fd fun _ => True := ⟨fun _ _ => trivial,
      fun _ => trivial⟩
    refine .bind ((verifyBinary_rough hlasting hopen id hstart trivial).mono ?_
      fun _ _ _ => trivial)
    rintro verification w'' ⟨rfl, -⟩
    exact fun _ => ⟨f.current, hv, rfl⟩
  · exact .ite (fun _ => nofun) fun _ => trivial

/-- What is confirmed is there. -/
theorem confirm_yields (hsound : w.disk.Sound) {job : Job} {temp : Bool}
    {rounds : Nat} : Yields σ.effects True
      (fun confirmed _ => confirmed = true → ∃ v, w.disk.version? .target
          (if temp then job.intent.tempPath else job.intent.finalPath) = some v
        ∧ v.identity.size = job.expectedSize
        ∧ σ.blake3 v.content = job.expectedDigest)
      (fun _ _ => True) (confirm σ.blake3 job temp rounds) w := by
  unfold confirm
  refine .bind (.result ((observeRecoveryFile_yields hsound).mono ?_
    fun e w' _ => ?_))
  · rintro ⟨found, confirmation⟩ w' hseen hconfirmed
    rw [Bool.and_eq_true, Bool.and_eq_true] at hconfirmed
    obtain ⟨⟨hfound, hsize⟩, hdigest⟩ := hconfirmed
    obtain ⟨v, hv, hsee⟩ := hseen hfound
    cases show confirmation = _ from hsee
    refine ⟨v, hv, ?_, ?_⟩
    · rw [← v.count_size, ← eq_of_beq hsize]
      cases temp <;> rfl
    · have hsome := eq_of_beq hdigest
      cases temp <;> exact Option.some.inj hsome
  · exact nofun

-- ================================================================== the job

/-- What a job goes by: its receipt is one of the database, and its task
is running under it. -/
structure Recovers (db : Db) (job : Job) : Prop where
  receipt : ∀ receipt, job.receipt = some receipt → ∃ row ∈ db.receipts,
    db.Pending row ∧ (row.planId, row.taskId) = (job.planId, job.task.id)
      ∧ row.tempPath = job.intent.tempPath ∧ row.finalPath = job.intent.finalPath
      ∧ row.contentSize = job.expectedSize
      ∧ row.targetDigest = job.expectedDigest

/-- A job without a receipt, of a task that is running. -/
structure Opened (db : Db) (job : Job) : Prop where
  receipt : job.receipt = none
  finalPath : job.intent.finalPath = job.asset.targetPath.bytes
  running : ∃ row, db.task? job.planId job.task.id = some row
    ∧ row.Runs job.attemptId

/-- A job that is opened is the one its task has in the database. -/
theorem openJob_yields {planId : Bytes} {epoch : Nat} {asset : MinimalPlanAsset} :
    Yields σ.effects True (fun job _ => Opened w.db job) (fun _ _ => True)
      (openJob σ.blake3 planId epoch asset) w := by
  unfold openJob
  refine .bind (.ofExcept (fun task _ => ?_) fun _ _ => trivial)
  refine .bind (repository_rough (fun disk runtime db' _ hread => ?_)
    fun _ _ _ => trivial)
  obtain ⟨_, -, hread⟩ := liftCheck_bind_ok.1 hread
  obtain ⟨⟨row, hrow, -, -, rfl⟩, -⟩ := readRuntimeWithStatement_ok.1 hread
  cases hactive : row.toRuntime.attemptId with
  | none => exact .throw trivial
  | some attemptId =>
      refine .ite (fun _ => .throw trivial) fun hrunning => ?_
      refine .ite (fun _ => .throw trivial) fun _ => .pure ⟨rfl, rfl, row, hrow, ?_⟩
      exact ⟨Decidable.not_not.1 fun hne => hrunning (.inl hne), hactive⟩

/-- A receipt that was read of a running task. -/
theorem Opened.withReceipt {db : Db} {job : Job} (h : Opened db job)
    {receipt : VerifiedReceipt}
    (hread : ∃ db', (Repository.readVerifiedReceipt job.planId job.task.id
      job.attemptId : DbTxn VerifiedReceipt) db = .ok (receipt, db'))
    (hmatches : receiptMatchesPlan job receipt = true) :
    Recovers db (job.withReceipt receipt) := by
  obtain ⟨db', hread⟩ := hread
  obtain ⟨_, -, hread⟩ := liftCheck_bind_ok.1 hread
  obtain ⟨⟨row, identity, hrow, -, -, rfl⟩, -⟩ :=
    readVerifiedReceiptStatement_ok.1 hread
  obtain ⟨task, htask, hruns⟩ := h.running
  have hat := List.find?_some (p := ReceiptRow.isAt job.planId job.task.id
    job.attemptId) hrow
  unfold ReceiptRow.isAt at hat
  simp only [Bool.and_eq_true, beq_iff_eq] at hat
  obtain ⟨⟨hplan, hid⟩, hattempt⟩ := hat
  have hkey := TaskRow.key_of_isAt (List.find?_some
    (p := TaskRow.isAt job.planId job.task.id) htask)
  unfold receiptMatchesPlan at hmatches
  simp only [Bool.and_eq_true, beq_iff_eq] at hmatches
  refine ⟨fun _ hsome => ⟨row, List.mem_of_find?_eq_some hrow, ⟨task,
    List.mem_of_find?_eq_some htask, ?_, ?_⟩, ?_, rfl, ?_, rfl, rfl⟩⟩
  · rw [hkey, hplan, hid]
  · rw [hattempt]
    exact hruns
  · rw [hplan, hid]
    rfl
  · exact hmatches.1.1.1.2.trans h.finalPath.symm

-- ============================================================== the actions

variable {β : Type}

/-- What ends right is safe. -/
theorem Safely.of (h : σ.Secured ok fail x w) : σ.Safely x w :=
  h.mono (fun _ _ _ => trivial) fun _ _ _ => trivial

/-- One after the other; what there is is kept in between. -/
theorem Secured.andThen {ok : β → Machine → Prop} {mid : α → Machine → Prop}
    {x : PipelineM α} {k : α → PipelineM β} (hw : σ.Kept w)
    (h : σ.Secured mid fail x w)
    (hk : ∀ a w', σ.Kept w' → mid a w' → σ.Secured ok fail (k a) w') :
    σ.Secured ok fail (x >>= k) w :=
  Secures.seq hw h hk

/-- A step is safe if it is taken whatever it answers. -/
theorem Safely.result {x : PipelineM α} (h : σ.Safely x w) : σ.Safely x.result w :=
  Secures.result (h.mono (fun _ _ _ => trivial) fun _ _ _ => trivial)

/-- Syncing a directory. -/
theorem safely_fsyncDirectory (hw : σ.Kept w) :
    σ.Secured (fun _ w' => w' = w) (fun _ _ => True) Files.fsyncDirectory w := by
  refine .perform (secured_ask ?_)
  rintro r w' ⟨disk, rfl, ⟨rfl, rfl⟩ | ⟨-, ⟨e, rfl⟩, rfl⟩ | h⟩
  · exact ⟨hw, rfl⟩
  · exact ⟨hw, trivial⟩
  · exact h.elim

/-- Syncing a file. -/
theorem secured_fdatasync (hw : σ.Kept w) (fd : Nat) :
    σ.Secured (fun _ w' => w'.db = w.db) (fun _ _ => True) (Files.fdatasync fd)
      w := by
  refine .perform (secured_ask ?_)
  rintro r w' ⟨disk, rfl, h | ⟨-, ⟨e, rfl⟩, rfl⟩ | h⟩
  · simp only [fileActs] at h
    cases hopen : w.disk.openFile? fd with
    | none =>
        rw [hopen] at h
        obtain ⟨rfl, rfl⟩ := h
        exact ⟨hw, trivial⟩
    | some found =>
        obtain ⟨o, f⟩ := found
        rw [hopen] at h
        obtain ⟨rfl, rfl⟩ := h
        exact ⟨hw.sync (Disk.openFile?_eq_some.1 hopen).2, rfl⟩
  · exact ⟨hw, trivial⟩
  · exact h.elim

section Row

variable {row : ReceiptRow} (hw : σ.Kept w) (hrow : row ∈ w.db.receipts)
  (hpending : w.db.Pending row)
include hw hrow hpending

/-- Taking a temp away whose file has landed. -/
theorem secured_unlinkAt (hlanded : σ.Landed w.disk row) {name : Bytes}
    (hname : row.tempPath = name) :
    σ.Secured (fun _ w' => w'.db = w.db ∧ σ.Landed w'.disk row) (fun _ _ => True)
      (Files.unlinkAt name) w := by
  refine .perform (secured_ask ?_)
  rintro r w' ⟨disk, rfl, h | ⟨-, ⟨e, rfl⟩, rfl⟩ | h⟩
  · simp only [fileActs] at h
    cases hleaf : validateLeafName name with
    | error e =>
        rw [hleaf] at h
        obtain ⟨rfl, rfl⟩ := h
        exact ⟨hw, trivial⟩
    | ok u =>
        cases hentry : w.disk.targets name with
        | none =>
            rw [hleaf, hentry] at h
            obtain ⟨rfl, rfl⟩ := h
            exact ⟨hw, trivial⟩
        | some index =>
            rw [hleaf, hentry] at h
            obtain ⟨rfl, hdisk⟩ := h
            rw [← hname] at hdisk
            obtain ⟨hkept, hlanded'⟩ := hw.unlink hrow hpending hlanded hdisk
            exact ⟨hkept, rfl, hlanded'⟩
  · exact ⟨hw, trivial⟩
  · exact h.elim

/-- Publishing a temp. -/
theorem secured_renameNoReplace {oldName newName : Bytes}
    (hold : row.tempPath = oldName) (hnew : row.finalPath = newName) :
    σ.Secured (fun _ w' => w'.db = w.db ∧ σ.Landed w'.disk row) (fun _ _ => True)
      (Files.renameNoReplace oldName newName) w := by
  refine .perform (secured_ask ?_)
  rintro r w' ⟨disk, rfl, h | ⟨-, ⟨e, rfl⟩, rfl⟩ | h⟩
  · simp only [fileActs] at h
    split at h
    · obtain ⟨rfl, rfl⟩ := h
      exact ⟨hw, trivial⟩
    · obtain ⟨rfl, rfl⟩ := h
      exact ⟨hw, trivial⟩
    · obtain ⟨rfl, rfl⟩ := h
      exact ⟨hw, trivial⟩
    · obtain ⟨rfl, rfl⟩ := h
      exact ⟨hw, trivial⟩
    · next index _ _ hentry hfree =>
      obtain ⟨rfl, hdisk⟩ := h
      rw [← hold] at hentry
      rw [← hnew] at hfree
      rw [← hold, ← hnew] at hdisk
      obtain ⟨hkept, hlanded⟩ := hw.rename hrow hpending hentry hfree hdisk
      exact ⟨hkept, rfl, hlanded⟩
  · exact ⟨hw, trivial⟩
  · exact h.elim

end Row

/-- An operation that ends no task well. -/
theorem safely_repository {c : RepositoryCall} (hw : σ.Kept w)
    (hpersist : ∀ planId receipt, c ≠ .persistVerifiedReceipt planId receipt)
    (hdone : ∀ key, c.Finishes key → ∃ row ∈ w.db.receipts,
      (row.planId, row.taskId) = key ∧ σ.Landed w.disk row) :
    σ.Safely (repository c) w :=
  secured_repository hw (fun _ _ h => ⟨hw.calm hpersist hdone h, fun _ => trivial⟩)
    fun _ => trivial

section Act

variable {job : Job} {reason : Bytes} {rounds : Nat}

/-- Giving a task back as retryable. -/
private theorem recoverRetryable_safely (hw : σ.Kept w) :
    σ.Safely (recoverRetryable job reason) w :=
  safely_repository hw nofun fun _ => False.elim

/-- Setting a task down as inconsistent. -/
private theorem recoverInconsistent_safely (hw : σ.Kept w) :
    σ.Safely (recoverInconsistent job reason) w :=
  safely_repository hw nofun fun _ => False.elim

/-- Giving a task back. -/
private theorem giveBack_safely {why : String} (hw : σ.Kept w) :
    σ.Safely (giveBack job why) w :=
  Secured.andThen hw (recoverRetryable_safely hw) fun _ _ _ _ => .throw trivial

/-- Completing a task whose file has landed. -/
theorem complete_safely (hw : σ.Kept w) {row : ReceiptRow}
    (hrow : row ∈ w.db.receipts)
    (hkey : (row.planId, row.taskId) = (job.planId, job.task.id))
    (hlanded : σ.Landed w.disk row) : σ.Safely (complete job reason) w := by
  refine Secured.andThen hw (safely_repository hw nofun ?_) fun _ w' hw' _ =>
    safely_print hw'
  rintro key rfl
  exact ⟨row, hrow, hkey, hlanded⟩

/-- What a job with a receipt goes by. -/
theorem Recovers.row {db : Db} (h : Recovers db job)
    (hsome : job.receipt ≠ none) : ∃ row ∈ db.receipts, db.Pending row
      ∧ (row.planId, row.taskId) = (job.planId, job.task.id)
      ∧ row.tempPath = job.intent.tempPath ∧ row.finalPath = job.intent.finalPath
      ∧ row.contentSize = job.expectedSize
      ∧ row.targetDigest = job.expectedDigest := by
  obtain ⟨receipt, hreceipt⟩ := Option.ne_none_iff_exists'.1 hsome
  exact h.receipt receipt hreceipt

/-- What was confirmed of the final is what the receipt says of it. -/
theorem adopt_safely {cleanup : Bool} (hw : σ.Kept w) (hj : Recovers w.db job)
    (hsome : job.receipt ≠ none) :
    σ.Safely (adopt σ.blake3 job reason cleanup rounds) w := by
  obtain ⟨row, hrow, hpending, hkey, htemp, hfinal, hsize, hdigest⟩ := hj.row hsome
  unfold adopt
  refine Secured.andThen hw ((secured_looks confirm_looks
    (confirm_yields hw.intact.sound)).mono (fun _ _ h => h) fun _ _ _ => trivial) ?_
  rintro confirmed w' hw' ⟨hreads, hconfirmed⟩
  refine .ite (fun _ => giveBack_safely hw') fun htrue => ?_
  obtain ⟨v, hv, hvsize, hvdigest⟩ := hconfirmed (by simpa using htrue)
  have hlanded : σ.Landed w'.disk row := by
    refine ⟨v, ?_, hvsize.trans hsize.symm, hvdigest.trans hdigest.symm⟩
    rw [hreads.version?, hfinal]
    exact hv
  rw [← hreads.db] at hrow hpending
  refine .ite (fun _ => ?_) fun _ => complete_safely hw' hrow hkey hlanded
  unfold cleanUp
  refine Secured.andThen hw' ((secured_looks confirm_looks
    (confirm_yields hw'.intact.sound)).mono (fun _ _ h => h) fun _ _ _ => trivial) ?_
  rintro confirmedTemp w₂ hw₂ ⟨hreads₂, -⟩
  refine .ite (fun _ => giveBack_safely hw₂) fun _ => ?_
  rw [← hreads₂.db] at hrow hpending
  have hlanded₂ : σ.Landed w₂.disk row := by
    obtain ⟨v, hv, hrest⟩ := hlanded
    exact ⟨v, (hreads₂.version? _ _).trans hv, hrest⟩
  refine Secured.andThen hw₂ (secured_unlinkAt hw₂ hrow hpending hlanded₂ htemp) ?_
  rintro _ w₃ hw₃ ⟨hdb₃, hlanded₃⟩
  refine Secured.andThen hw₃ (safely_fsyncDirectory hw₃) ?_
  rintro _ w₄ hw₄ rfl
  rw [← hdb₃] at hrow
  exact complete_safely hw₄ hrow hkey hlanded₃

/-- What gets the final name is the temp of the receipt, for as long as
nothing has landed there is nothing else it can be. -/
theorem resumeCommit_safely (hw : σ.Kept w) (hj : Recovers w.db job)
    (hsome : job.receipt ≠ none) :
    σ.Safely (resumeCommit σ.blake3 job reason rounds) w := by
  obtain ⟨row, hrow, hpending, hkey, htemp, hfinal, -⟩ := hj.row hsome
  unfold resumeCommit
  refine .bind (.ofExcept (fun path _ => ?_) fun _ _ => trivial)
  refine Secured.andThen hw ((secured_looks (.lift (uses_call trivial))
    (openSource_yields hw.intact.sound)).mono (fun _ _ h => h)
    fun _ _ _ => trivial) ?_
  rintro fd w₁ hw₁ ⟨hreads₁, -, o, f, hstart, hopen, -⟩
  have hlasting : Lasting σ.trouble fd fun _ => True := ⟨fun _ _ => trivial,
    fun _ => trivial⟩
  refine Secured.andThen hw₁ ((secured_looks (verifyBinary_calls trivial trivial)
    (verifyBinary_rough hlasting hopen id hstart trivial)).mono (fun _ _ h => h)
    fun _ _ _ => trivial) ?_
  rintro verification w₂ hw₂ ⟨hreads₂, -⟩
  refine .ite (fun _ => giveBack_safely hw₂) fun _ => ?_
  rw [← hreads₁.db, ← hreads₂.db] at hrow hpending
  refine Secured.andThen hw₂ (secured_fdatasync hw₂ fd) fun _ w₃ hw₃ hdb₃ => ?_
  rw [← hdb₃] at hrow hpending
  refine Secured.andThen hw₃ (secured_renameNoReplace hw₃ hrow hpending htemp
    hfinal) ?_
  rintro _ w₄ hw₄ ⟨hdb₄, hlanded⟩
  refine Secured.andThen hw₄ (safely_fsyncDirectory hw₄) ?_
  rintro _ w₅ hw₅ rfl
  rw [← hdb₄] at hrow
  exact complete_safely hw₅ hrow hkey hlanded

/-- An action that uses a receipt has one. -/
theorem act_safely {decision : ReconcileDecision} (hw : σ.Kept w)
    (hj : Recovers w.db job)
    (hsome : decision.action ≠ .retryTask → decision.action ≠ .targetConflict →
      decision.action ≠ .inconsistent → job.receipt ≠ none) :
    σ.Safely (act σ.blake3 job decision rounds) w := by
  unfold act
  cases haction : decision.action with
  | retryTask =>
      exact Secured.andThen hw (recoverRetryable_safely hw) fun _ _ _ _ =>
        .throw trivial
  | targetConflict =>
      exact Secured.andThen hw (recoverInconsistent_safely hw) fun _ _ _ _ =>
        .throw trivial
  | inconsistent =>
      exact Secured.andThen hw (recoverInconsistent_safely hw) fun _ _ _ _ =>
        .throw trivial
  | adoptFinal => exact adopt_safely hw hj (hsome (by simp [haction])
      (by simp [haction]) (by simp [haction]))
  | adoptFinalAndCleanupTemp => exact adopt_safely hw hj (hsome
      (by simp [haction]) (by simp [haction]) (by simp [haction]))
  | resumeCommitFromTemp => exact resumeCommit_safely hw hj (hsome
      (by simp [haction]) (by simp [haction]) (by simp [haction]))
  | reverifyCommitted => exact .throw trivial

end Act

-- ============================================================= the command

section Command

variable {planId sourceManifestId targetRoot : Bytes} {epoch rounds : Nat}
  {asset : MinimalPlanAsset}

/-- A job that was opened, with its receipt if there is one. -/
theorem readReceipt_secured {job : Job} (hw : σ.Kept w) (hj : Opened w.db job) :
    σ.Secured (fun job w' => Recovers w'.db job) (fun _ _ => True)
      (readReceipt job) w := by
  unfold readReceipt
  refine .bind (.result ?_)
  refine secured_repository hw (fun receipt db' hread => ?_) fun e => ?_
  · have hsame : db' = w.db := by
      obtain ⟨_, -, hread⟩ := liftCheck_bind_ok.1 hread
      exact (readVerifiedReceiptStatement_ok.1 hread).2
    subst hsame
    refine ⟨hw.ledger, fun _ => ?_⟩
    show Secures _ _ _ _ _ _ (if receiptMatchesPlan job receipt = true then _
      else _) _
    refine .ite (fun hmatches => .pure (hj.withReceipt ⟨_, hread⟩ hmatches))
      fun _ => ?_
    exact Secures.andThen (recoverInconsistent_safely hw) fun _ _ _ =>
      .throw trivial
  · show Secures _ _ _ _ _ _ (if e.code = .notFound then _ else _) _
    refine .ite (fun _ => .pure ⟨fun receipt hsome => ?_⟩) fun _ => .throw trivial
    rw [hj.receipt] at hsome
    cases hsome

/-- What is known of a job once it is known what to do. -/
def Examined (r : Job × ObservedFileState × ReconcileDecision) (w : Machine) :
    Prop :=
  Recovers w.db r.1 ∧ (r.2.2.action ≠ .retryTask →
    r.2.2.action ≠ .targetConflict → r.2.2.action ≠ .inconsistent →
    r.1.receipt ≠ none)

/-- After the receipt it only looks: the job is what it was, and the
decision is that of the rules. -/
theorem examine_secured (hw : σ.Kept w) :
    σ.Secured Examined (fun _ _ => True) (examine σ.blake3 sourceManifestId
      targetRoot planId epoch asset rounds) w := by
  unfold examine
  refine Secured.andThen hw ((secured_looks openJob_looks openJob_yields).mono
    (fun _ _ h => h) fun _ _ _ => trivial) ?_
  rintro job w₁ hw₁ ⟨hreads₁, hopened⟩
  rw [← hreads₁.db] at hopened
  refine Secured.andThen hw₁ (readReceipt_secured hw₁ hopened) fun job w₂ hw₂ hj => ?_
  refine Secured.andThen hw₂ (secured_reads (.lift (uses_call trivial)))
    fun root w₃ hw₃ hreads₃ => ?_
  refine Secured.andThen hw₃ (secured_reads (.lift (uses_call trivial)))
    fun _ w₄ hw₄ hreads₄ => ?_
  refine Secured.andThen hw₄ (secured_reads (.lift (uses_call trivial)))
    fun _ w₅ hw₅ hreads₅ => ?_
  refine Secured.andThen hw₅ (secured_reads observe_looks)
    fun observed w₆ hw₆ hreads₆ => ?_
  rw [← hreads₃.db, ← hreads₄.db, ← hreads₅.db, ← hreads₆.db] at hj
  refine .bind (.ofExcept (fun decision hdecision => ?_) fun _ _ => trivial)
  refine .pure ⟨hj, fun hretry hconflict hinconsistent => ?_⟩
  rw [← decide_ok hdecision] at hretry hconflict hinconsistent
  obtain ⟨verified, hsome, -⟩ := firstRule_warranted rfl hretry hconflict
    hinconsistent
  exact hsome ▸ nofun

variable {codec : Codec}

/-- Recovering one task keeps everything. -/
theorem recoverOne_safely (hw : σ.Kept w) :
    σ.Safely (recoverOne codec σ.blake3 sourceManifestId targetRoot planId epoch
      rounds asset) w := by
  unfold recoverOne
  refine Secures.bind (.result ?_)
  refine Keeps.mono (Keeps.strengthen (examine_secured hw) hw) ?_
  rintro r w' ⟨hw', hr⟩
  match r with
  | none => exact trivial
  | some (.error e) => exact .pure trivial
  | some (.ok (job, observed, decision)) =>
      obtain ⟨hj, hsome⟩ := hr
      refine .bind (.ofExcept (fun report _ => ?_) fun _ _ => trivial)
      have hprint : σ.Secured (fun _ w'' => w''.db = w'.db) (fun _ _ => True)
          (print report) w' := by
        refine .perform (secured_ask ?_)
        rintro r w'' ⟨rfl, rfl⟩
        exact ⟨hw'.carried rfl rfl (.of_files rfl rfl) rfl, rfl⟩
      refine Secured.andThen hw' hprint fun _ w'' hw'' hdb => ?_
      rw [← hdb] at hj
      exact Safely.result (act_safely hw'' hj hsome)

/-- Recovering all of them keeps everything. -/
theorem recoverAll_safely {assets : List MinimalPlanAsset}
    {first : Except Status Unit} (hw : σ.Kept w) :
    σ.Safely (recoverAll (recoverOne codec σ.blake3 sourceManifestId targetRoot
      planId epoch rounds) assets first) w := by
  unfold recoverAll
  induction assets generalizing first w with
  | nil => exact .pure trivial
  | cons asset rest ih =>
      rw [List.foldlM_cons]
      have hone : σ.Safely (do
          let result ← recoverOne codec σ.blake3 sourceManifestId targetRoot
            planId epoch rounds asset
          pure (keepFirst first result)) w :=
        Secured.andThen hw (recoverOne_safely hw) fun _ _ _ _ => .pure trivial
      exact Secured.andThen hw hone fun _ _ hw' _ => ih hw'

/-- Resume keeps what there is, wherever it is stopped. -/
theorem execute_safely {layout : WorkspaceLayout} {inputPath : Bytes}
    (hw : σ.Kept w) :
    σ.Safely (RecoveryService.execute codec σ.blake3 layout inputPath rounds)
      w := by
  unfold RecoveryService.execute
  refine Secured.andThen hw (secured_reads (.lift (uses_call trivial)))
    fun planBytes w₁ hw₁ _ => ?_
  refine .bind (.ofExcept (fun artifact _ => ?_) fun _ _ => trivial)
  refine .ite (fun _ => .throw trivial) fun _ => ?_
  refine Secured.andThen hw₁ (secured_reads (.lift (uses_call trivial)))
    fun _ w₂ hw₂ _ => ?_
  refine Secured.andThen hw₂ (secured_reads (.lift (uses_call trivial)))
    fun _ w₃ hw₃ _ => ?_
  refine Secured.andThen hw₃ (secured_reads runningAssets_looks)
    fun running w₄ hw₄ _ => ?_
  unfold recoverRunning
  refine .ite (fun _ => .throw trivial) fun _ => ?_
  refine Secured.andThen hw₄ (safely_repository hw₄ nofun fun _ => False.elim)
    fun epoch w₅ hw₅ _ => ?_
  refine Secured.andThen hw₅ (recoverAll_safely hw₅) fun first w₆ hw₆ _ => ?_
  exact .ofExcept (fun _ _ => trivial) fun _ _ => trivial

end Command

/-- What a run of resume can have reached. -/
theorem Kept.resumes {inputPath : Bytes} {rounds : Nat} (hw : σ.Kept w)
    (hrun : σ.Resumes inputPath rounds w w') : σ.Kept w' := by
  have hrestarted : σ.Kept w.restarted :=
    hw.carried rfl rfl (.of_files rfl rfl) rfl
  exact Keeps.visits (execute_safely hrestarted) hrestarted hrun.2

end Site

end PhotoBridge
