/-
Every run of the resume command.

The command gets as far as its loop whenever a task is RUNNING, and what
the loop does then is the command (`execute_spec`). No call of it is
stuck, so it has a run. And as the fate of a task is decided by its own
evidence, a task ends as it does where it is the only one
(`resume_finishes`).
-/
import PhotoBridge.Pipeline.Proofs.Resume
import PhotoBridge.Pipeline.Proofs.Verify

namespace PhotoBridge.RecoveryService

open Concurrent JsonText Reconciler Transaction

-- ============================================================= the command

namespace Setting

variable (σ : Setting) {rounds : Nat}

/-- The rows tell which of the plan's tasks are RUNNING. -/
theorem runningAssets_spec {fail : Status → Machine → Prop} :
    Yields (pipelineEffects σ.strerror σ.blake3 .none) False
      (fun found w' => found = σ.running ∧ w' = σ.machine) fail
      (runningAssets σ.blake3 σ.artifact.planId σ.artifact.plan.assets)
      σ.machine := by
  refine runningAssets_quiet _ _ fun asset hasset => ?_
  obtain ⟨task, hplanned⟩ := σ.planned hasset
  obtain ⟨row, hrow, hcount, herror⟩ := hplanned.row
  refine ⟨task, row.toRuntime, hplanned.spec, ?_, ?_⟩
  · exact liftCheck_bind_ok.2 ⟨(), hplanned.ids, readRuntimeWithStatement_ok.2
      ⟨⟨row, hrow, hcount, herror, rfl⟩, rfl⟩⟩
  · rw [σ.runtimeIn_eq hplanned.spec hplanned.ids hrow hcount herror,
      Option.any_some]

/-- One item for each RUNNING task, each of them ready. -/
theorem items (hacquire : (Repository.acquireNextExecutionEpoch
      σ.artifact.planId : DbTxn Nat) σ.machine.db = .ok (epoch, db'))
    (hrounds : σ.bound ≤ rounds) :
    ∃ items, Covers σ items ∧ ∀ item ∈ items,
      Ready σ.blake3 σ.artifact.planId epoch rounds
        { σ.machine with db := db' } item := by
  have hevery : ∀ asset ∈ σ.running, ∃ item : Evidence × TaskSpec,
      item.1.asset = asset ∧ σ.evidence item.1.asset = some item.1
        ∧ Ready σ.blake3 σ.artifact.planId epoch rounds
          { σ.machine with db := db' } item := by
    intro asset hasset
    obtain ⟨item, rfl, hready⟩ := σ.ready hacquire hrounds hasset
    exact ⟨item, rfl, hready⟩
  obtain ⟨items, hassets, hall⟩ := exists_map_eq hevery
  refine ⟨items, ⟨hassets, ?_, ?_⟩, fun item hitem => (hall item hitem).2⟩
  · exact fun item hitem => (hall item hitem).1
  · exact fun item hitem => (hall item hitem).2.recoverable.state

/-- The items of different tasks have nothing in common. -/
theorem pairwise_separate (hapart : σ.Apart) {items : List (Evidence × TaskSpec)}
    (hcovers : Covers σ items) :
    items.Pairwise fun a b =>
      Separate σ.blake3 σ.artifact.planId σ.machine.disk a.1 b.1 := by
  have hnodup : (items.map (·.1.asset)).Nodup := by
    rw [hcovers.assets]
    exact (List.Nodup.of_map _ σ.distinct).filter _
  refine (List.pairwise_map.1 hnodup).imp_of_mem ?_
  intro a b ha hb hne
  exact σ.separate hapart (hcovers.mem ha) (hcovers.mem hb)
    (hcovers.evidence a ha) (hcovers.evidence b hb) hne

/-- Until it knows which tasks are RUNNING, the command changes nothing. -/
theorem execute_running {ok : Unit → Machine → Prop}
    {fail : Status → Machine → Prop} (hassets : σ.artifact.plan.assets ≠ [])
    (h : Yields (pipelineEffects σ.strerror σ.blake3 .none) False ok fail
      (recoverRunning σ.codec σ.blake3 σ.artifact rounds σ.running) σ.machine) :
    Yields (pipelineEffects σ.strerror σ.blake3 .none) False ok fail
      (execute σ.codec σ.blake3 σ.layout σ.inputPath rounds) σ.machine := by
  obtain ⟨bytes, hfile, haccepted⟩ := σ.accepted
  have hplan : σ.machine.readPlanFile σ.inputPath = .ok bytes := by
    rw [Machine.readPlanFile, hfile]
  unfold execute
  refine .bind (readPlanFile_quiet (fun bytes' hbytes' => ?_) fun e he => ?_)
  swap
  · cases hplan.symm.trans he
  cases hplan.symm.trans hbytes'
  refine .bind (.ofExcept (fun artifact' hartifact' => ?_) fun e he => ?_)
  swap
  · cases haccepted.symm.trans he
  cases haccepted.symm.trans hartifact'
  refine .ite (fun hempty => absurd hempty hassets) fun _ => ?_
  refine .bind (acquireLock_quiet (.bind (openDatabase_quiet ?_)))
  refine σ.runningAssets_spec.andThen ?_
  rintro _ _ ⟨rfl, rfl⟩
  exact h

/-- The command does what it is for. -/
theorem execute_spec (hapart : σ.Apart) (hrunning : σ.running ≠ [])
    (hrounds : σ.bound ≤ rounds) :
    Yields (pipelineEffects σ.strerror σ.blake3 .none) False
      (fun a w => σ.Finished (some (.ok a)) w)
      (fun e w => σ.Finished (some (.error e)) w)
      (execute σ.codec σ.blake3 σ.layout σ.inputPath rounds) σ.machine := by
  have hassets : σ.artifact.plan.assets ≠ [] := by
    intro hempty
    refine hrunning ?_
    unfold running
    rw [hempty, List.filter_nil]
  refine σ.execute_running hassets ?_
  unfold recoverRunning
  refine .ite (fun hnone => absurd hnone hrunning) fun _ => ?_
  obtain ⟨next, acquiredDb, hepoch⟩ := σ.epochs
  refine .bind (repository_quiet (fun epoch db' hacquire => ?_) fun e he => ?_)
  swap
  · cases hepoch.symm.trans he
  obtain ⟨items, hcovers, hready⟩ := σ.items hacquire hrounds
  obtain ⟨-, -, hrows, -, hmanifests, -⟩ := @acquired σ.blake3 _ _ _ _ hacquire
  have hroot : ∃ root, db'.readManifestSourceRoot
      σ.artifact.plan.sourceManifestId = .ok root := by
    unfold Db.readManifestSourceRoot
    rw [hmanifests]
    exact σ.manifest
  rw [← hcovers.assets]
  refine (recoverAll_quiet σ.lawful items { σ.machine with db := db' } (.ok ())
    hready (σ.pairwise_separate hapart hcovers) hroot).andThen ?_
  intro r w hlooped
  have hfinished := finished_of_looped hcovers hrows hlooped
  refine .ofExcept (fun a ha => ?_) fun e he => ?_
  · rw [← ha]
    exact hfinished
  · rw [← he]
    exact hfinished

/-- With nothing to resume the command says so, and changes nothing. -/
theorem execute_idle (hassets : σ.artifact.plan.assets ≠ [])
    (hrunning : σ.running = []) :
    Yields (pipelineEffects σ.strerror σ.blake3 .none) False
      (fun _ _ => False) (fun e w => e = noneRunning ∧ w = σ.machine)
      (execute σ.codec σ.blake3 σ.layout σ.inputPath rounds) σ.machine := by
  refine σ.execute_running hassets ?_
  unfold recoverRunning
  exact .ite (fun _ => .throw ⟨rfl, rfl⟩) fun hne => absurd hrunning hne

end Setting

-- ================================================================ the runs

/-- A call of the command: it reads, or it changes an entry. -/
def Resumes : PipelineCall → Prop
  | .file (.openSource _ _) => True
  | .file (.statFd _) => True
  | .file (.read _ _) => True
  | .file (.fdatasync _) => True
  | .file (.renameNoReplace _ _) => True
  | .file (.unlinkAt _) => True
  | .file .fsyncDirectory => True
  | .file _ => False
  | _ => True

/-- Reading is part of resuming. -/
theorem resumes_of_reads {c : PipelineCall} (h : c.Reads) : Resumes c := by
  cases c with
  | file c => cases c <;> first | exact trivial | exact h.elim
  | _ => exact trivial

/-- Such a call has an answer in every state. -/
theorem Resumes.answered {strerror : Nat → Bytes} {blake3 : Bytes → Digest}
    {c : PipelineCall} (w : Machine) (h : Resumes c) :
    ∃ r w', pipelineEffects strerror blake3 .none c w r w' := by
  have hreads : ¬c.Reads →
      ∃ r w', pipelineActs strerror blake3 .none c w r w' := by
    intro hno
    cases c with
    | file c =>
        suffices ∃ r disk, fileActs strerror blake3 c w.disk r disk by
          obtain ⟨r, disk, hc⟩ := this
          exact ⟨r, _, disk, rfl, .inl hc⟩
        cases c with
        | fdatasync fd =>
            simp only [fileActs]
            cases w.disk.openFile? fd with
            | none => exact ⟨_, _, rfl, rfl⟩
            | some of => exact ⟨_, _, rfl, rfl⟩
        | renameNoReplace oldName newName =>
            simp only [fileActs]
            cases validateLeafName oldName with
            | error e => exact ⟨_, _, rfl, rfl⟩
            | ok u =>
                cases validateLeafName newName with
                | error e => exact ⟨_, _, rfl, rfl⟩
                | ok u =>
                    cases w.disk.targets oldName with
                    | none => exact ⟨_, _, rfl, rfl⟩
                    | some index =>
                        cases w.disk.targets newName with
                        | none => exact ⟨_, _, rfl, rfl⟩
                        | some taken => exact ⟨_, _, rfl, rfl⟩
        | unlinkAt name =>
            simp only [fileActs]
            cases validateLeafName name with
            | error e => exact ⟨_, _, rfl, rfl⟩
            | ok u =>
                cases w.disk.targets name with
                | none => exact ⟨_, _, rfl, rfl⟩
                | some index => exact ⟨_, _, rfl, rfl⟩
        | fsyncDirectory => exact ⟨_, _, rfl, rfl⟩
        | openSource _ _ => exact absurd trivial hno
        | statFd _ => exact absurd trivial hno
        | read _ _ => exact absurd trivial hno
        | _ => exact h.elim
    | _ => exact absurd trivial hno
  by_cases hc : c.Reads
  · exact hc.answered w
  · obtain ⟨r, w', hacts⟩ := hreads hc
    exact ⟨r, w', quiet_iff.2 hacts⟩

section Calls

variable {blake3 : Bytes → Digest} {planId : Bytes} {rounds : Nat} {job : Job}
  {reason : Bytes}

/-- One call of resume. -/
theorem uses_one {c : PipelineCall} (h : Resumes c) : (ask c).Uses Resumes :=
  ⟨h, fun _ => trivial⟩

/-- A call of the repository. -/
private theorem uses_repository (c : RepositoryCall) :
    (repository c).Uses Resumes := .lift (uses_one trivial)

/-- Opening a job. -/
theorem openJob_uses {epoch : Nat} {asset : MinimalPlanAsset} :
    (openJob blake3 planId epoch asset).Uses Resumes := by
  unfold openJob
  refine .bind (.ofExcept _) fun task => ?_
  refine .bind (uses_repository _) fun runtime => ?_
  cases runtime.attemptId with
  | none => exact .throw _
  | some attemptId => exact .ite (.throw _) (.ite (.throw _) (.pure _))

/-- Reading a receipt. -/
theorem readReceipt_uses : (readReceipt job).Uses Resumes := by
  unfold readReceipt
  refine .bind (uses_repository _).result fun stored => ?_
  cases stored with
  | ok receipt =>
      refine .ite (.pure _) (.bind (uses_repository _) fun _ => .throw _)
  | error e => exact .ite (.pure _) (.throw _)

/-- Observing a file. -/
theorem observeRecoveryFile_uses {path : Bytes} {size : UInt64}
    {digest : Digest} {temp : Bool} {observed : ObservedFileState} :
    (observeRecoveryFile blake3 path size digest temp observed rounds).Uses
      Resumes := by
  unfold observeRecoveryFile
  refine .bind (.ofExcept _) fun path => ?_
  refine .bind (.result (.lift (uses_one trivial))) fun file => ?_
  cases file with
  | error e => exact .ite (.pure _) (.throw _)
  | ok fd =>
      refine .bind ((verifyBinary_calls trivial trivial).mono fun _ => resumes_of_reads) ?_
      exact fun verification => .pure _

/-- Observing a source. -/
theorem observeSource_uses {asset : MinimalPlanAsset} :
    (observeSource asset).Uses Resumes := by
  unfold observeSource
  refine .bind (.result (.bind (.lift (uses_one trivial)) fun fd => ?_)) ?_
  · exact .bind (.lift (uses_one trivial)) fun _ => .ite (.throw _) (.pure _)
  · intro sourceGuard
    cases sourceGuard with
    | ok guard => exact .pure _
    | error e => exact .ite (.pure _) (.ite (.pure _) (.throw _))

/-- Examining a task. -/
theorem examine_uses {sourceManifestId targetRoot : Bytes} {epoch : Nat}
    {asset : MinimalPlanAsset} :
    (examine blake3 sourceManifestId targetRoot planId epoch asset rounds).Uses
      Resumes := by
  unfold examine observe
  refine .bind openJob_uses fun job => .bind readReceipt_uses fun job => ?_
  refine .bind (.lift (uses_one trivial)) fun root => ?_
  refine .bind (.lift (uses_one trivial)) fun _ => ?_
  refine .bind (.lift (uses_one trivial)) fun _ => ?_
  refine .bind (.bind observeSource_uses fun _ => ?_) fun observed => ?_
  · refine .bind observeRecoveryFile_uses fun _ => ?_
    exact .bind observeRecoveryFile_uses fun _ => .pure _
  · exact .bind (.ofExcept _) fun decision => .pure _

/-- Completing a task. -/
private theorem complete_uses : (complete job reason).Uses Resumes :=
  .bind (uses_repository _) fun _ => .lift (uses_one trivial)

/-- Giving a task back. -/
theorem giveBack_uses {reason : String} : (giveBack job reason).Uses Resumes :=
  .bind (uses_repository _) fun _ => .throw _

/-- Confirming a final. -/
theorem confirm_uses {temp : Bool} :
    (confirm blake3 job temp rounds).Uses Resumes := by
  unfold confirm
  refine .bind observeRecoveryFile_uses.result fun seen => ?_
  cases seen with
  | error e => exact .pure _
  | ok found => exact .pure _

/-- Adopting a final. -/
theorem adopt_uses {cleanup : Bool} :
    (adopt blake3 job reason cleanup rounds).Uses Resumes := by
  unfold adopt
  refine .bind confirm_uses fun _ => .ite giveBack_uses (.ite ?_ complete_uses)
  unfold cleanUp
  refine .bind confirm_uses fun _ => .ite giveBack_uses ?_
  refine .bind (.lift (uses_one trivial)) fun _ => ?_
  exact .bind (.lift (uses_one trivial)) fun _ => complete_uses

/-- Going on with a commit. -/
theorem resumeCommit_uses :
    (resumeCommit blake3 job reason rounds).Uses Resumes := by
  unfold resumeCommit
  refine .bind (.ofExcept _) fun path => ?_
  refine .bind (.lift (uses_one trivial)) fun fd => ?_
  refine .bind ((verifyBinary_calls trivial trivial).mono fun _ => resumes_of_reads) fun _ => ?_
  refine .ite giveBack_uses (.bind (.lift (uses_one trivial)) fun _ => ?_)
  refine .bind (.lift (uses_one trivial)) fun _ => ?_
  exact .bind (.lift (uses_one trivial)) fun _ => complete_uses

/-- Acting on a decision. -/
theorem act_uses {decision : ReconcileDecision} :
    (act blake3 job decision rounds).Uses Resumes := by
  unfold act
  cases decision.action with
  | retryTask => exact .bind (uses_repository _) fun _ => .throw _
  | targetConflict => exact .bind (uses_repository _) fun _ => .throw _
  | inconsistent => exact .bind (uses_repository _) fun _ => .throw _
  | adoptFinal => exact adopt_uses
  | adoptFinalAndCleanupTemp => exact adopt_uses
  | resumeCommitFromTemp => exact resumeCommit_uses
  | reverifyCommitted => exact .throw _

/-- Recovering one task. -/
theorem recoverOne_uses {codec : Codec} {sourceManifestId targetRoot : Bytes}
    {epoch : Nat} {asset : MinimalPlanAsset} :
    (recoverOne codec blake3 sourceManifestId targetRoot planId epoch rounds
      asset).Uses Resumes := by
  unfold recoverOne
  refine .bind examine_uses.result fun examined => ?_
  match examined with
  | .error e => exact .pure _
  | .ok (job, observed, decision) =>
      refine .bind (.ofExcept _) fun report => ?_
      exact .bind (.lift (uses_one trivial)) fun _ => act_uses.result

/-- Recovering all of them. -/
theorem recoverAll_uses
    {recover : MinimalPlanAsset → PipelineM (Except Status Unit)}
    (h : ∀ asset, (recover asset).Uses Resumes) (assets : List MinimalPlanAsset) :
    ∀ first, (recoverAll recover assets first).Uses Resumes := by
  induction assets with
  | nil => exact fun first => .pure first
  | cons asset rest ih =>
      intro first
      unfold recoverAll
      rw [List.foldlM_cons]
      exact .bind (.bind (h asset) fun _ => .pure _) ih

/-- Finding the running ones. -/
theorem runningAssets_uses (assets : List MinimalPlanAsset) :
    (runningAssets blake3 planId assets).Uses Resumes := by
  induction assets with
  | nil => exact .pure _
  | cons asset rest ih =>
      unfold runningAssets
      refine .bind (.ofExcept _) fun candidate => ?_
      refine .bind (uses_repository _) fun runtime => .bind ih fun running => ?_
      exact .ite (.pure _) (.pure _)

/-- The command makes no calls but those of resume. -/
theorem execute_uses {codec : Codec} {layout : WorkspaceLayout}
    {inputPath : Bytes} :
    (execute codec blake3 layout inputPath rounds).Uses Resumes := by
  unfold execute
  refine .bind (.lift (uses_one trivial)) fun bytes => ?_
  refine .bind (.ofExcept _) fun artifact => .ite (.throw _) ?_
  refine .bind (.lift (uses_one trivial)) fun _ => ?_
  refine .bind (.lift (uses_one trivial)) fun _ => ?_
  refine .bind (runningAssets_uses _) fun running => ?_
  unfold recoverRunning
  refine .ite (.throw _) (.bind (uses_repository _) fun epoch => ?_)
  exact .bind (recoverAll_uses (fun _ => recoverOne_uses) _ _) fun _ =>
    .ofExcept _

end Calls

namespace Setting

variable (σ : Setting)

/-- The command has a run, and what it is for is true of every run. -/
theorem execute_runs (hapart : σ.Apart) (hrunning : σ.running ≠ []) :
    σ.Runs σ.Finished := by
  refine ⟨σ.bound, fun rounds hrounds => ⟨?_, fun r w hrun => ?_⟩⟩
  · exact exists_returns (fun c w hc => hc.answered w) execute_uses σ.machine
  · obtain ⟨result, rfl, hend⟩ :=
      (σ.execute_spec hapart hrunning hrounds).returns hrun
    cases result with
    | ok a => exact hend
    | error e => exact hend

/-- With one RUNNING task there is nothing to keep apart. -/
theorem apart_of_single {asset : MinimalPlanAsset} (h : σ.running = [asset]) :
    σ.Apart := by
  have hone : ∀ a ∈ σ.running, a = asset := fun a ha => by
    rw [h] at ha
    exact List.mem_singleton.1 ha
  constructor
  · intro a ha b hb hne
    exact absurd ((hone a ha).trans (hone b hb).symm) hne
  · intro a ha b hb hne
    exact absurd ((hone a ha).trans (hone b hb).symm) hne

/-- Where a task ends is decided by its evidence alone. -/
theorem independent (h : σ.Runs σ.Finished) : σ.Independent := by
  intro asset hasset τ hblake3 hsingle hevidence
  refine h.mono fun r w hfinished => ?_
  have hτ : asset ∈ τ.running := hsingle ▸ List.mem_singleton_self asset
  have hnonempty : τ.running ≠ [] := List.ne_nil_of_mem hτ
  refine (τ.execute_runs (τ.apart_of_single hsingle) hnonempty).mono
    fun r' w' hfinished' => ?_
  obtain ⟨e, he, hend⟩ := hfinished.ended asset hasset
  obtain ⟨e', he', hend'⟩ := hfinished'.ended asset hτ
  cases he'.symm.trans (hevidence.trans he)
  rw [hend, hend', hblake3]

end Setting

/-- A photo at the shore, in a file of its own. -/
def shore : MinimalPlanAsset := { beach with
  sourceIdentity := { beach.sourceIdentity with inode := 7 } }

def interruptedPlan : CanonicalMinimalPlan := .ofInput (albumOf [attic, shore])

/-- The plan has two photos. -/
theorem interrupted_assets : interruptedPlan.assets = [attic, shore] := by
  decide +kernel

/-- Each asset is one of the two. -/
theorem mem_interrupted {asset : MinimalPlanAsset}
    (h : asset ∈ interruptedPlan.assets) : asset = attic ∨ asset = shore := by
  rw [interrupted_assets] at h
  exact List.mem_pair.1 h

/-- The plan is read back as it was written. -/
theorem interrupted_read :
    readFrozenPlan utf8Strict VerifyService.lastBytes
        (VerifyService.photosBytes [attic, shore])
      = .ok (VerifyService.photosFile [attic, shore]) := by
  refine VerifyService.photos_read rfl (fun asset hasset => ?_)
    (by decide +kernel)
  rcases mem_interrupted hasset with rfl | rfl
  · exact ⟨isUtf8_text _, isUtf8_text _⟩
  · exact ⟨isUtf8_text _, isUtf8_text _⟩

/-- The task of a photo. -/
def photoTask (asset : MinimalPlanAsset) : TaskSpec :=
  { unkeyedTaskSpec asset with
    id := VerifyService.taskIdOf asset
    taskKey := VerifyService.taskIdOf asset }

/-- The plan before its tasks. -/
def plannedAlbum : Db := { Db.empty with
  manifests := [⟨text "manifest", text "/source"⟩]
  migrations := [⟨text "m", [], [], 0⟩]
  plans := [⟨text "plan", text "m", [], .zero, .zero, 0⟩] }

/-- Both tasks are claimed, and then nothing more happens. -/
def interruptedHistory : List (Nat × Action) :=
  [(0, .call (.acquireNextExecutionEpoch (text "plan"))),
    (0, .call (.addTask (text "plan") (photoTask attic))),
    (0, .call (.addTask (text "plan") (photoTask shore))),
    (0, .call (.setReady (text "plan") (photoTask attic).id)),
    (0, .call (.setReady (text "plan") (photoTask shore).id)),
    (1, .call (.claimNextReady (text "plan") 1 none)),
    (2, .call (.claimNextReady (text "plan") 1 none))]

def interruptedStore : Store :=
  ((Store.opened plannedAlbum).after [] interruptedHistory).1

/-- The first photo has the size the plan has for it. -/
theorem attic_size : attic.sourceIdentity.size.toNat = (text "sun").length := by
  decide +kernel

/-- The second photo has the size the plan has for it. -/
theorem shore_size : shore.sourceIdentity.size.toNat = (text "sea").length := by
  decide +kernel

/-- Only the sources are there. -/
def interruptedDisk : Disk where
  files := [
    VerifyService.fileOf attic.sourceIdentity (text "sun") attic_size,
    VerifyService.fileOf shore.sourceIdentity (text "sea") shore_size]
  sources path :=
    if path = [97] then .file 0 else if path = [98] then .file 1 else .absent
  targets _ := none
  opened := []

/-- Calls other than receipts, outside of batches, are the pipeline's way. -/
theorem preparing_call {blake3 : Bytes → Digest} {store : Store} {i : Nat}
    {call : Call} (hstopped : store.stopped i = false)
    (hcall : ∀ planId receipt,
      call ≠ .persistVerifiedReceipt planId receipt) :
    preparing blake3 store i (.call call) := by
  refine ⟨fun h => ?_, fun planId receipt h => ?_⟩
  · rw [hstopped] at h
    cases h
  · cases h
    exact absurd rfl (hcall planId receipt)

/-- The store is one a run of the repository comes to. -/
theorem interrupted_run : ∃ t,
    Run (preparing VerifyService.lastBytes) plannedAlbum t interruptedStore := by
  have hstart : Run (preparing VerifyService.lastBytes) plannedAlbum []
      (Store.opened plannedAlbum) := .start
  exact ⟨_, ((((((hstart.act 0 _ [] (preparing_call rfl fun _ _ => Call.noConfusion)).act 0 _ []
    (preparing_call (by decide +kernel) fun _ _ => Call.noConfusion)).act 0 _ []
    (preparing_call (by decide +kernel) fun _ _ => Call.noConfusion)).act 0 _ []
    (preparing_call (by decide +kernel) fun _ _ => Call.noConfusion)).act 0 _ []
    (preparing_call (by decide +kernel) fun _ _ => Call.noConfusion)).act 1 _ []
    (preparing_call (by decide +kernel) fun _ _ => Call.noConfusion)).act 2 _ []
    (preparing_call (by decide +kernel) fun _ _ => Call.noConfusion)⟩

/-- What the row of a photo's task says. -/
def interruptedRuntime (asset : MinimalPlanAsset) : TaskRuntime where
  id := (photoTask asset).id
  state := .running
  ownerEpoch := 1
  attemptId := some (text "attempt-plan-" ++ (photoTask asset).id ++ text "-1")
  attemptCount := 1
  lastError := none

/-- No path leads to a file that is not there. -/
theorem interrupted_sound : interruptedDisk.Sound :=
  VerifyService.photos_sound (by decide) nofun

/-- Both tasks are RUNNING. -/
theorem interrupted_running : ∀ asset ∈ [attic, shore],
    taskSpecForPlanAsset VerifyService.lastBytes asset = .ok (photoTask asset)
      ∧ (Repository.readRuntime (text "plan") (photoTask asset).id :
          DbTxn TaskRuntime) interruptedStore.committed
        = .ok (interruptedRuntime asset, interruptedStore.committed) := by
  intro asset hasset
  rcases List.mem_pair.1 hasset with rfl | rfl
  · exact ⟨rfl, rfl⟩
  · exact ⟨rfl, rfl⟩

/-- The workspace of an accepted plan of both photos. -/
def interruptedSetting : Setting where
  strerror _ := []
  blake3 := VerifyService.lastBytes
  codec := utf8Strict
  layout := ⟨text "/w", text "/w/db", [], [], [], [], []⟩
  inputPath := text "plan.jsonl"
  machine := ⟨interruptedDisk, interruptedStore.committed,
    fun _ => some (VerifyService.photosBytes [attic, shore]), []⟩
  artifact := VerifyService.photosFile [attic, shore]
  lawful := utf8Strict_lawful
  encoded := utf8Strict_encoded
  sound := interrupted_sound
  accepted := ⟨_, rfl, interrupted_read⟩
  reachable := by
    obtain ⟨t, hrun⟩ := interrupted_run
    exact ⟨_, t, _, ⟨rfl, rfl, rfl, rfl, rfl⟩, hrun, rfl⟩
  materialized := by
    show ∃ tasks, TasksOf VerifyService.lastBytes interruptedPlan.assets tasks
      ∧ _
    rw [interrupted_assets]
    refine ⟨[photoTask attic, photoTask shore], ?_, by decide +kernel, ?_⟩
    · exact .cons rfl (.cons rfl .nil)
    · intro task htask
      rcases List.mem_pair.1 htask with rfl | rfl
      · exact ⟨rfl, _, rfl⟩
      · exact ⟨rfl, _, rfl⟩
  epochs := ⟨_, _, rfl⟩
  manifest := ⟨text "/source", rfl⟩
  single := by
    show ∀ asset ∈ interruptedPlan.assets, _
    rw [interrupted_assets]
    decide +kernel
  utf8 := by
    intro asset hasset
    rcases mem_interrupted hasset with rfl | rfl
    · exact isUtf8_text "a"
    · exact isUtf8_text "b"
  distinct := by
    show (interruptedPlan.assets.map (·.targetPath.bytes)).Nodup
    rw [interrupted_assets]
    decide +kernel
  generated := by
    intro asset hasset taskId attemptId heq
    have hhead := congrArg List.head? heq
    rcases mem_interrupted hasset with rfl | rfl
    · cases hhead
    · cases hhead

/-- What the store has of each task. -/
theorem interruptedSetting_runtime {asset : MinimalPlanAsset}
    (hasset : asset ∈ [attic, shore]) :
    interruptedSetting.runtimeIn interruptedStore.committed
      asset = some (interruptedRuntime asset) := by
  obtain ⟨hspec, hrow⟩ := interrupted_running asset hasset
  unfold Setting.runtimeIn
  show ((taskSpecForPlanAsset VerifyService.lastBytes asset).toOption.bind
    fun task => ((Repository.readRuntime (text "plan") task.id :
      DbTxn TaskRuntime) interruptedStore.committed).toOption.map (·.1)) = _
  rw [hspec]
  show ((Repository.readRuntime (text "plan") (photoTask asset).id :
    DbTxn TaskRuntime) interruptedStore.committed).toOption.map (·.1) = _
  rw [hrow]
  rfl

/-- Both photos are running. -/
theorem interruptedSetting_running :
    interruptedSetting.running = [attic, shore] := by
  have hassets : interruptedSetting.artifact.plan.assets
      = [attic, shore] := interrupted_assets
  unfold Setting.running
  rw [hassets, List.filter_eq_self]
  intro asset hasset
  have hruntime := interruptedSetting_runtime hasset
  show Option.any _ (interruptedSetting.runtimeIn
    interruptedStore.committed asset) = true
  rw [hruntime]
  rfl

/-- Their temps have different names, and neither is a source. -/
theorem interruptedSetting_apart :
    interruptedSetting.Apart := by
  have hdifferent : tempNameFor VerifyService.lastBytes (text "plan")
        (interruptedRuntime attic).id
        ((interruptedRuntime attic).attemptId.getD [])
      ≠ tempNameFor VerifyService.lastBytes (text "plan")
        (interruptedRuntime shore).id
        ((interruptedRuntime shore).attemptId.getD []) := by
    decide +kernel
  constructor
  · rw [interruptedSetting_running]
    intro a ha b hb hne ra rb hra hrb
    cases (interruptedSetting_runtime ha).symm.trans hra
    cases (interruptedSetting_runtime hb).symm.trans hrb
    show tempNameFor VerifyService.lastBytes (text "plan") _ _
      ≠ tempNameFor VerifyService.lastBytes (text "plan") _ _
    rcases List.mem_pair.1 ha with rfl | rfl
    · rcases List.mem_pair.1 hb with rfl | rfl
      · exact absurd rfl hne
      · exact hdifferent
    · rcases List.mem_pair.1 hb with rfl | rfl
      · exact hdifferent.symm
      · exact absurd rfl hne
  · rw [interruptedSetting_running]
    intro a ha b _ _ rb _
    rcases List.mem_pair.1 ha with rfl | rfl
    · exact ⟨SourceEntry.noConfusion, SourceEntry.noConfusion⟩
    · exact ⟨SourceEntry.noConfusion, SourceEntry.noConfusion⟩

end PhotoBridge.RecoveryService
