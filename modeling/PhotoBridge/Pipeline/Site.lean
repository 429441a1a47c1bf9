/-
Migrate and resume over the whole life of one plan: a workspace, a frozen
plan and its two roots, and any sequence of runs of the two commands on
it, each of which may be killed between any two of its calls.

A kill leaves the files and what is committed; a new process has no file
open. The lock keeps the runs apart, so they follow one another.

What is said here is what the two commands are for. Nothing that could be
read before is lost or changed; what they add to the target root is a temp,
or a copy of a source that has been synced; and a task is SUCCEEDED only
where its final is there, with the size and the digest of its source, and
a receipt says so.
-/
import PhotoBridge.Db.Claims
import PhotoBridge.Pipeline.Migrate
import PhotoBridge.Pipeline.Recovery

namespace PhotoBridge

open Concurrent JsonText

/-- A new process: no file is open. -/
def Machine.restarted (w : Machine) : Machine :=
  { w with disk := { w.disk with opened := [] } }

/-- A workspace without tasks, and a plan. -/
structure Site where
  strerror : Nat → Bytes
  blake3 : Bytes → Digest
  codec : Codec
  layout : WorkspaceLayout
  /-- Calls may fail for reasons of their own. -/
  fails : Prop
  start : Machine
  artifact : FrozenPlanFile
  sound : start.disk.Sound
  fresh : start.db.Fresh
  /-- No target is called like a temp. -/
  generated : ∀ asset ∈ artifact.plan.assets, ∀ taskId attemptId,
    asset.targetPath.bytes
      ≠ tempNameFor blake3 artifact.planId taskId attemptId
  /-- No source is a target that is yet to be made. -/
  settled : ∀ asset ∈ artifact.plan.assets, ∀ name,
    start.disk.sources asset.sourcePath.bytes = .target name →
      start.disk.targets name ≠ none

namespace Site

variable (σ : Site)

/-- Nobody else modifies a file. -/
def trouble : Trouble := ⟨σ.fails, fun _ => False⟩

/-- The artifact is at this path. -/
def PlanAt (path : Bytes) : Prop :=
  ∃ bytes, σ.start.planFiles path = some bytes
    ∧ readFrozenPlan σ.codec σ.blake3 bytes = .ok σ.artifact

/-- A run of migrate on `w` can have reached `w'`. -/
def Migrates (i : MigrationService.Invocation) (w w' : Machine) : Prop :=
  i.layout = σ.layout ∧ σ.PlanAt i.inputPath
    ∧ i.Reaches σ.codec σ.blake3 σ.strerror σ.trouble w.restarted w'

/-- A run of resume on `w` can have reached `w'`. -/
def Resumes (inputPath : Bytes) (rounds : Nat) (w w' : Machine) : Prop :=
  σ.PlanAt inputPath
    ∧ Visits (pipelineEffects σ.strerror σ.blake3 σ.trouble)
      (RecoveryService.execute σ.codec σ.blake3 σ.layout inputPath
        rounds).program w.restarted w'

/-- What any number of runs can have made of the machine, each of them
killed or not. -/
inductive Reached : Machine → Prop
  | start : Reached σ.start
  | migrates {i : MigrationService.Invocation} {w w' : Machine}
      (h : Reached w) (hrun : σ.Migrates i w w') : Reached w'
  | resumes {inputPath : Bytes} {rounds : Nat} {w w' : Machine}
      (h : Reached w) (hrun : σ.Resumes inputPath rounds w w') : Reached w'

-- ====================================================== what it is for

/-- The source of an asset. -/
def source (asset : MinimalPlanAsset) : Option FileVersion :=
  σ.start.disk.version? .source asset.sourcePath.bytes

/-- What the plan has frozen is the source of the asset. -/
def Frozen (asset : MinimalPlanAsset) (source : FileVersion) : Prop :=
  σ.source asset = some source ∧ source.identity = asset.sourceIdentity

/-- As large as the source of the asset, and with its digest. -/
def Agrees (asset : MinimalPlanAsset) (v : FileVersion) : Prop :=
  ∃ source, σ.Frozen asset source ∧ v.identity.size = source.identity.size
    ∧ σ.blake3 v.content = σ.blake3 source.content

/-- The source of the asset, byte for byte. -/
def Copies (asset : MinimalPlanAsset) (v : FileVersion) : Prop :=
  ∃ source, σ.Frozen asset source ∧ v.content = source.content

/-- The temp of an attempt at a task of the plan. -/
def IsTemp (name : Bytes) : Prop :=
  ∃ taskId attemptId,
    name = tempNameFor σ.blake3 σ.artifact.planId taskId attemptId

/-- The final of an asset of the plan, and it is a copy. -/
def IsFinal (name : Bytes) (v : FileVersion) : Prop :=
  ∃ asset ∈ σ.artifact.plan.assets, name = asset.targetPath.bytes
    ∧ σ.Copies asset v

/-- The receipt says of an asset what is true of its source. -/
structure Attests (asset : MinimalPlanAsset) (receipt : VerifiedReceipt) :
    Prop where
  finalPath : receipt.finalPath = asset.targetPath.bytes
  identity : receipt.sourceIdentity = some asset.sourceIdentity
  size : receipt.contentSize = asset.sourceIdentity.size
  digest : ∃ source, σ.Frozen asset source
    ∧ receipt.targetDigest = σ.blake3 source.content
    ∧ receipt.sourceDigest = some (σ.blake3 source.content)

/-- There is a receipt of an attempt at a task. -/
def HasReceipt (db : Db) (taskId attemptId : Bytes) (receipt : VerifiedReceipt) :
    Prop :=
  (Repository.readVerifiedReceipt σ.artifact.planId taskId attemptId :
    DbTxn VerifiedReceipt) db = .ok (receipt, db)

/-- What holds in every state that runs of the two commands can reach. -/
structure Unharmed (w : Machine) : Prop where
  /-- What was there is there, and has not been modified. -/
  kept : ∀ root path v, σ.start.disk.version? root path = some v →
    w.disk.version? root path = some v
  /-- What was added is a temp of the plan, or a final: a synced copy of its
  source. -/
  added : ∀ name index, σ.start.disk.targets name = none →
    w.disk.targets name = some index →
    σ.IsTemp name ∨ ∃ f, w.disk.files[index]? = some f ∧ f.synced = true
      ∧ σ.IsFinal name f.current
  /-- Every stored receipt is true. -/
  attested : ∀ asset ∈ σ.artifact.plan.assets, ∀ task attemptId receipt,
    taskSpecForPlanAsset σ.blake3 asset = .ok task →
    σ.HasReceipt w.db task.id attemptId receipt → σ.Attests asset receipt
  /-- A task that has succeeded has a receipt, and its final is there. -/
  succeeded : ∀ asset ∈ σ.artifact.plan.assets, ∀ task,
    taskSpecForPlanAsset σ.blake3 asset = .ok task →
    w.db.taskState? σ.artifact.planId task.id = some .succeeded →
    (∃ attemptId receipt, σ.HasReceipt w.db task.id attemptId receipt)
      ∧ ∃ final, w.disk.version? .target asset.targetPath.bytes = some final
        ∧ σ.Agrees asset final

/-- The task has a receipt, and its temp is a synced copy of the source. -/
def Prepared (w : Machine) (asset : MinimalPlanAsset) (task : TaskSpec) : Prop :=
  ∃ attemptId receipt, σ.HasReceipt w.db task.id attemptId receipt
    ∧ σ.Attests asset receipt ∧ ∃ index f,
      w.disk.targets receipt.tempPath = some index
        ∧ w.disk.files[index]? = some f ∧ f.synced = true
        ∧ σ.Copies asset f.current

/-- Migrate has nothing left to do: no task of the plan is READY, and one
that is RUNNING has been prepared. -/
def Migrated (w : Machine) : Prop :=
  ∀ asset ∈ σ.artifact.plan.assets, ∀ task,
    taskSpecForPlanAsset σ.blake3 asset = .ok task →
    w.db.taskState? σ.artifact.planId task.id ≠ some .ready
      ∧ (w.db.taskState? σ.artifact.planId task.id = some .running →
        σ.Prepared w asset task)

end Site

end PhotoBridge
