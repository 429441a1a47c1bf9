/-
The calls the pipeline makes, and the machine they act on
(`linux_file_ops.cpp`, `pipeline_shared.cpp`).

# The machine

A file is its present version and those before it; no two of them have
the same identity, which is what `StatFd` relies on the file system for:
a change of the content moves the time of the last change. Two
directories are open, the source root and the target root. A path of the
source root can lead to an entry of the target root, because nothing
keeps the two apart.

# What goes wrong

`Trouble` says what can: whether calls may fail for reasons of their own,
and which files others may modify behind the program's back, before or
during any call. Under `Trouble.none` a call fails only for what stands
in its way, a name that is taken or that is not there, and a transfer
moves what it likes but something.
-/
import PhotoBridge.Lib.Attempt
import PhotoBridge.Copy.IoUring
import PhotoBridge.Db.Repository

namespace PhotoBridge

open Concurrent Transaction

-- ============================================================= the files

/-- One state of a file: what `StatFd` reports of it, and its bytes. -/
structure FileVersion where
  identity : FileIdentity
  content : Bytes
  size : identity.size.toNat = content.length

/-- A file: its present version and the earlier ones, the latest first. -/
structure DiskFile where
  current : FileVersion
  past : List FileVersion
  distinct : ((current :: past).map (·.identity)).Nodup
  /-- The present version has been synced. -/
  synced : Bool

def DiskFile.versions (f : DiskFile) : List FileVersion := f.current :: f.past

/-- The file after any number of modifications. -/
def DiskFile.Becomes (f g : DiskFile) : Prop := f.versions <:+ g.versions

/-- The two directories. -/
inductive Root
  | source | target
  deriving DecidableEq

/-- What a path of the source root leads to. -/
inductive SourceEntry
  | absent
  | file (index : Nat)
  /-- An entry of the target root. -/
  | target (name : Bytes)
  deriving DecidableEq

/-- An open file and the position in it. -/
structure OpenFile where
  file : Nat
  position : Nat
  deriving DecidableEq

/-- The files, the two directories and the open files; a descriptor is
the place in `opened`. -/
structure Disk where
  files : List DiskFile
  sources : Bytes → SourceEntry
  targets : Bytes → Option Nat
  opened : List OpenFile

namespace Disk

/-- The file a path leads to. -/
def lookUp (d : Disk) : Root → Bytes → Option Nat
  | .target, path => d.targets path
  | .source, path => match d.sources path with
      | .absent => none
      | .file index => some index
      | .target name => d.targets name

/-- The file behind a descriptor, and the position in it. -/
def openFile? (d : Disk) (fd : Nat) : Option (OpenFile × DiskFile) :=
  d.opened[fd]?.bind fun o => d.files[o.file]?.map fun f => (o, f)

/-- What a path leads to, as it is now. -/
def version? (d : Disk) (root : Root) (path : Bytes) : Option FileVersion :=
  (d.lookUp root path).bind fun index => d.files[index]?.map (·.current)

/-- No path leads to a file that is not there. -/
def Sound (d : Disk) : Prop :=
  ∀ root path index, d.lookUp root path = some index →
    index < d.files.length

/-- The descriptor moves to another position. -/
def seek (d : Disk) (fd : Nat) (o : OpenFile) (position : Nat) : Disk :=
  { d with opened := d.opened.set fd { o with position } }

/-- A file opened at its beginning. -/
def opening (d : Disk) (index : Nat) : Disk :=
  { d with opened := d.opened ++ [⟨index, 0⟩] }

end Disk

-- ============================================================= the calls

/-- `ValidateLeafName`. -/
def validateLeafName (name : Bytes) : Except Status Unit :=
  if name.isEmpty || name.contains 47 || hasNul name || name == text "."
      || name == text ".." then
    .error (.invalid "name must be a single safe path component")
  else .ok ()

/-- The calls of `LinuxFileOps`, and the accelerated copy. -/
inductive FileCall
  | openSource (root : Root) (path : RelativePath)
  | statFd (fd : Nat)
  | read (fd size : Nat)
  | createTempNoReplace (name : Bytes)
  | write (fd : Nat) (data : Bytes)
  | fdatasync (fd : Nat)
  | renameNoReplace (oldName newName : Bytes)
  | unlinkAt (name : Bytes)
  | fsyncDirectory
  | tryIoUringCopyAndHash (sourceFd targetFd : Nat) (sourceSize : UInt64)

/-- What each call answers with; `Read` with the bytes it has put into the
buffer. -/
abbrev FileCall.Answer : FileCall → Type
  | .openSource _ _ => Except Status Nat
  | .statFd _ => Except Status FileIdentity
  | .read _ _ => Except Status Bytes
  | .createTempNoReplace _ => Except Status Nat
  | .write _ _ => Except Status Nat
  | .tryIoUringCopyAndHash _ _ _ => Except Status (Option CopyResult)
  | _ => Except Status Unit

/-- The operations of `TaskRuntimeRepository` the pipeline uses. -/
inductive RepositoryCall
  | markCommitIntent (planId taskId : Bytes) (epoch : Nat)
      (attemptId : Bytes)
  | markTempWritten (planId taskId : Bytes) (epoch : Nat) (attemptId : Bytes)
  | persistVerifiedReceipt (planId : Bytes) (receipt : VerifiedReceipt)
  | readRuntime (planId taskId : Bytes)
  | readVerifiedReceipt (planId taskId attemptId : Bytes)
  | acquireNextExecutionEpoch (planId : Bytes)
  | recoverSucceeded (planId taskId : Bytes) (recoveryEpoch oldEpoch : Nat)
      (oldAttemptId reason : Bytes)
  | recoverRetryable (planId taskId : Bytes) (recoveryEpoch oldEpoch : Nat)
      (oldAttemptId reason : Bytes)
  | recoverInconsistent (planId taskId : Bytes)
      (recoveryEpoch oldEpoch : Nat) (oldAttemptId reason : Bytes)

/-- What an operation returns. -/
abbrev RepositoryCall.Value : RepositoryCall → Type
  | .readRuntime _ _ => TaskRuntime
  | .readVerifiedReceipt _ _ _ => VerifiedReceipt
  | .acquireNextExecutionEpoch _ => Nat
  | _ => Unit

section

variable {m : Type → Type} [Monad m] [MonadExceptOf Status m] [SqlMonad m]
  [TxnMonad m]

/-- The operation behind a call, in either reading. -/
def RepositoryCall.run : (c : RepositoryCall) → m c.Value
  | .markCommitIntent p t e a => Repository.markCommitIntent p t e a
  | .markTempWritten p t e a => Repository.markTempWritten p t e a
  | .persistVerifiedReceipt p receipt =>
      Repository.persistVerifiedReceipt p receipt
  | .readRuntime p t => Repository.readRuntime p t
  | .readVerifiedReceipt p t a => Repository.readVerifiedReceipt p t a
  | .acquireNextExecutionEpoch p => Repository.acquireNextExecutionEpoch p
  | .recoverSucceeded p t e old a reason =>
      Repository.recoverSucceeded p t e old a reason
  | .recoverRetryable p t e old a reason =>
      Repository.recoverRetryable p t e old a reason
  | .recoverInconsistent p t e old a reason =>
      Repository.recoverInconsistent p t e old a reason

end

/-- Everything the pipeline asks of the machine. -/
inductive PipelineCall
  | readPlanFile (path : Bytes)
  | acquireLock (path : Bytes)
  /-- `SqliteConnection::Open` and `EnsureSchema`. -/
  | openDatabase (path : Bytes)
  | readManifestSourceRoot (manifestId : Bytes)
  | repository (c : RepositoryCall)
  /-- `OpenRoot` of an existing directory, which from then on is this
  root. -/
  | openRoot (root : Root) (path : Bytes)
  | file (c : FileCall)
  /-- `context.out << text`. -/
  | print (text : Bytes)

abbrev pipelineCalls : Interface where
  Call := PipelineCall
  Answer
    | .readPlanFile _ => Except Status Bytes
    | .readManifestSourceRoot _ => Except Status Bytes
    | .repository c => Except Status c.Value
    | .file c => c.Answer
    | _ => Except Status Unit

/-- What the functions of the pipeline are. -/
abbrev PipelineM := Attempt pipelineCalls Status

-- =========================================================== the machine

/-- What can go wrong by itself. -/
structure Trouble where
  /-- Calls may fail for reasons of their own. -/
  fails : Prop
  /-- The files others may modify. -/
  disturbed : Nat → Prop

def Trouble.none : Trouble := ⟨False, fun _ => False⟩

structure Machine where
  disk : Disk
  db : Db
  /-- The frozen plans in the file system. -/
  planFiles : Bytes → Option Bytes
  output : Bytes

/-- `ReadManifestSourceRoot`. -/
def Db.readManifestSourceRoot (db : Db) (manifestId : Bytes) :
    Except Status Bytes :=
  match db.manifests.find? (·.manifestId == manifestId) with
  | none => .error ⟨.notFound,
      text "source manifest was not found: " ++ manifestId⟩
  | some row =>
      if row.sourceRoot.isEmpty then
        .error (.internal "manifest source root is empty")
      else .ok row.sourceRoot

/-- `ReadPlanFile`. -/
def Machine.readPlanFile (w : Machine) (path : Bytes) : Except Status Bytes :=
  match w.planFiles path with
  | none => .error ⟨.notFound, text "open frozen plan: " ++ path⟩
  | some bytes => .ok bytes

/-- Others have modified files, as far as they may. -/
structure Disk.Disturbed (trouble : Trouble) (d d' : Disk) : Prop where
  sources : d'.sources = d.sources
  targets : d'.targets = d.targets
  opened : d'.opened = d.opened
  length : d'.files.length = d.files.length
  files : ∀ i f f', d.files[i]? = some f → d'.files[i]? = some f' →
    f' = f ∨ trouble.disturbed i ∧ f.Becomes f'

/-- One file is written to, the others are as they were. -/
structure Disk.Writes (d : Disk) (index : Nat) (f : DiskFile) (content : Bytes)
    (d' : Disk) : Prop where
  file : ∃ g, d'.files = d.files.set index g ∧ f.Becomes g
    ∧ g.current.content = content ∧ (g = f ∨ g.synced = false)
  sources : d'.sources = d.sources
  targets : d'.targets = d.targets

section

variable (strerror : Nat → Bytes) (blake3 : Bytes → Digest)

/-- `chunk_size` and `queue_depth` where the caller gives none. -/
def ioUringArgs (sourceFd targetFd : Nat) (sourceSize : UInt64) :
    IoUring.Args :=
  ⟨sourceFd, targetFd, sourceSize.toNat, 2 ^ 20, 4⟩

/-- The accelerated copy of one open file into another, under some
kernel that moves no more than it was asked to, on a thread with some
past. -/
def IoUringCopies (sourceFd targetFd : Nat) (sourceSize : UInt64)
    (source target : Bytes) (r : Except Status (Option CopyResult))
    (target' : Bytes) : Prop :=
  ∃ kernel disabled fuel th th' clock w', kernel.Honest
    ∧ IoUring.Thread.Reachable th
    ∧ IoUring.tryIoUringCopyAndHash kernel
        (ioUringArgs sourceFd targetFd sourceSize) blake3 disabled fuel th
        ⟨source, target, .fresh, clock⟩ = (some r, th', w')
    ∧ w'.target = target'

/-- What a call does to the disk when nothing but the disk is in its
way. -/
def fileActs : (c : FileCall) → Disk → c.Answer → Disk → Prop
  | .openSource root path, d, r, d' =>
      match d.lookUp root path.bytes with
      | some index => r = .ok d.opened.length ∧ d' = d.opening index
      | none => r = .error (statusFromErrno strerror eNOENT
            "open source relative path")
          ∧ d' = d
  | .statFd fd, d, r, d' =>
      match d.openFile? fd with
      | some (_, f) => r = .ok f.current.identity ∧ d' = d
      | none => r = .error (statusFromErrno strerror eBADF
            "fstat file descriptor")
          ∧ d' = d
  | .read fd size, d, r, d' =>
      match d.openFile? fd with
      | some (o, f) => ∃ n, n ≤ size ∧ n ≤ f.current.content.length - o.position
          ∧ (0 < size → o.position < f.current.content.length → 0 < n)
          ∧ r = .ok ((f.current.content.drop o.position).take n)
          ∧ d' = d.seek fd o (o.position + n)
      | none => r = .error (statusFromErrno strerror eBADF
            "read file descriptor")
          ∧ d' = d
  | .createTempNoReplace name, d, r, d' =>
      match validateLeafName name, d.targets name with
      | .error e, _ => r = .error e ∧ d' = d
      | .ok (), some _ => r = .error (statusFromErrno strerror eEXIST
            "create temporary file")
          ∧ d' = d
      | .ok (), none => ∃ f : DiskFile, f.current.content = []
          ∧ r = .ok d.opened.length
          ∧ d' = { d with
            files := d.files ++ [f]
            targets := Function.update d.targets name (some d.files.length)
            opened := d.opened ++ [⟨d.files.length, 0⟩] }
  | .write fd data, d, r, d' =>
      match d.openFile? fd with
      | some (o, f) => ∃ n, n ≤ data.length ∧ (data ≠ [] → 0 < n)
          ∧ r = .ok n
          ∧ d.Writes o.file f (Overwrite.overwrite 0 f.current.content
              o.position (data.take n)) d'
          ∧ d'.opened = d.opened.set fd { o with position := o.position + n }
      | none => r = .error (statusFromErrno strerror eBADF
            "write file descriptor")
          ∧ d' = d
  | .fdatasync fd, d, r, d' =>
      match d.openFile? fd with
      | some (o, f) => r = .ok () ∧ d' = { d with
          files := d.files.set o.file { f with synced := true } }
      | none => r = .error (statusFromErrno strerror eBADF
            "fdatasync file descriptor")
          ∧ d' = d
  | .renameNoReplace oldName newName, d, r, d' =>
      match validateLeafName oldName, validateLeafName newName,
        d.targets oldName, d.targets newName with
      | .error e, _, _, _ => r = .error e ∧ d' = d
      | .ok (), .error e, _, _ => r = .error e ∧ d' = d
      | .ok (), .ok (), none, _ => r = .error (statusFromErrno strerror eNOENT
            "rename without replace")
          ∧ d' = d
      | .ok (), .ok (), some _, some _ => r = .error
            (statusFromErrno strerror eEXIST "rename without replace")
          ∧ d' = d
      | .ok (), .ok (), some index, none => r = .ok () ∧ d' = { d with
          targets := Function.update (Function.update d.targets oldName none)
            newName (some index) }
  | .unlinkAt name, d, r, d' =>
      match validateLeafName name, d.targets name with
      | .error e, _ => r = .error e ∧ d' = d
      | .ok (), none => r = .error (statusFromErrno strerror eNOENT
            "unlink directory entry")
          ∧ d' = d
      | .ok (), some _ => r = .ok () ∧ d' = { d with
          targets := Function.update d.targets name none }
  | .fsyncDirectory, d, r, d' => r = .ok () ∧ d' = d
  | .tryIoUringCopyAndHash sourceFd targetFd sourceSize, d, r, d' =>
      match d.openFile? sourceFd, d.openFile? targetFd with
      | some (_, source), some (o, target) => ∃ content,
          IoUringCopies blake3 sourceFd targetFd sourceSize
            source.current.content target.current.content r content
          ∧ d.Writes o.file target content d' ∧ d'.opened = d.opened
      | _, _ => False

theorem fileActs_statFd {fd : Nat} {o : OpenFile} {f : DiskFile} {d d' : Disk}
    {r : Except Status FileIdentity} (hopen : d.openFile? fd = some (o, f)) :
    fileActs strerror blake3 (.statFd fd) d r d'
      ↔ r = .ok f.current.identity ∧ d' = d := by
  simp only [fileActs, hopen]

theorem fileActs_read {fd size : Nat} {o : OpenFile} {f : DiskFile}
    {d d' : Disk} {r : Except Status Bytes}
    (hopen : d.openFile? fd = some (o, f)) :
    fileActs strerror blake3 (.read fd size) d r d'
      ↔ ∃ n, n ≤ size ∧ n ≤ f.current.content.length - o.position
        ∧ (0 < size → o.position < f.current.content.length → 0 < n)
        ∧ r = .ok ((f.current.content.drop o.position).take n)
        ∧ d' = d.seek fd o (o.position + n) := by
  simp only [fileActs, hopen]

/-- What a call can do besides when calls may fail. A write that reports
trouble may have left anything in its file. -/
def fileFails : (c : FileCall) → Disk → c.Answer → Disk → Prop
  | .read _ size, d, r, d' =>
      ((∃ e, r = .error e) ∨ ∃ chunk, r = .ok chunk ∧ size < chunk.length)
        ∧ d' = d
  | .write fd data, d, r, d' =>
      ((∃ e, r = .error e) ∨ r = .ok 0 ∨ ∃ n, r = .ok n ∧ data.length < n)
        ∧ (d' = d ∨ ∃ o f content, d.openFile? fd = some (o, f)
          ∧ d.Writes o.file f content d' ∧ d'.opened = d.opened)
  | .openSource _ _, d, r, d' => (∃ e, r = .error e) ∧ d' = d
  | .statFd _, d, r, d' => (∃ e, r = .error e) ∧ d' = d
  | .createTempNoReplace _, d, r, d' => (∃ e, r = .error e) ∧ d' = d
  | .fdatasync _, d, r, d' => (∃ e, r = .error e) ∧ d' = d
  | .renameNoReplace _ _, d, r, d' => (∃ e, r = .error e) ∧ d' = d
  | .unlinkAt _, d, r, d' => (∃ e, r = .error e) ∧ d' = d
  | .fsyncDirectory, d, r, d' => (∃ e, r = .error e) ∧ d' = d
  | .tryIoUringCopyAndHash _ _ _, _, _, _ => False

/-- The accelerated copy while its source is being modified: what it
reads, and with it what it writes and returns, may be anything. -/
def copyRaces (trouble : Trouble) :
    (c : FileCall) → Disk → c.Answer → Disk → Prop
  | .tryIoUringCopyAndHash sourceFd targetFd _, d, _, d' =>
      ∃ s source source' o target target', d.openFile? sourceFd = some (s, source)
        ∧ d.openFile? targetFd = some (o, target) ∧ trouble.disturbed s.file
        ∧ source.Becomes source' ∧ source'.current.identity
          ≠ source.current.identity
        ∧ target.Becomes target' ∧ (target' = target ∨ target'.synced = false)
        ∧ d' = { d with files :=
          (d.files.set s.file source').set o.file target' }
  | _, _, _, _ => False

/-- What a call does where nobody modifies anything before it. -/
def pipelineActs (trouble : Trouble) : Effects pipelineCalls Machine
  | .readPlanFile path, w, r, w' =>
      (r = w.readPlanFile path ∨ trouble.fails ∧ ∃ e, r = .error e) ∧ w' = w
  | .acquireLock _, w, r, w' =>
      (r = .ok () ∨ trouble.fails ∧ ∃ e, r = .error e) ∧ w' = w
  | .openDatabase _, w, r, w' =>
      (r = .ok () ∨ trouble.fails ∧ ∃ e, r = .error e) ∧ w' = w
  | .readManifestSourceRoot manifestId, w, r, w' =>
      (r = w.db.readManifestSourceRoot manifestId
        ∨ trouble.fails ∧ ∃ e, r = .error e) ∧ w' = w
  | .repository c, w, r, w' =>
      ∃ repo : Repo, repo.committed = w.db ∧ repo.txn = none
        ∧ repo.memory = none
        ∧ (trouble.fails ∨ repo.faults = [] ∧ repo.busy = false)
        ∧ r = ((c.run : RepoM c.Value) repo).1
        ∧ w' = { w with db := ((c.run : RepoM c.Value) repo).2.committed }
  | .openRoot _ _, w, r, w' =>
      (r = .ok () ∨ trouble.fails ∧ ∃ e, r = .error e) ∧ w' = w
  | .file c, w, r, w' => ∃ disk, w' = { w with disk }
      ∧ (fileActs strerror blake3 c w.disk r disk
        ∨ trouble.fails ∧ fileFails c w.disk r disk
        ∨ copyRaces trouble c w.disk r disk)
  | .print text, w, r, w' =>
      r = .ok () ∧ w' = { w with output := w.output ++ text }

/-- What a call can do: others modify files, then it acts. -/
def pipelineEffects (trouble : Trouble) : Effects pipelineCalls Machine :=
  fun c w r w' => ∃ disk, w.disk.Disturbed trouble disk
    ∧ pipelineActs strerror blake3 trouble c { w with disk } r w'

end

-- ======================================================== one at a time

/-- One call. -/
def ask (c : PipelineCall) : Program pipelineCalls (pipelineCalls.Answer c) :=
  .call c .done

namespace Files

/-- A call of the file system, as a step of a function. -/
def openSource (root : Root) (path : RelativePath) : PipelineM Nat :=
  .lift (ask (.file (.openSource root path)))

def statFd (fd : Nat) : PipelineM FileIdentity :=
  .lift (ask (.file (.statFd fd)))

def read (fd size : Nat) : PipelineM Bytes :=
  .lift (ask (.file (.read fd size)))

def createTempNoReplace (name : Bytes) : PipelineM Nat :=
  .lift (ask (.file (.createTempNoReplace name)))

def write (fd : Nat) (data : Bytes) : PipelineM Nat :=
  .lift (ask (.file (.write fd data)))

def fdatasync (fd : Nat) : PipelineM Unit :=
  .lift (ask (.file (.fdatasync fd)))

def renameNoReplace (oldName newName : Bytes) : PipelineM Unit :=
  .lift (ask (.file (.renameNoReplace oldName newName)))

def unlinkAt (name : Bytes) : PipelineM Unit :=
  .lift (ask (.file (.unlinkAt name)))

def fsyncDirectory : PipelineM Unit := .lift (ask (.file .fsyncDirectory))

def tryIoUringCopyAndHash (sourceFd targetFd : Nat) (sourceSize : UInt64) :
    PipelineM (Option CopyResult) :=
  .lift (ask (.file
    (.tryIoUringCopyAndHash sourceFd targetFd sourceSize)))

end Files

/-- A call of the repository. -/
def repository (c : RepositoryCall) : PipelineM c.Value :=
  .lift (ask (.repository c))

/-- The calls that are made once, before the work starts. -/
def readPlanFile (path : Bytes) : PipelineM Bytes :=
  .lift (ask (.readPlanFile path))

def acquireLock (path : Bytes) : PipelineM Unit :=
  .lift (ask (.acquireLock path))

def openDatabase (path : Bytes) : PipelineM Unit :=
  .lift (ask (.openDatabase path))

def readManifestSourceRoot (manifestId : Bytes) : PipelineM Bytes :=
  .lift (ask (.readManifestSourceRoot manifestId))

def openRoot (root : Root) (path : Bytes) : PipelineM Unit :=
  .lift (ask (.openRoot root path))

def print (text : Bytes) : PipelineM Unit := .lift (ask (.print text))

end PhotoBridge
