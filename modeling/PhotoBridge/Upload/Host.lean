/-
What the receiver's calls do to the machine it runs on: the store's
operations to the connection, the system calls to the directory tree
below the workspace root.

A system call may fail (`faulty`) and then leaves everything as it was.
Names, unlike the contents of a file, outlive a crash of the machine only
once their directory was synchronised; `synced` tells which have.
-/
import PhotoBridge.Upload.Server

namespace PhotoBridge.Upload

open Concurrent SharedConnection

-- ============================================================ the machine

/-- The connection, and what the other calls work on. -/
structure Host (φ : Type) where
  link : Link UploadDb
  system : φ

/-- An operation of the store as one call: what it does run by itself. -/
def StoreOp.Acts {φ : Type} (quiet : Bool) (outside : Effects storeCalls φ)
    (op : StoreOp) (host : Host φ) (r : op.Answer) (host' : Host φ) : Prop :=
  ∃ w : Shared Unit UploadDb φ,
    Returns (Shared.Acts uploadStatements quiet outside ()) op.program
        (Shared.fresh host.link host.system) r w
      ∧ host' = ⟨w.link, w.outside⟩

abbrev systemCalls : Interface where
  Call := SystemCall
  Answer := SystemCall.Answer

def hostActs {φ : Type} (quiet : Bool) (outside : Effects storeCalls φ)
    (system : Effects systemCalls φ) : Effects serverCalls (Host φ)
  | .inl op, host, r, host' => op.Acts quiet outside host r host'
  | .inr c, host, r, host' =>
      system c host.system r host'.system ∧ host'.link = host.link

/-- A connection just opened on these tables. -/
def Link.opened (db : UploadDb) : Link UploadDb := ⟨db, none, 0⟩

/-- An operation where nothing fails. -/
def StoreOp.answers {φ : Type}
    (outside : (c : storeCalls.Call) → φ → storeCalls.Answer c × φ)
    (op : StoreOp) (host : Host φ) : op.Answer × Host φ :=
  let p := op.program.eval (Shared.answers (τ := Unit) uploadStatements
    (text "refused") outside ()) (Shared.fresh host.link host.system)
  (p.1, ⟨p.2.link, p.2.outside⟩)

theorem StoreOp.answers_acts {φ : Type} {quiet : Bool}
    {effects : Effects storeCalls φ}
    {outside : (c : storeCalls.Call) → φ → storeCalls.Answer c × φ}
    (houtside : ∀ c s, effects c s (outside c s).1 (outside c s).2)
    (op : StoreOp) (host : Host φ) :
    op.Acts quiet effects host (op.answers outside host).1
      (op.answers outside host).2 :=
  ⟨_, Program.eval_returns (Shared.answers_acts houtside) op.program _, rfl⟩

-- =============================================================== the disk

structure Disk where
  /-- The regular files, by name. -/
  files : Path → Option Inode
  directories : Path → Bool
  content : Inode → Bytes
  /-- The names that would outlive a crash of the machine. -/
  synced : Path → Bool
  /-- The files made so far. -/
  next : Inode

namespace Disk

/-- `NAME_MAX`: no component is longer than 255 bytes. -/
def fits (path : Path) : Bool := path.all (·.length ≤ 255)

def taken (disk : Disk) (path : Path) : Bool :=
  (disk.files path).isSome || disk.directories path

/-- A name can be made here. -/
def Admits (disk : Disk) (path : Path) : Prop :=
  disk.taken path = false ∧ disk.directories (parentPath path) = true
    ∧ fits path = true

instance (disk : Disk) (path : Path) : Decidable (disk.Admits path) :=
  inferInstanceAs (Decidable (_ ∧ _ ∧ _))

/-- Giving a name a file. -/
def link (disk : Disk) (path : Path) (file : Inode) : Disk :=
  { disk with
    files := Function.update disk.files path (some file)
    synced := Function.update disk.synced path false }

/-- Taking a name away; a directory stays. -/
def unlink (disk : Disk) (path : Path) : Disk :=
  { disk with
    files := Function.update disk.files path none
    synced := Function.update disk.synced path false }

/-- An empty file under a new name. -/
def create (disk : Disk) (path : Path) : Disk :=
  { disk.link path disk.next with
    content := Function.update disk.content disk.next []
    next := disk.next + 1 }

def append (disk : Disk) (file : Inode) (data : Bytes) : Disk :=
  { disk with content :=
      Function.update disk.content file (disk.content file ++ data) }

def rename (disk : Disk) (old new : Path) (file : Inode) : Disk :=
  (disk.unlink old).link new file

/-- Every name in the directory is made durable. -/
def sync (disk : Disk) (path : Path) : Disk :=
  { disk with synced := fun name =>
      disk.synced name || (parentPath name == path && (disk.files name).isSome) }

/-- A directory with those it stands in. -/
def withDirectories (disk : Disk) (path : Path) : Disk :=
  { disk with directories := fun name =>
      disk.directories name || name.isPrefixOf path }

end Disk

/-- `create_directories`: what it makes, unless there is an error. -/
def Disk.CreatesDirectories (faulty : Bool) (path : Path) (disk : Disk)
    (r : Option Bytes) (disk' : Disk) : Prop :=
  r = none ∧ disk' = disk.withDirectories path
    ∧ (∀ name, name <+: path → disk.files name = none)
  ∨ r ≠ none
    ∧ (disk' = disk ∨ ∃ name, name <+: path ∧ disk' = disk.withDirectories name)
    ∧ (faulty = true ∨ ∃ name, name <+: path ∧ disk.files name ≠ none)

/-- The calls of the store that are not SQLite's. -/
def storeOnDisk (faulty : Bool) : Effects storeCalls Disk
  | .createDirectories path, disk, r, disk' =>
      disk.CreatesDirectories faulty path r disk'
  | .rowsRead available, disk, r, disk' =>
      disk' = disk ∧ r ≤ available ∧ (r = available ∨ faulty = true)

/-- The system calls. -/
def systemOnDisk (faulty : Bool) : Effects systemCalls Disk
  | .createDirectories path, disk, r, disk' =>
      disk.CreatesDirectories faulty path r disk'
  | .isRegularFile path, disk, r, disk' =>
      disk' = disk
        ∧ (r = some (disk.files path).isSome ∨ r = none ∧ faulty = true)
  | .fileSize path, disk, r, disk' =>
      disk' = disk ∧ (r = (disk.files path).map (disk.content · |>.length)
        ∨ r = none ∧ faulty = true)
  | .readFile path, disk, r, disk' =>
      disk' = disk ∧ (r = (disk.files path).map disk.content
        ∨ r = none ∧ faulty = true)
  | .remove path, disk, _, disk' =>
      disk' = disk.unlink path ∨ disk' = disk ∧ faulty = true
  | .unlink path, disk, _, disk' =>
      disk' = disk.unlink path ∨ disk' = disk ∧ faulty = true
  | .openExclusive path, disk, r, disk' =>
      disk.Admits path ∧ r = some disk.next ∧ disk' = disk.create path
        ∨ r = none ∧ disk' = disk ∧ (faulty = true ∨ ¬disk.Admits path)
  | .write fd data, disk, r, disk' =>
      (0 < r ∨ data = []) ∧ r ≤ data.length
          ∧ disk' = disk.append fd (data.take r)
        ∨ r = 0 ∧ disk' = disk ∧ faulty = true
  | .fsync _, disk, r, disk' => disk' = disk ∧ (r = true ∨ faulty = true)
  | .close _, disk, r, disk' => disk' = disk ∧ (r = true ∨ faulty = true)
  | .renameNoReplace old new, disk, r, disk' =>
      (∃ file, disk.files old = some file ∧ disk.Admits new ∧ r = none
          ∧ disk' = disk.rename old new file)
        ∨ r ≠ none ∧ disk' = disk
          ∧ (faulty = true ∨ disk.files old = none ∨ ¬disk.Admits new)
          ∧ (r = some .exist → faulty = true ∨ disk.taken new = true)
  | .openDirectory path, disk, r, disk' =>
      disk' = disk ∧ (r = disk.directories path ∨ r = false ∧ faulty = true)
  | .fsyncDirectory path, disk, r, disk' =>
      r = true ∧ disk' = disk.sync path
        ∨ r = false ∧ disk' = disk ∧ faulty = true
  | .closeDirectory _, disk, _, disk' => disk' = disk

-- ======================================================== without faults

/-- The calls of the store where nothing fails, on a disk without files
where directories are to be. -/
def storeDisk : (c : storeCalls.Call) → Disk → storeCalls.Answer c × Disk
  | .createDirectories path, disk =>
      if ∃ name ∈ path.inits, disk.files name ≠ none then
        (some (text "not a directory"), disk)
      else (none, disk.withDirectories path)
  | .rowsRead available, disk => (available, disk)

/-- The system calls where nothing fails. -/
def systemDisk : (c : SystemCall) → Disk → c.Answer × Disk
  | .createDirectories path, disk => storeDisk (.createDirectories path) disk
  | .isRegularFile path, disk => (some (disk.files path).isSome, disk)
  | .fileSize path, disk =>
      ((disk.files path).map (disk.content · |>.length), disk)
  | .readFile path, disk => ((disk.files path).map disk.content, disk)
  | .remove path, disk => ((), disk.unlink path)
  | .unlink path, disk => ((), disk.unlink path)
  | .openExclusive path, disk =>
      if disk.Admits path then (some disk.next, disk.create path)
      else (none, disk)
  | .write fd data, disk => (data.length, disk.append fd data)
  | .fsync _, disk => (true, disk)
  | .close _, disk => (true, disk)
  | .renameNoReplace old new, disk =>
      match disk.files old with
      | none => (some .other, disk)
      | some file =>
          if disk.Admits new then (none, disk.rename old new file)
          else if disk.taken new then (some .exist, disk)
          else (some .other, disk)
  | .openDirectory path, disk => (disk.directories path, disk)
  | .fsyncDirectory path, disk => (true, disk.sync path)
  | .closeDirectory _, disk => ((), disk)

theorem storeDisk_acts (faulty : Bool) (c : storeCalls.Call) (disk : Disk) :
    storeOnDisk faulty c disk (storeDisk c disk).1 (storeDisk c disk).2 := by
  cases c with
  | rowsRead n => exact ⟨rfl, le_rfl, .inl rfl⟩
  | createDirectories path =>
      by_cases h : ∃ name ∈ path.inits, disk.files name ≠ none
      · simp only [storeDisk, if_pos h]
        obtain ⟨name, hmem, hname⟩ := h
        exact .inr ⟨Option.some_ne_none _, .inl rfl,
          .inr ⟨name, (List.mem_inits _ _).1 hmem, hname⟩⟩
      · simp only [storeDisk, if_neg h]
        refine .inl ⟨rfl, rfl, fun name hname => ?_⟩
        by_cases hnone : disk.files name = none
        · exact hnone
        · exact absurd ⟨name, (List.mem_inits _ _).2 hname, hnone⟩ h

/-- Nothing need fail: every system call has an answer. -/
theorem systemDisk_acts (faulty : Bool) (c : SystemCall) (disk : Disk) :
    systemOnDisk faulty c disk (systemDisk c disk).1 (systemDisk c disk).2 := by
  cases c with
  | createDirectories path => exact storeDisk_acts faulty (.createDirectories path) disk
  | isRegularFile path => exact ⟨rfl, .inl rfl⟩
  | fileSize path => exact ⟨rfl, .inl rfl⟩
  | readFile path => exact ⟨rfl, .inl rfl⟩
  | remove path => exact .inl rfl
  | unlink path => exact .inl rfl
  | openExclusive path =>
      by_cases h : disk.Admits path
      · simp only [systemDisk, if_pos h]
        exact .inl ⟨h, rfl, rfl⟩
      · simp only [systemDisk, if_neg h]
        exact .inr ⟨rfl, rfl, .inr h⟩
  | write fd data =>
      refine .inl ⟨?_, le_rfl, ?_⟩
      · cases data with
        | nil => exact .inr rfl
        | cons byte rest => exact .inl (Nat.succ_pos _)
      · show disk.append fd data = disk.append fd (data.take data.length)
        rw [List.take_length]
  | fsync fd => exact ⟨rfl, .inl rfl⟩
  | close fd => exact ⟨rfl, .inl rfl⟩
  | renameNoReplace old new =>
      cases hold : disk.files old with
      | none =>
          simp only [systemDisk, hold]
          exact .inr ⟨Option.some_ne_none _, rfl, .inr (.inl hold),
            fun h => by cases h⟩
      | some file =>
          by_cases hadmits : disk.Admits new
          · simp only [systemDisk, hold, if_pos hadmits]
            exact .inl ⟨file, hold, hadmits, rfl, rfl⟩
          · by_cases htaken : disk.taken new = true
            · simp only [systemDisk, hold, if_neg hadmits, if_pos htaken]
              exact .inr ⟨Option.some_ne_none _, rfl, .inr (.inr hadmits),
                fun _ => .inr htaken⟩
            · simp only [systemDisk, hold, if_neg hadmits, if_neg htaken]
              exact .inr ⟨Option.some_ne_none _, rfl, .inr (.inr hadmits),
                fun h => by cases h⟩
  | openDirectory path => exact ⟨rfl, .inl rfl⟩
  | fsyncDirectory path => exact .inl ⟨rfl, rfl⟩
  | closeDirectory path => rfl

/-- A call where nothing fails. -/
def hostAnswers : (c : serverCalls.Call) → Host Disk →
    serverCalls.Answer c × Host Disk
  | .inl op, host => op.answers storeDisk host
  | .inr c, host =>
      ((systemDisk c host.system).1, ⟨host.link, (systemDisk c host.system).2⟩)

theorem hostAnswers_acts (faulty : Bool) (c : serverCalls.Call)
    (host : Host Disk) :
    hostActs (!faulty) (storeOnDisk faulty) (systemOnDisk faulty) c host
      (hostAnswers c host).1 (hostAnswers c host).2 := by
  cases c with
  | inl op => exact op.answers_acts (storeDisk_acts faulty) host
  | inr c => exact ⟨systemDisk_acts faulty c host.system, rfl⟩

end PhotoBridge.Upload
