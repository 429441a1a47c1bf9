/-
What a scan reads: the directory walker, the classifier and the local
folder source (`linux_directory_walker.cpp`, `asset_classifier.cpp`,
`local_folder_source.cpp`).

# The file system

A directory is what its entries are: a name each, what `fstatat` says of
it, and what opening it would list (`Node`). A symbolic link has the
entries of the directory it leads to, so that following one would show.
Hard links are nodes with the same `Stat`.

# System calls

`call` stands for a system call of the walk: it does nothing where the
call succeeds and throws where it fails. What the calls return is read
off the tree. `add` is the sink's `Add`; the walk is written for sinks
in any monad with errors.
-/
import PhotoBridge.Lib.KeyTree
import PhotoBridge.Manifest.Tables
import PhotoBridge.Plan.Mapping
import PhotoBridge.Posix

namespace PhotoBridge

open Sorting

-- ========================================================= file system

structure Timespec where
  sec : Int64
  nsec : Int64
  deriving DecidableEq

/-- What the walker reads of a `struct stat`. -/
structure Stat where
  mode : UInt32
  dev : UInt64
  ino : UInt64
  size : Int64
  mtim : Timespec
  ctim : Timespec
  deriving DecidableEq

/-- A file, and what opening it lists. -/
abbrev Node := KeyTree Bytes Stat

/-- The entries of a directory, in the order `readdir` returns them. -/
abbrev Entries := List (Bytes × Node)

-- ============================================================ identity

/-- `TimespecToNanoseconds`. -/
def timespecToNanoseconds (timestamp : Timespec) (fieldName : String) :
    Except Status Int64 :=
  let nanosecondsPerSecond : Int64 := 1000000000
  let seconds := timestamp.sec
  let nanoseconds := timestamp.nsec
  if nanoseconds < 0 || nanosecondsPerSecond ≤ nanoseconds then
    .error (.internal ("invalid file timestamp: " ++ fieldName))
  else if Int64.maxValue / nanosecondsPerSecond < seconds
      || seconds < Int64.minValue / nanosecondsPerSecond
      || (seconds == Int64.maxValue / nanosecondsPerSecond
        && Int64.maxValue % nanosecondsPerSecond < nanoseconds) then
    .error (.internal
      ("file timestamp overflows nanoseconds: " ++ fieldName))
  else .ok (seconds * nanosecondsPerSecond + nanoseconds)

/-- `ToUint64` of the one field that has a sign, `off_t`. -/
def toUint64 (value : Int64) (fieldName : String) : Except Status UInt64 :=
  if value < 0 then
    .error (.internal ("negative file identity field: " ++ fieldName))
  else .ok value.toUInt64

/-- `FileIdentityFromStat`. -/
def fileIdentityFromStat (info : Stat) : Except Status FileIdentity := do
  let mtimeNs ← timespecToNanoseconds info.mtim "mtime"
  let ctimeNs ← timespecToNanoseconds info.ctim "ctime"
  let size ← toUint64 info.size "size"
  pure {
    device := info.dev
    inode := info.ino
    size := size
    mtimeNs := mtimeNs
    ctimeNs := ctimeNs
    mountId := none }

inductive DirectoryEntryKind
  | regularFile | directory | symlink | other
  deriving DecidableEq

/-- `KindFromMode`: the file type bits of the mode. -/
def kindFromMode (mode : UInt32) : DirectoryEntryKind :=
  let fileType := mode &&& 0o170000
  if fileType = 0o100000 then .regularFile
  else if fileType = 0o040000 then .directory
  else if fileType = 0o120000 then .symlink
  else .other

def Stat.kind (info : Stat) : DirectoryEntryKind := kindFromMode info.mode

-- ============================================================= walking

structure DirectoryEntry where
  relativePath : RelativePath
  identity : FileIdentity
  kind : DirectoryEntryKind
  deriving DecidableEq

/-- `JoinPath`. -/
def joinPath (parentComponents : List Bytes) (name : Bytes) : Bytes :=
  let parent := parentComponents.foldl (fun result component =>
    (if result.isEmpty then result else result ++ [47]) ++ component) []
  (if parent.isEmpty then parent else parent ++ [47]) ++ name

section Walking

variable {m : Type → Type} [Monad m] [MonadExceptOf Status m]
variable (strerror : Nat → Bytes) (call : (operation : String) → m Unit)

/-- The `readdir` loop: the names of a listing but for the two dots. -/
def readNames : (listing : List Bytes) → m (List Bytes)
  | [] => do
      call "read directory entry"
      pure []
  | name :: rest => do
      call "read directory entry"
      let names ← readNames rest
      pure (if name = text "." ∨ name = text ".." then names
        else name :: names)

/-- `WalkDirectory`: what it leaves of the shared stack of components. -/
def walkDirectory (add : DirectoryEntry → m Unit) (entries : Entries)
    (parentComponents : List Bytes) : m (List Bytes) := do
  call "duplicate directory fd"
  call "open directory stream"
  let names ← readNames call
    (text "." :: text ".." :: entries.map Prod.fst)
  (sortBy bytesLess names).foldlM (fun parentComponents name => do
    call "stat directory entry"
    match _h : entries.find? (·.1 == name) with
    | none => throw (statusFromErrno strerror eNOENT "stat directory entry")
    | some entry => do
        let identity ← ofExcept (fileIdentityFromStat entry.2.value)
        let relativePath ←
          ofExcept (RelativePath.parse (joinPath parentComponents name))
        add ⟨relativePath, identity, entry.2.value.kind⟩
        if entry.2.value.kind ≠ .directory then pure parentComponents
        else do
          call "open child directory"
          let pushed ←
            walkDirectory add entry.2.entries (parentComponents ++ [name])
          pure pushed.dropLast) parentComponents
termination_by sizeOf entries
decreasing_by exact KeyTree.sizeOf_entries_lt (List.mem_of_find?_eq_some ‹_›)

/-- `LinuxDirectoryWalker::Walk`. -/
def walk (add : DirectoryEntry → m Unit) (root : Entries) : m Unit := do
  let _ ← walkDirectory strerror call add root []
  pure ()

-- ====================================================== local folders

/-- `IsReceiverStagingPath`. -/
def isReceiverStagingPath (path : Bytes) : Bool :=
  (text ".pbtmp").isSuffixOf path || decide (text "/.tmp/" <:+: path)
    || (text ".tmp/").isPrefixOf path

/-- `std::string_view::rfind` of a character. -/
def rfind (byte : UInt8) (s : Bytes) : Option Nat :=
  (s.reverse.findIdx? (· == byte)).map fun index => s.length - 1 - index

/-- What follows the last separator. -/
def fileName (path : Bytes) : Bytes :=
  match rfind 47 path with
  | none => path
  | some separator => path.drop (separator + 1)

/-- `LowerAscii`. -/
def lowerAscii (value : Bytes) : Bytes := value.map toLower

/-- `ExtensionOf`. -/
def extensionOf (path : Bytes) : Bytes :=
  let name := fileName path
  match rfind 46 name with
  | none => []
  | some dot =>
      if dot = 0 ∨ dot + 1 = name.length then []
      else lowerAscii (name.drop (dot + 1))

/-- `kMediaExtensions`. -/
def mediaExtensions : List String := [
  "arw", "avi", "bmp", "cr2", "dng", "gif", "heic", "heif",
  "jpeg", "jpg", "m4v", "mkv", "mov", "mp4", "nef", "png",
  "raw", "tif", "tiff", "webm", "webp"]

/-- `IsMediaExtension`. -/
def isMediaExtension (extension : Bytes) : Bool :=
  mediaExtensions.any (extension == text ·)

/-- `ClassifyKind`. -/
def classifyKind (path extension : Bytes) : AssetKind :=
  if lowerAscii (fileName path) = text "metadata.json" then .albumMetadata
  else if extension = text "json" then .sidecarJson
  else if extension = text "xmp" then .sidecarXmp
  else if isMediaExtension extension then .media
  else .unknown

/-- `ClassifyPhysicalAsset`. -/
def classifyPhysicalAsset (entry : DirectoryEntry) : Option PhysicalAsset :=
  if entry.kind ≠ .regularFile then none
  else
    let extension := extensionOf entry.relativePath.bytes
    some {
      relativePath := entry.relativePath
      identity := entry.identity
      kind := classifyKind entry.relativePath.bytes extension
      extension := extension }

/-- `PhysicalAssetForwardingSink::Add`, before the sink `add`. -/
def forwardingAdd (add : PhysicalAsset → m Unit) (entry : DirectoryEntry) :
    m Unit :=
  if isReceiverStagingPath entry.relativePath.bytes then pure ()
  else match classifyPhysicalAsset entry with
    | none => pure ()
    | some asset => add asset

/-- `LocalFolderSource::Scan`, with the folder at `root` open to it. -/
def scanLocalFolder (add : PhysicalAsset → m Unit) (root : Bytes)
    (entries : Entries) : m Unit :=
  if root.isEmpty then
    throw (.invalid "local folder source root must not be empty")
  else do
    call "open directory root"
    walk strerror call (forwardingAdd add) entries

end Walking

-- ====================================================== what it is for

/-- No system call fails. -/
def succeeds {m : Type → Type} [Monad m] (_operation : String) : m Unit :=
  pure ()

/-- A name a directory entry can have. -/
structure IsFileName (name : Bytes) : Prop where
  nonempty : name ≠ []
  noSlash : 47 ∉ name
  noNul : 0 ∉ name
  notDot : name ≠ text "."
  notDotDot : name ≠ text ".."

/-- Only directories are entered. -/
def Stat.isDirectory (info : Stat) : Bool := decide (info.kind = .directory)

/-- The file stands in the tree, at this path. -/
abbrev Within : Entries → List Bytes → Node → Prop :=
  KeyTree.Below Stat.isDirectory

/-- The names in a directory are names, and distinct. -/
structure IsDirectory (entries : Entries) : Prop where
  distinct : (entries.map Prod.fst).Nodup
  names : ∀ entry ∈ entries, IsFileName entry.1

/-- A finite directory tree. -/
structure DirectoryTree where
  entries : Entries
  directories : KeyTree.Throughout Stat.isDirectory IsDirectory entries

/-- The path of a file, as the manifest keeps it. -/
def pathOf (components : List Bytes) : Bytes := List.intercalate [47] components

/-- A time the walker can express in nanoseconds. -/
structure Timespec.Representable (timestamp : Timespec) : Prop where
  nsec_nonneg : 0 ≤ timestamp.nsec.toInt
  nsec_lt : timestamp.nsec.toInt < 1000000000
  sec_ge : -9223372036 ≤ timestamp.sec.toInt
  fits : timestamp.sec.toInt * 1000000000 + timestamp.nsec.toInt < 2 ^ 63

/-- The fields of an identity can be expressed. -/
structure Stat.Representable (info : Stat) : Prop where
  mtim : info.mtim.Representable
  ctim : info.ctim.Representable
  size : 0 ≤ info.size.toInt

/-- The identity is the one `fstatat` reports. -/
structure Stat.Identifies (info : Stat) (identity : FileIdentity) : Prop where
  device : identity.device = info.dev
  inode : identity.inode = info.ino
  size : (identity.size.toNat : Int) = info.size.toInt
  mtimeNs : identity.mtimeNs.toInt
    = info.mtim.sec.toInt * 1000000000 + info.mtim.nsec.toInt
  ctimeNs : identity.ctimeNs.toInt
    = info.ctim.sec.toInt * 1000000000 + info.ctim.nsec.toInt
  mountId : identity.mountId = none

/-- The entry is what a walk says of the file at this path. -/
structure EntryOf (components : List Bytes) (node : Node)
    (entry : DirectoryEntry) : Prop where
  path : entry.relativePath.bytes = pathOf components
  components : entry.relativePath.components = components
  identity : node.value.Identifies entry.identity
  kind : entry.kind = node.value.kind

def DirectoryEntry.components (entry : DirectoryEntry) : List Bytes :=
  entry.relativePath.components

/-- The list has every entry of the tree once, parents before children
and siblings in the order of their bytes. -/
structure Emits (tree : DirectoryTree) (emitted : List DirectoryEntry) :
    Prop where
  sound : ∀ entry ∈ emitted, ∃ components node,
    Within tree.entries components node ∧ EntryOf components node entry
  complete : ∀ {components node}, Within tree.entries components node →
    ∃ entry ∈ emitted, EntryOf components node entry
  once : (emitted.map DirectoryEntry.components).Nodup
  parentsFirst : ∀ parent ∈ emitted, ∀ child ∈ emitted,
    parent.components <+: child.components →
    parent.components ≠ child.components → [parent, child].Sublist emitted
  siblingsInOrder : ∀ first ∈ emitted, ∀ second ∈ emitted,
    ∀ parents name name', first.components = parents ++ [name] →
    second.components = parents ++ [name'] → bytesLess name name' →
    [first, second].Sublist emitted

end PhotoBridge
