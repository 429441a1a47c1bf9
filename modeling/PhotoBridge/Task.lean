/-
Relative paths, tasks and their lifecycles (`relative_path.cpp`,
`task.cpp`): the states a task and a file attempt go through, the two
transition tables, the validation of task specifications and runtimes,
and the stable task key.

BLAKE3 is a library outside the repository, so everything that hashes
takes the hash function `blake3` as an argument and no property of it is
built in.
-/
import PhotoBridge.Status

namespace PhotoBridge

-- ======================================================= relative paths

/-- One component of a relative path: not empty, not a dot name. -/
def checkComponent (component : Bytes) : Except Status Unit :=
  if component.isEmpty then
    .error (.invalid "relative path must not contain empty components")
  else if component == text "." || component == text ".." then
    .error (.invalid "relative path must not contain dot components")
  else .ok ()

/-- The loop of `RelativePath::Parse`: `component` is what has been read
since the last separator. -/
def parseComponents (component : Bytes) : Bytes → Except Status (List Bytes)
  | [] => do
      checkComponent component
      pure [component]
  | byte :: rest =>
      if byte == 47 then do
        checkComponent component
        let tail ← parseComponents [] rest
        pure (component :: tail)
      else parseComponents (component ++ [byte]) rest

/-- The checks of `RelativePath::Parse`, with the components as result. -/
def checkRelativePath (raw : Bytes) : Except Status (List Bytes) :=
  if raw.isEmpty then .error (.invalid "relative path must not be empty")
  else if hasNul raw then
    .error (.invalid "relative path must not contain NUL")
  else if raw.head? == some 47 then
    .error (.invalid "relative path must not be absolute")
  else parseComponents [] raw

/-- A parsed relative path. The constructor is private in the source, so
every value carries the parse it came from. -/
structure RelativePath where
  bytes : Bytes
  components : List Bytes
  parsed : checkRelativePath bytes = .ok components
  deriving DecidableEq

/-- `RelativePath::Parse`. -/
def RelativePath.parse (raw : Bytes) : Except Status RelativePath :=
  match h : checkRelativePath raw with
  | .ok components => .ok ⟨raw, components, h⟩
  | .error e => .error e

-- =============================================================== states

inductive TaskType
  | migrateFile | writeAssetManifest | writeRelationIndex | verifyAsset
  | writeReport
  deriving DecidableEq, Repr

/-- `TaskTypeName`. -/
def TaskType.name : TaskType → Bytes
  | .migrateFile => text "MIGRATE_FILE"
  | .writeAssetManifest => text "WRITE_ASSET_MANIFEST"
  | .writeRelationIndex => text "WRITE_RELATION_INDEX"
  | .verifyAsset => text "VERIFY_ASSET"
  | .writeReport => text "WRITE_REPORT"

inductive TaskState
  | planned | ready | running | succeeded | retryable | failed
  | needsReview | inconsistent | skipped
  deriving DecidableEq, Repr

inductive FileAttemptState
  | planned | ready | running | commitIntent | tempWritten
  | verifiedDurable | committed | retryable | failed | needsReview
  | inconsistent | skipped
  deriving DecidableEq, Repr

/-- `IsValidTransition(TaskState, TaskState)`. -/
def TaskState.isValidTransition : TaskState → TaskState → Bool
  | .planned, next => next == .ready || next == .skipped
  | .ready, next => next == .running || next == .skipped
  | .running, next =>
      next == .succeeded || next == .retryable || next == .failed
        || next == .needsReview || next == .inconsistent
  | .retryable, next => next == .ready
  | _, _ => false

/-- The four ways an attempt can break off, whatever it has reached. -/
def FileAttemptState.isBreakOff (next : FileAttemptState) : Bool :=
  next == .retryable || next == .failed || next == .needsReview
    || next == .inconsistent

/-- `IsValidTransition(FileAttemptState, FileAttemptState)`. -/
def FileAttemptState.isValidTransition :
    FileAttemptState → FileAttemptState → Bool
  | .planned, next => next == .ready || next == .skipped
  | .ready, next => next == .running || next == .skipped
  | .running, next => next == .commitIntent || next.isBreakOff
  | .commitIntent, next => next == .tempWritten || next.isBreakOff
  | .tempWritten, next => next == .verifiedDurable || next.isBreakOff
  | .verifiedDurable, next => next == .committed || next.isBreakOff
  | .retryable, next => next == .ready
  | _, _ => false

-- ================================================= specs and runtimes

structure TaskSpec where
  id : Bytes
  taskKey : Bytes
  type : TaskType
  assetId : Bytes
  sourceAssetId : Option Bytes
  targetPath : RelativePath
  estimatedBytes : UInt64
  expectedDigest : Option Digest

/-- A task's row as `ReadRuntime` returns it: an absent owner epoch reads
as zero. -/
structure TaskRuntime where
  id : Bytes
  state : TaskState
  ownerEpoch : Nat
  attemptId : Option Bytes
  attemptCount : Nat
  lastError : Option Status
  deriving DecidableEq

/-- `ValidateTaskSpec`. The type check of the source cannot fail on an
enumeration. -/
def validateTaskSpec (task : TaskSpec) : Except Status Unit :=
  if task.id.isEmpty then .error (.invalid "task id must not be empty")
  else if task.taskKey.isEmpty then
    .error (.invalid "task key must not be empty")
  else if task.assetId.isEmpty then
    .error (.invalid "task asset id must not be empty")
  else if task.targetPath.bytes.isEmpty then
    .error (.invalid "task target path must not be empty")
  else if hasNul task.id || hasNul task.taskKey || hasNul task.assetId then
    .error (.invalid "task identifiers must not contain NUL")
  else if task.sourceAssetId.any fun s => s.isEmpty || hasNul s then
    .error (.invalid
      "task source asset id must be non-empty and NUL-free")
  else if task.type == .migrateFile && task.sourceAssetId.isNone then
    .error (.invalid "file migration task requires a source asset id")
  else .ok ()

/-- `ValidateTaskRuntime`. -/
def validateTaskRuntime (runtime : TaskRuntime) : Except Status Unit :=
  if runtime.id.isEmpty then
    .error (.invalid "task runtime id must not be empty")
  else if hasNul runtime.id then
    .error (.invalid "task runtime id must not contain NUL")
  else if runtime.attemptId.any fun s => s.isEmpty || hasNul s then
    .error (.invalid "task attempt id must be non-empty and NUL-free")
  else if runtime.state == .running
      && (runtime.ownerEpoch == 0 || runtime.attemptId.isNone) then
    .error (.invalid
      "running task runtime requires an owner epoch and attempt id")
  else .ok ()

-- ============================================================ task keys

/-- `AppendUint64`: eight bytes, least significant first. -/
def uint64Bytes (value : UInt64) : Bytes :=
  (List.range 8).map fun index => (value >>> (8 * index).toUInt64).toUInt8

/-- `AppendLengthPrefixed`. -/
def lengthPrefixed (value : Bytes) : Bytes :=
  uint64Bytes value.length.toUInt64 ++ value

/-- `AppendOptionalString`. -/
def optionalString : Option Bytes → Bytes
  | some value => 1 :: lengthPrefixed value
  | none => [0]

/-- The payload `TaskKeyFor` hashes. -/
def taskKeyPayload (task : TaskSpec) : Bytes :=
  text "PB_TASK_V1" ++ lengthPrefixed task.assetId
    ++ lengthPrefixed task.type.name ++ lengthPrefixed task.targetPath.bytes
    ++ optionalString task.sourceAssetId

/-- `TaskKeyFor`. -/
def taskKeyFor (blake3 : Bytes → Digest) (task : TaskSpec) :
    Except Status Bytes :=
  if task.assetId.isEmpty || task.targetPath.bytes.isEmpty then
    .error (.invalid "task key requires an asset id and target path")
  else if task.sourceAssetId.any List.isEmpty then
    .error (.invalid "task key source asset id must not be empty")
  else .ok (text "task-" ++ (blake3 (taskKeyPayload task)).toHex)

end PhotoBridge
