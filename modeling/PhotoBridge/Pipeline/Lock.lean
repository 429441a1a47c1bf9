/-
The lock that keeps two executors off one plan (`workspace_layout.cpp`,
`plan_execution_lock.cpp`): a file in the workspace named after the plan.

Paths are put together the way `std::filesystem::path` does it, and reach
`open` as C strings.
-/
import PhotoBridge.Scan.Walker

namespace PhotoBridge

-- ================================================================= paths

/-- `left / right`: an absolute path replaces what it is appended to, and
a separator follows what ends in a file name. -/
def appendPath (left right : Bytes) : Bytes :=
  if right.head? = some 47 then right
  else if left.isEmpty || left.getLast? == some 47 then left ++ right
  else left ++ 47 :: right

/-- The C string of a path: what comes before its first NUL. -/
def cString (path : Bytes) : Bytes := path.takeWhile (· != 0)

/-- `WorkspaceLayout`. -/
structure WorkspaceLayout where
  root : Bytes
  database : Bytes
  manifests : Bytes
  plans : Bytes
  reports : Bytes
  logs : Bytes
  locks : Bytes

/-- `WorkspaceLayout::FromRoot`. -/
def WorkspaceLayout.fromRoot (root : Bytes) : Except Status WorkspaceLayout :=
  if root.isEmpty then .error (.invalid "workspace root must not be empty")
  else .ok {
    root
    database := appendPath root (text "photobridge.db")
    manifests := appendPath root (text "manifests")
    plans := appendPath root (text "plans")
    reports := appendPath root (text "reports")
    logs := appendPath root (text "logs")
    locks := appendPath root (text "locks") }

/-- The path `MigrationService` and `RecoveryService` hand to `Acquire`. -/
def executionLockPath (layout : WorkspaceLayout) (planId : Bytes) : Bytes :=
  appendPath layout.locks (planId ++ text ".lock")

-- =============================================================== the lock

-- `EAGAIN`, which is `EWOULDBLOCK` on Linux.
def eAGAIN : Nat := 11

/-- The calls `Acquire` makes; each answers an errno or what it is for. -/
structure LockCalls (φ : Type) where
  openFile : Bytes → Except Nat φ
  flock : φ → Except Nat Unit

/-- `PlanExecutionLock::Acquire`. -/
def acquire {φ : Type} (strerror : Nat → Bytes) (calls : LockCalls φ)
    (lockPath : Bytes) : Except Status φ :=
  match calls.openFile (cString lockPath) with
  | .error errno =>
      .error (statusFromErrno strerror errno "open plan execution lock")
  | .ok fd =>
      match calls.flock fd with
      | .ok () => .ok fd
      | .error errno =>
          if errno = eAGAIN then
            .error ⟨.alreadyExists,
              text "plan already has an active executor: " ++ lockPath⟩
          else .error
            (statusFromErrno strerror errno "acquire plan execution lock")

/-- The file an executor of the plan locks. -/
def lockFile (layout : WorkspaceLayout) (planId : Bytes) : Bytes :=
  cString (executionLockPath layout planId)

-- ====================================================== what it is for

/-- The path is the directory's, followed by the name of an entry. -/
def DirectChild (directory path : Bytes) : Prop :=
  ∃ name, IsFileName name ∧ path = directory ++ 47 :: name

end PhotoBridge
