/-
What two lists of files differ in, and how it is reported
(`diff_engine.cpp`, `audit_report.cpp`).

Both lists are looked at by path, and a path that occurs more than once
stands for its first occurrence: that is what `emplace` does.
-/
import PhotoBridge.Lib.Json
import PhotoBridge.Plan

namespace PhotoBridge

open JsonText Sorting

-- ================================================================== diff

structure DiffFileState where
  path : Bytes
  size : Nat
  digest : Option Digest
  deriving DecidableEq

inductive DiffKind
  | added | removed | changed
  deriving DecidableEq, Repr

/-- The value of the enumerator. -/
def DiffKind.number : DiffKind → Nat
  | .added => 0
  | .removed => 1
  | .changed => 2

/-- `DiffKindName`. -/
def DiffKind.name : DiffKind → Bytes
  | .added => text "added"
  | .removed => text "removed"
  | .changed => text "changed"

structure DiffEntry where
  path : Bytes
  kind : DiffKind
  deriving DecidableEq

/-- `result.emplace(state.path, &state)`. -/
def emplaceState (states : List DiffFileState) (state : DiffFileState) :
    List DiffFileState :=
  if states.any (·.path == state.path) then states else states ++ [state]

/-- The map `by_path` builds, in the order of its keys. -/
def byPath (states : List DiffFileState) : List DiffFileState :=
  sortBy (fun left right => decide (left.path < right.path))
    (states.foldl emplaceState [])

/-- What an expected file has become. -/
def expectedEntry (observedByPath : List DiffFileState)
    (state : DiffFileState) : Option DiffEntry :=
  match observedByPath.find? (·.path == state.path) with
  | none => some ⟨state.path, .removed⟩
  | some actual =>
      if state.size ≠ actual.size ∨ state.digest ≠ actual.digest then
        some ⟨state.path, .changed⟩
      else none

/-- An observed file that is not expected. -/
def addedEntry (expectedByPath : List DiffFileState) (state : DiffFileState) :
    Option DiffEntry :=
  if expectedByPath.any (·.path == state.path) then none
  else some ⟨state.path, .added⟩

/-- The order of the entries. -/
def entryBefore (left right : DiffEntry) : Bool :=
  if left.path ≠ right.path then decide (left.path < right.path)
  else decide (left.kind.number < right.kind.number)

/-- `DiffFileStates`. -/
def diffFileStates (expected observed : List DiffFileState) :
    List DiffEntry :=
  let expectedByPath := byPath expected
  let observedByPath := byPath observed
  sortBy entryBefore
    (expectedByPath.filterMap (expectedEntry observedByPath)
      ++ observedByPath.filterMap (addedEntry expectedByPath))

-- ================================================================ report

structure AuditReport where
  planId : Bytes
  taskId : Bytes
  action : Bytes
  verification : Bytes
  diff : List DiffEntry
  error : Bytes
  deriving DecidableEq

/-- One entry of the report. -/
def diffEntryJson (entry : DiffEntry) : Json :=
  .ofMembers [
    (text "path", .string entry.path),
    (text "kind", .string entry.kind.name)]

/-- The record of the report. -/
def auditReportJson (report : AuditReport) : Json :=
  .ofMembers [
    (text "plan_id", .string report.planId),
    (text "task_id", .string report.taskId),
    (text "action", .string report.action),
    (text "verification", .string report.verification),
    (text "diff", .array (report.diff.map diffEntryJson)),
    (text "error", .string report.error)]

/-- `RenderAuditReport`; an exception of the JSON library, which nobody
catches, is an error here. -/
def renderAuditReport (codec : Codec) (report : AuditReport) :
    Except Status Bytes :=
  match codec.dump (auditReportJson report) with
  | .error what => .error ⟨.internal, what⟩
  | .ok line => .ok (line ++ [10])

end PhotoBridge
