/-
`WritePlanFile` call by call (`plan_service.cpp`), so that it can be
killed between two of them.

The program is the source's; what a call answers is up to the directory
it works in. Two directories are given: one that answers as Planning.lean
has it, with failures laid down in advance, and one in which no call
fails for a reason of its own and a write moves as much as it likes, but
something.
-/
import PhotoBridge.Lib.Concurrent
import PhotoBridge.Pipeline.Planning

namespace PhotoBridge

open Concurrent

-- =============================================================== calls

/-- What `WritePlanFile` asks of the file system. Names are those in the
directory of the plan file. -/
inductive PlanCall
  | exists_ (name : Bytes)
  | isDirectory (name : Bytes)
  | readFile (name : Bytes)
  | openParent
  | createTempNoReplace (name : Bytes)
  | write (name data : Bytes)
  | fdatasync (name : Bytes)
  | renameNoReplace (oldName newName : Bytes)
  | fsyncDirectory
  | unlinkAt (name : Bytes)

/-- What each call answers: a status, or what it was made for. -/
abbrev planCalls : Interface where
  Call := PlanCall
  Answer
    | .exists_ _ => Except Status Bool
    | .isDirectory _ => Except Status Bool
    | .readFile _ => Except Status Bytes
    | .openParent => Except Status Unit
    | .createTempNoReplace _ => Except Status Unit
    | .write _ _ => Except Status Nat
    | .fdatasync _ => Except Status Unit
    | .renameNoReplace _ _ => Except Status Unit
    | .fsyncDirectory => Except Status Unit
    | .unlinkAt _ => Except Status Unit

abbrev PlanProgram := Program planCalls (Except Status Unit)

-- ============================================================= program

def planTempName (finalName : Bytes) : Bytes := text ".pbtmp." ++ finalName

/-- After a failure: the temporary file is removed, whatever becomes of
that. -/
def failCleaned (tempName : Bytes) (status : Status) : PlanProgram :=
  .call (.unlinkAt tempName) fun _ => .done (.error status)

/-- The file gets its name. -/
def renameTemp (tempName finalName : Bytes) : PlanProgram :=
  .call (.renameNoReplace tempName finalName) fun
    | .error status => .done (.error status)
    | .ok () => .call .fsyncDirectory .done

/-- What follows the last write. -/
def publishTemp (tempName finalName : Bytes) : PlanProgram :=
  .call (.fdatasync tempName) fun
    | .error status => failCleaned tempName status
    | .ok () => renameTemp tempName finalName

/-- The write loop, and what follows it. Each round writes a byte at
least, or ends the loop, so as many rounds as there are bytes are
enough. -/
def writeAndPublish (tempName finalName : Bytes) (remaining : Bytes) :
    (rounds : Nat) → PlanProgram
  | 0 => publishTemp tempName finalName
  | rounds + 1 =>
      if remaining.isEmpty then publishTemp tempName finalName
      else .call (.write tempName remaining) fun
        | .error status => failCleaned tempName status
        | .ok written =>
            if written = 0 then
              failCleaned tempName
                (.ioError "plan artifact write made no progress")
            else writeAndPublish tempName finalName (remaining.drop written)
              rounds

/-- The path is a file's: of the same bytes, or of others. -/
def readExisting (finalName bytes : Bytes) : PlanProgram :=
  .call (.readFile finalName) fun
    | .error status => .done (.error status)
    | .ok existing =>
        if existing = bytes then .done (.ok ())
        else .done (.error ⟨.alreadyExists,
          text "plan artifact already exists with different bytes: "
            ++ finalName⟩)

/-- The path is taken. -/
def compareExisting (finalName bytes : Bytes) : PlanProgram :=
  .call (.isDirectory finalName) fun
    | .error status => .done (.error status)
    | .ok true => .done (.error ⟨.alreadyExists,
        text "plan artifact path is a directory: " ++ finalName⟩)
    | .ok false => readExisting finalName bytes

/-- The temporary file, from its creation on. -/
def createAndWrite (finalName bytes : Bytes) : PlanProgram :=
  .call (.createTempNoReplace (planTempName finalName)) fun
    | .error status => .done (.error status)
    | .ok () => writeAndPublish (planTempName finalName) finalName bytes
        bytes.length

/-- `WritePlanFile`. -/
def writePlanProgram (finalName bytes : Bytes) : PlanProgram :=
  .call (.exists_ finalName) fun
    | .error status => .done (.error status)
    | .ok true => compareExisting finalName bytes
    | .ok false =>
        .call .openParent fun
          | .error status => .done (.error status)
          | .ok () => createAndWrite finalName bytes

-- =============================================== with failures laid down

/-- What a call answers in the plans directory of Planning.lean. -/
def planAnswers (strerror : Nat → Bytes) :
    (c : PlanCall) → PlanDir → planCalls.Answer c × PlanDir
  | .exists_ name => (do
      systemCall
      return (← lookUp name).isSome : PlanFiles Bool)
  | .isDirectory name => (do
      return (← lookUp name) == some .directory : PlanFiles Bool)
  | .readFile name => (do
      systemCall
      match ← lookUp name with
      | some (.file bytes) => return bytes
      | _ => return [] : PlanFiles Bytes)
  | .openParent => systemCall
  | .createTempNoReplace name => (do
      systemCall
      match ← lookUp name with
      | some _ =>
          throw (statusFromErrno strerror eEXIST "create temporary file")
      | none => assign name (some (.file [])) : PlanFiles Unit)
  | .write name data => (do
      systemCall
      let moved ← nextMove data.length
      match ← lookUp name with
      | some (.file written) => do
          assign name (some (.file (written ++ data.take moved)))
          return moved
      | _ => return moved : PlanFiles Nat)
  | .fdatasync _ => systemCall
  | .renameNoReplace oldName newName =>
      renameNoReplace strerror oldName newName
  | .fsyncDirectory => systemCall
  | .unlinkAt name => (do
      systemCall
      assign name none : PlanFiles Unit)

/-- The program in that directory. -/
def PlanProgram.run (strerror : Nat → Bytes) (p : PlanProgram) :
    PlanFiles Unit :=
  fun dir => p.eval (fun c => planAnswers strerror c) dir

-- ================================================== with no failures

/-- What stands under each name of a directory. -/
abbrev PlanFolder := Bytes → Option PlanNode

/-- What a call can do where nothing fails but for what stands in its
way. -/
def planEffects (strerror : Nat → Bytes) : Effects planCalls PlanFolder
  | .exists_ name, dir, r, dir' =>
      r = .ok (dir name).isSome ∧ dir' = dir
  | .isDirectory name, dir, r, dir' =>
      r = .ok (dir name == some .directory) ∧ dir' = dir
  | .readFile name, dir, r, dir' =>
      (∀ bytes, dir name = some (.file bytes) → r = .ok bytes) ∧ dir' = dir
  | .openParent, dir, r, dir' => r = .ok () ∧ dir' = dir
  | .createTempNoReplace name, dir, r, dir' =>
      match dir name with
      | some _ => r = .error
            (statusFromErrno strerror eEXIST "create temporary file")
          ∧ dir' = dir
      | none => r = .ok ()
          ∧ dir' = Function.update dir name (some (.file []))
  | .write name data, dir, r, dir' =>
      ∃ moved, r = .ok moved ∧ moved ≤ data.length
        ∧ (data ≠ [] → 0 < moved)
        ∧ ∀ written, dir name = some (.file written) →
          dir' = Function.update dir name
            (some (.file (written ++ data.take moved)))
  | .fdatasync _, dir, r, dir' => r = .ok () ∧ dir' = dir
  | .renameNoReplace oldName newName, dir, r, dir' =>
      match dir newName with
      | some _ => r = .error
            (statusFromErrno strerror eEXIST "rename without replace")
          ∧ dir' = dir
      | none => r = .ok ()
          ∧ dir' = Function.update (Function.update dir newName (dir oldName))
            oldName none
  | .fsyncDirectory, dir, r, dir' => r = .ok () ∧ dir' = dir
  | .unlinkAt name, dir, r, dir' =>
      r = .ok () ∧ dir' = Function.update dir name none

-- =============================================================== kills

/-- Calls of `WritePlanFile` on one path, one after another: each with
the bytes it was given, and each run to its end or killed after some of
its calls, of which `may` is true. -/
inductive Attempts (strerror : Nat → Bytes) (finalName : Bytes)
    (may : List PlanCall → Prop) (start : PlanFolder) :
    List Bytes → PlanFolder → Prop
  | start : Attempts strerror finalName may start [] start
  | returned {calls : List Bytes} {dir dir' : PlanFolder} {bytes : Bytes}
      {r : Except Status Unit}
      (h : Attempts strerror finalName may start calls dir)
      (hrun : Returns (planEffects strerror)
        (writePlanProgram finalName bytes) dir r dir') :
      Attempts strerror finalName may start (calls ++ [bytes]) dir'
  | killed {calls : List Bytes} {dir dir' : PlanFolder} {bytes : Bytes}
      {made : List PlanCall} {rest : PlanProgram}
      (h : Attempts strerror finalName may start calls dir)
      (hstop : Concurrent.Stops (planEffects strerror)
        (writePlanProgram finalName bytes) dir made rest dir')
      (hmay : may made) :
      Attempts strerror finalName may start (calls ++ [bytes]) dir'

/-- A later call with these bytes succeeds, however it goes, and can go
on to its end; the path then holds them. -/
structure Resumable (strerror : Nat → Bytes) (finalName bytes : Bytes)
    (dir : PlanFolder) : Prop where
  returns : ∃ r dir', Returns (planEffects strerror)
    (writePlanProgram finalName bytes) dir r dir'
  ok : ∀ r dir', Returns (planEffects strerror)
    (writePlanProgram finalName bytes) dir r dir' →
    r = .ok () ∧ dir' finalName = some (.file bytes)

/-- What was killed left no temporary file: it had not asked for one, or
had renamed it. -/
def LeftNoTemp (made : List PlanCall) : Prop :=
  (∃ name, .createTempNoReplace name ∈ made) →
    ∃ oldName newName, .renameNoReplace oldName newName ∈ made

end PhotoBridge
