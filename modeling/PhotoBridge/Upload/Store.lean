/-
`UploadSessionStore`, call by call: each operation as the program of
SQLite calls it makes on the one connection the store has.

Errors are values here, as they are in the source: a branch that rolls
back and returns says both. `sqlite3_bind_*` and `sqlite3_finalize` do
nothing to the connection and are left out; so is the reading of columns,
which belongs to the row a step delivered.
-/
import PhotoBridge.Upload.Names
import PhotoBridge.Upload.Schema

namespace PhotoBridge.Upload

open Concurrent SharedConnection

-- ============================================================== the types

inductive BeginUploadResult
  | started | alreadyReceived | busy
  deriving DecidableEq, Repr

structure UploadFileRequest where
  originalFilename : Bytes
  expectedSize : UInt64
  clientDigest : Option Digest
  deriving DecidableEq

structure UploadFile where
  fileId : Bytes
  originalFilename : Bytes
  safeFilename : Bytes
  expectedSize : UInt64
  receivedSize : UInt64
  clientDigest : Option Digest
  serverDigest : Option Digest
  state : UploadFileState
  deriving DecidableEq

structure UploadSession where
  sessionId : Bytes
  createdAtNs : Int64
  expectedTotalBytes : UInt64
  receivedTotalBytes : UInt64
  state : UploadSessionState
  files : List UploadFile
  deriving DecidableEq

structure UploadQuota where
  maxSessionBytes : UInt64
  maxFileBytes : UInt64
  maxReservedBytes : UInt64
  deriving DecidableEq

/-- The default `UploadQuota{}`. -/
def UploadQuota.standard : UploadQuota where
  maxSessionBytes := 4 * 1024 * 1024 * 1024
  maxFileBytes := 2 * 1024 * 1024 * 1024
  maxReservedBytes := 16 * 1024 * 1024 * 1024

-- ============================================================== the calls

/-- What else than SQLite an operation calls. -/
inductive StoreCall
  /-- `std::filesystem::create_directories`: the message of its error. -/
  | createDirectories (path : Path)
  /-- How many of the rows there are a loop over `sqlite3_step` is
  delivered: a step that fails ends the loop like the last one. -/
  | rowsRead (available : Nat)

abbrev storeCalls : Interface where
  Call := StoreCall
  Answer
    | .createDirectories _ => Option Bytes
    | .rowsRead _ => Nat

/-- A program on the store's connection. -/
abbrev StoreM := Program (interface uploadStatements storeCalls)

/-- One of SQLite's calls. -/
def onConnection (c : SqlCall UploadQuery) :
    StoreM (c.Answer uploadStatements) := .call (.inl c) .done

/-- `Exec(database, "BEGIN IMMEDIATE;")`, with SQLite's message when it
fails. -/
def execBegin : StoreM (Option Bytes) := onConnection .begin

def execCommit : StoreM (Option Bytes) := onConnection .commit

def execRollback : StoreM (Option Bytes) := onConnection .rollback

def prepare : StoreM (Option Bytes) := onConnection .prepare

def step (q : UploadQuery) : StoreM (Except Bytes q.Row) :=
  onConnection (.step q)

def changes : StoreM Nat := onConnection .changes

def errmsg : StoreM Bytes := onConnection .errmsg

def createDirectories (path : Path) : StoreM (Option Bytes) :=
  .call (.inr (.createDirectories path)) .done

def rowsRead (available : Nat) : StoreM Nat :=
  .call (.inr (.rowsRead available)) .done

/-- `Exec`'s status. -/
def execError (message : Bytes) : Status := ⟨.ioError, message⟩

/-- `SqliteError`. -/
def sqliteError (operation : String) : StoreM Status := do
  let message ← errmsg
  pure (.sqlite operation message)

/-- `rollback(); return error;` -/
def rolledBack {α : Type} (error : StoreM Status) :
    StoreM (Except Status α) := do
  let _ ← execRollback
  let e ← error
  pure (.error e)

/-- `COMMIT`, with a rollback when it fails. -/
def committing {α : Type} (a : α) : StoreM (Except Status α) := do
  match ← execCommit with
  | none => pure (.ok a)
  | some message => do
      let _ ← execRollback
      pure (.error (execError message))

/-- The rows a `while (sqlite3_step(..) == SQLITE_ROW)` collects. -/
def collect {α : Type} (rows : Except Bytes (List α)) : StoreM (List α) :=
  match rows with
  | .error _ => pure []
  | .ok rows => do
      let n ← rowsRead rows.length
      pure (rows.take n)

-- ========================================================== CreateSession

/-- The loop over the requests: the total and a safe name for each. -/
def admitFiles (quota : UploadQuota) (total : UInt64) (usedNames : List Bytes) :
    List UploadFileRequest → Except Status (UInt64 × List Bytes)
  | [] => .ok (total, usedNames)
  | file :: rest =>
      if file.expectedSize > quota.maxFileBytes then
        .error (.invalid "file exceeds receiver file quota")
      else if addWouldOverflow total file.expectedSize then
        .error (.invalid "session size overflows uint64")
      else if total + file.expectedSize > quota.maxSessionBytes then
        .error (.invalid "session exceeds receiver quota")
      else match safeFilename file.originalFilename with
        | .error e => .error e
        | .ok safe =>
            admitFiles quota (total + file.expectedSize)
              (usedNames ++ [freeName usedNames safe usedNames.length 1]) rest

/-- What `CreateSession` draws on besides its arguments. -/
structure Drawn where
  session : Nonce
  files : Nat → Nonce
  now : Int64

def Drawn.sessionId (drawn : Drawn) : Bytes := newId "session" drawn.session

def Drawn.fileId (drawn : Drawn) (index : Nat) : Bytes :=
  newId "file" (drawn.files index)

/-- The row of a request. -/
def requestRow (drawn : Drawn) (index : Nat) (file : UploadFileRequest)
    (safe : Bytes) : UploadFileRow where
  sessionId := drawn.sessionId
  fileId := drawn.fileId index
  originalFilename := file.originalFilename
  safeFilename := safe
  expectedSize := file.expectedSize.toInt64
  receivedSize := 0
  clientDigest := file.clientDigest
  serverDigest := none
  state := .pending

/-- The rows of the requests, from this index on. -/
def requestRows (drawn : Drawn) : (index : Nat) → List UploadFileRequest →
    List Bytes → List UploadFileRow
  | index, file :: files, safe :: names =>
      requestRow drawn index file safe
        :: requestRows drawn (index + 1) files names
  | _, _, _ => []

def sessionRow (drawn : Drawn) (total : UInt64) : UploadSessionRow where
  sessionId := drawn.sessionId
  createdAtNs := drawn.now
  expectedTotalBytes := total.toInt64
  receivedTotalBytes := 0
  state := .opened

/-- A file as `GetSession` and `CreateSession` return it. -/
def UploadFileRow.toFile (row : UploadFileRow) : UploadFile where
  fileId := row.fileId
  originalFilename := row.originalFilename
  safeFilename := row.safeFilename
  expectedSize := row.expectedSize.toUInt64
  receivedSize := row.receivedSize.toUInt64
  clientDigest := row.clientDigest
  serverDigest := row.serverDigest
  state := row.state

def UploadSessionRow.toSession (row : UploadSessionRow)
    (files : List UploadFileRow) : UploadSession where
  sessionId := row.sessionId
  createdAtNs := row.createdAtNs
  expectedTotalBytes := row.expectedTotalBytes.toUInt64
  receivedTotalBytes := row.receivedTotalBytes.toUInt64
  state := row.state
  files := files.map UploadFileRow.toFile

/-- The loop that inserts the files: whether every step was done. -/
def insertFiles : List UploadFileRow → StoreM Bool
  | [] => pure true
  | row :: rest => do
      match ← step (.insertFile row) with
      | .error _ => pure false
      | .ok _ => insertFiles rest

/-- `reserved + total` stays within the quota. -/
def withinReserve (quota : UploadQuota) (reserved total : UInt64) : Bool :=
  !addWouldOverflow reserved total && reserved + total ≤ quota.maxReservedBytes

/-- `CreateSession`. -/
def createSession (quota : UploadQuota) (drawn : Drawn)
    (files : List UploadFileRequest) : StoreM (Except Status UploadSession) :=
  if files.isEmpty then
    pure (.error (.invalid "session must contain at least one file"))
  else match admitFiles quota 0 [] files with
  | .error e => pure (.error e)
  | .ok (total, safeNames) => do
      match ← execBegin with
      | some message => pure (.error (execError message))
      | none =>
      match ← prepare with
      | some _ => rolledBack (sqliteError "prepare receiver quota lookup")
      | none =>
      let reserved ← step .reservedBytes
      let admitted : Bool := match reserved with
        | .error _ => false
        | .ok reserved => withinReserve quota reserved.toUInt64 total
      if !admitted then
        rolledBack (pure (.invalid "receiver reserved-byte quota exceeded"))
      else do
      -- the second call overwrites the error of the first
      let _ ← createDirectories [text "incoming", drawn.sessionId]
      match ← createDirectories [text "incoming", text ".tmp", drawn.sessionId] with
      | some message =>
          rolledBack (pure ⟨.ioError,
            text "unable to create session staging directory: " ++ message⟩)
      | none =>
      match ← prepare with
      | some _ => rolledBack (sqliteError "prepare session insert")
      | none =>
      match ← step (.insertSession (sessionRow drawn total)) with
      | .error _ => rolledBack (sqliteError "insert session")
      | .ok _ =>
      let rows := requestRows drawn 0 files safeNames
      match ← prepare with
      | some _ => rolledBack (sqliteError "prepare file insert")
      | none =>
      if !(← insertFiles rows) then
        rolledBack (sqliteError "insert upload file")
      else
        committing ((sessionRow drawn total).toSession rows)

-- ================================================================ reading

/-- `GetSession`. -/
def getSession (sessionId : Bytes) : StoreM (Except Status UploadSession) :=
  if sessionId.isEmpty then
    pure (.error (.invalid "session id must not be empty"))
  else do
    match ← prepare with
    | some _ => do
        let e ← sqliteError "prepare session lookup"
        pure (.error e)
    | none =>
    match ← step (.session sessionId) with
    | .error _ | .ok none =>
        pure (.error (.notFound "upload session not found"))
    | .ok (some row) =>
    match ← prepare with
    | some _ => do
        let e ← sqliteError "prepare file lookup"
        pure (.error e)
    | none => do
        let files ← collect (← step (.files sessionId))
        pure (.ok (row.toSession files))

/-- `GetFile`. -/
def getFile (sessionId fileId : Bytes) : StoreM (Except Status UploadFile) := do
  match ← getSession sessionId with
  | .error e => pure (.error e)
  | .ok session =>
      match session.files.find? (·.fileId == fileId) with
      | some file => pure (.ok file)
      | none => pure (.error (.notFound "upload file not found"))

-- =============================================================== uploads

/-- `BeginUpload`. -/
def beginUpload (sessionId fileId : Bytes) :
    StoreM (Except Status BeginUploadResult) := do
  match ← execBegin with
  | some message => pure (.error (execError message))
  | none =>
  match ← prepare with
  | some _ => rolledBack (sqliteError "prepare upload state lookup")
  | none =>
  match ← step (.uploadState sessionId fileId) with
  | .error _ | .ok none => rolledBack (pure (.notFound "upload file not found"))
  | .ok (some .received) => do
      let _ ← execRollback
      pure (.ok .alreadyReceived)
  | .ok (some .receiving) => do
      let _ ← execRollback
      pure (.ok .busy)
  | .ok (some _) =>
  match ← prepare with
  | some _ => rolledBack (sqliteError "prepare begin upload")
  | none => do
      let result ← step (.beginUpload sessionId fileId)
      let changed ← changes
      if !result.isOk || changed != 1 then
        rolledBack (sqliteError "begin upload")
      else committing .started

/-- `MarkUploadFailed`: one statement in a transaction of its own. -/
def markUploadFailed (sessionId fileId : Bytes) :
    StoreM (Except Status Unit) := do
  match ← prepare with
  | some _ => do
      let e ← sqliteError "prepare failed upload update"
      pure (.error e)
  | none =>
  match ← step (.markFailed sessionId fileId) with
  | .error _ => do
      let e ← sqliteError "mark upload failed"
      pure (.error e)
  | .ok _ => pure (.ok ())

/-- `CommitUpload`. -/
def commitUpload (sessionId fileId : Bytes) (receivedSize : UInt64)
    (serverDigest : Digest) : StoreM (Except Status Unit) := do
  match ← execBegin with
  | some message => pure (.error (execError message))
  | none =>
  match ← prepare with
  | some _ => rolledBack (sqliteError "prepare commit upload")
  | none => do
      let result ← step (.commitUpload sessionId fileId receivedSize.toInt64
        serverDigest)
      let changed ← changes
      if !result.isOk || changed != 1 then
        rolledBack (pure (.invalid
          "received upload size does not match the registered file"))
      else
      match ← prepare with
      | some _ => rolledBack (sqliteError "prepare session progress update")
      | none =>
      match ← step (.updateProgress sessionId) with
      | .error _ => rolledBack (sqliteError "update session progress")
      | .ok _ => committing ()

/-- `CompleteSession`. -/
def completeSession (sessionId : Bytes) : StoreM (Except Status Unit) := do
  match ← execBegin with
  | some message => pure (.error (execError message))
  | none =>
  match ← prepare with
  | some _ => rolledBack (sqliteError "prepare session completion check")
  | none =>
  match ← step (.completion sessionId) with
  | .error _ => rolledBack (sqliteError "check session completion")
  | .ok (fileCount, incompleteCount) =>
  if fileCount = 0 then
    rolledBack (pure (.notFound "upload session not found"))
  else if incompleteCount ≠ 0 then
    rolledBack (pure (.invalid "upload session still has incomplete files"))
  else
  match ← prepare with
  | some _ => rolledBack (sqliteError "prepare session completion update")
  | none => do
      let result ← step (.completeSession sessionId)
      let changed ← changes
      if !result.isOk then rolledBack (sqliteError "complete upload session")
      else if changed = 0 then
        rolledBack (pure (.alreadyExists "upload session is complete"))
      else committing ()

/-- The candidates of `RecoverInterruptedUploads`. -/
def interruptedUploads : StoreM (Except Status (List UploadFileRow)) := do
  match ← prepare with
  | some _ => do
      let e ← sqliteError "prepare interrupted upload recovery"
      pure (.error e)
  | none => do
      let candidates ← collect (← step .interrupted)
      pure (.ok candidates)

end PhotoBridge.Upload
