/-
The receiver's database (`upload_session_store.cpp`): its two tables as
lists of rows in the order they were inserted, and each SQL statement as
a function on them.

Sizes are kept as `sqlite3_int64`, so that the casts of the source show.
The integers of the two `state` columns are the enumerations they are
decoded to; the statements only ever write those. Foreign keys are not
enforced (`PRAGMA foreign_keys` is off by default).
-/
import Mathlib.Algebra.Group.Int.Defs
import PhotoBridge.Lib.SharedConnection
import PhotoBridge.Status

namespace PhotoBridge.Upload

open SharedConnection

-- ================================================================ rows

inductive UploadFileState
  | pending | receiving | received | failed
  deriving DecidableEq, Repr

inductive UploadSessionState
  | opened | complete | failed
  deriving DecidableEq, Repr

structure UploadSessionRow where
  sessionId : Bytes
  createdAtNs : Int64
  expectedTotalBytes : Int64
  receivedTotalBytes : Int64
  state : UploadSessionState
  deriving DecidableEq

structure UploadFileRow where
  sessionId : Bytes
  fileId : Bytes
  originalFilename : Bytes
  safeFilename : Bytes
  expectedSize : Int64
  receivedSize : Int64
  clientDigest : Option Digest
  serverDigest : Option Digest
  state : UploadFileState
  deriving DecidableEq

/-- The row `WHERE session_id = ? AND file_id = ?` selects. -/
def UploadFileRow.isAt (sessionId fileId : Bytes) (row : UploadFileRow) :
    Bool :=
  row.sessionId == sessionId && row.fileId == fileId

structure UploadDb where
  sessions : List UploadSessionRow
  files : List UploadFileRow
  deriving DecidableEq

namespace UploadDb

/-- The tables just created. -/
def empty : UploadDb := ⟨[], []⟩

-- ========================================================== statements

/-- Addition in `SUM`, with SQLite's check for overflow. -/
def addInt64 (a b : Int64) : Option Int64 :=
  let sum := a.toInt + b.toInt
  if -(2 ^ 63) ≤ sum ∧ sum < 2 ^ 63 then some (a + b) else none

/-- `COALESCE(SUM(..), 0)`. -/
def sumInt64 (values : List Int64) : Option Int64 := values.foldlM addInt64 0

/-- The files of a session. -/
def filesOf (db : UploadDb) (sessionId : Bytes) : List UploadFileRow :=
  db.files.filter (·.sessionId == sessionId)

def session? (db : UploadDb) (sessionId : Bytes) : Option UploadSessionRow :=
  db.sessions.find? (·.sessionId == sessionId)

def file? (db : UploadDb) (sessionId fileId : Bytes) : Option UploadFileRow :=
  db.files.find? (·.isAt sessionId fileId)

/-- `UPDATE upload_file`, with the number of rows changed. -/
def updateFiles (db : UploadDb) (selects : UploadFileRow → Bool)
    (change : UploadFileRow → UploadFileRow) : Nat × UploadDb :=
  (db.files.countP selects, { db with
    files := db.files.map fun row => if selects row then change row else row })

/-- `UPDATE upload_session`. -/
def updateSessions (db : UploadDb) (selects : UploadSessionRow → Bool)
    (change : UploadSessionRow → UploadSessionRow) : Nat × UploadDb :=
  (db.sessions.countP selects, { db with
    sessions := db.sessions.map fun row =>
      if selects row then change row else row })

/-- `SELECT COALESCE(SUM(expected_total_bytes), 0) .. WHERE state != 2`. -/
def reservedBytes (db : UploadDb) : Option Int64 :=
  sumInt64 ((db.sessions.filter (·.state != .failed)).map
    (·.expectedTotalBytes))

/-- `INSERT INTO upload_session`: the primary key. -/
def insertSession (db : UploadDb) (row : UploadSessionRow) :
    Except Bytes UploadDb :=
  if (db.session? row.sessionId).isSome then
    .error (text "UNIQUE constraint failed: upload_session.session_id")
  else .ok { db with sessions := db.sessions ++ [row] }

/-- `INSERT INTO upload_file`: the primary key and the unique safe name. -/
def insertFile (db : UploadDb) (row : UploadFileRow) :
    Except Bytes UploadDb :=
  if (db.file? row.sessionId row.fileId).isSome then
    .error (text
      "UNIQUE constraint failed: upload_file.session_id, upload_file.file_id")
  else if db.files.any fun other => other.sessionId == row.sessionId
      && other.safeFilename == row.safeFilename then
    .error (text "UNIQUE constraint failed: upload_file.session_id, upload_file.safe_filename")
  else .ok { db with files := db.files ++ [row] }

/-- `UPDATE upload_file SET state = 1 .. AND state IN (0, 3)`. -/
def begin_ (db : UploadDb) (sessionId fileId : Bytes) : Nat × UploadDb :=
  db.updateFiles (fun row => row.isAt sessionId fileId
      && (row.state == .pending || row.state == .failed))
    fun row => { row with state := .receiving }

/-- `UPDATE upload_file SET state = 3 .. AND state = 1`. -/
def markFailed (db : UploadDb) (sessionId fileId : Bytes) : Nat × UploadDb :=
  db.updateFiles
    (fun row => row.isAt sessionId fileId && row.state == .receiving)
    fun row => { row with state := .failed }

/-- `UPDATE upload_file SET received_size = ?, server_digest = ?,
state = 2 .. AND state = 1 AND expected_size = ?`. -/
def receive (db : UploadDb) (sessionId fileId : Bytes) (size : Int64)
    (digest : Digest) : Nat × UploadDb :=
  db.updateFiles
    (fun row => row.isAt sessionId fileId && row.state == .receiving
      && row.expectedSize == size)
    fun row => { row with
      receivedSize := size, serverDigest := some digest, state := .received }

/-- `UPDATE upload_session SET received_total_bytes = (SELECT ..)`. -/
def updateProgress (db : UploadDb) (sessionId : Bytes) :
    Except Bytes (Nat × UploadDb) :=
  match sumInt64 ((db.filesOf sessionId).map (·.receivedSize)) with
  | none => .error (text "integer overflow")
  | some total => .ok (db.updateSessions (·.sessionId == sessionId)
      fun row => { row with receivedTotalBytes := total })

/-- The two counts `CompleteSession` selects. -/
def completion (db : UploadDb) (sessionId : Bytes) : Nat × Nat :=
  ((db.filesOf sessionId).length,
    (db.filesOf sessionId).countP (·.state != .received))

/-- `UPDATE upload_session SET state = 1 .. AND state = 0`. -/
def complete (db : UploadDb) (sessionId : Bytes) : Nat × UploadDb :=
  db.updateSessions
    (fun row => row.sessionId == sessionId && row.state == .opened)
    fun row => { row with state := .complete }

end UploadDb

-- ===================================================== prepared statements

inductive UploadQuery
  | reservedBytes
  | insertSession (row : UploadSessionRow)
  | insertFile (row : UploadFileRow)
  | session (sessionId : Bytes)
  | files (sessionId : Bytes)
  | interrupted
  | uploadState (sessionId fileId : Bytes)
  | beginUpload (sessionId fileId : Bytes)
  | markFailed (sessionId fileId : Bytes)
  | commitUpload (sessionId fileId : Bytes) (size : Int64) (digest : Digest)
  | updateProgress (sessionId : Bytes)
  | completion (sessionId : Bytes)
  | completeSession (sessionId : Bytes)

namespace UploadQuery

/-- What stepping the statement delivers: `none` stands for `SQLITE_DONE`
where a row is asked for, and the rows of a loop come as a list. -/
abbrev Row : UploadQuery → Type
  | .reservedBytes => Int64
  | .session _ => Option UploadSessionRow
  | .files _ => List UploadFileRow
  | .interrupted => List UploadFileRow
  | .uploadState _ _ => Option UploadFileState
  | .completion _ => Nat × Nat
  | _ => Unit

def writes : UploadQuery → Bool
  | .reservedBytes | .session _ | .files _ | .interrupted
  | .uploadState _ _ | .completion _ => false
  | _ => true

/-- The answer of an `UPDATE` as that of a statement. -/
def updated (p : Nat × UploadDb) : Except Bytes (Unit × Nat × UploadDb) :=
  .ok ((), p)

/-- The answer of an `INSERT`. -/
def inserted (p : Except Bytes UploadDb) :
    Except Bytes (Unit × Nat × UploadDb) :=
  p.map fun db => ((), 1, db)

def run : (q : UploadQuery) → UploadDb → Except Bytes (q.Row × Nat × UploadDb)
  | .reservedBytes, db =>
      match db.reservedBytes with
      | none => .error (text "integer overflow")
      | some total => .ok (total, 0, db)
  | .insertSession row, db => inserted (db.insertSession row)
  | .insertFile row, db => inserted (db.insertFile row)
  | .session s, db => .ok (db.session? s, 0, db)
  | .files s, db => .ok (db.filesOf s, 0, db)
  | .interrupted, db =>
      .ok (db.files.filter (·.state == .receiving), 0, db)
  | .uploadState s f, db => .ok ((db.file? s f).map (·.state), 0, db)
  | .beginUpload s f, db => updated (db.begin_ s f)
  | .markFailed s f, db => updated (db.markFailed s f)
  | .commitUpload s f size digest, db => updated (db.receive s f size digest)
  | .updateProgress s, db => (db.updateProgress s).map fun p => ((), p)
  | .completion s, db => .ok (db.completion s, 0, db)
  | .completeSession s, db => updated (db.complete s)

theorem run_reservedBytes {db db' : UploadDb} {total : Int64} {n : Nat}
    (h : reservedBytes.run db = .ok (total, n, db')) :
    db.reservedBytes = some total := by
  unfold run at h
  cases hsum : db.reservedBytes with
  | none =>
      simp only [hsum] at h
      cases h
  | some sum =>
      simp only [hsum] at h
      cases h
      rfl

theorem run_read {q : UploadQuery} {db db' : UploadDb} {row : q.Row} {n : Nat}
    (hq : q.writes = false) (h : q.run db = .ok (row, n, db')) : db' = db := by
  cases q with
  | reservedBytes =>
      unfold run at h
      cases hsum : db.reservedBytes with
      | none =>
          simp only [hsum] at h
          cases h
      | some total =>
          simp only [hsum] at h
          cases h
          rfl
  | session s => cases h; rfl
  | files s => cases h; rfl
  | interrupted => cases h; rfl
  | uploadState s f => cases h; rfl
  | completion s => cases h; rfl
  | insertSession row => cases hq
  | insertFile row => cases hq
  | beginUpload s f => cases hq
  | markFailed s f => cases hq
  | commitUpload s f size digest => cases hq
  | updateProgress s => cases hq
  | completeSession s => cases hq

end UploadQuery

/-- The statements of the upload store. -/
def uploadStatements : Statements UploadDb Bytes where
  Query := UploadQuery
  Row := UploadQuery.Row
  writes := UploadQuery.writes
  run := UploadQuery.run
  run_read := UploadQuery.run_read

end PhotoBridge.Upload
