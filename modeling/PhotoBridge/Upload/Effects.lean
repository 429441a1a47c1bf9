/-
What each operation of the upload store does when it succeeds, in one
piece: the answer it gives and the tables it leaves, or nothing where the
tables do not admit it. These functions say what the operations are for;
`Upload/Proofs/Isolation.lean` shows that the programs of
`Upload/Store.lean` do all of it or nothing.
-/
import PhotoBridge.Upload.Store

namespace PhotoBridge.Upload

open Concurrent SharedConnection

namespace UploadDb

/-- The rows inserted one by one. -/
def insertAll (db : UploadDb) : List UploadFileRow → Option UploadDb
  | [] => some db
  | row :: rest =>
      match db.insertFile row with
      | .error _ => none
      | .ok db' => db'.insertAll rest

/-- A new session with its files. -/
def createSession (quota : UploadQuota) (drawn : Drawn)
    (files : List UploadFileRequest) (db : UploadDb) :
    Option (UploadSession × UploadDb) :=
  if files.isEmpty then none
  else match admitFiles quota 0 [] files, db.reservedBytes with
  | .ok (total, safeNames), some reserved =>
      if withinReserve quota reserved.toUInt64 total then
        match db.insertSession (sessionRow drawn total) with
        | .error _ => none
        | .ok db₁ =>
            (db₁.insertAll (requestRows drawn 0 files safeNames)).map fun db' =>
              ((sessionRow drawn total).toSession
                (requestRows drawn 0 files safeNames), db')
      else none
  | _, _ => none

/-- A file taken for an upload, unless it is received or being received. -/
def beginUpload (sessionId fileId : Bytes) (db : UploadDb) :
    Option (BeginUploadResult × UploadDb) :=
  match db.file? sessionId fileId with
  | none => none
  | some row =>
      match row.state with
      | .received => some (.alreadyReceived, db)
      | .receiving => some (.busy, db)
      | _ =>
          if (db.begin_ sessionId fileId).1 = 1 then
            some (.started, (db.begin_ sessionId fileId).2)
          else none

/-- A file given up. -/
def markUploadFailed (sessionId fileId : Bytes) (db : UploadDb) :
    Option (Unit × UploadDb) :=
  some ((), (db.markFailed sessionId fileId).2)

/-- A file received, and its session's progress brought up to date. -/
def commitUpload (sessionId fileId : Bytes) (receivedSize : UInt64)
    (serverDigest : Digest) (db : UploadDb) : Option (Unit × UploadDb) :=
  let received := db.receive sessionId fileId receivedSize.toInt64 serverDigest
  if received.1 = 1 then
    match received.2.updateProgress sessionId with
    | .error _ => none
    | .ok updated => some ((), updated.2)
  else none

/-- A session whose files are all received, closed. -/
def completeSession (sessionId : Bytes) (db : UploadDb) :
    Option (Unit × UploadDb) :=
  if (db.completion sessionId).1 = 0 ∨ (db.completion sessionId).2 ≠ 0
      ∨ (db.complete sessionId).1 = 0 then none
  else some ((), (db.complete sessionId).2)

end UploadDb

-- ========================================================= any operation

/-- A call of one of the store's operations, with its arguments. -/
inductive Operation
  | createSession (quota : UploadQuota) (drawn : Drawn)
      (files : List UploadFileRequest)
  | beginUpload (sessionId fileId : Bytes)
  | markUploadFailed (sessionId fileId : Bytes)
  | commitUpload (sessionId fileId : Bytes) (receivedSize : UInt64)
      (serverDigest : Digest)
  | completeSession (sessionId : Bytes)

namespace Operation

/-- What an operation answers when it succeeds. -/
abbrev Answer : Operation → Type
  | .createSession _ _ _ => UploadSession
  | .beginUpload _ _ => BeginUploadResult
  | _ => Unit

def program : (op : Operation) → StoreM (Except Status op.Answer)
  | .createSession quota drawn files => Upload.createSession quota drawn files
  | .beginUpload s f => Upload.beginUpload s f
  | .markUploadFailed s f => Upload.markUploadFailed s f
  | .commitUpload s f size digest => Upload.commitUpload s f size digest
  | .completeSession s => Upload.completeSession s

def effect : (op : Operation) → UploadDb → Option (op.Answer × UploadDb)
  | .createSession quota drawn files =>
      UploadDb.createSession quota drawn files
  | .beginUpload s f => UploadDb.beginUpload s f
  | .markUploadFailed s f => UploadDb.markUploadFailed s f
  | .commitUpload s f size digest => UploadDb.commitUpload s f size digest
  | .completeSession s => UploadDb.completeSession s

end Operation

/-- The calls that are not SQLite's, answered in any way. -/
def anyCall : Effects storeCalls Unit := fun _ _ _ _ => True

end PhotoBridge.Upload
