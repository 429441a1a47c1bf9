/-
The receiver, system call by system call: `UploadSessionStore::Open` with
the recovery it runs (`upload_session_store.cpp`), and the PUT handler
with `ReceiveBody` and `PublishNoReplace` (`http_server.cpp`).

An operation of the store is one call here, whatever SQLite calls it is
made of; `Upload/Proofs/Interleaving.lean` says when threads may count on
that.
-/
import PhotoBridge.Upload.Effects

namespace PhotoBridge.Upload

open Concurrent SharedConnection

-- ============================================================== the calls

/-- A call of `UploadSessionStore`. The first loop of
`RecoverInterruptedUploads` counts as one. -/
inductive StoreOp
  | change (op : Operation)
  | getFile (sessionId fileId : Bytes)
  | interrupted

abbrev StoreOp.Answer : StoreOp → Type
  | .change op => Except Status op.Answer
  | .getFile _ _ => Except Status UploadFile
  | .interrupted => Except Status (List UploadFileRow)

def StoreOp.program : (op : StoreOp) → StoreM op.Answer
  | .change op => op.program
  | .getFile sessionId fileId => Upload.getFile sessionId fileId
  | .interrupted => interruptedUploads

/-- A descriptor stands for the file it was opened on. -/
abbrev Inode := Nat

/-- The system calls, and what is read of `std::filesystem`. `write`
stands for the calls it takes until one was not interrupted by a signal,
`readFile` for opening and reading a file from start to end. -/
inductive SystemCall
  | createDirectories (path : Path)
  | isRegularFile (path : Path)
  | fileSize (path : Path)
  | readFile (path : Path)
  | remove (path : Path)
  | unlink (path : Path)
  | openExclusive (path : Path)
  | write (fd : Inode) (data : Bytes)
  | fsync (fd : Inode)
  | close (fd : Inode)
  | renameNoReplace (old new : Path)
  | openDirectory (path : Path)
  | fsyncDirectory (path : Path)
  | closeDirectory (path : Path)

/-- The error numbers the handler tells apart. -/
inductive Errno
  | exist | other
  deriving DecidableEq

/-- `none` is an error where a value is asked for; `write` answers how
many bytes it took, none of them when it failed. -/
abbrev SystemCall.Answer : SystemCall → Type
  | .createDirectories _ => Option Bytes
  | .isRegularFile _ => Option Bool
  | .fileSize _ => Option Nat
  | .readFile _ => Option Bytes
  | .remove _ => Unit
  | .unlink _ => Unit
  | .openExclusive _ => Option Inode
  | .write _ _ => Nat
  | .fsync _ => Bool
  | .close _ => Bool
  | .renameNoReplace _ _ => Option Errno
  | .openDirectory _ => Bool
  | .fsyncDirectory _ => Bool
  | .closeDirectory _ => Unit

abbrev serverCalls : Interface where
  Call := StoreOp ⊕ SystemCall
  Answer
    | .inl op => op.Answer
    | .inr c => c.Answer

abbrev ServerM := Program serverCalls

def callStore (op : StoreOp) : ServerM op.Answer := .call (.inl op) .done

def callSystem (c : SystemCall) : ServerM c.Answer := .call (.inr c) .done

/-- An operation that changes the tables. -/
def callChange (op : Operation) : ServerM (Except Status op.Answer) :=
  callStore (.change op)

section

variable (blake3 : Bytes → Digest)

-- ====================================================== opening the store

/-- `MarkUploadFailed` of a candidate. -/
def giveUpCandidate (row : UploadFileRow) : ServerM (Except Status Unit) :=
  callChange (.markUploadFailed row.sessionId row.fileId)

/-- One round of the second loop of `RecoverInterruptedUploads`. -/
def recoverCandidate (row : UploadFileRow) : ServerM (Except Status Unit) := do
  let final := finalPath row.sessionId row.safeFilename
  match ← callSystem (.isRegularFile final) with
  | none | some false => giveUpCandidate row
  | some true =>
  match ← callSystem (.fileSize final) with
  | none => giveUpCandidate row
  | some size =>
  if size ≠ row.expectedSize.toUInt64.toNat then giveUpCandidate row
  else do
    -- `HashRegularFile`
    match ← callSystem (.readFile final) with
    | none => giveUpCandidate row
    | some content =>
    match ← callChange (.commitUpload row.sessionId row.fileId
        row.expectedSize.toUInt64 (blake3 content)) with
    | .error _ => giveUpCandidate row
    | .ok _ => do
        let _ ← callSystem (.remove (tempPath row.sessionId row.fileId))
        pure (.ok ())

def recoverCandidates : List UploadFileRow → ServerM (Except Status Unit)
  | [] => pure (.ok ())
  | row :: rest => do
      match ← recoverCandidate blake3 row with
      | .error e => pure (.error e)
      | .ok _ => recoverCandidates rest

/-- `RecoverInterruptedUploads`. -/
def recoverInterruptedUploads : ServerM (Except Status Unit) := do
  match ← callStore .interrupted with
  | .error e => pure (.error e)
  | .ok candidates => recoverCandidates blake3 candidates

/-- `UploadSessionStore::Open`, on a root that is not empty and a database
that opens. -/
def openStore : ServerM (Except Status Unit) := do
  match ← callSystem (.createDirectories [text "incoming", text ".tmp"]) with
  | some message =>
      pure (.error ⟨.ioError,
        text "unable to create receiver staging directory: " ++ message⟩)
  | none => recoverInterruptedUploads blake3

-- ====================================================== receiving a body

/-- What the content reader delivers: the chunks, and whether the body
came to its end. -/
structure Body where
  chunks : List Bytes
  complete : Bool

/-- The loop of `WriteAll`, at most `fuel` bytes to write. -/
def writeLoop (fd : Inode) : (fuel : Nat) → Bytes → ServerM Bool
  | _, [] => pure true
  | 0, _ :: _ => pure false
  | fuel + 1, byte :: data => do
      let written ← callSystem (.write fd (byte :: data))
      if written = 0 then pure false
      else writeLoop fd fuel ((byte :: data).drop written)

/-- `WriteAll`. Each call takes a byte at least, so their number is the
fuel to give. -/
def writeAll (fd : Inode) (data : Bytes) : ServerM Bool :=
  writeLoop fd data.length data

/-- What `ReceiveBody` has when the reader returns. -/
structure Received where
  readOk : Bool
  sizeOverflow : Bool
  received : UInt64
  /-- What went into the hasher. -/
  hashed : Bytes

/-- The reader, with the receiver `ReceiveBody` gives it. -/
def receiveChunks (fd : Inode) (expectedSize : UInt64) (complete : Bool) :
    List Bytes → (received : UInt64) → (hashed : Bytes) → ServerM Received
  | [], received, hashed => pure ⟨complete, false, received, hashed⟩
  | chunk :: rest, received, hashed =>
      if chunk.length > (expectedSize - received).toNat then
        pure ⟨false, true, received, hashed⟩
      else do
        let written ← writeAll fd chunk
        if !written then pure ⟨false, false, received, hashed⟩
        else
          receiveChunks fd expectedSize complete rest
            (received + UInt64.ofNat chunk.length) (hashed ++ chunk)

/-- `sync_ok`. -/
def syncReceived (fd : Inode) (expectedSize : UInt64) (got : Received) :
    ServerM Bool :=
  if got.readOk && got.received == expectedSize then callSystem (.fsync fd)
  else pure false

/-- `ReceiveBody`, with its `size_overflow`. -/
def receiveBody (temporary : Path) (expectedSize : UInt64) (body : Body) :
    ServerM (Except Status Digest × Bool) := do
  let _ ← callSystem (.remove temporary)
  match ← callSystem (.openExclusive temporary) with
  | none =>
      pure (.error ⟨.ioError, text "unable to create upload temporary file"⟩,
        false)
  | some fd => do
      let got ← receiveChunks fd expectedSize body.complete body.chunks 0 []
      let syncOk ← syncReceived fd expectedSize got
      let closed ← callSystem (.close fd)
      if !syncOk || !closed then do
        let _ ← callSystem (.unlink temporary)
        if got.sizeOverflow then
          pure (.error (.invalid "upload body exceeds registered file size"),
            true)
        else
          pure (.error ⟨.ioError, text (if got.received == expectedSize then
            "unable to synchronize upload temporary file"
            else "upload body size does not match registered file")⟩, false)
      else pure (.ok (blake3 got.hashed), got.sizeOverflow)

-- ============================================================ the handler

structure Response where
  status : Nat
  body : Bytes
  deriving DecidableEq

/-- A response with one line of text. -/
def Response.line (status : Nat) (message : Bytes) : Response :=
  ⟨status, message ++ text "\n"⟩

def Response.received : Response := .line 200 (text "\x7b\"state\":\"RECEIVED\"\x7d")

def Response.published (digest : Digest) : Response :=
  .line 201 (text "\x7b\"state\":\"RECEIVED\",\"server_hash\":\"" ++ digest.toHex
    ++ text "\"\x7d")

/-- `directory_synced`: the directory opened, synchronised and closed. -/
def syncDirectory (path : Path) : ServerM Bool := do
  let opened ← callSystem (.openDirectory path)
  if !opened then pure false
  else do
    let synced ← callSystem (.fsyncDirectory path)
    let _ ← callSystem (.closeDirectory path)
    pure synced

/-- The rest of the PUT handler once the body is in the temporary file:
publishing it and committing. -/
def publishUpload (sessionId fileId : Bytes) (file : UploadFile)
    (digest : Digest) : ServerM Response := do
  let temporary := tempPath sessionId fileId
  let final := finalPath sessionId file.safeFilename
  match ← callSystem (.renameNoReplace temporary final) with
  | some error => do
      let _ ← callChange (.markUploadFailed sessionId fileId)
      if error = .exist then
        pure (.line 409 (text "upload target already exists"))
      else pure (.line 500 (text "unable to publish upload"))
  | none => do
      let synced ← syncDirectory (parentPath final)
      if !synced then
        pure (.line 500 (text "upload commit is not durable"))
      else
      match ← callChange (.commitUpload sessionId fileId file.expectedSize
          digest) with
      | .error _ => pure (.line 500 (text "upload commit is not durable"))
      | .ok _ => pure (.published digest)

/-- The PUT handler from `BeginUploadResult::kStarted` on. -/
def upload (sessionId fileId : Bytes) (file : UploadFile) (body : Body) :
    ServerM Response := do
  let temporary := tempPath sessionId fileId
  match ← receiveBody blake3 temporary file.expectedSize body with
  | (.error e, sizeOverflow) => do
      let _ ← callChange (.markUploadFailed sessionId fileId)
      pure (.line (if sizeOverflow then 413 else 400) e.message)
  | (.ok digest, _) =>
      if file.clientDigest.any (· != digest) then do
        let _ ← callChange (.markUploadFailed sessionId fileId)
        let _ ← callSystem (.unlink temporary)
        pure (.line 422 (text "client hash does not match upload"))
      else publishUpload sessionId fileId file digest

/-- A PUT request, as far as the handler looks at it. -/
structure PutRequest where
  /-- `api_authorized`. -/
  authorized : Bool
  sessionId : Bytes
  fileId : Bytes
  body : Body

/-- The PUT handler. -/
def put (request : PutRequest) : ServerM Response :=
  if !request.authorized then pure (.line 401 (text "unauthorized"))
  else do
    match ← callStore (.getFile request.sessionId request.fileId) with
    | .error e => pure (.line 404 e.message)
    | .ok file =>
    match ← callChange (.beginUpload request.sessionId request.fileId) with
    | .error e => pure (.line 500 e.message)
    | .ok .alreadyReceived => pure .received
    | .ok .busy => pure (.line 409 (text "upload is already receiving"))
    | .ok .started =>
        upload blake3 request.sessionId request.fileId file request.body

end

end PhotoBridge.Upload
