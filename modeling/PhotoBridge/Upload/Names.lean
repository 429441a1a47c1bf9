/-
The names and paths of the upload receiver (`upload_session_store.cpp`):
what a client may call a file, how two files of one session are told
apart, and where an upload stands on disk.

A path is the list of its components below the workspace root.
-/
import PhotoBridge.Scan.Walker

namespace PhotoBridge.Upload

-- ================================================================== ids

/-- What `std::random_device` gives `NewId`: sixteen times four bits. -/
abbrev Nonce := Fin 16 → Fin 16

/-- `NewId`. -/
def newId (pre : String) (random : Nonce) : Bytes :=
  text pre ++ text "-"
    ++ (List.ofFn random).map fun digit => hexDigit (UInt8.ofNat digit)

-- =============================================================== names

/-- A byte that `SafeFilename` refuses. -/
def isUnsafeByte (byte : UInt8) : Bool :=
  byte == 0 || byte == 47 || byte == 92 || byte < 0x20 || byte == 0x7f

/-- `SafeFilename`. -/
def safeFilename (original : Bytes) : Except Status Bytes :=
  if original.isEmpty || original == text "." || original == text ".." then
    .error (.invalid "filename must be a non-empty single component")
  else if original.length > 255 then
    .error (.invalid "filename exceeds 255 bytes")
  else if original.any isUnsafeByte then
    .error (.invalid "filename contains an unsafe path component")
  else .ok original

/-- `WithCollisionSuffix`. -/
def withCollisionSuffix (value : Bytes) (suffix : Nat) : Bytes :=
  if suffix = 1 then value
  else
    let suffixText := text "__" ++ decimal suffix
    match rfind 46 value with
    | none => value ++ suffixText
    | some extension =>
        if extension = 0 then value ++ suffixText
        else value.take extension ++ suffixText ++ value.drop extension

/-- The `while` loop over suffixes, `fuel` of them tried: the first name
not used yet. The candidates differ, so one more than there are used
names is enough (`freeName_free`). -/
def freeName (used : List Bytes) (safe : Bytes) :
    (fuel suffix : Nat) → Bytes
  | 0, suffix => withCollisionSuffix safe suffix
  | fuel + 1, suffix =>
      if withCollisionSuffix safe suffix ∈ used then
        freeName used safe fuel (suffix + 1)
      else withCollisionSuffix safe suffix

/-- `AddWouldOverflow`. -/
def addWouldOverflow (left right : UInt64) : Bool :=
  right.toNat > (UInt64.size - 1) - left.toNat

-- =============================================================== paths

abbrev Path := List Bytes

/-- `FinalPath`. -/
def finalPath (sessionId safeFilename : Bytes) : Path :=
  [text "incoming", sessionId, safeFilename]

/-- `TempPath`. -/
def tempPath (sessionId fileId : Bytes) : Path :=
  [text "incoming", text ".tmp", sessionId, fileId ++ text ".pbtmp"]

/-- `parent_path`. -/
def parentPath (path : Path) : Path := path.dropLast

end PhotoBridge.Upload
