/-
Source manifests in the workspace database: the two tables, the assets
their rows stand for, and how a frozen manifest is read back
(`physical_asset.cpp`, the reading half of `manifest_builder.cpp`).

# Columns

A column SQLite may hold anything in is a `Cell`, and the readers check
it; the ids, which every statement compares as text, are their bytes.
`created_at_ns` and `display_path` are written and never read here, and
left out. What the migration commands read of a manifest is in
Db/Schema.lean.

# The digest

The hasher depends on the concatenation of its updates only
(Copy/CopyAndHash.lean), so the digest of a manifest is a function of the
bytes its rows append.
-/
import PhotoBridge.Lib.Reading
import PhotoBridge.Lib.Sorting
import PhotoBridge.Plan.Canonical

namespace PhotoBridge

open Transaction Sorting

-- =============================================================== assets

inductive AssetKind
  | media | sidecarJson | sidecarXmp | albumMetadata | unknown
  deriving DecidableEq

/-- `static_cast<int>(kind)`. -/
def AssetKind.number : AssetKind → Nat
  | .media => 0
  | .sidecarJson => 1
  | .sidecarXmp => 2
  | .albumMetadata => 3
  | .unknown => 4

structure PhysicalAsset where
  relativePath : RelativePath
  identity : FileIdentity
  kind : AssetKind
  extension : Bytes
  deriving DecidableEq

/-- `HexEncode`. -/
def hexEncode (value : Bytes) : Bytes :=
  value.flatMap fun (b : UInt8) => [hexDigit (b >>> 4), hexDigit (b &&& 15)]

/-- `PhysicalAssetIdFor`. -/
def physicalAssetIdFor (asset : PhysicalAsset) : Bytes :=
  text "path-" ++ hexEncode asset.relativePath.bytes

-- =============================================================== tables

/-- A value in a column. -/
inductive Cell
  | null
  | integer (value : Int64)
  | real
  | text (value : Bytes)
  | blob (value : Bytes)
  deriving DecidableEq

/-- The column holds the number. -/
def Cell.Holds (cell : Cell) (value : UInt64) : Prop :=
  ∃ number, cell = .integer number ∧ number.toInt = value.toNat

def Cell.rank : Cell → Nat
  | .null => 0
  | .integer _ => 1
  | .real => 2
  | .text _ => 3
  | .blob _ => 4

def Cell.number : Cell → Int
  | .integer value => value.toInt
  | _ => 0

def Cell.bytes : Cell → Bytes
  | .text value => value
  | .blob value => value
  | _ => []

/-- SQLite's order of values: by storage class, then by value. Reals are
put after the integers: all that hangs on it is which malformed row is
met first. -/
def Cell.before : Cell → Cell → Bool :=
  thenBy (fun a b => decide (a.rank < b.rank))
    (thenBy (fun a b => decide (a.number < b.number))
      fun a b => bytesLess a.bytes b.bytes)

structure ManifestRow where
  manifestId : Bytes
  sourceId : Cell
  sourceType : Cell
  sourceRoot : Cell
  state : Cell
  manifestDigest : Cell
  deriving DecidableEq

structure PhysicalAssetRow where
  manifestId : Bytes
  assetId : Bytes
  relativePath : Cell
  device : Cell
  inode : Cell
  size : Cell
  mtimeNs : Cell
  ctimeNs : Cell
  kind : Cell
  deriving DecidableEq

/-- The two tables. -/
structure ManifestDb where
  sources : List ManifestRow
  assets : List PhysicalAssetRow
  deriving DecidableEq

/-- The row of a manifest. -/
def ManifestDb.source? (db : ManifestDb) (manifestId : Bytes) :
    Option ManifestRow :=
  db.sources.find? (·.manifestId == manifestId)

/-- The assets of a manifest, in the order they are stored. -/
def ManifestDb.assetsOf (db : ManifestDb) (manifestId : Bytes) :
    List PhysicalAssetRow :=
  db.assets.filter (·.manifestId == manifestId)

/-- `ORDER BY relative_path ASC`. -/
def PhysicalAssetRow.byPath (left right : PhysicalAssetRow) : Bool :=
  left.relativePath.before right.relativePath

/-- `ORDER BY relative_path ASC, asset_id ASC`. -/
def PhysicalAssetRow.byPathAndId : PhysicalAssetRow → PhysicalAssetRow → Bool :=
  thenBy PhysicalAssetRow.byPath fun left right =>
    bytesLess left.assetId right.assetId

-- =========================================================== statements

/-- A program on a connection to the tables. -/
abbrev ManifestSession (μ α : Type) := Session ManifestDb Bytes μ Status α

section Statements

variable {μ : Type}

/-- A reading statement. -/
def selectRows {α : Type} (operation : String) (f : ManifestDb → α) :
    ManifestSession μ α :=
  Session.select (Status.sqlite operation) f

/-- Go on with what a check of the source returns. -/
def checked {α : Type} (result : Except Status α) : ManifestSession μ α :=
  match result with
  | .ok a => pure a
  | .error e => throw e

/-- The check of `BindText`. -/
def checkText (value : Bytes) (fieldName : String) : Except Status Unit :=
  if intMax < value.length then
    .error (.invalid ("SQLite text field is too large: " ++ fieldName))
  else .ok ()

end Statements

-- =============================================================== digest

/-- `AppendTextColumn`: the bytes it feeds the hasher. -/
def appendTextColumn (cell : Cell) (fieldName : String) :
    Except Status Bytes :=
  match cell with
  | .text value => .ok (lengthPrefixed value)
  | _ => .error (.internal
      ("SQLite canonical field is not text: " ++ fieldName))

/-- `AppendBlobColumn`. -/
def appendBlobColumn (cell : Cell) (fieldName : String) :
    Except Status Bytes :=
  match cell with
  | .blob value => .ok (lengthPrefixed value)
  | _ => .error (.internal
      ("SQLite canonical field is not a blob: " ++ fieldName))

/-- `AppendIntegerColumn`. -/
def appendIntegerColumn (cell : Cell) (fieldName : String) :
    Except Status Bytes :=
  match cell with
  | .integer value => .ok (uint64Bytes value.toUInt64)
  | _ => .error (.internal
      ("SQLite canonical field is not an integer: " ++ fieldName))

/-- `AppendNonnegativeIntegerColumn`. -/
def appendNonnegativeIntegerColumn (cell : Cell) (fieldName : String) :
    Except Status Bytes :=
  match cell with
  | .integer value =>
      if value < 0 then
        .error (.internal
          ("SQLite canonical field is negative: " ++ fieldName))
      else .ok (uint64Bytes value.toUInt64)
  | _ => .error (.internal
      ("SQLite canonical field is not an integer: " ++ fieldName))

/-- What the manifest's row appends. -/
def ManifestRow.payload (row : ManifestRow) :
    Except Status Bytes := do
  let sourceId ← appendTextColumn row.sourceId "source_id"
  let sourceType ← appendTextColumn row.sourceType "source_type"
  let sourceRoot ← appendBlobColumn row.sourceRoot "source_root"
  pure (sourceId ++ sourceType ++ sourceRoot)

/-- What an asset's row appends. -/
def PhysicalAssetRow.payload (row : PhysicalAssetRow) :
    Except Status Bytes := do
  let relativePath ← appendBlobColumn row.relativePath "relative_path"
  let device ← appendNonnegativeIntegerColumn row.device "device"
  let inode ← appendNonnegativeIntegerColumn row.inode "inode"
  let size ← appendNonnegativeIntegerColumn row.size "size"
  let mtimeNs ← appendIntegerColumn row.mtimeNs "mtime_ns"
  let ctimeNs ← appendIntegerColumn row.ctimeNs "ctime_ns"
  let kind ← appendIntegerColumn row.kind "kind"
  pure (relativePath ++ device ++ inode ++ size ++ mtimeNs ++ ctimeNs ++ kind)

section Reading

variable (blake3 : Bytes → Digest) {μ : Type}

/-- `ComputeManifestDigest`. -/
def computeManifestDigest (manifestId : Bytes) : ManifestSession μ Digest := do
  let found ← selectRows "read manifest digest source"
    (·.source? manifestId)
  match found with
  | none => throw (.sqlite "read manifest digest source" (text "not an error"))
  | some source => do
      let head ← checked source.payload
      let rows ← selectRows "read manifest digest asset" fun db =>
        sortBy PhysicalAssetRow.byPathAndId (db.assetsOf manifestId)
      let body ← checked (rows.mapM PhysicalAssetRow.payload)
      pure (blake3 (lengthPrefixed (text "PB_MANIFEST_V1") ++ head
        ++ body.flatten))

-- ====================================================== frozen manifests

structure FrozenManifest where
  manifestId : Bytes
  assetCount : Nat
  manifestDigest : Digest
  deriving DecidableEq

/-- The checks of `ReadFrozenManifest` on the manifest's own row: the
digest that was stored. -/
def ManifestRow.frozenDigest (row : ManifestRow) :
    Except Status Digest :=
  match row.state with
  | .integer state =>
      if state ≠ 1 then .error (.invalid "manifest is not frozen")
      else match row.manifestDigest with
        | .blob bytes =>
            if h : bytes.length = 32 then .ok ⟨bytes, h⟩
            else .error (.internal
              "frozen manifest digest is missing or malformed")
        | _ => .error (.internal
            "frozen manifest digest is missing or malformed")
  | _ => .error (.internal "frozen manifest state is not an integer")

/-- What `ReadFrozenManifest` does inside its transaction. -/
def readFrozenManifestBody (manifestId : Bytes) :
    ManifestSession μ FrozenManifest := do
  checked (checkText manifestId "manifest_id")
  let found ← selectRows "read frozen manifest" fun db =>
    (db.source? manifestId).map fun row =>
      (row, (db.assetsOf manifestId).length)
  match found with
  | none => throw (.notFound "manifest was not found")
  | some (row, count) => do
      let persistedDigest ← checked row.frozenDigest
      let computedDigest ← computeManifestDigest blake3 manifestId
      if computedDigest ≠ persistedDigest then
        throw (.internal "frozen manifest digest does not match its assets")
      else pure ⟨manifestId, count, persistedDigest⟩

/-- `ReadFrozenManifest`. -/
def readFrozenManifest (manifestId : Bytes) :
    ManifestSession μ FrozenManifest :=
  Session.reading (Status.sqlite "execute SQLite statement")
    (text "cannot start a transaction within a transaction")
    (text "cannot commit - no transaction is active")
    (readFrozenManifestBody blake3 manifestId)

/-- `SqliteManifestBuilder::Reopen`, and `frozen_manifest` of the builder
it returns. -/
def reopen (manifestId : Bytes) : ManifestSession μ FrozenManifest :=
  if manifestId.isEmpty then
    throw (.invalid "manifest id must not be empty")
  else readFrozenManifest blake3 manifestId

end Reading

end PhotoBridge
