/-
The manifest builder (`SqliteManifestBuilder` of `manifest_builder.cpp`)
and the scan command that drives it (`scan_service.cpp`).

The builder's members are what its client remembers (`ManifestBuilder`);
every function of it is a program on the connection. Added assets wait in
`pendingAssets` and are inserted by the batch, in a transaction for each
batch. The clock and the counter a manifest id is made of are arguments.
-/
import PhotoBridge.Plan.Artifact
import PhotoBridge.Scan.Walker

namespace PhotoBridge

open Transaction

-- ============================================================= statements

/-- `SqliteError` when a constraint refuses the row. -/
def constraintError (operation errmsg : String) : Status :=
  ⟨.alreadyExists, text operation ++ text ": " ++ text errmsg⟩

/-- The check of `BindBlob` and `BindRawBlob`. -/
def checkBlob (value : Bytes) (fieldName : String) : Except Status Unit :=
  if intMax < value.length then
    .error (.invalid ("SQLite blob field is too large: " ++ fieldName))
  else .ok ()

/-- The check of `BindUint64`. -/
def checkUint64 (value : UInt64) (fieldName : String) : Except Status Unit :=
  if int64Max < value.toNat then
    .error (.invalid ("SQLite integer field overflows: " ++ fieldName))
  else .ok ()

/-- A digit of `std::hex` with `std::uppercase`. -/
def upperHexDigit (v : UInt8) : UInt8 := if v < 10 then 48 + v else 55 + v

/-- `RelativePath::DisplayString`. -/
def RelativePath.displayString (path : RelativePath) : Bytes :=
  path.bytes.flatMap fun (byte : UInt8) =>
    if 0x20 ≤ byte ∧ byte ≤ 0x7E ∧ byte ≠ 92 then [byte]
    else if byte = 92 then [92, 92]
    else [92, 120, upperHexDigit (byte >>> 4), upperHexDigit (byte &&& 15)]

/-- `INSERT INTO source_manifest`. -/
def ManifestDb.insertSource (db : ManifestDb) (row : ManifestRow) :
    Except Status (Unit × ManifestDb) :=
  if (db.source? row.manifestId).isSome then
    .error (constraintError "insert source manifest"
      "UNIQUE constraint failed: source_manifest.manifest_id")
  else .ok ((), { db with sources := db.sources ++ [row] })

/-- `INSERT INTO physical_asset`: the primary key, the unique paths and
the foreign key of the table. -/
def ManifestDb.insertAsset (db : ManifestDb) (row : PhysicalAssetRow) :
    Except Status (Unit × ManifestDb) :=
  let others := db.assetsOf row.manifestId
  if others.any (·.relativePath == row.relativePath) then
    .error (constraintError "insert physical asset"
      ("UNIQUE constraint failed: physical_asset.manifest_id, "
        ++ "physical_asset.relative_path"))
  else if others.any (·.assetId == row.assetId) then
    .error (constraintError "insert physical asset"
      ("UNIQUE constraint failed: physical_asset.manifest_id, "
        ++ "physical_asset.asset_id"))
  else if (db.source? row.manifestId).isNone then
    .error (constraintError "insert physical asset"
      "FOREIGN KEY constraint failed")
  else .ok ((), { db with assets := db.assets ++ [row] })

/-- The row is one of a manifest that is being built. -/
def ManifestRow.isBuilding (manifestId : Bytes) (row : ManifestRow) : Bool :=
  row.manifestId == manifestId && row.state == .integer 0

/-- The `UPDATE` of `Freeze`, and the number of rows it changes. -/
def ManifestDb.freezeSource (db : ManifestDb) (manifestId : Bytes)
    (digest : Digest) : Nat × ManifestDb :=
  ((db.sources.filter (·.isBuilding manifestId)).length,
    { db with sources := db.sources.map fun row =>
        if row.isBuilding manifestId then
          { row with state := .integer 1, manifestDigest := .blob digest.bytes }
        else row })

section Statements

variable {μ : Type}

/-- A writing statement. -/
def writeRows {α : Type} (operation : String)
    (f : ManifestDb → Except Status (α × ManifestDb)) : ManifestSession μ α :=
  Session.write (Status.sqlite operation) (text "database is locked") f

/-- `BEGIN IMMEDIATE`, the block, and `COMMIT`, with a `ROLLBACK` where
the block or the commit fails. -/
def immediately {α : Type} (x : ManifestSession μ α) : ManifestSession μ α :=
  Session.atomically (Status.sqlite "execute SQLite statement")
    (text "cannot start a transaction within a transaction")
    (text "database is locked")
    (text "cannot commit - no transaction is active") x

end Statements

-- ================================================================ builder

inductive ManifestBuilderState
  | idle | building | frozen
  deriving DecidableEq

/-- The members of `SqliteManifestBuilder`. -/
structure ManifestBuilder where
  batchSize : Nat
  state : ManifestBuilderState := .idle
  manifestId : Bytes := []
  assetCount : Nat := 0
  manifestDigest : Digest := .zero
  pendingAssets : List PhysicalAsset := []

/-- The constructor. -/
def ManifestBuilder.new (batchSize : Nat) : ManifestBuilder where
  batchSize := if batchSize = 0 then 1 else batchSize

structure SourceDescriptor where
  sourceId : Bytes
  sourceType : Bytes
  sourceRoot : Bytes
  deriving DecidableEq

/-- `NewManifestId`. -/
def newManifestId (now : Int64) (sequence : UInt64) : Bytes :=
  text "manifest-" ++ signedDecimal now ++ text "-" ++ decimal sequence.toNat

/-- The row `Begin` inserts. -/
def SourceDescriptor.row (source : SourceDescriptor) (manifestId : Bytes) :
    ManifestRow where
  manifestId := manifestId
  sourceId := .text source.sourceId
  sourceType := .text source.sourceType
  sourceRoot := .blob source.sourceRoot
  state := .integer 0
  manifestDigest := .null

/-- The columns `Begin` binds. -/
def SourceDescriptor.bind (source : SourceDescriptor) (manifestId : Bytes) :
    Except Status Unit := do
  checkText manifestId "manifest_id"
  checkText source.sourceId "source_id"
  checkText source.sourceType "source_type"
  checkBlob source.sourceRoot "source_root"

/-- The row `FlushPending` inserts for an asset. -/
def PhysicalAsset.row (asset : PhysicalAsset) (manifestId : Bytes) :
    PhysicalAssetRow where
  manifestId := manifestId
  assetId := physicalAssetIdFor asset
  relativePath := .blob asset.relativePath.bytes
  device := .integer asset.identity.device.toInt64
  inode := .integer asset.identity.inode.toInt64
  size := .integer asset.identity.size.toInt64
  mtimeNs := .integer asset.identity.mtimeNs
  ctimeNs := .integer asset.identity.ctimeNs
  kind := .integer (Int64.ofNat asset.kind.number)

/-- The columns `FlushPending` binds. -/
def PhysicalAsset.bind (asset : PhysicalAsset) (manifestId : Bytes) :
    Except Status Unit := do
  checkText manifestId "manifest_id"
  checkText (physicalAssetIdFor asset) "asset_id"
  checkBlob asset.relativePath.bytes "relative_path"
  checkText asset.relativePath.displayString "display_path"
  checkUint64 asset.identity.device "device"
  checkUint64 asset.identity.inode "inode"
  checkUint64 asset.identity.size "size"

namespace ManifestBuilder

/-- A function of the builder. -/
abbrev Action (α : Type) := ManifestSession ManifestBuilder α

/-- `Begin`. -/
def begin (candidateManifestId : Bytes) (source : SourceDescriptor) :
    Action Unit := do
  let builder ← Session.remembered
  if builder.state ≠ .idle then
    throw (.invalid "manifest builder has already been started")
  else if source.sourceId.isEmpty || source.sourceType.isEmpty
      || source.sourceRoot.isEmpty then
    throw (.invalid "manifest source fields must not be empty")
  else do
    immediately do
      checked (source.bind candidateManifestId)
      writeRows "insert source manifest"
        (·.insertSource (source.row candidateManifestId))
    Session.remember { builder with
      manifestId := candidateManifestId
      assetCount := 0
      manifestDigest := .zero
      pendingAssets := []
      state := .building }

/-- The loop of `FlushPending`: the assets inserted. -/
def insertAssets (manifestId : Bytes) :
    List PhysicalAsset → (batchCount : Nat) → Action Nat
  | [], batchCount => pure batchCount
  | asset :: rest, batchCount => do
      checked (asset.bind manifestId)
      writeRows "insert physical asset"
        (·.insertAsset (asset.row manifestId))
      insertAssets manifestId rest (batchCount + 1)

/-- `FlushPending`. -/
def flushPending : Action Unit := do
  let builder ← Session.remembered
  if builder.pendingAssets.isEmpty then pure ()
  else do
    let batchCount ←
      immediately (insertAssets builder.manifestId builder.pendingAssets 0)
    Session.remember { builder with
      assetCount := builder.assetCount + batchCount
      pendingAssets := builder.pendingAssets.drop batchCount }

/-- `Add`. -/
def add (asset : PhysicalAsset) : Action Unit := do
  let builder ← Session.remembered
  if builder.state ≠ .building then
    throw (.invalid "manifest builder is not building")
  else if asset.relativePath.bytes.isEmpty then
    throw (.invalid "physical asset relative path must not be empty")
  else do
    let pendingAssets := builder.pendingAssets ++ [asset]
    Session.remember { builder with pendingAssets := pendingAssets }
    if pendingAssets.length < builder.batchSize then pure ()
    else flushPending

variable (blake3 : Bytes → Digest)

/-- What `Freeze` does in its own transaction. -/
def freezeBody (manifestId : Bytes) : Action Digest := do
  let digest ← computeManifestDigest blake3 manifestId
  checked (checkText manifestId "manifest_id")
  let changed ← writeRows "freeze source manifest" fun db =>
    .ok (db.freezeSource manifestId digest)
  if changed ≠ 1 then
    throw (.internal "manifest freeze updated an unexpected number of rows")
  else pure digest

/-- `Freeze`. -/
def freeze : Action FrozenManifest := do
  let started ← Session.remembered
  if started.state ≠ .building then
    throw (.invalid "manifest builder is not building")
  else do
    flushPending
    let builder ← Session.remembered
    let digest ← immediately (freezeBody blake3 builder.manifestId)
    Session.remember { builder with
      state := .frozen
      manifestDigest := digest }
    pure ⟨builder.manifestId, builder.assetCount, digest⟩

end ManifestBuilder

-- =================================================================== scan

/-- The source `Execute` begins a manifest of. -/
def localFolderSource (inputPath : Bytes) : SourceDescriptor where
  sourceId := inputPath
  sourceType := text "local-folder"
  sourceRoot := inputPath

/-- `ScanService::Execute`, from the connection on: the manifest it
reports. -/
def executeScan (blake3 : Bytes → Digest) (strerror : Nat → Bytes)
    (call : (operation : String) → ManifestBuilder.Action Unit)
    (batchSize : Nat) (now : Int64) (sequence : UInt64) (inputPath : Bytes)
    (entries : Entries) : ManifestBuilder.Action FrozenManifest := do
  Session.remember (ManifestBuilder.new batchSize)
  ManifestBuilder.begin (newManifestId now sequence)
    (localFolderSource inputPath)
  scanLocalFolder strerror call ManifestBuilder.add inputPath entries
  ManifestBuilder.freeze blake3

-- ====================================================== what it is for

/-- Every asset belongs to a manifest: the foreign key of the table. -/
def ManifestDb.ForeignKeys (db : ManifestDb) : Prop :=
  ∀ row ∈ db.assets, (db.source? row.manifestId).isSome

/-- A file a scan takes up: a regular one that is not a receiver's
temporary file. -/
structure Scanned (tree : DirectoryTree) (components : List Bytes)
    (node : Node) : Prop where
  within : Within tree.entries components node
  regular : node.value.kind = .regularFile
  notStaging : isReceiverStagingPath (pathOf components) = false

/-- The columns of the file's row hold what they are given. -/
structure Storable (components : List Bytes) (node : Node) : Prop where
  device : node.value.dev.toNat ≤ int64Max
  inode : node.value.ino.toNat ≤ int64Max
  assetId : (text "path-" ++ hexEncode (pathOf components)).length ≤ intMax
  displayPath : ∀ path : RelativePath, path.bytes = pathOf components →
    path.displayString.length ≤ intMax

/-- The row is the file's: its path and its identity. -/
structure RowFor (components : List Bytes) (node : Node)
    (row : PhysicalAssetRow) : Prop where
  relativePath : row.relativePath = .blob (pathOf components)
  assetId : row.assetId = text "path-" ++ hexEncode (pathOf components)
  kind : row.kind = .integer (Int64.ofNat (classifyKind (pathOf components)
    (extensionOf (pathOf components))).number)
  identity : ∃ identity, node.value.Identifies identity
    ∧ row.device.Holds identity.device ∧ row.inode.Holds identity.inode
    ∧ row.size.Holds identity.size
    ∧ row.mtimeNs = .integer identity.mtimeNs
    ∧ row.ctimeNs = .integer identity.ctimeNs

/-- The manifest is frozen and can be read back, and its rows are the
files of the tree, one row each; no other manifest has changed. -/
structure ScansTree (blake3 : Bytes → Digest) (tree : DirectoryTree)
    (db db' : ManifestDb) (inputPath : Bytes) (frozen : FrozenManifest) :
    Prop where
  source : db'.source? frozen.manifestId = some {
    manifestId := frozen.manifestId
    sourceId := .text inputPath
    sourceType := .text (text "local-folder")
    sourceRoot := .blob inputPath
    state := .integer 1
    manifestDigest := .blob frozen.manifestDigest.bytes }
  reopened : ∀ c : Conn ManifestDb Bytes Unit, c.Quiet → c.committed = db' →
    (reopen blake3 frozen.manifestId c).1 = .ok frozen
  rows : ∃ files : List (List Bytes × Node),
    (files.map Prod.fst).Nodup
      ∧ (∀ components node,
          (components, node) ∈ files ↔ Scanned tree components node)
      ∧ List.Forall₂ (fun file row => RowFor file.1 file.2 row) files
          (db'.assetsOf frozen.manifestId)
  count : frozen.assetCount = (db'.assetsOf frozen.manifestId).length
  others : ∀ manifestId, manifestId ≠ frozen.manifestId →
    db'.source? manifestId = db.source? manifestId
      ∧ db'.assetsOf manifestId = db.assetsOf manifestId

end PhotoBridge
