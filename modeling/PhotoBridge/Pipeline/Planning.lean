/-
The plan command (`plan_service.cpp`): a frozen manifest is read, each of
its files becomes an asset of a plan, and the plan is written to the
workspace.

# The join

The plan's assets are assembled from three lists, the manifest's rows, the
logical assets and the mappings, by looking for equal ids
(`bindPlanAsset`). `planFor` is everything between the reads and the file.

# The plans directory

What the system calls of `WritePlanFile` answer is kept with the
directory: the statuses of the calls to come, and how much the writes to
come move. Paths are the names in the directory. Opening the database and
bringing its schema up to date come before, and are left out.
-/
import PhotoBridge.Plan.Artifact
import PhotoBridge.Plan.Mapping
import PhotoBridge.Posix

namespace PhotoBridge

open JsonText Sorting Transaction

-- ================================================== reading the manifest

/-- `ReadUnsignedInteger`. -/
def readUnsignedInteger (cell : Cell) (fieldName : String) :
    Except Status UInt64 :=
  match cell with
  | .integer value =>
      if value < 0 then
        .error (.internal ("manifest field is negative: " ++ fieldName))
      else .ok value.toUInt64
  | _ => .error (.internal
      ("manifest field is not an integer: " ++ fieldName))

/-- `static_cast<AssetKind>(kind)`, with `none` out of range. -/
def AssetKind.ofInt64 (kind : Int64) : Option AssetKind :=
  if kind < 0 then none
  else [.media, .sidecarJson, .sidecarXmp, .albumMetadata,
    .unknown][kind.toUInt64.toNat]?

/-- One round of the loop of `ReadManifestAssets`. -/
def readManifestAsset (row : PhysicalAssetRow) : Except Status PhysicalAsset :=
  match row.relativePath with
  | .blob path =>
      if path.isEmpty then
        .error (.internal "manifest relative path is empty")
      else do
        let relativePath ← RelativePath.parse path
        let device ← readUnsignedInteger row.device "device"
        let inode ← readUnsignedInteger row.inode "inode"
        let size ← readUnsignedInteger row.size "size"
        match row.mtimeNs, row.ctimeNs, row.kind with
        | .integer mtimeNs, .integer ctimeNs, .integer kind =>
            match AssetKind.ofInt64 kind with
            | some assetKind =>
                pure ⟨relativePath,
                  ⟨device, inode, size, mtimeNs, ctimeNs, none⟩,
                  assetKind, []⟩
            | none => .error (.internal "manifest asset kind is unknown")
        | _, _, _ =>
            .error (.internal
              "manifest identity or kind field is not an integer")
  | _ => .error (.internal "manifest relative path is not a blob")

/-- `ReadManifestAssets`. -/
def readManifestAssets {μ : Type} (manifestId : Bytes) :
    ManifestSession μ (List PhysicalAsset) := do
  let rows ← selectRows "read manifest asset" fun db =>
    sortBy PhysicalAssetRow.byPath (db.assetsOf manifestId)
  checked (rows.mapM readManifestAsset)

-- ============================================================== the plan

/-- One round of the loop that makes the plan's assets. -/
def bindPlanAsset (physicalAssets : List PhysicalAsset)
    (logicalAssets : List LogicalAsset) (mapping : PathMapping) :
    Except Status MinimalPlanAsset :=
  match logicalAssets.find? (·.id == mapping.logicalAssetId) with
  | some ⟨id, [member], some sourcePath⟩ =>
      match physicalAssets.find? (physicalAssetIdFor · == member) with
      | some physical =>
          .ok ⟨id, member, sourcePath, mapping.targetPath, physical.identity⟩
      | none =>
          .error (.internal "logical asset member is missing from manifest")
  | _ =>
      .error (.internal
        "logical asset mapping cannot be bound to one source")

section Planning

variable (codec : Codec) (blake3 : Bytes → Digest)

/-- What `Execute` makes of the manifest it has read: the plan. -/
def planFor (manifest : FrozenManifest) (targetPath : Bytes)
    (physicalAssets : List PhysicalAsset) :
    Except Status CanonicalMinimalPlan := do
  let logicalAssets ← physicalAssets.mapM
    (mapPhysicalAssetToLogicalAsset blake3)
  let _ ← analyzeCapabilityLoss localDirectoryCapabilitiesV1
  let mappings ← mapAll logicalAssets localDirectoryCapabilitiesV1 {}
  let planAssets ← mappings.mapM
    (bindPlanAsset physicalAssets logicalAssets)
  CanonicalMinimalPlan.build ⟨manifest.manifestId, manifest.manifestDigest,
    targetPath, localDirectoryCapabilitiesV1, {}, planAssets⟩

/-- The id `Execute` gives a plan. -/
def planIdFor (plan : CanonicalMinimalPlan) : Bytes :=
  text "plan-" ++ (semanticDigestFor blake3 plan).toHex

/-- `Execute`, up to the artifact. -/
def planArtifact {μ : Type} (inputPath targetPath : Bytes) :
    ManifestSession μ FrozenPlanFile :=
  if targetPath.isEmpty then
    throw (.invalid "plan stage requires a target root")
  else do
    let manifest ← reopen blake3 inputPath
    let physicalAssets ← readManifestAssets manifest.manifestId
    let plan ← checked (planFor blake3 manifest targetPath physicalAssets)
    checked (writeFrozenPlan codec blake3 plan (planIdFor blake3 plan))

-- =================================================== the plans directory

/-- What a name in the plans directory stands for. -/
inductive PlanNode
  | file (bytes : Bytes)
  | directory
  deriving DecidableEq

/-- The plans directory, the failures of the calls to come, and the sizes
of the writes to come. -/
structure PlanDir where
  nodes : Bytes → Option PlanNode
  faults : List (Option Status)
  moves : List Nat

/-- System calls on the plans directory. -/
abbrev PlanFiles (α : Type) := ExceptT Status (StateM PlanDir) α

/-- The next call fails if it is to fail. -/
def systemCall : PlanFiles Unit := fun dir =>
  match dir.faults with
  | [] => (.ok (), dir)
  | none :: rest => (.ok (), { dir with faults := rest })
  | some status :: rest => (.error status, { dir with faults := rest })

/-- What the name stands for. -/
def lookUp (name : Bytes) : PlanFiles (Option PlanNode) := fun dir =>
  (.ok (dir.nodes name), dir)

/-- Let the name stand for something else. -/
def assign (name : Bytes) (node : Option PlanNode) : PlanFiles Unit :=
  fun dir => (.ok (), { dir with nodes := Function.update dir.nodes name node })

/-- How much of `remaining` bytes the next write moves. -/
def nextMove (remaining : Nat) : PlanFiles Nat := fun dir =>
  match dir.moves with
  | [] => (.ok remaining, dir)
  | moved :: rest => (.ok (min moved remaining), { dir with moves := rest })

/-- The cleanup of `WritePlanFile`. -/
def cleanup (tempName : Bytes) : PlanFiles Unit :=
  tryCatch (do systemCall; assign tempName none) fun _ => pure ()

/-- A call after whose failure `WritePlanFile` cleans up. -/
def callOrCleanup (tempName : Bytes) : PlanFiles Unit :=
  tryCatch systemCall fun status => do
    cleanup tempName
    throw status

/-- The write loop of `WritePlanFile`: `written` is in the file,
`remaining` is not. Each round moves a byte at least, or ends the loop,
so as many rounds as there are bytes are enough. -/
def writeRounds (tempName written remaining : Bytes) :
    (rounds : Nat) → PlanFiles Unit
  | 0 => pure ()
  | rounds + 1 =>
      if remaining.isEmpty then pure ()
      else do
        callOrCleanup tempName
        let moved ← nextMove remaining.length
        if moved = 0 then do
          cleanup tempName
          throw (.ioError "plan artifact write made no progress")
        else do
          assign tempName (some (.file (written ++ remaining.take moved)))
          writeRounds tempName (written ++ remaining.take moved)
            (remaining.drop moved) rounds

/-- `RenameNoReplace` in the directory. -/
def renameNoReplace (strerror : Nat → Bytes) (oldName newName : Bytes) :
    PlanFiles Unit := do
  systemCall
  let node ← lookUp oldName
  if (← lookUp newName).isSome then
    throw (statusFromErrno strerror eEXIST "rename without replace")
  else do
    assign newName node
    assign oldName none

/-- `WritePlanFile`. -/
def writePlanFile (strerror : Nat → Bytes) (finalName bytes : Bytes) :
    PlanFiles Unit := do
  systemCall
  match ← lookUp finalName with
  | some .directory =>
      throw ⟨.alreadyExists,
        text "plan artifact path is a directory: " ++ finalName⟩
  | some (.file existing) => do
      systemCall
      if existing = bytes then pure ()
      else throw ⟨.alreadyExists,
        text "plan artifact already exists with different bytes: "
          ++ finalName⟩
  | none => do
      let tempName := text ".pbtmp." ++ finalName
      systemCall
      systemCall
      match ← lookUp tempName with
      | some _ =>
          throw (statusFromErrno strerror eEXIST "create temporary file")
      | none => do
          assign tempName (some (.file []))
          writeRounds tempName [] bytes bytes.length
          callOrCleanup tempName
          renameNoReplace strerror tempName finalName
          systemCall

/-- The file of a plan. -/
def planFileName (planId : Bytes) : Bytes := planId ++ text ".plan.jsonl"

/-- The connection `Execute` opens; `faults` are those of its statements. -/
def openConnection (db : ManifestDb) (faults : List (Option Bytes)) :
    Conn ManifestDb Bytes Unit :=
  ⟨db, none, false, faults, ()⟩

/-- `PlanService::Execute`: the artifact it reports. -/
def executePlan (strerror : Nat → Bytes) (inputPath targetPath : Bytes)
    (conn : Conn ManifestDb Bytes Unit) (dir : PlanDir) :
    Except Status FrozenPlanFile × PlanDir :=
  match (planArtifact codec blake3 inputPath targetPath conn).1 with
  | .error status => (.error status, dir)
  | .ok artifact =>
      match writePlanFile strerror (planFileName artifact.planId)
        artifact.bytes dir with
      | (.ok (), dir') => (.ok artifact, dir')
      | (.error status, dir') => (.error status, dir')

end Planning

-- ====================================================== what it is for

/-- The plan asset is the row's: its path and identity are the row's, its
ids are those of the path, and its target is the mapper's. -/
structure Carries (blake3 : Bytes → Digest) (row : PhysicalAssetRow)
    (asset : MinimalPlanAsset) : Prop where
  sourcePath : row.relativePath = .blob asset.sourcePath.bytes
  sourceAssetId : ∀ physical : PhysicalAsset,
    physical.relativePath = asset.sourcePath →
    asset.sourceAssetId = physicalAssetIdFor physical
  device : row.device.Holds asset.sourceIdentity.device
  inode : row.inode.Holds asset.sourceIdentity.inode
  size : row.size.Holds asset.sourceIdentity.size
  mtimeNs : row.mtimeNs = .integer asset.sourceIdentity.mtimeNs
  ctimeNs : row.ctimeNs = .integer asset.sourceIdentity.ctimeNs
  mountId : asset.sourceIdentity.mountId = none
  logicalAssetId : logicalAssetIdForMembers blake3 [asset.sourceAssetId]
    = .ok asset.logicalAssetId
  targetPath : mapTargetPath
      ⟨asset.logicalAssetId, [asset.sourceAssetId], some asset.sourcePath⟩
      localDirectoryCapabilitiesV1 {}
    = .ok ⟨asset.logicalAssetId, asset.targetPath⟩

/-- The artifact plans the manifest: one asset for each row. -/
structure PlansManifest (blake3 : Bytes → Digest) (db : ManifestDb)
    (manifestId targetRoot : Bytes) (artifact : FrozenPlanFile) : Prop where
  planId : artifact.planId = planIdFor blake3 artifact.plan
  sourceManifestId : artifact.plan.sourceManifestId = manifestId
  targetRoot : artifact.plan.targetRoot = targetRoot
  assets : ∃ rows : List PhysicalAssetRow,
    rows.Perm (db.assetsOf manifestId)
      ∧ List.Forall₂ (Carries blake3) rows artifact.plan.assets
  folded : (artifact.plan.assets.map fun asset =>
    asciiCaseFoldKey asset.targetPath.bytes).Nodup

/-- The tables hold the same manifest, its rows in any order. -/
structure SameManifest (manifestId : Bytes) (db db' : ManifestDb) : Prop where
  source : db'.source? manifestId = db.source? manifestId
  assets : (db'.assetsOf manifestId).Perm (db.assetsOf manifestId)

end PhotoBridge
