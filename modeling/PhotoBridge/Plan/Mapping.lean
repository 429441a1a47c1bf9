/-
From assets to target paths (`logical_asset.cpp`, `capability.cpp`,
`loss_analysis.cpp`, `path_mapper.cpp`): the logical asset each physical
one becomes, what a target can do, and the mapper that gives every
logical asset its place in the target.
-/
import PhotoBridge.Lib.JsonCompact
import PhotoBridge.Manifest.Tables

namespace PhotoBridge

open Sorting

-- ======================================================= logical assets

structure LogicalAsset where
  id : Bytes
  members : List Bytes
  sourcePath : Option RelativePath
  deriving DecidableEq

/-- `CanonicalMembersJson`. `AppendJsonString` escapes as JSON printers
do. -/
def canonicalMembersJson (members : List Bytes) : Bytes :=
  91 :: (((members.map JsonText.printString).intersperse [44]).flatten ++ [93])

/-- `LogicalAssetIdForMembers`. -/
def logicalAssetIdForMembers (blake3 : Bytes → Digest)
    (members : List Bytes) : Except Status Bytes :=
  if members.isEmpty then
    .error (.invalid
      "logical asset must contain at least one physical asset")
  else if members.any List.isEmpty then
    .error (.invalid "logical asset member id must not be empty")
  else if adjacentFind (sortBy bytesLess members) then
    .error (.invalid "logical asset member ids must be unique")
  else
    .ok (text "logical-"
      ++ (blake3 (text "PB_LOGICAL_ASSET_V1"
        ++ canonicalMembersJson (sortBy bytesLess members))).toHex)

/-- `MapPhysicalAssetToLogicalAsset`. -/
def mapPhysicalAssetToLogicalAsset (blake3 : Bytes → Digest)
    (asset : PhysicalAsset) : Except Status LogicalAsset := do
  let id ← logicalAssetIdForMembers blake3 [physicalAssetIdFor asset]
  pure ⟨id, [physicalAssetIdFor asset], some asset.relativePath⟩

-- ========================================================= capabilities

/-- `SupportLevelName`. -/
def SupportLevel.name : SupportLevel → Bytes
  | .full => text "full"
  | .reduced => text "partial"
  | .transformed => text "transformed"
  | .manifestOnly => text "manifest-only"
  | .unsupported => text "unsupported"
  | .unverifiable => text "unverifiable"

/-- `TargetCapabilities::Find`. -/
def TargetCapabilities.find (capabilities : TargetCapabilities)
    (kind : CapabilityKind) : Option Capability :=
  capabilities.entries.find? (·.kind == kind)

/-- `TargetCapabilities::Require`. -/
def TargetCapabilities.requireLevel (capabilities : TargetCapabilities)
    (kind : CapabilityKind) (level : SupportLevel) : Except Status Unit :=
  if (capabilities.find kind).map (·.level) = some level then .ok ()
  else .error ⟨.invalidArgument,
    text "target capability does not provide required "
      ++ decimal kind.number ++ text "=" ++ level.name⟩

/-- `LocalDirectoryCapabilitiesV1`. -/
def localDirectoryCapabilitiesV1 : TargetCapabilities where
  version := text "directory-v1"
  entries := [
    ⟨.regularFiles, .full, text "regular-file",
      text "L0 publishes assets as regular files"⟩,
    ⟨.nestedDirectories, .full, text "hierarchical-directory",
      text "relative target paths may contain nested directories"⟩,
    ⟨.byteExactContents, .full, text "byte-exact",
      text "the target stores copied bytes without media transformation"⟩,
    ⟨.atomicNoReplacePublish, .full,
      text "same-directory-rename-no-replace",
      text "publication uses a temporary file and atomic no-replace rename"⟩,
    ⟨.durableFileAndDirectorySync, .full,
      text "fdatasync-and-directory-fsync",
      text "the commit protocol can request file and directory durability"⟩,
    ⟨.symlinks, .unsupported, text "regular-files-only",
      text "L0 does not create or adopt symlink target semantics"⟩,
    ⟨.caseFoldSemantics, .unverifiable, text "filesystem-dependent",
      text "case folding must be probed or rejected by the path planner"⟩,
    ⟨.unicodeNormalization, .unverifiable, text "filesystem-dependent",
      text "Unicode normalization must not be assumed by the target contract"⟩]

/-- The losses of `AnalyzeCapabilityLoss`. A `CapabilityLoss` has the
fields of the capability that is lost. -/
def analyzeCapabilityLoss (capabilities : TargetCapabilities) :
    Except Status (List Capability) := do
  capabilities.validate
  pure (capabilities.entries.filter (·.level != .full))

-- =============================================================== mapping

structure PathMapping where
  logicalAssetId : Bytes
  targetPath : RelativePath
  deriving DecidableEq

/-- `IsNonAscii`. -/
def isNonAscii (value : Bytes) : Bool := value.any (128 ≤ ·)

/-- `std::tolower` in the C locale. -/
def toLower (byte : UInt8) : UInt8 :=
  if 65 ≤ byte ∧ byte ≤ 90 then byte + 32 else byte

/-- `AsciiCaseFoldKey`. -/
def asciiCaseFoldKey (value : Bytes) : Bytes :=
  value.map fun (byte : UInt8) => if byte < 128 then toLower byte else byte

/-- `BuildTargetPath`. -/
def buildTargetPath (sourcePath : RelativePath) (policy : MigrationPolicy) :
    Except Status RelativePath :=
  RelativePath.parse
    ((if policy.targetPrefix.isEmpty then []
      else policy.targetPrefix ++ text "/")
    ++ (if policy.preserveSourceDirectories then sourcePath.bytes
      else sourcePath.components.getLast?.getD []))

/-- `ValidateTargetPath`. -/
def validateTargetPath (targetPath : RelativePath)
    (policy : MigrationPolicy) : Except Status Unit :=
  if policy.maxPathBytes.toNat < targetPath.bytes.length then
    .error (.invalid "mapped target path exceeds the configured byte limit")
  else if targetPath.components.any
      (policy.maxComponentBytes.toNat < ·.length) then
    .error (.invalid
      "mapped target path component exceeds the configured byte limit")
  else .ok ()

/-- The requirement of `Map` on nested directories. -/
def requireNesting (sourcePath : RelativePath)
    (capabilities : TargetCapabilities) (policy : MigrationPolicy) :
    Except Status Unit :=
  if policy.preserveSourceDirectories
      || decide (1 < sourcePath.components.length)
      || policy.targetPrefix.contains 47 then
    capabilities.requireLevel .nestedDirectories .full
  else .ok ()

/-- `TargetPathMapper::Map`. -/
def mapTargetPath (asset : LogicalAsset) (capabilities : TargetCapabilities)
    (policy : MigrationPolicy) : Except Status PathMapping := do
  policy.validate
  capabilities.validate
  if asset.id.isEmpty || asset.members.isEmpty then
    .error (.invalid "logical asset identity and members must not be empty")
  else match asset.sourcePath with
    | none => .error (.invalid "L0 logical asset is missing its source path")
    | some sourcePath => do
        capabilities.requireLevel .regularFiles .full
        capabilities.requireLevel .byteExactContents .full
        requireNesting sourcePath capabilities policy
        let targetPath ← buildTargetPath sourcePath policy
        validateTargetPath targetPath policy
        if isNonAscii targetPath.bytes
            && (capabilities.find .unicodeNormalization).map (·.level)
              != some .full then
          .error (.invalid
            "Unicode normalization semantics are unverifiable for this target")
        else pure ⟨asset.id, targetPath⟩

/-- The comparator of `MapAll`. -/
def PathMapping.before (lhs rhs : PathMapping) : Bool :=
  bytesLess lhs.logicalAssetId rhs.logicalAssetId

/-- The last loop of `MapAll`; the arguments are the keys of its maps. -/
def checkCollisions (exactPaths foldedPaths : List Bytes) :
    List PathMapping → Except Status Unit
  | [] => .ok ()
  | mapping :: rest =>
      let exactKey := mapping.targetPath.bytes
      let foldedKey := asciiCaseFoldKey exactKey
      if exactPaths.contains exactKey then
        .error ⟨.alreadyExists,
          text "multiple logical assets map to the same target path"⟩
      else if foldedPaths.contains foldedKey then
        .error ⟨.alreadyExists,
          text "multiple logical assets collide under ASCII case folding"⟩
      else
        checkCollisions (exactKey :: exactPaths) (foldedKey :: foldedPaths)
          rest

/-- `TargetPathMapper::MapAll`. -/
def mapAll (assets : List LogicalAsset) (capabilities : TargetCapabilities)
    (policy : MigrationPolicy) : Except Status (List PathMapping) := do
  let mappings ← assets.mapM (mapTargetPath · capabilities policy)
  let sorted := sortBy PathMapping.before mappings
  if adjacentFind (sorted.map (·.logicalAssetId)) then
    .error (.invalid "logical asset ids must be unique in a path mapping")
  else do
    checkCollisions [] [] sorted
    pure sorted

end PhotoBridge
