/-
Canonical plans (`canonical_plan.cpp`, `capability.cpp`, the policy check
of `path_mapper.cpp`): what a planner hands in, the checks that accept
it, the one order its assets are put in, and the bytes that stand for
the plan in digests.

Sizes go into those bytes as 64-bit values. A `std::size_t` has no more
to it, while a list here can be of any length, so what is about the
bytes speaks of containers whose sizes fit (`FitsSize`).
-/
import PhotoBridge.Lib.Sorting
import PhotoBridge.Plan

namespace PhotoBridge

open Sorting

-- =============================================================== inputs

/-- What `CanonicalMinimalPlan::Build` is given. -/
structure MinimalPlanInput where
  sourceManifestId : Bytes
  sourceManifestDigest : Digest
  targetRoot : Bytes
  capabilities : TargetCapabilities
  policy : MigrationPolicy
  assets : List MinimalPlanAsset
  deriving DecidableEq

/-- `static_cast<int>(kind)`. -/
def CapabilityKind.number : CapabilityKind → Nat
  | .regularFiles => 0
  | .nestedDirectories => 1
  | .byteExactContents => 2
  | .atomicNoReplacePublish => 3
  | .durableFileAndDirectorySync => 4
  | .symlinks => 5
  | .caseFoldSemantics => 6
  | .unicodeNormalization => 7

/-- `static_cast<int>(level)`. -/
def SupportLevel.number : SupportLevel → Nat
  | .full => 0
  | .reduced => 1
  | .transformed => 2
  | .manifestOnly => 3
  | .unsupported => 4
  | .unverifiable => 5

/-- `std::string`'s order. -/
def bytesLess (left right : Bytes) : Bool := decide (left < right)

-- =============================================================== checks

/-- The loop of `TargetCapabilities::Validate`. Its two checks of
numbers out of range cannot fail on enumerations. -/
def checkCapabilities (seen : List Nat) (previous : Option Nat) :
    List Capability → Except Status Unit
  | [] => .ok ()
  | entry :: rest =>
      if seen.contains entry.kind.number then
        .error (.invalid "target capability kinds must be unique")
      else if previous.any (entry.kind.number ≤ ·) then
        .error (.invalid
          "target capability entries must be in canonical order")
      else if entry.representation.isEmpty || entry.reason.isEmpty then
        .error (.invalid
          "target capability representation and reason must not be empty")
      else
        checkCapabilities (entry.kind.number :: seen)
          (some entry.kind.number) rest

/-- `TargetCapabilities::Validate`. -/
def TargetCapabilities.validate (capabilities : TargetCapabilities) :
    Except Status Unit :=
  if capabilities.version.isEmpty then
    .error (.invalid "target capability version must not be empty")
  else if capabilities.entries.isEmpty then
    .error (.invalid "target capabilities must contain at least one entry")
  else checkCapabilities [] none capabilities.entries

/-- `MigrationPolicy::Validate`. -/
def MigrationPolicy.validate (policy : MigrationPolicy) :
    Except Status Unit :=
  if policy.maxComponentBytes == 0 || policy.maxPathBytes == 0 then
    .error (.invalid "target path limits must be greater than zero")
  else if policy.targetPrefix.isEmpty then .ok ()
  else do
    let _ ← RelativePath.parse policy.targetPrefix
    pure ()

/-- The loop of `ValidatePlanInput` over the assets. -/
def checkPlanAssets : List MinimalPlanAsset → Except Status Unit
  | [] => .ok ()
  | asset :: rest =>
      if asset.logicalAssetId.isEmpty || asset.sourceAssetId.isEmpty then
        .error (.invalid "minimal plan asset ids must not be empty")
      else if asset.sourcePath.bytes.isEmpty
          || asset.targetPath.bytes.isEmpty then
        .error (.invalid "minimal plan asset paths must not be empty")
      else checkPlanAssets rest

/-- `ValidatePlanInput`. -/
def validatePlanInput (input : MinimalPlanInput) : Except Status Unit :=
  if input.sourceManifestId.isEmpty then
    .error (.invalid "minimal plan source manifest id must not be empty")
  else if hasNul input.sourceManifestId then
    .error (.invalid "minimal plan source manifest id must not contain NUL")
  else if input.targetRoot.isEmpty then
    .error (.invalid "minimal plan target root must not be empty")
  else if hasNul input.targetRoot then
    .error (.invalid "minimal plan target root must not contain NUL")
  else do
    input.capabilities.validate
    input.policy.validate
    checkPlanAssets input.assets
    if adjacentFind (sortBy bytesLess
        (input.assets.map (·.logicalAssetId))) then
      .error (.invalid "minimal plan logical asset ids must be unique")
    else if adjacentFind (sortBy bytesLess
        (input.assets.map (·.sourceAssetId))) then
      .error (.invalid "minimal plan source asset ids must be unique")
    else .ok ()

-- ================================================================ plans

/-- The comparator of the constructor. -/
def MinimalPlanAsset.before (lhs rhs : MinimalPlanAsset) : Bool :=
  if lhs.logicalAssetId ≠ rhs.logicalAssetId then
    bytesLess lhs.logicalAssetId rhs.logicalAssetId
  else bytesLess lhs.sourceAssetId rhs.sourceAssetId

/-- The constructor of `CanonicalMinimalPlan`. -/
def CanonicalMinimalPlan.ofInput (input : MinimalPlanInput) :
    CanonicalMinimalPlan where
  sourceManifestId := input.sourceManifestId
  sourceManifestDigest := input.sourceManifestDigest
  targetRoot := input.targetRoot
  capabilities := input.capabilities
  policy := input.policy
  assets := sortBy MinimalPlanAsset.before input.assets

/-- `CanonicalMinimalPlan::Build`. -/
def CanonicalMinimalPlan.build (input : MinimalPlanInput) :
    Except Status CanonicalMinimalPlan := do
  validatePlanInput input
  pure (.ofInput input)

-- ============================================================== payload

/-- `AppendBool`. -/
def boolByte (value : Bool) : Bytes := [if value then 1 else 0]

/-- `AppendFileIdentity`. -/
def identityPayload (identity : FileIdentity) : Bytes :=
  uint64Bytes identity.device ++ uint64Bytes identity.inode
    ++ uint64Bytes identity.size
    ++ uint64Bytes identity.mtimeNs.toUInt64
    ++ uint64Bytes identity.ctimeNs.toUInt64
    ++ boolByte identity.mountId.isSome
    ++ match identity.mountId with
      | some mount => uint64Bytes mount
      | none => []

/-- A capability in the payload. -/
def capabilityPayload (capability : Capability) : Bytes :=
  uint64Bytes capability.kind.number.toUInt64
    ++ uint64Bytes capability.level.number.toUInt64
    ++ lengthPrefixed capability.representation
    ++ lengthPrefixed capability.reason

/-- An asset in the payload. -/
def assetPayload (asset : MinimalPlanAsset) : Bytes :=
  lengthPrefixed asset.logicalAssetId ++ lengthPrefixed asset.sourceAssetId
    ++ lengthPrefixed asset.sourcePath.bytes
    ++ lengthPrefixed asset.targetPath.bytes
    ++ identityPayload asset.sourceIdentity

/-- `CanonicalMinimalPlan::CanonicalPlanPayload`. -/
def CanonicalMinimalPlan.canonicalPlanPayload (plan : CanonicalMinimalPlan) :
    Bytes :=
  lengthPrefixed (text "PB_CANONICAL_MINIMAL_PLAN_V1")
    ++ uint64Bytes plan.formatVersion.toUInt64
    ++ lengthPrefixed plan.sourceManifestId
    ++ plan.sourceManifestDigest.bytes
    ++ lengthPrefixed plan.targetRoot
    ++ lengthPrefixed plan.capabilities.version
    ++ lengthPrefixed plan.policy.targetPrefix
    ++ boolByte plan.policy.preserveSourceDirectories
    ++ uint64Bytes plan.policy.maxComponentBytes
    ++ uint64Bytes plan.policy.maxPathBytes
    ++ uint64Bytes plan.capabilities.entries.length.toUInt64
    ++ plan.capabilities.entries.flatMap capabilityPayload
    ++ uint64Bytes plan.assets.length.toUInt64
    ++ plan.assets.flatMap assetPayload

/-- `SemanticDigestFor`. -/
def semanticDigestFor (blake3 : Bytes → Digest)
    (plan : CanonicalMinimalPlan) : Digest :=
  blake3 (text "PB_PLAN_SEMANTIC_V1" ++ plan.canonicalPlanPayload)

-- ============================================================= identity

/-- The container's size is a `std::size_t`. -/
abbrev FitsSize {α : Type} (items : List α) : Prop := items.length < 2 ^ 64

/-- Every container of the asset has a size. -/
structure MinimalPlanAsset.FitsSize (asset : MinimalPlanAsset) : Prop where
  logicalAssetId : PhotoBridge.FitsSize asset.logicalAssetId
  sourceAssetId : PhotoBridge.FitsSize asset.sourceAssetId
  sourcePath : PhotoBridge.FitsSize asset.sourcePath.bytes
  targetPath : PhotoBridge.FitsSize asset.targetPath.bytes

/-- Every container of the input has a size. -/
structure MinimalPlanInput.FitsSize (input : MinimalPlanInput) : Prop where
  sourceManifestId : PhotoBridge.FitsSize input.sourceManifestId
  targetRoot : PhotoBridge.FitsSize input.targetRoot
  version : PhotoBridge.FitsSize input.capabilities.version
  targetPrefix : PhotoBridge.FitsSize input.policy.targetPrefix
  entries : PhotoBridge.FitsSize input.capabilities.entries
  representations : ∀ c ∈ input.capabilities.entries,
    PhotoBridge.FitsSize c.representation ∧ PhotoBridge.FitsSize c.reason
  assets : PhotoBridge.FitsSize input.assets
  asset : ∀ a ∈ input.assets, a.FitsSize

/-- The inputs agree in every field, the assets as sets. -/
structure MinimalPlanInput.Agrees (a b : MinimalPlanInput) : Prop where
  sourceManifestId : a.sourceManifestId = b.sourceManifestId
  sourceManifestDigest : a.sourceManifestDigest = b.sourceManifestDigest
  targetRoot : a.targetRoot = b.targetRoot
  capabilities : a.capabilities = b.capabilities
  policy : a.policy = b.policy
  assets : ∀ asset, asset ∈ a.assets ↔ asset ∈ b.assets

end PhotoBridge
