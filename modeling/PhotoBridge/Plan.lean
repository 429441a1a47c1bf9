/-
Frozen plans as data (`capability.h`, `canonical_plan.cpp`,
`plan_artifact.h`), the task each asset becomes, and the names and
records the migrate and resume commands derive from them
(`pipeline_shared.cpp`, `reconciler.h`, `migration_runtime_store.h`).
-/
import PhotoBridge.Task

namespace PhotoBridge

-- ================================================================ plans

inductive SupportLevel
  | full | reduced | transformed | manifestOnly | unsupported
  | unverifiable
  deriving DecidableEq

inductive CapabilityKind
  | regularFiles | nestedDirectories | byteExactContents
  | atomicNoReplacePublish | durableFileAndDirectorySync | symlinks
  | caseFoldSemantics | unicodeNormalization
  deriving DecidableEq

structure Capability where
  kind : CapabilityKind
  level : SupportLevel
  representation : Bytes
  reason : Bytes
  deriving DecidableEq

structure TargetCapabilities where
  version : Bytes
  entries : List Capability
  deriving DecidableEq

structure MigrationPolicy where
  targetPrefix : Bytes := []
  preserveSourceDirectories : Bool := true
  maxComponentBytes : UInt64 := 255
  maxPathBytes : UInt64 := 4096
  deriving DecidableEq

structure MinimalPlanAsset where
  logicalAssetId : Bytes
  sourceAssetId : Bytes
  sourcePath : RelativePath
  targetPath : RelativePath
  sourceIdentity : FileIdentity
  deriving DecidableEq

/-- A `CanonicalMinimalPlan`: what its accessors return. -/
structure CanonicalMinimalPlan where
  sourceManifestId : Bytes
  sourceManifestDigest : Digest
  targetRoot : Bytes
  capabilities : TargetCapabilities
  policy : MigrationPolicy
  assets : List MinimalPlanAsset
  deriving DecidableEq

/-- `kCanonicalMinimalPlanVersion`. -/
def CanonicalMinimalPlan.formatVersion (_ : CanonicalMinimalPlan) : Nat := 1

/-- An artifact as `ReadFrozenPlan` hands it on. -/
structure FrozenPlanFile where
  planId : Bytes
  bytes : Bytes
  artifactDigest : Digest
  semanticDigest : Digest
  plan : CanonicalMinimalPlan
  deriving DecidableEq

-- ==================================================== tasks and temp names

variable (blake3 : Bytes → Digest)

/-- The specification `TaskSpecForPlanAsset` starts from, before the key
is known. -/
def unkeyedTaskSpec (asset : MinimalPlanAsset) : TaskSpec where
  id := []
  taskKey := []
  type := .migrateFile
  assetId := asset.logicalAssetId
  sourceAssetId := some asset.sourceAssetId
  targetPath := asset.targetPath
  estimatedBytes := asset.sourceIdentity.size
  expectedDigest := none

/-- `TaskSpecForPlanAsset`. -/
def taskSpecForPlanAsset (asset : MinimalPlanAsset) : Except Status TaskSpec := do
  let key ← taskKeyFor blake3 (unkeyedTaskSpec asset)
  pure { unkeyedTaskSpec asset with id := key, taskKey := key }

/-- One field of the payload of `TempNameFor`: its length in decimal, a
colon, the bytes. -/
def tempNameField (value : Bytes) : Bytes :=
  decimal value.length ++ text ":" ++ value

/-- `TempNameFor`. -/
def tempNameFor (planId taskId attemptId : Bytes) : Bytes :=
  text ".photobridge."
    ++ (blake3 (text "photobridge-temp-v1\n" ++ tempNameField planId
        ++ tempNameField taskId ++ tempNameField attemptId)).toHex
    ++ text ".pbtmp"

-- ======================================================= commit records

/-- What the commit protocol of one attempt is about to do. -/
structure CommitIntent where
  taskId : Bytes
  attemptId : Bytes
  ownerEpoch : Nat
  tempPath : Bytes
  finalPath : Bytes
  deriving DecidableEq

/-- The evidence that a temp file was verified and made durable. -/
structure VerifiedReceipt where
  taskId : Bytes
  attemptId : Bytes
  ownerEpoch : Nat
  tempPath : Bytes
  finalPath : Bytes
  contentSize : UInt64
  sourceDigest : Option Digest
  targetDigest : Digest
  sourceIdentity : Option FileIdentity
  deriving DecidableEq

/-- What `ClaimNextReady` hands to a worker. -/
structure ClaimedTask where
  id : Bytes
  runtime : TaskRuntime
  deriving DecidableEq

end PhotoBridge
