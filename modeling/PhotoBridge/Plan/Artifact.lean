/-
Frozen plan artifacts (`plan_artifact.cpp`): a plan written as JSON
Lines, one header record, one record per asset, four empty sections and
an end record; and the reader that takes such a file apart again.

# The JSON library

`nlohmann::json` is not part of the repository: it is the argument
`codec`. The reader turns its exceptions into errors. The writer catches
nothing, and neither does any of its callers: an exception it meets is
an error here as well.

# Integers as text

Integers travel as decimal strings. The reader accumulates them in
64 bits and takes a value that got smaller for an overflow.
-/
import PhotoBridge.Lib.Json
import PhotoBridge.Plan.Canonical

namespace PhotoBridge

open JsonText

-- =============================================================== base64

/-- `kBase64Alphabet`. -/
def base64Alphabet : Bytes :=
  text "ABCDEFGHIJKLMNOPQRSTUVWXYZabcdefghijklmnopqrstuvwxyz0123456789+/"

/-- `kBase64Alphabet[index & 0x3F]`. -/
def base64Char (index : UInt32) : UInt8 :=
  base64Alphabet.getD (index &&& 63).toNat 0

/-- The 24 bits of a group. -/
def base64Combine (first second third : UInt8) : UInt32 :=
  first.toUInt32 <<< 16 ||| second.toUInt32 <<< 8 ||| third.toUInt32

/-- `Base64Encode`. -/
def base64Encode : Bytes → Bytes
  | [] => []
  | [a] =>
      let combined := base64Combine a 0 0
      [base64Char (combined >>> 18), base64Char (combined >>> 12), 61, 61]
  | [a, b] =>
      let combined := base64Combine a b 0
      [base64Char (combined >>> 18), base64Char (combined >>> 12),
        base64Char (combined >>> 6), 61]
  | a :: b :: c :: rest =>
      let combined := base64Combine a b c
      base64Char (combined >>> 18) :: base64Char (combined >>> 12)
        :: base64Char (combined >>> 6) :: base64Char combined
        :: base64Encode rest

/-- `Base64Value`, with `none` for -1. -/
def base64Value (value : UInt8) : Option UInt32 :=
  if 65 ≤ value ∧ value ≤ 90 then some (value.toUInt32 - 65)
  else if 97 ≤ value ∧ value ≤ 122 then some (value.toUInt32 - 97 + 26)
  else if 48 ≤ value ∧ value ≤ 57 then some (value.toUInt32 - 48 + 52)
  else if value = 43 then some 62
  else if value = 47 then some 63
  else none

/-- The loop of `Base64Decode`, once the length is a multiple of four. -/
def base64Groups : Bytes → Except Status Bytes
  | a :: b :: c :: d :: rest =>
      let thirdPadding := c == 61
      let fourthPadding := d == 61
      if a == 61 || b == 61 || (thirdPadding && !fourthPadding) then
        .error (.invalid "base64 value has invalid padding")
      else
        match base64Value a, base64Value b,
          (if thirdPadding then some 0 else base64Value c),
          (if fourthPadding then some 0 else base64Value d) with
        | some first, some second, some third, some fourth =>
            if thirdPadding && !rest.isEmpty then
              .error (.invalid "base64 padding must occur only at the end")
            else if fourthPadding && !rest.isEmpty then
              .error (.invalid "base64 padding must occur only at the end")
            else do
              let combined :=
                first <<< 18 ||| second <<< 12 ||| third <<< 6 ||| fourth
              let tail ← base64Groups rest
              pure (((combined >>> 16) &&& 255).toUInt8
                :: (if thirdPadding then []
                  else [((combined >>> 8) &&& 255).toUInt8])
                ++ (if fourthPadding then []
                  else [(combined &&& 255).toUInt8])
                ++ tail)
        | _, _, _, _ =>
            .error (.invalid "base64 value contains an invalid character")
  | _ => .ok []

/-- `Base64Decode`. -/
def base64Decode (value : Bytes) : Except Status Bytes :=
  if value.length % 4 ≠ 0 then
    .error (.invalid "base64 value length must be a multiple of four")
  else base64Groups value

-- ============================================================ hex digests

/-- `HexValue`, with `none` for -1. -/
def hexValue (value : UInt8) : Option UInt8 :=
  if 48 ≤ value ∧ value ≤ 57 then some (value - 48)
  else if 97 ≤ value ∧ value ≤ 102 then some (value - 97 + 10)
  else if 65 ≤ value ∧ value ≤ 70 then some (value - 65 + 10)
  else none

/-- The loop of `Digest::FromHex`. -/
def hexBytes : Bytes → Except Status Bytes
  | high :: low :: rest =>
      match hexValue high, hexValue low with
      | some h, some l => do
          let tail ← hexBytes rest
          pure ((h <<< 4 ||| l) :: tail)
      | _, _ =>
          .error (.invalid "digest hex contains a non-hexadecimal character")
  | _ => .ok []

/-- Every digit pair gives one byte. -/
theorem length_hexBytes {hex bytes : Bytes} (h : hexBytes hex = .ok bytes) :
    bytes.length = hex.length / 2 := by
  induction hex using hexBytes.induct generalizing bytes with
  | case1 high low rest u v hu hv ih =>
      simp only [hexBytes, hu, hv] at h
      cases htail : hexBytes rest with
      | error e =>
          rw [htail] at h
          cases h
      | ok tail =>
          rw [htail] at h
          cases h
          simp only [List.length_cons, ih htail]
          omega
  | case2 high low rest hnot =>
      simp only [hexBytes] at h
      cases h
  | case3 hex hshort =>
      rw [hexBytes] at h
      · cases h
        match hex, hshort with
        | [], _ => rfl
        | [_], _ => simp
        | a :: b :: rest, hno => exact absurd rfl (hno a b rest)
      · exact hshort

/-- `Digest::FromHex`. -/
def Digest.fromHex (hex : Bytes) : Except Status Digest :=
  if hlength : hex.length = 64 then
    match h : hexBytes hex with
    | .ok bytes => .ok ⟨bytes, by rw [length_hexBytes h, hlength]⟩
    | .error e => .error e
  else .error (.invalid "digest hex must contain exactly 64 characters")

-- =============================================================== fields

/-- `RequiredString`. -/
def requiredString (object : Json) (key : String) : Except Status Bytes :=
  match object.find? (text key) with
  | some (.string value) => .ok value
  | _ => .error (.invalid ("plan JSON field must be a string: " ++ key))

/-- The digit loops of `RequiredUint64` and `ParseSigned`, which differ in
their messages. -/
def parseDigits (invalid overflows : Status) (value : UInt64) :
    Bytes → Except Status UInt64
  | [] => .ok value
  | digit :: rest =>
      if digit < 48 ∨ 57 < digit then .error invalid
      else
        let next := value * 10 + (digit - 48).toUInt64
        if next < value then .error overflows
        else parseDigits invalid overflows next rest

/-- `RequiredUint64`. -/
def requiredUint64 (object : Json) (key : String) : Except Status UInt64 := do
  let string ← requiredString object key
  if string.isEmpty then
    .error (.invalid
      ("plan JSON integer string must not be empty: " ++ key))
  else
    parseDigits (.invalid ("plan JSON integer string is invalid: " ++ key))
      (.invalid ("plan JSON integer string overflows: " ++ key)) 0 string

/-- `ParseSigned`. -/
def parseSigned (value : Bytes) : Except Status Int64 :=
  if value.isEmpty then
    .error (.invalid "plan signed integer string must not be empty")
  else
    let negative := value.head? == some 45
    let digits := if negative then value.drop 1 else value
    if digits.isEmpty then
      .error (.invalid "plan signed integer string is invalid")
    else do
      let magnitude ← parseDigits
        (.invalid "plan signed integer string is invalid")
        (.invalid "plan signed integer string overflows") 0 digits
      if (!negative && decide (0x7FFFFFFFFFFFFFFF < magnitude))
          || (negative && decide (0x8000000000000000 < magnitude)) then
        .error (.invalid "plan signed integer string overflows")
      else if negative then
        if magnitude = 0x8000000000000000 then pure Int64.minValue
        else pure (-magnitude.toInt64)
      else pure magnitude.toInt64

/-- `std::to_string` of a signed value. -/
def signedDecimal (value : Int64) : Bytes := text (toString value.toInt)

/-- `CheckRecord`. -/
def checkRecord (object : Json) (record : String) : Except Status Unit :=
  if !object.isObject then
    .error (.invalid "plan JSON line must be an object")
  else do
    let actual ← requiredString object "record"
    if actual ≠ text record then
      .error (.invalid "unexpected plan JSON record type")
    else .ok ()

/-- A member under a key of the source. -/
def member (key : String) (value : Json) : Bytes × Json := (text key, value)

-- =========================================================== identities

/-- `IdentityJson`. -/
def identityJson (identity : FileIdentity) : Json :=
  .ofMembers [
    member "ctime_ns" (.string (signedDecimal identity.ctimeNs)),
    member "device" (.string (decimal identity.device.toNat)),
    member "inode" (.string (decimal identity.inode.toNat)),
    member "mtime_ns" (.string (signedDecimal identity.mtimeNs)),
    member "size" (.string (decimal identity.size.toNat)),
    member "mount_id" (match identity.mountId with
      | some mount => .string (decimal mount.toNat)
      | none => .null)]

/-- `ParseIdentity`. -/
def parseIdentity (object : Json) : Except Status FileIdentity :=
  if !object.isObject then
    .error (.invalid "plan source_identity must be an object")
  else do
    let device ← requiredUint64 object "device"
    let inode ← requiredUint64 object "inode"
    let size ← requiredUint64 object "size"
    let mtime ← requiredString object "mtime_ns"
    let ctime ← requiredString object "ctime_ns"
    let mtimeNs ← parseSigned mtime
    let ctimeNs ← parseSigned ctime
    match object.find? (text "mount_id") with
    | none => .error (.invalid "plan source_identity is missing mount_id")
    | some .null => pure ⟨device, inode, size, mtimeNs, ctimeNs, none⟩
    | some (.string _) => do
        let mount ← requiredUint64 object "mount_id"
        pure ⟨device, inode, size, mtimeNs, ctimeNs, some mount⟩
    | some _ =>
        .error (.invalid "plan mount_id must be a string or null")

-- ========================================================= capabilities

/-- `CapabilityJson`. -/
def capabilityJson (capability : Capability) : Json :=
  .ofMembers [
    member "kind" (.string (decimal capability.kind.number)),
    member "level" (.string (decimal capability.level.number)),
    member "reason" (.string capability.reason),
    member "representation" (.string capability.representation)]

/-- `static_cast<CapabilityKind>(value)`, with `none` out of range. -/
def CapabilityKind.ofNumber (value : UInt64) : Option CapabilityKind :=
  [.regularFiles, .nestedDirectories, .byteExactContents,
    .atomicNoReplacePublish, .durableFileAndDirectorySync, .symlinks,
    .caseFoldSemantics, .unicodeNormalization][value.toNat]?

/-- `static_cast<SupportLevel>(value)`, with `none` out of range. -/
def SupportLevel.ofNumber (value : UInt64) : Option SupportLevel :=
  [.full, .reduced, .transformed, .manifestOnly, .unsupported,
    .unverifiable][value.toNat]?

/-- `ParseCapability`. -/
def parseCapability (object : Json) : Except Status Capability :=
  if !object.isObject then
    .error (.invalid "plan capability must be an object")
  else do
    let kind ← requiredUint64 object "kind"
    let level ← requiredUint64 object "level"
    let representation ← requiredString object "representation"
    let reason ← requiredString object "reason"
    match CapabilityKind.ofNumber kind, SupportLevel.ofNumber level with
    | some k, some l => pure ⟨k, l, representation, reason⟩
    | _, _ =>
        .error (.invalid "plan capability enum value is out of range")

-- ============================================================== records

/-- `kCanonicalPlanSemanticVersion`. -/
def canonicalPlanSemanticVersion : Bytes := text "canonical-plan-semantic-v1"

/-- The policy in the header. -/
def policyJson (policy : MigrationPolicy) : Json :=
  .ofMembers [
    member "max_component_bytes"
      (.string (decimal policy.maxComponentBytes.toNat)),
    member "max_path_bytes" (.string (decimal policy.maxPathBytes.toNat)),
    member "preserve_source_directories"
      (.bool policy.preserveSourceDirectories),
    member "target_prefix_b64" (.string (base64Encode policy.targetPrefix))]

/-- `HeaderJson`. -/
def headerJson (plan : CanonicalMinimalPlan) (planId : Bytes) : Json :=
  .ofMembers [
    member "capabilities"
      (.array (plan.capabilities.entries.map capabilityJson)),
    member "format_version" (.string (decimal plan.formatVersion)),
    member "plan_id" (.string planId),
    member "policy" (policyJson plan.policy),
    member "record" (.string (text "header")),
    member "semantic_version" (.string canonicalPlanSemanticVersion),
    member "capability_version" (.string plan.capabilities.version),
    member "source_manifest_digest"
      (.string plan.sourceManifestDigest.toHex),
    member "source_manifest_id" (.string plan.sourceManifestId),
    member "target_root_b64" (.string (base64Encode plan.targetRoot))]

/-- `AssetJson`. -/
def assetJson (asset : MinimalPlanAsset) : Json :=
  .ofMembers [
    member "logical_asset_id" (.string asset.logicalAssetId),
    member "record" (.string (text "asset")),
    member "source_asset_id" (.string asset.sourceAssetId),
    member "source_identity" (identityJson asset.sourceIdentity),
    member "source_path_b64" (.string (base64Encode asset.sourcePath.bytes)),
    member "target_path_b64"
      (.string (base64Encode asset.targetPath.bytes))]

/-- The record of `SectionLine`. -/
def sectionJson (name : String) : Json :=
  .ofMembers [
    member "record" (.string (text "section")),
    member "section" (.string (text name))]

/-- The last record. -/
def endJson : Json := .ofMembers [member "record" (.string (text "end"))]

/-- `kSections`. -/
def fixedSections : List String := ["outputs", "tasks", "dependencies", "losses"]

/-- The records of an artifact, in file order. -/
def planRecords (plan : CanonicalMinimalPlan) (planId : Bytes) : List Json :=
  headerJson plan planId :: (plan.assets.map assetJson
    ++ (fixedSections.map sectionJson ++ [endJson]))

-- =============================================================== writing

/-- The lines of an artifact, without their line feeds. -/
def planLines (codec : Codec) (plan : CanonicalMinimalPlan)
    (planId : Bytes) : Except Status (List Bytes) :=
  ((planRecords plan planId).mapM codec.dump).mapError
    fun what => ⟨.internal, what⟩

/-- `Serialize`. -/
def serialize (codec : Codec) (plan : CanonicalMinimalPlan)
    (planId : Bytes) : Except Status Bytes := do
  let lines ← planLines codec plan planId
  pure (lines.flatMap (· ++ [10]))

/-- `ArtifactDigestFor`. -/
def artifactDigestFor (blake3 : Bytes → Digest) (bytes : Bytes) : Digest :=
  blake3 bytes

/-- `WriteFrozenPlan`. -/
def writeFrozenPlan (codec : Codec) (blake3 : Bytes → Digest)
    (plan : CanonicalMinimalPlan) (planId : Bytes) :
    Except Status FrozenPlanFile :=
  if planId.isEmpty || hasNul planId then
    .error (.invalid
      "plan id must be non-empty and must not contain NUL")
  else do
    let bytes ← serialize codec plan planId
    pure ⟨planId, bytes, artifactDigestFor blake3 bytes,
      semanticDigestFor blake3 plan, plan⟩

-- =============================================================== reading

/-- `kMaxJsonLineBytes`. -/
def maxJsonLineBytes : Nat := 2 ^ 20

/-- The loop of `Parse` over the lines; `line` is what was read of one. -/
def splitLines (line : Bytes) : Bytes → Except Status (List Bytes)
  | [] => .ok []
  | byte :: rest =>
      if byte ≠ 10 then splitLines (line ++ [byte]) rest
      else if line.isEmpty || decide (maxJsonLineBytes < line.length)
          || line.head? == some 13 || line.getLast? == some 13 then
        .error (.invalid
          "plan JSON Lines contains an empty, oversized, or CRLF line")
      else do
        let lines ← splitLines [] rest
        pure (line :: lines)

/-- The policy of a header. -/
def parsePolicy (policy : Json) : Except Status MigrationPolicy := do
  let targetPrefix ← requiredString policy "target_prefix_b64"
  match policy.find? (text "preserve_source_directories") with
  | some (.bool preserve) => do
      let maxComponent ← requiredUint64 policy "max_component_bytes"
      let maxPath ← requiredUint64 policy "max_path_bytes"
      let decodedPrefix ← base64Decode targetPrefix
      pure ⟨decodedPrefix, preserve, maxComponent, maxPath⟩
  | _ =>
      .error (.invalid "plan preserve_source_directories must be boolean")

/-- The header: the plan id, and the plan without its assets. -/
def parseHeader (header : Json) : Except Status (Bytes × MinimalPlanInput) := do
  checkRecord header "header"
  let planId ← requiredString header "plan_id"
  if (requiredUint64 header "format_version").toOption ≠ some 1 then
    .error (.invalid "unsupported minimal plan format version")
  else do
    let manifestId ← requiredString header "source_manifest_id"
    let manifestDigest ← requiredString header "source_manifest_digest"
    let targetRoot ← requiredString header "target_root_b64"
    if (requiredString header "semantic_version").toOption
        ≠ some canonicalPlanSemanticVersion then
      .error (.invalid "unsupported canonical plan semantic version")
    else if planId.isEmpty then
      .error (.invalid "plan id must not be empty")
    else do
      let decodedRoot ← base64Decode targetRoot
      let digest ← Digest.fromHex manifestDigest
      match header.find? (text "policy"),
        header.find? (text "capabilities") with
      | some (.object members), some (.array items) => do
          let policy ← parsePolicy (.object members)
          let version ← requiredString header "capability_version"
          let entries ← items.mapM parseCapability
          pure (planId, ⟨manifestId, digest, decodedRoot,
            ⟨version, entries⟩, policy, []⟩)
      | some _, some _ =>
          .error (.invalid
            "plan policy or capabilities has the wrong type")
      | _, _ =>
          .error (.invalid "plan header is missing policy or capabilities")

/-- One asset record. -/
def parseAsset (record : Json) : Except Status MinimalPlanAsset :=
  if !record.isObject then
    .error (.invalid "plan asset record must be an object")
  else do
    let logicalId ← requiredString record "logical_asset_id"
    let sourceId ← requiredString record "source_asset_id"
    let sourcePath ← requiredString record "source_path_b64"
    let targetPath ← requiredString record "target_path_b64"
    let decodedSource ← base64Decode sourcePath
    let decodedTarget ← base64Decode targetPath
    let parsedSource ← RelativePath.parse decodedSource
    let parsedTarget ← RelativePath.parse decodedTarget
    match record.find? (text "source_identity") with
    | none => .error (.invalid "plan asset is missing source_identity")
    | some value => do
        let identity ← parseIdentity value
        pure ⟨logicalId, sourceId, parsedSource, parsedTarget, identity⟩

/-- The asset records, and what follows them. -/
def parseAssets : List Json →
    Except Status (List MinimalPlanAsset × List Json)
  | [] => .ok ([], [])
  | record :: rest => do
      let recordType ← requiredString record "record"
      if recordType = text "asset" then do
        let asset ← parseAsset record
        let (assets, after) ← parseAssets rest
        pure (asset :: assets, after)
      else pure ([], record :: rest)

/-- The fixed sections, and what follows them. -/
def parseSections : List String → List Json → Except Status (List Json)
  | [], records => .ok records
  | _ :: _, [] => .error (.invalid "plan is missing a fixed section")
  | name :: names, record :: records => do
      checkRecord record "section"
      let actual ← requiredString record "section"
      if actual ≠ text name then
        .error (.invalid "plan sections are out of order")
      else parseSections names records

/-- The end record, and nothing after it. -/
def parseEnd : List Json → Except Status Unit
  | [record] => checkRecord record "end"
  | _ =>
      .error (.invalid "plan has unexpected records after fixed sections")

/-- `Parse`. -/
def parsePlan (codec : Codec) (bytes : Bytes) :
    Except Status (Bytes × CanonicalMinimalPlan) :=
  if bytes.getLast? ≠ some 10 then
    .error (.invalid "plan JSON Lines artifact must end with LF")
  else do
    let lines ← splitLines [] bytes
    let records ← (lines.mapM codec.parse).mapError fun what =>
      ⟨.invalidArgument, text "plan JSON Lines parse failed: " ++ what⟩
    match records with
    | [] => .error (.invalid "plan JSON Lines artifact has no records")
    | header :: rest => do
        let (planId, input) ← parseHeader header
        let (assets, sections) ← parseAssets rest
        let after ← parseSections fixedSections sections
        parseEnd after
        let plan ← CanonicalMinimalPlan.build { input with assets := assets }
        pure (planId, plan)

/-- `ReadFrozenPlan`. -/
def readFrozenPlan (codec : Codec) (blake3 : Bytes → Digest)
    (bytes : Bytes) : Except Status FrozenPlanFile := do
  let (planId, plan) ← parsePlan codec bytes
  pure ⟨planId, bytes, artifactDigestFor blake3 bytes,
    semanticDigestFor blake3 plan, plan⟩

end PhotoBridge
