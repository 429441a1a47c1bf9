/-
Frozen plan files: what is written is read back, and says as much as the
canonical payload.

# Records

Each record is an object whose members have the source's keys, no two of
them equal (`Json.find?_members`). A reader asks for members by key, so
it gets back what the writer put there, whatever order the library keeps
members in. With the readers of texts (Plan/Proofs/Text.lean) each parser
undoes its printer, from identities up to the header.

# Lines

Records are textual, so the library's lines hold no line feed, and
braces at both ends keep out empty lines and carriage returns
(`splitLines_lines`).

# The plan

The assets come back sorted. Sorting them once more changes nothing, and
the checks do not look at the order (`build_reread`).
-/
import PhotoBridge.Lib.JsonCompact
import PhotoBridge.Plan.Proofs.Canonical
import PhotoBridge.Plan.Proofs.Text

namespace PhotoBridge

open JsonText Sorting

-- ============================================================== members

section Members

variable {members : List (Bytes × Json)} (keys : List String)

/-- Members whose keys are different. -/
private theorem nodup_members (hkeys : members.map (·.1) = keys.map text)
    (hnodup : keys.Nodup) : (members.map (·.1)).Nodup := by
  rw [hkeys]
  exact hnodup.map fun _ _ => text_injective

/-- A record is found under each of its keys. -/
theorem Json.find?_members (hkeys : members.map (·.1) = keys.map text)
    (hnodup : keys.Nodup) {key : String} {value : Json}
    (hmem : member key value ∈ members) :
    (Json.ofMembers members).find? (text key) = some value :=
  Json.find?_ofMembers (nodup_members keys hkeys hnodup) hmem

/-- A record of textual values is textual. -/
theorem Json.textual_members (hkeys : members.map (·.1) = keys.map text)
    (hnodup : keys.Nodup) (hvalues : ∀ m ∈ members, m.2.Textual) :
    (Json.ofMembers members).Textual := by
  refine .ofMembers (nodup_members keys hkeys hnodup) (fun m hm => ?_) hvalues
  have hkey : m.1 ∈ keys.map text := by
    rw [← hkeys]
    exact List.mem_map_of_mem hm
  obtain ⟨key, -, heq⟩ := List.mem_map.1 hkey
  rw [← heq]
  exact isUtf8_text key

end Members

/-- A string that is there is read. -/
theorem requiredString_of_find {object : Json} {key : String} {value : Bytes}
    (h : object.find? (text key) = some (.string value)) :
    requiredString object key = .ok value := by
  rw [requiredString, h]

/-- A count that is there is read. -/
theorem requiredUint64_of_find {object : Json} {key : String}
    {value : UInt64}
    (h : object.find? (text key) = some (.string (decimal value.toNat))) :
    requiredUint64 object key = .ok value := by
  have hnonempty := List.isEmpty_eq_false_iff.2 (decimal_ne_nil value.toNat)
  rw [requiredUint64, requiredString_of_find h, ok_bind, hnonempty]
  exact parseDigits_uint64 value

/-- A record that is there is the one asked for. -/
theorem checkRecord_of_find {members : List (Bytes × Json)} {record : String}
    (h : (Json.ofMembers members).find? (text "record")
      = some (.string (text record))) :
    checkRecord (.ofMembers members) record = .ok () := by
  rw [checkRecord, requiredString_of_find h, ok_bind]
  simp [Json.ofMembers, Json.isObject]

-- =========================================================== identities

def identityKeys : List String :=
  ["ctime_ns", "device", "inode", "mtime_ns", "size", "mount_id"]

/-- An identity is written in text. -/
theorem identityJson_textual (identity : FileIdentity) :
    (identityJson identity).Textual := by
  apply Json.textual_members identityKeys rfl (by decide)
  simp only [List.forall_mem_cons, member]
  refine ⟨.string (isUtf8_text _), .string (isUtf8_text _),
    .string (isUtf8_text _), .string (isUtf8_text _),
    .string (isUtf8_text _), ?_, by simp⟩
  cases identity.mountId with
  | none => exact .null
  | some mount => exact .string (isUtf8_text _)

/-- `ParseIdentity` undoes `IdentityJson`. -/
theorem parseIdentity_identityJson (identity : FileIdentity) :
    parseIdentity (identityJson identity) = .ok identity := by
  have hfind : ∀ {key : String} {value : Json}, member key value ∈ _ →
      (identityJson identity).find? (text key) = some value :=
    Json.find?_members identityKeys rfl (by decide)
  have hdevice : requiredUint64 (identityJson identity) "device"
      = .ok identity.device := requiredUint64_of_find (hfind (by simp))
  have hinode : requiredUint64 (identityJson identity) "inode"
      = .ok identity.inode := requiredUint64_of_find (hfind (by simp))
  have hsize : requiredUint64 (identityJson identity) "size"
      = .ok identity.size := requiredUint64_of_find (hfind (by simp))
  have hmtime : requiredString (identityJson identity) "mtime_ns"
      = .ok (signedDecimal identity.mtimeNs) :=
    requiredString_of_find (hfind (by simp))
  have hctime : requiredString (identityJson identity) "ctime_ns"
      = .ok (signedDecimal identity.ctimeNs) :=
    requiredString_of_find (hfind (by simp))
  have hobject : (identityJson identity).isObject = true := rfl
  unfold parseIdentity
  simp only [hobject, hdevice, hinode, hsize, hmtime, hctime, ok_bind,
    parseSigned_signedDecimal, Bool.not_true, Bool.false_eq_true, if_false]
  cases hmount : identity.mountId with
  | none =>
      have hfound : (identityJson identity).find? (text "mount_id")
          = some .null := by
        apply hfind
        simp [hmount]
      rw [hfound]
      rw [← hmount]
      rfl
  | some mount =>
      have hfound : (identityJson identity).find? (text "mount_id")
          = some (.string (decimal mount.toNat)) := by
        apply hfind
        simp [hmount]
      rw [hfound]
      simp only [requiredUint64_of_find hfound, ok_bind]
      rw [← hmount]
      rfl

-- ========================================================= capabilities

/-- The texts of a capability are UTF-8. -/
def Capability.Textual (capability : Capability) : Prop :=
  IsUtf8 capability.representation ∧ IsUtf8 capability.reason

def capabilityKeys : List String :=
  ["kind", "level", "reason", "representation"]

/-- A capability is written in text. -/
theorem capabilityJson_textual {capability : Capability}
    (h : capability.Textual) : (capabilityJson capability).Textual := by
  apply Json.textual_members capabilityKeys rfl (by decide)
  simp only [List.forall_mem_cons, member]
  exact ⟨.string (isUtf8_text _), .string (isUtf8_text _), .string h.2,
    .string h.1, by simp⟩

/-- A kind is read back from its number. -/
theorem CapabilityKind.ofNumber_number (kind : CapabilityKind) :
    CapabilityKind.ofNumber (UInt64.ofNat kind.number) = some kind := by
  cases kind <;> rfl

/-- A level is read back from its number. -/
theorem SupportLevel.ofNumber_number (level : SupportLevel) :
    SupportLevel.ofNumber (UInt64.ofNat level.number) = some level := by
  cases level <;> rfl

/-- `ParseCapability` undoes `CapabilityJson`. -/
theorem parseCapability_capabilityJson (capability : Capability) :
    parseCapability (capabilityJson capability) = .ok capability := by
  have hfind : ∀ {key : String} {value : Json}, member key value ∈ _ →
      (capabilityJson capability).find? (text key) = some value :=
    Json.find?_members capabilityKeys rfl (by decide)
  have hkindNat : (UInt64.ofNat capability.kind.number).toNat
      = capability.kind.number := by
    cases capability.kind <;> rfl
  have hlevelNat : (UInt64.ofNat capability.level.number).toNat
      = capability.level.number := by
    cases capability.level <;> rfl
  have hkind : requiredUint64 (capabilityJson capability) "kind"
      = .ok (UInt64.ofNat capability.kind.number) := by
    apply requiredUint64_of_find
    rw [hkindNat]
    exact hfind (by simp)
  have hlevel : requiredUint64 (capabilityJson capability) "level"
      = .ok (UInt64.ofNat capability.level.number) := by
    apply requiredUint64_of_find
    rw [hlevelNat]
    exact hfind (by simp)
  have hrepresentation :
      requiredString (capabilityJson capability) "representation"
        = .ok capability.representation :=
    requiredString_of_find (hfind (by simp))
  have hreason : requiredString (capabilityJson capability) "reason"
      = .ok capability.reason := requiredString_of_find (hfind (by simp))
  have hobject : (capabilityJson capability).isObject = true := rfl
  unfold parseCapability
  simp only [hobject, hkind, hlevel, hrepresentation, hreason, ok_bind,
    Bool.not_true, Bool.false_eq_true, if_false,
    CapabilityKind.ofNumber_number, SupportLevel.ofNumber_number]
  rfl

/-- Capabilities are read back. -/
theorem mapM_parseCapability (entries : List Capability) :
    (entries.map capabilityJson).mapM parseCapability = .ok entries := by
  induction entries with
  | nil => rfl
  | cons capability rest ih =>
      rw [List.map_cons, List.mapM_cons, parseCapability_capabilityJson,
        ok_bind, ih, ok_bind]
      rfl

-- =============================================================== headers

/-- The texts of a plan that are written as they are. -/
structure CanonicalMinimalPlan.Textual (plan : CanonicalMinimalPlan) :
    Prop where
  sourceManifestId : IsUtf8 plan.sourceManifestId
  version : IsUtf8 plan.capabilities.version
  entries : ∀ capability ∈ plan.capabilities.entries, capability.Textual
  assets : ∀ asset ∈ plan.assets,
    IsUtf8 asset.logicalAssetId ∧ IsUtf8 asset.sourceAssetId

def policyKeys : List String :=
  ["max_component_bytes", "max_path_bytes", "preserve_source_directories",
    "target_prefix_b64"]

/-- Base64 is text. -/
private theorem base64Json_textual (value : Bytes) :
    (Json.string (base64Encode value)).Textual :=
  .string (isUtf8_of_ascii (base64Encode_ascii value))

/-- A policy is written in text. -/
theorem policyJson_textual (policy : MigrationPolicy) :
    (policyJson policy).Textual := by
  apply Json.textual_members policyKeys rfl (by decide)
  simp only [List.forall_mem_cons, member]
  exact ⟨.string (isUtf8_text _), .string (isUtf8_text _), .bool _,
    base64Json_textual _, by simp⟩

/-- A policy is read back. -/
theorem parsePolicy_policyJson (policy : MigrationPolicy) :
    parsePolicy (policyJson policy) = .ok policy := by
  have hfind : ∀ {key : String} {value : Json}, member key value ∈ _ →
      (policyJson policy).find? (text key) = some value :=
    Json.find?_members policyKeys rfl (by decide)
  have hcomponent : requiredUint64 (policyJson policy) "max_component_bytes"
      = .ok policy.maxComponentBytes := requiredUint64_of_find (hfind (by simp))
  have hpath : requiredUint64 (policyJson policy) "max_path_bytes"
      = .ok policy.maxPathBytes := requiredUint64_of_find (hfind (by simp))
  have htarget : requiredString (policyJson policy) "target_prefix_b64"
      = .ok (base64Encode policy.targetPrefix) :=
    requiredString_of_find (hfind (by simp))
  have hpreserve : (policyJson policy).find?
      (text "preserve_source_directories")
        = some (.bool policy.preserveSourceDirectories) := hfind (by simp)
  unfold parsePolicy
  simp only [hcomponent, hpath, htarget, hpreserve, ok_bind,
    base64Decode_base64Encode]
  rfl

def headerKeys : List String :=
  ["capabilities", "format_version", "plan_id", "policy", "record",
    "semantic_version", "capability_version", "source_manifest_digest",
    "source_manifest_id", "target_root_b64"]

variable {plan : CanonicalMinimalPlan} {planId : Bytes}

/-- A header is written in text. -/
theorem headerJson_textual (h : plan.Textual) (hid : IsUtf8 planId) :
    (headerJson plan planId).Textual := by
  have hdigest : IsUtf8 plan.sourceManifestDigest.toHex :=
    isUtf8_of_ascii (hexEncode_ascii _)
  have hentries : (Json.array
      (plan.capabilities.entries.map capabilityJson)).Textual := by
    refine .array fun item hitem => ?_
    obtain ⟨capability, hmem, rfl⟩ := List.mem_map.1 hitem
    exact capabilityJson_textual (h.entries capability hmem)
  apply Json.textual_members headerKeys rfl (by decide)
  simp only [List.forall_mem_cons, member]
  exact ⟨hentries, .string (isUtf8_text _), .string hid,
    policyJson_textual _, .string (isUtf8_text _), .string (isUtf8_text _),
    .string h.version, .string hdigest, .string h.sourceManifestId,
    base64Json_textual _, by simp⟩

/-- The plan without its assets. -/
def CanonicalMinimalPlan.head (plan : CanonicalMinimalPlan) :
    MinimalPlanInput :=
  ⟨plan.sourceManifestId, plan.sourceManifestDigest, plan.targetRoot,
    plan.capabilities, plan.policy, []⟩

/-- A header is read back. -/
theorem parseHeader_headerJson (hid : planId.isEmpty = false) :
    parseHeader (headerJson plan planId) = .ok (planId, plan.head) := by
  have hfind : ∀ {key : String} {value : Json}, member key value ∈ _ →
      (headerJson plan planId).find? (text key) = some value :=
    Json.find?_members headerKeys rfl (by decide)
  have hrecord : checkRecord (headerJson plan planId) "header" = .ok () :=
    checkRecord_of_find (hfind (by simp))
  have hplanId : requiredString (headerJson plan planId) "plan_id"
      = .ok planId := requiredString_of_find (hfind (by simp))
  have hformat : requiredUint64 (headerJson plan planId) "format_version"
      = .ok 1 := requiredUint64_of_find (hfind (by simp [CanonicalMinimalPlan.formatVersion]))
  have hmanifest : requiredString (headerJson plan planId)
      "source_manifest_id" = .ok plan.sourceManifestId :=
    requiredString_of_find (hfind (by simp))
  have hdigest : requiredString (headerJson plan planId)
      "source_manifest_digest" = .ok plan.sourceManifestDigest.toHex :=
    requiredString_of_find (hfind (by simp))
  have hroot : requiredString (headerJson plan planId) "target_root_b64"
      = .ok (base64Encode plan.targetRoot) :=
    requiredString_of_find (hfind (by simp))
  have hsemantic : requiredString (headerJson plan planId)
      "semantic_version" = .ok canonicalPlanSemanticVersion :=
    requiredString_of_find (hfind (by simp))
  have hversion : requiredString (headerJson plan planId)
      "capability_version" = .ok plan.capabilities.version :=
    requiredString_of_find (hfind (by simp))
  have hpolicy : (headerJson plan planId).find? (text "policy")
      = some (policyJson plan.policy) := hfind (by simp)
  have hentries : (headerJson plan planId).find? (text "capabilities")
      = some (.array (plan.capabilities.entries.map capabilityJson)) :=
    hfind (by simp)
  have hpolicyRead := parsePolicy_policyJson plan.policy
  unfold parseHeader
  simp only [hrecord, hplanId, hformat, hmanifest, hdigest, hroot, hsemantic,
    ok_bind, Except.toOption, ne_eq, not_true_eq_false, if_false, hid,
    Bool.false_eq_true, base64Decode_base64Encode, fromHex_toHex, hpolicy,
    hentries]
  show (parsePolicy (policyJson plan.policy) >>= fun policy => _) = _
  rw [hpolicyRead, ok_bind, hversion, ok_bind, mapM_parseCapability, ok_bind]
  rfl

-- ================================================================ assets

def assetKeys : List String :=
  ["logical_asset_id", "record", "source_asset_id", "source_identity",
    "source_path_b64", "target_path_b64"]

/-- An asset is written in text. -/
theorem assetJson_textual {asset : MinimalPlanAsset}
    (h : IsUtf8 asset.logicalAssetId ∧ IsUtf8 asset.sourceAssetId) :
    (assetJson asset).Textual := by
  apply Json.textual_members assetKeys rfl (by decide)
  simp only [List.forall_mem_cons, member]
  exact ⟨.string h.1, .string (isUtf8_text _), .string h.2,
    identityJson_textual _, base64Json_textual _, base64Json_textual _,
    by simp⟩

/-- The path of an asset is read back. -/
theorem parse_relativePath (path : RelativePath) :
    RelativePath.parse path.bytes = .ok path := by
  unfold RelativePath.parse
  split
  · next components h =>
      apply congrArg Except.ok
      exact RelativePath.eq_of_bytes rfl
  · next e h =>
      rw [path.parsed] at h
      cases h

/-- An asset record says that it is one, and is read back. -/
theorem parseAsset_assetJson (asset : MinimalPlanAsset) :
    requiredString (assetJson asset) "record" = .ok (text "asset")
      ∧ parseAsset (assetJson asset) = .ok asset := by
  have hfind : ∀ {key : String} {value : Json}, member key value ∈ _ →
      (assetJson asset).find? (text key) = some value :=
    Json.find?_members assetKeys rfl (by decide)
  have hlogical : requiredString (assetJson asset) "logical_asset_id"
      = .ok asset.logicalAssetId := requiredString_of_find (hfind (by simp))
  have hsourceId : requiredString (assetJson asset) "source_asset_id"
      = .ok asset.sourceAssetId := requiredString_of_find (hfind (by simp))
  have hsource : requiredString (assetJson asset) "source_path_b64"
      = .ok (base64Encode asset.sourcePath.bytes) :=
    requiredString_of_find (hfind (by simp))
  have htarget : requiredString (assetJson asset) "target_path_b64"
      = .ok (base64Encode asset.targetPath.bytes) :=
    requiredString_of_find (hfind (by simp))
  have hidentity : (assetJson asset).find? (text "source_identity")
      = some (identityJson asset.sourceIdentity) := hfind (by simp)
  have hobject : (assetJson asset).isObject = true := rfl
  refine ⟨requiredString_of_find (hfind (by simp)), ?_⟩
  unfold parseAsset
  simp only [hobject, hlogical, hsourceId, hsource, htarget, hidentity,
    ok_bind, base64Decode_base64Encode, parse_relativePath,
    parseIdentity_identityJson, Bool.not_true, Bool.false_eq_true, if_false]
  rfl

/-- The assets are read up to the first record of another kind. -/
theorem parseAssets_assetJson (assets : List MinimalPlanAsset)
    {record : Json} {kind : Bytes} (rest : List Json)
    (hrecord : requiredString record "record" = .ok kind)
    (hkind : kind ≠ text "asset") :
    parseAssets (assets.map assetJson ++ record :: rest)
      = .ok (assets, record :: rest) := by
  induction assets with
  | nil =>
      show parseAssets (record :: rest) = _
      unfold parseAssets
      rw [hrecord, ok_bind, if_neg hkind]
      rfl
  | cons asset tail ih =>
      obtain ⟨hasset, hparsed⟩ := parseAsset_assetJson asset
      show parseAssets (assetJson asset
        :: (tail.map assetJson ++ record :: rest)) = _
      unfold parseAssets
      rw [hasset, ok_bind, if_pos rfl, hparsed, ok_bind, ih, ok_bind]
      rfl

-- ============================================================== sections

def sectionKeys : List String := ["record", "section"]

/-- A section is written in text. -/
theorem sectionJson_textual (name : String) : (sectionJson name).Textual := by
  apply Json.textual_members sectionKeys rfl (by decide)
  simp only [List.forall_mem_cons, member]
  exact ⟨.string (isUtf8_text _), .string (isUtf8_text _), by simp⟩

/-- A section says that it is one. -/
private theorem sectionJson_record (name : String) :
    requiredString (sectionJson name) "record" = .ok (text "section") := by
  apply requiredString_of_find
  exact Json.find?_members sectionKeys rfl (by decide) (by simp)

/-- The sections are read back, in their order. -/
theorem parseSections_sectionJson (names : List String) (rest : List Json) :
    parseSections names (names.map sectionJson ++ rest) = .ok rest := by
  induction names with
  | nil => rfl
  | cons name tail ih =>
      have hfind : ∀ {key : String} {value : Json}, member key value ∈ _ →
          (sectionJson name).find? (text key) = some value :=
        Json.find?_members sectionKeys rfl (by decide)
      have hrecord : checkRecord (sectionJson name) "section" = .ok () :=
        checkRecord_of_find (hfind (by simp))
      have hname : requiredString (sectionJson name) "section"
          = .ok (text name) := requiredString_of_find (hfind (by simp))
      show parseSections (name :: tail)
        (sectionJson name :: (tail.map sectionJson ++ rest)) = _
      unfold parseSections
      rw [hrecord, ok_bind, hname, ok_bind, if_neg (not_not.2 rfl)]
      exact ih

/-- The end is written in text. -/
private theorem endJson_textual : endJson.Textual := by
  apply Json.textual_members ["record"] rfl (by decide)
  simp only [List.forall_mem_cons, member]
  exact ⟨.string (isUtf8_text _), by simp⟩

/-- The end is read back. -/
private theorem parseEnd_endJson : parseEnd [endJson] = .ok () := by
  apply checkRecord_of_find
  exact Json.find?_members ["record"] rfl (by decide) (by simp)

-- ================================================================= lines

/-- What is before a line break is one line. -/
theorem splitLines_append {line xs rest : Bytes} (h : 10 ∉ xs) :
    splitLines line (xs ++ rest) = splitLines (line ++ xs) rest := by
  induction xs generalizing line with
  | nil => simp
  | cons byte tail ih =>
      have hbyte : byte ≠ 10 := fun heq => h (by simp [heq])
      have htail : 10 ∉ tail := fun hmem => h (by simp [hmem])
      rw [List.cons_append, splitLines, if_pos hbyte, ih htail]
      rw [List.append_assoc, List.singleton_append]

/-- What a line of an artifact is like. -/
structure IsPlanLine (line : Bytes) : Prop where
  oneLine : 10 ∉ line
  head : line.head? = some 123
  last : line.getLast? = some 125
  size : line.length ≤ maxJsonLineBytes

/-- The file falls apart into the lines it was put together from. -/
theorem splitLines_lines {lines : List Bytes}
    (h : ∀ line ∈ lines, IsPlanLine line) :
    splitLines [] (lines.flatMap (· ++ [10])) = .ok lines := by
  induction lines with
  | nil => rfl
  | cons line rest ih =>
      have hline := h line List.mem_cons_self
      have hrest := ih fun l hl => h l (List.mem_cons_of_mem _ hl)
      have hnonempty : line.isEmpty = false := by
        cases line with
        | nil => cases hline.head
        | cons byte tail => rfl
      have hsize : ¬maxJsonLineBytes < line.length :=
        Nat.not_lt.2 hline.size
      rw [List.flatMap_cons, List.append_assoc, splitLines_append hline.oneLine]
      show splitLines ([] ++ line) (10 :: rest.flatMap (· ++ [10])) = _
      rw [List.nil_append, splitLines, if_neg (not_not.2 rfl)]
      simp only [hnonempty, hsize, hline.head, hline.last, decide_false]
      rw [if_neg (by decide), hrest]
      rfl

/-- A file of lines ends with a line break. -/
theorem getLast_lines {lines : List Bytes} (h : lines ≠ []) :
    (lines.flatMap (· ++ [10])).getLast? = some 10 := by
  induction lines with
  | nil => exact absurd rfl h
  | cons line rest ih =>
      rw [List.flatMap_cons]
      by_cases hrest : rest = []
      · rw [hrest]
        simp
      · have hlast := ih hrest
        rw [List.getLast?_append, hlast]
        rfl

-- =============================================================== records

/-- All of the records are written in text. -/
theorem planRecords_textual (h : plan.Textual) (hid : IsUtf8 planId) :
    ∀ record ∈ planRecords plan planId, record.Textual := by
  intro record hrecord
  rcases List.mem_cons.1 hrecord with rfl | hrecord
  · exact headerJson_textual h hid
  · rcases List.mem_append.1 hrecord with hasset | hrecord
    · obtain ⟨asset, hmem, rfl⟩ := List.mem_map.1 hasset
      exact assetJson_textual (h.assets asset hmem)
    · rcases List.mem_append.1 hrecord with hsection | hend
      · obtain ⟨name, -, rfl⟩ := List.mem_map.1 hsection
        exact sectionJson_textual name
      · rw [List.mem_singleton.1 hend]
        exact endJson_textual

/-- All of the records are objects. -/
theorem planRecords_object :
    ∀ record ∈ planRecords plan planId,
      ∃ members, record = .object members := by
  intro record hrecord
  rcases List.mem_cons.1 hrecord with rfl | hrecord
  · exact ⟨_, rfl⟩
  · rcases List.mem_append.1 hrecord with hasset | hrecord
    · obtain ⟨asset, -, rfl⟩ := List.mem_map.1 hasset
      exact ⟨_, rfl⟩
    · rcases List.mem_append.1 hrecord with hsection | hend
      · obtain ⟨name, -, rfl⟩ := List.mem_map.1 hsection
        exact ⟨_, rfl⟩
      · rw [List.mem_singleton.1 hend]
        exact ⟨_, rfl⟩

section Library

variable {codec : Codec} (hcodec : codec.Lawful)
include hcodec

/-- Textual records are written, each on a line the library reads back. -/
theorem dump_records {records : List Json}
    (htextual : ∀ record ∈ records, record.Textual) :
    ∃ lines, records.mapM codec.dump = .ok lines
      ∧ lines.mapM codec.parse = .ok records
      ∧ ∀ line ∈ lines, ∃ record ∈ records, codec.dump record = .ok line := by
  induction records with
  | nil => exact ⟨[], rfl, rfl, by simp⟩
  | cons record rest ih =>
      obtain ⟨line, hdump, hparse⟩ :=
        hcodec.round record (htextual record List.mem_cons_self)
      obtain ⟨lines, hdumps, hparses, hfrom⟩ :=
        ih fun r hr => htextual r (List.mem_cons_of_mem _ hr)
      refine ⟨line :: lines, ?_, ?_, ?_⟩
      · rw [List.mapM_cons, hdump]
        show (rest.mapM codec.dump >>= fun lines => pure (line :: lines)) = _
        rw [hdumps]
        rfl
      · rw [List.mapM_cons, hparse]
        show (lines.mapM codec.parse >>= fun records =>
          pure (record :: records)) = _
        rw [hparses]
        rfl
      · intro l hl
        rcases List.mem_cons.1 hl with rfl | hl
        · exact ⟨record, List.mem_cons_self, hdump⟩
        · obtain ⟨r, hr, hdumped⟩ := hfrom l hl
          exact ⟨r, List.mem_cons_of_mem _ hr, hdumped⟩

/-- The lines of a plan hold its records. -/
theorem planLines_spec (h : plan.Textual) (hid : IsUtf8 planId) :
    ∃ lines, planLines codec plan planId = .ok lines
      ∧ lines.mapM codec.parse = .ok (planRecords plan planId)
      ∧ ∀ line ∈ lines, 10 ∉ line ∧ line.head? = some 123
          ∧ line.getLast? = some 125 := by
  have htextual := planRecords_textual h hid
  obtain ⟨lines, hdumps, hparses, hfrom⟩ := dump_records hcodec htextual
  refine ⟨lines, ?_, hparses, fun line hline => ?_⟩
  · rw [planLines, hdumps]
    rfl
  · obtain ⟨record, hrecord, hdump⟩ := hfrom line hline
    have honeLine := hcodec.oneLine record line (htextual record hrecord) hdump
    obtain ⟨members, rfl⟩ := planRecords_object record hrecord
    have hbraces := hcodec.braces members line hdump
    exact ⟨honeLine, hbraces.1, hbraces.2⟩

end Library

-- ============================================================== the plan

/-- The plan's own fields and assets build the plan again. -/
theorem build_reread {input : MinimalPlanInput}
    (hbuild : CanonicalMinimalPlan.build input = .ok plan) :
    CanonicalMinimalPlan.build { plan.head with assets := plan.assets }
      = .ok plan := by
  obtain ⟨haccepted, rfl⟩ := build_ok.1 hbuild
  have hperm := perm_sortBy MinimalPlanAsset.before input.assets
  rw [build_ok]
  constructor
  · refine ⟨haccepted.sourceManifestId, haccepted.targetRoot,
      haccepted.capabilities, haccepted.policy, fun asset hasset => ?_, ?_, ?_⟩
    · exact haccepted.assets asset (mem_sortBy.1 hasset)
    · exact (hperm.map _).nodup_iff.2 haccepted.logicalIds
    · exact (hperm.map _).nodup_iff.2 haccepted.sourceIds
  · have hsorted := sortBy_of_pairwise
      (pairwise_sortBy MinimalPlanAsset.before_comparator input.assets)
    show CanonicalMinimalPlan.mk _ _ _ _ _ (sortBy _ input.assets)
      = CanonicalMinimalPlan.mk _ _ _ _ _ (sortBy _ (sortBy _ input.assets))
    rw [hsorted]
    rfl

/-- The records of a plan are taken apart as they were put together. -/
theorem parse_planRecords {codec : Codec} {input : MinimalPlanInput}
    {lines : List Bytes}
    (hbuild : CanonicalMinimalPlan.build input = .ok plan)
    (hid : planId.isEmpty = false)
    (hlines : ∀ line ∈ lines, IsPlanLine line)
    (hparse : lines.mapM codec.parse = .ok (planRecords plan planId)) :
    parsePlan codec (lines.flatMap (· ++ [10])) = .ok (planId, plan) := by
  have hnonempty : lines ≠ [] := by
    intro hnil
    rw [hnil] at hparse
    cases hparse
  have hassets := parseAssets_assetJson plan.assets
    (["tasks", "dependencies", "losses"].map sectionJson ++ [endJson])
    (sectionJson_record "outputs") (by decide +kernel)
  have hsections := parseSections_sectionJson fixedSections [endJson]
  unfold parsePlan
  rw [getLast_lines hnonempty, if_neg (not_not.2 rfl),
    splitLines_lines hlines, ok_bind, hparse]
  show (parseHeader (headerJson plan planId) >>= fun _ => _) = _
  rw [parseHeader_headerJson hid, ok_bind]
  show (parseAssets (plan.assets.map assetJson ++ sectionJson "outputs"
    :: (["tasks", "dependencies", "losses"].map sectionJson ++ [endJson]))
    >>= fun _ => _) = _
  rw [hassets, ok_bind]
  show (parseSections fixedSections (fixedSections.map sectionJson
    ++ [endJson]) >>= fun _ => _) = _
  rw [hsections, ok_bind, parseEnd_endJson, ok_bind, build_reread hbuild,
    ok_bind]
  rfl

/-- A file made of these lines is read back. -/
theorem readFrozenPlan_lines (codec : Codec) (blake3 : Bytes → Digest)
    {input : MinimalPlanInput} {lines : List Bytes}
    (hbuild : CanonicalMinimalPlan.build input = .ok plan)
    (hid : planId.isEmpty = false)
    (hlines : ∀ line ∈ lines, IsPlanLine line)
    (hparse : lines.mapM codec.parse = .ok (planRecords plan planId)) :
    readFrozenPlan codec blake3 (lines.flatMap (· ++ [10]))
      = .ok ⟨planId, lines.flatMap (· ++ [10]),
        artifactDigestFor blake3 (lines.flatMap (· ++ [10])),
        semanticDigestFor blake3 plan, plan⟩ := by
  unfold readFrozenPlan
  rw [parse_planRecords hbuild hid hlines hparse, ok_bind]
  rfl

/-- What is written of an accepted plan is read back. -/
theorem frozenPlan_roundTrip (codec : Codec) (hcodec : codec.Lawful)
    (blake3 : Bytes → Digest) {input : MinimalPlanInput}
    {plan : CanonicalMinimalPlan} {planId : Bytes}
    (hbuild : CanonicalMinimalPlan.build input = .ok plan)
    (hid : planId ≠ [] ∧ hasNul planId = false)
    (htext : plan.Textual ∧ IsUtf8 planId)
    (hsize : ∀ lines, planLines codec plan planId = .ok lines →
      ∀ line ∈ lines, line.length ≤ maxJsonLineBytes) :
    ∃ file, writeFrozenPlan codec blake3 plan planId = .ok file
      ∧ file.planId = planId ∧ file.plan = plan
      ∧ readFrozenPlan codec blake3 file.bytes = .ok file := by
  obtain ⟨lines, hlines, hparse, hshape⟩ :=
    planLines_spec hcodec htext.1 htext.2
  have hnonempty := List.isEmpty_eq_false_iff.2 hid.1
  have hplanLines : ∀ line ∈ lines, IsPlanLine line := fun line hline =>
    ⟨(hshape line hline).1, (hshape line hline).2.1,
      (hshape line hline).2.2, hsize lines hlines line hline⟩
  refine ⟨⟨planId, lines.flatMap (· ++ [10]),
    artifactDigestFor blake3 (lines.flatMap (· ++ [10])),
    semanticDigestFor blake3 plan, plan⟩, ?_, rfl, rfl,
    readFrozenPlan_lines codec blake3 hbuild hnonempty hplanLines hparse⟩
  unfold writeFrozenPlan serialize
  simp only [hnonempty, hid.2, Bool.false_or, Bool.false_eq_true, if_false,
    hlines, ok_bind]
  rfl

-- ================================================================ albums

/-- A photo at the top of an album, modified before the epoch. -/
def albumAsset (id : String) (path : RelativePath) : MinimalPlanAsset where
  logicalAssetId := text id
  sourceAssetId := text id
  sourcePath := path
  targetPath := path
  sourceIdentity := ⟨1, 2, 3, -4, 5, some 6⟩

/-- An album with these photos. -/
def albumOf (assets : List MinimalPlanAsset) : MinimalPlanInput where
  sourceManifestId := text "manifest"
  sourceManifestDigest := .zero
  targetRoot := text "/target"
  capabilities :=
    ⟨text "v1", [⟨.regularFiles, .full, text "file", text "plain"⟩]⟩
  policy := {}
  assets := assets

def beach : MinimalPlanAsset := albumAsset "b" ⟨[98], [[98]], by rfl⟩

def attic : MinimalPlanAsset := albumAsset "a" ⟨[97], [[97]], by rfl⟩

/-- The album is accepted in either order. -/
theorem album_accepted :
    validatePlanInput (albumOf [beach, attic]) = .ok ()
      ∧ validatePlanInput (albumOf [attic, beach]) = .ok () := by
  constructor
  · rfl
  · rfl

/-- The album is written in text. -/
theorem album_textual :
    (CanonicalMinimalPlan.ofInput (albumOf [beach, attic])).Textual := by
  refine ⟨isUtf8_text _, isUtf8_text _, ?_, ?_⟩
  · intro capability hcapability
    rw [List.mem_singleton.1 hcapability]
    exact ⟨isUtf8_text _, isUtf8_text _⟩
  · intro asset hasset
    rcases List.mem_cons.1 (mem_sortBy.1 hasset) with rfl | hasset
    · exact ⟨isUtf8_text _, isUtf8_text _⟩
    · rw [List.mem_singleton.1 hasset]
      exact ⟨isUtf8_text _, isUtf8_text _⟩

/-- The album's file is read back. -/
theorem frozenPlan_roundTrip_album :
    ∃ file, writeFrozenPlan compact (fun _ => .zero)
        (.ofInput (albumOf [beach, attic])) (text "plan") = .ok file
      ∧ file.planId = text "plan"
      ∧ file.plan = .ofInput (albumOf [beach, attic])
      ∧ readFrozenPlan compact (fun _ => .zero) file.bytes = .ok file := by
  have hsize : (match planLines compact
      (.ofInput (albumOf [beach, attic])) (text "plan") with
    | .ok lines => lines.all (·.length ≤ maxJsonLineBytes)
    | .error _ => true) = true := by decide +kernel
  refine frozenPlan_roundTrip compact compact_lawful (fun _ => .zero)
    (build_ok.2 ⟨validatePlanInput_ok.1 album_accepted.1, rfl⟩)
    (by decide +kernel) ⟨album_textual, isUtf8_text _⟩ ?_
  intro lines hlines line hline
  rw [hlines] at hsize
  exact of_decide_eq_true (List.all_eq_true.1 hsize line hline)

-- ============================================================= identity

/-- Two accepted inputs have one payload exactly if they agree up to the
order of their assets; one plan id then gives one file. -/
theorem canonicalPlan_identity (codec : Codec) (blake3 : Bytes → Digest)
    {a b : MinimalPlanInput} {p q : CanonicalMinimalPlan}
    (ha : CanonicalMinimalPlan.build a = .ok p)
    (hb : CanonicalMinimalPlan.build b = .ok q)
    (hsizes : a.FitsSize ∧ b.FitsSize) :
    (p.canonicalPlanPayload = q.canonicalPlanPayload ↔ a.Agrees b)
      ∧ (a.Agrees b → ∀ planId,
        writeFrozenPlan codec blake3 p planId
          = writeFrozenPlan codec blake3 q planId) := by
  obtain ⟨haAccepted, rfl⟩ := build_ok.1 ha
  obtain ⟨hbAccepted, rfl⟩ := build_ok.1 hb
  have hequal : a.Agrees b →
      CanonicalMinimalPlan.ofInput a = CanonicalMinimalPlan.ofInput b :=
    fun h => haAccepted.ofInput_eq hbAccepted h
  refine ⟨⟨fun hpayload => ?_, fun h => ?_⟩, fun h planId => ?_⟩
  · have hplan := canonicalPlanPayload_injective hsizes.1.ofInput
      hsizes.2.ofInput hpayload
    have hfields := CanonicalMinimalPlan.mk.inj hplan
    obtain ⟨hmanifest, hdigest, hroot, hcapabilities, hpolicy, hassets⟩ :=
      hfields
    refine ⟨hmanifest, hdigest, hroot, hcapabilities, hpolicy, fun asset => ?_⟩
    have hmem := @mem_sortBy _ MinimalPlanAsset.before a.assets asset
    rw [hassets, mem_sortBy] at hmem
    exact hmem.symm
  · rw [hequal h]
  · rw [hequal h]

/-- The album may be handed in in either order. -/
theorem canonicalPlan_identity_album :
    (∀ asset, asset ∈ [beach, attic] ↔ asset ∈ [attic, beach])
      ∧ CanonicalMinimalPlan.canonicalPlanPayload
          (.ofInput (albumOf [beach, attic]))
        = CanonicalMinimalPlan.canonicalPlanPayload
          (.ofInput (albumOf [attic, beach])) := by
  have hfits : ∀ assets, (∀ asset ∈ assets, asset = beach ∨ asset = attic) →
      assets.length < 2 ^ 64 → (albumOf assets).FitsSize := by
    intro assets hassets hlength
    refine ⟨show FitsSize (text "manifest") by decide +kernel,
      show FitsSize (text "/target") by decide +kernel,
      show FitsSize (text "v1") by decide +kernel,
      show 0 < 2 ^ 64 by decide, show 1 < 2 ^ 64 by decide, ?_, hlength, ?_⟩
    · intro capability hcapability
      rw [List.mem_singleton.1 hcapability]
      decide +kernel
    · intro asset hasset
      rcases hassets asset hasset with rfl | rfl
      · exact ⟨by decide +kernel, by decide +kernel, by decide +kernel,
          by decide +kernel⟩
      · exact ⟨by decide +kernel, by decide +kernel, by decide +kernel,
          by decide +kernel⟩
  have hswap : ∀ asset, asset ∈ [beach, attic] ↔ asset ∈ [attic, beach] := by
    intro asset
    rw [List.mem_pair, List.mem_pair, or_comm]
  refine ⟨hswap, ?_⟩
  refine (canonicalPlan_identity compact (fun _ => .zero)
    (build_ok.2 ⟨validatePlanInput_ok.1 album_accepted.1, rfl⟩)
    (build_ok.2 ⟨validatePlanInput_ok.1 album_accepted.2, rfl⟩)
    ⟨hfits _ ?_ (by decide), hfits _ ?_ (by decide)⟩).1.2
    ⟨rfl, rfl, rfl, rfl, rfl, hswap⟩
  · intro asset hasset
    exact List.mem_pair.1 hasset
  · intro asset hasset
    exact (List.mem_pair.1 hasset).symm

end PhotoBridge
