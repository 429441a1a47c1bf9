/-
Metadata candidates and what becomes of them (`metadata_candidate.cpp`,
`metadata_rules.cpp`, `metadata_resolver.cpp`, `resolution_record.cpp`,
`provenance.cpp`).

A candidate is a value some file states for a field. The resolver orders
the candidates for one field and selects the first; provenance says of
each candidate what became of it.
-/
import PhotoBridge.Plan.Canonical

namespace PhotoBridge.Takeout

open Sorting

-- ============================================================== values

inductive MetadataField
  | title | description | favorite | takenTime
  deriving DecidableEq

/-- The value of the enumerator. -/
def MetadataField.number : MetadataField → Nat
  | .title => 0
  | .description => 1
  | .favorite => 2
  | .takenTime => 3

inductive MetadataSource
  | googleTakeoutJson
  deriving DecidableEq

inductive TimePrecision
  | second
  deriving DecidableEq

structure LocalDateTime where
  year : Int32
  month : Int32
  day : Int32
  hour : Int32
  minute : Int32
  second : Int32
  nanosecond : Int32
  deriving DecidableEq

/-- `std::variant<AbsoluteTime, LocalDateTime>`. -/
inductive TimeValue
  | absoluteTime (unixNs : Int64)
  | localDateTime (value : LocalDateTime)
  deriving DecidableEq

structure TimeCandidate where
  value : TimeValue
  utcOffsetMinutes : Option Int32 := none
  precision : TimePrecision := .second
  source : MetadataSource := .googleTakeoutJson
  rawValue : Bytes
  deriving DecidableEq

structure GeoPoint where
  latitude : Float
  longitude : Float

inductive MetadataValue
  | string (value : Bytes)
  | int64 (value : Int64)
  | double (value : Float)
  | bool (value : Bool)
  | timeCandidate (value : TimeCandidate)
  | geoPoint (value : GeoPoint)

inductive MetadataValueKind
  | string | int64 | double | bool | timeCandidate | geoPoint
  deriving DecidableEq

structure MetadataCandidate where
  assetId : Bytes
  field : MetadataField
  value : MetadataValue
  source : MetadataSource
  extractionRule : Bytes
  evidence : Bytes

/-- A calendar component is out of its range. -/
def LocalDateTime.invalid (value : LocalDateTime) : Bool :=
  value.year < 1 || 9999 < value.year
    || value.month < 1 || 12 < value.month
    || value.day < 1 || 31 < value.day
    || value.hour < 0 || 23 < value.hour
    || value.minute < 0 || 59 < value.minute
    || value.second < 0 || 59 < value.second
    || value.nanosecond < 0 || 999999999 < value.nanosecond

/-- `ValidateTimeCandidate`. -/
def validateTimeCandidate (candidate : TimeCandidate) : Except Status Unit :=
  if candidate.rawValue.isEmpty then
    .error (.invalid "time candidate raw value must not be empty")
  else if candidate.precision ≠ .second then
    .error (.invalid "unsupported time candidate precision")
  else if candidate.source ≠ .googleTakeoutJson then
    .error (.invalid "unsupported time candidate source")
  else if candidate.utcOffsetMinutes.any fun offset =>
      offset < -14 * 60 || 14 * 60 < offset then
    .error (.invalid
      "time candidate UTC offset is outside the supported range")
  else match candidate.value with
    | .absoluteTime _ => .ok ()
    | .localDateTime value =>
        if value.invalid then
          .error (.invalid
            "local time candidate has an invalid calendar component")
        else .ok ()

/-- `MetadataValueKindOf`. -/
def MetadataValue.kind : MetadataValue → MetadataValueKind
  | .string _ => .string
  | .int64 _ => .int64
  | .double _ => .double
  | .bool _ => .bool
  | .timeCandidate _ => .timeCandidate
  | .geoPoint _ => .geoPoint

/-- `IsMetadataValueCompatible`. -/
def isMetadataValueCompatible (field : MetadataField)
    (value : MetadataValue) : Bool :=
  match field with
  | .title | .description => value.kind == .string
  | .favorite => value.kind == .bool
  | .takenTime => value.kind == .timeCandidate

/-- `MetadataValuesEqual`. Doubles are compared as IEEE values. -/
def metadataValuesEqual : (left right : MetadataValue) → Bool
  | .string left, .string right => left == right
  | .int64 left, .int64 right => left == right
  | .double left, .double right => left == right
  | .bool left, .bool right => left == right
  | .timeCandidate left, .timeCandidate right => left == right
  | .geoPoint left, .geoPoint right =>
      left.latitude == right.latitude && left.longitude == right.longitude
  | _, _ => false

-- =============================================================== rules

structure MetadataRule where
  id : Bytes
  field : MetadataField
  source : MetadataSource
  deriving DecidableEq

structure MetadataRuleset where
  version : Bytes
  chain : List MetadataRule

/-- `GoogleTakeoutMetadataRuleset`. -/
def googleTakeoutMetadataRuleset : MetadataRuleset where
  version := text "takeout-metadata-v1"
  chain := [
    ⟨text "takeout.json.title.v1", .title, .googleTakeoutJson⟩,
    ⟨text "takeout.json.description.v1", .description, .googleTakeoutJson⟩,
    ⟨text "takeout.json.favorited.v1", .favorite, .googleTakeoutJson⟩,
    ⟨text "takeout.json.photoTakenTime.timestamp.v1", .takenTime,
      .googleTakeoutJson⟩]

/-- The loop of `ValidateMetadataRuleset`. -/
def checkRules (chain : List MetadataRule) :
    List MetadataRule → Except Status Unit
  | [] => .ok ()
  | rule :: rest =>
      if rule.id.isEmpty then
        .error (.invalid "metadata rule id must not be empty")
      else if chain.countP (·.id == rule.id) ≠ 1 then
        .error (.invalid "metadata rule ids must be unique")
      else checkRules chain rest

/-- `ValidateMetadataRuleset`. -/
def validateMetadataRuleset (ruleset : MetadataRuleset) : Except Status Unit :=
  if ruleset.version.isEmpty || ruleset.chain.isEmpty then
    .error (.invalid
      "metadata ruleset must have a version and at least one rule")
  else checkRules ruleset.chain ruleset.chain

/-- `IsMetadataRuleCompatible`. -/
def isMetadataRuleCompatible (ruleset : MetadataRuleset)
    (field : MetadataField) (source : MetadataSource) (ruleId : Bytes) :
    Bool :=
  ruleset.chain.any fun rule =>
    rule.id == ruleId && rule.field == field && rule.source == source

-- ========================================================== resolution

structure ResolutionRecord where
  field : MetadataField
  selectedValue : Option MetadataValue := none
  selectedSource : Option MetadataSource := none
  ruleId : Bytes := []
  ruleVersion : Bytes := []
  candidates : List MetadataCandidate := []
  conflict : Bool := false
  reason : Bytes := []

/-- The candidate fits the record. -/
def ResolutionRecord.admits (record : ResolutionRecord)
    (candidate : MetadataCandidate) : Bool :=
  !(candidate.assetId.isEmpty || candidate.field != record.field
    || candidate.extractionRule.isEmpty
    || !isMetadataValueCompatible candidate.field candidate.value)

/-- `ValidateResolutionRecord`. -/
def validateResolutionRecord (record : ResolutionRecord) :
    Except Status Unit :=
  if record.selectedValue.isSome != record.selectedSource.isSome then
    .error (.invalid
      "resolution selected value and source must be provided together")
  else if record.selectedValue.any fun value =>
      !isMetadataValueCompatible record.field value then
    .error (.invalid
      "resolution selected value is incompatible with its field")
  else if record.selectedValue.isSome
      && (record.ruleId.isEmpty || record.ruleVersion.isEmpty) then
    .error (.invalid "resolution selection must identify its rule and version")
  else if record.conflict && record.reason.isEmpty then
    .error (.invalid "conflicted resolution must include a reason")
  else if record.candidates.any (!record.admits ·) then
    .error (.invalid "resolution candidate is invalid for the record")
  else .ok ()

/-- `RuleRank`. -/
def ruleRank (ruleset : MetadataRuleset) (ruleId : Bytes) : Nat :=
  ruleset.chain.findIdx (·.id == ruleId)

def byAssetId (left right : MetadataCandidate) : Bool :=
  bytesLess left.assetId right.assetId

def byExtractionRule (left right : MetadataCandidate) : Bool :=
  bytesLess left.extractionRule right.extractionRule

def byEvidence (left right : MetadataCandidate) : Bool :=
  bytesLess left.evidence right.evidence

/-- `CandidateLess`. -/
def candidateLess (ruleset : MetadataRuleset) :
    MetadataCandidate → MetadataCandidate → Bool :=
  thenBy (fun left right =>
      ruleRank ruleset left.extractionRule
        < ruleRank ruleset right.extractionRule)
    (thenBy byAssetId (thenBy byExtractionRule byEvidence))

/-- The candidate may be resolved for the field. -/
def isResolvable (field : MetadataField) (ruleset : MetadataRuleset)
    (candidate : MetadataCandidate) : Bool :=
  !(candidate.field != field || candidate.assetId.isEmpty
    || !isMetadataRuleCompatible ruleset candidate.field candidate.source
      candidate.extractionRule
    || !isMetadataValueCompatible candidate.field candidate.value)

/-- `MetadataResolver::Resolve`. -/
def resolve (field : MetadataField) (candidates : List MetadataCandidate)
    (ruleset : MetadataRuleset) : Except Status ResolutionRecord := do
  validateMetadataRuleset ruleset
  if candidates.any (!isResolvable field ruleset ·) then
    .error (.invalid
      "metadata candidate is not valid for the requested ruleset")
  else
    let sorted := sortBy (candidateLess ruleset) candidates
    let result : ResolutionRecord := {
      field := field
      ruleVersion := ruleset.version
      candidates := sorted }
    match sorted with
    | [] => pure { result with reason := text "no candidates" }
    | selected :: _ =>
        let conflict := sorted.any fun candidate =>
          !metadataValuesEqual candidate.value selected.value
        pure { result with
          selectedValue := some selected.value
          selectedSource := some selected.source
          ruleId := selected.extractionRule
          conflict := conflict
          reason := if conflict then
            text ("multiple distinct values; canonical tie-break selected "
              ++ "the first candidate")
          else text "single canonical value" }

-- ========================================================== provenance

inductive ProvenanceOutcome
  | selected | rejected
  deriving DecidableEq

structure ProvenanceRecord where
  field : MetadataField
  assetId : Bytes
  value : MetadataValue
  source : MetadataSource
  ruleId : Bytes
  ruleVersion : Bytes
  evidence : Bytes
  outcome : ProvenanceOutcome
  reason : Bytes

/-- The candidate is the selected value. -/
def ResolutionRecord.selects (resolution : ResolutionRecord)
    (candidate : MetadataCandidate) : Bool :=
  match resolution.selectedValue, resolution.selectedSource with
  | some value, some source =>
      candidate.source == source
        && candidate.extractionRule == resolution.ruleId
        && metadataValuesEqual candidate.value value
  | _, _ => false

/-- The record of one candidate. -/
def provenanceRecord (resolution : ResolutionRecord)
    (candidate : MetadataCandidate) (isSelected : Bool) :
    ProvenanceRecord where
  field := candidate.field
  assetId := candidate.assetId
  value := candidate.value
  source := candidate.source
  ruleId := candidate.extractionRule
  ruleVersion := resolution.ruleVersion
  evidence := candidate.evidence
  outcome := if isSelected then .selected else .rejected
  reason :=
    if isSelected then text "selected by canonical resolver order"
    else if resolution.conflict then text "rejected by conflict tie-break"
    else text "not selected"

/-- The loop of `BuildProvenance`. -/
def provenanceRecords (resolution : ResolutionRecord) :
    (selectedWritten : Bool) → List MetadataCandidate → List ProvenanceRecord
  | _, [] => []
  | selectedWritten, candidate :: rest =>
      let isSelected := !selectedWritten && resolution.selects candidate
      provenanceRecord resolution candidate isSelected
        :: provenanceRecords resolution (selectedWritten || isSelected) rest

/-- `BuildProvenance`. -/
def buildProvenance (resolution : ResolutionRecord) :
    Except Status (List ProvenanceRecord) := do
  validateResolutionRecord resolution
  pure (provenanceRecords resolution false
    (sortBy (thenBy byAssetId (thenBy byExtractionRule byEvidence))
      resolution.candidates))

end PhotoBridge.Takeout
