/-
The Takeout parser (`takeout_parser.cpp`).

# The result

The source's functions add to a `TakeoutParseResult` they are handed; here
a function returns what it adds, and results are appended.

# What lies outside

`Sources` answers for the files: opening one, reading some of it, and
what the JSON library makes of its bytes. `HashOrder` is the order in
which an `std::unordered_map` iterates over its entries: any order, the
same each time for the same map.
-/
import PhotoBridge.Scan.Builder
import PhotoBridge.Takeout.Association
import PhotoBridge.Takeout.Metadata

namespace PhotoBridge.Takeout

open JsonText Sorting

-- ============================================================== results

structure TakeoutParserError where
  relativePath : RelativePath
  code : Bytes
  message : Bytes
  deriving DecidableEq

structure TakeoutParseResult where
  assets : List PhysicalAsset := []
  candidates : List MetadataCandidate := []
  relations : List SourceRelationCandidate := []
  errors : List TakeoutParserError := []

instance : Append TakeoutParseResult where
  append first second := {
    assets := first.assets ++ second.assets
    candidates := first.candidates ++ second.candidates
    relations := first.relations ++ second.relations
    errors := first.errors ++ second.errors }

/-- All the parts of a result, in order. -/
def gather (parts : List TakeoutParseResult) : TakeoutParseResult :=
  parts.foldr (· ++ ·) {}

/-- `AddError`. -/
def addError (path : RelativePath) (code : String) (message : Bytes) :
    TakeoutParseResult :=
  { errors := [⟨path, text code, message⟩] }

-- ============================================================== outside

inductive ParsedJson
  | value (document : Json)
  /-- A `parse_error`, with its text. -/
  | parseError (what : Bytes)
  /-- Any other exception. -/
  | exception

structure Sources where
  openSource : RelativePath → Except Status Unit
  /-- `Read`, at this offset: at most so many bytes. -/
  read : RelativePath → (offset count : Nat) →
    Except Status {bytes : Bytes // bytes.length ≤ count}
  parseJson : Bytes → ParsedJson

structure HashOrder where
  iterate : {α : Type} → List (Bytes × α) → List (Bytes × α)
  perm : ∀ {α : Type} (entries : List (Bytes × α)),
    (iterate entries).Perm entries

-- ============================================================== reading

def maximumJsonBytes : Nat := 8 * 1024 * 1024

/-- The loop of `ReadBounded`. -/
def readLoop
    (read : (offset count : Nat) →
      Except Status {bytes : Bytes // bytes.length ≤ count})
    (size : Nat) (bytes : Bytes) : Except Status Bytes :=
  if bytes.length < size then do
    let chunk ← read bytes.length (size - bytes.length)
    if chunk.val = [] then pure bytes
    else readLoop read size (bytes ++ chunk.val)
  else pure bytes
termination_by size - bytes.length
decreasing_by
  have hpos := List.length_pos_iff.2 ‹_›
  rw [List.length_append]
  omega

/-- `ReadBounded`. -/
def readBounded
    (read : (offset count : Nat) →
      Except Status {bytes : Bytes // bytes.length ≤ count})
    (expectedSize : UInt64) : Except Status Bytes :=
  let capacity := expectedSize.toNat
  if maximumJsonBytes < capacity then
    .error (.invalid "JSON sidecar exceeds the 8 MiB parser limit")
  else do
    let bytes ← readLoop read (capacity + 1) []
    if bytes.length = capacity + 1 then
      .error (.invalid "JSON sidecar exceeds the 8 MiB parser limit")
    else if bytes.length ≠ capacity then
      .error (.ioError "JSON sidecar changed while it was being read")
    else pure bytes

-- ================================================================ names

/-- `IsJsonAsset`. -/
def isJsonAsset (kind : AssetKind) : Bool :=
  kind == .sidecarJson || kind == .albumMetadata

/-- `IsSidecar`. -/
def isSidecar (kind : AssetKind) : Bool :=
  kind == .sidecarJson || kind == .sidecarXmp

/-- `BasenameWithoutExtension`. -/
def basenameWithoutExtension (asset : PhysicalAsset) : Bytes :=
  let name := asset.relativePath.components.getLast?.getD []
  match rfind 46 name with
  | none => lowerAscii name
  | some dot => lowerAscii (if dot = 0 then name else name.take dot)

/-- Where the stem has an extension of media. The list of
`IsKnownMediaExtension` is that of `IsMediaExtension`. -/
def mediaExtensionDot (stem : Bytes) : Option Nat :=
  match rfind 46 stem with
  | none => none
  | some dot =>
      if dot = 0 ∨ dot + 1 = stem.length then none
      else if isMediaExtension (stem.drop (dot + 1)) then some dot
      else none

/-- `CanonicalSidecarStem`. -/
def canonicalSidecarStem (asset : PhysicalAsset) : Bytes :=
  let stem := basenameWithoutExtension asset
  match mediaExtensionDot stem with
  | none => stem
  | some dot => stem.take dot

/-- `UsesMediaExtensionSidecarName`. -/
def usesMediaExtensionSidecarName (asset : PhysicalAsset) : Bool :=
  (mediaExtensionDot (basenameWithoutExtension asset)).isSome

/-- `BasenameKey`, which joins its components as `JoinPath` does. -/
def basenameKey (asset : PhysicalAsset) : Bytes :=
  joinPath asset.relativePath.components.dropLast
    (if isSidecar asset.kind then canonicalSidecarStem asset
      else basenameWithoutExtension asset)

-- =============================================================== groups

/-- An `std::unordered_map` from keys to lists of assets. -/
abbrev AssetGroups := List (Bytes × List PhysicalAsset)

/-- `groups[key]`, as a list to append to. -/
def AssetGroups.append (groups : AssetGroups) (key : Bytes)
    (assets : List PhysicalAsset) : AssetGroups :=
  if groups.any (·.1 == key) then
    groups.map fun group =>
      if group.1 = key then (group.1, group.2 ++ assets) else group
  else groups ++ [(key, assets)]

/-- `find`. -/
def AssetGroups.find (groups : AssetGroups) (key : Bytes) :
    Option (List PhysicalAsset) :=
  (groups.find? (·.1 == key)).map (·.2)

/-- The assets a test selects, by their keys. -/
def groupByKey (test : PhysicalAsset → Bool) (assets : List PhysicalAsset) :
    AssetGroups :=
  (assets.filter test).foldl
    (fun groups asset => groups.append (basenameKey asset) [asset]) []

def isMedia (asset : PhysicalAsset) : Bool := asset.kind == .media

-- ============================================================ relations

def hasExtension (extensions : List String) (asset : PhysicalAsset) : Bool :=
  extensions.any (asset.extension == text ·)

def isRaw : PhysicalAsset → Bool :=
  hasExtension ["arw", "cr2", "dng", "nef", "raw"]

def isJpeg : PhysicalAsset → Bool := hasExtension ["jpg", "jpeg"]

def isMotion : PhysicalAsset → Bool := hasExtension ["mov"]

def isStill : PhysicalAsset → Bool :=
  hasExtension ["jpg", "jpeg", "heic", "heif"]

/-- A search for one asset of each of two kinds among assets with the same
basename: `first` is looked for before `second`. -/
structure PairSearch where
  first : PhysicalAsset → Bool
  second : PhysicalAsset → Bool
  relate : (first second : PhysicalAsset) → SourceRelationCandidate
  code : String
  message : String

def PairSearch.firsts (search : PairSearch) (media : List PhysicalAsset) :
    List PhysicalAsset :=
  media.filter search.first

def PairSearch.seconds (search : PairSearch) (media : List PhysicalAsset) :
    List PhysicalAsset :=
  media.filter fun asset => !search.first asset && search.second asset

/-- What a search adds. -/
def PairSearch.run (search : PairSearch) (media : List PhysicalAsset) :
    TakeoutParseResult :=
  match search.firsts media, search.seconds media with
  | [first], [second] => { relations := [search.relate first second] }
  | firsts, seconds =>
      if firsts ≠ [] ∧ seconds ≠ [] then
        gather (media.map fun asset =>
          addError asset.relativePath search.code (text search.message))
      else {}

/-- The search puts the key among the media relation keys. -/
def PairSearch.relates (search : PairSearch) (media : List PhysicalAsset) :
    Bool :=
  !(search.firsts media).isEmpty && !(search.seconds media).isEmpty

def rawJpegSearch : PairSearch where
  first := isRaw
  second := isJpeg
  relate raw jpeg := {
    mediaAssetId := physicalAssetIdFor raw
    sidecarAssetId := physicalAssetIdFor jpeg
    relation := .rawJpegPair
    rule := text "takeout.raw-jpeg.v1"
    evidence := jpeg.relativePath.displayString ++ text " pairs "
      ++ raw.relativePath.displayString }
  code := "ambiguous_raw_jpeg_relation"
  message := "same basename has multiple RAW or JPEG media files"

def livePhotoSearch : PairSearch where
  first := isMotion
  second := isStill
  relate motion still := {
    mediaAssetId := physicalAssetIdFor still
    sidecarAssetId := physicalAssetIdFor motion
    relation := .livePhotoMotionForMedia
    rule := text "takeout.live-photo.v1"
    evidence := motion.relativePath.displayString ++ text " motion-pairs "
      ++ still.relativePath.displayString }
  code := "ambiguous_live_photo_relation"
  message := "same basename has multiple still or motion media files"

/-- One round of the first loop over the media groups. -/
def relateMedia (media : List PhysicalAsset) : TakeoutParseResult :=
  rawJpegSearch.run media ++ livePhotoSearch.run media

/-- `media_relation_keys`. -/
def mediaRelationKeys (groups : AssetGroups) : List Bytes :=
  (groups.filter fun group =>
    rawJpegSearch.relates group.2 || livePhotoSearch.relates group.2).map
      (·.1)

def minimumUnambiguousStemBytes : Nat := 3

/-- The lengths of the prefixes of a key a sidecar may be cut to. -/
def prefixLengths (key : Bytes) : List Nat :=
  let firstStemByte := match rfind 47 key with
    | none => 0
    | some directoryEnd => directoryEnd + 1
  (List.range key.length).filter
    (firstStemByte + minimumUnambiguousStemBytes ≤ ·)

/-- `media_by_prefix`. -/
def mediaByPrefix (groups : AssetGroups) : AssetGroups :=
  groups.foldl (fun prefixes group =>
    (prefixLengths group.1).foldl (fun prefixes length =>
      prefixes.append (group.1.take length) group.2) prefixes) []

/-- The relation between a media file and its only sidecar. -/
def sidecarRelation (media sidecar : PhysicalAsset) :
    SourceRelationCandidate where
  mediaAssetId := physicalAssetIdFor media
  sidecarAssetId := physicalAssetIdFor sidecar
  relation := if sidecar.kind = .sidecarXmp then .xmpSidecarForMedia
    else .jsonSidecarForMedia
  rule := if usesMediaExtensionSidecarName sidecar then
      text "takeout.sidecar-media-extension.v1"
    else text "takeout.basename.v1"
  evidence := sidecar.relativePath.displayString ++ text " matches "
    ++ media.relativePath.displayString

/-- A sidecar without media of its key. -/
def unmatchedSidecar (prefixes : AssetGroups) (key : Bytes)
    (sidecar : PhysicalAsset) : TakeoutParseResult :=
  match prefixes.find key with
  | some [_] => addError sidecar.relativePath "truncated_basename_match"
      (text ("sidecar basename is a strict prefix of a media basename; "
        ++ "relation is not inferred"))
  | some _ => addError sidecar.relativePath "ambiguous_truncated_basename"
      (text ("sidecar basename is a strict prefix of multiple media "
        ++ "basenames; relation is ambiguous"))
  | none => addError sidecar.relativePath "orphan_sidecar"
      (text "sidecar has no media with the same directory and basename")

/-- One round of the loop over the sidecars of a key. -/
def relateSidecar (mediaGroups prefixes : AssetGroups) (key : Bytes)
    (sidecars : List PhysicalAsset) (sidecar : PhysicalAsset) :
    TakeoutParseResult :=
  match mediaGroups.find key with
  | none => unmatchedSidecar prefixes key sidecar
  | some [media] =>
      if sidecars.length = 1 then
        { relations := [sidecarRelation media sidecar] }
      else addError sidecar.relativePath "ambiguous_sidecar_relation"
        (text "same basename matches multiple media or sidecar files")
  | some _ => addError sidecar.relativePath "ambiguous_sidecar_relation"
      (text "same basename matches multiple media or sidecar files")

/-- `media_keys_with_weak_sidecar`. -/
def weakSidecarKeys (mediaGroups prefixes sidecarGroups : AssetGroups) :
    List Bytes :=
  sidecarGroups.filterMap fun group =>
    match mediaGroups.find group.1, prefixes.find group.1 with
    | none, some [media] => some (basenameKey media)
    | _, _ => none

/-- The media of a group nothing belongs to. -/
def missingSidecars (media : List PhysicalAsset) : TakeoutParseResult :=
  gather (media.map fun asset =>
    addError asset.relativePath "missing_sidecar"
      (text ("media has no JSON or XMP sidecar with the same directory "
        ++ "and basename")))

/-- `AddRelationErrorsAndCandidates`. -/
def addRelationErrorsAndCandidates (order : HashOrder)
    (assets : List PhysicalAsset) : TakeoutParseResult :=
  let mediaByKey : AssetGroups := order.iterate (groupByKey isMedia assets)
  let sidecarsByKey : AssetGroups :=
    order.iterate (groupByKey (isSidecar ·.kind) assets)
  let relationKeys := mediaRelationKeys mediaByKey
  let prefixes := mediaByPrefix mediaByKey
  let weakKeys := weakSidecarKeys mediaByKey prefixes sidecarsByKey
  gather (mediaByKey.map fun group => relateMedia group.2)
    ++ gather (sidecarsByKey.map fun group =>
      gather (group.2.map (relateSidecar mediaByKey prefixes group.1 group.2)))
    ++ gather (mediaByKey.map fun group =>
      if (sidecarsByKey.find group.1).isSome || relationKeys.contains group.1
          || weakKeys.contains group.1 then {}
      else missingSidecars group.2)

-- =========================================================== candidates

/-- The check `AddCandidate` makes of a taken time. -/
def checkTakenTime : MetadataField → MetadataValue → Except Status Unit
  | .takenTime, .timeCandidate candidate => validateTimeCandidate candidate
  | _, _ => .ok ()

/-- `AddCandidate`. -/
def addCandidate (asset : PhysicalAsset) (field : MetadataField)
    (value : MetadataValue) (rule : String) (evidence : Bytes) :
    TakeoutParseResult :=
  if !isMetadataRuleCompatible googleTakeoutMetadataRuleset field
      .googleTakeoutJson (text rule) then
    addError asset.relativePath "metadata_rule"
      (text "metadata candidate rule is not compatible with its field/source")
  else if !isMetadataValueCompatible field value then
    addError asset.relativePath "metadata_field_type"
      (text "metadata candidate value is incompatible with its field")
  else match checkTakenTime field value with
    | .error e => addError asset.relativePath "metadata_field_value" e.message
    | .ok () => { candidates := [{
        assetId := physicalAssetIdFor asset
        field := field
        value := value
        source := .googleTakeoutJson
        extractionRule := text rule
        evidence := evidence }] }

/-- `AddFieldTypeError`. -/
def addFieldTypeError (asset : PhysicalAsset) (field expected : String) :
    TakeoutParseResult :=
  addError asset.relativePath "metadata_field_type"
    (text "JSON field " ++ text field ++ text " must be " ++ text expected)

/-- The value of the digits, if there are any and nothing else. -/
def digitsValue (digits : Bytes) : Option Nat :=
  if digits ≠ [] ∧ digits.all fun digit => 48 ≤ digit ∧ digit ≤ 57 then
    some (digits.foldl (fun value digit => 10 * value + (digit.toNat - 48)) 0)
  else none

/-- `std::from_chars`, where it reads all of the text. -/
def fromChars (raw : Bytes) : Option Int64 :=
  match raw with
  | 45 :: digits => do
      let magnitude ← digitsValue digits
      if magnitude ≤ 2 ^ 63 then some (Int64.ofInt (-magnitude)) else none
  | digits => do
      let magnitude ← digitsValue digits
      if magnitude < 2 ^ 63 then some (Int64.ofNat magnitude) else none

/-- `UnixSecondsToNanoseconds`. -/
def unixSecondsToNanoseconds (rawValue : Bytes) : Except Status Int64 :=
  let nanosecondsPerSecond : Int64 := 1000000000
  match fromChars rawValue with
  | none => .error (.invalid
      "photoTakenTime.timestamp must be a signed integer Unix timestamp")
  | some seconds =>
      if Int64.maxValue / nanosecondsPerSecond < seconds
          || seconds < Int64.minValue / nanosecondsPerSecond then
        .error (.invalid "photoTakenTime.timestamp overflows Unix nanoseconds")
      else .ok (seconds * nanosecondsPerSecond)

/-- `get<std::int64_t>` of a number literal, if it `is_number_integer`:
one that fits a signed or, without a sign, an unsigned word. -/
def numberInteger (literal : Bytes) : Option Int64 :=
  match literal with
  | 45 :: digits => do
      let magnitude ← digitsValue digits
      if magnitude ≤ 2 ^ 63 then some (Int64.ofInt (-magnitude)) else none
  | digits => do
      let magnitude ← digitsValue digits
      if magnitude < 2 ^ 64 then some (UInt64.ofNat magnitude).toInt64 else none

/-- `raw_timestamp`, of a string or an integer. -/
def rawTimestamp : Json → Option Bytes
  | .string value => some value
  | .number literal => (numberInteger literal).map signedDecimal
  | _ => none

def readString : Json → Option MetadataValue
  | .string value => some (.string value)
  | _ => none

def readBoolean : Json → Option MetadataValue
  | .bool value => some (.bool value)
  | _ => none

/-- Where the value stands. -/
def evidenceAt (asset : PhysicalAsset) (pointer : String) : Bytes :=
  asset.relativePath.displayString ++ text pointer

/-- A member of the document and the candidate it becomes. -/
structure JsonField where
  key : String
  expected : String
  read : Json → Option MetadataValue
  field : MetadataField
  rule : String
  pointer : String

def titleField : JsonField where
  key := "title"
  expected := "a string"
  read := readString
  field := .title
  rule := "takeout.json.title.v1"
  pointer := "#/title"

def descriptionField : JsonField where
  key := "description"
  expected := "a string"
  read := readString
  field := .description
  rule := "takeout.json.description.v1"
  pointer := "#/description"

def favoriteField : JsonField where
  key := "favorited"
  expected := "a boolean"
  read := readBoolean
  field := .favorite
  rule := "takeout.json.favorited.v1"
  pointer := "#/favorited"

/-- The candidate a member of the document becomes. -/
def JsonField.extract (field : JsonField) (asset : PhysicalAsset)
    (document : Json) : TakeoutParseResult :=
  match document.find? (text field.key) with
  | none => {}
  | some member =>
      match field.read member with
      | none => addFieldTypeError asset field.key field.expected
      | some value => addCandidate asset field.field value field.rule
          (evidenceAt asset field.pointer)

/-- The part of `ExtractMetadataCandidates` about a timestamp. -/
def extractTimestamp (asset : PhysicalAsset) (timestamp : Json) :
    TakeoutParseResult :=
  match rawTimestamp timestamp with
  | none => addFieldTypeError asset "photoTakenTime.timestamp"
      "an integer or integer string"
  | some raw =>
      match unixSecondsToNanoseconds raw with
      | .error e =>
          addError asset.relativePath "metadata_field_value" e.message
      | .ok unixNs => addCandidate asset .takenTime
          (.timeCandidate { value := .absoluteTime unixNs, rawValue := raw })
          "takeout.json.photoTakenTime.timestamp.v1"
          (evidenceAt asset "#/photoTakenTime/timestamp")

/-- The part of `ExtractMetadataCandidates` about the taken time. -/
def extractTakenTime (asset : PhysicalAsset) (document : Json) :
    TakeoutParseResult :=
  match document.find? (text "photoTakenTime") with
  | none => {}
  | some takenTime =>
      if !takenTime.isObject then
        addFieldTypeError asset "photoTakenTime" "an object"
      else match takenTime.find? (text "timestamp") with
        | none => {}
        | some timestamp => extractTimestamp asset timestamp

/-- `ExtractMetadataCandidates`. -/
def extractMetadataCandidates (asset : PhysicalAsset) (document : Json) :
    TakeoutParseResult :=
  if !document.isObject then
    addError asset.relativePath "metadata_shape"
      (text "JSON sidecar root must be an object")
  else titleField.extract asset document
    ++ descriptionField.extract asset document
    ++ favoriteField.extract asset document
    ++ extractTakenTime asset document

-- =============================================================== sorting

def assetBefore (left right : PhysicalAsset) : Bool :=
  bytesLess left.relativePath.bytes right.relativePath.bytes

def relationBefore :
    SourceRelationCandidate → SourceRelationCandidate → Bool :=
  thenBy (fun left right => bytesLess left.mediaAssetId right.mediaAssetId)
    (thenBy
      (fun left right => bytesLess left.sidecarAssetId right.sidecarAssetId)
      fun left right => bytesLess left.evidence right.evidence)

def candidateBefore : MetadataCandidate → MetadataCandidate → Bool :=
  thenBy byAssetId
    (thenBy (fun left right => left.field.number < right.field.number)
      (thenBy byExtractionRule byEvidence))

def errorBefore : TakeoutParserError → TakeoutParserError → Bool :=
  thenBy
    (fun left right =>
      bytesLess left.relativePath.bytes right.relativePath.bytes)
    (thenBy (fun left right => bytesLess left.code right.code)
      fun left right => bytesLess left.message right.message)

/-- `SortResult`. -/
def sortResult (result : TakeoutParseResult) : TakeoutParseResult where
  assets := sortBy assetBefore result.assets
  candidates := sortBy candidateBefore result.candidates
  relations := sortBy relationBefore result.relations
  errors := sortBy errorBefore result.errors

-- =============================================================== parsing

/-- The part of `Parse` that reads a JSON file; `none` where an exception
leaves it. -/
def parseJsonAsset (sources : Sources) (asset : PhysicalAsset) :
    Option TakeoutParseResult :=
  let path := asset.relativePath
  match sources.openSource path with
  | .error e => some (addError path "unreadable_json" e.message)
  | .ok () =>
      match readBounded (sources.read path) asset.identity.size with
      | .error e => some (addError path
          (if e.code = .invalidArgument then "json_size_limit"
            else "unreadable_json") e.message)
      | .ok bytes =>
          match sources.parseJson bytes with
          | .value document => some (extractMetadataCandidates asset document)
          | .parseError what => some (addError path "invalid_json" what)
          | .exception => none

/-- What `Parse` adds of an asset besides the asset. -/
def parseAsset (sources : Sources) (asset : PhysicalAsset) :
    Option TakeoutParseResult :=
  if asset.kind = .unknown then
    some (addError asset.relativePath "unknown_file_kind" (text
      "regular file has no supported Takeout media or sidecar type"))
  else if !isJsonAsset asset.kind then some {}
  else parseJsonAsset sources asset

/-- One round of the loop of `Parse`. -/
def parseEntry (sources : Sources) (entry : DirectoryEntry) :
    Option TakeoutParseResult :=
  match classifyPhysicalAsset entry with
  | none => some {}
  | some asset => do
      let added ← parseAsset sources asset
      pure ({ assets := [asset] } ++ added)

/-- What `Parse` makes of the entries of the walk. -/
def parseEntries (sources : Sources) (order : HashOrder)
    (entries : List DirectoryEntry) : Option TakeoutParseResult := do
  let parts ← entries.mapM (parseEntry sources)
  let result := gather parts
  pure (sortResult
    (result ++ addRelationErrorsAndCandidates order result.assets))

/-- What the walk leaves: the entries its sink was given, and the number
of system calls made. -/
structure WalkState where
  entries : List DirectoryEntry := []
  calls : Nat := 0

abbrev WalkM := StateT WalkState (Except Status)

/-- A system call, each with an answer of its own. -/
def walkCall (answers : Nat → String → Except Status Unit)
    (operation : String) : WalkM Unit := fun state =>
  match answers state.calls operation with
  | .error e => .error e
  | .ok () => .ok ((), { state with calls := state.calls + 1 })

/-- `TakeoutEntrySink::Add`. -/
def sinkAdd (entry : DirectoryEntry) : WalkM Unit := fun state =>
  .ok ((), { state with entries := state.entries ++ [entry] })

/-- The walk of `Parse`, with its root open. -/
def walkRoot (strerror : Nat → Bytes)
    (answers : Nat → String → Except Status Unit) (root : Entries) :
    WalkM Unit := do
  walkCall answers "open directory root"
  walk strerror (walkCall answers) sinkAdd root

/-- `TakeoutParser::Parse`, which an exception of the JSON library other
than a `parse_error` leaves without a result. -/
def parse (strerror : Nat → Bytes)
    (answers : Nat → String → Except Status Unit) (sources : Sources)
    (order : HashOrder) (root : Entries) :
    Except Status (Option TakeoutParseResult) :=
  match walkRoot strerror answers root {} with
  | .error e => .error e
  | .ok ((), state) => .ok (parseEntries sources order state.entries)

end PhotoBridge.Takeout
