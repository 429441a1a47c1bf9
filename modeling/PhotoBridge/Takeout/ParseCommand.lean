/-
The command that parses a Takeout folder (`takeout_parse_command.cpp`).
It hands what the parser found to the association graph, the metadata
resolver and the photo builder, and each of them checks what it is given.

The parse comes to the command as its result, `none` where an exception
of the JSON library leaves it. The error report goes to an `ofstream`: it
opens or does not, and is good or not after so many bytes.
-/
import PhotoBridge.Takeout.Parser

namespace PhotoBridge.Takeout

open JsonText

-- ============================================================== metadata

structure MetadataSummary where
  resolutions : Nat := 0
  provenanceRecords : Nat := 0
  conflicts : Nat := 0
  deriving DecidableEq

/-- `kFields`. -/
def metadataFields : List MetadataField :=
  [.title, .description, .favorite, .takenTime]

/-- The candidates for a field of a logical asset. -/
def candidateGroup (candidates : List MetadataCandidate)
    (logicalAsset : LogicalAsset) (field : MetadataField) :
    List MetadataCandidate :=
  candidates.filter fun candidate =>
    !(candidate.field != field
      || !logicalAsset.members.contains candidate.assetId)

/-- One round of the inner loop of `ResolveParsedMetadata`. -/
def resolveGroup (candidates : List MetadataCandidate)
    (logicalAsset : LogicalAsset) (summary : MetadataSummary)
    (field : MetadataField) : Except Status MetadataSummary :=
  let group := candidateGroup candidates logicalAsset field
  if group.isEmpty then .ok summary
  else do
    let resolution ← resolve field group googleTakeoutMetadataRuleset
    let provenance ← buildProvenance resolution
    pure {
      resolutions := summary.resolutions + 1
      provenanceRecords := summary.provenanceRecords + provenance.length
      conflicts := summary.conflicts + if resolution.conflict then 1 else 0 }

/-- `ResolveParsedMetadata`. -/
def resolveParsedMetadata (logicalAssets : List LogicalAsset)
    (candidates : List MetadataCandidate) : Except Status MetadataSummary :=
  logicalAssets.foldlM (fun summary logicalAsset =>
    metadataFields.foldlM (resolveGroup candidates logicalAsset) summary) {}

-- ================================================================ photos

/-- The loop over the assets. -/
def addVertices (graph : AssociationGraph) (assets : List PhysicalAsset) :
    Except Status AssociationGraph :=
  assets.foldlM (fun graph asset => graph.addVertex (physicalAssetIdFor asset))
    graph

/-- One round of the loop over the relations: the graph, and `edges`. -/
def addRelation (state : AssociationGraph × List AssociationEdge)
    (relation : SourceRelationCandidate) :
    Except Status (AssociationGraph × List AssociationEdge) := do
  let edge := associationEdgeFor relation
  let graph ← state.1.addEdge edge
  pure (graph, state.2 ++ [edge])

/-- What the command makes of a parse. -/
structure ParsedPhotos where
  logicalAssets : List LogicalAsset
  metadata : MetadataSummary
  photos : List CanonicalPhoto

/-- The part of `TakeoutParseCommand::Execute` from the graph to the photos. -/
def buildPhotos (blake3 : Bytes → Digest) (parsed : TakeoutParseResult) :
    Except Status ParsedPhotos := do
  let vertices ← addVertices {} parsed.assets
  let (graph, edges) ← parsed.relations.foldlM addRelation (vertices, [])
  let logicalAssets ← graph.buildLogicalAssets blake3
  let metadata ← resolveParsedMetadata logicalAssets parsed.candidates
  let photos ← logicalAssets.mapM fun logicalAsset =>
    buildCanonicalPhoto blake3 logicalAsset parsed.assets edges
  pure ⟨logicalAssets, metadata, photos⟩

-- =============================================================== command

/-- The stream of the error report. -/
structure ReportStream where
  opens : Bool
  good : (written : Bytes) → Bool
  codec : Codec

def errorRecord (error : TakeoutParserError) : Json := .ofMembers [
  (text "code", .string error.code),
  (text "message", .string error.message),
  (text "path", .string error.relativePath.displayString)]

/-- The loop of `WriteErrorReport`. -/
def writeErrors (stream : ReportStream) (path : Bytes) :
    (written : Bytes) → List TakeoutParserError → Option (Except Status Unit)
  | _, [] => some (.ok ())
  | written, error :: rest =>
      match stream.codec.dump (errorRecord error) with
      | .error _ => none
      | .ok line =>
          let written := written ++ line ++ [10]
          if !stream.good written then
            some (.error ⟨.ioError,
              text "write parser error report: " ++ path⟩)
          else writeErrors stream path written rest

/-- `WriteErrorReport`, which an exception of the JSON library leaves
without a result. -/
def writeErrorReport (stream : ReportStream) (path : Bytes)
    (errors : List TakeoutParserError) : Option (Except Status Unit) :=
  if !stream.opens then
    some (.error ⟨.ioError, text "create parser error report: " ++ path⟩)
  else writeErrors stream path [] errors

structure TakeoutParseCommand where
  rootPath : Bytes
  errorReportPath : Bytes

namespace TakeoutParseCommand

/-- What is written to `context.out`. -/
def output (command : TakeoutParseCommand) (parsed : TakeoutParseResult)
    (built : ParsedPhotos) : Bytes :=
  text "parse completed: root=" ++ command.rootPath
    ++ text " assets=" ++ decimal parsed.assets.length
    ++ text " candidates=" ++ decimal parsed.candidates.length
    ++ text " relations=" ++ decimal parsed.relations.length
    ++ text " edges=" ++ decimal parsed.relations.length
    ++ text " logical_assets=" ++ decimal built.logicalAssets.length
    ++ text " errors=" ++ decimal parsed.errors.length
    ++ text " photo_ir=" ++ decimal built.photos.length
    ++ text " metadata_resolutions=" ++ decimal built.metadata.resolutions
    ++ text " metadata_provenance="
    ++ decimal built.metadata.provenanceRecords
    ++ text " metadata_conflicts=" ++ decimal built.metadata.conflicts
    ++ text "\n"
    ++ (if command.errorReportPath.isEmpty then []
      else text "parser error report: " ++ command.errorReportPath
        ++ text "\n")
    ++ parsed.errors.flatMap fun error =>
      text "parser error: path=" ++ error.relativePath.bytes
        ++ text " code=" ++ error.code
        ++ text " message=" ++ error.message ++ text "\n"

/-- The part of `Execute` after the parse: what it prints and returns. -/
def handleParsed (command : TakeoutParseCommand) (blake3 : Bytes → Digest)
    (parsed : TakeoutParseResult) : Bytes × Except Status Unit :=
  match buildPhotos blake3 parsed with
  | .error e => ([], .error e)
  | .ok built => (command.output parsed built,
      if !parsed.errors.isEmpty then
        .error (.invalid "Takeout parse produced parser errors")
      else .ok ())

/-- `TakeoutParseCommand::Execute`: what it prints and returns, `none` where
an exception leaves it. -/
def execute (command : TakeoutParseCommand) (blake3 : Bytes → Digest)
    (stream : ReportStream)
    (parser : Except Status (Option TakeoutParseResult)) :
    Option (Bytes × Except Status Unit) :=
  if command.rootPath.isEmpty then
    some ([], .error (.invalid "parse requires a Takeout root path"))
  else match parser with
    | .error e => some ([], .error e)
    | .ok none => none
    | .ok (some parsed) =>
        if command.errorReportPath.isEmpty then
          some (command.handleParsed blake3 parsed)
        else match writeErrorReport stream command.errorReportPath
            parsed.errors with
          | none => none
          | some (.error e) => some ([], .error e)
          | some (.ok ()) => some (command.handleParsed blake3 parsed)

end TakeoutParseCommand

end PhotoBridge.Takeout
