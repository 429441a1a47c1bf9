/-
How assets belong together (`association_edge.cpp`,
`association_graph.cpp`, `photo_ir.cpp`): relations between assets
become edges of a graph, its sets of connected assets become logical
assets, and each of these becomes a photo.
-/
import PhotoBridge.Lib.Forest
import PhotoBridge.Plan.Mapping

namespace PhotoBridge.Takeout

open DisjointSets Sorting

-- =============================================================== edges

inductive SourceRelationKind
  | jsonSidecarForMedia | xmpSidecarForMedia | livePhotoMotionForMedia
  | rawJpegPair
  deriving DecidableEq

structure SourceRelationCandidate where
  mediaAssetId : Bytes
  sidecarAssetId : Bytes
  relation : SourceRelationKind
  rule : Bytes
  evidence : Bytes
  deriving DecidableEq

inductive EdgeKind
  | composition | metadataAttachment | assetRelation
  deriving DecidableEq

inductive RelationType
  | jsonSidecar | xmpSidecar | livePhotoMotion | rawJpegPair
  deriving DecidableEq

/-- The value of the enumerator. -/
def RelationType.number : RelationType → Nat
  | .jsonSidecar => 0
  | .xmpSidecar => 1
  | .livePhotoMotion => 2
  | .rawJpegPair => 3

inductive AssociationStatus
  | confirmed | ambiguous | rejected
  deriving DecidableEq

structure Evidence where
  rule : Bytes
  detail : Bytes
  deriving DecidableEq

structure AssociationEdge where
  edgeKind : EdgeKind
  lhs : Bytes
  rhs : Bytes
  relation : RelationType
  rule : Bytes
  evidence : Evidence
  status : AssociationStatus
  deriving DecidableEq

/-- `AssociationEdgeFor`. -/
def associationEdgeFor (candidate : SourceRelationCandidate) :
    AssociationEdge where
  edgeKind :=
    if candidate.relation = .livePhotoMotionForMedia
        ∨ candidate.relation = .rawJpegPair then .composition
    else .metadataAttachment
  lhs := candidate.mediaAssetId
  rhs := candidate.sidecarAssetId
  relation := match candidate.relation with
    | .livePhotoMotionForMedia => .livePhotoMotion
    | .rawJpegPair => .rawJpegPair
    | .xmpSidecarForMedia => .xmpSidecar
    | .jsonSidecarForMedia => .jsonSidecar
  rule := candidate.rule
  evidence := ⟨candidate.rule, candidate.evidence⟩
  status := .confirmed

-- =============================================================== graph

structure AssociationGraph where
  vertices : List Bytes := []
  edges : List AssociationEdge := []
  deriving DecidableEq

namespace AssociationGraph

/-- `AddVertex`. -/
def addVertex (graph : AssociationGraph) (id : Bytes) :
    Except Status AssociationGraph :=
  if id.isEmpty then
    .error (.invalid "association graph vertex id must not be empty")
  else if graph.vertices.contains id then
    .error (.alreadyExists "association graph vertex already exists")
  else .ok { graph with vertices := graph.vertices ++ [id] }

/-- `AddEdge`. `SameEdge` compares every field. -/
def addEdge (graph : AssociationGraph) (edge : AssociationEdge) :
    Except Status AssociationGraph :=
  if edge.lhs.isEmpty || edge.rhs.isEmpty then
    .error (.invalid "association graph edge endpoints must not be empty")
  else if !graph.vertices.contains edge.lhs
      || !graph.vertices.contains edge.rhs then
    .error (.notFound "association graph edge references an unknown vertex")
  else if edge.lhs = edge.rhs then
    .error (.invalid "association graph must not contain a self edge")
  else if graph.edges.contains edge then
    .error (.alreadyExists "association graph edge already exists")
  else .ok { graph with edges := graph.edges ++ [edge] }

end AssociationGraph

-- ====================================================== logical assets

/-- `std::lower_bound`, with `none` at the end. -/
def lowerBound (vertices : List Bytes) (id : Bytes) :
    Option (Fin vertices.length) :=
  if h : vertices.findIdx (fun vertex => !bytesLess vertex id)
      < vertices.length then some ⟨_, h⟩
  else none

/-- The order of the composition edges. -/
def AssociationEdge.before : AssociationEdge → AssociationEdge → Bool :=
  thenBy (fun left right => bytesLess left.lhs right.lhs)
    (thenBy (fun left right => bytesLess left.rhs right.rhs)
      (thenBy (fun left right => bytesLess left.rule right.rule)
        fun left right => bytesLess left.evidence.detail right.evidence.detail))

/-- The edge makes one logical asset of its ends. -/
def AssociationEdge.composes (edge : AssociationEdge) : Bool :=
  edge.edgeKind == .composition && edge.status == .confirmed

/-- One round of the loop over the composition edges. -/
def joinEnds (vertices : List Bytes) (parent : Forest vertices.length)
    (edge : AssociationEdge) : Except Status (Forest vertices.length) :=
  match lowerBound vertices edge.lhs, lowerBound vertices edge.rhs with
  | some left, some right =>
      if vertices.get left ≠ edge.lhs ∨ vertices.get right ≠ edge.rhs then
        .error (.internal "association graph composition edge lost a vertex")
      else
        let (leftRoot, parent) := parent.find left
        let (rightRoot, parent) := parent.find right
        if leftRoot = rightRoot then .ok parent
        else .ok (parent.link leftRoot rightRoot)
  | _, _ =>
      .error (.internal "association graph composition edge lost a vertex")

/-- The members found so far of each group, by its root. -/
abbrev Groups (n : Nat) := Fin n → List Bytes

/-- One round of the loop that fills `groups`. -/
def fileMember (vertices : List Bytes)
    (state : Forest vertices.length × Groups vertices.length)
    (index : Fin vertices.length) :
    Forest vertices.length × Groups vertices.length :=
  let (root, parent) := state.1.find index
  (parent, fun r =>
    if r = root then state.2 r ++ [vertices.get index] else state.2 r)

/-- The groups, as `std::map` iterates over them. -/
def memberLists (vertices : List Bytes) (parent : Forest vertices.length) :
    List (List Bytes) :=
  let groups := ((List.finRange vertices.length).foldl (fileMember vertices)
    (parent, fun _ => [])).2
  ((List.finRange vertices.length).map groups).filter (!·.isEmpty)

/-- One round of the loop that names the groups. -/
def logicalAssetOf (blake3 : Bytes → Digest) (members : List Bytes) :
    Except Status LogicalAsset := do
  let logicalId ← logicalAssetIdForMembers blake3 members
  pure ⟨logicalId, members, none⟩

/-- `AssociationGraph::BuildLogicalAssets`. -/
def AssociationGraph.buildLogicalAssets (blake3 : Bytes → Digest)
    (graph : AssociationGraph) : Except Status (List LogicalAsset) := do
  let vertices := sortBy bytesLess graph.vertices
  let compositionEdges :=
    sortBy AssociationEdge.before (graph.edges.filter (·.composes))
  let parent ← compositionEdges.foldlM (joinEnds vertices)
    (Forest.discrete vertices.length)
  let result ← (memberLists vertices parent).mapM (logicalAssetOf blake3)
  pure (sortBy (fun left right => bytesLess left.id right.id) result)

-- ============================================================== photos

structure PhotoMediaComponent where
  assetId : Bytes
  relativePath : RelativePath
  kind : AssetKind
  extension : Bytes
  deriving DecidableEq

structure PhotoRelationship where
  lhs : Bytes
  rhs : Bytes
  relation : RelationType
  status : AssociationStatus
  rule : Bytes
  evidence : Evidence
  deriving DecidableEq

structure CanonicalPhoto where
  id : Bytes
  members : List Bytes
  mediaComponents : List PhotoMediaComponent
  relationships : List PhotoRelationship
  deriving DecidableEq

/-- `RelationshipLess`. -/
def relationshipLess : PhotoRelationship → PhotoRelationship → Bool :=
  thenBy (fun left right => bytesLess left.lhs right.lhs)
    (thenBy (fun left right => bytesLess left.rhs right.rhs)
      (thenBy (fun left right => left.relation.number < right.relation.number)
        (thenBy (fun left right => bytesLess left.rule right.rule)
          (thenBy
            (fun left right => bytesLess left.evidence.rule right.evidence.rule)
            fun left right =>
              bytesLess left.evidence.detail right.evidence.detail))))

/-- The loop that fills `by_id`. -/
def checkUniqueIds (known : List Bytes) :
    List PhysicalAsset → Except Status Unit
  | [] => .ok ()
  | asset :: rest =>
      if known.contains (physicalAssetIdFor asset) then
        .error (.invalid "canonical photo physical asset ids must be unique")
      else checkUniqueIds (physicalAssetIdFor asset :: known) rest

/-- The loop that fills `member_set`. -/
def checkMembers (physicalAssets : List PhysicalAsset) (known : List Bytes) :
    List Bytes → Except Status Unit
  | [] => .ok ()
  | member :: rest =>
      if known.contains member then
        .error (.invalid
          "canonical photo logical asset members must be unique")
      else if !physicalAssets.any (physicalAssetIdFor · == member) then
        .error (.notFound "canonical photo logical asset member is missing")
      else checkMembers physicalAssets (member :: known) rest

/-- The component a member becomes, if it is media. -/
def mediaComponent (physicalAssets : List PhysicalAsset) (member : Bytes) :
    Option PhotoMediaComponent := do
  let asset ← physicalAssets.find? (physicalAssetIdFor · == member)
  if asset.kind = .media then
    some ⟨member, asset.relativePath, asset.kind, asset.extension⟩
  else none

/-- The relationship an edge becomes, if it is between members. -/
def relationshipOf (members : List Bytes) (edge : AssociationEdge) :
    Option PhotoRelationship :=
  if edge.status ≠ .confirmed then none
  else if !members.contains edge.lhs || !members.contains edge.rhs then none
  else some ⟨edge.lhs, edge.rhs, edge.relation, edge.status, edge.rule,
    edge.evidence⟩

/-- `BuildCanonicalPhoto`. -/
def buildCanonicalPhoto (blake3 : Bytes → Digest)
    (logicalAsset : LogicalAsset) (physicalAssets : List PhysicalAsset)
    (edges : List AssociationEdge) : Except Status CanonicalPhoto :=
  if logicalAsset.id.isEmpty || logicalAsset.members.isEmpty then
    .error (.invalid "canonical photo requires a non-empty logical asset")
  else do
    let expectedId ← logicalAssetIdForMembers blake3 logicalAsset.members
    if expectedId ≠ logicalAsset.id then
      .error (.invalid
        "canonical photo logical asset id does not match members")
    else do
      checkUniqueIds [] physicalAssets
      checkMembers physicalAssets [] logicalAsset.members
      let members := sortBy bytesLess logicalAsset.members
      pure {
        id := logicalAsset.id
        members := members
        mediaComponents :=
          sortBy (fun left right => bytesLess left.assetId right.assetId)
            (members.filterMap (mediaComponent physicalAssets))
        relationships :=
          sortBy relationshipLess
            (edges.filterMap (relationshipOf logicalAsset.members)) }

end PhotoBridge.Takeout
