/-
The parse command accepts what the parser emits (`parse_accepted`): no
check of the graph, the resolver, provenance or the photo builder fails
on the result of a parse.

The checks are gone through in the order of the command. What the graph
asks for is what a consistent result has; the logical assets are then the
connected components, so an asset is in exactly one of them, and with it
the candidates of the asset: a group takes the candidates for one field
of one logical asset, and each candidate is in one group.
-/
import PhotoBridge.Takeout.ParseCommand
import PhotoBridge.Takeout.Proofs.Components
import PhotoBridge.Takeout.Proofs.Consistent
import PhotoBridge.Takeout.Proofs.Metadata

namespace PhotoBridge.Takeout

open JsonText Sorting Joining AssociationGraph

variable {blake3 : Bytes → Digest} {parsed : TakeoutParseResult}
  {graph : AssociationGraph} {logicalAsset : LogicalAsset}
  {logicalAssets : List LogicalAsset}

-- ================================================================= graph

section Graph

variable {assets : List PhysicalAsset}
  {relations : List SourceRelationCandidate}

/-- Vertices that are new are added. -/
theorem addVertices_ok
    (h : (graph.vertices ++ assets.map physicalAssetIdFor).Nodup) :
    addVertices graph assets = .ok { graph with
      vertices := graph.vertices ++ assets.map physicalAssetIdFor } := by
  induction assets generalizing graph with
  | nil =>
      rw [List.map_nil, List.append_nil]
      rfl
  | cons asset rest ih =>
      have hsplit : graph.vertices
            ++ (asset :: rest).map physicalAssetIdFor
          = (graph.vertices ++ [physicalAssetIdFor asset])
            ++ rest.map physicalAssetIdFor := by
        rw [List.map_cons, List.append_assoc, List.singleton_append]
      have hfresh : physicalAssetIdFor asset ∉ graph.vertices := by
        intro hmem
        exact (List.nodup_append.1 h).2.2 _ hmem _ List.mem_cons_self rfl
      have hadd : graph.addVertex (physicalAssetIdFor asset) = .ok { graph with
          vertices := graph.vertices ++ [physicalAssetIdFor asset] } := by
        unfold AssociationGraph.addVertex
        rw [if_neg, if_neg]
        · simpa using hfresh
        · simpa using physicalAssetIdFor_ne_nil asset
      unfold addVertices at ih ⊢
      rw [hsplit] at h ⊢
      rw [List.foldlM_cons, hadd]
      exact ih h

/-- Different relations are different edges. -/
theorem associationEdgeFor_injective :
    Function.Injective associationEdgeFor := by
  rintro ⟨media, second, kind, rule, evidence⟩
    ⟨media', second', kind', rule', evidence'⟩ h
  have hkind := congrArg AssociationEdge.relation h
  obtain rfl : media = media' := congrArg AssociationEdge.lhs h
  obtain rfl : second = second' := congrArg AssociationEdge.rhs h
  obtain rfl : rule = rule' := congrArg AssociationEdge.rule h
  obtain rfl : evidence = evidence' :=
    congrArg (fun edge => edge.evidence.detail) h
  cases kind <;> cases kind' <;> first | rfl | cases hkind

/-- The relation is one the graph takes. -/
structure Joinable (graph : AssociationGraph)
    (relation : SourceRelationCandidate) : Prop where
  media : relation.mediaAssetId ∈ graph.vertices
  sidecar : relation.sidecarAssetId ∈ graph.vertices
  apart : relation.mediaAssetId ≠ relation.sidecarAssetId

/-- An edge between two vertices is added, if it is new. -/
theorem addRelation_ok (hvertices : [] ∉ graph.vertices)
    {relation : SourceRelationCandidate} (h : Joinable graph relation)
    (hnew : associationEdgeFor relation ∉ graph.edges)
    (edges : List AssociationEdge) :
    addRelation (graph, edges) relation = .ok (
      { graph with edges := graph.edges ++ [associationEdgeFor relation] },
      edges ++ [associationEdgeFor relation]) := by
  have hlhs : (associationEdgeFor relation).lhs ∈ graph.vertices := h.media
  have hrhs : (associationEdgeFor relation).rhs ∈ graph.vertices := h.sidecar
  have hlhsne : (associationEdgeFor relation).lhs ≠ [] := fun hnil =>
    hvertices (hnil ▸ hlhs)
  have hrhsne : (associationEdgeFor relation).rhs ≠ [] := fun hnil =>
    hvertices (hnil ▸ hrhs)
  have hadd : graph.addEdge (associationEdgeFor relation) = .ok { graph with
      edges := graph.edges ++ [associationEdgeFor relation] } := by
    unfold AssociationGraph.addEdge
    rw [if_neg, if_neg, if_neg, if_neg]
    · simpa using hnew
    · exact h.apart
    · simp [hlhs, hrhs]
    · simp [hlhsne, hrhsne]
  unfold addRelation
  dsimp only
  rw [hadd]
  rfl

/-- The same of many. -/
theorem addRelations_ok (hvertices : [] ∉ graph.vertices)
    (h : ∀ relation ∈ relations, Joinable graph relation)
    (hnodup : (graph.edges ++ relations.map associationEdgeFor).Nodup)
    (edges : List AssociationEdge) :
    relations.foldlM addRelation (graph, edges) = .ok (
      { graph with edges := graph.edges ++ relations.map associationEdgeFor },
      edges ++ relations.map associationEdgeFor) := by
  induction relations generalizing graph edges with
  | nil =>
      rw [List.map_nil, List.append_nil, List.append_nil]
      rfl
  | cons relation rest ih =>
      have hsplit : ∀ before : List AssociationEdge,
          before ++ (relation :: rest).map associationEdgeFor
            = (before ++ [associationEdgeFor relation])
              ++ rest.map associationEdgeFor := by
        intro before
        rw [List.map_cons, List.append_assoc, List.singleton_append]
      have hnew : associationEdgeFor relation ∉ graph.edges := by
        intro hmem
        exact (List.nodup_append.1 hnodup).2.2 _ hmem _ List.mem_cons_self rfl
      rw [hsplit] at hnodup
      rw [hsplit, hsplit, List.foldlM_cons,
        addRelation_ok hvertices (h relation List.mem_cons_self) hnew]
      refine @ih { graph with
        edges := graph.edges ++ [associationEdgeFor relation] } hvertices
        (fun other hother => ?_) hnodup _
      obtain ⟨hmedia, hsidecar, hapart⟩ :=
        h other (List.mem_cons_of_mem _ hother)
      exact ⟨hmedia, hsidecar, hapart⟩

/-- The graph of a result. -/
def graphOf (parsed : TakeoutParseResult) : AssociationGraph where
  vertices := parsed.assets.map physicalAssetIdFor
  edges := parsed.relations.map associationEdgeFor

/-- The assets become vertices. -/
theorem Consistent.addVertices (h : Consistent parsed) :
    addVertices {} parsed.assets
      = .ok { vertices := parsed.assets.map physicalAssetIdFor } :=
  addVertices_ok h.ids

/-- Every relation is between two of them. -/
theorem Consistent.joinable (h : Consistent parsed)
    {relation : SourceRelationCandidate} (hmem : relation ∈ parsed.relations) :
    Joinable { vertices := parsed.assets.map physicalAssetIdFor } relation := by
  obtain ⟨media, hmedia, second, hsecond, hne, hmediaId, hsecondId⟩ :=
    h.ends relation hmem
  refine ⟨?_, ?_, ?_⟩
  · rw [hmediaId]
    exact List.mem_map_of_mem hmedia
  · rw [hsecondId]
    exact List.mem_map_of_mem hsecond
  · rw [hmediaId, hsecondId]
    exact fun heq => hne (List.inj_on_of_nodup_map h.ids hmedia hsecond heq)

/-- No id is empty. -/
private theorem nil_not_id (assets : List PhysicalAsset) :
    [] ∉ assets.map physicalAssetIdFor := by
  intro hmem
  obtain ⟨asset, -, hid⟩ := List.mem_map.1 hmem
  exact physicalAssetIdFor_ne_nil asset hid

/-- The relations become edges. -/
theorem Consistent.addRelations (h : Consistent parsed) :
    parsed.relations.foldlM addRelation
        ({ vertices := parsed.assets.map physicalAssetIdFor }, [])
      = .ok (graphOf parsed, parsed.relations.map associationEdgeFor) :=
  addRelations_ok (nil_not_id _) (fun _ => h.joinable)
    (h.relations.map associationEdgeFor_injective) []

/-- The graph is valid. -/
theorem Consistent.valid (h : Consistent parsed) : (graphOf parsed).Valid where
  nodup := h.ids
  nonempty := fun v hv hnil => nil_not_id parsed.assets (hnil ▸ hv)
  ends := by
    intro edge hedge
    obtain ⟨relation, hrelation, rfl⟩ := List.mem_map.1 hedge
    exact ⟨(h.joinable hrelation).media, (h.joinable hrelation).sidecar⟩

/-- The logical assets are the components of the graph. -/
theorem Consistent.components (h : Consistent parsed)
    (blake3 : Bytes → Digest) :
    ∃ logicalAssets,
      (graphOf parsed).buildLogicalAssets blake3 = .ok logicalAssets
        ∧ AreComponents blake3 (graphOf parsed) logicalAssets := by
  obtain ⟨forest, hforest, hbuild⟩ := h.valid.build blake3
  obtain ⟨result, hresult⟩ := h.valid.named blake3 forest
  rw [hbuild, hresult]
  exact ⟨_, rfl, h.valid.components hforest hresult⟩

end Graph

-- ============================================================== metadata

section Metadata

variable {candidates group : List MetadataCandidate} {field : MetadataField}

/-- The records are those of the group's candidates. -/
structure Traced (group : MetadataField × List MetadataCandidate)
    (records : List ProvenanceRecord) : Prop where
  resolves : ∃ resolution,
    resolve group.1 group.2 googleTakeoutMetadataRuleset = .ok resolution
      ∧ buildProvenance resolution = .ok records
  perm : (records.map ProvenanceRecord.candidate).Perm group.2

/-- The groups `ResolveParsedMetadata` resolves, in its order. -/
def candidateGroups (candidates : List MetadataCandidate)
    (logicalAssets : List LogicalAsset) :
    List (MetadataField × List MetadataCandidate) :=
  logicalAssets.flatMap fun logicalAsset =>
    (metadataFields.map fun field =>
      (field, candidateGroup candidates logicalAsset field)).filter
        (!·.2.isEmpty)

/-- The resolver and provenance accept what `AddCandidate` does. -/
theorem exists_traced (hne : group ≠ [])
    (h : ∀ candidate ∈ group,
      isResolvable field googleTakeoutMetadataRuleset candidate = true) :
    ∃ records, Traced (field, group) records := by
  have haccepts : Accepts field googleTakeoutMetadataRuleset group := ⟨rfl, h⟩
  obtain ⟨resolution, hresolve⟩ : ∃ resolution,
      resolve field group googleTakeoutMetadataRuleset = .ok resolution :=
    ⟨_, resolve_accepts haccepts⟩
  obtain ⟨selected, hselection⟩ := resolve_selection hne hresolve
  have hrecords : buildProvenance resolution
      = .ok (provenanceRecords resolution false
        (sortBy placeLess resolution.candidates)) := by
    unfold buildProvenance
    rw [hselection.valid haccepts.valid]
    rfl
  refine ⟨_, ⟨resolution, hresolve, hrecords⟩, ?_⟩
  rw [provenanceRecords_candidates]
  exact (perm_sortBy _ _).trans hselection.perm

/-- The candidates of a field of an asset. -/
theorem mem_candidateGroup {candidate : MetadataCandidate} :
    candidate ∈ candidateGroup candidates logicalAsset field
      ↔ candidate ∈ candidates ∧ candidate.field = field
        ∧ candidate.assetId ∈ logicalAsset.members := by
  unfold candidateGroup
  rw [List.mem_filter]
  simp

/-- Each of them can be resolved. -/
theorem Consistent.group_resolvable (h : Consistent parsed)
    {candidate : MetadataCandidate}
    (hmem : candidate ∈ candidateGroup parsed.candidates logicalAsset field) :
    isResolvable field googleTakeoutMetadataRuleset candidate = true := by
  obtain ⟨hin, rfl, -⟩ := mem_candidateGroup.1 hmem
  exact h.resolvable candidate hin

/-- Every group has its records. -/
theorem Consistent.groups (h : Consistent parsed)
    (logicalAssets : List LogicalAsset) :
    ∃ records, List.Forall₂ Traced
      (candidateGroups parsed.candidates logicalAssets) records := by
  refine exists_forall₂ fun group hgroup => ?_
  obtain ⟨logicalAsset, -, hin⟩ := List.mem_flatMap.1 hgroup
  obtain ⟨hgroup, hne⟩ := List.mem_filter.1 hin
  obtain ⟨field, -, rfl⟩ := List.mem_map.1 hgroup
  exact exists_traced (by simpa using hne) fun _ => h.group_resolvable

/-- The group of a field has a resolution. -/
theorem Consistent.resolveGroup (h : Consistent parsed)
    (logicalAsset : LogicalAsset) (field : MetadataField)
    (summary : MetadataSummary) :
    ∃ next, resolveGroup parsed.candidates logicalAsset summary field
        = .ok next
      ∧ next.provenanceRecords = summary.provenanceRecords
        + (candidateGroup parsed.candidates logicalAsset field).length := by
  unfold Takeout.resolveGroup
  dsimp only
  split
  · next hempty =>
    rw [List.isEmpty_iff.1 hempty]
    exact ⟨summary, rfl, rfl⟩
  · next hne =>
    obtain ⟨records, ⟨resolution, hresolve, hrecords⟩, hperm⟩ :=
      exists_traced (by simpa using hne) fun _ => h.group_resolvable
    rw [hresolve]
    show ∃ next, (buildProvenance resolution >>= _) = _ ∧ _
    rw [hrecords]
    refine ⟨_, rfl, ?_⟩
    rw [← hperm.length_eq, List.length_map]

/-- Each of the fields has one. -/
theorem Consistent.resolveFields (h : Consistent parsed)
    (logicalAsset : LogicalAsset) (fields : List MetadataField)
    (summary : MetadataSummary) :
    ∃ next, fields.foldlM
        (Takeout.resolveGroup parsed.candidates logicalAsset) summary
        = .ok next
      ∧ next.provenanceRecords = summary.provenanceRecords
        + (fields.flatMap
          (candidateGroup parsed.candidates logicalAsset)).length := by
  induction fields generalizing summary with
  | nil => exact ⟨summary, rfl, rfl⟩
  | cons field rest ih =>
      obtain ⟨between, hbetween, hcount⟩ :=
        h.resolveGroup logicalAsset field summary
      obtain ⟨next, hnext, hrest⟩ := ih between
      refine ⟨next, ?_, ?_⟩
      · rw [List.foldlM_cons, hbetween]
        exact hnext
      · rw [hrest, hcount, List.flatMap_cons, List.length_append]
        omega

/-- The candidates of the groups. -/
def groupedCandidates (candidates : List MetadataCandidate)
    (logicalAssets : List LogicalAsset) : List MetadataCandidate :=
  logicalAssets.flatMap fun logicalAsset =>
    metadataFields.flatMap (candidateGroup candidates logicalAsset)

/-- Each of the logical assets has them. -/
theorem Consistent.resolveMetadata (h : Consistent parsed)
    (logicalAssets : List LogicalAsset) (summary : MetadataSummary) :
    ∃ next, logicalAssets.foldlM (fun summary logicalAsset =>
        metadataFields.foldlM
          (Takeout.resolveGroup parsed.candidates logicalAsset) summary) summary
        = .ok next
      ∧ next.provenanceRecords = summary.provenanceRecords
        + (groupedCandidates parsed.candidates logicalAssets).length := by
  induction logicalAssets generalizing summary with
  | nil => exact ⟨summary, rfl, rfl⟩
  | cons logicalAsset rest ih =>
      obtain ⟨between, hbetween, hcount⟩ :=
        h.resolveFields logicalAsset metadataFields summary
      obtain ⟨next, hnext, hrest⟩ := ih between
      refine ⟨next, ?_, ?_⟩
      · rw [List.foldlM_cons, hbetween]
        exact hnext
      · rw [hrest, hcount]
        unfold groupedCandidates
        rw [List.flatMap_cons, List.length_append]
        omega

/-- Empty groups have no candidates. -/
theorem candidateGroups_candidates (candidates : List MetadataCandidate)
    (logicalAssets : List LogicalAsset) :
    (candidateGroups candidates logicalAssets).flatMap (·.2)
      = groupedCandidates candidates logicalAssets := by
  have hfilter : ∀ groups : List (MetadataField × List MetadataCandidate),
      (groups.filter (!·.2.isEmpty)).flatMap (·.2) = groups.flatMap (·.2) := by
    intro groups
    induction groups with
    | nil => rfl
    | cons group rest ih =>
        rw [List.flatMap_cons, List.filter_cons]
        split
        · rw [List.flatMap_cons, ih]
        · next hempty =>
          have hnil : group.2 = [] := by simpa using hempty
          rw [ih, hnil]
          rfl
  unfold candidateGroups groupedCandidates
  rw [List.flatMap_assoc]
  refine List.flatMap_congr fun logicalAsset _ => ?_
  rw [hfilter, List.flatMap_map]

/-- Every candidate is in one group. -/
theorem grouped_perm (h : ∀ candidate ∈ candidates,
      (logicalAssets.filter (candidate.assetId ∈ ·.members)).length = 1) :
    (groupedCandidates candidates logicalAssets).Perm candidates := by
  have hfields : ∀ logicalAsset : LogicalAsset,
      (metadataFields.flatMap (candidateGroup candidates logicalAsset)).Perm
        (candidates.filter fun candidate =>
          decide (candidate.assetId ∈ logicalAsset.members)) := by
    intro logicalAsset
    have hsplit : candidateGroup candidates logicalAsset = fun field =>
        (candidates.filter fun candidate =>
            decide (candidate.assetId ∈ logicalAsset.members)).filter
          (·.field == field) := by
      funext field
      unfold candidateGroup
      rw [List.filter_filter]
      refine List.filter_congr fun candidate _ => ?_
      simp [bne]
    rw [hsplit]
    refine Grouping.perm_flatMap_filter fun candidate _ => ?_
    cases candidate.field <;> rfl
  refine (List.Perm.flatMap_left _ fun logicalAsset _ =>
    hfields logicalAsset).trans ?_
  refine Grouping.perm_flatMap_filter fun candidate hmem => ?_
  rw [List.countP_eq_length_filter]
  exact h candidate hmem

end Metadata

-- ================================================================ photos

section Photos

variable {assets : List PhysicalAsset} {members : List Bytes}

/-- Ids that are different are accepted. -/
theorem checkUniqueIds_ok {known : List Bytes}
    (h : (known.reverse ++ assets.map physicalAssetIdFor).Nodup) :
    checkUniqueIds known assets = .ok () := by
  induction assets generalizing known with
  | nil => rfl
  | cons asset rest ih =>
      have hnew : physicalAssetIdFor asset ∉ known := by
        intro hmem
        exact (List.nodup_append.1 h).2.2 _ (List.mem_reverse.2 hmem) _
          List.mem_cons_self rfl
      unfold checkUniqueIds
      rw [if_neg (by simpa using hnew)]
      apply ih
      rw [List.reverse_cons, List.append_assoc]
      exact h

/-- Members that are assets, each once, are accepted. -/
theorem checkMembers_ok {known : List Bytes}
    (h : (known.reverse ++ members).Nodup)
    (hids : ∀ member ∈ members, member ∈ assets.map physicalAssetIdFor) :
    checkMembers assets known members = .ok () := by
  induction members generalizing known with
  | nil => rfl
  | cons member rest ih =>
      have hnew : member ∉ known := by
        intro hmem
        exact (List.nodup_append.1 h).2.2 _ (List.mem_reverse.2 hmem) _
          List.mem_cons_self rfl
      have hknown : assets.any (physicalAssetIdFor · == member) = true := by
        obtain ⟨asset, hasset, hid⟩ :=
          List.mem_map.1 (hids member List.mem_cons_self)
        exact List.any_eq_true.2 ⟨asset, hasset, beq_iff_eq.2 hid⟩
      unfold checkMembers
      rw [if_neg (by simpa using hnew), if_neg (by simp [hknown])]
      refine ih ?_ fun other hother => hids other (List.mem_cons_of_mem _ hother)
      rw [List.reverse_cons, List.append_assoc]
      exact h

/-- The id of a logical asset is not empty. -/
theorem logicalAssetIdForMembers_ne_nil {id : Bytes}
    (h : logicalAssetIdForMembers blake3 members = .ok id) : id ≠ [] := by
  unfold logicalAssetIdForMembers at h
  split at h
  · cases h
  split at h
  · cases h
  split at h
  · cases h
  · cases h
    have hprefix : text "logical-" ≠ [] := by decide
    exact fun hnil => hprefix (List.append_eq_nil_iff.1 hnil).1

/-- A component of the graph is made into a photo of its members. -/
theorem Consistent.photo (h : Consistent parsed)
    (hcomponents : AreComponents blake3 (graphOf parsed) logicalAssets)
    (hmem : logicalAsset ∈ logicalAssets) (edges : List AssociationEdge) :
    ∃ photo, buildCanonicalPhoto blake3 logicalAsset parsed.assets edges
        = .ok photo
      ∧ ∀ v, v ∈ photo.members ↔ v ∈ logicalAsset.members := by
  have hid := hcomponents.id logicalAsset hmem
  obtain ⟨hne, hvertices⟩ := hcomponents.vertices logicalAsset hmem
  have hincreasing : Increasing logicalAsset.members :=
    hcomponents.sorted logicalAsset hmem
  have hunique : checkUniqueIds [] parsed.assets = .ok () :=
    checkUniqueIds_ok h.ids
  have hmembers : checkMembers parsed.assets [] logicalAsset.members = .ok () :=
    checkMembers_ok hincreasing.nodup hvertices
  unfold buildCanonicalPhoto
  rw [if_neg, hid]
  · show ∃ photo, (if logicalAsset.id ≠ logicalAsset.id then _ else _) = _ ∧ _
    rw [if_neg (not_not_intro rfl), hunique, hmembers]
    exact ⟨_, rfl, fun v => mem_sortBy⟩
  · simp [hne, logicalAssetIdForMembers_ne_nil hid]

/-- The photos have as many members as the logical assets. -/
theorem filter_members_length {photos : List CanonicalPhoto}
    (h : List.Forall₂ (fun (logicalAsset : LogicalAsset)
      (photo : CanonicalPhoto) =>
        ∀ v, v ∈ photo.members ↔ v ∈ logicalAsset.members)
      logicalAssets photos) (v : Bytes) :
    (photos.filter (v ∈ ·.members)).length
      = (logicalAssets.filter (v ∈ ·.members)).length := by
  induction h with
  | nil => rfl
  | cons hmembers _ ih =>
      rw [List.filter_cons, List.filter_cons]
      simp only [hmembers v]
      split
      · exact congrArg (· + 1) ih
      · exact ih

end Photos

-- =============================================================== command

section Command

/-- Every check the command makes of a parse succeeds: `built` is what it
makes of it, and `records` is the provenance of each group it resolves. -/
structure Accepted (blake3 : Bytes → Digest) (parsed : TakeoutParseResult)
    (built : ParsedPhotos) (records : List (List ProvenanceRecord)) :
    Prop where
  vertices : addVertices {} parsed.assets
    = .ok { vertices := parsed.assets.map physicalAssetIdFor }
  edges : parsed.relations.foldlM addRelation
      ({ vertices := parsed.assets.map physicalAssetIdFor }, [])
    = .ok (graphOf parsed, parsed.relations.map associationEdgeFor)
  logicalAssets : (graphOf parsed).buildLogicalAssets blake3
    = .ok built.logicalAssets
  groups : List.Forall₂ Traced
    (candidateGroups parsed.candidates built.logicalAssets) records
  metadata : resolveParsedMetadata built.logicalAssets parsed.candidates
    = .ok built.metadata
  photos : List.Forall₂ (fun logicalAsset photo =>
      buildCanonicalPhoto blake3 logicalAsset parsed.assets
        (parsed.relations.map associationEdgeFor) = .ok photo)
    built.logicalAssets built.photos
  build : buildPhotos blake3 parsed = .ok built
  /-- Every asset is in one logical asset and in one photo. -/
  asset : ∀ asset ∈ parsed.assets,
    (built.logicalAssets.filter
        (physicalAssetIdFor asset ∈ ·.members)).length = 1
      ∧ (built.photos.filter
        (physicalAssetIdFor asset ∈ ·.members)).length = 1
  /-- Every candidate is there once and in one record. -/
  distinct : parsed.candidates.Nodup
  provenance : (records.flatten.map ProvenanceRecord.candidate).Perm
    parsed.candidates
  counted : built.metadata.provenanceRecords = parsed.candidates.length

/-- The candidates of the records are those of the groups. -/
theorem traced_candidates
    {groups : List (MetadataField × List MetadataCandidate)}
    {records : List (List ProvenanceRecord)}
    (h : List.Forall₂ Traced groups records) :
    (records.flatten.map ProvenanceRecord.candidate).Perm
      (groups.flatMap (·.2)) := by
  induction h with
  | nil => exact List.Perm.refl _
  | cons htraced _ ih =>
      rw [List.flatten_cons, List.map_append, List.flatMap_cons]
      exact htraced.perm.append ih

/-- A result that is consistent is accepted by all later stages. -/
theorem Consistent.accepted (h : Consistent parsed)
    (blake3 : Bytes → Digest) :
    ∃ built records, Accepted blake3 parsed built records := by
  obtain ⟨logicalAssets, hlogical, hcomponents⟩ := h.components blake3
  obtain ⟨records, hrecords⟩ := h.groups logicalAssets
  obtain ⟨metadata, hmetadata, hcounted⟩ := h.resolveMetadata logicalAssets {}
  obtain ⟨photos, hphotos⟩ := exists_forall₂ fun logicalAsset hmem =>
    h.photo hcomponents hmem (parsed.relations.map associationEdgeFor)
  have hbuilt : List.Forall₂ (fun logicalAsset photo =>
      buildCanonicalPhoto blake3 logicalAsset parsed.assets
        (parsed.relations.map associationEdgeFor) = .ok photo)
      logicalAssets photos := hphotos.imp fun _ _ hphoto => hphoto.1
  have hmembers := filter_members_length (hphotos.imp fun _ _ hphoto => hphoto.2)
  have heach : ∀ asset ∈ parsed.assets, (logicalAssets.filter
      (physicalAssetIdFor asset ∈ ·.members)).length = 1 :=
    fun asset hasset => hcomponents.each _ (List.mem_map_of_mem hasset)
  have hgrouped : (groupedCandidates parsed.candidates logicalAssets).Perm
      parsed.candidates := by
    refine grouped_perm fun candidate hmem => ?_
    obtain ⟨asset, hasset, hid⟩ := h.known candidate hmem
    rw [hid]
    exact heach asset hasset
  refine ⟨⟨logicalAssets, metadata, photos⟩, records, h.addVertices,
    h.addRelations, hlogical, hrecords, hmetadata, hbuilt, ?_,
    fun asset hasset => ⟨heach asset hasset, ?_⟩, h.candidates, ?_, ?_⟩
  · unfold buildPhotos
    rw [h.addVertices]
    show (parsed.relations.foldlM addRelation _ >>= _) = _
    rw [h.addRelations]
    show (buildLogicalAssets blake3 (graphOf parsed) >>= _) = _
    rw [hlogical]
    show (resolveParsedMetadata logicalAssets parsed.candidates >>= _) = _
    unfold resolveParsedMetadata
    rw [hmetadata]
    show (logicalAssets.mapM (fun logicalAsset =>
      buildCanonicalPhoto blake3 logicalAsset parsed.assets
        (parsed.relations.map associationEdgeFor)) >>= _) = _
    rw [mapM_ok.2 hbuilt]
    rfl
  · rw [hmembers]
    exact heach asset hasset
  · refine (traced_candidates hrecords).trans ?_
    rw [candidateGroups_candidates]
    exact hgrouped
  · rw [hcounted, hgrouped.length_eq]
    exact Nat.zero_add _

/-- What the command returns once every check has passed. -/
theorem Accepted.execute {built : ParsedPhotos}
    {records : List (List ProvenanceRecord)}
    (h : Accepted blake3 parsed built records) (command : TakeoutParseCommand)
    (stream : ReportStream) (hroot : command.rootPath ≠ [])
    (hreport : command.errorReportPath = []
      ∨ writeErrorReport stream command.errorReportPath parsed.errors
        = some (.ok ())) :
    command.execute blake3 stream (.ok (some parsed))
      = some (command.output parsed built,
        if parsed.errors.isEmpty then .ok ()
        else .error (.invalid "Takeout parse produced parser errors")) := by
  have hhandled : command.handleParsed blake3 parsed
      = (command.output parsed built,
        if parsed.errors.isEmpty then .ok ()
        else .error (.invalid "Takeout parse produced parser errors")) := by
    unfold TakeoutParseCommand.handleParsed
    rw [h.build]
    cases parsed.errors <;> rfl
  unfold TakeoutParseCommand.execute
  rw [if_neg (by simpa using hroot)]
  dsimp only
  split
  · rw [hhandled]
  · next hne =>
    rcases hreport with hpath | hwritten
    · rw [hpath] at hne
      exact absurd rfl hne
    · rw [hwritten, hhandled]

/-- The command accepts everything the parser emits. -/
theorem parse_accepted (blake3 : Bytes → Digest) (strerror : Nat → Bytes)
    (answers : Nat → String → Except Status Unit) (sources : Sources)
    (order : HashOrder) (tree : DirectoryTree) (parsed : TakeoutParseResult)
    (h : parse strerror answers sources order tree.entries = .ok (some parsed)) :
    ∃ built records, Accepted blake3 parsed built records
      ∧ ∀ (command : TakeoutParseCommand) (stream : ReportStream),
        command.rootPath ≠ [] →
        (command.errorReportPath = []
          ∨ writeErrorReport stream command.errorReportPath parsed.errors
            = some (.ok ())) →
        command.execute blake3 stream
            (parse strerror answers sources order tree.entries)
          = some (command.output parsed built,
            if parsed.errors.isEmpty then .ok ()
            else .error (.invalid "Takeout parse produced parser errors")) := by
  obtain ⟨built, records, haccepted⟩ := (parse_consistent h).accepted blake3
  refine ⟨built, records, haccepted, fun command stream hroot hreport => ?_⟩
  rw [h]
  exact haccepted.execute command stream hroot hreport

end Command

-- =============================================================== a folder

section Album

def albumFile : Node := .node ⟨0o100644, 1, 2, 2, ⟨3, 4⟩, ⟨5, 6⟩⟩ []

/-- A photo in two formats, and another with its sidecar. -/
def albumEntries : Entries :=
  ["a.dng", "a.jpg", "b.jpg", "b.json"].map fun name => (text name, albumFile)

/-- There are only files in the album. -/
theorem albumEntries_file {name : Bytes} {node : Node}
    (h : (name, node) ∈ albumEntries) : node.value.isDirectory = false := by
  obtain ⟨known, -, heq⟩ := List.mem_map.1 h
  cases heq
  rfl

/-- The album is a directory. -/
theorem isDirectory_album : IsDirectory albumEntries where
  distinct := by decide +kernel
  names := by
    have hname : ∀ s ∈ ["a.dng", "a.jpg", "b.jpg", "b.json"],
        IsFileName (text s) := by
      intro s hs
      simp only [List.mem_cons, List.not_mem_nil, or_false] at hs
      rcases hs with rfl | rfl | rfl | rfl <;> constructor <;> decide +kernel
    intro entry hentry
    obtain ⟨name, hname', rfl⟩ := List.mem_map.1 hentry
    exact hname name hname'

def albumTree : DirectoryTree where
  entries := albumEntries
  directories := {
    here := isDirectory_album
    down := by
      intro components node h henter
      cases h with
      | here hmem =>
          rw [albumEntries_file hmem] at henter
          cases henter
      | down hmem hparent _ =>
          rw [albumEntries_file hmem] at hparent
          cases hparent }

def titleDocument : Json := .object [(text "title", .string (text "B"))]

/-- Files of two bytes, each a document with a title. -/
def titled : Sources where
  openSource := fun _ => .ok ()
  read := fun _ offset count =>
    .ok ⟨if offset = 0 then [123, 125].take count else [], by split <;> simp⟩
  parseJson := fun _ => .value titleDocument

/-- Every sidecar of the album is read. -/
private theorem readBounded_titled (path : RelativePath) :
    readBounded (titled.read path) (2 : UInt64) = .ok [123, 125] := by
  unfold readBounded
  simp [readLoop, titled, maximumJsonBytes, bind, Except.bind, pure,
    Except.pure]

/-- What an entry adds then. -/
def titledPart (entry : DirectoryEntry) : TakeoutParseResult :=
  match classifyPhysicalAsset entry with
  | none => {}
  | some asset => { assets := [asset] } ++
      if asset.kind = .unknown then
        addError asset.relativePath "unknown_file_kind" (text
          "regular file has no supported Takeout media or sidecar type")
      else if !isJsonAsset asset.kind then {}
      else extractMetadataCandidates asset titleDocument

/-- Every entry of the album is parsed. -/
theorem parseEntry_titled {entry : DirectoryEntry}
    (h : entry.identity.size = 2) :
    parseEntry titled entry = some (titledPart entry) := by
  unfold parseEntry titledPart
  cases hasset : classifyPhysicalAsset entry with
  | none => rfl
  | some asset =>
      have hsize : asset.identity.size = 2 := by
        unfold classifyPhysicalAsset at hasset
        split at hasset
        · cases hasset
        · cases hasset
          exact h
      dsimp only
      unfold parseAsset parseJsonAsset
      dsimp only
      rw [hsize, readBounded_titled]
      split
      · rfl
      · split <;> rfl

/-- Every name of the album is a path. -/
theorem albumEntries_parsed : ∀ entry ∈ albumEntries,
    checkRelativePath entry.1 = .ok [entry.1] := by
  decide +kernel

/-- The entries the walk finds. -/
def albumFound : List DirectoryEntry :=
  albumEntries.attach.map fun entry =>
    ⟨⟨entry.1.1, [entry.1.1], albumEntries_parsed entry.1 entry.2⟩,
      ⟨1, 2, 2, 3000000004, 5000000006, none⟩, .regularFile⟩

/-- The walk finds both files. -/
theorem walkRoot_album :
    walkRoot (fun _ => []) (fun _ _ => .ok ()) albumEntries {}
      = .ok ((), ⟨albumFound, 14⟩) := by
  unfold walkRoot walk
  rw [walkDirectory]
  rfl

def albumParsed : TakeoutParseResult :=
  sortResult (gather (albumFound.map titledPart)
    ++ addRelationErrorsAndCandidates insertionOrder
      (gather (albumFound.map titledPart)).assets)

/-- The album is parsed. -/
theorem parse_album :
    parse (fun _ => []) (fun _ _ => .ok ()) titled insertionOrder
      albumTree.entries = .ok (some albumParsed) := by
  have hparts : albumFound.mapM (parseEntry titled)
      = some (albumFound.map titledPart) := by
    refine mapM_some.2 (List.forall₂_map_right_iff.2 (List.forall₂_same.2 ?_))
    intro entry hentry
    obtain ⟨found, -, rfl⟩ := List.mem_map.1 hentry
    exact parseEntry_titled rfl
  show parse _ _ _ _ albumEntries = _
  unfold parse
  rw [walkRoot_album]
  dsimp only
  unfold parseEntries
  rw [hparts]
  rfl

/-- Two relations, one of them a composition, and a candidate. -/
theorem parse_accepted_album :
    albumParsed.relations.length = 2 ∧ albumParsed.candidates.length = 1
      ∧ ∃ built records, Accepted (fun _ => .zero) albumParsed built records
        ∧ (TakeoutParseCommand.mk (text "/takeout") []).execute (fun _ => .zero)
            ⟨true, fun _ => true, ⟨fun _ => .ok [], fun _ => .ok .null⟩⟩
            (parse (fun _ => []) (fun _ _ => .ok ()) titled insertionOrder
              albumTree.entries)
          = some ((TakeoutParseCommand.mk (text "/takeout") []).output
            albumParsed built, .ok ()) := by
  obtain ⟨built, records, haccepted, hexecute⟩ := parse_accepted
    (fun _ => .zero) (fun _ => []) (fun _ _ => .ok ()) titled insertionOrder
    albumTree albumParsed parse_album
  have herrors : albumParsed.errors = [] := by decide +kernel
  refine ⟨by decide +kernel, by decide +kernel, built, records, haccepted, ?_⟩
  rw [hexecute ⟨text "/takeout", []⟩ _ (by decide +kernel) (.inl rfl), herrors]
  rfl

end Album

end PhotoBridge.Takeout
