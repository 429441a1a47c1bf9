/-
A parse does not depend on the order in which its entries come, nor on
that of the hash maps (`parse_order_independent`).

Before it is sorted, the result is the same up to order: the outcomes of
the assets depend on the assets as a set. Sorting makes one result of
these, because each comparator tells apart what the result can hold: a
path has one asset, two files have one relation, and a file one candidate
for each field (`Separated`).
-/
import PhotoBridge.Lib.Joining
import PhotoBridge.Takeout.Proofs.Reports
import PhotoBridge.Takeout.Proofs.Timestamp

namespace PhotoBridge.Takeout

open JsonText Sorting Joining

variable {sources : Sources} {order order' : HashOrder}
  {entries entries' : List DirectoryEntry}

/-- What `Parse` sorts. -/
def unsortedResult (sources : Sources) (order : HashOrder)
    (entries : List DirectoryEntry) : Option TakeoutParseResult := do
  let parts ← entries.mapM (parseEntry sources)
  let result := gather parts
  pure (result ++ addRelationErrorsAndCandidates order result.assets)

/-- Parsing is sorting what was found. -/
theorem parseEntries_eq (sources : Sources) (order : HashOrder)
    (entries : List DirectoryEntry) :
    parseEntries sources order entries
      = (unsortedResult sources order entries).map sortResult := by
  unfold parseEntries unsortedResult
  cases entries.mapM (parseEntry sources) <;> rfl

-- ========================================================== rearrangement

section Rearrangement

variable {assets assets' : List PhysicalAsset}

/-- The media files of a key do not depend on the order of the assets, up
to theirs. -/
private theorem mediaWith_perm (h : assets.Perm assets') (key : Bytes) :
    (mediaWith assets key).Perm (mediaWith assets' key) :=
  (h.filter _).filter _

/-- The sidecars of a key do not, either. -/
private theorem sidecarsWith_perm (h : assets.Perm assets') (key : Bytes) :
    (sidecarsWith assets key).Perm (sidecarsWith assets' key) :=
  (h.filter _).filter _

/-- The media files a sidecar's name is cut from do not, either. -/
theorem cutFrom_perm (h : assets.Perm assets') (sidecar : PhysicalAsset) :
    (cutFrom assets sidecar).Perm (cutFrom assets' sidecar) :=
  (h.filter _).filter _

/-- Whether a search relates a group does not depend on its order. -/
theorem PairSearch.relates_perm (search : PairSearch)
    (h : assets.Perm assets') :
    search.relates assets = search.relates assets' := by
  have hfirsts : (search.firsts assets).Perm (search.firsts assets') :=
    h.filter _
  have hseconds : (search.seconds assets).Perm (search.seconds assets') :=
    h.filter _
  unfold PairSearch.relates
  rw [hfirsts.isEmpty_eq, hseconds.isEmpty_eq]

/-- What a search reports about an asset does not depend on the order of
the group. -/
theorem PairSearch.outcome_perm (search : PairSearch)
    (h : assets.Perm assets') (asset : PhysicalAsset) :
    search.outcome assets asset = search.outcome assets' asset := by
  have hfirsts : (search.firsts assets).Perm (search.firsts assets') :=
    h.filter _
  have hseconds : (search.seconds assets).Perm (search.seconds assets') :=
    h.filter _
  unfold PairSearch.outcome
  rw [single_perm hfirsts, single_perm hseconds, search.relates_perm h]

/-- What is reported about a sidecar does not depend on the order of the
assets. -/
theorem sidecarOutcome_perm (h : assets.Perm assets')
    (sidecar : PhysicalAsset) :
    sidecarOutcome assets sidecar = sidecarOutcome assets' sidecar := by
  unfold sidecarOutcome unmatchedOutcome
  rw [single_perm (mediaWith_perm h _), single_perm (sidecarsWith_perm h _),
    single_perm (cutFrom_perm h _), (mediaWith_perm h _).isEmpty_eq,
    (cutFrom_perm h _).isEmpty_eq]

/-- Whether a media file has a sidecar cut from its name does not, either.
-/
theorem hasWeakSidecar_perm (h : assets.Perm assets') (media : PhysicalAsset) :
    hasWeakSidecar assets media = hasWeakSidecar assets' media := by
  unfold hasWeakSidecar
  rw [Bool.eq_iff_iff, List.any_eq_true, List.any_eq_true]
  simp only [h.mem_iff, (mediaWith_perm h _).isEmpty_eq,
    single_perm (cutFrom_perm h _)]

/-- What is reported about a media file does not depend on the order of the
assets. -/
theorem mediaOutcome_perm (h : assets.Perm assets') (media : PhysicalAsset) :
    mediaOutcome assets media = mediaOutcome assets' media := by
  unfold mediaOutcome isMissingSidecar
  rw [rawJpegSearch.outcome_perm (mediaWith_perm h _),
    livePhotoSearch.outcome_perm (mediaWith_perm h _),
    rawJpegSearch.relates_perm (mediaWith_perm h _),
    livePhotoSearch.relates_perm (mediaWith_perm h _),
    (sidecarsWith_perm h _).isEmpty_eq, hasWeakSidecar_perm h]

/-- An outcome depends on the assets as a set. -/
theorem outcome_perm (h : assets.Perm assets') :
    outcome assets = outcome assets' := by
  funext asset
  unfold outcome
  rw [mediaOutcome_perm h, sidecarOutcome_perm h]

/-- Neither the order of the assets nor that of the hash tables matters to
what is reported, but for the order it is reported in. -/
theorem addRelationErrorsAndCandidates_perm (order order' : HashOrder)
    (h : assets.Perm assets') :
    Agree (addRelationErrorsAndCandidates order assets)
      (addRelationErrorsAndCandidates order' assets') := by
  have hgather : Agree (gather (assets.map (outcome assets)))
      (gather (assets'.map (outcome assets'))) := by
    rw [outcome_perm h]
    exact gather_perm (h.map _)
  exact ((outcomes_agree order assets).trans hgather).trans
    (outcomes_agree order' assets').symm

/-- Unsorted, the result is the same up to order. -/
theorem unsortedResult_agree {unsorted : TakeoutParseResult}
    (hperm : entries.Perm entries') (order' : HashOrder)
    (h : unsortedResult sources order entries = some unsorted) :
    ∃ unsorted', unsortedResult sources order' entries' = some unsorted'
      ∧ Agree unsorted unsorted' := by
  obtain ⟨parts, hparts, hunsorted⟩ := Option.bind_eq_some_iff.1 h
  cases hunsorted
  rw [mapM_some] at hparts
  obtain ⟨parts', hpartsPerm, hparts'⟩ := forall₂_perm hparts.flip hperm
  have hagree := gather_perm hpartsPerm.symm
  refine ⟨_, Option.bind_eq_some_iff.2
    ⟨parts', mapM_some.2 hparts'.flip, rfl⟩, ?_⟩
  exact hagree.append
    (addRelationErrorsAndCandidates_perm order order' hagree.assets)

end Rearrangement

-- ============================================================= comparators

/-- The comparison of assets is one to sort by. -/
private theorem assetBefore_comparator : Comparator assetBefore :=
  bytesLess_comparator.comap fun asset : PhysicalAsset =>
    asset.relativePath.bytes

/-- The comparison of relations is one to sort by. -/
private theorem relationBefore_comparator : Comparator relationBefore :=
  (bytesLess_comparator.comap _).thenBy
    ((bytesLess_comparator.comap _).thenBy (bytesLess_comparator.comap _))

/-- The comparison of candidates is one to sort by. -/
private theorem candidateBefore_comparator : Comparator candidateBefore :=
  (bytesLess_comparator.comap _).thenBy
    ((Comparator.of_lt.comap _).thenBy
      ((bytesLess_comparator.comap _).thenBy (bytesLess_comparator.comap _)))

/-- The comparison of errors is one to sort by. -/
private theorem errorBefore_comparator : Comparator errorBefore :=
  (bytesLess_comparator.comap _).thenBy
    ((bytesLess_comparator.comap _).thenBy (bytesLess_comparator.comap _))

/-- The comparators of `SortResult` tell apart what they sort. -/
structure Separated (result : TakeoutParseResult) : Prop where
  assets : Separates assetBefore result.assets
  candidates : Separates candidateBefore result.candidates
  relations : Separates relationBefore result.relations
  errors : Separates errorBefore result.errors

/-- Results with the same contents are sorted into the same result, if
nothing in them is left tied. -/
theorem sortResult_congr {a b : TakeoutParseResult} (h : Agree a b)
    (ha : Separated a) : sortResult a = sortResult b := by
  unfold sortResult
  rw [sortBy_congr assetBefore_comparator ha.assets h.assets,
    sortBy_congr candidateBefore_comparator ha.candidates h.candidates,
    sortBy_congr relationBefore_comparator ha.relations h.relations,
    sortBy_congr errorBefore_comparator ha.errors h.errors]

/-- Errors are told apart whatever they are. -/
theorem errorBefore_separates (errors : List TakeoutParserError) :
    Separates errorBefore errors := by
  rintro ⟨path, code, message⟩ - ⟨path', code', message'⟩ - hab hba
  obtain ⟨hpath, hrest⟩ := thenBy_eq_false.1 hab
  obtain ⟨hpath', hrest'⟩ := thenBy_eq_false.1 hba
  obtain ⟨hcode, hlast⟩ := thenBy_eq_false.1 (hrest hpath')
  obtain ⟨hcode', hlast'⟩ := thenBy_eq_false.1 (hrest' hpath)
  obtain rfl := RelativePath.eq_of_bytes (bytesLess_antisymm hpath hpath')
  obtain rfl := bytesLess_antisymm hcode hcode'
  obtain rfl := bytesLess_antisymm (hlast hcode') (hlast' hcode)
  rfl

/-- Relations between different files are told apart. -/
theorem relationBefore_separates {relations : List SourceRelationCandidate}
    (h : ∀ a ∈ relations, ∀ b ∈ relations, a.mediaAssetId = b.mediaAssetId →
      a.sidecarAssetId = b.sidecarAssetId → a = b) :
    Separates relationBefore relations := by
  intro a ha b hb hab hba
  obtain ⟨hmedia, hrest⟩ := thenBy_eq_false.1 hab
  obtain ⟨hmedia', hrest'⟩ := thenBy_eq_false.1 hba
  obtain ⟨hsidecar, -⟩ := thenBy_eq_false.1 (hrest hmedia')
  obtain ⟨hsidecar', -⟩ := thenBy_eq_false.1 (hrest' hmedia)
  exact h a ha b hb (bytesLess_antisymm hmedia hmedia')
    (bytesLess_antisymm hsidecar hsidecar')

/-- Candidates for different fields of a file are told apart. -/
theorem candidateBefore_separates {candidates : List MetadataCandidate}
    (h : ∀ a ∈ candidates, ∀ b ∈ candidates, a.assetId = b.assetId →
      a.field = b.field → a = b) :
    Separates candidateBefore candidates := by
  intro a ha b hb hab hba
  obtain ⟨hasset, hrest⟩ := thenBy_eq_false.1 hab
  obtain ⟨hasset', hrest'⟩ := thenBy_eq_false.1 hba
  obtain ⟨hfield, -⟩ := thenBy_eq_false.1 (hrest hasset')
  obtain ⟨hfield', -⟩ := thenBy_eq_false.1 (hrest' hasset)
  have hnumber : a.field.number = b.field.number := by
    have h₁ := of_decide_eq_false hfield
    have h₂ := of_decide_eq_false hfield'
    omega
  refine h a ha b hb (bytesLess_antisymm hasset hasset') ?_
  cases hleft : a.field <;> cases hright : b.field <;>
    rw [hleft, hright] at hnumber <;> first | rfl | cases hnumber

-- =============================================================== gathering

section Gathering

variable (parts : List TakeoutParseResult)

/-- The assets of what is gathered. -/
theorem assets_gather :
    (gather parts).assets = parts.flatMap (·.assets) := by
  induction parts with
  | nil => rfl
  | cons part rest ih =>
      rw [List.flatMap_cons, ← ih]
      rfl

/-- The candidates of what is gathered. -/
theorem candidates_gather :
    (gather parts).candidates = parts.flatMap (·.candidates) := by
  induction parts with
  | nil => rfl
  | cons part rest ih =>
      rw [List.flatMap_cons, ← ih]
      rfl

/-- The relations of what is gathered. -/
theorem relations_gather :
    (gather parts).relations = parts.flatMap (·.relations) := by
  induction parts with
  | nil => rfl
  | cons part rest ih =>
      rw [List.flatMap_cons, ← ih]
      rfl

end Gathering

-- =============================================================== relations

section Relations

variable {assets : List PhysicalAsset} {asset a b : PhysicalAsset}
  {relation relation' : SourceRelationCandidate}

/-- The relations there are between two files. What the second file is
tells which. -/
inductive Relates (media second : PhysicalAsset) :
    SourceRelationCandidate → Prop
  | rawJpeg : isMedia second = true → isJpeg second = true →
      Relates media second (rawJpegSearch.relate media second)
  | livePhoto : isMedia second = true → isMotion second = true →
      Relates media second (livePhotoSearch.relate second media)
  | sidecar : isSidecar second.kind = true →
      Relates media second (sidecarRelation media second)

/-- A relation between two assets has their ids. -/
theorem Relates.ids (h : Relates a b relation) :
    relation.mediaAssetId = physicalAssetIdFor a
      ∧ relation.sidecarAssetId = physicalAssetIdFor b := by
  cases h <;> exact ⟨rfl, rfl⟩

/-- A media file is no sidecar. -/
private theorem isMedia_not_sidecar (h : isMedia asset = true)
    (h' : isSidecar asset.kind = true) : False := by
  have hmedia := (@outcome_sidecar [] asset h').1
  rw [hmedia] at h
  cases h

/-- A JPEG is no motion file. -/
theorem isJpeg_not_motion (h : isJpeg asset = true)
    (h' : isMotion asset = true) : False := by
  have hmov : asset.extension = text "mov" := by
    simpa [isMotion, hasExtension] using h'
  unfold isJpeg hasExtension at h
  rw [hmov] at h
  exact absurd h (by decide)

/-- Two assets are related in one way at most. -/
theorem Relates.unique (h : Relates a b relation) (h' : Relates a b relation') :
    relation = relation' := by
  cases h with
  | rawJpeg hmedia hjpeg =>
      cases h' with
      | rawJpeg => rfl
      | livePhoto _ hmotion => exact (isJpeg_not_motion hjpeg hmotion).elim
      | sidecar hsidecar => exact (isMedia_not_sidecar hmedia hsidecar).elim
  | livePhoto hmedia hmotion =>
      cases h' with
      | rawJpeg _ hjpeg => exact (isJpeg_not_motion hjpeg hmotion).elim
      | livePhoto => rfl
      | sidecar hsidecar => exact (isMedia_not_sidecar hmedia hsidecar).elim
  | sidecar hsidecar =>
      cases h' with
      | rawJpeg hmedia _ => exact (isMedia_not_sidecar hmedia hsidecar).elim
      | livePhoto hmedia _ => exact (isMedia_not_sidecar hmedia hsidecar).elim
      | sidecar => rfl

/-- What an outcome relates. -/
theorem outcome_relates (hasset : asset ∈ assets)
    (h : relation ∈ (outcome assets asset).relations) :
    ∃ media ∈ assets, ∃ second ∈ assets, Relates media second relation := by
  unfold outcome at h
  split at h
  · next hkind =>
    obtain ⟨search, hsearch, second, hfirsts, hseconds, rfl⟩ :=
      mediaOutcome_relation hasset hkind h
    obtain ⟨hfirstIn, hfirst⟩ := PairSearch.mem_firsts hfirsts
    obtain ⟨hsecondIn, hsecond⟩ := PairSearch.mem_seconds hseconds
    obtain ⟨⟨hmem, hmedia⟩, -⟩ := mem_mediaWith.1 hsecondIn
    rcases List.mem_pair.1 hsearch with rfl | rfl
    · exact ⟨asset, hasset, second, hmem, .rawJpeg hmedia hsecond⟩
    · exact ⟨second, hmem, asset, hasset, .livePhoto hkind hfirst⟩
  · split at h
    · next hkind =>
      rcases sidecarOutcome_cases assets asset with
        ⟨media, hmedia, hrelation⟩ | ⟨code, message, herror⟩
      · rw [hrelation] at h
        rw [List.mem_singleton.1 h]
        exact ⟨media, (mem_mediaWith.1 hmedia).1.1, asset, hasset,
          .sidecar hkind⟩
      · rw [herror] at h
        cases h
    · cases h

/-- Two files have one relation at most. -/
theorem relations_separated (order : HashOrder)
    (hids : ∀ a ∈ assets, ∀ b ∈ assets,
      physicalAssetIdFor a = physicalAssetIdFor b → a = b) :
    Separates relationBefore
      (addRelationErrorsAndCandidates order assets).relations := by
  have hperm := (outcomes_agree order assets).relations
  rw [relations_gather, List.flatMap_map] at hperm
  have hrelates : ∀ relation ∈ assets.flatMap fun a => (outcome assets a).relations,
      ∃ media ∈ assets, ∃ second ∈ assets, Relates media second relation := by
    intro relation hmem
    obtain ⟨asset, hasset, hrelation⟩ := List.mem_flatMap.1 hmem
    exact outcome_relates hasset hrelation
  refine (relationBefore_separates fun r hr r' hr' hmedia hsidecar => ?_).perm
    hperm.symm
  obtain ⟨a, ha, b, hb, hrelates₁⟩ := hrelates r hr
  obtain ⟨a', ha', b', hb', hrelates₂⟩ := hrelates r' hr'
  rw [hrelates₁.ids.1, hrelates₂.ids.1] at hmedia
  rw [hrelates₁.ids.2, hrelates₂.ids.2] at hsidecar
  obtain rfl := hids a ha a' ha' hmedia
  obtain rfl := hids b hb b' hb' hsidecar
  exact hrelates₁.unique hrelates₂

end Relations

-- =================================================================== parts

section Parts

variable {asset : PhysicalAsset} {added other : TakeoutParseResult}
  {fields fields' : List MetadataField}

/-- What is added of an asset's file: candidates of the asset, for some of
the fields, and errors. -/
structure Describes (asset : PhysicalAsset) (fields : List MetadataField)
    (added : TakeoutParseResult) : Prop where
  assets : added.assets = []
  relations : added.relations = []
  ids : ∀ candidate ∈ added.candidates,
    candidate.assetId = physicalAssetIdFor asset
  fields : (added.candidates.map (·.field)).Sublist fields

/-- Nothing describes any asset. -/
private theorem describes_empty : Describes asset fields {} :=
  ⟨rfl, rfl, nofun, List.nil_sublist _⟩

/-- An error describes any asset: it holds no candidates. -/
private theorem describes_addError (path : RelativePath) (code : String)
    (message : Bytes) : Describes asset fields (addError path code message) :=
  ⟨rfl, rfl, nofun, List.nil_sublist _⟩

/-- Two descriptions of one asset, of different fields. -/
theorem Describes.append (h : Describes asset fields added)
    (h' : Describes asset fields' other) :
    Describes asset (fields ++ fields') (added ++ other) where
  assets := by
    show added.assets ++ other.assets = []
    rw [h.assets, h'.assets]
    rfl
  relations := by
    show added.relations ++ other.relations = []
    rw [h.relations, h'.relations]
    rfl
  ids := fun candidate hmem =>
    (List.mem_append.1 hmem).elim (h.ids candidate) (h'.ids candidate)
  fields := by
    rw [candidates_append, List.map_append]
    exact h.fields.append h'.fields

/-- A candidate that is added describes its field. -/
theorem describes_addCandidate (asset : PhysicalAsset) (field : MetadataField)
    (value : MetadataValue) (rule : String) (evidence : Bytes) :
    Describes asset [field] (addCandidate asset field value rule evidence) := by
  unfold addCandidate
  split
  · exact describes_addError ..
  split
  · exact describes_addError ..
  split
  · exact describes_addError ..
  · refine ⟨rfl, rfl, fun candidate hmem => ?_, List.Sublist.refl _⟩
    rw [List.mem_singleton.1 hmem]

/-- A field read from a sidecar describes itself. -/
theorem JsonField.describes (field : JsonField) (asset : PhysicalAsset)
    (document : Json) :
    Describes asset [field.field] (field.extract asset document) := by
  unfold JsonField.extract
  split
  · exact describes_empty
  split
  · exact describes_addError ..
  · exact describes_addCandidate ..

/-- The time taken describes its field. -/
theorem describes_extractTakenTime (asset : PhysicalAsset) (document : Json) :
    Describes asset [.takenTime] (extractTakenTime asset document) := by
  unfold extractTakenTime
  split
  · exact describes_empty
  split
  · exact describes_addError ..
  split
  · exact describes_empty
  unfold extractTimestamp
  split
  · exact describes_addError ..
  split
  · exact describes_addError ..
  · exact describes_addCandidate ..

/-- The fields of a candidate, in the order they are looked for. -/
def extractedFields : List MetadataField :=
  [.title, .description, .favorite, .takenTime]

/-- What is read from one sidecar describes its fields, each once. -/
theorem describes_extractMetadataCandidates (asset : PhysicalAsset)
    (document : Json) :
    Describes asset extractedFields
      (extractMetadataCandidates asset document) := by
  unfold extractMetadataCandidates
  split
  · exact describes_addError ..
  · exact (((titleField.describes asset document).append
      (descriptionField.describes asset document)).append
      (favoriteField.describes asset document)).append
      (describes_extractTakenTime asset document)

/-- What is parsed of one asset describes it. -/
theorem describes_parseAsset (h : parseAsset sources asset = some added) :
    Describes asset extractedFields added := by
  unfold parseAsset at h
  split at h
  · cases h
    exact describes_addError ..
  split at h
  · cases h
    exact describes_empty
  unfold parseJsonAsset at h
  dsimp only at h
  split at h
  · cases h
    exact describes_addError ..
  split at h
  · cases h
    exact describes_addError ..
  split at h
  · cases h
    exact describes_extractMetadataCandidates ..
  · cases h
    exact describes_addError ..
  · cases h

end Parts

-- ================================================================= entries

section Entries

variable {entry : DirectoryEntry} {asset : PhysicalAsset}
  {part : TakeoutParseResult}

/-- An asset has the path of its entry. -/
theorem classifyPhysicalAsset_path
    (h : classifyPhysicalAsset entry = some asset) :
    asset.relativePath = entry.relativePath := by
  unfold classifyPhysicalAsset at h
  split at h
  · cases h
  · rw [← Option.some.inj h]

/-- What is added of an entry: its asset, and what its file adds. -/
structure OfEntry (entry : DirectoryEntry) (part : TakeoutParseResult) :
    Prop where
  assets : ∀ asset ∈ part.assets, classifyPhysicalAsset entry = some asset
  relations : part.relations = []
  ids : ∀ candidate ∈ part.candidates,
    ∃ asset, classifyPhysicalAsset entry = some asset
      ∧ candidate.assetId = physicalAssetIdFor asset
  fields : (part.candidates.map (·.field)).Nodup

/-- What is parsed of an entry is of that entry. -/
theorem parseEntry_ofEntry (h : parseEntry sources entry = some part) :
    OfEntry entry part := by
  unfold parseEntry at h
  split at h
  · cases h
    exact ⟨nofun, rfl, nofun, .nil⟩
  · next asset hasset =>
    obtain ⟨added, hadded, hpart⟩ := Option.bind_eq_some_iff.1 h
    obtain rfl := Option.some.inj hpart
    have hdescribes := describes_parseAsset hadded
    refine ⟨fun other hother => ?_, hdescribes.relations, fun candidate hmem =>
      ⟨asset, hasset, hdescribes.ids candidate hmem⟩,
      hdescribes.fields.nodup (by decide)⟩
    have hassets : other ∈ [asset] ++ added.assets := hother
    rw [hdescribes.assets, List.append_nil, List.mem_singleton] at hassets
    rw [hassets, hasset]

/-- The entries and the parts they add. -/
abbrev Parsed (sources : Sources) (entries : List DirectoryEntry)
    (parts : List TakeoutParseResult) : Prop :=
  List.Forall₂ (fun entry part => parseEntry sources entry = some part)
    entries parts

variable {parts : List TakeoutParseResult}

/-- Every asset is that of an entry. -/
theorem parsed_asset (h : Parsed sources entries parts)
    (hasset : asset ∈ (gather parts).assets) :
    ∃ entry ∈ entries, classifyPhysicalAsset entry = some asset := by
  rw [assets_gather] at hasset
  obtain ⟨part, hpart, hmem⟩ := List.mem_flatMap.1 hasset
  obtain ⟨entry, hentry, hparsed⟩ := forall₂_exists_left h hpart
  exact ⟨entry, hentry, (parseEntry_ofEntry hparsed).assets asset hmem⟩

/-- Assets with one path are one asset. -/
theorem parsed_asset_inj (h : Parsed sources entries parts)
    (hpaths : (entries.map (·.relativePath)).Nodup) {a b : PhysicalAsset}
    (ha : a ∈ (gather parts).assets) (hb : b ∈ (gather parts).assets)
    (hpath : a.relativePath = b.relativePath) : a = b := by
  obtain ⟨entry, hentry, hclassify⟩ := parsed_asset h ha
  obtain ⟨entry', hentry', hclassify'⟩ := parsed_asset h hb
  rw [classifyPhysicalAsset_path hclassify,
    classifyPhysicalAsset_path hclassify'] at hpath
  obtain rfl := List.inj_on_of_nodup_map hpaths hentry hentry' hpath
  rw [hclassify] at hclassify'
  exact Option.some.inj hclassify'

/-- Candidates for one field of one file are one candidate. -/
theorem parsed_candidate_inj (h : Parsed sources entries parts)
    (hpaths : (entries.map (·.relativePath)).Nodup) {a b : MetadataCandidate}
    (ha : a ∈ (gather parts).candidates) (hb : b ∈ (gather parts).candidates)
    (hid : a.assetId = b.assetId) (hfield : a.field = b.field) : a = b := by
  rw [candidates_gather] at ha hb
  obtain ⟨part, hpart, hmem⟩ := List.mem_flatMap.1 ha
  obtain ⟨part', hpart', hmem'⟩ := List.mem_flatMap.1 hb
  obtain ⟨entry, hentry, hparsed⟩ := forall₂_exists_left h hpart
  obtain ⟨entry', hentry', hparsed'⟩ := forall₂_exists_left h hpart'
  obtain ⟨asset, hasset, hassetId⟩ := (parseEntry_ofEntry hparsed).ids a hmem
  obtain ⟨asset', hasset', hassetId'⟩ := (parseEntry_ofEntry hparsed').ids b hmem'
  have hpath : entry.relativePath = entry'.relativePath := by
    rw [← classifyPhysicalAsset_path hasset, ← classifyPhysicalAsset_path hasset']
    rw [hassetId, hassetId'] at hid
    exact RelativePath.eq_of_bytes (physicalAssetIdFor_inj hid)
  obtain rfl := List.inj_on_of_nodup_map hpaths hentry hentry' hpath
  obtain rfl : part = part' := Option.some.inj (hparsed.symm.trans hparsed')
  exact List.inj_on_of_nodup_map (parseEntry_ofEntry hparsed).fields hmem hmem'
    hfield

/-- A result with relations and errors only. -/
structure Bare (result : TakeoutParseResult) : Prop where
  assets : result.assets = []
  candidates : result.candidates = []

/-- What holds no assets and no candidates, put together. -/
theorem Bare.append {a b : TakeoutParseResult} (ha : Bare a) (hb : Bare b) :
    Bare (a ++ b) where
  assets := by
    show a.assets ++ b.assets = []
    rw [ha.assets, hb.assets]
    rfl
  candidates := by
    rw [candidates_append, ha.candidates, hb.candidates]
    rfl

/-- A search reports no assets and no candidates. -/
theorem PairSearch.outcome_bare (search : PairSearch)
    (media : List PhysicalAsset) (asset : PhysicalAsset) :
    Bare (search.outcome media asset) := by
  unfold PairSearch.outcome
  split <;> split <;> exact ⟨rfl, rfl⟩

/-- Relating the assets adds no assets and no candidates. -/
theorem outcome_bare (assets : List PhysicalAsset) (asset : PhysicalAsset) :
    Bare (outcome assets asset) := by
  unfold outcome
  split
  · refine ((rawJpegSearch.outcome_bare _ asset).append
      (livePhotoSearch.outcome_bare _ asset)).append ?_
    split <;> exact ⟨rfl, rfl⟩
  split
  · rcases sidecarOutcome_cases assets asset with
      ⟨media, -, hrelation⟩ | ⟨code, message, herror⟩
    · rw [hrelation]
      exact ⟨rfl, rfl⟩
    · rw [herror]
      exact ⟨rfl, rfl⟩
  · exact ⟨rfl, rfl⟩

/-- The relations of files add no assets and no candidates. -/
theorem addRelationErrorsAndCandidates_bare (order : HashOrder)
    (assets : List PhysicalAsset) :
    Bare (addRelationErrorsAndCandidates order assets) := by
  have hagree := outcomes_agree order assets
  have hassets := hagree.assets
  have hcandidates := hagree.candidates
  rw [assets_gather, List.flatMap_map, List.flatMap_eq_nil_iff.2
    fun asset _ => (outcome_bare assets asset).assets] at hassets
  rw [candidates_gather, List.flatMap_map, List.flatMap_eq_nil_iff.2
    fun asset _ => (outcome_bare assets asset).candidates] at hcandidates
  exact ⟨hassets.eq_nil, hcandidates.eq_nil⟩

/-- What a parse sorts is told apart. -/
theorem unsortedResult_separated {unsorted : TakeoutParseResult}
    (hpaths : (entries.map (·.relativePath)).Nodup)
    (h : unsortedResult sources order entries = some unsorted) :
    Separated unsorted := by
  obtain ⟨parts, hparts, hunsorted⟩ := Option.bind_eq_some_iff.1 h
  obtain rfl := Option.some.inj hunsorted
  have hparsed : Parsed sources entries parts := mapM_some.1 hparts
  have hbare := addRelationErrorsAndCandidates_bare order (gather parts).assets
  have hrelations : (gather parts).relations = [] := by
    rw [relations_gather, List.flatMap_eq_nil_iff]
    intro part hpart
    obtain ⟨entry, -, hentry⟩ := forall₂_exists_left hparsed hpart
    exact (parseEntry_ofEntry hentry).relations
  refine ⟨?_, ?_, ?_, errorBefore_separates _⟩
  · show Separates assetBefore ((gather parts).assets ++ _)
    rw [hbare.assets, List.append_nil]
    intro a ha b hb hab hba
    exact parsed_asset_inj hparsed hpaths ha hb
      (RelativePath.eq_of_bytes (bytesLess_antisymm hab hba))
  · rw [candidates_append, hbare.candidates, List.append_nil]
    exact candidateBefore_separates fun a ha b hb =>
      parsed_candidate_inj hparsed hpaths ha hb
  · show Separates relationBefore ((gather parts).relations ++ _)
    rw [hrelations, List.nil_append]
    exact relations_separated order fun a ha b hb hid =>
      parsed_asset_inj hparsed hpaths ha hb
        (RelativePath.eq_of_bytes (physicalAssetIdFor_inj hid))

/-- A parse depends on the entries as a set, and its comparators tell apart
all that it sorts. -/
theorem parse_order_independent (sources : Sources) (order order' : HashOrder)
    (entries entries' : List DirectoryEntry)
    (hpaths : (entries.map (·.relativePath)).Nodup)
    (hperm : entries.Perm entries') :
    parseEntries sources order entries = parseEntries sources order' entries'
      ∧ ∀ unsorted, unsortedResult sources order entries = some unsorted →
        parseEntries sources order entries = some (sortResult unsorted)
          ∧ Separated unsorted := by
  rw [parseEntries_eq, parseEntries_eq]
  constructor
  · cases hunsorted : unsortedResult sources order entries with
    | some unsorted =>
        obtain ⟨unsorted', hunsorted', hagree⟩ :=
          unsortedResult_agree hperm order' hunsorted
        rw [hunsorted', Option.map_some, Option.map_some, sortResult_congr hagree
          (unsortedResult_separated hpaths hunsorted)]
    | none =>
        -- an exception leaves the other parse, too
        cases hunsorted' : unsortedResult sources order' entries' with
        | none => rfl
        | some unsorted' =>
            obtain ⟨unsorted, hsome, -⟩ :=
              unsortedResult_agree hperm.symm order hunsorted'
            rw [hunsorted] at hsome
            cases hsome
  · intro unsorted hunsorted
    rw [hunsorted]
    exact ⟨rfl, unsortedResult_separated hpaths hunsorted⟩

/-- Files that cannot be opened. -/
def unreadable : Sources where
  openSource := fun _ => .error (.ioError "open source file")
  read := fun _ _ _ => .ok ⟨[], Nat.zero_le _⟩
  parseJson := fun _ => .exception

/-- The entry a file is found as. -/
def entryOf (asset : PhysicalAsset) : DirectoryEntry :=
  ⟨asset.relativePath, asset.identity, .regularFile⟩

/-- A photo and its sidecar, found in either order. -/
theorem parse_order_independent_photo :
    parseEntries unreadable insertionOrder [entryOf photoJpg, entryOf photoJson]
        = parseEntries unreadable insertionOrder
          [entryOf photoJson, entryOf photoJpg]
      ∧ ∀ unsorted, unsortedResult unreadable insertionOrder
          [entryOf photoJpg, entryOf photoJson] = some unsorted →
        parseEntries unreadable insertionOrder
            [entryOf photoJpg, entryOf photoJson] = some (sortResult unsorted)
          ∧ Separated unsorted :=
  parse_order_independent unreadable insertionOrder insertionOrder _ _
    (by decide) (.swap _ _ _)

end Entries

end PhotoBridge.Takeout
