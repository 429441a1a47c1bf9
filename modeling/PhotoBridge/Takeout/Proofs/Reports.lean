/-
What a parse reports of one file.

The paths of the assets are distinct, so what is said of an asset names no
other: an error is at the asset's own path, and a relation names the asset
and a media file with its key. What is reported of a sidecar is therefore
the outcome of the sidecar (`sidecar_one_outcome`). A media file is also
the other end of relations, and of those there are enough for all but some
files of a key with a pair (`media_reported_iff`).
-/
import PhotoBridge.Plan.Proofs.Artifact
import PhotoBridge.Takeout.Proofs.Outcomes

namespace PhotoBridge.Takeout

-- ================================================================ results

section Results

variable {a b : TakeoutParseResult} {asset : PhysicalAsset}

/-- Results that agree have the same relations of an asset. -/
theorem Agree.relationsOf (h : Agree a b) (asset : PhysicalAsset) :
    (relationsOf a asset).Perm (relationsOf b asset) :=
  h.relations.filter _

/-- They have the same error codes of it, too. -/
theorem Agree.codesOf (h : Agree a b) (asset : PhysicalAsset) :
    (codesOf a asset).Perm (codesOf b asset) :=
  (h.errors.filter _).map _

/-- The relations of an asset in two results. -/
private theorem relationsOf_append :
    relationsOf (a ++ b) asset = relationsOf a asset ++ relationsOf b asset :=
  List.filter_append _ _

/-- The error codes of an asset in two results. -/
private theorem codesOf_append :
    codesOf (a ++ b) asset = codesOf a asset ++ codesOf b asset := by
  unfold codesOf
  rw [← List.map_append, ← List.filter_append]
  rfl

/-- The relations of an asset in what is gathered. -/
theorem relationsOf_gather {α : Type} (l : List α)
    (f : α → TakeoutParseResult) (asset : PhysicalAsset) :
    relationsOf (gather (l.map f)) asset
      = l.flatMap fun b => relationsOf (f b) asset := by
  induction l with
  | nil => rfl
  | cons b rest ih =>
      rw [List.map_cons, gather_cons, relationsOf_append, ih, List.flatMap_cons]

/-- The error codes of an asset in what is gathered. -/
theorem codesOf_gather {α : Type} (l : List α)
    (f : α → TakeoutParseResult) (asset : PhysicalAsset) :
    codesOf (gather (l.map f)) asset
      = l.flatMap fun b => codesOf (f b) asset := by
  induction l with
  | nil => rfl
  | cons b rest ih =>
      rw [List.map_cons, gather_cons, codesOf_append, ih, List.flatMap_cons]

/-- Of a list without repetitions, what only one element contributes. -/
theorem flatMap_eq_single {α β : Type} {l : List α} {f : α → List β} {a : α}
    (hnodup : l.Nodup) (hmem : a ∈ l) (hothers : ∀ b ∈ l, b ≠ a → f b = []) :
    l.flatMap f = f a := by
  induction l with
  | nil => cases hmem
  | cons b rest ih =>
      obtain ⟨hnew, hnodup⟩ := List.nodup_cons.1 hnodup
      rw [List.flatMap_cons]
      rcases List.mem_cons.1 hmem with rfl | hrest
      · have hnone : rest.flatMap f = [] := by
          rw [List.flatMap_eq_nil_iff]
          intro c hc
          refine hothers c (List.mem_cons_of_mem _ hc) ?_
          rintro rfl
          exact hnew hc
        rw [hnone, List.append_nil]
      · have hb : f b = [] := by
          refine hothers b List.mem_cons_self ?_
          rintro rfl
          exact hnew hrest
        rw [hb, List.nil_append]
        exact ih hnodup hrest fun c hc => hothers c (List.mem_cons_of_mem _ hc)

end Results

-- =============================================================== outcomes

section Outcomes

variable {assets : List PhysicalAsset} {asset other : PhysicalAsset}

/-- The files a relation is between. -/
def Joins (relation : SourceRelationCandidate) (a b : PhysicalAsset) : Prop :=
  (relation.mediaAssetId = physicalAssetIdFor a
      ∧ relation.sidecarAssetId = physicalAssetIdFor b)
    ∨ (relation.mediaAssetId = physicalAssetIdFor b
      ∧ relation.sidecarAssetId = physicalAssetIdFor a)

/-- Assets with different paths have different ids. -/
theorem id_inj_of_paths (hpaths : (assets.map (·.relativePath)).Nodup)
    (hasset : asset ∈ assets) (hother : other ∈ assets)
    (h : physicalAssetIdFor asset = physicalAssetIdFor other) :
    asset = other :=
  List.inj_on_of_nodup_map hpaths hasset hother
    (RelativePath.eq_of_bytes (physicalAssetIdFor_inj h))

/-- A relation names the files it is between and no others. -/
theorem names_iff {relation : SourceRelationCandidate} {a b : PhysicalAsset}
    (hpaths : (assets.map (·.relativePath)).Nodup) (hasset : asset ∈ assets)
    (ha : a ∈ assets) (hb : b ∈ assets) (h : Joins relation a b) :
    (relation.mediaAssetId = physicalAssetIdFor asset
        ∨ relation.sidecarAssetId = physicalAssetIdFor asset)
      ↔ asset = a ∨ asset = b := by
  have hids : ∀ file ∈ assets,
      physicalAssetIdFor file = physicalAssetIdFor asset ↔ asset = file :=
    fun file hfile => ⟨fun heq => id_inj_of_paths hpaths hasset hfile heq.symm,
      fun heq => congrArg _ heq.symm⟩
  rcases h with ⟨h₁, h₂⟩ | ⟨h₁, h₂⟩ <;> rw [h₁, h₂, hids a ha, hids b hb]
  exact or_comm

/-- A relation of a search is of its single pair, and said of the first. -/
theorem PairSearch.outcome_relation {search : PairSearch}
    {media : List PhysicalAsset} {relation : SourceRelationCandidate}
    (h : relation ∈ (search.outcome media asset).relations)
    (hasset : asset ∈ media) :
    search.firsts media = [asset] ∧ ∃ second, search.seconds media = [second]
      ∧ relation = search.relate asset second := by
  unfold PairSearch.outcome at h
  split at h
  · next first second hfirst hsecond =>
    split at h
    · next hkind =>
      have hfirsts := single_eq_some.1 hfirst
      have hin : asset ∈ search.firsts media := List.mem_filter.2 ⟨hasset, hkind⟩
      rw [hfirsts, List.mem_singleton] at hin
      rw [← hin] at hfirsts
      exact ⟨hfirsts, second, single_eq_some.1 hsecond, List.mem_singleton.1 h⟩
    · cases h
  · split at h <;> cases h

/-- The only second of a group is one of it. -/
theorem PairSearch.mem_seconds {search : PairSearch}
    {media : List PhysicalAsset} (h : search.seconds media = [asset]) :
    asset ∈ media ∧ search.second asset = true := by
  have hin : asset ∈ search.seconds media := by
    rw [h]
    exact List.mem_singleton_self _
  obtain ⟨hmem, hkind⟩ := List.mem_filter.1 hin
  exact ⟨hmem, (Bool.and_eq_true _ _ ▸ hkind).2⟩

/-- The only first of a group is one of it. -/
theorem PairSearch.mem_firsts {search : PairSearch}
    {media : List PhysicalAsset} (h : search.firsts media = [asset]) :
    asset ∈ media ∧ search.first asset = true := by
  have hin : asset ∈ search.firsts media := by
    rw [h]
    exact List.mem_singleton_self _
  exact List.mem_filter.1 hin

/-- The searches of the source. -/
theorem joins_relate {search : PairSearch}
    (h : search ∈ [rawJpegSearch, livePhotoSearch])
    (first second : PhysicalAsset) :
    Joins (search.relate first second) first second := by
  rcases List.mem_pair.1 h with rfl | rfl
  · exact .inl ⟨rfl, rfl⟩
  · exact .inr ⟨rfl, rfl⟩

/-- A search's error about an asset names its path, and the search's code.
-/
theorem PairSearch.outcome_error {search : PairSearch}
    {media : List PhysicalAsset} {error : TakeoutParserError}
    (h : error ∈ (search.outcome media asset).errors) :
    error.relativePath = asset.relativePath
      ∧ error.code = text search.code := by
  unfold PairSearch.outcome at h
  split at h
  · split at h <;> cases h
  · split at h
    · rw [List.mem_singleton.1 h]
      exact ⟨rfl, rfl⟩
    · cases h

/-- The media files of a key. -/
theorem mem_mediaWith {key : Bytes} :
    asset ∈ mediaWith assets key
      ↔ (asset ∈ assets ∧ isMedia asset = true) ∧ basenameKey asset = key := by
  simp only [mediaWith, List.mem_filter, decide_eq_true_eq]

/-- A relation said of a media file is of a pair of its key. -/
theorem mediaOutcome_relation {relation : SourceRelationCandidate}
    (hasset : asset ∈ assets) (hkind : isMedia asset = true)
    (h : relation ∈ (mediaOutcome assets asset).relations) :
    ∃ search ∈ [rawJpegSearch, livePhotoSearch], ∃ second,
      search.firsts (mediaWith assets (basenameKey asset)) = [asset]
        ∧ search.seconds (mediaWith assets (basenameKey asset)) = [second]
        ∧ relation = search.relate asset second := by
  have hmem : asset ∈ mediaWith assets (basenameKey asset) :=
    mem_mediaWith.2 ⟨⟨hasset, hkind⟩, rfl⟩
  rcases List.mem_append.1 h with hpairs | hmissing
  · rcases List.mem_append.1 hpairs with hraw | hlive
    · obtain ⟨hfirsts, second, hpair⟩ :=
        PairSearch.outcome_relation hraw hmem
      exact ⟨rawJpegSearch, by simp, second, hfirsts, hpair⟩
    · obtain ⟨hfirsts, second, hpair⟩ :=
        PairSearch.outcome_relation hlive hmem
      exact ⟨livePhotoSearch, by simp, second, hfirsts, hpair⟩
  · split at hmissing <;> cases hmissing

/-- A relation of a search is between two media files of one key. -/
theorem mem_mediaOutcome {search : PairSearch}
    {relation : SourceRelationCandidate}
    (hsearch : search ∈ [rawJpegSearch, livePhotoSearch])
    (h : relation ∈ (search.outcome
      (mediaWith assets (basenameKey asset)) asset).relations) :
    relation ∈ (mediaOutcome assets asset).relations := by
  refine List.mem_append_left _ ?_
  rcases List.mem_pair.1 hsearch with rfl | rfl
  · exact List.mem_append_left _ h
  · exact List.mem_append_right _ h

/-- An error about a media file names its path. -/
theorem mediaOutcome_error {error : TakeoutParserError}
    (h : error ∈ (mediaOutcome assets asset).errors) :
    error.relativePath = asset.relativePath := by
  rcases List.mem_append.1 h with hpairs | hmissing
  · rcases List.mem_append.1 hpairs with hraw | hlive
    · exact (PairSearch.outcome_error hraw).1
    · exact (PairSearch.outcome_error hlive).1
  · split at hmissing
    · rw [List.mem_singleton.1 hmissing]
    · cases hmissing

/-- A sidecar's relation, or its error. -/
theorem sidecarOutcome_cases (assets : List PhysicalAsset)
    (sidecar : PhysicalAsset) :
    (∃ media ∈ mediaWith assets (basenameKey sidecar),
        sidecarOutcome assets sidecar
          = { relations := [sidecarRelation media sidecar] })
      ∨ ∃ code message, sidecarOutcome assets sidecar
        = addError sidecar.relativePath code message := by
  unfold sidecarOutcome
  split
  · next media _ hmedia _ =>
    refine .inl ⟨media, ?_, rfl⟩
    rw [single_eq_some.1 hmedia]
    exact List.mem_singleton_self _
  · right
    split
    · unfold unmatchedOutcome
      split
      · exact ⟨_, _, rfl⟩
      · split <;> exact ⟨_, _, rfl⟩
    · exact ⟨_, _, rfl⟩

/-- A relation names the asset it is said of, and a media file. -/
theorem outcome_relation {relation : SourceRelationCandidate}
    (hasset : asset ∈ assets)
    (h : relation ∈ (outcome assets asset).relations) :
    ∃ media ∈ assets, isMedia media = true ∧ Joins relation asset media
      ∧ basenameKey media = basenameKey asset := by
  unfold outcome at h
  split at h
  · next hkind =>
    obtain ⟨search, hsearch, second, -, hseconds, rfl⟩ :=
      mediaOutcome_relation hasset hkind h
    obtain ⟨⟨hsecond, hmedia⟩, hkey⟩ :=
      mem_mediaWith.1 (PairSearch.mem_seconds hseconds).1
    exact ⟨second, hsecond, hmedia, joins_relate hsearch _ _, hkey⟩
  · split at h
    · rcases sidecarOutcome_cases assets asset with
        ⟨media, hmedia, hrelation⟩ | ⟨code, message, herror⟩
      · rw [hrelation] at h
        rw [List.mem_singleton.1 h]
        obtain ⟨⟨hmem, hkind⟩, hkey⟩ := mem_mediaWith.1 hmedia
        exact ⟨media, hmem, hkind, .inr ⟨rfl, rfl⟩, hkey⟩
      · rw [herror] at h
        cases h
    · cases h

/-- An error is at the path of the asset it is said of. -/
theorem outcome_error {error : TakeoutParserError}
    (h : error ∈ (outcome assets asset).errors) :
    error.relativePath = asset.relativePath := by
  unfold outcome at h
  split at h
  · exact mediaOutcome_error h
  · split at h
    · rcases sidecarOutcome_cases assets asset with
        ⟨media, hmedia, hrelation⟩ | ⟨code, message, herror⟩
      · rw [hrelation] at h
        cases h
      · rw [herror] at h
        rw [List.mem_singleton.1 h]
    · cases h

/-- The errors at a path are those said of the asset there. -/
theorem codesOf_perm (order : HashOrder)
    (hpaths : (assets.map (·.relativePath)).Nodup) (hasset : asset ∈ assets) :
    (codesOf (addRelationErrorsAndCandidates order assets) asset).Perm
      (codesOf (outcome assets asset) asset) := by
  refine ((outcomes_agree order assets).codesOf asset).trans ?_
  rw [codesOf_gather, flatMap_eq_single hpaths.of_map hasset]
  intro other hother hne
  unfold codesOf
  rw [List.map_eq_nil_iff, List.filter_eq_nil_iff]
  intro error herror hpath
  rw [outcome_error herror, decide_eq_true_eq] at hpath
  exact hne (List.inj_on_of_nodup_map hpaths hother hasset hpath)

/-- The relations of a file that is no media file are those said of it. -/
theorem relationsOf_perm (order : HashOrder)
    (hpaths : (assets.map (·.relativePath)).Nodup) (hasset : asset ∈ assets)
    (hkind : isMedia asset = false) :
    (relationsOf (addRelationErrorsAndCandidates order assets) asset).Perm
      (relationsOf (outcome assets asset) asset) := by
  refine ((outcomes_agree order assets).relationsOf asset).trans ?_
  rw [relationsOf_gather, flatMap_eq_single hpaths.of_map hasset]
  intro other hother hne
  unfold relationsOf
  rw [List.filter_eq_nil_iff]
  intro relation hrelation hnames
  obtain ⟨media, hmedia, hmediaKind, hjoins, -⟩ :=
    outcome_relation hother hrelation
  rw [decide_eq_true_eq, names_iff hpaths hasset hother hmedia hjoins] at hnames
  rcases hnames with rfl | rfl
  · exact hne rfl
  · rw [hkind] at hmediaKind
    cases hmediaKind

end Outcomes

-- =============================================================== sidecars

section Sidecars

variable {assets : List PhysicalAsset} {sidecar media : PhysicalAsset}
  {relations : List SourceRelationCandidate} {codes : List Bytes}

/-- The code of one error. -/
private theorem codesOf_addError (asset : PhysicalAsset) (code : String)
    (message : Bytes) :
    codesOf (addError asset.relativePath code message) asset = [text code] := by
  simp [codesOf, addError]

/-- An error is no relation. -/
private theorem relationsOf_addError (path : RelativePath) (code : String)
    (message : Bytes) (asset : PhysicalAsset) :
    relationsOf (addError path code message) asset = [] := rfl

/-- A sidecar is one of those with its key. -/
private theorem mem_sidecarsWith (hsidecar : sidecar ∈ assets)
    (hkind : isSidecar sidecar.kind = true) :
    sidecar ∈ sidecarsWith assets (basenameKey sidecar) :=
  List.mem_filter.2 ⟨List.mem_filter.2 ⟨hsidecar, hkind⟩, by simp⟩

/-- A sidecar that belongs to a file is related to it. -/
theorem sidecarOutcome_belongs (h : Belongs assets sidecar media) :
    sidecarOutcome assets sidecar
      = { relations := [sidecarRelation media sidecar] } := by
  unfold sidecarOutcome
  rw [h.1, h.2]
  rfl

/-- A sidecar whose key media files have, but that belongs to none, is
reported as ambiguous. -/
theorem sidecarOutcome_ambiguous (hsidecar : sidecar ∈ assets)
    (hkind : isSidecar sidecar.kind = true)
    (hmedia : mediaWith assets (basenameKey sidecar) ≠ [])
    (hnot : ¬∃ media, Belongs assets sidecar media) :
    sidecarOutcome assets sidecar
      = addError sidecar.relativePath "ambiguous_sidecar_relation"
        (text "same basename matches multiple media or sidecar files") := by
  unfold sidecarOutcome
  split
  · next media other hsingle hother =>
    have hothers := single_eq_some.1 hother
    have hmem := mem_sidecarsWith hsidecar hkind
    rw [hothers, List.mem_singleton] at hmem
    rw [← hmem] at hothers
    exact absurd ⟨media, single_eq_some.1 hsingle, hothers⟩ hnot
  · rw [if_neg (by simpa using hmedia)]

/-- A sidecar whose key no file has goes by the names it is cut from. -/
theorem sidecarOutcome_unmatched
    (hmedia : mediaWith assets (basenameKey sidecar) = []) :
    sidecarOutcome assets sidecar = unmatchedOutcome assets sidecar := by
  unfold sidecarOutcome
  rw [hmedia]
  rfl

/-- Which error an unmatched sidecar has is the number of media files its
name may be cut from. -/
theorem codesOf_unmatched (assets : List PhysicalAsset)
    (sidecar : PhysicalAsset) :
    codesOf (unmatchedOutcome assets sidecar) sidecar
      = [text (match cutFrom assets sidecar with
        | [] => "orphan_sidecar"
        | [_] => "truncated_basename_match"
        | _ => "ambiguous_truncated_basename")] := by
  unfold unmatchedOutcome
  match cutFrom assets sidecar with
  | [] => exact codesOf_addError ..
  | [media] => exact codesOf_addError ..
  | first :: second :: rest => exact codesOf_addError ..

/-- A sidecar whose key no file has is related to nothing. -/
theorem relationsOf_unmatched (assets : List PhysicalAsset)
    (sidecar : PhysicalAsset) :
    relationsOf (unmatchedOutcome assets sidecar) sidecar = [] := by
  unfold unmatchedOutcome
  split
  · rfl
  · split <;> rfl

/-- The outcome of a sidecar is what is to be reported of it. -/
theorem sidecarOutcome_one (hsidecar : sidecar ∈ assets)
    (hkind : isSidecar sidecar.kind = true) :
    OneOutcome assets sidecar
      (relationsOf (sidecarOutcome assets sidecar) sidecar)
      (codesOf (sidecarOutcome assets sidecar) sidecar) := by
  by_cases hbelongs : ∃ media, Belongs assets sidecar media
  · obtain ⟨media, hmedia⟩ := hbelongs
    have hrelations : relationsOf { relations := [sidecarRelation media sidecar] }
        sidecar = [sidecarRelation media sidecar] := by
      simp [relationsOf, sidecarRelation]
    have hsome : mediaWith assets (basenameKey sidecar) ≠ [] := by
      rw [hmedia.1]
      exact List.cons_ne_nil _ _
    rw [sidecarOutcome_belongs hmedia, hrelations]
    refine ⟨rfl, fun relation => ?_, iff_of_false nofun fun h => h.2 ⟨_, hmedia⟩,
      iff_of_false nofun fun h => hsome h.1,
      iff_of_false nofun fun h => hsome h.1,
      iff_of_false nofun fun h => hsome h.1⟩
    rw [List.mem_singleton]
    constructor
    · exact fun h => ⟨media, hmedia, h⟩
    · rintro ⟨other, hother, rfl⟩
      rw [List.singleton_inj.1 (hmedia.1.symm.trans hother.1)]
  · have hrelation : ∀ relation, relation ∈ ([] : List SourceRelationCandidate)
        ↔ ∃ media, Belongs assets sidecar media
          ∧ relation = sidecarRelation media sidecar :=
      fun relation => iff_of_false nofun
        fun ⟨media, hmedia, _⟩ => hbelongs ⟨media, hmedia⟩
    by_cases hnone : mediaWith assets (basenameKey sidecar) = []
    · rw [sidecarOutcome_unmatched hnone, relationsOf_unmatched,
        codesOf_unmatched]
      refine ⟨rfl, hrelation, ?_, ?_, ?_, ?_⟩ <;>
        rw [List.mem_singleton, text_inj] <;>
        match cutFrom assets sidecar with
        | [] => simp [hnone]
        | [media] => simp [hnone]
        | first :: second :: rest => simp [hnone]
    · rw [sidecarOutcome_ambiguous hsidecar hkind hnone hbelongs,
        relationsOf_addError, codesOf_addError]
      refine ⟨rfl, hrelation, iff_of_true (List.mem_singleton_self _)
        ⟨hnone, hbelongs⟩, iff_of_false (by decide) fun h => hnone h.1,
        iff_of_false (by decide) fun h => hnone h.1,
        iff_of_false (by decide) fun h => hnone h.1⟩

/-- In which order the relations and the codes come does not matter. -/
theorem OneOutcome.perm {relations' : List SourceRelationCandidate}
    {codes' : List Bytes} (h : OneOutcome assets sidecar relations codes)
    (hrelations : relations'.Perm relations) (hcodes : codes'.Perm codes) :
    OneOutcome assets sidecar relations' codes' where
  one := by
    rw [hrelations.length_eq, hcodes.length_eq]
    exact h.one
  relation := fun _ => hrelations.mem_iff.trans (h.relation _)
  ambiguous := hcodes.mem_iff.trans h.ambiguous
  truncated := hcodes.mem_iff.trans h.truncated
  ambiguousTruncated := hcodes.mem_iff.trans h.ambiguousTruncated
  orphan := hcodes.mem_iff.trans h.orphan

/-- All that is reported about a sidecar is its outcome as a sidecar. -/
theorem outcome_sidecar (hkind : isSidecar sidecar.kind = true) :
    isMedia sidecar = false
      ∧ outcome assets sidecar = sidecarOutcome assets sidecar := by
  have hmedia : isMedia sidecar = false := by
    unfold isSidecar at hkind
    unfold isMedia
    cases hcase : sidecar.kind <;> rw [hcase] at hkind <;>
      first | rfl | cases hkind
  unfold outcome
  rw [hmedia, hkind]
  exact ⟨rfl, rfl⟩

/-- Every sidecar has exactly one outcome, whatever the order of the hash
maps. -/
theorem sidecar_one_outcome (order : HashOrder) (assets : List PhysicalAsset)
    (hpaths : (assets.map (·.relativePath)).Nodup) (sidecar : PhysicalAsset)
    (hsidecar : sidecar ∈ assets) (hkind : isSidecar sidecar.kind = true) :
    OneOutcome assets sidecar
      (relationsOf (addRelationErrorsAndCandidates order assets) sidecar)
      (codesOf (addRelationErrorsAndCandidates order assets) sidecar) := by
  obtain ⟨hmedia, houtcome⟩ := outcome_sidecar hkind
  have hrelations := relationsOf_perm order hpaths hsidecar hmedia
  have hcodes := codesOf_perm order hpaths hsidecar
  rw [houtcome] at hrelations hcodes
  exact (sidecarOutcome_one hsidecar hkind).perm hrelations hcodes

/-- A hash map that iterates in the order of insertion. -/
def insertionOrder : HashOrder where
  iterate := fun entries => entries
  perm := fun _ => .rfl

theorem photoJpg_parsed :
    checkRelativePath (text "photo.jpg") = .ok [text "photo.jpg"] := rfl

theorem photoJson_parsed :
    checkRelativePath (text "photo.json") = .ok [text "photo.json"] := rfl

def photoJpg : PhysicalAsset where
  relativePath := ⟨text "photo.jpg", [text "photo.jpg"], photoJpg_parsed⟩
  identity := ⟨1, 1, 1, 1, 1, none⟩
  kind := .media
  extension := text "jpg"

def photoJson : PhysicalAsset where
  relativePath := ⟨text "photo.json", [text "photo.json"], photoJson_parsed⟩
  identity := ⟨1, 2, 1, 1, 1, none⟩
  kind := .sidecarJson
  extension := text "json"

/-- A photo and its sidecar, related. -/
theorem sidecar_one_outcome_photo :
    OneOutcome [photoJpg, photoJson] photoJson
      (relationsOf (addRelationErrorsAndCandidates insertionOrder
        [photoJpg, photoJson]) photoJson)
      (codesOf (addRelationErrorsAndCandidates insertionOrder
        [photoJpg, photoJson]) photoJson) :=
  sidecar_one_outcome insertionOrder _ (by decide) photoJson (by decide) rfl

end Sidecars

-- ================================================================== media

section Media

variable {assets : List PhysicalAsset} {media : PhysicalAsset}
  {search : PairSearch} {group : List PhysicalAsset}

/-- A search finds an error of every file, or of none. -/
private theorem codesOf_ambiguous (hrelates : search.relates group = true)
    (hpair : ¬search.IsPair group) (asset : PhysicalAsset) :
    codesOf (search.outcome group asset) asset = [text search.code] := by
  rw [outcome_not_pair hpair, if_pos hrelates]
  exact codesOf_addError ..

/-- A group that is a pair, or relates to nothing, has no errors. -/
theorem codesOf_unambiguous
    (h : search.relates group = true → search.IsPair group)
    (asset : PhysicalAsset) : codesOf (search.outcome group asset) asset = [] := by
  by_cases hpair : search.IsPair group
  · obtain ⟨first, second, hfirsts, hseconds⟩ := hpair
    rw [outcome_pair hfirsts hseconds]
    split <;> rfl
  · rw [outcome_not_pair hpair, if_neg fun hrelates => hpair (h hrelates)]
    rfl

/-- A pair is related. -/
private theorem relates_of_pair (h : search.IsPair group) :
    search.relates group = true := by
  obtain ⟨first, second, hfirsts, hseconds⟩ := h
  rw [relates_eq, hfirsts, hseconds]
  exact ⟨List.cons_ne_nil _ _, List.cons_ne_nil _ _⟩

/-- The codes of a media file: of the searches, and of a missing sidecar. -/
theorem codesOf_media (assets : List PhysicalAsset) (media : PhysicalAsset) :
    codesOf (mediaOutcome assets media) media
      = codesOf (rawJpegSearch.outcome
          (mediaWith assets (basenameKey media)) media) media
        ++ codesOf (livePhotoSearch.outcome
          (mediaWith assets (basenameKey media)) media) media
        ++ if isMissingSidecar assets media then [text "missing_sidecar"]
          else [] := by
  unfold mediaOutcome
  rw [codesOf_append, codesOf_append]
  congr 1
  split
  · exact codesOf_addError ..
  · rfl

/-- All that is reported about a media file is its outcome as a media file.
-/
private theorem outcome_media (hkind : isMedia media = true) :
    outcome assets media = mediaOutcome assets media := by
  unfold outcome
  rw [if_pos hkind]

/-- An asset has a relation if one names its id. -/
theorem relationsOf_ne_nil {result : TakeoutParseResult} :
    relationsOf result media ≠ []
      ↔ ∃ relation ∈ result.relations,
        relation.mediaAssetId = physicalAssetIdFor media
          ∨ relation.sidecarAssetId = physicalAssetIdFor media := by
  rw [Ne, List.eq_nil_iff_forall_not_mem, not_forall_not]
  simp only [relationsOf, List.mem_filter, decide_eq_true_eq]

/-- Without sidecars of its key, a media file is in the relations of pairs
only. -/
theorem relationsOf_media (order : HashOrder)
    (hpaths : (assets.map (·.relativePath)).Nodup) (hmedia : media ∈ assets)
    (hkind : isMedia media = true)
    (hnone : sidecarsWith assets (basenameKey media) = []) :
    relationsOf (addRelationErrorsAndCandidates order assets) media ≠ []
      ↔ ∃ search ∈ [rawJpegSearch, livePhotoSearch], ∃ first second,
        search.firsts (mediaWith assets (basenameKey media)) = [first]
          ∧ search.seconds (mediaWith assets (basenameKey media)) = [second]
          ∧ (media = first ∨ media = second) := by
  -- a relation of the file is in some asset's outcome
  have hall : relationsOf (addRelationErrorsAndCandidates order assets) media ≠ []
      ↔ ∃ asset ∈ assets, relationsOf (outcome assets asset) media ≠ [] := by
    have hperm := (outcomes_agree order assets).relationsOf media
    rw [relationsOf_gather] at hperm
    rw [Ne, ← List.length_eq_zero_iff, hperm.length_eq,
      List.length_eq_zero_iff, List.flatMap_eq_nil_iff]
    push Not
    rfl
  rw [hall]
  constructor
  -- whose, and by which search
  · rintro ⟨asset, hasset, hrelations⟩
    obtain ⟨relation, hrelation, hnames⟩ := relationsOf_ne_nil.1 hrelations
    by_cases hassetKind : isMedia asset = true
    · rw [outcome_media hassetKind] at hrelation
      obtain ⟨search, hsearch, second, hfirsts, hseconds, rfl⟩ :=
        mediaOutcome_relation hasset hassetKind hrelation
      obtain ⟨⟨hsecond, -⟩, hkey⟩ :=
        mem_mediaWith.1 (PairSearch.mem_seconds hseconds).1
      have hone := (names_iff hpaths hmedia hasset hsecond
        (joins_relate hsearch _ _)).1 hnames
      have hsame : basenameKey asset = basenameKey media := by
        rcases hone with rfl | rfl
        · rfl
        · exact hkey.symm
      rw [hsame] at hfirsts hseconds
      exact ⟨search, hsearch, asset, second, hfirsts, hseconds, hone⟩
    · -- a sidecar would have the key of the media file it is related to
      obtain ⟨other, hother, hotherKind, hjoins, hkey⟩ :=
        outcome_relation hasset hrelation
      have hone := (names_iff hpaths hmedia hasset hother hjoins).1 hnames
      rcases hone with rfl | rfl
      · exact absurd hkind hassetKind
      · have hsidecar : isSidecar asset.kind = true := by
          by_contra hneither
          unfold outcome at hrelation
          rw [if_neg hassetKind, if_neg hneither] at hrelation
          cases hrelation
        have hmem := mem_sidecarsWith hasset hsidecar
        rw [← hkey, hnone] at hmem
        cases hmem
  -- the first of the pair reports it
  · rintro ⟨search, hsearch, first, second, hfirsts, hseconds, hone⟩
    obtain ⟨hfirst, hfirstKind⟩ := PairSearch.mem_firsts hfirsts
    obtain ⟨⟨hfirstMem, hfirstMedia⟩, hkey⟩ := mem_mediaWith.1 hfirst
    obtain ⟨⟨hsecondMem, -⟩, -⟩ :=
      mem_mediaWith.1 (PairSearch.mem_seconds hseconds).1
    refine ⟨first, hfirstMem, relationsOf_ne_nil.2
      ⟨search.relate first second, ?_, ?_⟩⟩
    · rw [outcome_media hfirstMedia]
      refine mem_mediaOutcome hsearch ?_
      rw [hkey, outcome_pair hfirsts hseconds, if_pos hfirstKind]
      exact List.mem_singleton_self _
    · exact (names_iff hpaths hmedia hfirstMem hsecondMem
        (joins_relate hsearch _ _)).2 hone

/-- The errors of a media file: of a missing sidecar, or of a search
without a single pair. -/
theorem codesOf_media_iff (order : HashOrder)
    (hpaths : (assets.map (·.relativePath)).Nodup) (hmedia : media ∈ assets)
    (hkind : isMedia media = true) :
    (∃ code ∈ codesOf (addRelationErrorsAndCandidates order assets) media,
        code = text "missing_sidecar" ∨ code = text rawJpegSearch.code
          ∨ code = text livePhotoSearch.code)
      ↔ isMissingSidecar assets media = true
        ∨ ∃ search ∈ [rawJpegSearch, livePhotoSearch],
          search.relates (mediaWith assets (basenameKey media)) = true
            ∧ ¬search.IsPair (mediaWith assets (basenameKey media)) := by
  have hperm := codesOf_perm order hpaths hmedia
  rw [outcome_media hkind, codesOf_media] at hperm
  simp only [hperm.mem_iff, List.mem_append]
  constructor
  · rintro ⟨code, (hraw | hlive) | hmissing, -⟩
    · refine .inr ⟨rawJpegSearch, by simp, ?_⟩
      by_contra hnot
      rw [not_and_not_right] at hnot
      rw [codesOf_unambiguous hnot] at hraw
      cases hraw
    · refine .inr ⟨livePhotoSearch, by simp, ?_⟩
      by_contra hnot
      rw [not_and_not_right] at hnot
      rw [codesOf_unambiguous hnot] at hlive
      cases hlive
    · left
      by_contra hnot
      rw [if_neg hnot] at hmissing
      cases hmissing
  · rintro (hmissing | ⟨search, hsearch, hrelates, hpair⟩)
    · rw [if_pos hmissing]
      exact ⟨_, .inr (List.mem_singleton_self _), .inl rfl⟩
    · rcases List.mem_pair.1 hsearch with rfl | rfl
      · rw [codesOf_ambiguous hrelates hpair]
        exact ⟨_, .inl (.inl (List.mem_singleton_self _)), .inr (.inl rfl)⟩
      · refine ⟨_, .inl (.inr ?_), .inr (.inr rfl)⟩
        rw [codesOf_ambiguous hrelates hpair]
        exact List.mem_singleton_self _

/-- Nothing is missing where a search has found something. -/
theorem isMissingSidecar_iff
    (hnone : sidecarsWith assets (basenameKey media) = [])
    (hweak : hasWeakSidecar assets media = false) :
    isMissingSidecar assets media = true
      ↔ ∀ search ∈ [rawJpegSearch, livePhotoSearch],
        search.relates (mediaWith assets (basenameKey media)) ≠ true := by
  unfold isMissingSidecar
  rw [hnone, hweak]
  simp

/-- A single pair leaves out a file, or has it for an end. -/
theorem leavesOut_iff (h : search.IsPair group) (asset : PhysicalAsset) :
    search.LeavesOut group asset
      ↔ ¬∃ first second, search.firsts group = [first]
        ∧ search.seconds group = [second]
        ∧ (asset = first ∨ asset = second) := by
  obtain ⟨first, second, hfirsts, hseconds⟩ := h
  unfold PairSearch.LeavesOut
  simp [hfirsts, hseconds]

/-- A media file nothing else is said of is reported, unless the pairs of
its key leave it out. -/
theorem media_reported_iff (order : HashOrder) (assets : List PhysicalAsset)
    (hpaths : (assets.map (·.relativePath)).Nodup) (media : PhysicalAsset)
    (hmedia : media ∈ assets) (hkind : isMedia media = true)
    (hnone : sidecarsWith assets (basenameKey media) = [])
    (hweak : hasWeakSidecar assets media = false) :
    IsReported (addRelationErrorsAndCandidates order assets) media
      ↔ ¬Overlooked assets media := by
  unfold IsReported Overlooked
  rw [relationsOf_media order hpaths hmedia hkind hnone,
    codesOf_media_iff order hpaths hmedia hkind,
    isMissingSidecar_iff hnone hweak]
  generalize mediaWith assets (basenameKey media) = group
  constructor
  · rintro (⟨search, hsearch, first, second, hfirsts, hseconds, hone⟩ |
      hmissing | ⟨search, hsearch, hrelates, hpair⟩) ⟨hsome, hall⟩
    · have hpair : search.IsPair group := ⟨first, second, hfirsts, hseconds⟩
      exact (leavesOut_iff hpair media).1
        (hall search hsearch (relates_of_pair hpair))
        ⟨first, second, hfirsts, hseconds, hone⟩
    · obtain ⟨search, hsearch, hrelates⟩ := hsome
      exact hmissing search hsearch hrelates
    · obtain ⟨first, second, hfirsts, hseconds, -⟩ := hall search hsearch hrelates
      exact hpair ⟨first, second, hfirsts, hseconds⟩
  · intro hnot
    by_cases hsome : ∃ search ∈ [rawJpegSearch, livePhotoSearch],
        search.relates group = true
    · have hkept : ∃ search ∈ [rawJpegSearch, livePhotoSearch],
          search.relates group = true ∧ ¬search.LeavesOut group media := by
        by_contra hall
        push Not at hall
        exact hnot ⟨hsome, hall⟩
      obtain ⟨search, hsearch, hrelates, hkept⟩ := hkept
      by_cases hpair : search.IsPair group
      · rw [leavesOut_iff hpair, not_not] at hkept
        exact .inl ⟨search, hsearch, hkept⟩
      · exact .inr (.inr ⟨search, hsearch, hrelates, hpair⟩)
    · push Not at hsome
      exact .inr (.inl hsome)

def photoDng : PhysicalAsset where
  relativePath := ⟨text "photo.dng", [text "photo.dng"], rfl⟩
  identity := ⟨1, 3, 1, 1, 1, none⟩
  kind := .media
  extension := text "dng"

def photoPng : PhysicalAsset where
  relativePath := ⟨text "photo.png", [text "photo.png"], rfl⟩
  identity := ⟨1, 4, 1, 1, 1, none⟩
  kind := .media
  extension := text "png"

/-- Three files with one key. -/
def photoFiles : List PhysicalAsset := [photoDng, photoJpg, photoPng]

/-- All of the files have the one key. -/
private theorem photoFiles_media :
    mediaWith photoFiles (basenameKey photoJpg) = photoFiles := by decide

/-- One of the pair is not left out of it, so it is reported. -/
theorem media_reported_photo :
    IsReported (addRelationErrorsAndCandidates insertionOrder photoFiles)
      photoJpg := by
  refine (media_reported_iff insertionOrder photoFiles (by decide) photoJpg
    (by decide) rfl (by decide) (by decide)).2 ?_
  rintro ⟨-, hall⟩
  obtain ⟨first, second, hfirsts, hseconds, hfirst, hsecond⟩ :=
    hall rawJpegSearch List.mem_cons_self (by decide)
  rw [photoFiles_media] at hseconds
  have hjpg : rawJpegSearch.seconds photoFiles = [photoJpg] := by decide
  exact hsecond (List.singleton_inj.1 (hjpg.symm.trans hseconds))

/-- The third file of a key whose other two are a pair. -/
theorem media_unreported :
    ¬∀ (order : HashOrder) (assets : List PhysicalAsset),
      (assets.map (·.relativePath)).Nodup → ∀ media ∈ assets,
      isMedia media = true → sidecarsWith assets (basenameKey media) = [] →
      hasWeakSidecar assets media = false →
      IsReported (addRelationErrorsAndCandidates order assets) media := by
  intro h
  have hreported := h insertionOrder [photoDng, photoJpg, photoPng] (by decide)
    photoPng (by decide) rfl (by decide) (by decide)
  have hrelations : relationsOf (addRelationErrorsAndCandidates insertionOrder
      [photoDng, photoJpg, photoPng]) photoPng = [] := by decide
  have hcodes : codesOf (addRelationErrorsAndCandidates insertionOrder
      [photoDng, photoJpg, photoPng]) photoPng = [] := by decide
  rcases hreported with hrelated | ⟨code, hcode, -⟩
  · exact hrelated hrelations
  · rw [hcodes] at hcode
    cases hcode

end Media

end PhotoBridge.Takeout
