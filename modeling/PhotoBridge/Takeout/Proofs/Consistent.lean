/-
What holds of every result of a parse (`parse_consistent`): its assets
have distinct ids, each relation is between two of them and there once,
and each candidate is of one of them and passes the resolver's checks.

A relation tells of which file it is said, and a file says one at most of
each kind, so no relation comes up twice. A candidate of another file has
another id, one of the same file another field.
-/
import PhotoBridge.Takeout.Proofs.Order
import PhotoBridge.Takeout.Proofs.Walk

namespace PhotoBridge.Takeout

open JsonText Sorting Joining

/-- What the parts of a result say of each other. -/
structure Consistent (parsed : TakeoutParseResult) : Prop where
  ids : (parsed.assets.map physicalAssetIdFor).Nodup
  relations : parsed.relations.Nodup
  ends : ∀ relation ∈ parsed.relations,
    ∃ media ∈ parsed.assets, ∃ second ∈ parsed.assets, media ≠ second
      ∧ relation.mediaAssetId = physicalAssetIdFor media
      ∧ relation.sidecarAssetId = physicalAssetIdFor second
  candidates : parsed.candidates.Nodup
  known : ∀ candidate ∈ parsed.candidates,
    ∃ asset ∈ parsed.assets, candidate.assetId = physicalAssetIdFor asset
  resolvable : ∀ candidate ∈ parsed.candidates,
    isResolvable candidate.field googleTakeoutMetadataRuleset candidate = true

-- =============================================================== relations

section Relations

variable {assets : List PhysicalAsset} {asset : PhysicalAsset}
  {relation : SourceRelationCandidate}

/-- The id of the file a relation is said of. -/
def saidOf (relation : SourceRelationCandidate) : Bytes :=
  if relation.relation = .rawJpegPair then relation.mediaAssetId
  else relation.sidecarAssetId

/-- A relation said of the asset, between it and another. -/
structure SaidBetween (asset media second : PhysicalAsset)
    (relation : SourceRelationCandidate) : Prop where
  apart : media ≠ second
  media : relation.mediaAssetId = physicalAssetIdFor media
  second : relation.sidecarAssetId = physicalAssetIdFor second
  said : saidOf relation = physicalAssetIdFor asset

/-- The second of a pair is not its first. -/
theorem PairSearch.firsts_ne_seconds {search : PairSearch}
    {media : List PhysicalAsset} {first second : PhysicalAsset}
    (hfirst : search.firsts media = [first])
    (hsecond : search.seconds media = [second]) : first ≠ second := by
  rintro rfl
  have hin : first ∈ search.seconds media := by
    rw [hsecond]
    exact List.mem_singleton_self _
  have hnot := (List.mem_filter.1 hin).2
  rw [(PairSearch.mem_firsts hfirst).2] at hnot
  cases hnot

/-- What a sidecar's relation is said to be of is the sidecar. -/
private theorem saidOf_sidecarRelation (media sidecar : PhysicalAsset) :
    saidOf (sidecarRelation media sidecar) = physicalAssetIdFor sidecar := by
  unfold saidOf sidecarRelation
  dsimp only
  split <;> rfl

/-- A relation of an asset is between it and another one. -/
private theorem outcome_saidBetween (hasset : asset ∈ assets)
    (h : relation ∈ (outcome assets asset).relations) :
    ∃ media ∈ assets, ∃ second ∈ assets,
      SaidBetween asset media second relation := by
  unfold outcome at h
  split at h
  · next hkind =>
    obtain ⟨search, hsearch, second, hfirsts, hseconds, rfl⟩ :=
      mediaOutcome_relation hasset hkind h
    have hne := PairSearch.firsts_ne_seconds hfirsts hseconds
    have hsecond : second ∈ assets :=
      (mem_mediaWith.1 (PairSearch.mem_seconds hseconds).1).1.1
    rcases List.mem_pair.1 hsearch with rfl | rfl
    · exact ⟨asset, hasset, second, hsecond, hne, rfl, rfl, rfl⟩
    · exact ⟨second, hsecond, asset, hasset, hne.symm, rfl, rfl, rfl⟩
  · next hmedia =>
    split at h
    · rcases sidecarOutcome_cases assets asset with
        ⟨media, hin, hrelation⟩ | ⟨code, message, herror⟩
      · rw [hrelation] at h
        rw [List.mem_singleton.1 h]
        obtain ⟨⟨hmem, hkind⟩, -⟩ := mem_mediaWith.1 hin
        refine ⟨media, hmem, asset, hasset, ?_, rfl, rfl,
          saidOf_sidecarRelation media asset⟩
        rintro rfl
        exact hmedia hkind
      · rw [herror] at h
        cases h
    · cases h

/-- A search reports no relation twice. -/
theorem PairSearch.outcome_nodup (search : PairSearch)
    (media : List PhysicalAsset) (asset : PhysicalAsset) :
    (search.outcome media asset).relations.Nodup := by
  unfold PairSearch.outcome
  split
  · split
    · exact List.nodup_singleton _
    · exact List.nodup_nil
  · split <;> exact List.nodup_nil

/-- A file says one relation of each kind at most. -/
theorem outcome_nodup (hasset : asset ∈ assets) :
    (outcome assets asset).relations.Nodup := by
  unfold outcome
  split
  · next hkind =>
    have hmem : asset ∈ mediaWith assets (basenameKey asset) :=
      mem_mediaWith.2 ⟨⟨hasset, hkind⟩, rfl⟩
    have hmissing : (if isMissingSidecar assets asset then
        missingSidecars [asset] else {}).relations = [] := by
      split <;> rfl
    show (_ ++ _ ++ _ : List SourceRelationCandidate).Nodup
    rw [hmissing, List.append_nil, List.nodup_append]
    refine ⟨PairSearch.outcome_nodup _ _ _, PairSearch.outcome_nodup _ _ _, ?_⟩
    rintro raw hraw live hlive rfl
    -- the kind of the relation tells the searches apart
    obtain ⟨-, jpeg, -, hpair⟩ := PairSearch.outcome_relation hraw hmem
    obtain ⟨-, still, -, hmotion⟩ := PairSearch.outcome_relation hlive hmem
    have hkinds := congrArg SourceRelationCandidate.relation
      (hpair.symm.trans hmotion)
    cases hkinds
  · split
    · rcases sidecarOutcome_cases assets asset with
        ⟨media, -, hrelation⟩ | ⟨code, message, herror⟩
      · rw [hrelation]
        exact List.nodup_singleton _
      · rw [herror]
        exact List.nodup_nil
    · exact List.nodup_nil

/-- Every relation is in some asset's outcome. -/
private theorem mem_relations {order : HashOrder}
    (h : relation ∈ (addRelationErrorsAndCandidates order assets).relations) :
    ∃ asset ∈ assets, relation ∈ (outcome assets asset).relations := by
  rw [(outcomes_agree order assets).relations.mem_iff, relations_gather,
    List.flatMap_map] at h
  exact List.mem_flatMap.1 h

/-- No relation comes up twice. -/
theorem relations_nodup (order : HashOrder)
    (hids : (assets.map physicalAssetIdFor).Nodup) :
    (addRelationErrorsAndCandidates order assets).relations.Nodup := by
  rw [(outcomes_agree order assets).relations.nodup_iff, relations_gather,
    List.flatMap_map, List.nodup_flatMap]
  refine ⟨fun asset hasset => outcome_nodup hasset, ?_⟩
  have hdistinct : assets.Pairwise fun a b =>
      physicalAssetIdFor a ≠ physicalAssetIdFor b := List.pairwise_map.1 hids
  refine hdistinct.imp_of_mem fun {a b} ha hb hne => ?_
  intro relation hrelation hrelation'
  obtain ⟨_, _, _, _, hsaid⟩ := outcome_saidBetween ha hrelation
  obtain ⟨_, _, _, _, hsaid'⟩ := outcome_saidBetween hb hrelation'
  exact hne (hsaid.said.symm.trans hsaid'.said)

end Relations

-- ============================================================== candidates

section Candidates

variable {asset : PhysicalAsset} {added other : TakeoutParseResult}

/-- The resolver accepts what is added. -/
structure Resolves (added : TakeoutParseResult) : Prop where
  each : ∀ candidate ∈ added.candidates,
    isResolvable candidate.field googleTakeoutMetadataRuleset candidate = true

/-- Nothing has no candidate. -/
private theorem resolves_empty : Resolves {} := ⟨nofun⟩

/-- An error has no candidate. -/
private theorem resolves_addError (path : RelativePath) (code : String)
    (message : Bytes) : Resolves (addError path code message) := ⟨nofun⟩

/-- Candidates that can be resolved, put together. -/
theorem Resolves.append (h : Resolves added) (h' : Resolves other) :
    Resolves (added ++ other) where
  each := fun candidate hmem =>
    (List.mem_append.1 hmem).elim (h.each candidate) (h'.each candidate)

/-- An asset's id is not empty. -/
theorem physicalAssetIdFor_ne_nil (asset : PhysicalAsset) :
    physicalAssetIdFor asset ≠ [] := by
  intro h
  have hprefix : text "path-" ≠ [] := by decide
  exact hprefix (List.append_eq_nil_iff.1 h).1

/-- `AddCandidate` checks what the resolver does. -/
theorem resolves_addCandidate (asset : PhysicalAsset) (field : MetadataField)
    (value : MetadataValue) (rule : String) (evidence : Bytes) :
    Resolves (addCandidate asset field value rule evidence) := by
  unfold addCandidate
  split
  · exact resolves_addError ..
  · next hrule =>
    split
    · exact resolves_addError ..
    · next hvalue =>
      split
      · exact resolves_addError ..
      · refine ⟨fun candidate hmem => ?_⟩
        rw [List.mem_singleton.1 hmem]
        have hid := physicalAssetIdFor_ne_nil asset
        simp only [Bool.not_eq_true', Bool.not_eq_false] at hrule hvalue
        simp [isResolvable, hid, hrule, hvalue]

/-- A field read from a sidecar can be resolved. -/
theorem JsonField.resolves (field : JsonField) (asset : PhysicalAsset)
    (document : Json) : Resolves (field.extract asset document) := by
  unfold JsonField.extract
  split
  · exact resolves_empty
  split
  · exact resolves_addError ..
  · exact resolves_addCandidate ..

/-- The time taken can be resolved. -/
theorem resolves_extractTakenTime (asset : PhysicalAsset) (document : Json) :
    Resolves (extractTakenTime asset document) := by
  unfold extractTakenTime
  split
  · exact resolves_empty
  split
  · exact resolves_addError ..
  split
  · exact resolves_empty
  unfold extractTimestamp
  split
  · exact resolves_addError ..
  split
  · exact resolves_addError ..
  · exact resolves_addCandidate ..

/-- All that is read from a sidecar can be resolved. -/
private theorem resolves_extractMetadataCandidates (asset : PhysicalAsset)
    (document : Json) :
    Resolves (extractMetadataCandidates asset document) := by
  unfold extractMetadataCandidates
  split
  · exact resolves_addError ..
  · exact (((titleField.resolves asset document).append
      (descriptionField.resolves asset document)).append
      (favoriteField.resolves asset document)).append
      (resolves_extractTakenTime asset document)

/-- All that is parsed of an asset can be resolved. -/
private theorem resolves_parseAsset {sources : Sources}
    (h : parseAsset sources asset = some added) : Resolves added := by
  unfold parseAsset at h
  split at h
  · cases h
    exact resolves_addError ..
  split at h
  · cases h
    exact resolves_empty
  unfold parseJsonAsset at h
  dsimp only at h
  split at h
  · cases h
    exact resolves_addError ..
  split at h
  · cases h
    exact resolves_addError ..
  split at h
  · cases h
    exact resolves_extractMetadataCandidates ..
  · cases h
    exact resolves_addError ..
  · cases h

end Candidates

-- ================================================================= entries

section Entries

variable {sources : Sources} {order : HashOrder} {entry : DirectoryEntry}
  {entries : List DirectoryEntry} {part parsed : TakeoutParseResult}
  {parts : List TakeoutParseResult}

/-- An entry adds the asset it is classified as. -/
theorem parseEntry_assets (h : parseEntry sources entry = some part) :
    part.assets = (classifyPhysicalAsset entry).toList := by
  unfold parseEntry at h
  split at h
  · next hnone =>
    cases h
    rw [hnone]
    rfl
  · next asset hasset =>
    obtain ⟨added, hadded, hpart⟩ := Option.bind_eq_some_iff.1 h
    obtain rfl := Option.some.inj hpart
    show [asset] ++ added.assets = _
    rw [(describes_parseAsset hadded).assets, hasset]
    rfl

/-- All that is parsed of an entry can be resolved. -/
private theorem parseEntry_resolves (h : parseEntry sources entry = some part) :
    Resolves part := by
  unfold parseEntry at h
  split at h
  · cases h
    exact resolves_empty
  · obtain ⟨added, hadded, hpart⟩ := Option.bind_eq_some_iff.1 h
    obtain rfl := Option.some.inj hpart
    exact ⟨(resolves_parseAsset hadded).each⟩

/-- The assets have the paths of their entries. -/
private theorem parsed_paths (h : Parsed sources entries parts) :
    ((gather parts).assets.map (·.relativePath)).Sublist
      (entries.map (·.relativePath)) := by
  rw [assets_gather]
  induction h with
  | nil => exact List.Sublist.refl _
  | @cons entry part entries parts hparsed _ ih =>
      rw [List.flatMap_cons, List.map_append, List.map_cons,
        parseEntry_assets hparsed]
      cases hasset : classifyPhysicalAsset entry with
      | none => exact ih.cons _
      | some asset =>
          show (asset.relativePath :: _).Sublist _
          rw [classifyPhysicalAsset_path hasset]
          exact ih.cons_cons _

/-- Different paths make different ids. -/
private theorem parsed_ids (h : Parsed sources entries parts)
    (hpaths : (entries.map (·.relativePath)).Nodup) :
    ((gather parts).assets.map physicalAssetIdFor).Nodup := by
  have hassets := hpaths.sublist (parsed_paths h)
  rw [List.Nodup, List.pairwise_map] at hassets ⊢
  refine hassets.imp fun {a b} hne hid => hne ?_
  exact RelativePath.eq_of_bytes (physicalAssetIdFor_inj hid)

/-- Every candidate is one of an asset. -/
private theorem parsed_known {candidate : MetadataCandidate}
    (h : Parsed sources entries parts)
    (hmem : candidate ∈ (gather parts).candidates) :
    ∃ asset ∈ (gather parts).assets,
      candidate.assetId = physicalAssetIdFor asset := by
  rw [candidates_gather] at hmem
  obtain ⟨part, hpart, hcandidate⟩ := List.mem_flatMap.1 hmem
  obtain ⟨entry, -, hparsed⟩ := forall₂_exists_left h hpart
  obtain ⟨asset, hasset, hid⟩ :=
    (parseEntry_ofEntry hparsed).ids candidate hcandidate
  refine ⟨asset, ?_, hid⟩
  rw [assets_gather]
  refine List.mem_flatMap.2 ⟨part, hpart, ?_⟩
  rw [parseEntry_assets hparsed, hasset]
  exact List.mem_singleton_self _

/-- All that is parsed can be resolved. -/
private theorem parsed_resolves (h : Parsed sources entries parts) :
    Resolves (gather parts) := by
  refine ⟨fun candidate hmem => ?_⟩
  rw [candidates_gather] at hmem
  obtain ⟨part, hpart, hcandidate⟩ := List.mem_flatMap.1 hmem
  obtain ⟨entry, -, hparsed⟩ := forall₂_exists_left h hpart
  exact (parseEntry_resolves hparsed).each candidate hcandidate

/-- Candidates differ in their file or in their field. -/
theorem parsed_candidates_nodup (h : Parsed sources entries parts)
    (hpaths : (entries.map (·.relativePath)).Nodup) :
    (gather parts).candidates.Nodup := by
  rw [candidates_gather]
  induction h with
  | nil => exact List.nodup_nil
  | @cons entry part entries parts hparsed hrest ih =>
      rw [List.map_cons, List.nodup_cons] at hpaths
      have hentry := parseEntry_ofEntry hparsed
      rw [List.flatMap_cons, List.nodup_append]
      refine ⟨hentry.fields.of_map, ih hpaths.2, ?_⟩
      rintro candidate hmem later hlater rfl
      obtain ⟨part', hpart', hmem'⟩ := List.mem_flatMap.1 hlater
      obtain ⟨entry', hentry', hparsed'⟩ := forall₂_exists_left hrest hpart'
      obtain ⟨asset, hasset, hid⟩ := hentry.ids candidate hmem
      obtain ⟨asset', hasset', hid'⟩ :=
        (parseEntry_ofEntry hparsed').ids candidate hmem'
      have hpath : entry.relativePath = entry'.relativePath := by
        rw [← classifyPhysicalAsset_path hasset,
          ← classifyPhysicalAsset_path hasset']
        exact RelativePath.eq_of_bytes
          (physicalAssetIdFor_inj (hid.symm.trans hid'))
      apply hpaths.1
      rw [hpath]
      exact List.mem_map_of_mem hentry'

-- ================================================================= results

/-- Sorting keeps a result consistent. -/
theorem Consistent.sorted (h : Consistent parsed) :
    Consistent (sortResult parsed) where
  ids := ((perm_sortBy assetBefore parsed.assets).map _).nodup_iff.2 h.ids
  relations :=
    (perm_sortBy relationBefore parsed.relations).nodup_iff.2 h.relations
  ends := by
    intro relation hmem
    obtain ⟨media, hmedia, second, hsecond, hrelation⟩ :=
      h.ends relation (mem_sortBy.1 hmem)
    exact ⟨media, mem_sortBy.2 hmedia, second, mem_sortBy.2 hsecond, hrelation⟩
  candidates :=
    (perm_sortBy candidateBefore parsed.candidates).nodup_iff.2 h.candidates
  known := by
    intro candidate hmem
    obtain ⟨asset, hasset, hid⟩ := h.known candidate (mem_sortBy.1 hmem)
    exact ⟨asset, mem_sortBy.2 hasset, hid⟩
  resolvable := fun candidate hmem =>
    h.resolvable candidate (mem_sortBy.1 hmem)

/-- What is parsed of entries with different paths is consistent. -/
private theorem unsortedResult_consistent
    (hpaths : (entries.map (·.relativePath)).Nodup)
    (h : unsortedResult sources order entries = some parsed) :
    Consistent parsed := by
  obtain ⟨parts, hparts, hunsorted⟩ := Option.bind_eq_some_iff.1 h
  obtain rfl := Option.some.inj hunsorted
  have hparsed : Parsed sources entries parts := mapM_some.1 hparts
  have hbare := addRelationErrorsAndCandidates_bare order (gather parts).assets
  have hids := parsed_ids hparsed hpaths
  have hnone : (gather parts).relations = [] := by
    rw [relations_gather, List.flatMap_eq_nil_iff]
    intro part hpart
    obtain ⟨entry, -, hentry⟩ := forall₂_exists_left hparsed hpart
    exact (parseEntry_ofEntry hentry).relations
  have hassets : (gather parts
      ++ addRelationErrorsAndCandidates order (gather parts).assets).assets
      = (gather parts).assets := by
    show _ ++ _ = _
    rw [hbare.assets, List.append_nil]
  have hrelations : (gather parts
      ++ addRelationErrorsAndCandidates order (gather parts).assets).relations
      = (addRelationErrorsAndCandidates order (gather parts).assets).relations := by
    show _ ++ _ = _
    rw [hnone, List.nil_append]
  have hcandidates : (gather parts
      ++ addRelationErrorsAndCandidates order (gather parts).assets).candidates
      = (gather parts).candidates := by
    rw [candidates_append, hbare.candidates, List.append_nil]
  refine ⟨?_, ?_, ?_, ?_, ?_, ?_⟩
  · rw [hassets]
    exact hids
  · rw [hrelations]
    exact relations_nodup order hids
  · rw [hrelations, hassets]
    intro relation hmem
    obtain ⟨asset, hasset, hrelation⟩ := mem_relations hmem
    obtain ⟨media, hmedia, second, hsecond, hsaid⟩ :=
      outcome_saidBetween hasset hrelation
    exact ⟨media, hmedia, second, hsecond, hsaid.apart, hsaid.media,
      hsaid.second⟩
  · rw [hcandidates]
    exact parsed_candidates_nodup hparsed hpaths
  · rw [hcandidates, hassets]
    intro candidate
    exact parsed_known hparsed
  · rw [hcandidates]
    exact (parsed_resolves hparsed).each

/-- Every result of a parse is consistent. -/
theorem parse_consistent {strerror : Nat → Bytes}
    {answers : Nat → String → Except Status Unit} {tree : DirectoryTree}
    (h : parse strerror answers sources order tree.entries = .ok (some parsed)) :
    Consistent parsed := by
  unfold parse at h
  split at h
  · cases h
  · next state hwalk =>
    have hentries := Except.ok.inj h
    rw [parseEntries_eq] at hentries
    obtain ⟨unsorted, hunsorted, rfl⟩ := Option.map_eq_some_iff.1 hentries
    exact (unsortedResult_consistent (walkRoot_paths _ _ hwalk) hunsorted).sorted

end Entries

end PhotoBridge.Takeout
