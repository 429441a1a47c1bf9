/-
What the relations of a parse come down to: for each asset, what is said
of it. Nothing here goes through a table; the assets with a key are looked
up among all of them, so an outcome depends on the assets as a set only.
`Takeout/Proofs/Outcomes.lean` shows that `AddRelationErrorsAndCandidates`
adds these outcomes and nothing else.
-/
import PhotoBridge.Takeout.Parser

namespace PhotoBridge.Takeout

-- ================================================================= assets

/-- The media files with a key. -/
def mediaWith (assets : List PhysicalAsset) (key : Bytes) :
    List PhysicalAsset :=
  (assets.filter isMedia).filter (basenameKey · = key)

/-- The sidecars with a key. -/
def sidecarsWith (assets : List PhysicalAsset) (key : Bytes) :
    List PhysicalAsset :=
  (assets.filter (isSidecar ·.kind)).filter (basenameKey · = key)

/-- The directory a file is in. -/
def directory (asset : PhysicalAsset) : List Bytes :=
  asset.relativePath.components.dropLast

/-- The part of a file's name that is compared. -/
def stem (asset : PhysicalAsset) : Bytes :=
  if isSidecar asset.kind then canonicalSidecarStem asset
  else basenameWithoutExtension asset

/-- The sidecar's name may be that of the media file, cut short. -/
def isCutFrom (sidecar media : PhysicalAsset) : Bool :=
  directory media == directory sidecar
    && decide (minimumUnambiguousStemBytes ≤ (stem sidecar).length)
    && (stem sidecar).isPrefixOf (stem media) && stem media != stem sidecar

/-- The media files whose name a sidecar's may be cut from. -/
def cutFrom (assets : List PhysicalAsset) (sidecar : PhysicalAsset) :
    List PhysicalAsset :=
  (assets.filter isMedia).filter (isCutFrom sidecar)

/-- The only element, if there is one. -/
def single {α : Type} : List α → Option α
  | [a] => some a
  | _ => none

-- =============================================================== sidecars

/-- A sidecar without media of its key. -/
def unmatchedOutcome (assets : List PhysicalAsset) (sidecar : PhysicalAsset) :
    TakeoutParseResult :=
  match single (cutFrom assets sidecar) with
  | some _ => addError sidecar.relativePath "truncated_basename_match"
      (text ("sidecar basename is a strict prefix of a media basename; "
        ++ "relation is not inferred"))
  | none =>
      if (cutFrom assets sidecar).isEmpty then
        addError sidecar.relativePath "orphan_sidecar"
          (text "sidecar has no media with the same directory and basename")
      else addError sidecar.relativePath "ambiguous_truncated_basename"
        (text ("sidecar basename is a strict prefix of multiple media "
          ++ "basenames; relation is ambiguous"))

/-- What is said of a sidecar. -/
def sidecarOutcome (assets : List PhysicalAsset) (sidecar : PhysicalAsset) :
    TakeoutParseResult :=
  match single (mediaWith assets (basenameKey sidecar)),
      single (sidecarsWith assets (basenameKey sidecar)) with
  | some media, some _ => { relations := [sidecarRelation media sidecar] }
  | _, _ =>
      if (mediaWith assets (basenameKey sidecar)).isEmpty then
        unmatchedOutcome assets sidecar
      else addError sidecar.relativePath "ambiguous_sidecar_relation"
        (text "same basename matches multiple media or sidecar files")

-- ================================================================== media

/-- What a search says of one of the media files with a key: the first of a
pair is named with the other, and all are where there is no single pair. -/
def PairSearch.outcome (search : PairSearch) (media : List PhysicalAsset)
    (asset : PhysicalAsset) : TakeoutParseResult :=
  match single (search.firsts media), single (search.seconds media) with
  | some _, some second =>
      if search.first asset then { relations := [search.relate asset second] }
      else {}
  | _, _ =>
      if search.relates media then
        addError asset.relativePath search.code (text search.message)
      else {}

/-- A sidecar's name may be cut from this file's and from no other, and
there is no media of the sidecar's own key. -/
def hasWeakSidecar (assets : List PhysicalAsset) (media : PhysicalAsset) :
    Bool :=
  assets.any fun sidecar => isSidecar sidecar.kind
    && (mediaWith assets (basenameKey sidecar)).isEmpty
    && single (cutFrom assets sidecar) == some media

/-- Nothing belongs to the media file: no sidecar, no other media file and
no sidecar with its name cut short. -/
def isMissingSidecar (assets : List PhysicalAsset) (media : PhysicalAsset) :
    Bool :=
  (sidecarsWith assets (basenameKey media)).isEmpty
    && !rawJpegSearch.relates (mediaWith assets (basenameKey media))
    && !livePhotoSearch.relates (mediaWith assets (basenameKey media))
    && !hasWeakSidecar assets media

/-- What is said of a media file. -/
def mediaOutcome (assets : List PhysicalAsset) (media : PhysicalAsset) :
    TakeoutParseResult :=
  rawJpegSearch.outcome (mediaWith assets (basenameKey media)) media
    ++ livePhotoSearch.outcome (mediaWith assets (basenameKey media)) media
    ++ if isMissingSidecar assets media then missingSidecars [media] else {}

/-- What is said of an asset. -/
def outcome (assets : List PhysicalAsset) (asset : PhysicalAsset) :
    TakeoutParseResult :=
  if isMedia asset then mediaOutcome assets asset
  else if isSidecar asset.kind then sidecarOutcome assets asset
  else {}

-- ================================================================ reports

/-- The relations a file is in. -/
def relationsOf (result : TakeoutParseResult) (asset : PhysicalAsset) :
    List SourceRelationCandidate :=
  result.relations.filter fun relation =>
    relation.mediaAssetId = physicalAssetIdFor asset
      ∨ relation.sidecarAssetId = physicalAssetIdFor asset

/-- The codes of the errors at a file's path. -/
def codesOf (result : TakeoutParseResult) (asset : PhysicalAsset) :
    List Bytes :=
  (result.errors.filter (·.relativePath = asset.relativePath)).map (·.code)

/-- The sidecar and the media file have a key to themselves. -/
def Belongs (assets : List PhysicalAsset) (sidecar media : PhysicalAsset) :
    Prop :=
  mediaWith assets (basenameKey sidecar) = [media]
    ∧ sidecarsWith assets (basenameKey sidecar) = [sidecar]

/-- What is to be reported of a sidecar: one relation or one error, and
which one. -/
structure OneOutcome (assets : List PhysicalAsset) (sidecar : PhysicalAsset)
    (relations : List SourceRelationCandidate) (codes : List Bytes) :
    Prop where
  one : relations.length + codes.length = 1
  relation : ∀ relation, relation ∈ relations
    ↔ ∃ media, Belongs assets sidecar media
      ∧ relation = sidecarRelation media sidecar
  ambiguous : text "ambiguous_sidecar_relation" ∈ codes
    ↔ mediaWith assets (basenameKey sidecar) ≠ []
      ∧ ¬∃ media, Belongs assets sidecar media
  truncated : text "truncated_basename_match" ∈ codes
    ↔ mediaWith assets (basenameKey sidecar) = []
      ∧ (cutFrom assets sidecar).length = 1
  ambiguousTruncated : text "ambiguous_truncated_basename" ∈ codes
    ↔ mediaWith assets (basenameKey sidecar) = []
      ∧ 2 ≤ (cutFrom assets sidecar).length
  orphan : text "orphan_sidecar" ∈ codes
    ↔ mediaWith assets (basenameKey sidecar) = []
      ∧ cutFrom assets sidecar = []

/-- The media file is in a relation, or at fault in an error about the
relations of media files. -/
def IsReported (result : TakeoutParseResult) (media : PhysicalAsset) : Prop :=
  relationsOf result media ≠ []
    ∨ ∃ code ∈ codesOf result media, code = text "missing_sidecar"
      ∨ code = text rawJpegSearch.code ∨ code = text livePhotoSearch.code

/-- There is a single pair, and the file is not in it. -/
def PairSearch.LeavesOut (search : PairSearch) (media : List PhysicalAsset)
    (asset : PhysicalAsset) : Prop :=
  ∃ first second, search.firsts media = [first]
    ∧ search.seconds media = [second] ∧ asset ≠ first ∧ asset ≠ second

/-- Some of the media files with the key are pairs, and this one is in none
of them. -/
def Overlooked (assets : List PhysicalAsset) (media : PhysicalAsset) : Prop :=
  (∃ search ∈ [rawJpegSearch, livePhotoSearch],
      search.relates (mediaWith assets (basenameKey media)) = true)
    ∧ ∀ search ∈ [rawJpegSearch, livePhotoSearch],
      search.relates (mediaWith assets (basenameKey media)) = true →
      search.LeavesOut (mediaWith assets (basenameKey media)) media

end PhotoBridge.Takeout
