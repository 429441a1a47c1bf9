/-
What the mapper accepts, and what it makes of it (`path_mapper.cpp`).

`mapAll` succeeds exactly on assets that map one by one, to distinct ids
and to target paths that stay distinct when ASCII case is folded; its
result is the one arrangement of the mappings in the order of their ids.

A path that folds to a directory above another is no collision to it.
Target paths that differ only behind a common prefix are such a pair
exactly if the source paths they were made of are (`mapAll_coexist`).
-/
import PhotoBridge.Lib.Joining
import PhotoBridge.Plan.Mapping
import PhotoBridge.Plan.Proofs.Canonical

namespace PhotoBridge

open Joining Sorting

variable {capabilities : TargetCapabilities} {policy : MigrationPolicy}

-- ========================================================== one mapping

/-- A mapping is of its asset, and its path is built from the asset's. -/
theorem mapTargetPath_ok {logical : LogicalAsset} {mapping : PathMapping}
    (h : mapTargetPath logical capabilities policy = .ok mapping) :
    mapping.logicalAssetId = logical.id ∧ ∃ sourcePath,
      logical.sourcePath = some sourcePath
      ∧ buildTargetPath sourcePath policy = .ok mapping.targetPath := by
  obtain ⟨_, -, h₁⟩ := bind_ok.1 h
  obtain ⟨_, -, h₂⟩ := bind_ok.1 h₁
  split at h₂
  · cases h₂
  · split at h₂
    · cases h₂
    · next sourcePath hsource =>
        obtain ⟨_, -, h₃⟩ := bind_ok.1 h₂
        obtain ⟨_, -, h₄⟩ := bind_ok.1 h₃
        obtain ⟨_, -, h₅⟩ := bind_ok.1 h₄
        obtain ⟨targetPath, hbuilt, h₆⟩ := bind_ok.1 h₅
        obtain ⟨_, -, h₇⟩ := bind_ok.1 h₆
        split at h₇
        · cases h₇
        · cases h₇
          exact ⟨rfl, sourcePath, hsource, hbuilt⟩

-- =========================================================== collisions

/-- The path a mapping leads to, with ASCII case folded. -/
def PathMapping.folded (mapping : PathMapping) : Bytes :=
  asciiCaseFoldKey mapping.targetPath.bytes

/-- The collision check passes exactly if no two target paths fold to
one, and none to a path met before. -/
theorem checkCollisions_ok {exactPaths foldedPaths : List Bytes}
    {mappings : List PathMapping}
    (hknown : ∀ path ∈ exactPaths, asciiCaseFoldKey path ∈ foldedPaths) :
    checkCollisions exactPaths foldedPaths mappings = .ok ()
      ↔ (mappings.map PathMapping.folded).Nodup
        ∧ ∀ m ∈ mappings, m.folded ∉ foldedPaths := by
  induction mappings generalizing exactPaths foldedPaths with
  | nil => simp [checkCollisions]
  | cons mapping rest ih =>
      have hnext : ∀ path ∈ mapping.targetPath.bytes :: exactPaths,
          asciiCaseFoldKey path ∈ mapping.folded :: foldedPaths := by
        intro path hpath
        rcases List.mem_cons.1 hpath with rfl | hpath
        · exact List.mem_cons_self
        · exact List.mem_cons_of_mem _ (hknown path hpath)
      simp only [checkCollisions]
      by_cases hexact : mapping.targetPath.bytes ∈ exactPaths
      · rw [if_pos (by simpa using hexact)]
        refine iff_of_false (fun h => by cases h) fun h => ?_
        exact h.2 mapping List.mem_cons_self (hknown _ hexact)
      · rw [if_neg (by simpa using hexact)]
        by_cases hfolded : mapping.folded ∈ foldedPaths
        · rw [if_pos (by simpa [PathMapping.folded] using hfolded)]
          refine iff_of_false (fun h => by cases h) fun h => ?_
          exact h.2 mapping List.mem_cons_self hfolded
        · rw [if_neg (by simpa [PathMapping.folded] using hfolded)]
          refine (ih hnext).trans ?_
          rw [List.map_cons, List.nodup_cons, List.forall_mem_cons]
          constructor
          · rintro ⟨hnodup, hnew⟩
            refine ⟨⟨fun hmem => ?_, hnodup⟩, hfolded, fun m hm hmem => ?_⟩
            · obtain ⟨m, hm, heq⟩ := List.mem_map.1 hmem
              exact hnew m hm (heq ▸ List.mem_cons_self)
            · exact hnew m hm (List.mem_cons_of_mem _ hmem)
          · rintro ⟨⟨hfirst, hnodup⟩, -, hnew⟩
            refine ⟨hnodup, fun m hm hmem => ?_⟩
            rcases List.mem_cons.1 hmem with heq | hmem
            · exact hfirst (heq ▸ List.mem_map_of_mem hm)
            · exact hnew m hm hmem

theorem PathMapping.before_comparator : Comparator PathMapping.before :=
  bytesLess_comparator.comap _

-- ========================================================= all mappings

/-- The assets map to these, one by one. -/
abbrev MapsEach (capabilities : TargetCapabilities) (policy : MigrationPolicy)
    (logicals : List LogicalAsset) (each : List PathMapping) : Prop :=
  List.Forall₂ (fun logical mapping =>
    mapTargetPath logical capabilities policy = .ok mapping) logicals each

theorem MapsEach.ids {logicals : List LogicalAsset} {each : List PathMapping}
    (h : MapsEach capabilities policy logicals each) :
    logicals.map (·.id) = each.map (·.logicalAssetId) :=
  forall₂_map_eq h fun _ _ hm => (mapTargetPath_ok hm).1.symm

/-- `MapAll` maps every asset, puts the mappings in the order of their
ids, and refuses equal ids and target paths that fold to one. -/
theorem mapAll_ok {logicals : List LogicalAsset}
    {mappings : List PathMapping} :
    mapAll logicals capabilities policy = .ok mappings
      ↔ ∃ each, MapsEach capabilities policy logicals each
        ∧ mappings = sortBy PathMapping.before each
        ∧ (each.map (·.logicalAssetId)).Nodup
        ∧ (each.map PathMapping.folded).Nodup := by
  have hadjacent : ∀ each : List PathMapping,
      adjacentFind ((sortBy PathMapping.before each).map (·.logicalAssetId))
        = false ↔ (each.map (·.logicalAssetId)).Nodup := by
    intro each
    have hpairwise := pairwise_sortBy PathMapping.before_comparator each
    rw [adjacentFind_sorted (bytesLess_separates _)
      (List.pairwise_map.2 hpairwise)]
    exact ((perm_sortBy _ each).map _).nodup_iff
  have hcollisions : ∀ each : List PathMapping,
      checkCollisions [] [] (sortBy PathMapping.before each) = .ok ()
        ↔ (each.map PathMapping.folded).Nodup := by
    intro each
    rw [checkCollisions_ok (by simp)]
    rw [((perm_sortBy PathMapping.before each).map _).nodup_iff]
    simp
  rw [mapAll, bind_ok]
  simp only [mapM_ok]
  constructor
  · rintro ⟨each, hmaps, h⟩
    split at h
    · cases h
    · next hids =>
        obtain ⟨_, hchecked, hsorted⟩ := bind_ok.1 h
        cases hsorted
        exact ⟨each, hmaps, rfl, (hadjacent each).1 (Bool.eq_false_iff.2 hids),
          (hcollisions each).1 hchecked⟩
  · rintro ⟨each, hmaps, rfl, hids, hfolded⟩
    refine ⟨each, hmaps, ?_⟩
    rw [if_neg (Bool.eq_false_iff.1 ((hadjacent each).2 hids)), bind_ok]
    exact ⟨(), (hcollisions each).2 hfolded, rfl⟩

/-- Distinct ids have one order. -/
theorem before_separates {each : List PathMapping}
    (h : (each.map (·.logicalAssetId)).Nodup) :
    Separates PathMapping.before each :=
  @Separates.of_keys _ _ bytesLess PathMapping.logicalAssetId each
    (bytesLess_separates _) h

/-- `MapAll` succeeds exactly if every asset maps, to distinct ids and to
target paths that stay distinct when folded; it returns these mappings in
the order of their ids, whatever the order of the assets. -/
theorem mapAll_spec (assets : List LogicalAsset)
    (capabilities : TargetCapabilities) (policy : MigrationPolicy) :
    ((∃ mappings, mapAll assets capabilities policy = .ok mappings)
      ↔ ∃ each, MapsEach capabilities policy assets each
        ∧ (assets.map (·.id)).Nodup
        ∧ (each.map PathMapping.folded).Nodup)
      ∧ (∀ mappings, mapAll assets capabilities policy = .ok mappings →
        (∃ each, MapsEach capabilities policy assets each
          ∧ mappings.Perm each)
        ∧ mappings.Pairwise fun a b =>
          a.logicalAssetId < b.logicalAssetId)
      ∧ ∀ rearranged, assets.Perm rearranged →
        ∀ mappings, mapAll assets capabilities policy = .ok mappings
          ↔ mapAll rearranged capabilities policy = .ok mappings := by
  refine ⟨?_, ?_, ?_⟩
  · constructor
    · rintro ⟨mappings, h⟩
      obtain ⟨each, hmaps, -, hids, hfolded⟩ := mapAll_ok.1 h
      exact ⟨each, hmaps, by rw [hmaps.ids]; exact hids, hfolded⟩
    · rintro ⟨each, hmaps, hids, hfolded⟩
      rw [hmaps.ids] at hids
      exact ⟨_, mapAll_ok.2 ⟨each, hmaps, rfl, hids, hfolded⟩⟩
  · intro mappings h
    obtain ⟨each, hmaps, rfl, hids, -⟩ := mapAll_ok.1 h
    have hperm := perm_sortBy PathMapping.before each
    have hsorted := pairwise_sortBy PathMapping.before_comparator each
    have hdistinct := List.pairwise_map.1 ((hperm.map _).nodup_iff.2 hids)
    refine ⟨⟨each, hmaps, hperm⟩, (hsorted.and hdistinct).imp ?_⟩
    intro a b hab
    have hle := List.not_lt.1 (of_decide_eq_false hab.1)
    by_contra hnot
    exact hab.2 (List.le_antisymm hle (List.not_lt.1 hnot))
  · have hone : ∀ {xs ys : List LogicalAsset}, xs.Perm ys → ∀ mappings,
        mapAll xs capabilities policy = .ok mappings →
        mapAll ys capabilities policy = .ok mappings := by
      intro xs ys hperm mappings h
      obtain ⟨each, hmaps, rfl, hids, hfolded⟩ := mapAll_ok.1 h
      obtain ⟨each', heach, hmaps'⟩ := forall₂_perm hmaps.flip hperm
      refine mapAll_ok.2 ⟨each', hmaps'.flip, ?_, ?_, ?_⟩
      · exact sortBy_congr PathMapping.before_comparator
          (before_separates hids) heach.symm
      · exact (heach.map _).nodup_iff.2 hids
      · exact (heach.map _).nodup_iff.2 hfolded
    intro rearranged hperm mappings
    exact ⟨hone hperm mappings, hone hperm.symm mappings⟩

-- ============================================= directories above targets

/-- The components of a path have no separator in them. -/
theorem parseComponents_noSlash {component raw : Bytes}
    {components : List Bytes} (h : parseComponents component raw = .ok components)
    (hcomponent : 47 ∉ component) : ∀ c ∈ components, 47 ∉ c := by
  induction raw generalizing component components with
  | nil =>
      obtain ⟨_, -, hcomponents⟩ := bind_ok.1 h
      cases hcomponents
      simpa using hcomponent
  | cons byte rest ih =>
      rw [parseComponents] at h
      split at h
      · obtain ⟨_, -, h₁⟩ := bind_ok.1 h
        obtain ⟨tail, htail, hcomponents⟩ := bind_ok.1 h₁
        cases hcomponents
        rw [List.forall_mem_cons]
        exact ⟨hcomponent, ih htail (by simp)⟩
      · next hbyte =>
          refine ih h ?_
          rw [List.mem_append, List.mem_singleton]
          rintro (hmem | rfl)
          · exact hcomponent hmem
          · exact hbyte rfl

theorem RelativePath.noSlash (path : RelativePath) :
    ∀ c ∈ path.components, 47 ∉ c := by
  have hparsed := path.parsed
  unfold checkRelativePath at hparsed
  split at hparsed
  · cases hparsed
  · split at hparsed
    · cases hparsed
    · split at hparsed
      · cases hparsed
      · exact parseComponents_noSlash hparsed (by simp)

/-- No other byte is lowered to a separator, and a separator stays one. -/
theorem toLower_slash {byte : UInt8} : toLower byte = 47 ↔ byte = 47 := by
  unfold toLower
  constructor
  · intro h
    split at h
    · next hupper =>
        rw [UInt8.le_iff_toNat_le, UInt8.le_iff_toNat_le] at hupper
        have hnat := congrArg UInt8.toNat h
        rw [UInt8.toNat_add] at hnat
        simp only [UInt8.reduceToNat] at hupper hnat
        omega
    · exact h
  · rintro rfl
    decide

/-- Folding makes no separators, and takes none away. -/
theorem slash_mem_fold {path : Bytes} :
    47 ∈ asciiCaseFoldKey path ↔ 47 ∈ path := by
  have hbyte : ∀ byte : UInt8,
      (if byte < 128 then toLower byte else byte) = 47 ↔ byte = 47 := by
    intro byte
    split
    · exact toLower_slash
    · exact Iff.rfl
  simp only [asciiCaseFoldKey, List.mem_map, hbyte]
  simp

/-- The path `above` is that of a directory the path `below` leads
through. -/
def IsDirectoryOf (above below : Bytes) : Prop := above ++ [47] <+: below

instance (above below : Bytes) : Decidable (IsDirectoryOf above below) :=
  inferInstanceAs (Decidable (_ <+: _))

/-- The targets can stand in one directory tree that ignores ASCII case:
no two are equal, and none has to be a file and a directory. -/
def Coexist (mappings : List PathMapping) : Prop :=
  (mappings.map PathMapping.folded).Nodup
    ∧ ∀ above ∈ mappings, ∀ below ∈ mappings,
      ¬IsDirectoryOf above.folded below.folded

/-- What all target paths of a policy start with. -/
def MigrationPolicy.front (policy : MigrationPolicy) : Bytes :=
  if policy.targetPrefix.isEmpty then [] else policy.targetPrefix ++ text "/"

/-- What a policy keeps of a source path. -/
def MigrationPolicy.part (policy : MigrationPolicy) (path : RelativePath) :
    Bytes :=
  if policy.preserveSourceDirectories then path.bytes
  else path.components.getLast?.getD []

theorem MigrationPolicy.part_nested {policy : MigrationPolicy}
    (h : policy.preserveSourceDirectories = true) (path : RelativePath) :
    policy.part path = path.bytes :=
  if_pos h

theorem MigrationPolicy.part_flat {policy : MigrationPolicy}
    (h : policy.preserveSourceDirectories = false) (path : RelativePath) :
    policy.part path = path.components.getLast?.getD [] :=
  if_neg (Bool.eq_false_iff.1 h)

theorem RelativePath.lastComponent_noSlash (path : RelativePath) :
    47 ∉ path.components.getLast?.getD [] := by
  cases hlast : path.components.getLast? with
  | none => simp
  | some name => exact path.noSlash name (List.mem_of_getLast? hlast)

/-- The target path, by the parts it is made of. -/
theorem mapTargetPath_folded {logical : LogicalAsset} {mapping : PathMapping}
    (h : mapTargetPath logical capabilities policy = .ok mapping) :
    ∃ path, logical.sourcePath = some path
      ∧ mapping.folded
        = asciiCaseFoldKey (policy.front ++ policy.part path) := by
  obtain ⟨-, path, hpath, hbuilt⟩ := mapTargetPath_ok h
  refine ⟨path, hpath, ?_⟩
  rw [PathMapping.folded, RelativePath.parse_bytes hbuilt]
  rfl

/-- A directory above a target path is one above the part behind the
common prefix. -/
theorem isDirectoryOf_fold_append {front above below : Bytes} :
    IsDirectoryOf (asciiCaseFoldKey (front ++ above))
        (asciiCaseFoldKey (front ++ below))
      ↔ IsDirectoryOf (asciiCaseFoldKey above) (asciiCaseFoldKey below) := by
  unfold IsDirectoryOf asciiCaseFoldKey
  rw [List.map_append, List.map_append, List.append_assoc,
    List.prefix_append_right_inj]

/-- No name leads through a directory. -/
theorem not_isDirectoryOf_name {above name : Bytes} (h : 47 ∉ name) :
    ¬IsDirectoryOf above (asciiCaseFoldKey name) := by
  intro hprefix
  apply h
  rw [← slash_mem_fold]
  exact hprefix.subset (by simp)

/-- Where `MapAll` succeeds, the targets can coexist exactly if the policy
flattens source directories, or no asset's source path folds to a
directory above another's. -/
theorem mapAll_coexist {assets : List LogicalAsset}
    {mappings : List PathMapping}
    (h : mapAll assets capabilities policy = .ok mappings) :
    Coexist mappings
      ↔ policy.preserveSourceDirectories = false
        ∨ ∀ a ∈ assets, ∀ b ∈ assets, ∀ s ∈ a.sourcePath,
          ∀ t ∈ b.sourcePath,
          ¬IsDirectoryOf (asciiCaseFoldKey s.bytes)
            (asciiCaseFoldKey t.bytes) := by
  obtain ⟨each, hmaps, rfl, -, hfolded⟩ := mapAll_ok.1 h
  have hperm := perm_sortBy PathMapping.before each
  have hcoexist : Coexist (sortBy PathMapping.before each)
      ↔ ∀ above ∈ each, ∀ below ∈ each,
        ¬IsDirectoryOf above.folded below.folded := by
    unfold Coexist
    rw [(hperm.map _).nodup_iff]
    simp only [hperm.mem_iff, hfolded, true_and]
  rw [hcoexist]
  cases hpreserve : policy.preserveSourceDirectories with
  | false =>
      refine iff_of_true (fun above habove below hbelow => ?_) (.inl rfl)
      obtain ⟨a, -, ha⟩ := forall₂_exists_left hmaps habove
      obtain ⟨b, -, hb⟩ := forall₂_exists_left hmaps hbelow
      obtain ⟨s, -, hs⟩ := mapTargetPath_folded ha
      obtain ⟨t, -, ht⟩ := mapTargetPath_folded hb
      rw [hs, ht, isDirectoryOf_fold_append, policy.part_flat hpreserve,
        policy.part_flat hpreserve]
      exact not_isDirectoryOf_name (t.lastComponent_noSlash)
  | true =>
      constructor
      · intro hcoexists
        right
        intro a ha b hb s hs t ht
        obtain ⟨above, habove, hma⟩ := forall₂_exists_right hmaps ha
        obtain ⟨below, hbelow, hmb⟩ := forall₂_exists_right hmaps hb
        obtain ⟨s', hs', hfolda⟩ := mapTargetPath_folded hma
        obtain ⟨t', ht', hfoldb⟩ := mapTargetPath_folded hmb
        cases hs.symm.trans hs'
        cases ht.symm.trans ht'
        have hnot := hcoexists above habove below hbelow
        rw [hfolda, hfoldb, isDirectoryOf_fold_append,
          policy.part_nested hpreserve, policy.part_nested hpreserve] at hnot
        exact hnot
      · intro hsources above habove below hbelow
        obtain ⟨a, ha, hma⟩ := forall₂_exists_left hmaps habove
        obtain ⟨b, hb, hmb⟩ := forall₂_exists_left hmaps hbelow
        obtain ⟨s, hs, hfolda⟩ := mapTargetPath_folded hma
        obtain ⟨t, ht, hfoldb⟩ := mapTargetPath_folded hmb
        rw [hfolda, hfoldb, isDirectoryOf_fold_append,
          policy.part_nested hpreserve, policy.part_nested hpreserve]
        have hnot := hsources.resolve_left (by simp)
        exact hnot a ha b hb s hs t ht

-- ============================================================== examples

def assetAt (id : String) (path : RelativePath) : LogicalAsset :=
  ⟨text id, [text "member"], some path⟩

/-- The files `a` and `b` of one directory. -/
def siblings : List LogicalAsset :=
  [assetAt "1" ⟨text "a", [text "a"], rfl⟩,
    assetAt "2" ⟨text "b", [text "b"], rfl⟩]

theorem mapAll_coexist_siblings :
    ∃ mappings, mapAll siblings localDirectoryCapabilitiesV1 {} = .ok mappings
      ∧ Coexist mappings := by
  have hrun : ∃ mappings, mapAll siblings localDirectoryCapabilitiesV1 {}
      = .ok mappings := ⟨_, rfl⟩
  obtain ⟨mappings, h⟩ := hrun
  exact ⟨mappings, h, (mapAll_coexist h).2 (.inr (by decide +kernel))⟩

/-- The file `a` beside the file `b` of a directory `A`. -/
def fileAndDirectory : List LogicalAsset :=
  [assetAt "1" ⟨text "a", [text "a"], rfl⟩,
    assetAt "2" ⟨text "A/b", [text "A", text "b"], rfl⟩]

/-- On a target that ignores case, `a` would have to be both. -/
theorem mapAll_not_coexist :
    ∃ mappings, mapAll fileAndDirectory localDirectoryCapabilitiesV1 {}
        = .ok mappings
      ∧ ∃ above ∈ mappings, ∃ below ∈ mappings,
        IsDirectoryOf above.folded below.folded := by
  refine ⟨_, rfl, ?_⟩
  decide +kernel

end PhotoBridge
