/-
Planning is a bijection between a frozen manifest and its plan.

# The chain

A run that succeeds has gone over the manifest's assets four times: to
logical assets, to mappings, into the mappings' order, and into the
plan's. Every pass pairs what it reads with what it makes
(Lib/Joining.lean), so the pairs compose to a pairing of rows and plan
assets.

# The join

The two searches for equal ids would go wrong if two assets shared one.
They cannot: equal paths, and equal hashes of different paths, both give
equal logical ids, and `MapAll` has refused those (`mapAll_ok`).

# Running it again

What `Execute` reads is a function of the manifest's row and its asset
rows in path order (`planArtifactOf`). A plan's manifest has no two equal
paths, so that order is one and the same however the rows are stored.
-/
import PhotoBridge.Manifest.Proofs.Digest
import PhotoBridge.Pipeline.Planning
import PhotoBridge.Plan.Proofs.Artifact
import PhotoBridge.Plan.Proofs.Mapping

namespace PhotoBridge

open JsonText Joining Sorting Transaction

-- ======================================================== logical assets

variable {blake3 : Bytes → Digest}

/-- A logical asset has its physical asset as its one member. -/
theorem mapPhysicalAsset_ok {asset : PhysicalAsset} {logical : LogicalAsset}
    (h : mapPhysicalAssetToLogicalAsset blake3 asset = .ok logical) :
    logicalAssetIdForMembers blake3 [physicalAssetIdFor asset]
        = .ok logical.id
      ∧ logical.members = [physicalAssetIdFor asset]
      ∧ logical.sourcePath = some asset.relativePath := by
  obtain ⟨id, hid, hlogical⟩ := bind_ok.1 h
  cases hlogical
  exact ⟨hid, rfl, rfl⟩

-- ============================================================== mapping

variable {capabilities : TargetCapabilities} {policy : MigrationPolicy}

-- ============================================================= the join

/-- What a pass over the assets has made of one of them. -/
structure Mapped (blake3 : Bytes → Digest) (asset : PhysicalAsset)
    (mapping : PathMapping) : Prop where
  id : logicalAssetIdForMembers blake3 [physicalAssetIdFor asset]
    = .ok mapping.logicalAssetId
  target : mapTargetPath ⟨mapping.logicalAssetId,
      [physicalAssetIdFor asset], some asset.relativePath⟩
    localDirectoryCapabilitiesV1 {} = .ok mapping

/-- The plan asset that belongs to an asset and its mapping. -/
def planAssetOf (asset : PhysicalAsset) (mapping : PathMapping) :
    MinimalPlanAsset :=
  ⟨mapping.logicalAssetId, physicalAssetIdFor asset, asset.relativePath,
    mapping.targetPath, asset.identity⟩

/-- Between assets and logical assets without equal ids, the searches find
the asset the mapping is of. -/
theorem bindPlanAsset_eq {physicals : List PhysicalAsset}
    {logicals : List LogicalAsset} {asset : PhysicalAsset}
    {logical : LogicalAsset} {mapping : PathMapping}
    (hphysicals : (physicals.map physicalAssetIdFor).Nodup)
    (hlogicals : (logicals.map (·.id)).Nodup)
    (hmem : asset ∈ physicals ∧ logical ∈ logicals)
    (hlogical : mapPhysicalAssetToLogicalAsset blake3 asset = .ok logical)
    (hid : mapping.logicalAssetId = logical.id) :
    bindPlanAsset physicals logicals mapping
      = .ok (planAssetOf asset mapping) := by
  obtain ⟨-, hmembers, hsource⟩ := mapPhysicalAsset_ok hlogical
  have hfound := find?_key hlogicals hmem.2
  have hphysical := find?_key hphysicals hmem.1
  obtain ⟨id, members, sourcePath⟩ := logical
  simp only at hmembers hsource hid hfound
  subst hmembers hsource
  unfold bindPlanAsset
  rw [hid, hfound]
  simp only [hphysical, planAssetOf, hid]

private theorem bindPlanAsset_target {physicals : List PhysicalAsset}
    {logicals : List LogicalAsset} {mapping : PathMapping}
    {planAsset : MinimalPlanAsset}
    (h : bindPlanAsset physicals logicals mapping = .ok planAsset) :
    mapping.targetPath = planAsset.targetPath := by
  unfold bindPlanAsset at h
  split at h
  · split at h
    · cases h
      rfl
    · cases h
  · cases h

-- ============================================================== the plan

/-- A plan's assets are the manifest's, one each, under their own ids and
identities, and their target paths do not collide. -/
structure PlannedFrom (blake3 : Bytes → Digest) (manifest : FrozenManifest)
    (targetPath : Bytes) (physicals : List PhysicalAsset)
    (plan : CanonicalMinimalPlan) : Prop where
  sourceManifestId : plan.sourceManifestId = manifest.manifestId
  sourceManifestDigest : plan.sourceManifestDigest = manifest.manifestDigest
  targetRoot : plan.targetRoot = targetPath
  assets : ∃ ordered : List PhysicalAsset, ordered.Perm physicals
    ∧ List.Forall₂ (fun asset planAsset => ∃ mapping,
        Mapped blake3 asset mapping ∧ planAsset = planAssetOf asset mapping)
      ordered plan.assets
  folded : (plan.assets.map fun planAsset =>
    asciiCaseFoldKey planAsset.targetPath.bytes).Nodup
  /-- The manifest had no two equal paths. -/
  distinct : (physicals.map physicalAssetIdFor).Nodup

private theorem planFor_ok {manifest : FrozenManifest} {targetPath : Bytes}
    {physicals : List PhysicalAsset} {plan : CanonicalMinimalPlan}
    (h : planFor blake3 manifest targetPath physicals = .ok plan) :
    PlannedFrom blake3 manifest targetPath physicals plan := by
  obtain ⟨logicals, hlogicals, h₁⟩ := bind_ok.1 h
  obtain ⟨_, -, h₂⟩ := bind_ok.1 h₁
  obtain ⟨mappings, hmappings, h₃⟩ := bind_ok.1 h₂
  obtain ⟨planAssets, hassets, hbuild⟩ := bind_ok.1 h₃
  obtain ⟨-, rfl⟩ := build_ok.1 hbuild
  obtain ⟨unsorted, hmapped, rfl, hids, hfolds⟩ := mapAll_ok.1 hmappings
  have hperm := perm_sortBy PathMapping.before unsorted
  have hfolded := (hperm.map PathMapping.folded).nodup_iff.2 hfolds
  have hpass := forall₂_mem (mapM_ok.1 hlogicals)
  have hbound := mapM_ok.1 hassets
  have hsorted := perm_sortBy MinimalPlanAsset.before planAssets
  -- no two logical assets share an id, so no two assets do
  have hlogicalIds : (logicals.map (·.id)).Nodup := by
    rw [MapsEach.ids hmapped]
    exact hids
  have hdistinct : (physicals.map physicalAssetIdFor).Nodup := by
    refine forall₂_nodup hpass (fun a l a' l' hl hl' heq => ?_) hlogicalIds
    have hid := (mapPhysicalAsset_ok hl.2).1
    have hid' := (mapPhysicalAsset_ok hl'.2).1
    rw [heq, hid'] at hid
    exact (Except.ok.inj hid).symm
  -- the pairing of assets and mappings, in the mappings' order
  obtain ⟨ordered, horder, hpairs⟩ :=
    forall₂_perm (forall₂_comp hpass hmapped) hperm.symm
  have hplan := forall₂_comp hpairs hbound
  obtain ⟨ordered', horder', hpairs'⟩ := forall₂_perm hplan hsorted.symm
  refine ⟨rfl, rfl, rfl, ⟨ordered', horder'.trans horder, ?_⟩, ?_, hdistinct⟩
  · refine hpairs'.imp fun a p hap => ?_
    obtain ⟨m, ⟨l, ⟨hmem, hl⟩, hm⟩, hp⟩ := hap
    have hid := (mapTargetPath_ok hm).1
    obtain ⟨hlogicalId, hmembers, hsource⟩ := mapPhysicalAsset_ok hl
    rw [bindPlanAsset_eq hdistinct hlogicalIds hmem hl hid] at hp
    refine ⟨m, ⟨?_, ?_⟩, (Except.ok.inj hp).symm⟩
    · rw [hid]
      exact hlogicalId
    · rw [hid, ← hmembers, ← hsource]
      exact hm
  · refine (hsorted.map _).nodup_iff.2 ?_
    rw [forall₂_map_eq hbound (f := PathMapping.folded)
      (g := fun p : MinimalPlanAsset => asciiCaseFoldKey p.targetPath.bytes)
      fun m p hp => by
        rw [PathMapping.folded, bindPlanAsset_target hp]] at hfolded
    exact hfolded

-- ================================================================= rows

private theorem readUnsignedInteger_ok {cell : Cell} {fieldName : String}
    {value : UInt64} (h : readUnsignedInteger cell fieldName = .ok value) :
    cell.Holds value := by
  unfold readUnsignedInteger at h
  split at h
  · next number =>
      split at h
      · cases h
      · next hnonneg =>
          cases h
          refine ⟨number, rfl, ?_⟩
          rw [Int64.lt_iff_toInt_lt, Int64.toInt_zero] at hnonneg
          have hle : (0 : Int64) ≤ number := by
            rw [Int64.le_iff_toInt_le, Int64.toInt_zero]
            omega
          rw [Int64.toNat_toUInt64_of_le hle]
          show number.toInt = (number.toInt.toNat : Int)
          omega
  · cases h

/-- The row is of the asset. -/
structure RowOf (row : PhysicalAssetRow) (asset : PhysicalAsset) : Prop where
  relativePath : row.relativePath = .blob asset.relativePath.bytes
  device : row.device.Holds asset.identity.device
  inode : row.inode.Holds asset.identity.inode
  size : row.size.Holds asset.identity.size
  mtimeNs : row.mtimeNs = .integer asset.identity.mtimeNs
  ctimeNs : row.ctimeNs = .integer asset.identity.ctimeNs
  mountId : asset.identity.mountId = none

theorem readManifestAsset_ok {row : PhysicalAssetRow} {asset : PhysicalAsset}
    (h : readManifestAsset row = .ok asset) : RowOf row asset := by
  unfold readManifestAsset at h
  split at h
  · next path hpath =>
      split at h
      · cases h
      · obtain ⟨relativePath, hparse, h₁⟩ := bind_ok.1 h
        obtain ⟨device, hdevice, h₂⟩ := bind_ok.1 h₁
        obtain ⟨inode, hinode, h₃⟩ := bind_ok.1 h₂
        obtain ⟨size, hsize, h₄⟩ := bind_ok.1 h₃
        split at h₄
        · next mtime ctime kind hmtime hctime hkind =>
            split at h₄
            · cases h₄
              refine ⟨?_, readUnsignedInteger_ok hdevice,
                readUnsignedInteger_ok hinode, readUnsignedInteger_ok hsize,
                hmtime, hctime, rfl⟩
              rw [hpath, RelativePath.parse_bytes hparse]
            · cases h₄
        · cases h₄
  · cases h

-- ========================================================== the artifact

variable {codec : Codec}

/-- What `Execute` makes of the tables, up to the artifact. -/
def planArtifactOf (codec : Codec) (blake3 : Bytes → Digest)
    (inputPath targetPath : Bytes) (db : ManifestDb) :
    Except Status FrozenPlanFile :=
  if targetPath.isEmpty then
    .error (.invalid "plan stage requires a target root")
  else do
    let manifest ← frozenManifestOf blake3 inputPath db
    let physicals ← (sortBy PhysicalAssetRow.byPath
      (db.assetsOf manifest.manifestId)).mapM readManifestAsset
    let plan ← planFor blake3 manifest targetPath physicals
    writeFrozenPlan codec blake3 plan (planIdFor blake3 plan)

private theorem reads_planArtifact {μ : Type} (inputPath targetPath : Bytes) :
    Session.Reads false
      (planArtifact codec blake3 inputPath targetPath
        : ManifestSession μ FrozenPlanFile)
      (planArtifactOf codec blake3 inputPath targetPath) := by
  unfold planArtifact planArtifactOf
  split
  · exact .throw _
  · refine Session.Reads.bind (reads_reopen _) fun manifest => ?_
    have hassets : Session.Reads false
        (readManifestAssets manifest.manifestId
          : ManifestSession μ (List PhysicalAsset))
        fun db => (sortBy PhysicalAssetRow.byPath
          (db.assetsOf manifest.manifestId)).mapM readManifestAsset :=
      (Session.Reads.bind (reads_selectRows _)
        (g := fun rows _ => rows.mapM readManifestAsset)
        fun rows => reads_checked _).congr fun db => rfl
    refine Session.Reads.bind hassets fun physicals => ?_
    refine Session.Reads.bind (reads_checked _) fun plan => ?_
    exact reads_checked _

theorem writeFrozenPlan_ok {plan : CanonicalMinimalPlan} {planId : Bytes}
    {file : FrozenPlanFile}
    (h : writeFrozenPlan codec blake3 plan planId = .ok file) :
    file.planId = planId ∧ file.plan = plan := by
  unfold writeFrozenPlan at h
  split at h
  · cases h
  · obtain ⟨bytes, -, hfile⟩ := bind_ok.1 h
    cases hfile
    exact ⟨rfl, rfl⟩

/-- What lies behind an artifact. -/
theorem planArtifactOf_ok {inputPath targetPath : Bytes} {db : ManifestDb}
    {artifact : FrozenPlanFile}
    (h : planArtifactOf codec blake3 inputPath targetPath db = .ok artifact) :
    ∃ manifest physicals, manifest.manifestId = inputPath
      ∧ List.Forall₂ RowOf
        (sortBy PhysicalAssetRow.byPath (db.assetsOf inputPath)) physicals
      ∧ PlannedFrom blake3 manifest targetPath physicals artifact.plan
      ∧ artifact.planId = planIdFor blake3 artifact.plan := by
  unfold planArtifactOf at h
  split at h
  · cases h
  · obtain ⟨manifest, hmanifest, h₁⟩ := bind_ok.1 h
    obtain ⟨physicals, hphysicals, h₂⟩ := bind_ok.1 h₁
    obtain ⟨plan, hplan, hfile⟩ := bind_ok.1 h₂
    have hid := (frozenManifestOf_ok.1 hmanifest).manifestId
    obtain ⟨hplanId, rfl⟩ := writeFrozenPlan_ok hfile
    rw [hid] at hphysicals
    exact ⟨manifest, physicals, hid,
      (mapM_ok.1 hphysicals).imp fun _ _ => readManifestAsset_ok,
      planFor_ok hplan, hplanId⟩

/-- An artifact plans its manifest. -/
theorem planArtifactOf_plans {inputPath targetPath : Bytes}
    {db : ManifestDb} {artifact : FrozenPlanFile}
    (h : planArtifactOf codec blake3 inputPath targetPath db = .ok artifact) :
    PlansManifest blake3 db inputPath targetPath artifact := by
  obtain ⟨manifest, physicals, hid, hrows, hplanned, hplanId⟩ :=
    planArtifactOf_ok h
  obtain ⟨ordered, horder, hpairs⟩ := hplanned.assets
  obtain ⟨rows, hperm, hpairs'⟩ := forall₂_perm hrows horder.symm
  refine ⟨hplanId, hplanned.sourceManifestId.trans hid, hplanned.targetRoot,
    ⟨rows, hperm.trans (perm_sortBy _ _), ?_⟩, hplanned.folded⟩
  refine (forall₂_comp hpairs' hpairs).imp fun row asset hpair => ?_
  obtain ⟨physical, hrow, mapping, hmapped, rfl⟩ := hpair
  exact {
    sourcePath := hrow.relativePath
    sourceAssetId := fun other hother => by
      show physicalAssetIdFor physical = physicalAssetIdFor other
      unfold physicalAssetIdFor
      rw [hother]
      rfl
    device := hrow.device
    inode := hrow.inode
    size := hrow.size
    mtimeNs := hrow.mtimeNs
    ctimeNs := hrow.ctimeNs
    mountId := hrow.mountId
    logicalAssetId := hmapped.id
    targetPath := hmapped.target }

-- =========================================================== determinism

/-- The rows of a plan's manifest are told apart by their paths. -/
theorem byPath_separates {rows : List PhysicalAssetRow}
    {physicals : List PhysicalAsset} (hrows : List.Forall₂ RowOf rows physicals)
    (hdistinct : (physicals.map physicalAssetIdFor).Nodup) :
    Separates PhysicalAssetRow.byPath rows := by
  have hnodup : (rows.map (·.relativePath)).Nodup := by
    refine forall₂_nodup hrows (fun r a r' a' hr hr' heq => ?_) hdistinct
    have hpath : r.relativePath = r'.relativePath := heq
    rw [hr.relativePath, hr'.relativePath, Cell.blob.injEq] at hpath
    unfold physicalAssetIdFor
    rw [hpath]
  have hcells : Separates Cell.before (rows.map (·.relativePath)) := by
    refine Cell.before_blobs fun cell hcell => ?_
    obtain ⟨row, hrow, rfl⟩ := List.mem_map.1 hcell
    obtain ⟨asset, -, hasset⟩ := forall₂_exists_right hrows hrow
    exact ⟨_, hasset.relativePath⟩
  exact hcells.of_keys hnodup

/-- The artifact does not depend on how the manifest is stored. -/
theorem planArtifactOf_same {inputPath targetPath : Bytes}
    {db db' : ManifestDb} {artifact : FrozenPlanFile}
    (h : planArtifactOf codec blake3 inputPath targetPath db = .ok artifact)
    (hsame : SameManifest inputPath db db') :
    planArtifactOf codec blake3 inputPath targetPath db' = .ok artifact := by
  obtain ⟨manifest, physicals, hid, hrows, hplanned, -⟩ := planArtifactOf_ok h
  have hseparates : Separates PhysicalAssetRow.byPath (db.assetsOf inputPath) :=
    (byPath_separates hrows hplanned.distinct).perm (perm_sortBy _ _)
  have hseparates' := hseparates.perm hsame.assets.symm
  have hbyPath : sortBy PhysicalAssetRow.byPath (db'.assetsOf inputPath)
      = sortBy PhysicalAssetRow.byPath (db.assetsOf inputPath) :=
    sortBy_congr PhysicalAssetRow.byPath_comparator hseparates' hsame.assets
  have hbyPathAndId :
      sortBy PhysicalAssetRow.byPathAndId (db'.assetsOf inputPath)
        = sortBy PhysicalAssetRow.byPathAndId (db.assetsOf inputPath) :=
    sortBy_congr PhysicalAssetRow.byPathAndId_comparator
      (hseparates'.thenBy _) hsame.assets
  have hfrozen : frozenManifestOf blake3 inputPath db'
      = frozenManifestOf blake3 inputPath db := by
    simp only [frozenManifestOf, frozenManifestWith, manifestDigestWith,
      hsame.source, hbyPathAndId, hsame.assets.length_eq]
  unfold planArtifactOf at h ⊢
  split at h
  · cases h
  · next htarget =>
      rw [if_neg htarget, hfrozen]
      obtain ⟨manifest', hmanifest, h₁⟩ := bind_ok.1 h
      have hid := (frozenManifestOf_ok.1 hmanifest).manifestId
      rw [hmanifest, ok_bind, hid, hbyPath]
      rw [hid] at h₁
      exact h₁

-- ============================================================== the file

theorem files_bind {α β : Type} (x : PlanFiles α) (k : α → PlanFiles β)
    (dir : PlanDir) :
    (x >>= k) dir = match x dir with
      | (.ok a, dir₁) => k a dir₁
      | (.error e, dir₁) => (.error e, dir₁) := by
  show ExceptT.bind x k dir = _
  unfold ExceptT.bind ExceptT.mk
  show StateT.bind x (ExceptT.bindCont k) dir = _
  unfold StateT.bind
  show (match x dir with | (a, s') => ExceptT.bindCont k a s') = _
  rcases x dir with ⟨r, dir₁⟩
  cases r <;> rfl

theorem files_bind_ok {α β : Type} {x : PlanFiles α} {k : α → PlanFiles β}
    {dir dir' : PlanDir} {b : β}
    (h : (x >>= k) dir = (.ok b, dir')) :
    ∃ a dir₁, x dir = (.ok a, dir₁) ∧ k a dir₁ = (.ok b, dir') := by
  rw [files_bind] at h
  rcases hx : x dir with ⟨r, dir₁⟩
  rw [hx] at h
  cases r with
  | error e => cases h
  | ok a => exact ⟨a, dir₁, rfl, h⟩

private theorem files_tryCatch {α : Type} (x : PlanFiles α)
    (handle : Status → PlanFiles α) (dir : PlanDir) :
    tryCatch x handle dir = match x dir with
      | (.ok a, dir₁) => (.ok a, dir₁)
      | (.error e, dir₁) => handle e dir₁ := by
  show ExceptT.tryCatch x handle dir = _
  unfold ExceptT.tryCatch ExceptT.mk
  show StateT.bind x _ dir = _
  unfold StateT.bind
  show (match x dir with | (a, s') => _) = _
  rcases x dir with ⟨r, dir₁⟩
  cases r <;> rfl

private theorem systemCall_ok {dir dir' : PlanDir}
    (h : systemCall dir = (.ok (), dir')) : dir'.nodes = dir.nodes := by
  unfold systemCall at h
  split at h <;> cases h
  · rfl
  · rfl

private theorem callOrCleanup_ok {tempName : Bytes} {dir dir' : PlanDir}
    (h : callOrCleanup tempName dir = (.ok (), dir')) :
    dir'.nodes = dir.nodes := by
  unfold callOrCleanup at h
  rw [files_tryCatch] at h
  rcases hcall : systemCall dir with ⟨r, dir₁⟩
  rw [hcall] at h
  cases r with
  | ok a =>
      cases h
      exact systemCall_ok hcall
  | error status =>
      obtain ⟨_, _, -, hthrow⟩ := files_bind_ok h
      cases hthrow

/-- The loop ends with everything in the file. -/
theorem writeRounds_ok {tempName : Bytes} {rounds : Nat}
    {written remaining : Bytes} {dir dir' : PlanDir}
    (hroom : remaining.length ≤ rounds)
    (htemp : dir.nodes tempName = some (.file written))
    (h : writeRounds tempName written remaining rounds dir = (.ok (), dir')) :
    dir'.nodes tempName = some (.file (written ++ remaining))
      ∧ ∀ name, name ≠ tempName → dir'.nodes name = dir.nodes name := by
  induction rounds generalizing written remaining dir with
  | zero =>
      have hnil := List.length_eq_zero_iff.1 (Nat.le_zero.1 hroom)
      cases h
      rw [hnil, List.append_nil]
      exact ⟨htemp, fun _ _ => rfl⟩
  | succ rounds ih =>
      unfold writeRounds at h
      split at h
      · next hempty =>
          rw [List.isEmpty_iff.1 hempty, List.append_nil]
          cases h
          exact ⟨htemp, fun _ _ => rfl⟩
      · obtain ⟨_, dir₁, hcall, h₁⟩ := files_bind_ok h
        obtain ⟨moved, dir₂, hmove, h₂⟩ := files_bind_ok h₁
        have hnodes₁ := callOrCleanup_ok hcall
        have hnodes₂ : dir₂.nodes = dir₁.nodes := by
          unfold nextMove at hmove
          split at hmove <;> cases hmove
          · rfl
          · rfl
        split at h₂
        · obtain ⟨_, _, -, hthrow⟩ := files_bind_ok h₂
          cases hthrow
        · next hmoved =>
            obtain ⟨_, dir₃, hassign, h₃⟩ := files_bind_ok h₂
            cases hassign
            have hshorter : (remaining.drop moved).length ≤ rounds := by
              rw [List.length_drop]
              omega
            obtain ⟨hall, hothers⟩ := ih hshorter (by
              show Function.update _ _ _ tempName = _
              rw [Function.update_self]) h₃
            rw [List.append_assoc, List.take_append_drop] at hall
            refine ⟨hall, fun name hname => ?_⟩
            rw [hothers name hname]
            show Function.update _ _ _ name = _
            rw [Function.update_of_ne hname, hnodes₂, hnodes₁]

theorem renameNoReplace_ok {strerror : Nat → Bytes} {oldName newName : Bytes}
    {dir dir' : PlanDir} (hne : newName ≠ oldName)
    (h : renameNoReplace strerror oldName newName dir = (.ok (), dir')) :
    dir'.nodes newName = dir.nodes oldName := by
  unfold renameNoReplace at h
  obtain ⟨_, dir₁, hcall, h₁⟩ := files_bind_ok h
  obtain ⟨node, dir₂, hnode, h₂⟩ := files_bind_ok h₁
  cases hnode
  obtain ⟨found, dir₃, hfound, h₃⟩ := files_bind_ok h₂
  cases hfound
  split at h₃
  · cases h₃
  · obtain ⟨_, dir₄, hassign, h₄⟩ := files_bind_ok h₃
    cases hassign
    cases h₄
    show Function.update (Function.update _ _ _) _ _ newName = _
    rw [Function.update_of_ne hne, Function.update_self, systemCall_ok hcall]

/-- After a success the file is there, with these bytes. -/
theorem writePlanFile_ok {strerror : Nat → Bytes} {finalName bytes : Bytes}
    {dir dir' : PlanDir}
    (h : writePlanFile strerror finalName bytes dir = (.ok (), dir')) :
    dir'.nodes finalName = some (.file bytes) := by
  have htempName : finalName ≠ text ".pbtmp." ++ finalName := by
    intro heq
    have hlength := congrArg List.length heq
    rw [List.length_append] at hlength
    have hpositive : 0 < (text ".pbtmp.").length := by decide +kernel
    omega
  unfold writePlanFile at h
  obtain ⟨_, dir₁, hexists, h₁⟩ := files_bind_ok h
  obtain ⟨found, dir₂, hfound, h₂⟩ := files_bind_ok h₁
  cases hfound
  cases hnode : dir₁.nodes finalName with
  | some node =>
      simp only [hnode] at h₂
      cases node with
      | directory => cases h₂
      | file existing =>
          obtain ⟨_, dir₃, hopen, h₃⟩ := files_bind_ok h₂
          split at h₃
          · next heq =>
              cases h₃
              rw [systemCall_ok hopen, hnode, heq]
          · cases h₃
  | none =>
      simp only [hnode] at h₂
      obtain ⟨_, dir₃, hparent, h₃⟩ := files_bind_ok h₂
      obtain ⟨_, dir₄, hcreate, h₄⟩ := files_bind_ok h₃
      obtain ⟨temp, dir₅, htemp, h₅⟩ := files_bind_ok h₄
      cases htemp
      cases hold : dir₄.nodes (text ".pbtmp." ++ finalName) with
      | some node =>
          simp only [hold] at h₅
          cases h₅
      | none =>
          simp only [hold] at h₅
          obtain ⟨_, dir₆, hassign, h₆⟩ := files_bind_ok h₅
          cases hassign
          obtain ⟨_, dir₇, hwrite, h₇⟩ := files_bind_ok h₆
          obtain ⟨_, dir₈, hsync, h₈⟩ := files_bind_ok h₇
          obtain ⟨_, dir₉, hrename, h₉⟩ := files_bind_ok h₈
          have hwritten := (writeRounds_ok (Nat.le_refl _) (by
            show Function.update _ _ _ _ = _
            rw [Function.update_self]) hwrite).1
          rw [List.nil_append, ← callOrCleanup_ok hsync] at hwritten
          rw [systemCall_ok h₉, renameNoReplace_ok htempName hrename]
          exact hwritten

/-- A file that is there already is left alone. -/
theorem writePlanFile_again {strerror : Nat → Bytes} {finalName bytes : Bytes}
    {dir : PlanDir} (hquiet : dir.faults = [])
    (hfile : dir.nodes finalName = some (.file bytes)) :
    writePlanFile strerror finalName bytes dir = (.ok (), dir) := by
  have hcall : systemCall dir = (.ok (), dir) := by
    unfold systemCall
    rw [hquiet]
  unfold writePlanFile
  rw [files_bind, hcall]
  show (lookUp finalName >>= fun _ => _) dir = _
  rw [files_bind]
  simp only [lookUp, hfile]
  rw [files_bind, hcall]
  simp only [if_true]
  rfl

-- ============================================================== planning

/-- When planning succeeds, the plan it reports has one asset for each row
of the manifest, and is in its file. Planning the same manifest for the
same root again, however it is stored, cannot report anything else, and
if nothing fails it reports it. -/
theorem planning_bijection (codec : Codec) (blake3 : Bytes → Digest)
    (strerror : Nat → Bytes) {inputPath targetPath : Bytes} {db : ManifestDb}
    {faults : List (Option Bytes)} {dir dir' : PlanDir}
    {artifact : FrozenPlanFile}
    (h : executePlan codec blake3 strerror inputPath targetPath
      (openConnection db faults) dir = (.ok artifact, dir')) :
    PlansManifest blake3 db inputPath targetPath artifact
      ∧ dir'.nodes (planFileName artifact.planId)
        = some (.file artifact.bytes)
      ∧ ∀ db₂, SameManifest inputPath db db₂ →
        (∀ faults₂ dir₂ dir₂' artifact₂,
          executePlan codec blake3 strerror inputPath targetPath
            (openConnection db₂ faults₂) dir₂ = (.ok artifact₂, dir₂') →
          artifact₂ = artifact)
        ∧ executePlan codec blake3 strerror inputPath targetPath
            (openConnection db₂ []) { dir' with faults := [] }
          = (.ok artifact, { dir' with faults := [] }) := by
  have hreads := @reads_planArtifact blake3 codec Unit inputPath targetPath
  have hopen : ∀ db faults, (openConnection db faults).Unchanged false :=
    fun _ _ => rfl
  -- a success reports what the tables make of it
  have hartifact : ∀ {db faults dir dir' artifact},
      executePlan codec blake3 strerror inputPath targetPath
        (openConnection db faults) dir = (.ok artifact, dir') →
      planArtifactOf codec blake3 inputPath targetPath db = .ok artifact
        ∧ dir'.nodes (planFileName artifact.planId)
          = some (.file artifact.bytes) := by
    intro db faults dir dir' artifact h
    unfold executePlan at h
    rcases hrun : planArtifact codec blake3 inputPath targetPath
      (openConnection db faults) with ⟨r, conn⟩
    rw [hrun] at h
    cases r with
    | error status => cases h
    | ok found =>
        simp only at h
        rcases hwrite : writePlanFile strerror (planFileName found.planId)
          found.bytes dir with ⟨w, dir₁⟩
        rw [hwrite] at h
        cases w with
        | error status => cases h
        | ok done =>
            cases h
            exact ⟨(hreads.ok (hopen _ _) hrun).1, writePlanFile_ok hwrite⟩
  obtain ⟨hof, hfile⟩ := hartifact h
  refine ⟨planArtifactOf_plans hof, hfile, fun db₂ hsame => ⟨?_, ?_⟩⟩
  · intro faults₂ dir₂ dir₂' artifact₂ h₂
    have hof₂ := (hartifact h₂).1
    rw [planArtifactOf_same hof hsame] at hof₂
    exact (Except.ok.inj hof₂).symm
  · have hquiet := (hreads.quiet (hopen db₂ []) rfl).2
    have hof₂ := planArtifactOf_same hof hsame
    have hrun := hquiet.trans hof₂
    unfold executePlan
    simp only [hrun]
    have hagain := @writePlanFile_again strerror
      (planFileName artifact.planId) artifact.bytes
      { dir' with faults := [] } rfl hfile
    rw [hagain]

-- =============================================================== a run

def albumRow (path : Bytes) : PhysicalAssetRow where
  manifestId := text "album"
  assetId := text "path-" ++ hexEncode path
  relativePath := .blob path
  device := .integer 1
  inode := .integer 2
  size := .integer 3
  mtimeNs := .integer (-4)
  ctimeNs := .integer 5
  kind := .integer 0

/-- A manifest of two files, frozen under this digest. -/
def albumDb (digest : Bytes) : ManifestDb where
  sources := [⟨text "album", .text (text "source"), .text (text "folder"),
    .blob (text "/photos"), .integer 1, .blob digest⟩]
  assets := [albumRow (text "b.jpg"), albumRow (text "a.jpg")]

/-- The digest its rows have. -/
def albumDigest : Bytes :=
  match manifestDigestWith lastBytes (text "album")
    ((albumDb []).source? (text "album")) (albumDb []) with
  | .ok digest => digest.bytes
  | .error _ => []

/-- The two files are planned. -/
theorem planning_bijection_album :
    ∃ artifact dir', executePlan compact lastBytes (fun _ => [])
        (text "album") (text "/target")
        (openConnection (albumDb albumDigest) []) ⟨fun _ => none, [], []⟩
        = (.ok artifact, dir')
      ∧ PlansManifest lastBytes (albumDb albumDigest) (text "album")
        (text "/target") artifact := by
  have hok : (executePlan compact lastBytes (fun _ => [])
      (text "album") (text "/target")
      (openConnection (albumDb albumDigest) [])
      ⟨fun _ => none, [], []⟩).1.toBool = true := by decide +kernel
  rcases hrun : executePlan compact lastBytes (fun _ => [])
      (text "album") (text "/target")
      (openConnection (albumDb albumDigest) []) ⟨fun _ => none, [], []⟩
    with ⟨r, dir'⟩
  rw [hrun] at hok
  cases r with
  | error status => cases hok
  | ok artifact => exact ⟨artifact, dir', rfl,
      (planning_bijection compact lastBytes (fun _ => []) hrun).1⟩

end PhotoBridge
