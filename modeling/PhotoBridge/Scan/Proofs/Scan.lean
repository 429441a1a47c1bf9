/-
A scan loses and invents nothing: what the walk emits (`walk_emits`),
less what the forwarding sink drops, is what the builder adds
(`forM_add_ok`), and that is what the frozen manifest holds
(`freeze_ok`). Paths and assets are paired through the emitted entries.
-/
import PhotoBridge.Scan.Proofs.Builder

namespace PhotoBridge

open Joining KeyTree Transaction

-- =========================================================== the sink

/-- The asset the forwarding sink makes of an entry, if any. -/
def DirectoryEntry.asset? (entry : DirectoryEntry) : Option PhysicalAsset :=
  if isReceiverStagingPath entry.relativePath.bytes then none
  else classifyPhysicalAsset entry

private theorem forwardingAdd_eq {m : Type → Type} [Monad m]
    (add : PhysicalAsset → m Unit) (entry : DirectoryEntry) :
    forwardingAdd add entry = match entry.asset? with
      | none => pure ()
      | some asset => add asset := by
  unfold forwardingAdd DirectoryEntry.asset?
  split <;> rfl

private theorem forM_forwardingAdd {m : Type → Type} [Monad m] [LawfulMonad m]
    (add : PhysicalAsset → m Unit) (emitted : List DirectoryEntry) :
    forM emitted (forwardingAdd add)
      = forM (emitted.filterMap DirectoryEntry.asset?) add := by
  induction emitted with
  | nil => rfl
  | cons entry rest ih =>
      rw [List.forM_cons, forwardingAdd_eq, ih, List.filterMap_cons]
      cases entry.asset? with
      | none => exact pure_bind _ _
      | some asset => rfl

/-- An asset is of the regular file whose entry it was made of. -/
theorem asset?_eq_some {entry : DirectoryEntry} {asset : PhysicalAsset} :
    entry.asset? = some asset
      ↔ isReceiverStagingPath entry.relativePath.bytes = false
        ∧ entry.kind = .regularFile
        ∧ asset = {
            relativePath := entry.relativePath
            identity := entry.identity
            kind := classifyKind entry.relativePath.bytes
              (extensionOf entry.relativePath.bytes)
            extension := extensionOf entry.relativePath.bytes } := by
  unfold DirectoryEntry.asset? classifyPhysicalAsset
  cases hstaging : isReceiverStagingPath entry.relativePath.bytes with
  | true => simp
  | false =>
      by_cases hkind : entry.kind = .regularFile
      · simp [hkind, eq_comm]
      · simp [hkind]

-- =========================================================== the files

/-- The asset is what the scan makes of the file. -/
structure AssetOf (tree : DirectoryTree) (asset : PhysicalAsset)
    (file : List Bytes × Node) : Prop where
  scanned : Scanned tree file.1 file.2
  path : asset.path = pathOf file.1
  identity : file.2.value.Identifies asset.identity
  kind : asset.kind = classifyKind (pathOf file.1)
    (extensionOf (pathOf file.1))

/-- Paths of files determine their names. -/
theorem pathOf_inj {a b : List Bytes} (hane : a ≠ []) (hbne : b ≠ [])
    (ha : ∀ c ∈ a, IsFileName c) (hb : ∀ c ∈ b, IsFileName c)
    (h : pathOf a = pathOf b) : a = b := by
  have hread := parseComponents_pathOf hane ha
  rw [h, parseComponents_pathOf hbne hb] at hread
  exact (Except.ok.inj hread).symm

section Files

variable {tree : DirectoryTree} {emitted : List DirectoryEntry}

theorem Scanned.names {components : List Bytes} {node : Node}
    (h : Scanned tree components node) :
    components ≠ [] ∧ ∀ c ∈ components, IsFileName c :=
  Within.names h.within tree.directories

theorem Within.unique {components : List Bytes} {node node' : Node}
    (h : Within tree.entries components node)
    (h' : Within tree.entries components node') : node = node' :=
  Below.unique h h'
    ⟨tree.directories.here.distinct, fun hbelow henter =>
      (tree.directories.down hbelow henter).distinct⟩

/-- Every asset made of an emitted entry is of a file. -/
theorem assetOf_of_emitted (hemits : Emits tree emitted)
    {asset : PhysicalAsset}
    (h : asset ∈ emitted.filterMap DirectoryEntry.asset?) :
    ∃ file, AssetOf tree asset file := by
  obtain ⟨entry, hentry, hasset⟩ := List.mem_filterMap.1 h
  obtain ⟨hstaging, hkind, rfl⟩ := asset?_eq_some.1 hasset
  obtain ⟨components, node, hwithin, hof⟩ := hemits.sound entry hentry
  refine ⟨(components, node), ⟨hwithin, ?_, ?_⟩, hof.path, hof.identity, ?_⟩
  · rw [← hof.kind]
    exact hkind
  · rw [← hof.path]
    exact hstaging
  · show classifyKind _ _ = _
    rw [hof.path]

/-- Every file has an asset made of an emitted entry. -/
theorem emitted_of_scanned (hemits : Emits tree emitted)
    {components : List Bytes} {node : Node}
    (h : Scanned tree components node) :
    ∃ asset ∈ emitted.filterMap DirectoryEntry.asset?,
      asset.path = pathOf components := by
  obtain ⟨entry, hentry, hof⟩ := hemits.complete h.within
  refine ⟨_, List.mem_filterMap.2 ⟨entry, hentry, asset?_eq_some.2
    ⟨?_, ?_, rfl⟩⟩, hof.path⟩
  · rw [hof.path]
    exact h.notStaging
  · rw [hof.kind]
    exact h.regular

/-- The assets have distinct paths. -/
theorem nodup_assets (hemits : Emits tree emitted) :
    ((emitted.filterMap DirectoryEntry.asset?).map PhysicalAsset.path).Nodup := by
  have hentries : emitted.Pairwise fun a b =>
      a.relativePath.bytes ≠ b.relativePath.bytes := by
    refine (List.pairwise_map.1 hemits.once).imp fun {a b} hne hbytes => hne ?_
    show a.relativePath.components = b.relativePath.components
    rw [RelativePath.eq_of_bytes hbytes]
  refine List.pairwise_map.2 (List.pairwise_filterMap.2 ?_)
  refine hentries.imp fun {a b} hne asset hasset asset' hasset' => ?_
  obtain ⟨-, -, rfl⟩ := asset?_eq_some.1 hasset
  obtain ⟨-, -, rfl⟩ := asset?_eq_some.1 hasset'
  exact hne

theorem AssetOf.fits {asset : PhysicalAsset} {file : List Bytes × Node}
    (h : AssetOf tree asset file) (hstorable : Storable file.1 file.2) :
    asset.Fits := by
  have hpath : asset.relativePath.bytes = pathOf file.1 := h.path
  refine ⟨?_, ?_, hstorable.displayPath _ hpath, ?_, ?_, ?_⟩
  · rw [hpath]
    exact pathOf_ne_nil h.scanned.names.1
      fun c hc => (h.scanned.names.2 c hc).nonempty
  · unfold physicalAssetIdFor
    rw [hpath]
    exact hstorable.assetId
  · rw [h.identity.device]
    exact hstorable.device
  · rw [h.identity.inode]
    exact hstorable.inode
  · have hsize := h.identity.size
    have hlt := file.2.value.size.toInt_lt
    unfold int64Max
    omega

theorem AssetOf.rowFor {asset : PhysicalAsset} {file : List Bytes × Node}
    (h : AssetOf tree asset file) (hfits : asset.Fits) (manifestId : Bytes) :
    RowFor file.1 file.2 (asset.row manifestId) := by
  have hpath : asset.relativePath.bytes = pathOf file.1 := h.path
  refine ⟨?_, ?_, ?_, asset.identity, h.identity, holds_toInt64 hfits.device,
    holds_toInt64 hfits.inode, holds_toInt64 hfits.size, rfl, rfl⟩
  · show Cell.blob asset.relativePath.bytes = _
    rw [hpath]
  · show physicalAssetIdFor asset = _
    unfold physicalAssetIdFor
    rw [hpath]
  · show Cell.integer (Int64.ofNat asset.kind.number) = _
    rw [h.kind]

/-- Files and rows, one for one. -/
theorem files_of_emitted (hemits : Emits tree emitted)
    (hfits : ∀ a ∈ emitted.filterMap DirectoryEntry.asset?, a.Fits)
    (manifestId : Bytes) :
    ∃ files : List (List Bytes × Node), (files.map Prod.fst).Nodup
      ∧ (∀ components node,
          (components, node) ∈ files ↔ Scanned tree components node)
      ∧ List.Forall₂ (fun file row => RowFor file.1 file.2 row) files
          ((emitted.filterMap DirectoryEntry.asset?).map
            (·.row manifestId)) := by
  obtain ⟨files, hfiles⟩ := exists_forall₂ (R := AssetOf tree)
    fun asset hasset => assetOf_of_emitted hemits hasset
  refine ⟨files, ?_, fun components node => ⟨fun hmem => ?_, fun h => ?_⟩, ?_⟩
  · refine forall₂_nodup (g := PhysicalAsset.path) hfiles.flip ?_
      (nodup_assets hemits)
    intro file asset file' asset' hof hof' heq
    have hof : AssetOf tree asset file := hof
    have hof' : AssetOf tree asset' file' := hof'
    rw [hof.path, hof'.path, heq]
  · obtain ⟨asset, -, hof⟩ := forall₂_exists_left hfiles hmem
    exact hof.scanned
  · obtain ⟨asset, hasset, hpath⟩ := emitted_of_scanned hemits h
    obtain ⟨file, hfile, hof⟩ := forall₂_exists_right hfiles hasset
    have hcomponents : file.1 = components := by
      have hnames := hof.scanned.names
      refine pathOf_inj hnames.1 h.names.1 hnames.2 h.names.2 ?_
      rw [← hof.path, hpath]
    have hwithin := hof.scanned.within
    rw [hcomponents] at hwithin
    rw [← hcomponents, ← Within.unique hwithin h.within]
    exact hfile
  · rw [List.forall₂_map_right_iff]
    refine (forall₂_mem hfiles).flip.imp fun file asset hof => ?_
    exact hof.2.rowFor (hfits asset hof.1.1) manifestId

end Files

-- ============================================================ the tables

/-- Other manifests are not touched. -/
theorem others_withAssets {db : ManifestDb} (row : ManifestRow)
    {manifestId : Bytes} (hne : manifestId ≠ row.manifestId)
    (assets : List PhysicalAsset) :
    ((db.withSource row).withAssets row.manifestId assets).source? manifestId
        = db.source? manifestId
      ∧ ((db.withSource row).withAssets row.manifestId assets).assetsOf
          manifestId = db.assetsOf manifestId := by
  refine ⟨?_, ?_⟩
  · rw [source?_withAssets]
    exact source?_withSource_ne hne
  · unfold ManifestDb.assetsOf ManifestDb.withAssets ManifestDb.withSource
    rw [List.filter_append, List.append_right_eq_self,
      List.filter_eq_nil_iff]
    intro other hother
    obtain ⟨asset, -, rfl⟩ := List.mem_map.1 hother
    show ¬(row.manifestId == manifestId) = true
    rw [beq_iff_eq]
    exact hne.symm

/-- A manifest nobody has begun has no assets. -/
theorem assetsOf_fresh {db : ManifestDb} (hkeys : db.ForeignKeys)
    {manifestId : Bytes} (hfresh : db.source? manifestId = none) :
    db.assetsOf manifestId = [] := by
  refine List.filter_eq_nil_iff.2 fun row hrow hid => ?_
  have hsome := hkeys row hrow
  rw [beq_iff_eq.1 hid, hfresh] at hsome
  cases hsome

-- ============================================================== the scan

section Scan

variable (blake3 : Bytes → Digest) (strerror : Nat → Bytes)
  {tree : DirectoryTree} {emitted : List DirectoryEntry} (batchSize : Nat)
  {now : Int64} {sequence : UInt64} {inputPath : Bytes}
  {conn : Conn ManifestDb Bytes ManifestBuilder}

private theorem localFolderSource_valid (hpath : inputPath ≠ [])
    (hsize : inputPath.length ≤ intMax) :
    (localFolderSource inputPath).Valid := by
  refine ⟨⟨hpath, hsize⟩, ?_, ⟨hpath, hsize⟩⟩
  show text "local-folder" ≠ [] ∧ (text "local-folder").length ≤ intMax
  decide +kernel

/-- A scan whose walk emits these entries freezes the assets made of
them. -/
theorem executeScan_ok (hconn : conn.Quiet)
    (hkeys : conn.committed.ForeignKeys)
    (hfresh : conn.committed.source? (newManifestId now sequence) = none)
    (hpath : inputPath ≠ []) (hsize : inputPath.length ≤ intMax)
    (hemits : Emits tree emitted)
    (hwalk : ∀ add : DirectoryEntry → ManifestBuilder.Action Unit,
      walk strerror succeeds add tree.entries = forM emitted add)
    (hfits : ∀ a ∈ emitted.filterMap DirectoryEntry.asset?, a.Fits) :
    ∃ digest conn', executeScan blake3 strerror succeeds batchSize now sequence
        inputPath tree.entries conn
        = (.ok ⟨newManifestId now sequence,
            (emitted.filterMap DirectoryEntry.asset?).length, digest⟩, conn')
      ∧ conn'.committed = (conn.committed.withSource
          (((localFolderSource inputPath).row
            (newManifestId now sequence)).frozen digest)).withAssets
          (newManifestId now sequence)
          (emitted.filterMap DirectoryEntry.asset?)
      ∧ manifestDigestWith blake3 (newManifestId now sequence)
          (some (((localFolderSource inputPath).row
            (newManifestId now sequence)).frozen digest)) conn'.committed
        = .ok digest := by
  have hid := length_newManifestId now sequence
  have hnone := assetsOf_fresh hkeys hfresh
  have hnodup := nodup_assets hemits
  obtain ⟨c₁, hbegin, hc₁⟩ := begin_ok
    (c := { conn with memory := ManifestBuilder.new batchSize })
    ⟨hconn.txn, hconn.busy, hconn.faults⟩ rfl hid hfresh
    (localFolderSource_valid hpath hsize)
  have hsource : (conn.committed.withSource ((localFolderSource inputPath).row
      (newManifestId now sequence))).source? (newManifestId now sequence)
        = some ((localFolderSource inputPath).row (newManifestId now sequence))
    := source?_withSource _ hfresh
  have hnone' : (conn.committed.withSource ((localFolderSource inputPath).row
      (newManifestId now sequence))).assetsOf (newManifestId now sequence)
        = [] := hnone
  obtain ⟨c₂, hadd, hc₂⟩ := forM_add_ok (by rw [hsource]; rfl) hnone' hid hc₁
    hfits hnodup
  obtain ⟨digest, c₃, hfreeze, hcommitted, hdigest⟩ :=
    freeze_ok blake3 hfresh hnone hid hc₂ hfits hnodup
  refine ⟨digest, c₃, ?_, hcommitted, hdigest⟩
  have hscan : scanLocalFolder strerror succeeds ManifestBuilder.add inputPath
      tree.entries c₁ = (.ok (), c₂) := by
    unfold scanLocalFolder
    rw [if_neg (by simpa using hpath), hwalk, forM_forwardingAdd]
    exact hadd
  unfold executeScan
  simp only [Session.bind_apply, Session.remember, hbegin, hscan, hfreeze]
  rfl

/-- The manifest such a scan freezes. -/
theorem executeScan_scans (tree : DirectoryTree) (batchSize : Nat) (now : Int64)
    (sequence : UInt64) (inputPath : Bytes)
    (conn : Conn ManifestDb Bytes ManifestBuilder) (hconn : conn.Quiet)
    (hkeys : conn.committed.ForeignKeys)
    (hfresh : conn.committed.source? (newManifestId now sequence) = none)
    (hpath : inputPath ≠ []) (hsize : inputPath.length ≤ intMax)
    (hrep : ∀ {components node}, Within tree.entries components node →
      node.value.Representable)
    (hstorable : ∀ {components node}, Scanned tree components node →
      Storable components node) :
    ∃ frozen conn', executeScan blake3 strerror succeeds batchSize now
        sequence inputPath tree.entries conn = (.ok frozen, conn')
      ∧ ScansTree blake3 tree conn.committed conn'.committed inputPath frozen := by
  obtain ⟨emitted, hemits, hwalk⟩ := walk_emits hrep strerror
  have hfits : ∀ a ∈ emitted.filterMap DirectoryEntry.asset?, a.Fits := by
    intro asset hasset
    obtain ⟨file, hof⟩ := assetOf_of_emitted hemits hasset
    exact hof.fits (hstorable hof.scanned)
  obtain ⟨digest, conn', hrun, hcommitted, hdigest⟩ := executeScan_ok blake3 strerror
    batchSize hconn hkeys hfresh hpath hsize hemits (hwalk _) hfits
  refine ⟨_, conn', hrun, ?_⟩
  have hrows : conn'.committed.assetsOf (newManifestId now sequence)
      = (emitted.filterMap DirectoryEntry.asset?).map
          (·.row (newManifestId now sequence)) := by
    rw [hcommitted]
    have hnone := assetsOf_fresh hkeys hfresh
    exact assetsOf_withAssets hnone _
  have hsource : conn'.committed.source? (newManifestId now sequence)
      = some (((localFolderSource inputPath).row
          (newManifestId now sequence)).frozen digest) := by
    rw [hcommitted, source?_withAssets]
    exact source?_withSource (((localFolderSource inputPath).row
      (newManifestId now sequence)).frozen digest) hfresh
  refine ⟨hsource, ?_, ?_, ?_, ?_⟩
  · intro c hc hsame
    have hreopened := reopen_ok (newManifestId_ne_nil now sequence)
      (length_newManifestId now sequence) hsource hdigest hc hsame
    rw [hrows, List.length_map] at hreopened
    exact hreopened
  · rw [hrows]
    exact files_of_emitted hemits hfits _
  · rw [hrows, List.length_map]
  · intro manifestId hne
    rw [hcommitted]
    exact others_withAssets (((localFolderSource inputPath).row
      (newManifestId now sequence)).frozen digest) hne _

/-- Scanning a tree. Where no system call and no statement fails, the
time and size of every file can be expressed, and the columns hold what
they are given: the walk emits the tree, whatever its sink, and the scan
freezes a manifest of exactly the files it takes up. -/
theorem scan_exact (tree : DirectoryTree) (batchSize : Nat) (now : Int64)
    (sequence : UInt64) (inputPath : Bytes)
    (conn : Conn ManifestDb Bytes ManifestBuilder) (hconn : conn.Quiet)
    (hkeys : conn.committed.ForeignKeys)
    (hfresh : conn.committed.source? (newManifestId now sequence) = none)
    (hpath : inputPath ≠ []) (hsize : inputPath.length ≤ intMax)
    (hrep : ∀ {components node}, Within tree.entries components node →
      node.value.Representable)
    (hstorable : ∀ {components node}, Scanned tree components node →
      Storable components node) :
    (∃ emitted : List DirectoryEntry, Emits tree emitted
      ∧ ∀ (m : Type → Type) [Monad m] [MonadExceptOf Status m]
          [LawfulMonad m] (add : DirectoryEntry → m Unit),
          walk strerror succeeds add tree.entries = forM emitted add)
    ∧ ∃ frozen conn', executeScan blake3 strerror succeeds batchSize now
        sequence inputPath tree.entries conn = (.ok frozen, conn')
      ∧ ScansTree blake3 tree conn.committed conn'.committed inputPath frozen := by
  obtain ⟨emitted, hemits, hwalk⟩ := walk_emits hrep strerror
  exact ⟨⟨emitted, hemits, hwalk⟩, executeScan_scans blake3 strerror tree
    batchSize now sequence inputPath conn hconn hkeys hfresh hpath hsize hrep
    hstorable⟩

end Scan

-- ======================================================== one manifest

section Manifest

variable {blake3 : Bytes → Digest} {tree : DirectoryTree}
  {db db' : ManifestDb} {inputPath : Bytes} {frozen : FrozenManifest}

/-- A row is a file's. -/
theorem ScansTree.scanned (h : ScansTree blake3 tree db db' inputPath frozen)
    {row : PhysicalAssetRow} (hrow : row ∈ db'.assetsOf frozen.manifestId) :
    ∃ components node, Scanned tree components node
      ∧ RowFor components node row := by
  obtain ⟨files, -, hscanned, hrows⟩ := h.rows
  obtain ⟨file, hfile, hof⟩ := forall₂_exists_left hrows hrow
  exact ⟨file.1, file.2, (hscanned _ _).1 hfile, hof⟩

/-- A file of the tree has one row, or none where the sink drops it. -/
theorem ScansTree.row (h : ScansTree blake3 tree db db' inputPath frozen)
    {components : List Bytes} {node : Node}
    (hwithin : Within tree.entries components node)
    (hregular : node.value.kind = .regularFile) :
    (∃ row, (db'.assetsOf frozen.manifestId).filter
          (·.relativePath == .blob (pathOf components)) = [row]
        ∧ RowFor components node row)
      ↔ isReceiverStagingPath (pathOf components) = false := by
  obtain ⟨files, hnodup, hscanned, hrows⟩ := h.rows
  constructor
  · rintro ⟨row, hfilter, -⟩
    have hmem : row ∈ (db'.assetsOf frozen.manifestId).filter
        (·.relativePath == .blob (pathOf components)) := by
      rw [hfilter]
      exact List.mem_singleton_self row
    obtain ⟨hrow, hpath⟩ := List.mem_filter.1 hmem
    obtain ⟨components', node', hfile, hof⟩ := h.scanned hrow
    have heq := beq_iff_eq.1 hpath
    rw [hof.relativePath] at heq
    rw [← Cell.blob.inj heq]
    exact hfile.notStaging
  · intro hstaging
    have hfile : Scanned tree components node := ⟨hwithin, hregular, hstaging⟩
    obtain ⟨row, hrow, hof⟩ :=
      forall₂_exists_right hrows ((hscanned components node).2 hfile)
    have hof : RowFor components node row := hof
    have hdistinct : ((db'.assetsOf frozen.manifestId).map
        (·.relativePath)).Nodup := by
      refine forall₂_nodup (forall₂_mem hrows).flip ?_ hnodup
      rintro row file row' file' ⟨⟨hmem, -⟩, hof⟩ ⟨⟨hmem', -⟩, hof'⟩ heq
      rw [hof.relativePath, hof'.relativePath] at heq
      have hnames := ((hscanned file.1 file.2).1 hmem).names
      have hnames' := ((hscanned file'.1 file'.2).1 hmem').names
      exact pathOf_inj hnames.1 hnames'.1 hnames.2 hnames'.2 (Cell.blob.inj heq)
    refine ⟨row, ?_, hof⟩
    rw [← hof.relativePath]
    exact filter_key hdistinct hrow

end Manifest

-- =============================================================== a tree

def cameraStat (mode : UInt32) : Stat :=
  ⟨mode, 1, 2, 3, ⟨-4, 5⟩, ⟨6, 7⟩⟩

/-- A directory with a receiver's temporary file. -/
def cameraFolder : Node := .node (cameraStat 0o040755) [
  (text "c.pbtmp", .node (cameraStat 0o100600) [])]

/-- That directory, and a photo. -/
def cameraEntries : Entries := [
  (text "b.jpg", .node (cameraStat 0o100644) []), (text "a", cameraFolder)]

/-- The three files of the tree. -/
theorem within_camera {components : List Bytes} {node : Node}
    (h : Within cameraEntries components node) :
    (components = [text "b.jpg"] ∧ node = .node (cameraStat 0o100644) [])
      ∨ (components = [text "a"] ∧ node = cameraFolder)
      ∨ (components = [text "a", text "c.pbtmp"]
        ∧ node = .node (cameraStat 0o100600) []) := by
  cases h with
  | here hmem =>
      rcases List.mem_cons.1 hmem with hphoto | hrest
      · cases hphoto
        exact .inl ⟨rfl, rfl⟩
      · cases List.mem_singleton.1 hrest
        exact .inr (.inl ⟨rfl, rfl⟩)
  | down hmem henter hrest =>
      rcases List.mem_cons.1 hmem with hphoto | hfolder
      · cases hphoto
        cases hrest with
        | here hnone => cases hnone
        | down hnone => cases hnone
      · cases List.mem_singleton.1 hfolder
        cases hrest with
        | here htemp =>
            cases List.mem_singleton.1 htemp
            exact .inr (.inr ⟨rfl, rfl⟩)
        | down htemp _ hbelow =>
            cases List.mem_singleton.1 htemp
            cases hbelow with
            | here hnone => cases hnone
            | down hnone => cases hnone

theorem isDirectory_camera : IsDirectory cameraEntries
    ∧ IsDirectory cameraFolder.entries ∧ IsDirectory [] := by
  have hname : ∀ s ∈ ["b.jpg", "a", "c.pbtmp"], IsFileName (text s) := by
    intro s hs
    simp only [List.mem_cons, List.not_mem_nil, or_false] at hs
    rcases hs with rfl | rfl | rfl <;> constructor <;> decide +kernel
  refine ⟨⟨by decide +kernel, ?_⟩, ⟨by decide +kernel, ?_⟩,
    ⟨.nil, by simp⟩⟩
  · intro entry hentry
    rcases List.mem_cons.1 hentry with rfl | hrest
    · exact hname _ (by simp)
    · rw [List.mem_singleton.1 hrest]
      exact hname _ (by simp)
  · intro entry hentry
    rw [List.mem_singleton.1 hentry]
    exact hname _ (by simp)

def cameraTree : DirectoryTree where
  entries := cameraEntries
  directories := {
    here := isDirectory_camera.1
    down := by
      intro components node h _
      rcases within_camera h with ⟨-, rfl⟩ | ⟨-, rfl⟩ | ⟨-, rfl⟩
      · exact isDirectory_camera.2.2
      · exact isDirectory_camera.2.1
      · exact isDirectory_camera.2.2 }

private theorem cameraStat_representable (mode : UInt32) :
    (cameraStat mode).Representable := by
  have hmtim : (⟨-4, 5⟩ : Timespec).Representable := by
    constructor <;> decide
  have hctim : (⟨6, 7⟩ : Timespec).Representable := by
    constructor <;> decide
  exact ⟨hmtim, hctim, by show (0 : Int) ≤ (3 : Int64).toInt; decide⟩

/-- The one photo is scanned into an empty workspace. -/
theorem scan_exact_camera :
    ∃ frozen conn', executeScan (fun _ => .zero) (fun _ => []) succeeds 1 0 0
        (text "/camera") cameraTree.entries
        ⟨⟨[], []⟩, none, false, [], .new 1⟩ = (.ok frozen, conn')
      ∧ ScansTree (fun _ => .zero) cameraTree ⟨[], []⟩ conn'.committed
          (text "/camera") frozen := by
  refine (scan_exact (fun _ => .zero) (fun _ => []) cameraTree 1 0 0
    (text "/camera") ⟨⟨[], []⟩, none, false, [], .new 1⟩ ⟨rfl, rfl, rfl⟩
    (by intro row hrow; cases hrow) rfl (by decide +kernel)
    (by decide +kernel) ?_ ?_).2
  · intro components node h
    rcases within_camera h with ⟨-, rfl⟩ | ⟨-, rfl⟩ | ⟨-, rfl⟩ <;>
      exact cameraStat_representable _
  · intro components node h
    rcases within_camera h.within with ⟨rfl, rfl⟩ | ⟨-, rfl⟩ | ⟨rfl, rfl⟩
    · refine ⟨by decide, by decide, by decide +kernel, ?_⟩
      intro path hpath
      unfold RelativePath.displayString
      rw [hpath]
      decide +kernel
    · exact absurd h.regular (by decide)
    · exact absurd h.notStaging (by decide +kernel)

end PhotoBridge
