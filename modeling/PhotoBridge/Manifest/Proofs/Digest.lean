/-
The digest of a manifest identifies it: the bytes that are hashed
determine its source and the set of its assets, and are determined by
them (`manifestBytes_eq_iff`).

Every column is delimited, by a length in front of it or by its width,
and so is a row. The rows are not counted, but none is empty and nothing
follows them. They are hashed in the order of their paths, which is one
order: paths are unique in a manifest.
-/
import PhotoBridge.Lib.Joining
import PhotoBridge.Manifest.Proofs.Tables

namespace PhotoBridge

open Delimited Joining Sorting Transaction

variable {db db' : ManifestDb} {id id' : Bytes}

-- ============================================================== manifests

/-- The columns of an asset's row that are hashed. -/
def PhysicalAssetRow.content (row : PhysicalAssetRow) : PhysicalAssetRow :=
  { row with manifestId := [], assetId := [] }

/-- What is hashed of a manifest: its source and, as a set, its assets. -/
structure SameContents (db : ManifestDb) (id : Bytes) (db' : ManifestDb)
    (id' : Bytes) : Prop where
  source : ∃ row row', db.source? id = some row ∧ db'.source? id' = some row'
    ∧ row'.sourceId = row.sourceId ∧ row'.sourceType = row.sourceType
    ∧ row'.sourceRoot = row.sourceRoot
  assets : ∀ content, content ∈ (db'.assetsOf id').map (·.content)
    ↔ content ∈ (db.assetsOf id).map (·.content)

/-- What the tables see to for a manifest: its paths are unique, and
SQLite holds no value longer than an `int` counts. -/
structure ManifestDb.Stores (db : ManifestDb) (id : Bytes) : Prop where
  paths : ((db.assetsOf id).map (·.relativePath)).Nodup
  assets : ∀ row ∈ db.assetsOf id, row.relativePath.bytes.length ≤ intMax
  source : ∀ row, db.source? id = some row →
    row.sourceId.bytes.length ≤ intMax ∧ row.sourceType.bytes.length ≤ intMax
      ∧ row.sourceRoot.bytes.length ≤ intMax

/-- What `ComputeManifestDigest` feeds the hasher. -/
def manifestBytes (db : ManifestDb) (id : Bytes) : Except Status Bytes :=
  match db.source? id with
  | none =>
      .error (.sqlite "read manifest digest source" (text "not an error"))
  | some source => do
      let head ← source.payload
      let body ← (sortBy PhysicalAssetRow.byPathAndId
        (db.assetsOf id)).mapM PhysicalAssetRow.payload
      pure (lengthPrefixed (text "PB_MANIFEST_V1") ++ head ++ body.flatten)

theorem manifestDigestWith_eq (blake3 : Bytes → Digest) (db : ManifestDb)
    (id : Bytes) :
    manifestDigestWith blake3 id (db.source? id) db
      = (manifestBytes db id).map blake3 := by
  unfold manifestDigestWith manifestBytes
  cases db.source? id with
  | none => rfl
  | some source =>
      cases hhead : source.payload with
      | error e => simp only [hhead]; rfl
      | ok head =>
          simp only [hhead]
          cases (sortBy PhysicalAssetRow.byPathAndId
            (db.assetsOf id)).mapM PhysicalAssetRow.payload <;> rfl

-- ================================================================ entries

/-- A row whose columns have the types they should. -/
structure AssetEntry where
  relativePath : Bytes
  device : Int64
  inode : Int64
  size : Int64
  mtimeNs : Int64
  ctimeNs : Int64
  kind : Int64

def AssetEntry.row (entry : AssetEntry) : PhysicalAssetRow where
  manifestId := []
  assetId := []
  relativePath := .blob entry.relativePath
  device := .integer entry.device
  inode := .integer entry.inode
  size := .integer entry.size
  mtimeNs := .integer entry.mtimeNs
  ctimeNs := .integer entry.ctimeNs
  kind := .integer entry.kind

/-- What is hashed of an entry. -/
def AssetEntry.encode (entry : AssetEntry) : Bytes :=
  lengthPrefixed entry.relativePath ++ uint64Bytes entry.device.toUInt64
    ++ uint64Bytes entry.inode.toUInt64 ++ uint64Bytes entry.size.toUInt64
    ++ uint64Bytes entry.mtimeNs.toUInt64 ++ uint64Bytes entry.ctimeNs.toUInt64
    ++ uint64Bytes entry.kind.toUInt64

theorem appendTextColumn_ok {cell : Cell} {fieldName : String} {bytes : Bytes}
    (h : appendTextColumn cell fieldName = .ok bytes) :
    ∃ value, cell = .text value ∧ bytes = lengthPrefixed value := by
  unfold appendTextColumn at h
  split at h
  · next value => exact ⟨value, rfl, (Except.ok.inj h).symm⟩
  · cases h

theorem appendBlobColumn_ok {cell : Cell} {fieldName : String} {bytes : Bytes}
    (h : appendBlobColumn cell fieldName = .ok bytes) :
    ∃ value, cell = .blob value ∧ bytes = lengthPrefixed value := by
  unfold appendBlobColumn at h
  split at h
  · next value => exact ⟨value, rfl, (Except.ok.inj h).symm⟩
  · cases h

private theorem appendIntegerColumn_ok {cell : Cell} {fieldName : String}
    {bytes : Bytes} (h : appendIntegerColumn cell fieldName = .ok bytes) :
    ∃ value, cell = .integer value ∧ bytes = uint64Bytes value.toUInt64 := by
  unfold appendIntegerColumn at h
  split at h
  · next value => exact ⟨value, rfl, (Except.ok.inj h).symm⟩
  · cases h

theorem appendNonnegativeIntegerColumn_ok {cell : Cell} {fieldName : String}
    {bytes : Bytes}
    (h : appendNonnegativeIntegerColumn cell fieldName = .ok bytes) :
    ∃ value, cell = .integer value ∧ bytes = uint64Bytes value.toUInt64 := by
  unfold appendNonnegativeIntegerColumn at h
  split at h
  · next value =>
    split at h
    · cases h
    · exact ⟨value, rfl, (Except.ok.inj h).symm⟩
  · cases h

/-- A row that is hashed is an entry. -/
theorem PhysicalAssetRow.payload_ok {row : PhysicalAssetRow} {bytes : Bytes}
    (h : row.payload = .ok bytes) :
    ∃ entry : AssetEntry, row.content = entry.row ∧ bytes = entry.encode := by
  unfold PhysicalAssetRow.payload at h
  obtain ⟨path, hpath, h⟩ := bind_ok.1 h
  obtain ⟨device, hdevice, h⟩ := bind_ok.1 h
  obtain ⟨inode, hinode, h⟩ := bind_ok.1 h
  obtain ⟨size, hsize, h⟩ := bind_ok.1 h
  obtain ⟨mtimeNs, hmtime, h⟩ := bind_ok.1 h
  obtain ⟨ctimeNs, hctime, h⟩ := bind_ok.1 h
  obtain ⟨kind, hkind, h⟩ := bind_ok.1 h
  obtain ⟨path, hpathCell, rfl⟩ := appendBlobColumn_ok hpath
  obtain ⟨device, hdeviceCell, rfl⟩ := appendNonnegativeIntegerColumn_ok hdevice
  obtain ⟨inode, hinodeCell, rfl⟩ := appendNonnegativeIntegerColumn_ok hinode
  obtain ⟨size, hsizeCell, rfl⟩ := appendNonnegativeIntegerColumn_ok hsize
  obtain ⟨mtimeNs, hmtimeCell, rfl⟩ := appendIntegerColumn_ok hmtime
  obtain ⟨ctimeNs, hctimeCell, rfl⟩ := appendIntegerColumn_ok hctime
  obtain ⟨kind, hkindCell, rfl⟩ := appendIntegerColumn_ok hkind
  refine ⟨⟨path, device, inode, size, mtimeNs, ctimeNs, kind⟩, ?_,
    (Except.ok.inj h).symm⟩
  unfold PhysicalAssetRow.content AssetEntry.row
  rw [hpathCell, hdeviceCell, hinodeCell, hsizeCell, hmtimeCell, hctimeCell,
    hkindCell]

theorem ManifestRow.payload_ok {row : ManifestRow} {bytes : Bytes}
    (h : row.payload = .ok bytes) :
    ∃ sourceId sourceType sourceRoot, row.sourceId = .text sourceId
      ∧ row.sourceType = .text sourceType ∧ row.sourceRoot = .blob sourceRoot
      ∧ bytes = lengthPrefixed sourceId ++ lengthPrefixed sourceType
        ++ lengthPrefixed sourceRoot := by
  unfold ManifestRow.payload at h
  obtain ⟨sourceId, hid, h⟩ := bind_ok.1 h
  obtain ⟨sourceType, htype, h⟩ := bind_ok.1 h
  obtain ⟨sourceRoot, hroot, h⟩ := bind_ok.1 h
  obtain ⟨sourceId, hidCell, rfl⟩ := appendTextColumn_ok hid
  obtain ⟨sourceType, htypeCell, rfl⟩ := appendTextColumn_ok htype
  obtain ⟨sourceRoot, hrootCell, rfl⟩ := appendBlobColumn_ok hroot
  exact ⟨sourceId, sourceType, sourceRoot, hidCell, htypeCell, hrootCell,
    (Except.ok.inj h).symm⟩

/-- An entry is delimited. -/
theorem AssetEntry.delimits :
    Delimits (fun entry : AssetEntry => FitsSize entry.relativePath)
      AssetEntry.encode := by
  refine ⟨fun {a b} ha hb {r s} h => ?_⟩
  have hword : Delimits (fun _ => True) uint64Bytes := uint64Bytes_delimits _
  have hinj : ∀ {m n : Int64}, m.toUInt64 = n.toUInt64 → m = n := by
    intro m n heq
    rw [← Int64.toInt64_toUInt64 m, heq, Int64.toInt64_toUInt64]
  simp only [AssetEntry.encode, List.append_assoc] at h
  obtain ⟨hpath, h₁⟩ := lengthPrefixed_delimits.peel ha hb h
  obtain ⟨hdevice, h₂⟩ := hword.peel trivial trivial h₁
  obtain ⟨hinode, h₃⟩ := hword.peel trivial trivial h₂
  obtain ⟨hsize, h₄⟩ := hword.peel trivial trivial h₃
  obtain ⟨hmtime, h₅⟩ := hword.peel trivial trivial h₄
  obtain ⟨hctime, h₆⟩ := hword.peel trivial trivial h₅
  obtain ⟨hkind, hrs⟩ := hword.peel trivial trivial h₆
  cases a
  cases b
  simp only [AssetEntry.mk.injEq]
  exact ⟨⟨hpath, hinj hdevice, hinj hinode, hinj hsize, hinj hmtime,
    hinj hctime, hinj hkind⟩, hrs⟩

theorem AssetEntry.encode_ne_nil (entry : AssetEntry) : entry.encode ≠ [] := by
  intro h
  have hlength := congrArg List.length h
  unfold AssetEntry.encode at hlength
  rw [List.length_append, length_uint64Bytes] at hlength
  simp at hlength

-- =================================================================== rows

/-- The rows that are hashed, in their order. -/
abbrev hashedRows (db : ManifestDb) (id : Bytes) : List PhysicalAssetRow :=
  sortBy PhysicalAssetRow.byPathAndId (db.assetsOf id)

/-- What is hashed of a manifest, read as a source and entries. -/
structure Hashes (db : ManifestDb) (id : Bytes) (sourceId sourceType
    sourceRoot : Bytes) (entries : List AssetEntry) (bytes : Bytes) : Prop where
  source : ∃ row, db.source? id = some row ∧ row.sourceId = .text sourceId
    ∧ row.sourceType = .text sourceType ∧ row.sourceRoot = .blob sourceRoot
  rows : (hashedRows db id).map (·.content) = entries.map AssetEntry.row
  fed : bytes = lengthPrefixed (text "PB_MANIFEST_V1")
    ++ (lengthPrefixed sourceId ++ lengthPrefixed sourceType
      ++ lengthPrefixed sourceRoot) ++ entries.flatMap AssetEntry.encode

theorem manifestBytes_ok {bytes : Bytes} (h : manifestBytes db id = .ok bytes) :
    ∃ sourceId sourceType sourceRoot entries,
      Hashes db id sourceId sourceType sourceRoot entries bytes := by
  unfold manifestBytes at h
  split at h
  · cases h
  next source hsource =>
  obtain ⟨head, hhead, h⟩ := bind_ok.1 h
  obtain ⟨body, hbody, h⟩ := bind_ok.1 h
  obtain ⟨sourceId, sourceType, sourceRoot, hid, htype, hroot, rfl⟩ :=
    ManifestRow.payload_ok hhead
  have hentry : ∀ row ∈ hashedRows db id, ∃ entry : AssetEntry,
      row.content = entry.row ∧ row.payload = .ok entry.encode := by
    intro row hrow
    obtain ⟨bytes, -, hpayload⟩ := forall₂_exists_right (mapM_ok.1 hbody) hrow
    obtain ⟨entry, hcontent, rfl⟩ := PhysicalAssetRow.payload_ok hpayload
    exact ⟨entry, hcontent, hpayload⟩
  obtain ⟨entries, hentries⟩ := exists_forall₂ hentry
  have hpayloads : (hashedRows db id).mapM PhysicalAssetRow.payload
      = .ok (entries.map AssetEntry.encode) := by
    rw [mapM_ok, List.forall₂_map_right_iff]
    exact hentries.imp fun _ _ hrow => hrow.2
  obtain rfl := Except.ok.inj (hbody.symm.trans hpayloads)
  exact ⟨sourceId, sourceType, sourceRoot, entries,
    ⟨source, hsource, hid, htype, hroot⟩,
    forall₂_map_eq hentries fun _ _ hrow => hrow.1,
    (Except.ok.inj h).symm⟩

private theorem nodup_contents (h : db.Stores id) :
    ((db.assetsOf id).map (·.content)).Nodup := by
  have hpaths : (((db.assetsOf id).map (·.content)).map (·.relativePath)).Nodup := by
    rw [List.map_map]
    exact h.paths
  exact hpaths.of_map

/-- The order of the rows is that of their paths, whatever the ids. -/
theorem pairwise_contents (db : ManifestDb) (id : Bytes) :
    ((hashedRows db id).map (·.content)).Pairwise fun a b =>
      PhysicalAssetRow.byPath b a = false := by
  rw [List.pairwise_map]
  refine (pairwise_sortBy PhysicalAssetRow.byPathAndId_comparator _).imp ?_
  exact fun hnot => (thenBy_eq_false.1 hnot).1

/-- Manifests with the same assets are hashed in the same order. -/
theorem contents_eq (h : db.Stores id) (h' : db'.Stores id')
    {entries : List AssetEntry}
    (hentries : (hashedRows db id).map (·.content) = entries.map AssetEntry.row)
    (hsame : ∀ content, content ∈ (db'.assetsOf id').map (·.content)
      ↔ content ∈ (db.assetsOf id).map (·.content)) :
    (hashedRows db' id').map (·.content)
      = (hashedRows db id).map (·.content) := by
  have hperm : ((hashedRows db id).map (·.content)).Perm
      ((db.assetsOf id).map (·.content)) := (perm_sortBy _ _).map _
  have hperm' : ((hashedRows db' id').map (·.content)).Perm
      ((db'.assetsOf id').map (·.content)) := (perm_sortBy _ _).map _
  have hperms := (List.perm_ext_iff_of_nodup (nodup_contents h')
    (nodup_contents h)).2 hsame
  have hblobs : ∀ cell ∈ ((hashedRows db id).map (·.content)).map
      (·.relativePath), ∃ path, cell = .blob path := by
    intro cell hcell
    rw [hentries, List.map_map] at hcell
    obtain ⟨entry, -, rfl⟩ := List.mem_map.1 hcell
    exact ⟨_, rfl⟩
  have hnodup : (((hashedRows db id).map (·.content)).map
      (·.relativePath)).Nodup := by
    rw [(hperm.map _).nodup_iff, List.map_map]
    exact h.paths
  have hseparates : Separates PhysicalAssetRow.byPath
      ((hashedRows db id).map (·.content)) :=
    (Cell.before_blobs hblobs).of_keys hnodup
  exact (eq_of_sorted hseparates
    (hperm.trans (hperms.symm.trans hperm'.symm)) (pairwise_contents db id)
    (pairwise_contents db' id')).symm

-- ================================================================== bytes

/-- The same source and assets are the same bytes. -/
theorem SameContents.bytes (h : SameContents db id db' id')
    (hdb : db.Stores id) (hdb' : db'.Stores id') {bytes : Bytes}
    (hbytes : manifestBytes db id = .ok bytes) :
    manifestBytes db' id' = .ok bytes := by
  obtain ⟨_, _, _, entries, hashes⟩ := manifestBytes_ok hbytes
  have hcontents := contents_eq hdb hdb' hashes.rows h.assets
  obtain ⟨row, row', hrow, hrow', hid, htype, hroot⟩ := h.source
  have hpayload : row'.payload = row.payload := by
    unfold ManifestRow.payload
    rw [hid, htype, hroot]
  have hbody : (hashedRows db' id').mapM PhysicalAssetRow.payload
      = (hashedRows db id).mapM PhysicalAssetRow.payload := by
    have hmap : ∀ rows : List PhysicalAssetRow,
        rows.mapM PhysicalAssetRow.payload
          = (rows.map (·.content)).mapM PhysicalAssetRow.payload := by
      intro rows
      rw [List.mapM_map]
      rfl
    rw [hmap, hcontents, ← hmap]
  rw [← hbytes]
  unfold manifestBytes
  rw [hrow, hrow']
  simp only [hpayload, hbody]

/-- The same bytes are of the same source and assets. -/
theorem same_of_bytes (hdb : db.Stores id) (hdb' : db'.Stores id')
    {bytes : Bytes} (hbytes : manifestBytes db id = .ok bytes)
    (hbytes' : manifestBytes db' id' = .ok bytes) :
    SameContents db id db' id' := by
  obtain ⟨sourceId, sourceType, sourceRoot, entries, hashes⟩ :=
    manifestBytes_ok hbytes
  obtain ⟨sourceId', sourceType', sourceRoot', entries', hashes'⟩ :=
    manifestBytes_ok hbytes'
  obtain ⟨row, hrow, hid, htype, hroot⟩ := hashes.source
  obtain ⟨row', hrow', hid', htype', hroot'⟩ := hashes'.source
  have hfits := hdb.source row hrow
  have hfits' := hdb'.source row' hrow'
  rw [hid, htype, hroot] at hfits
  rw [hid', htype', hroot'] at hfits'
  have hint : ∀ {value : Bytes}, value.length ≤ intMax → FitsSize value := by
    intro value hle
    unfold intMax at hle
    unfold FitsSize
    omega
  have heq := hashes.fed.symm.trans hashes'.fed
  simp only [List.append_assoc] at heq
  obtain ⟨-, h₁⟩ := lengthPrefixed_delimits.peel (by decide) (by decide) heq
  obtain ⟨rfl, h₂⟩ :=
    lengthPrefixed_delimits.peel (hint hfits.1) (hint hfits'.1) h₁
  obtain ⟨rfl, h₃⟩ :=
    lengthPrefixed_delimits.peel (hint hfits.2.1) (hint hfits'.2.1) h₂
  obtain ⟨rfl, h₄⟩ :=
    lengthPrefixed_delimits.peel (hint hfits.2.2) (hint hfits'.2.2) h₃
  have hpaths : ∀ {db : ManifestDb} {id : Bytes} {entries : List AssetEntry},
      db.Stores id →
      (hashedRows db id).map (·.content) = entries.map AssetEntry.row →
      ∀ entry ∈ entries, FitsSize entry.relativePath := by
    intro db id entries hdb hentries entry hentry
    have hmem : entry.row ∈ (hashedRows db id).map (·.content) :=
      hentries ▸ List.mem_map_of_mem hentry
    obtain ⟨row, hrow, hcontent⟩ := List.mem_map.1 hmem
    have hle := hdb.assets row (mem_sortBy.1 hrow)
    have hcell : row.relativePath = .blob entry.relativePath :=
      congrArg PhysicalAssetRow.relativePath hcontent
    rw [hcell] at hle
    exact hint hle
  obtain rfl := AssetEntry.delimits.flatMap_injective AssetEntry.encode_ne_nil
    (hpaths hdb hashes.rows) (hpaths hdb' hashes'.rows) h₄
  refine ⟨⟨row, row', hrow, hrow', hid'.trans hid.symm, htype'.trans htype.symm,
    hroot'.trans hroot.symm⟩, fun content => ?_⟩
  have hlists := hashes'.rows.trans hashes.rows.symm
  have hmem : ∀ (db : ManifestDb) (id : Bytes),
      content ∈ (hashedRows db id).map (·.content)
        ↔ content ∈ (db.assetsOf id).map (·.content) :=
    fun db id => ((perm_sortBy _ _).map _).mem_iff
  rw [← hmem db id, ← hmem db' id', hlists]

/-- The bytes that are hashed identify the manifest. -/
theorem manifestBytes_eq_iff (hdb : db.Stores id) (hdb' : db'.Stores id')
    {bytes bytes' : Bytes} (hbytes : manifestBytes db id = .ok bytes)
    (hbytes' : manifestBytes db' id' = .ok bytes') :
    bytes = bytes' ↔ SameContents db id db' id' := by
  constructor
  · rintro rfl
    exact same_of_bytes hdb hdb' hbytes hbytes'
  · intro h
    exact Except.ok.inj ((h.bytes hdb hdb' hbytes).symm.trans hbytes')

-- ================================================================= reopen

section Reopen

variable {blake3 : Bytes → Digest} {frozen found : FrozenManifest}

/-- What a manifest that can be reopened is. -/
structure Sealed (blake3 : Bytes → Digest) (db : ManifestDb) (id : Bytes)
    (frozen : FrozenManifest) : Prop where
  named : id ≠ [] ∧ id.length ≤ intMax
  row : ∃ row, db.source? id = some row
    ∧ row.frozenDigest = .ok frozen.manifestDigest
  digest : ∃ bytes, manifestBytes db id = .ok bytes
    ∧ blake3 bytes = frozen.manifestDigest
  manifestId : frozen.manifestId = id
  assetCount : frozen.assetCount = (db.assetsOf id).length

theorem frozenManifestOf_ok :
    frozenManifestOf blake3 id db = .ok frozen ↔ Sealed blake3 db id frozen := by
  constructor
  · intro h
    unfold frozenManifestOf at h
    split at h
    · cases h
    next hne =>
    obtain ⟨_, hcheck, h⟩ := bind_ok.1 h
    have hlength : id.length ≤ intMax := checkText_le hcheck
    cases hsource : db.source? id with
    | none =>
        rw [hsource] at h
        cases h
    | some row =>
        rw [hsource] at h
        simp only [Option.map_some, frozenManifestWith] at h
        obtain ⟨persisted, hpersisted, h⟩ := bind_ok.1 h
        obtain ⟨computed, hcomputed, h⟩ := bind_ok.1 h
        rw [manifestDigestWith_eq] at hcomputed
        split at h
        · cases h
        next heq =>
        obtain rfl := Except.ok.inj h
        rw [not_not] at heq
        subst heq
        cases hbytes : manifestBytes db id with
        | error e =>
            rw [hbytes] at hcomputed
            cases hcomputed
        | ok bytes =>
            rw [hbytes] at hcomputed
            exact ⟨⟨by simpa using hne, hlength⟩, ⟨row, hsource, hpersisted⟩,
              ⟨bytes, hbytes, Except.ok.inj hcomputed⟩, rfl, rfl⟩
  · rintro ⟨⟨hne, hlength⟩, ⟨row, hsource, hpersisted⟩, ⟨bytes, hbytes, hdigest⟩,
      hid, hcount⟩
    have hcheck := checkText_ok hlength "manifest_id"
    have hcomputed : manifestDigestWith blake3 id (some row) db
        = .ok frozen.manifestDigest := by
      rw [← hsource, manifestDigestWith_eq, hbytes, ← hdigest]
      rfl
    unfold frozenManifestOf
    rw [if_neg (by simpa using hne)]
    refine bind_ok.2 ⟨(), hcheck, ?_⟩
    rw [hsource]
    simp only [Option.map_some, frozenManifestWith]
    refine bind_ok.2 ⟨_, hpersisted, bind_ok.2 ⟨_, hsource ▸ hcomputed, ?_⟩⟩
    rw [if_neg (by simp), ← hcount]
    subst hid
    rfl

/-- Neither the state nor the digest of the manifest's row has changed. -/
def SameSeal (db db' : ManifestDb) (id : Bytes) : Prop :=
  ∀ row row', db.source? id = some row → db'.source? id = some row' →
    row'.state = row.state ∧ row'.manifestDigest = row.manifestDigest

/-- The hash tells apart what is hashed of the two. -/
def NoCollision (blake3 : Bytes → Digest) (db db' : ManifestDb) (id : Bytes) :
    Prop :=
  ∀ bytes bytes', manifestBytes db id = .ok bytes →
    manifestBytes db' id = .ok bytes' → blake3 bytes' = blake3 bytes →
    bytes' = bytes

private theorem frozenDigest_congr {row row' : ManifestRow}
    (hstate : row'.state = row.state)
    (hdigest : row'.manifestDigest = row.manifestDigest) :
    row'.frozenDigest = row.frozenDigest := by
  unfold ManifestRow.frozenDigest
  rw [hstate, hdigest]

/-- A sealed manifest is still sealed if its contents are the same, and
only then. -/
theorem sealed_iff (hdb : db.Stores id) (hdb' : db'.Stores id)
    (hseal : SameSeal db db' id) (hcollision : NoCollision blake3 db db' id)
    (h : Sealed blake3 db id frozen) :
    Sealed blake3 db' id found ↔ found = frozen ∧ SameContents db id db' id := by
  obtain ⟨row, hrow, hfrozen⟩ := h.row
  obtain ⟨bytes, hbytes, hdigest⟩ := h.digest
  have hcount : SameContents db id db' id →
      (db'.assetsOf id).length = (db.assetsOf id).length := by
    intro hsame
    have hperm := (List.perm_ext_iff_of_nodup (nodup_contents hdb')
      (nodup_contents hdb)).2 hsame.assets
    simpa using hperm.length_eq
  constructor
  · intro h'
    obtain ⟨row', hrow', hfrozen'⟩ := h'.row
    obtain ⟨bytes', hbytes', hdigest'⟩ := h'.digest
    obtain ⟨hstate, hstored⟩ := hseal row row' hrow hrow'
    rw [frozenDigest_congr hstate hstored, hfrozen] at hfrozen'
    have hdigests := Except.ok.inj hfrozen'
    have hsameBytes := hcollision bytes bytes' hbytes hbytes'
      (hdigest'.trans (hdigests.symm.trans hdigest.symm))
    rw [hsameBytes] at hbytes'
    have hsame := same_of_bytes hdb hdb' hbytes hbytes'
    refine ⟨?_, hsame⟩
    have hid := h'.manifestId.trans h.manifestId.symm
    have hcounts := h'.assetCount.trans
      ((hcount hsame).trans h.assetCount.symm)
    cases found
    cases frozen
    simp only [FrozenManifest.mk.injEq]
    exact ⟨hid, hcounts, hdigests.symm⟩
  · rintro ⟨rfl, hsame⟩
    obtain ⟨_, row', _, hrow', -⟩ := hsame.source
    obtain ⟨hstate, hstored⟩ := hseal row row' hrow hrow'
    exact ⟨h.named, ⟨row', hrow', (frozenDigest_congr hstate hstored).trans
      hfrozen⟩, ⟨bytes, hsame.bytes hdb hdb' hbytes, hdigest⟩, h.manifestId,
      h.assetCount.trans (hcount hsame).symm⟩

/-- Reopening succeeds on a sealed manifest only, and then, unless a call
fails. -/
theorem reopen_sealed {μ : Type} {c : Conn ManifestDb Bytes μ}
    (hc : c.txn = none) :
    (∀ found, (reopen blake3 id c).1 = .ok found →
        Sealed blake3 c.committed id found)
      ∧ (c.faults = [] → ∀ found, Sealed blake3 c.committed id found →
        (reopen blake3 id c).1 = .ok found) := by
  have hunchanged : c.Unchanged false := hc
  have hreads := @reads_reopen blake3 μ id
  constructor
  · intro found hfound
    have hrun : reopen blake3 id c = (.ok found, (reopen blake3 id c).2) :=
      Prod.ext hfound rfl
    exact frozenManifestOf_ok.1 (hreads.ok hunchanged hrun).1
  · intro hfaults found hsealed
    rw [(hreads.quiet hunchanged hfaults).2]
    exact frozenManifestOf_ok.2 hsealed

end Reopen

/-- A hash that keeps the end of what it is given. -/
def lastBytes (bytes : Bytes) : Digest :=
  ⟨(bytes.reverse ++ List.replicate 32 0).take 32, by simp⟩

end PhotoBridge
