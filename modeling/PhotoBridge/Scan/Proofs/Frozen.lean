/-
What a builder freezes, when any of its calls may fail.

A failed flush keeps what is pending, so what has been added is at every
point what the table holds followed by what is pending (`Adding`). A
freeze that succeeds has found nothing pending, and its manifest can be
reopened (`buildManifest_ok`). Its digest is that of the source and the
set of assets, and so the same for every order of the assets and every
batch size.
-/
import PhotoBridge.Manifest.Proofs.Digest
import PhotoBridge.Scan.Proofs.Scan

namespace PhotoBridge

open Joining Sorting Transaction

-- =================================================================== runs

/-- `Add`, whatever comes of it. -/
def ManifestBuilder.tryAdd (asset : PhysicalAsset) :
    ManifestBuilder.Action Unit :=
  fun c => (.ok (), (ManifestBuilder.add asset c).2)

/-- `Begin`, an `Add` for each asset, and `Freeze`. -/
def buildManifest (blake3 : Bytes → Digest) (batchSize : Nat) (now : Int64)
    (sequence : UInt64) (source : SourceDescriptor)
    (assets : List PhysicalAsset) : ManifestBuilder.Action FrozenManifest := do
  Session.remember (ManifestBuilder.new batchSize)
  ManifestBuilder.begin (newManifestId now sequence) source
  forM assets ManifestBuilder.tryAdd
  ManifestBuilder.freeze blake3

-- =============================================================== columns

theorem RelativePath.bytes_ne_nil (path : RelativePath) : path.bytes ≠ [] := by
  intro hnil
  have hparsed := path.parsed
  rw [hnil] at hparsed
  cases hparsed

private theorem checkBlob_le {value : Bytes} {fieldName : String}
    (h : checkBlob value fieldName = .ok ()) : value.length ≤ intMax := by
  unfold checkBlob at h
  split at h
  · cases h
  · omega

/-- SQLite can hold the fields of the source. -/
structure SourceDescriptor.Fits (source : SourceDescriptor) : Prop where
  sourceId : source.sourceId.length ≤ intMax
  sourceType : source.sourceType.length ≤ intMax
  sourceRoot : source.sourceRoot.length ≤ intMax

theorem SourceDescriptor.fits_of_bind {source : SourceDescriptor}
    {manifestId : Bytes} (h : source.bind manifestId = .ok ()) :
    source.Fits := by
  unfold SourceDescriptor.bind at h
  obtain ⟨_, -, h⟩ := bind_ok.1 h
  obtain ⟨_, hid, h⟩ := bind_ok.1 h
  obtain ⟨_, htype, hroot⟩ := bind_ok.1 h
  exact ⟨checkText_le hid, checkText_le htype, checkBlob_le hroot⟩

theorem PhysicalAsset.path_le_of_bind {asset : PhysicalAsset}
    {manifestId : Bytes} (h : asset.bind manifestId = .ok ()) :
    asset.path.length ≤ intMax := by
  unfold PhysicalAsset.bind at h
  obtain ⟨_, -, h⟩ := bind_ok.1 h
  obtain ⟨_, -, h⟩ := bind_ok.1 h
  obtain ⟨_, hpath, -⟩ := bind_ok.1 h
  exact checkBlob_le hpath

-- ============================================================ transactions

section Inserting

variable {db db' : ManifestDb} {id : Bytes} {inserted : List PhysicalAsset}

/-- A bracketed block has done what it does, or reports an error. -/
theorem immediately_outcome {μ α : Type} {x : ManifestSession μ α}
    {f : Txn ManifestDb Status α} (hx : Session.Realises x f)
    {c : Conn ManifestDb Bytes μ} (hc : c.txn = none) :
    Session.Outcome f c.committed (immediately x c).1
        (immediately x c).2.committed
      ∧ (immediately x c).2.txn = none
      ∧ (immediately x c).2.memory = c.memory := by
  have hspec := @Session.atomically_spec _ _ _ _ _
    (Status.sqlite "execute SQLite statement")
    (text "cannot start a transaction within a transaction")
    (text "database is locked")
    (text "cannot commit - no transaction is active") _ _ hx _ hc
  exact ⟨hspec.1, hspec.2.1, hspec.2.2.2⟩

/-- Assets whose rows the table can hold at once. -/
structure Inserted (assets : List PhysicalAsset) : Prop where
  nodup : (assets.map PhysicalAsset.path).Nodup
  fits : ∀ asset ∈ assets, asset.path.length ≤ intMax

/-- An asset that was inserted has a path of its own. -/
theorem insertAsset_new (hnone : db.assetsOf id = []) {asset : PhysicalAsset}
    (h : (db.withAssets id inserted).insertAsset (asset.row id)
      = .ok ((), db')) :
    asset.path ∉ inserted.map PhysicalAsset.path
      ∧ db' = db.withAssets id (inserted ++ [asset]) := by
  unfold ManifestDb.insertAsset at h
  rw [show (asset.row id).manifestId = id from rfl,
    assetsOf_withAssets hnone] at h
  simp only at h
  split at h
  · cases h
  next hpaths =>
  split at h
  · cases h
  split at h
  · cases h
  have hdb' := congrArg Prod.snd (Except.ok.inj h)
  refine ⟨fun hmem => ?_, ?_⟩
  · obtain ⟨other, hother, hpath⟩ := List.mem_map.1 hmem
    refine hpaths (List.any_eq_true.2 ⟨other.row id,
      List.mem_map_of_mem hother, ?_⟩)
    have hbytes : other.relativePath.bytes = asset.relativePath.bytes := hpath
    show (Cell.blob other.relativePath.bytes
      == Cell.blob asset.relativePath.bytes) = true
    rw [hbytes, beq_self_eq_true]
  · rw [← withAssets_append]
    exact hdb'.symm

/-- A batch that was inserted was inserted as a whole. -/
theorem insertAssetsTxn_new (hnone : db.assetsOf id = [])
    {assets : List PhysicalAsset} {m n : Nat}
    (h : insertAssetsTxn id assets n (db.withAssets id inserted) = .ok (m, db'))
    (hinserted : Inserted inserted) :
    m = n + assets.length ∧ db' = db.withAssets id (inserted ++ assets)
      ∧ Inserted (inserted ++ assets) := by
  induction assets generalizing inserted n with
  | nil =>
      obtain ⟨rfl, rfl⟩ := Txn.pure_eq_ok.1 h
      rw [List.append_nil]
      exact ⟨rfl, rfl, hinserted⟩
  | cons asset rest ih =>
      rw [insertAssetsTxn] at h
      obtain ⟨_, db₁, hcheck, h⟩ := Txn.bind_eq_ok.1 h
      obtain ⟨_, db₂, hinsert, h⟩ := Txn.bind_eq_ok.1 h
      obtain ⟨hbind, rfl⟩ := checkedTxn_ok.1 hcheck
      rw [Txn.edit_eq_ok] at hinsert
      obtain ⟨hnew, rfl⟩ := insertAsset_new hnone hinsert
      have hlonger : Inserted (inserted ++ [asset]) := by
        refine ⟨?_, fun other hother => ?_⟩
        · rw [List.map_append, List.nodup_append]
          refine ⟨hinserted.nodup, List.nodup_singleton _, ?_⟩
          rintro _ hpath _ hself rfl
          obtain rfl := List.mem_singleton.1 hself
          exact hnew hpath
        · rcases List.mem_append.1 hother with hold | hself
          · exact hinserted.fits other hold
          · obtain rfl := List.mem_singleton.1 hself
            exact PhysicalAsset.path_le_of_bind hbind
      obtain ⟨hcount, hdb', hall⟩ := ih h hlonger
      rw [List.append_assoc, List.singleton_append] at hdb' hall
      refine ⟨?_, hdb', hall⟩
      rw [hcount, List.length_cons]
      omega

end Inserting

-- ================================================================= adding

/-- What has been added so far is what the table holds of the manifest,
followed by what is pending. -/
structure Adding (db : ManifestDb) (id : Bytes)
    (c : Conn ManifestDb Bytes ManifestBuilder) (added : List PhysicalAsset) :
    Prop where
  txn : c.txn = none
  state : c.memory.state = .building
  named : c.memory.manifestId = id
  split : ∃ inserted, added = inserted ++ c.memory.pendingAssets
    ∧ c.committed = db.withAssets id inserted
    ∧ c.memory.assetCount = inserted.length
    ∧ Inserted inserted

section Adding

variable {db : ManifestDb} {id : Bytes} {added : List PhysicalAsset}
variable {c : Conn ManifestDb Bytes ManifestBuilder}
variable (hnone : db.assetsOf id = [])

include hnone

/-- A flush inserts what is pending or keeps it. -/
theorem flushPending_adding (hc : Adding db id c added) :
    Adding db id (ManifestBuilder.flushPending c).2 added
      ∧ ((ManifestBuilder.flushPending c).1 = .ok () →
        (ManifestBuilder.flushPending c).2.memory.pendingAssets = []) := by
  obtain ⟨inserted, hadded, hcommitted, hcount, hinserted⟩ := hc.split
  unfold ManifestBuilder.flushPending
  rw [Session.bind_apply]
  simp only [Session.remembered]
  split
  · next hempty => exact ⟨hc, fun _ => List.isEmpty_iff.1 hempty⟩
  · rw [Session.bind_apply]
    obtain ⟨houtcome, htxn, hmemory⟩ := immediately_outcome
      (realises_insertAssets c.memory.manifestId c.memory.pendingAssets 0)
      hc.txn
    rcases hblock : immediately (ManifestBuilder.insertAssets
      c.memory.manifestId c.memory.pendingAssets 0) c with ⟨result, c₁⟩
    rw [hblock] at houtcome htxn hmemory
    simp only at houtcome htxn hmemory
    generalize hafter : c₁.committed = after at houtcome
    cases houtcome with
    | refused e =>
        refine ⟨⟨htxn, ?_, ?_, inserted, ?_, ?_, ?_, hinserted⟩, ?_⟩
        · exact hmemory ▸ hc.state
        · exact hmemory ▸ hc.named
        · exact hmemory ▸ hadded
        · exact hafter.trans hcommitted
        · exact hmemory ▸ hcount
        · intro h
          cases h
    | done hdone =>
        rw [hc.named, hcommitted] at hdone
        obtain ⟨rfl, hdb', hall⟩ := insertAssetsTxn_new hnone hdone hinserted
        rw [← hadded] at hdb' hall
        rw [← hafter] at hdb'
        refine ⟨⟨htxn, hc.state, hc.named, added, ?_, hdb', ?_, hall⟩, ?_⟩
        · simp [Session.remember]
        · show c.memory.assetCount + _ = _
          rw [hcount, hadded, List.length_append, Nat.zero_add]
        · intro _
          simp [Session.remember]

/-- An add takes the asset up, whatever comes of the flush. -/
theorem tryAdd_adding (hc : Adding db id c added) (asset : PhysicalAsset) :
    Adding db id (ManifestBuilder.add asset c).2 (added ++ [asset]) := by
  obtain ⟨inserted, hadded, hcommitted, hcount, hinserted⟩ := hc.split
  have hpushed : Adding db id
      { c with memory := { c.memory with
          pendingAssets := c.memory.pendingAssets ++ [asset] } }
      (added ++ [asset]) := by
    refine ⟨hc.txn, hc.state, hc.named, inserted, ?_, hcommitted, hcount,
      hinserted⟩
    rw [hadded, List.append_assoc]
  have hnonempty : asset.relativePath.bytes.isEmpty = false :=
    List.isEmpty_eq_false_iff.2 asset.relativePath.bytes_ne_nil
  unfold ManifestBuilder.add
  rw [Session.bind_apply]
  simp only [Session.remembered]
  rw [if_neg (by rw [hc.state]; simp), if_neg (by rw [hnonempty]; simp),
    Session.bind_apply]
  simp only [Session.remember]
  split
  · exact hpushed
  · exact (flushPending_adding hnone hpushed).1

theorem forM_tryAdd {assets : List PhysicalAsset} (hc : Adding db id c added) :
    ∃ c', forM assets ManifestBuilder.tryAdd c = (.ok (), c')
      ∧ Adding db id c' (added ++ assets) := by
  induction assets generalizing c added with
  | nil =>
      rw [List.append_nil]
      exact ⟨c, rfl, hc⟩
  | cons asset rest ih =>
      obtain ⟨c', hrest, hc'⟩ := ih (tryAdd_adding hnone hc asset)
      rw [List.append_assoc, List.singleton_append] at hc'
      refine ⟨c', ?_, hc'⟩
      rw [List.forM_cons, Session.bind_apply]
      exact hrest

end Adding

-- ======================================================= begin and freeze

/-- A manifest that was begun is new, and empty. -/
theorem begin_adding {id : Bytes} {source : SourceDescriptor}
    {c c' : Conn ManifestDb Bytes ManifestBuilder} (hc : c.txn = none)
    (h : ManifestBuilder.begin id source c = (.ok (), c')) :
    c.committed.source? id = none ∧ source.Fits
      ∧ Adding (c.committed.withSource (source.row id)) id c' [] := by
  have hblock := Session.Realises.bind
    (realises_checked (μ := ManifestBuilder) (source.bind id)) fun _ =>
      realises_writeRows "insert source manifest"
      (·.insertSource (source.row id))
  unfold ManifestBuilder.begin at h
  rw [Session.bind_apply] at h
  simp only [Session.remembered] at h
  split at h
  · cases h
  split at h
  · cases h
  rw [Session.bind_apply] at h
  obtain ⟨houtcome, htxn, -⟩ := immediately_outcome hblock hc
  rcases hrun : immediately (do
      checked (source.bind id)
      writeRows "insert source manifest" (·.insertSource (source.row id))) c
    with ⟨result, c₁⟩
  rw [hrun] at h houtcome htxn
  simp only at houtcome htxn
  generalize hafter : c₁.committed = after at houtcome
  cases houtcome with
  | refused e => cases h
  | done hdone =>
      obtain ⟨_, db₁, hcheck, hdone⟩ := Txn.bind_eq_ok.1 hdone
      obtain ⟨hbind, rfl⟩ := checkedTxn_ok.1 hcheck
      rw [Txn.edit_eq_ok] at hdone
      unfold ManifestDb.insertSource at hdone
      split at hdone
      · cases hdone
      next hfresh =>
      have hdb' : c.committed.withSource (source.row id) = after :=
        congrArg Prod.snd (Except.ok.inj hdone)
      obtain rfl := (Prod.mk.inj h).2
      refine ⟨by simpa [SourceDescriptor.row] using hfresh,
        SourceDescriptor.fits_of_bind hbind, htxn, rfl, rfl, [], rfl, ?_, rfl,
        List.nodup_nil, by simp⟩
      rw [hdb', ← hafter]
      simp [ManifestDb.withAssets]

/-- What a builder that succeeds leaves in the tables. -/
structure Built (blake3 : Bytes → Digest) (db db' : ManifestDb) (id : Bytes)
    (source : SourceDescriptor) (assets : List PhysicalAsset)
    (frozen : FrozenManifest) : Prop where
  fresh : db.source? id = none
  fits : source.Fits
  inserted : Inserted assets
  named : id.length ≤ intMax
  after : db' = (db.withSource ((source.row id).frozen
    frozen.manifestDigest)).withAssets id assets
  digest : manifestDigestWith blake3 id (some (source.row id)) db'
    = .ok frozen.manifestDigest
  manifestId : frozen.manifestId = id
  assetCount : frozen.assetCount = assets.length

/-- A manifest that was frozen holds all that was added. -/
theorem freeze_built {blake3 : Bytes → Digest} {db : ManifestDb} {id : Bytes}
    {source : SourceDescriptor} {added : List PhysicalAsset}
    {c c' : Conn ManifestDb Bytes ManifestBuilder} {frozen : FrozenManifest}
    (hfresh : db.source? id = none) (hnone : db.assetsOf id = [])
    (hfits : source.Fits)
    (hc : Adding (db.withSource (source.row id)) id c added)
    (h : ManifestBuilder.freeze blake3 c = (.ok frozen, c')) :
    Built blake3 db c'.committed id source added frozen := by
  have hnone' : (db.withSource (source.row id)).assetsOf id = [] := hnone
  -- what was collected goes into the table first
  obtain ⟨hflushed, hempty⟩ := flushPending_adding hnone' hc
  unfold ManifestBuilder.freeze at h
  rw [Session.bind_apply] at h
  simp only [Session.remembered] at h
  rw [if_neg (by rw [hc.state]; simp), Session.bind_apply] at h
  rcases hflush : ManifestBuilder.flushPending c with ⟨result, c₁⟩
  rw [hflush] at h hflushed hempty
  cases result with
  | error e => cases h
  | ok _ =>
  obtain ⟨inserted, hadded, hcommitted, hcount, hinserted⟩ := hflushed.split
  rw [hempty rfl, List.append_nil] at hadded
  subst hadded
  simp only [Session.bind_apply, Session.remembered] at h
  -- then the digest is computed and stored, in one transaction
  obtain ⟨houtcome, -, -⟩ := immediately_outcome
    (realises_freezeBody blake3 c₁.memory.manifestId) hflushed.txn
  rcases hblock : immediately (ManifestBuilder.freezeBody blake3
    c₁.memory.manifestId) c₁ with ⟨result, c₂⟩
  rw [hblock] at h houtcome
  simp only at houtcome
  generalize hafter : c₂.committed = after at houtcome
  cases houtcome with
  | refused e => cases h
  | @done digest _ hdone =>
      obtain ⟨hfrozen, hc'⟩ := Prod.mk.inj h
      obtain rfl := Except.ok.inj hfrozen
      obtain rfl := hc'
      rw [hflushed.named, hcommitted] at hdone
      unfold freezeTxn at hdone
      obtain ⟨computed, db₁, hdigest, hdone⟩ := Txn.bind_eq_ok.1 hdone
      obtain ⟨_, db₂, hcheck, hdone⟩ := Txn.bind_eq_ok.1 hdone
      obtain ⟨changed, db₃, hupdate, hdone⟩ := Txn.bind_eq_ok.1 hdone
      obtain ⟨hnamed, rfl⟩ := checkedTxn_ok.1 hcheck
      obtain ⟨hcomputed, rfl⟩ := checkedTxn_ok.1 hdigest
      have hupdated := freezeSource_withSource (source.row id) hfresh rfl
        computed added
      rw [Txn.edit_eq_ok] at hupdate
      have hupdate := hupdate.symm.trans (congrArg Except.ok hupdated)
      obtain ⟨rfl, rfl⟩ := Prod.mk.inj (Except.ok.inj hupdate)
      obtain ⟨rfl, rfl⟩ := Txn.pure_eq_ok.1 hdone
      -- the digest is of the source's row as it was, and of the assets
      have hsource : (db.withSource (source.row id)).source? id
          = some (source.row id) := source?_withSource (source.row id) hfresh
      rw [source?_withAssets, hsource] at hcomputed
      refine ⟨hfresh, hfits, hinserted, checkText_le hnamed, hafter, ?_,
        hflushed.named, hcount⟩
      have hrows : c₂.committed.assetsOf id
          = ((db.withSource (source.row id)).withAssets id added).assetsOf id := by
        rw [hafter, assetsOf_withAssets hnone']
        exact assetsOf_withAssets hnone _
      show manifestDigestWith blake3 id _ c₂.committed = _
      unfold manifestDigestWith at hcomputed ⊢
      rw [hrows]
      exact hcomputed

-- ==================================================== what has been built

section Built

variable {blake3 : Bytes → Digest} {db db' db₁ db₂ : ManifestDb}
variable {id id' : Bytes} {source : SourceDescriptor}
variable {assets assets' : List PhysicalAsset}
variable {frozen frozen' : FrozenManifest}

theorem Built.row (h : Built blake3 db db' id source assets frozen) :
    db'.source? id = some ((source.row id).frozen frozen.manifestDigest) := by
  rw [h.after, source?_withAssets]
  exact source?_withSource ((source.row id).frozen _) h.fresh

theorem Built.assetsOf (h : Built blake3 db db' id source assets frozen)
    (hkeys : db.ForeignKeys) :
    db'.assetsOf id = assets.map (·.row id) := by
  have hnone : (db.withSource ((source.row id).frozen
      frozen.manifestDigest)).assetsOf id = [] := assetsOf_fresh hkeys h.fresh
  rw [h.after]
  exact assetsOf_withAssets hnone assets

theorem Built.stores (h : Built blake3 db db' id source assets frozen)
    (hkeys : db.ForeignKeys) : db'.Stores id := by
  refine ⟨?_, fun row hrow => ?_, fun row hrow => ?_⟩
  · have hpaths : (assets.map (·.row id)).map (·.relativePath)
        = (assets.map PhysicalAsset.path).map Cell.blob := by
      rw [List.map_map, List.map_map]
      rfl
    rw [h.assetsOf hkeys, hpaths]
    exact h.inserted.nodup.map fun _ _ heq => Cell.blob.inj heq
  · rw [h.assetsOf hkeys] at hrow
    obtain ⟨asset, hasset, rfl⟩ := List.mem_map.1 hrow
    exact h.inserted.fits asset hasset
  · rw [h.row] at hrow
    obtain rfl := Option.some.inj hrow
    exact ⟨h.fits.sourceId, h.fits.sourceType, h.fits.sourceRoot⟩

theorem Built.sealed (h : Built blake3 db db' id source assets frozen)
    (hkeys : db.ForeignKeys) (hne : id ≠ []) :
    Sealed blake3 db' id frozen := by
  have hpersisted : ((source.row id).frozen frozen.manifestDigest).frozenDigest
      = .ok frozen.manifestDigest := by
    unfold ManifestRow.frozenDigest ManifestRow.frozen
    simp [frozen.manifestDigest.size]
  have hcomputed : manifestDigestWith blake3 id (db'.source? id) db'
      = .ok frozen.manifestDigest := by
    rw [h.row]
    exact h.digest
  rw [manifestDigestWith_eq] at hcomputed
  refine ⟨⟨hne, h.named⟩, ⟨_, h.row, hpersisted⟩, ?_, h.manifestId, ?_⟩
  · cases hbytes : manifestBytes db' id with
    | error e =>
        rw [hbytes] at hcomputed
        cases hcomputed
    | ok bytes =>
        rw [hbytes] at hcomputed
        exact ⟨bytes, rfl, Except.ok.inj hcomputed⟩
  · rw [h.assetCount, h.assetsOf hkeys, List.length_map]

/-- The same assets of one source, however they were added. -/
theorem Built.same (h : Built blake3 db₁ db id source assets frozen)
    (h' : Built blake3 db₂ db' id' source assets' frozen')
    (hkeys : db₁.ForeignKeys) (hkeys' : db₂.ForeignKeys)
    (hassets : ∀ asset, asset ∈ assets' ↔ asset ∈ assets) :
    SameContents db id db' id' := by
  refine ⟨⟨_, _, h.row, h'.row, rfl, rfl, rfl⟩, fun content => ?_⟩
  have hcontents : ∀ (id : Bytes) (assets : List PhysicalAsset),
      (assets.map (·.row id)).map (·.content)
        = assets.map fun asset => (asset.row []).content := by
    intro id assets
    rw [List.map_map]
    rfl
  rw [h.assetsOf hkeys, h'.assetsOf hkeys', hcontents, hcontents]
  simp only [List.mem_map, hassets]

end Built

-- =========================================================== the manifest

/-- The manifest was frozen by some builder, on some connection, with
these assets added in this order. -/
def FrozenBy (blake3 : Bytes → Digest) (source : SourceDescriptor)
    (assets : List PhysicalAsset) (db : ManifestDb) (frozen : FrozenManifest) :
    Prop :=
  ∃ (c c' : Conn ManifestDb Bytes ManifestBuilder) (batchSize : Nat)
    (now : Int64) (sequence : UInt64),
    c.txn = none ∧ c.committed.ForeignKeys ∧ c'.committed = db
      ∧ buildManifest blake3 batchSize now sequence source assets c
        = (.ok frozen, c')

section FrozenBy

variable {blake3 : Bytes → Digest} {db db' : ManifestDb}
variable {source : SourceDescriptor} {assets assets' : List PhysicalAsset}
variable {frozen frozen' : FrozenManifest}

theorem buildManifest_built {batchSize : Nat} {now : Int64} {sequence : UInt64}
    {c c' : Conn ManifestDb Bytes ManifestBuilder} (hc : c.txn = none)
    (hkeys : c.committed.ForeignKeys)
    (h : buildManifest blake3 batchSize now sequence source assets c
      = (.ok frozen, c')) :
    Built blake3 c.committed c'.committed (newManifestId now sequence) source
      assets frozen := by
  unfold buildManifest at h
  rw [Session.bind_apply] at h
  simp only [Session.remember] at h
  rw [Session.bind_apply] at h
  rcases hbegin : ManifestBuilder.begin (newManifestId now sequence) source
    { c with memory := .new batchSize } with ⟨result, c₁⟩
  rw [hbegin] at h
  cases result with
  | error e => cases h
  | ok _ =>
  have htxn : { c with memory := ManifestBuilder.new batchSize }.txn = none := hc
  obtain ⟨hfresh, hfits, hbegun⟩ := begin_adding htxn hbegin
  have hnone : c.committed.assetsOf (newManifestId now sequence) = [] :=
    assetsOf_fresh hkeys hfresh
  have hnone' : (c.committed.withSource (source.row
      (newManifestId now sequence))).assetsOf (newManifestId now sequence)
        = [] := hnone
  obtain ⟨c₂, hadd, hadded⟩ :=
    @forM_tryAdd _ _ _ _ hnone' assets hbegun
  simp only [Session.bind_apply, hadd] at h
  exact freeze_built hfresh hnone hfits hadded h

theorem FrozenBy.built (h : FrozenBy blake3 source assets db frozen) :
    ∃ db₀, ManifestDb.ForeignKeys db₀ ∧ frozen.manifestId ≠ []
      ∧ Built blake3 db₀ db frozen.manifestId source assets frozen := by
  obtain ⟨c, c', batchSize, now, sequence, hc, hkeys, rfl, hrun⟩ := h
  have hbuilt := buildManifest_built hc hkeys hrun
  rw [← hbuilt.manifestId] at hbuilt
  refine ⟨c.committed, hkeys, ?_, hbuilt⟩
  rw [(buildManifest_built hc hkeys hrun).manifestId]
  exact newManifestId_ne_nil now sequence

/-- A frozen manifest can be reopened. -/
theorem FrozenBy.sealed (h : FrozenBy blake3 source assets db frozen) :
    db.Stores frozen.manifestId ∧ Sealed blake3 db frozen.manifestId frozen := by
  obtain ⟨db₀, hkeys, hne, hbuilt⟩ := h.built
  exact ⟨hbuilt.stores hkeys, hbuilt.sealed hkeys hne⟩

/-- Its digest depends on what was added, not on how. -/
theorem FrozenBy.digest_eq (h : FrozenBy blake3 source assets db frozen)
    (h' : FrozenBy blake3 source assets' db' frozen')
    (hassets : ∀ asset, asset ∈ assets' ↔ asset ∈ assets) :
    frozen'.manifestDigest = frozen.manifestDigest := by
  obtain ⟨db₁, hkeys, hne, hbuilt⟩ := h.built
  obtain ⟨db₂, hkeys', hne', hbuilt'⟩ := h'.built
  have hsame := hbuilt.same hbuilt' hkeys hkeys' hassets
  obtain ⟨bytes, hbytes, hdigest⟩ := (hbuilt.sealed hkeys hne).digest
  obtain ⟨bytes', hbytes', hdigest'⟩ := (hbuilt'.sealed hkeys' hne').digest
  have heq := hsame.bytes (hbuilt.stores hkeys) (hbuilt'.stores hkeys') hbytes
  rw [← hdigest, ← hdigest', Except.ok.inj (hbytes'.symm.trans heq)]

end FrozenBy

/-- The digest identifies the manifest. The bytes that are hashed are the
same for the same source and set of assets, and for no others; so the
order of the adds, the size of the batches and the faults on the way leave
no trace in it. A manifest that was frozen is sealed; and whatever becomes
of its rows, unless the hash collides, reopening gives the manifest that
was frozen if its contents are the same, and fails if they are not. -/
theorem manifests_identified (blake3 : Bytes → Digest) :
    (∀ {μ : Type} (c : Conn ManifestDb Bytes μ) (id : Bytes),
        c.Unchanged true → c.faults = [] →
        (computeManifestDigest blake3 id c).1
          = (manifestBytes c.committed id).map blake3)
    ∧ (∀ {db db' : ManifestDb} {id id' bytes bytes' : Bytes}, db.Stores id →
        db'.Stores id' → manifestBytes db id = .ok bytes →
        manifestBytes db' id' = .ok bytes' →
        (bytes = bytes' ↔ SameContents db id db' id'))
    ∧ (∀ {source : SourceDescriptor} {assets : List PhysicalAsset}
        {db : ManifestDb} {frozen : FrozenManifest},
        FrozenBy blake3 source assets db frozen →
        (db.Stores frozen.manifestId
          ∧ Sealed blake3 db frozen.manifestId frozen)
        ∧ ∀ {assets' : List PhysicalAsset} {db' : ManifestDb}
            {frozen' : FrozenManifest},
            FrozenBy blake3 source assets' db' frozen' →
            (∀ asset, asset ∈ assets' ↔ asset ∈ assets) →
            frozen'.manifestDigest = frozen.manifestDigest)
    ∧ (∀ {db db' : ManifestDb} {id : Bytes} {frozen : FrozenManifest},
        db.Stores id → db'.Stores id → Sealed blake3 db id frozen →
        SameSeal db db' id → NoCollision blake3 db db' id →
        ∀ {μ : Type} (c : Conn ManifestDb Bytes μ), c.txn = none →
          c.committed = db' →
          (∀ found, (reopen blake3 id c).1 = .ok found →
            found = frozen ∧ SameContents db id db' id)
          ∧ (c.faults = [] → SameContents db id db' id →
            (reopen blake3 id c).1 = .ok frozen)) := by
  refine ⟨?_, fun hdb hdb' hbytes hbytes' =>
    manifestBytes_eq_iff hdb hdb' hbytes hbytes', ?_, ?_⟩
  · intro μ c id hunchanged hfaults
    have hreads := @reads_computeManifestDigest blake3 μ true id
    rw [(hreads.quiet hunchanged hfaults).2]
    exact manifestDigestWith_eq blake3 c.committed id
  · intro source assets db frozen h
    exact ⟨h.sealed, fun h' hassets => h.digest_eq h' hassets⟩
  · intro db db' id frozen hdb hdb' hsealed hseal hcollision μ c hc hcommitted
    have hiff : ∀ found, Sealed blake3 db' id found
        ↔ found = frozen ∧ SameContents db id db' id := fun _ =>
      sealed_iff hdb hdb' hseal hcollision hsealed
    obtain ⟨hsound, hquiet⟩ := @reopen_sealed id blake3 μ c hc
    rw [hcommitted] at hsound hquiet
    refine ⟨fun found hfound => (hiff found).1 (hsound found hfound), ?_⟩
    intro hfaults hsame
    exact hquiet hfaults frozen ((hiff frozen).2 ⟨rfl, hsame⟩)

/-- A photo of four bytes. -/
def photoNamed (path : RelativePath) : PhysicalAsset where
  relativePath := path
  identity := ⟨1, 2, 4, -3, 5, none⟩
  kind := .media
  extension := text ".jpg"

/-- Two photos, each order of them, one by one and in one batch. -/
theorem manifests_identified_twoOrders :
    let first := photoNamed ⟨text "a.jpg", [text "a.jpg"], by decide +kernel⟩
    let second := photoNamed ⟨text "b.jpg", [text "b.jpg"], by decide +kernel⟩
    ∃ db db' frozen frozen',
      FrozenBy lastBytes ⟨text "s", text "t", text "/r"⟩ [first, second]
          db frozen
        ∧ FrozenBy lastBytes ⟨text "s", text "t", text "/r"⟩
          [second, first] db' frozen'
        ∧ frozen'.manifestDigest = frozen.manifestDigest := by
  intro first second
  have hfrozen : ∀ batchSize assets, (buildManifest lastBytes batchSize
        0 0 ⟨text "s", text "t", text "/r"⟩ assets
        ⟨⟨[], []⟩, none, false, [], .new 1⟩).1.isOk = true →
      ∃ db frozen, FrozenBy lastBytes
        ⟨text "s", text "t", text "/r"⟩ assets db frozen := by
    intro batchSize assets hok
    rcases hrun : buildManifest lastBytes batchSize 0 0
      ⟨text "s", text "t", text "/r"⟩ assets
      ⟨⟨[], []⟩, none, false, [], .new 1⟩ with ⟨result, c'⟩
    rw [hrun] at hok
    cases result with
    | error e => cases hok
    | ok frozen =>
        exact ⟨c'.committed, frozen, _, c', batchSize, 0, 0, rfl,
          (by intro row hrow; cases hrow), rfl, hrun⟩
  obtain ⟨db, frozen, h⟩ := hfrozen 1 [first, second] (by decide +kernel)
  obtain ⟨db', frozen', h'⟩ := hfrozen 3 [second, first] (by decide +kernel)
  exact ⟨db, db', frozen, frozen', h, h',
    ((manifests_identified _).2.2.1 h).2 h' fun asset => by
      simp only [List.mem_cons, List.not_mem_nil, or_false]
      exact or_comm⟩

end PhotoBridge
