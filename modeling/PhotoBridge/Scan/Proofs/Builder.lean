/-
The builder loses nothing at a flush. In a run without faults, what has
been added is what is in the table followed by what is pending
(`Building`): an add extends the second part, a flush moves it over as a
whole, and a freeze finds it empty.
-/
import PhotoBridge.Lib.Joining
import PhotoBridge.Manifest.Proofs.Tables
import PhotoBridge.Plan.Proofs.Artifact
import PhotoBridge.Scan.Builder
import PhotoBridge.Scan.Proofs.Walker

namespace PhotoBridge

open Joining Sorting Transaction

-- ========================================================== statements

section Statements

variable {μ α : Type}

theorem realises_writeRows (operation : String)
    (f : ManifestDb → Except Status (α × ManifestDb)) :
    Session.Realises (writeRows operation f : ManifestSession μ α)
      (Txn.edit f) :=
  .write _ _ f

/-- A bracketed block in a quiet run. -/
theorem immediately_ok {x : ManifestSession μ α}
    {f : Txn ManifestDb Status α} (hx : Session.Realises x f)
    {c : Conn ManifestDb Bytes μ} (hc : c.Quiet) {a : α} {db' : ManifestDb}
    (hf : f c.committed = .ok (a, db')) :
    immediately x c = (.ok a, { c with committed := db' }) :=
  Session.atomically_ok hx hc hf

end Statements

-- =============================================================== columns

private theorem checkBlob_ok {value : Bytes} (h : value.length ≤ intMax)
    (fieldName : String) : checkBlob value fieldName = .ok () := by
  unfold checkBlob
  rw [if_neg (by omega)]

private theorem checkUint64_ok {value : UInt64} (h : value.toNat ≤ int64Max)
    (fieldName : String) : checkUint64 value fieldName = .ok () := by
  unfold checkUint64
  rw [if_neg (by omega)]

/-- A value that fits is kept as it is. -/
theorem holds_toInt64 {value : UInt64} (h : value.toNat ≤ int64Max) :
    Cell.Holds (.integer value.toInt64) value := by
  refine ⟨value.toInt64, rfl, ?_⟩
  show value.toBitVec.toInt = value.toBitVec.toNat
  apply BitVec.toInt_eq_toNat_of_lt
  rw [UInt64.toNat_toBitVec]
  unfold int64Max at h
  omega

/-- A number has at most as many digits as its bound. -/
theorem length_decimal_le {k : Nat} (hk : 0 < k) {n : Nat} (hn : n < 10 ^ k) :
    (decimal n).length ≤ k := by
  induction k generalizing n with
  | zero => omega
  | succ k ih =>
      rw [decimal_eq]
      split
      · simp
      · next hge =>
        have hk' : 0 < k := by
          rcases Nat.eq_zero_or_pos k with hzero | hpos
          · rw [hzero] at hn
            omega
          · exact hpos
        have hdiv : n / 10 < 10 ^ k := by
          rw [Nat.pow_succ] at hn
          omega
        have hrest := ih hk' hdiv
        simp only [List.length_append, List.length_singleton]
        omega

theorem length_newManifestId (now : Int64) (sequence : UInt64) :
    (newManifestId now sequence).length ≤ intMax := by
  have hsequence : (decimal sequence.toNat).length ≤ 20 :=
    length_decimal_le (by omega) (by have := sequence.toNat_lt; omega)
  have hmagnitude : (decimal now.toInt.natAbs).length ≤ 20 := by
    have hlow := now.le_toInt
    have hhigh := now.toInt_lt
    exact length_decimal_le (by omega) (by omega)
  have hnow : (signedDecimal now).length ≤ 21 := by
    rw [signedDecimal_eq]
    split
    · rw [List.length_cons]
      omega
    · omega
  have hhead : (text "manifest-").length = 9 := by decide +kernel
  have hdash : (text "-").length = 1 := by decide +kernel
  unfold newManifestId
  simp only [List.length_append, hhead, hdash]
  unfold intMax
  omega

theorem newManifestId_ne_nil (now : Int64) (sequence : UInt64) :
    newManifestId now sequence ≠ [] := by
  have hhead : text "manifest-" ≠ [] := by decide +kernel
  unfold newManifestId
  simp [hhead]

-- ============================================================== inserting

/-- The columns of the asset's row hold what they are given. -/
structure PhysicalAsset.Fits (asset : PhysicalAsset) : Prop where
  nonempty : asset.relativePath.bytes ≠ []
  assetId : (physicalAssetIdFor asset).length ≤ intMax
  displayPath : asset.relativePath.displayString.length ≤ intMax
  device : asset.identity.device.toNat ≤ int64Max
  inode : asset.identity.inode.toNat ≤ int64Max
  size : asset.identity.size.toNat ≤ int64Max

theorem PhysicalAsset.Fits.bind {asset : PhysicalAsset} (h : asset.Fits)
    {manifestId : Bytes} (hid : manifestId.length ≤ intMax) :
    asset.bind manifestId = .ok () := by
  have hpath : asset.relativePath.bytes.length ≤ intMax := by
    have hle := h.assetId
    unfold physicalAssetIdFor at hle
    rw [List.length_append, length_hexEncode] at hle
    omega
  unfold PhysicalAsset.bind
  rw [checkText_ok hid, checkText_ok h.assetId, checkBlob_ok hpath,
    checkText_ok h.displayPath, checkUint64_ok h.device,
    checkUint64_ok h.inode, checkUint64_ok h.size]
  rfl

def PhysicalAsset.path (asset : PhysicalAsset) : Bytes :=
  asset.relativePath.bytes

/-- Ids tell paths apart. -/
theorem physicalAssetIdFor_inj {a b : PhysicalAsset}
    (h : physicalAssetIdFor a = physicalAssetIdFor b) : a.path = b.path := by
  have hhex : hexEncode a.path = hexEncode b.path :=
    List.append_cancel_left h
  have hbytes := congrArg hexBytes hhex
  rw [hexBytes_hexEncode, hexBytes_hexEncode] at hbytes
  exact Except.ok.inj hbytes

/-- The statements of `insertAssets` as one function of the tables. -/
def insertAssetsTxn (manifestId : Bytes) :
    List PhysicalAsset → Nat → Txn ManifestDb Status Nat
  | [], batchCount => pure batchCount
  | asset :: rest, batchCount =>
      checkedTxn (asset.bind manifestId) >>= fun _ =>
        Txn.edit (·.insertAsset (asset.row manifestId)) >>= fun _ =>
          insertAssetsTxn manifestId rest (batchCount + 1)

theorem realises_insertAssets (manifestId : Bytes)
    (assets : List PhysicalAsset) (batchCount : Nat) :
    Session.Realises (ManifestBuilder.insertAssets manifestId assets batchCount)
      (insertAssetsTxn manifestId assets batchCount) := by
  induction assets generalizing batchCount with
  | nil => exact .pure _
  | cons asset rest ih =>
      apply Session.Realises.bind (realises_checked _)
      intro _
      exact Session.Realises.bind (realises_writeRows _ _) fun _ => ih _

/-- The tables when these assets of the manifest have been inserted. -/
def ManifestDb.withAssets (db : ManifestDb) (manifestId : Bytes)
    (assets : List PhysicalAsset) : ManifestDb :=
  { db with assets := db.assets ++ assets.map (·.row manifestId) }

theorem source?_withAssets (db : ManifestDb) (manifestId other : Bytes)
    (assets : List PhysicalAsset) :
    (db.withAssets manifestId assets).source? other = db.source? other := rfl

theorem withAssets_append (db : ManifestDb) (manifestId : Bytes)
    (assets assets' : List PhysicalAsset) :
    (db.withAssets manifestId assets).withAssets manifestId assets'
      = db.withAssets manifestId (assets ++ assets') := by
  unfold ManifestDb.withAssets
  simp only [List.map_append, List.append_assoc]

theorem assetsOf_withAssets {db : ManifestDb} {manifestId : Bytes}
    (hnone : db.assetsOf manifestId = []) (assets : List PhysicalAsset) :
    (db.withAssets manifestId assets).assetsOf manifestId
      = assets.map (·.row manifestId) := by
  unfold ManifestDb.assetsOf at hnone ⊢
  unfold ManifestDb.withAssets
  rw [List.filter_append, hnone, List.nil_append, List.filter_eq_self]
  intro row hrow
  obtain ⟨asset, -, rfl⟩ := List.mem_map.1 hrow
  exact beq_self_eq_true manifestId

section Inserting

variable {db : ManifestDb} {manifestId : Bytes}
variable (hsource : (db.source? manifestId).isSome = true)
  (hnone : db.assetsOf manifestId = [])

include hsource hnone

/-- A new path is inserted. -/
theorem insertAsset_ok {inserted : List PhysicalAsset} {asset : PhysicalAsset}
    (hnew : asset.path ∉ inserted.map PhysicalAsset.path) :
    (db.withAssets manifestId inserted).insertAsset (asset.row manifestId)
      = .ok ((), db.withAssets manifestId (inserted ++ [asset])) := by
  have hothers : ∀ other ∈ inserted, other.path ≠ asset.path :=
    fun other hother heq => hnew (heq ▸ List.mem_map_of_mem hother)
  have hpath : ((inserted.map (·.row manifestId)).any
      (·.relativePath == (asset.row manifestId).relativePath)) = false := by
    rw [List.any_eq_false]
    intro row hrow heq
    obtain ⟨other, hother, rfl⟩ := List.mem_map.1 hrow
    have hcell : Cell.blob other.path = .blob asset.path := beq_iff_eq.1 heq
    exact hothers other hother (Cell.blob.inj hcell)
  have hassetId : ((inserted.map (·.row manifestId)).any
      (·.assetId == (asset.row manifestId).assetId)) = false := by
    rw [List.any_eq_false]
    intro row hrow heq
    obtain ⟨other, hother, rfl⟩ := List.mem_map.1 hrow
    exact hothers other hother (physicalAssetIdFor_inj (beq_iff_eq.1 heq))
  have hparent : ((db.withAssets manifestId inserted).source?
      manifestId).isNone = false := by
    rw [source?_withAssets, Option.isNone_eq_false_iff]
    exact hsource
  unfold ManifestDb.insertAsset
  rw [show (asset.row manifestId).manifestId = manifestId from rfl,
    assetsOf_withAssets hnone]
  simp only [hpath, hassetId, hparent, Bool.false_eq_true, if_false]
  rw [← withAssets_append]
  rfl

/-- A batch of new paths is inserted. -/
theorem insertAssetsTxn_ok (hid : manifestId.length ≤ intMax)
    {inserted assets : List PhysicalAsset} (hfits : ∀ a ∈ assets, a.Fits)
    (hnodup : ((inserted ++ assets).map PhysicalAsset.path).Nodup)
    (batchCount : Nat) :
    insertAssetsTxn manifestId assets batchCount
        (db.withAssets manifestId inserted)
      = .ok (batchCount + assets.length,
          db.withAssets manifestId (inserted ++ assets)) := by
  induction assets generalizing inserted batchCount with
  | nil =>
      rw [List.append_nil]
      rfl
  | cons asset rest ih =>
      have hsplit : inserted ++ asset :: rest = (inserted ++ [asset]) ++ rest :=
        by simp
      have hnew : asset.path ∉ inserted.map PhysicalAsset.path := by
        rw [List.map_append, List.nodup_append] at hnodup
        intro hmem
        exact hnodup.2.2 _ hmem _ List.mem_cons_self rfl
      have hbind := (hfits asset List.mem_cons_self).bind hid
      rw [insertAssetsTxn, checkedTxn_bind hbind]
      refine Txn.bind_eq_ok.2 ⟨(), _, insertAsset_ok hsource hnone hnew, ?_⟩
      rw [ih (fun a ha => hfits a (List.mem_cons_of_mem _ ha))
        (hsplit ▸ hnodup), ← hsplit, List.length_cons]
      congr 2
      omega

end Inserting

-- ================================================================= a run

/-- The manifest is being built: what has been added is what the tables
hold of it, and after that what is pending. -/
structure Building (db : ManifestDb) (manifestId : Bytes)
    (c : Conn ManifestDb Bytes ManifestBuilder) (added : List PhysicalAsset) :
    Prop where
  quiet : c.Quiet
  state : c.memory.state = .building
  named : c.memory.manifestId = manifestId
  split : ∃ inserted, added = inserted ++ c.memory.pendingAssets
    ∧ c.committed = db.withAssets manifestId inserted
    ∧ c.memory.assetCount = inserted.length

section Building

variable {db : ManifestDb} {manifestId : Bytes}
  {c : Conn ManifestDb Bytes ManifestBuilder} {added : List PhysicalAsset}
variable (hsource : (db.source? manifestId).isSome = true)
  (hnone : db.assetsOf manifestId = []) (hid : manifestId.length ≤ intMax)

include hsource hnone hid

/-- A flush moves over all that is pending. -/
theorem flushPending_ok (hc : Building db manifestId c added)
    (hfits : ∀ a ∈ added, a.Fits)
    (hnodup : (added.map PhysicalAsset.path).Nodup) :
    ∃ c', ManifestBuilder.flushPending c = (.ok (), c')
      ∧ Building db manifestId c' added ∧ c'.memory.pendingAssets = [] := by
  obtain ⟨inserted, hadded, hcommitted, hcount⟩ := hc.split
  unfold ManifestBuilder.flushPending
  rw [Session.bind_apply]
  simp only [Session.remembered]
  split
  · next hempty =>
    exact ⟨c, rfl, hc, List.isEmpty_iff.1 hempty⟩
  · have hpending : ∀ a ∈ c.memory.pendingAssets, a.Fits := fun a ha =>
      hfits a (hadded ▸ List.mem_append_right _ ha)
    have htxn := insertAssetsTxn_ok hsource hnone hid hpending
      (hadded ▸ hnodup) 0
    rw [← hcommitted, ← hc.named] at htxn
    rw [Session.bind_apply,
      immediately_ok (realises_insertAssets _ _ _) hc.quiet htxn]
    refine ⟨_, rfl, ⟨?_, hc.state, hc.named, added, ?_, ?_, ?_⟩, ?_⟩
    · exact ⟨hc.quiet.txn, hc.quiet.busy, hc.quiet.faults⟩
    · simp
    · rw [hc.named, ← hadded]
    · rw [hadded, List.length_append, ← hcount]
      simp
    · simp

/-- An add takes the asset up, whether or not it fills the batch. -/
theorem add_ok (hc : Building db manifestId c added) {asset : PhysicalAsset}
    (hfits : ∀ a ∈ added ++ [asset], a.Fits)
    (hnodup : ((added ++ [asset]).map PhysicalAsset.path).Nodup) :
    ∃ c', ManifestBuilder.add asset c = (.ok (), c')
      ∧ Building db manifestId c' (added ++ [asset]) := by
  obtain ⟨inserted, hadded, hcommitted, hcount⟩ := hc.split
  have hnonempty := (hfits asset (by simp)).nonempty
  have hpushed : Building db manifestId
      { c with memory := { c.memory with
          pendingAssets := c.memory.pendingAssets ++ [asset] } }
      (added ++ [asset]) := by
    refine ⟨⟨hc.quiet.txn, hc.quiet.busy, hc.quiet.faults⟩, hc.state,
      hc.named, inserted, ?_, hcommitted, hcount⟩
    rw [hadded, List.append_assoc]
  unfold ManifestBuilder.add
  rw [Session.bind_apply]
  simp only [Session.remembered]
  rw [if_neg (by rw [hc.state]; simp), if_neg (by simpa using hnonempty),
    Session.bind_apply]
  simp only [Session.remember]
  split
  · exact ⟨_, rfl, hpushed⟩
  · obtain ⟨c', hflush, hc', -⟩ :=
      flushPending_ok hsource hnone hid hpushed hfits hnodup
    exact ⟨c', hflush, hc'⟩

/-- Adding a list of assets. -/
theorem forM_add_ok {assets : List PhysicalAsset}
    (hc : Building db manifestId c added)
    (hfits : ∀ a ∈ added ++ assets, a.Fits)
    (hnodup : ((added ++ assets).map PhysicalAsset.path).Nodup) :
    ∃ c', forM assets ManifestBuilder.add c = (.ok (), c')
      ∧ Building db manifestId c' (added ++ assets) := by
  induction assets generalizing c added with
  | nil =>
      rw [List.append_nil]
      exact ⟨c, rfl, hc⟩
  | cons asset rest ih =>
      have hsplit : added ++ asset :: rest = (added ++ [asset]) ++ rest := by
        simp
      rw [hsplit] at hfits hnodup ⊢
      obtain ⟨c₁, hadd, hc₁⟩ := add_ok hsource hnone hid hc
        (fun a ha => hfits a (List.mem_append_left _ ha))
        (by rw [List.map_append] at hnodup; exact hnodup.of_append_left)
      obtain ⟨c', hrest, hc'⟩ := ih hc₁ hfits hnodup
      refine ⟨c', ?_, hc'⟩
      rw [List.forM_cons, Session.bind_apply, hadd]
      exact hrest

end Building

-- ======================================================= begin and freeze

/-- The tables when the manifest has been begun. -/
def ManifestDb.withSource (db : ManifestDb) (row : ManifestRow) : ManifestDb :=
  { db with sources := db.sources ++ [row] }

theorem source?_withSource {db : ManifestDb} (row : ManifestRow)
    (hfresh : db.source? row.manifestId = none) :
    (db.withSource row).source? row.manifestId = some row := by
  unfold ManifestDb.source? at hfresh ⊢
  unfold ManifestDb.withSource
  rw [List.find?_append, hfresh]
  simp

theorem source?_withSource_ne {db : ManifestDb} {row : ManifestRow}
    {manifestId : Bytes} (hne : manifestId ≠ row.manifestId) :
    (db.withSource row).source? manifestId = db.source? manifestId := by
  unfold ManifestDb.source? ManifestDb.withSource
  rw [List.find?_append]
  simp [Ne.symm hne]

/-- A descriptor `Begin` accepts. -/
structure SourceDescriptor.Valid (source : SourceDescriptor) : Prop where
  sourceId : source.sourceId ≠ [] ∧ source.sourceId.length ≤ intMax
  sourceType : source.sourceType ≠ [] ∧ source.sourceType.length ≤ intMax
  sourceRoot : source.sourceRoot ≠ [] ∧ source.sourceRoot.length ≤ intMax

theorem begin_ok {c : Conn ManifestDb Bytes ManifestBuilder} (hc : c.Quiet)
    (hidle : c.memory.state = .idle) {manifestId : Bytes}
    (hid : manifestId.length ≤ intMax)
    (hfresh : c.committed.source? manifestId = none)
    {source : SourceDescriptor} (hsource : source.Valid) :
    ∃ c', ManifestBuilder.begin manifestId source c = (.ok (), c')
      ∧ Building (c.committed.withSource (source.row manifestId)) manifestId
          c' [] := by
  have hbind : source.bind manifestId = .ok () := by
    unfold SourceDescriptor.bind
    rw [checkText_ok hid, checkText_ok hsource.sourceId.2,
      checkText_ok hsource.sourceType.2, checkBlob_ok hsource.sourceRoot.2]
    rfl
  have hinsert : c.committed.insertSource (source.row manifestId)
      = .ok ((), c.committed.withSource (source.row manifestId)) := by
    unfold ManifestDb.insertSource
    rw [show (source.row manifestId).manifestId = manifestId from rfl, hfresh]
    rfl
  have htxn : (checkedTxn (source.bind manifestId) >>= fun _ =>
      Txn.edit (·.insertSource (source.row manifestId))) c.committed
        = .ok ((), c.committed.withSource (source.row manifestId)) := by
    rw [checkedTxn_bind hbind]
    exact hinsert
  have hblock := Session.Realises.bind
    (realises_checked (μ := ManifestBuilder) (source.bind manifestId)) fun _ =>
      realises_writeRows "insert source manifest"
      (·.insertSource (source.row manifestId))
  unfold ManifestBuilder.begin
  rw [Session.bind_apply]
  simp only [Session.remembered]
  rw [if_neg (by rw [hidle]; simp), if_neg (by
    simp [hsource.sourceId.1, hsource.sourceType.1, hsource.sourceRoot.1]),
    Session.bind_apply, immediately_ok hblock hc htxn]
  refine ⟨_, rfl, ⟨hc.txn, hc.busy, hc.faults⟩, rfl, rfl, [], rfl, ?_, rfl⟩
  simp [ManifestDb.withAssets]

/-- The columns the digest goes over are as it wants them. -/
theorem payload_row {asset : PhysicalAsset} (h : asset.Fits)
    (manifestId : Bytes) :
    ∃ bytes, (asset.row manifestId).payload = .ok bytes := by
  have hcolumn : ∀ {value : UInt64} (fieldName : String),
      value.toNat ≤ int64Max →
      appendNonnegativeIntegerColumn (.integer value.toInt64) fieldName
        = .ok (uint64Bytes value) := by
    intro value fieldName hle
    obtain ⟨number, hnumber, hvalue⟩ := holds_toInt64 hle
    cases hnumber
    unfold appendNonnegativeIntegerColumn
    simp only
    rw [if_neg, UInt64.toUInt64_toInt64]
    rw [Int64.lt_iff_toInt_lt, Int64.toInt_zero]
    omega
  unfold PhysicalAssetRow.payload PhysicalAsset.row
  simp only [hcolumn _ h.device, hcolumn _ h.inode, hcolumn _ h.size]
  exact ⟨_, rfl⟩

/-- The digest of a manifest whose rows the builder wrote. -/
theorem manifestDigestWith_ok (blake3 : Bytes → Digest) {db : ManifestDb}
    {manifestId : Bytes} (source : SourceDescriptor)
    {assets : List PhysicalAsset}
    (hassets : db.assetsOf manifestId = assets.map (·.row manifestId))
    (hfits : ∀ a ∈ assets, a.Fits) :
    ∃ digest, manifestDigestWith blake3 manifestId
      (some (source.row manifestId)) db = .ok digest := by
  have hpayload : ∀ row ∈ sortBy PhysicalAssetRow.byPathAndId
      (db.assetsOf manifestId), ∃ bytes, row.payload = .ok bytes := by
    intro row hrow
    rw [mem_sortBy, hassets] at hrow
    obtain ⟨asset, hasset, rfl⟩ := List.mem_map.1 hrow
    exact payload_row (hfits asset hasset) manifestId
  obtain ⟨body, hbody⟩ := exists_forall₂ hpayload
  obtain ⟨head, hhead⟩ : ∃ head, (source.row manifestId).payload = .ok head :=
    ⟨_, rfl⟩
  refine ⟨blake3 (lengthPrefixed (text "PB_MANIFEST_V1") ++ head
    ++ body.flatten), ?_⟩
  unfold manifestDigestWith
  simp only
  rw [mapM_ok.2 hbody, hhead]
  rfl

/-- The row of a manifest once it is frozen. -/
def ManifestRow.frozen (row : ManifestRow) (digest : Digest) : ManifestRow :=
  { row with state := .integer 1, manifestDigest := .blob digest.bytes }

/-- Freezing changes the row of the manifest and no other. -/
theorem freezeSource_withSource {db : ManifestDb} (row : ManifestRow)
    (hfresh : db.source? row.manifestId = none)
    (hstate : row.state = .integer 0) (digest : Digest)
    (assets : List PhysicalAsset) :
    ((db.withSource row).withAssets row.manifestId assets).freezeSource
        row.manifestId digest
      = (1, (db.withSource (row.frozen digest)).withAssets row.manifestId
          assets) := by
  have hothers : ∀ other ∈ db.sources,
      other.isBuilding row.manifestId = false := by
    intro other hother
    have hne := List.find?_eq_none.1 hfresh other hother
    unfold ManifestRow.isBuilding
    rw [Bool.eq_false_iff.2 hne, Bool.false_and]
  have hself : row.isBuilding row.manifestId = true := by
    simp [ManifestRow.isBuilding, hstate]
  have hcount : db.sources.filter (·.isBuilding row.manifestId) = [] :=
    List.filter_eq_nil_iff.2 fun other hother => by
      rw [hothers other hother]
      exact Bool.false_ne_true
  have hmap : db.sources.map (fun other =>
      if other.isBuilding row.manifestId then other.frozen digest else other)
        = db.sources := by
    rw [List.map_congr_left (g := id) fun other hother => by
      rw [hothers other hother]
      rfl, List.map_id]
  unfold ManifestDb.freezeSource
  refine Prod.ext ?_ ?_
  · show ((db.sources ++ [row]).filter (·.isBuilding row.manifestId)).length = 1
    rw [List.filter_append, hcount, List.filter_singleton, hself]
    rfl
  · show (⟨(db.sources ++ [row]).map fun other =>
        if other.isBuilding row.manifestId then other.frozen digest
        else other, _⟩ : ManifestDb) = ⟨db.sources ++ [row.frozen digest], _⟩
    rw [List.map_append, hmap, List.map_singleton, hself]
    rfl

/-- The transaction of `Freeze` as one function of the tables. -/
def freezeTxn (blake3 : Bytes → Digest) (manifestId : Bytes) :
    Txn ManifestDb Status Digest :=
  (fun db => (manifestDigestWith blake3 manifestId (db.source? manifestId)
      db).map fun digest => (digest, db)) >>= fun digest =>
  checkedTxn (checkText manifestId "manifest_id") >>= fun _ =>
  Txn.edit (fun db => .ok (db.freezeSource manifestId digest))
    >>= fun changed =>
  if changed ≠ 1 then
    throw (.internal "manifest freeze updated an unexpected number of rows")
  else pure digest

theorem realises_freezeBody (blake3 : Bytes → Digest) (manifestId : Bytes) :
    Session.Realises (ManifestBuilder.freezeBody blake3 manifestId)
      (freezeTxn blake3 manifestId) := by
  apply Session.Realises.bind (realises_computeManifestDigest manifestId)
  intro digest
  apply Session.Realises.bind (realises_checked _)
  intro _
  apply Session.Realises.bind (realises_writeRows _ _)
  intro changed
  exact .ite (fun _ => .throw _) fun _ => .pure _

private theorem freezeTxn_ok {blake3 : Bytes → Digest} {manifestId : Bytes}
    (hid : manifestId.length ≤ intMax) {db db' : ManifestDb} {digest : Digest}
    (hdigest : manifestDigestWith blake3 manifestId (db.source? manifestId) db
      = .ok digest)
    (hfrozen : db.freezeSource manifestId digest = (1, db')) :
    freezeTxn blake3 manifestId db = .ok (digest, db') := by
  unfold freezeTxn
  refine Txn.bind_eq_ok.2 ⟨digest, db, by rw [hdigest]; rfl, ?_⟩
  rw [checkedTxn_bind (checkText_ok hid _)]
  refine Txn.bind_eq_ok.2 ⟨1, db', ?_, rfl⟩
  rw [Txn.edit_eq_ok, hfrozen]

/-- Freezing a manifest the builder has built. -/
theorem freeze_ok (blake3 : Bytes → Digest) {db : ManifestDb}
    {manifestId : Bytes} {source : SourceDescriptor}
    {c : Conn ManifestDb Bytes ManifestBuilder} {added : List PhysicalAsset}
    (hfresh : db.source? manifestId = none)
    (hnone : db.assetsOf manifestId = []) (hid : manifestId.length ≤ intMax)
    (hc : Building (db.withSource (source.row manifestId)) manifestId c added)
    (hfits : ∀ a ∈ added, a.Fits)
    (hnodup : (added.map PhysicalAsset.path).Nodup) :
    ∃ digest c', ManifestBuilder.freeze blake3 c
        = (.ok ⟨manifestId, added.length, digest⟩, c')
      ∧ c'.committed = (db.withSource ((source.row manifestId).frozen
          digest)).withAssets manifestId added
      ∧ manifestDigestWith blake3 manifestId
          (some ((source.row manifestId).frozen digest)) c'.committed
        = .ok digest := by
  -- the source's row is there, and no assets are yet
  have hsource : (db.withSource (source.row manifestId)).source? manifestId
      = some (source.row manifestId) :=
    source?_withSource (source.row manifestId) hfresh
  have hnone' : (db.withSource (source.row manifestId)).assetsOf manifestId
      = [] := hnone
  -- what was collected goes into the table first
  obtain ⟨c₁, hflush, hc₁, hempty⟩ := flushPending_ok
    (by rw [hsource]; rfl) hnone' hid hc hfits hnodup
  obtain ⟨inserted, hadded, hcommitted, hcount⟩ := hc₁.split
  rw [hempty, List.append_nil] at hadded
  rw [← hadded] at hcommitted hcount
  have hrows : c₁.committed.assetsOf manifestId
      = added.map (·.row manifestId) := by
    rw [hcommitted]
    exact assetsOf_withAssets hnone' _
  obtain ⟨digest, hdigest⟩ := manifestDigestWith_ok blake3 source hrows hfits
  have hfrozen := freezeSource_withSource (source.row manifestId)
    hfresh rfl digest added
  -- then the transaction that freezes it
  have htxn : freezeTxn blake3 c₁.memory.manifestId c₁.committed
      = .ok (digest, (db.withSource ((source.row manifestId).frozen
          digest)).withAssets manifestId added) := by
    rw [hc₁.named]
    refine freezeTxn_ok hid ?_ ?_
    · rw [← hdigest, hcommitted, source?_withAssets, hsource]
    · rw [hcommitted]
      exact hfrozen
  unfold ManifestBuilder.freeze
  rw [Session.bind_apply]
  simp only [Session.remembered]
  rw [if_neg (by rw [hc.state]; simp), Session.bind_apply, hflush]
  simp only [Session.bind_apply, Session.remembered]
  rw [immediately_ok (realises_freezeBody _ _) hc₁.quiet htxn]
  refine ⟨digest, _, Prod.ext ?_ rfl, rfl, ?_⟩
  · rw [← hcount, ← hc₁.named]
    rfl
  · -- the digest goes over neither of the two columns of the update
    have hafter : ((db.withSource ((source.row manifestId).frozen
        digest)).withAssets manifestId added).assetsOf manifestId
          = c₁.committed.assetsOf manifestId := by
      rw [hrows]
      exact assetsOf_withAssets hnone _
    show manifestDigestWith blake3 manifestId _
      ((db.withSource ((source.row manifestId).frozen digest)).withAssets
        manifestId added) = _
    unfold manifestDigestWith at hdigest ⊢
    rw [hafter]
    exact hdigest

/-- A frozen row of its digest is read back. -/
theorem reopen_ok {blake3 : Bytes → Digest} {db : ManifestDb}
    {manifestId : Bytes} (hne : manifestId ≠ [])
    (hid : manifestId.length ≤ intMax) {row : ManifestRow} {digest : Digest}
    (hrow : db.source? manifestId = some (row.frozen digest))
    (hdigest : manifestDigestWith blake3 manifestId
      (some (row.frozen digest)) db = .ok digest)
    {μ : Type} {c : Conn ManifestDb Bytes μ} (hc : c.Quiet)
    (hcommitted : c.committed = db) :
    (reopen blake3 manifestId c).1
      = .ok ⟨manifestId, (db.assetsOf manifestId).length, digest⟩ := by
  have hunchanged : c.Unchanged false := hc.txn
  have hpersisted : (row.frozen digest).frozenDigest = .ok digest := by
    unfold ManifestRow.frozenDigest ManifestRow.frozen
    simp [digest.size]
  rw [((reads_reopen manifestId).quiet hunchanged hc.faults).2, hcommitted]
  unfold frozenManifestOf
  rw [if_neg (by simpa using hne), checkText_ok hid, hrow]
  show frozenManifestWith blake3 manifestId
    (some (row.frozen digest, (db.assetsOf manifestId).length)) db = _
  unfold frozenManifestWith
  simp only
  rw [hpersisted, ok_bind, hrow, hdigest, ok_bind, if_neg (by simp)]
  rfl

end PhotoBridge
