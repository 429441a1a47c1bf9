/-
What the readers of a manifest make of the tables: the digest and the
frozen manifest, each as a function of the committed store.
-/
import PhotoBridge.Manifest.Tables
import PhotoBridge.Plan.Proofs.Canonical

namespace PhotoBridge

open Sorting Transaction

variable {blake3 : Bytes → Digest}

-- ==================================================== orders of the rows

theorem Cell.before_comparator : Comparator Cell.before :=
  (Comparator.of_lt.comap Cell.rank).thenBy
    ((Comparator.of_lt.comap Cell.number).thenBy
      (bytesLess_comparator.comap Cell.bytes))

theorem PhysicalAssetRow.byPath_comparator :
    Comparator PhysicalAssetRow.byPath :=
  Cell.before_comparator.comap _

theorem PhysicalAssetRow.byPathAndId_comparator :
    Comparator PhysicalAssetRow.byPathAndId :=
  PhysicalAssetRow.byPath_comparator.thenBy (bytesLess_comparator.comap _)

/-- Paths are told apart. -/
theorem Cell.before_blobs {cells : List Cell}
    (h : ∀ cell ∈ cells, ∃ path, cell = .blob path) :
    Separates Cell.before cells := by
  intro a ha b hb hab hba
  obtain ⟨path, rfl⟩ := h a ha
  obtain ⟨path', rfl⟩ := h b hb
  have hblobs : ∀ p q, Cell.before (.blob p) (.blob q) = bytesLess p q := by
    intro p q
    simp [Cell.before, thenBy, Cell.rank, Cell.number, Cell.bytes]
  rw [hblobs] at hab hba
  rw [bytesLess_antisymm hab hba]

-- ====================================================== what is read

section Reading

variable {μ α : Type} {inside : Bool}

theorem reads_checked (result : Except Status α) :
    Session.Reads inside (checked result : ManifestSession μ α)
      fun _ => result := by
  cases result with
  | ok a => exact .pure a
  | error e => exact .throw e

theorem reads_selectRows {operation : String} (f : ManifestDb → α) :
    Session.Reads inside (selectRows operation f : ManifestSession μ α)
      fun db => .ok (f db) :=
  .select _ f

/-- What `ComputeManifestDigest` hashes, given the manifest's row. -/
def manifestDigestWith (blake3 : Bytes → Digest) (manifestId : Bytes)
    (found : Option ManifestRow) (db : ManifestDb) : Except Status Digest :=
  match found with
  | none =>
      .error (.sqlite "read manifest digest source" (text "not an error"))
  | some source => do
      let head ← source.payload
      let body ← (sortBy PhysicalAssetRow.byPathAndId
        (db.assetsOf manifestId)).mapM PhysicalAssetRow.payload
      pure (blake3 (lengthPrefixed (text "PB_MANIFEST_V1") ++ head
        ++ body.flatten))

theorem reads_computeManifestDigest (manifestId : Bytes) :
    Session.Reads inside
      (computeManifestDigest blake3 manifestId : ManifestSession μ Digest)
      fun db => manifestDigestWith blake3 manifestId
        (db.source? manifestId) db := by
  refine (Session.Reads.bind (reads_selectRows _)
    (g := manifestDigestWith blake3 manifestId) fun found => ?_).congr
    fun db => rfl
  cases found with
  | none => exact .throw _
  | some source =>
      refine (Session.Reads.bind (reads_checked _) fun head => ?_)
      refine (Session.Reads.bind (reads_selectRows _)
        (g := fun rows _ => rows.mapM PhysicalAssetRow.payload >>= fun body =>
          pure (blake3 (lengthPrefixed (text "PB_MANIFEST_V1") ++ head
            ++ body.flatten))) fun rows => ?_).congr fun db => rfl
      exact Session.Reads.bind (reads_checked _) fun body => .pure _

/-- What `ReadFrozenManifest` returns. -/
def frozenManifestWith (blake3 : Bytes → Digest) (manifestId : Bytes)
    (found : Option (ManifestRow × Nat)) (db : ManifestDb) :
    Except Status FrozenManifest :=
  match found with
  | none => .error (.notFound "manifest was not found")
  | some (row, count) => do
      let persistedDigest ← row.frozenDigest
      let computedDigest ← manifestDigestWith blake3 manifestId
        (db.source? manifestId) db
      if computedDigest ≠ persistedDigest then
        .error (.internal "frozen manifest digest does not match its assets")
      else pure ⟨manifestId, count, persistedDigest⟩

/-- What `Reopen` returns. -/
def frozenManifestOf (blake3 : Bytes → Digest) (manifestId : Bytes)
    (db : ManifestDb) : Except Status FrozenManifest :=
  if manifestId.isEmpty then
    .error (.invalid "manifest id must not be empty")
  else do
    checkText manifestId "manifest_id"
    frozenManifestWith blake3 manifestId
      ((db.source? manifestId).map fun row =>
        (row, (db.assetsOf manifestId).length)) db

theorem reads_reopen (manifestId : Bytes) :
    Session.Reads false
      (reopen blake3 manifestId : ManifestSession μ FrozenManifest)
      (frozenManifestOf blake3 manifestId) := by
  unfold reopen frozenManifestOf
  split
  · exact .throw _
  · apply Session.Reads.reading
    refine Session.Reads.bind (reads_checked _) fun _ => ?_
    refine (Session.Reads.bind (reads_selectRows _)
      (g := frozenManifestWith blake3 manifestId) fun found => ?_).congr
      fun db => rfl
    rcases found with _ | ⟨row, count⟩
    · exact .throw _
    · refine Session.Reads.bind (reads_checked _) fun persisted => ?_
      refine Session.Reads.bind (reads_computeManifestDigest _)
        fun computed => ?_
      split
      · exact .throw _
      · exact .pure _

-- =============================================================== columns

theorem checkText_ok {value : Bytes} (h : value.length ≤ intMax)
    (fieldName : String) : checkText value fieldName = .ok () := by
  unfold checkText
  rw [if_neg (by omega)]

theorem checkText_le {value : Bytes} {fieldName : String}
    (h : checkText value fieldName = .ok ()) : value.length ≤ intMax := by
  unfold checkText at h
  split at h
  · cases h
  · omega

-- ======================================================= transactions

/-- A check in a transaction function. -/
def checkedTxn (result : Except Status α) : Txn ManifestDb Status α :=
  fun db => result.map fun a => (a, db)

theorem realises_checked (result : Except Status α) :
    Session.Realises (checked result : ManifestSession μ α)
      (checkedTxn result) := by
  cases result with
  | ok a => exact .pure a
  | error e => exact .throw e

/-- A check that passes does nothing. -/
theorem checkedTxn_bind {β : Type} {result : Except Status α} {a : α}
    (h : result = .ok a) (k : α → Txn ManifestDb Status β) (db : ManifestDb) :
    (checkedTxn result >>= k) db = k a db := by
  rw [h]
  rfl

theorem checkedTxn_ok {result : Except Status α} {a : α}
    {db db' : ManifestDb} :
    checkedTxn result db = .ok (a, db') ↔ result = .ok a ∧ db' = db := by
  cases result with
  | error e => simp [checkedTxn, Except.map]
  | ok b => simp [checkedTxn, Except.map, eq_comm]

/-- The digest in a transaction that may have written before. -/
theorem realises_computeManifestDigest (manifestId : Bytes) :
    Session.Realises
      (computeManifestDigest blake3 manifestId : ManifestSession μ Digest)
      fun db => (manifestDigestWith blake3 manifestId
        (db.source? manifestId) db).map fun digest => (digest, db) := by
  have hrest : ∀ found : Option ManifestRow, Session.Realises
      (match found with
        | none => throw (.sqlite "read manifest digest source"
            (text "not an error"))
        | some source => do
            let head ← checked source.payload
            let rows ← selectRows "read manifest digest asset" fun db =>
              sortBy PhysicalAssetRow.byPathAndId (db.assetsOf manifestId)
            let body ← checked (rows.mapM PhysicalAssetRow.payload)
            pure (blake3 (lengthPrefixed (text "PB_MANIFEST_V1") ++ head
              ++ body.flatten)) : ManifestSession μ Digest)
      fun db => (manifestDigestWith blake3 manifestId found db).map
        fun digest => (digest, db) := by
    intro found
    cases found with
    | none => exact .throw _
    | some source =>
        refine (Session.Realises.bind (realises_checked _) fun head =>
          Session.Realises.bind (.select _ _) fun rows =>
          Session.Realises.bind (realises_checked _) fun body =>
          .pure _).congr fun db => ?_
        show _ = (source.payload >>= fun head =>
          (sortBy PhysicalAssetRow.byPathAndId
            (db.assetsOf manifestId)).mapM PhysicalAssetRow.payload
          >>= fun body => _).map _
        cases hhead : source.payload with
        | error e => rfl
        | ok head =>
            rw [checkedTxn_bind rfl, Txn.read_bind]
            cases (sortBy PhysicalAssetRow.byPathAndId
              (db.assetsOf manifestId)).mapM PhysicalAssetRow.payload <;> rfl
  exact (Session.Realises.bind (.select _ _) hrest).congr fun db => rfl

end Reading

end PhotoBridge
