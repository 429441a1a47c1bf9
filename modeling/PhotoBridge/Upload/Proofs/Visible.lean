/-
Whether a scan of `incoming/` sees what the receiver put there.

The two components meet in names only. The receiver keeps unfinished
uploads under `.tmp/` and calls them `.pbtmp`, and the scanner leaves out
both. A client may call its own file `.pbtmp`, and the receiver keeps the
name; that file is received and never scanned.
-/
import PhotoBridge.Scan.Proofs.Scan
import PhotoBridge.Upload.Proofs.Names

namespace PhotoBridge.Upload

open Concurrent SharedConnection Transaction KeyTree

/-- The tree has the regular files below `incoming`. -/
def Disk.ShownBy (disk : Disk) (tree : DirectoryTree) : Prop :=
  ∀ components, disk.files (text "incoming" :: components) ≠ none
    ↔ ∃ node, Within tree.entries components node
      ∧ node.value.kind = .regularFile

/-- The manifest has the file once. -/
def ManifestOnce (rows : List PhysicalAssetRow) (tree : DirectoryTree)
    (components : List Bytes) : Prop :=
  ∃ node row, Within tree.entries components node
    ∧ rows.filter (·.relativePath == .blob (pathOf components)) = [row]
    ∧ RowFor components node row

section System

variable {τ : Type} [DecidableEq τ] {blake3 : Bytes → Digest}
  {quota : UploadQuota} {faulty : Bool} {requests : τ → PutRequest}
  {sys sys₀ : System τ}

/-- In every state of the receiver, a scan of `incoming/` that goes through
takes up a file that is RECEIVED, once, if and only if its name is not a
temporary one; and nothing under `.tmp/`. -/
theorem System.received_scanned
    (hquota : quota.maxReservedBytes.toNat < 2 ^ 63) (hfresh : sys₀.Fresh)
    (hrun : Relation.ReflTransGen
      (System.Step blake3 quota faulty requests) sys₀ sys)
    {tree : DirectoryTree} (hshown : sys.world.disk.ShownBy tree)
    (strerror : Nat → Bytes) (batchSize : Nat) (now : Int64)
    (sequence : UInt64) (inputPath : Bytes)
    (conn : Conn ManifestDb Bytes ManifestBuilder) (hconn : conn.Quiet)
    (hkeys : conn.committed.ForeignKeys)
    (hnew : conn.committed.source? (newManifestId now sequence) = none)
    (hpath : inputPath ≠ []) (hsize : inputPath.length ≤ intMax)
    (hrep : ∀ {components node}, Within tree.entries components node →
      node.value.Representable)
    (hstorable : ∀ {components node}, Scanned tree components node →
      Storable components node) :
    ∃ frozen conn', executeScan blake3 strerror succeeds batchSize now sequence
        inputPath tree.entries conn = (.ok frozen, conn')
      ∧ (∀ row ∈ sys.world.db.files, row.state = .received →
        (ManifestOnce (conn'.committed.assetsOf frozen.manifestId) tree
            [row.sessionId, row.safeFilename]
          ↔ ¬IsTemporary row.safeFilename))
      ∧ ∀ asset ∈ conn'.committed.assetsOf frozen.manifestId,
        ∀ components, components ≠ [] →
          asset.relativePath ≠ .blob (pathOf (text ".tmp" :: components)) := by
  obtain ⟨frozen, conn', hscan, hscans⟩ := executeScan_scans blake3 strerror
    tree batchSize now sequence inputPath conn hconn hkeys hnew hpath hsize hrep
    hstorable
  refine ⟨frozen, conn', hscan, fun row hrow hstate => ?_,
    fun asset hasset components hne heq => ?_⟩
  · have hbegin : sys₀.Sound false blake3 quota faulty := hfresh.sound
    have hsound := (hbegin.run hquota (System.stepsFrom_of_step hrun)).1
    obtain ⟨i, hi, -⟩ := hsound.world.received row hrow hstate
    have hfile : sys.world.disk.files
        (text "incoming" :: [row.sessionId, row.safeFilename]) ≠ none := by
      intro hnone
      have hi : sys.world.disk.files
        (text "incoming" :: [row.sessionId, row.safeFilename]) = some i := hi
      rw [hnone] at hi
      cases hi
    obtain ⟨node, hwithin, hregular⟩ := (hshown _).1 hfile
    have hnamed := System.named hquota hfresh hrun row hrow
    rw [← hnamed.staging, Bool.not_eq_true, ← hscans.row hwithin hregular]
    constructor
    · rintro ⟨node', asset, hwithin', hasset, hof⟩
      rw [Within.unique hwithin' hwithin] at hof
      exact ⟨asset, hasset, hof⟩
    · rintro ⟨asset, hasset, hof⟩
      exact ⟨node, asset, hwithin, hasset, hof⟩
  · obtain ⟨components', node, hfile, hof⟩ := hscans.scanned hasset
    rw [hof.relativePath] at heq
    have hstaging := hfile.notStaging
    rw [Cell.blob.inj heq, staging_tmp hne] at hstaging
    cases hstaging

end System

-- ================================================================ a run

/-- A session of this one file, of one byte. -/
def fileNamed (name : Bytes) : Operation :=
  .createSession .standard someNonces [⟨name, 1, some (blake3Of (text "a"))⟩]

/-- The file registered under this name, and uploaded. -/
def uploadedAs (name : Bytes) : World Bool :=
  ((put blake3Of (twoRequests false)).after (World.answers false) 20
    ((freshWorld.openedAlone blake3Of).2.answersAlone
      (.inl (.change (fileNamed name)))).2).2

def incomingStat (mode : UInt32) : Stat := ⟨mode, 1, 2, 1, ⟨3, 4⟩, ⟨5, 6⟩⟩

/-- `incoming` with the session's two directories, and one file. -/
def incomingEntries (name : Bytes) : Entries := [
  (someNonces.sessionId, .node (incomingStat 0o040755) [
    (name, .node (incomingStat 0o100600) [])]),
  (text ".tmp", .node (incomingStat 0o040755) [
    (someNonces.sessionId, .node (incomingStat 0o040755) [])])]

/-- The four nodes of that tree. -/
theorem within_incoming {name : Bytes} {components : List Bytes} {node : Node} :
    Within (incomingEntries name) components node
      ↔ components = [someNonces.sessionId]
          ∧ node = .node (incomingStat 0o040755) [
            (name, .node (incomingStat 0o100600) [])]
        ∨ components = [someNonces.sessionId, name]
          ∧ node = .node (incomingStat 0o100600) []
        ∨ components = [text ".tmp"]
          ∧ node = .node (incomingStat 0o040755) [
            (someNonces.sessionId, .node (incomingStat 0o040755) [])]
        ∨ components = [text ".tmp", someNonces.sessionId]
          ∧ node = .node (incomingStat 0o040755) [] := by
  have hdirectory : (incomingStat 0o040755).isDirectory = true := by decide
  have hfile : (incomingStat 0o100600).isDirectory = false := by decide
  simp only [incomingEntries, below_cons, below_nil, value, entries, hdirectory,
    hfile]
  grind

theorem sessionId_isFileName : IsFileName someNonces.sessionId := by
  constructor <;> decide +kernel

private theorem incomingStat_representable (mode : UInt32) :
    (incomingStat mode).Representable := by
  have hmtim : (⟨3, 4⟩ : Timespec).Representable := by
    constructor <;> decide
  have hctim : (⟨5, 6⟩ : Timespec).Representable := by
    constructor <;> decide
  exact ⟨hmtim, hctim, by show (0 : Int) ≤ (1 : Int64).toInt; decide⟩

/-- The one name `incoming` has left. -/
theorem uploadedAs_files {name : Bytes}
    (hname : name = text "a.jpg" ∨ name = text "a.pbtmp") :
    (uploadedAs name).disk.files = Function.update (fun _ => none)
      (finalPath someNonces.sessionId name) (some 0) := by
  have hupdates : (uploadedAs name).disk.files
      = Function.update (Function.update (Function.update (Function.update
          (fun _ => none)
            (tempPath someNonces.sessionId (someNonces.fileId 0)) none)
            (tempPath someNonces.sessionId (someNonces.fileId 0)) (some 0))
            (tempPath someNonces.sessionId (someNonces.fileId 0)) none)
          (finalPath someNonces.sessionId name) (some 0) := by
    rcases hname with rfl | rfl <;> rfl
  rw [hupdates, Function.update_idem, Function.update_idem,
    Function.update_eq_self_iff.2 rfl]

def incomingTree (name : Bytes) (hname : IsFileName name) : DirectoryTree where
  entries := incomingEntries name
  directories := {
    here := by
      refine ⟨by show [someNonces.sessionId, text ".tmp"].Nodup; decide +kernel, ?_⟩
      intro entry hentry
      rcases List.mem_cons.1 hentry with rfl | hentry
      · exact sessionId_isFileName
      · rw [List.mem_singleton.1 hentry]
        constructor <;> decide +kernel
    down := by
      intro components node h henter
      rcases within_incoming.1 h with ⟨-, rfl⟩ | ⟨-, rfl⟩ | ⟨-, rfl⟩ | ⟨-, rfl⟩
      · exact ⟨List.nodup_singleton _, fun entry hentry => by
          rw [List.mem_singleton.1 hentry]
          exact hname⟩
      · exact ⟨.nil, nofun⟩
      · exact ⟨List.nodup_singleton _, fun entry hentry => by
          rw [List.mem_singleton.1 hentry]
          exact sessionId_isFileName⟩
      · exact ⟨.nil, nofun⟩ }

private theorem uploadedAs_shown {name : Bytes}
    (hname : name = text "a.jpg" ∨ name = text "a.pbtmp")
    (hfile : IsFileName name) :
    (uploadedAs name).disk.ShownBy (incomingTree name hfile) := by
  intro components
  rw [uploadedAs_files hname, Function.update_apply]
  constructor
  · intro h
    by_cases hpath : text "incoming" :: components
        = finalPath someNonces.sessionId name
    · obtain ⟨-, rfl⟩ := List.cons.inj hpath
      exact ⟨_, within_incoming.2 (.inr (.inl ⟨rfl, rfl⟩)), by decide⟩
    · rw [if_neg hpath] at h
      exact absurd rfl h
  · have hdirectory : (incomingStat 0o040755).kind ≠ .regularFile := by decide
    rintro ⟨node, hwithin, hregular⟩
    rcases within_incoming.1 hwithin with
      ⟨-, rfl⟩ | ⟨rfl, -⟩ | ⟨-, rfl⟩ | ⟨-, rfl⟩
    · exact absurd hregular hdirectory
    · rw [if_pos (show text "incoming" :: [someNonces.sessionId, name]
        = finalPath someNonces.sessionId name from rfl)]
      exact Option.some_ne_none 0
    · exact absurd hregular hdirectory
    · exact absurd hregular hdirectory

theorem incomingTree_representable {name : Bytes} {hfile : IsFileName name}
    {components : List Bytes} {node : Node}
    (h : Within (incomingTree name hfile).entries components node) :
    node.value.Representable := by
  rcases within_incoming.1 h with ⟨-, rfl⟩ | ⟨-, rfl⟩ | ⟨-, rfl⟩ | ⟨-, rfl⟩ <;>
    exact incomingStat_representable _

private theorem incomingTree_storable {name : Bytes}
    (hname : name = text "a.jpg" ∨ name = text "a.pbtmp")
    {hfile : IsFileName name} {components : List Bytes} {node : Node}
    (h : Scanned (incomingTree name hfile) components node) :
    Storable components node := by
  have hdirectory : (incomingStat 0o040755).kind ≠ .regularFile := by decide
  rcases within_incoming.1 h.within with
    ⟨-, rfl⟩ | ⟨rfl, rfl⟩ | ⟨-, rfl⟩ | ⟨-, rfl⟩
  · exact absurd h.regular hdirectory
  · refine ⟨by decide, by decide, ?_, ?_⟩
    · rcases hname with rfl | rfl <;> decide +kernel
    · intro path hpath
      unfold RelativePath.displayString
      rw [hpath]
      rcases hname with rfl | rfl <;> decide +kernel
  · exact absurd h.regular hdirectory
  · exact absurd h.regular hdirectory

/-- A workspace nothing was scanned into. -/
def unscanned : Conn ManifestDb Bytes ManifestBuilder :=
  ⟨⟨[], []⟩, none, false, [], .new 1⟩

private theorem unscanned_quiet : unscanned.Quiet := ⟨rfl, rfl, rfl⟩

private theorem uploadedAs_run (name : Bytes) :
    ∃ pool, Relation.ReflTransGen
      (System.Step blake3Of .standard false twoRequests)
      ⟨.down, freshWorld⟩ ⟨.serving pool, uploadedAs name⟩ := by
  have hregistered : Relation.ReflTransGen
      (System.StepsFrom false blake3Of .standard false twoRequests) _ _ :=
    aside_run (show (fileNamed name).Aside .standard from rfl)
  exact ⟨_, System.step_of_stepsFrom (put_run hregistered 20)⟩

private theorem jpg_isFileName : IsFileName (text "a.jpg") := by
  constructor <;> decide +kernel

private theorem pbtmp_isFileName : IsFileName (text "a.pbtmp") := by
  constructor <;> decide +kernel

/-- A photo is received, and scanned. -/
theorem System.received_scanned_jpg :
    ∃ frozen conn', executeScan blake3Of (fun _ => []) succeeds 1 0 0
        (text "/incoming") (incomingTree _ jpg_isFileName).entries unscanned
        = (.ok frozen, conn')
      ∧ ∃ row ∈ (uploadedAs (text "a.jpg")).db.files, row.state = .received
        ∧ ManifestOnce (conn'.committed.assetsOf frozen.manifestId)
          (incomingTree _ jpg_isFileName) [row.sessionId, row.safeFilename] := by
  obtain ⟨pool, hrun⟩ := uploadedAs_run (text "a.jpg")
  obtain ⟨frozen, conn', hscan, hreceived, -⟩ := System.received_scanned
    (by decide) freshWorld_fresh hrun (uploadedAs_shown (.inl rfl) _)
    (fun _ => []) 1 0 0 (text "/incoming") unscanned unscanned_quiet
    (fun _ hrow => absurd hrow List.not_mem_nil) rfl (by decide +kernel)
    (by decide +kernel) incomingTree_representable
    (incomingTree_storable (.inl rfl))
  have hrow : ∃ row ∈ (uploadedAs (text "a.jpg")).db.files,
      row.state = .received ∧ ¬IsTemporary row.safeFilename := by decide
  obtain ⟨row, hrow, hstate, hname⟩ := hrow
  exact ⟨frozen, conn', hscan, row, hrow, hstate,
    (hreceived row hrow hstate).2 hname⟩

/-- A file the client calls `a.pbtmp` is received, and not scanned. -/
theorem System.received_unscanned :
    ∃ (sys₀ sys : System Bool) (tree : DirectoryTree), sys₀.Fresh
      ∧ Relation.ReflTransGen
        (System.Step blake3Of .standard false twoRequests) sys₀ sys
      ∧ sys.world.disk.ShownBy tree
      ∧ ∃ row ∈ sys.world.db.files, row.state = .received
        ∧ isReceiverStagingPath (pathOf [row.sessionId, row.safeFilename]) = true
        ∧ ∃ frozen conn', executeScan blake3Of (fun _ => []) succeeds 1 0 0
            (text "/incoming") tree.entries unscanned = (.ok frozen, conn')
          ∧ ¬ManifestOnce (conn'.committed.assetsOf frozen.manifestId) tree
            [row.sessionId, row.safeFilename] := by
  obtain ⟨pool, hrun⟩ := uploadedAs_run (text "a.pbtmp")
  have hrow : ∃ row ∈ (uploadedAs (text "a.pbtmp")).db.files,
      row.state = .received
        ∧ isReceiverStagingPath (pathOf [row.sessionId, row.safeFilename])
          = true := by decide
  obtain ⟨row, hrow, hstate, hstaging⟩ := hrow
  obtain ⟨frozen, conn', hscan, hscans⟩ := executeScan_scans blake3Of
    (fun _ => []) (incomingTree _ pbtmp_isFileName) 1 0 0 (text "/incoming")
    unscanned unscanned_quiet (fun _ hrow => absurd hrow List.not_mem_nil) rfl
    (by decide +kernel) (by decide +kernel) incomingTree_representable
    (incomingTree_storable (.inr rfl))
  refine ⟨_, _, _, freshWorld_fresh, hrun,
    uploadedAs_shown (.inr rfl) pbtmp_isFileName, row, hrow, hstate, hstaging,
    frozen, conn', hscan, ?_⟩
  rintro ⟨node, asset, hwithin, hasset, hof⟩
  have hmem : asset ∈ (conn'.committed.assetsOf frozen.manifestId).filter
      (·.relativePath == .blob (pathOf [row.sessionId, row.safeFilename])) := by
    rw [hasset]
    exact List.mem_singleton_self asset
  obtain ⟨components, node', hfile, hof'⟩ :=
    hscans.scanned (List.mem_filter.1 hmem).1
  have hpath := hof'.relativePath.symm.trans hof.relativePath
  have hnotStaging := hfile.notStaging
  rw [Cell.blob.inj hpath, hstaging] at hnotStaging
  cases hnotStaging

end PhotoBridge.Upload
