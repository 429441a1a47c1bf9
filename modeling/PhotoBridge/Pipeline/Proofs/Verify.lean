/-
The verify command, and what its verdict is worth.

Reading changes nothing but the open files (`Machine.Reads`), so the loop
collects what is on the disk of every asset, one after another, or stops
at a target that is missing or at bytes it cannot count. Its verdict is
then that of the diff, and the diff looks at the first asset of each
target path (`execute_spec`). A later asset with the same target path
goes unnoticed.
-/
import PhotoBridge.Pipeline.Proofs.Audit
import PhotoBridge.Pipeline.Proofs.Guard
import PhotoBridge.Pipeline.Proofs.Reading
import PhotoBridge.Pipeline.Verify
import PhotoBridge.Plan.Proofs.Limits
import Mathlib.Algebra.Order.BigOperators.Group.List
import Mathlib.Algebra.Order.Group.Nat

namespace PhotoBridge

open Concurrent JsonText

-- ================================================================= assets

namespace VerifyService

section Assets

variable {strerror : Nat → Bytes} {blake3 : Bytes → Digest} {w : Machine}
  {asset : MinimalPlanAsset} {rounds : Nat}

/-- The source of an asset, as it is and as the plan has it. -/
theorem verifySource_quiet {source : FileVersion}
    {fail : Status → Machine → Prop}
    (hsource : w.disk.version? .source asset.sourcePath.bytes = some source)
    (hidentity : source.identity = asset.sourceIdentity)
    (hrounds : source.content.length < rounds) :
    Yields (pipelineEffects strerror blake3 .none) False
      (fun r w' => r = (source.content.length, blake3 source.content)
        ∧ w.Reads w')
      fail (verifySource blake3 asset rounds) w := by
  have hsize := source.size
  rw [hidentity] at hsize
  unfold verifySource MutationGuard.open_
  refine .bind (.bind (openSource_version hsource fun fd f w₁ hreads hf hopen =>
    .bind (statFd_quiet hopen ?_)))
  rw [hf]
  refine .ite (fun hne => absurd hidentity hne) fun _ => .pure ?_
  refine .bind (.bind (statFd_quiet hopen ?_))
  rw [hf]
  refine .ite (fun hne => absurd hidentity hne) fun _ => .pure ?_
  refine (verifyBinary_quiet (by decide) hopen rfl
    (by rw [hf]; exact hrounds)).andThen ?_
  rintro _ w₂ ⟨rfl, rfl⟩
  refine .bind (.bind (statFd_quiet (Disk.openFile?_seek hopen _) ?_))
  rw [hf]
  refine .ite (fun hne => absurd rfl hne) fun _ => .pure ?_
  refine .ite (fun hchanged => ?_) fun _ => .pure ⟨?_, ?_⟩
  · simp only [verificationOf, hidentity, hsize, ne_eq, not_true_eq_false,
      or_self] at hchanged
  · rfl
  · exact hreads.trans (.seek ..)

/-- What is collected of an asset. -/
def summaryOf (blake3 : Bytes → Digest) (asset : MinimalPlanAsset)
    (source target : FileVersion) : VerificationSummary where
  bytes := target.content.length
  expected := ⟨asset.targetPath.bytes, source.content.length,
    some (blake3 source.content)⟩
  observed := ⟨asset.targetPath.bytes, target.content.length,
    some (blake3 target.content)⟩

/-- What verifying an asset comes to, where nothing fails. -/
private theorem verifyPlanAsset_quiet {source : FileVersion} (hw : w.disk.Sound)
    (hsingle : asset.targetPath.components.length = 1)
    (hsource : w.disk.version? .source asset.sourcePath.bytes = some source)
    (hidentity : source.identity = asset.sourceIdentity)
    (hrounds : ∀ f ∈ w.disk.files, f.current.content.length < rounds) :
    Yields (pipelineEffects strerror blake3 .none) False
      (fun summary w' => w.Reads w' ∧ ∃ target,
        w.disk.version? .target asset.targetPath.bytes = some target
          ∧ summary = summaryOf blake3 asset source target)
      (fun _ w' => w.Reads w'
        ∧ w.disk.version? .target asset.targetPath.bytes = none)
      (verifyPlanAsset blake3 asset rounds) w := by
  have hlength : ∀ {root path} {v : FileVersion},
      w.disk.version? root path = some v → v.content.length < rounds := by
    intro root path v hv
    obtain ⟨index, f, -, hf, rfl⟩ := Disk.version?_eq_some.1 hv
    exact hrounds f (List.mem_of_getElem? hf)
  unfold verifyPlanAsset
  refine .ite (fun hne => absurd hsingle hne) fun _ => ?_
  refine (verifySource_quiet hsource hidentity (hlength hsource)).andThen ?_
  rintro _ w₁ ⟨rfl, hreads⟩
  have hsame := hreads.version? .target asset.targetPath.bytes
  cases htarget : w.disk.version? .target asset.targetPath.bytes with
  | none =>
      rw [htarget] at hsame
      refine .bind (openSource_quiet (fun index hlook => ?_) fun _ => ⟨hreads, rfl⟩)
      rw [((hreads.sound hw).version?_eq_none).1 hsame] at hlook
      cases hlook
  | some target =>
      rw [htarget] at hsame
      refine .bind (openSource_version hsame fun fd f w₂ hreads₂ hf hopen => ?_)
      refine (verifyBinary_quiet (by decide) hopen rfl
        (by rw [hf]; exact hlength htarget)).andThen ?_
      rintro _ w₃ ⟨rfl, rfl⟩
      refine .pure ⟨hreads.trans (hreads₂.trans (.seek ..)), target, rfl, ?_⟩
      simp only [verificationOf, summaryOf, hf]

-- ============================================================== the loop

/-- The task of an asset is done. -/
def Succeeded (blake3 : Bytes → Digest) (db : Db) (planId : Bytes)
    (asset : MinimalPlanAsset) : Prop :=
  ∃ task runtime, taskSpecForPlanAsset blake3 asset = .ok task
    ∧ (Repository.readRuntime planId task.id : DbTxn TaskRuntime) db
      = .ok (runtime, db)
    ∧ runtime.state = .succeeded

/-- The bytes of a path, none where it leads nowhere. -/
def contentAt (d : Disk) (root : Root) (path : Bytes) : Bytes :=
  match d.version? root path with
  | none => []
  | some v => v.content

/-- What is expected of an asset's target. -/
def expectedState (blake3 : Bytes → Digest) (d : Disk)
    (asset : MinimalPlanAsset) : DiffFileState :=
  let content := contentAt d .source asset.sourcePath.bytes
  ⟨asset.targetPath.bytes, content.length, some (blake3 content)⟩

/-- What is seen of it. -/
def observedState (blake3 : Bytes → Digest) (d : Disk)
    (asset : MinimalPlanAsset) : DiffFileState :=
  let content := contentAt d .target asset.targetPath.bytes
  ⟨asset.targetPath.bytes, content.length, some (blake3 content)⟩

/-- The bytes of an asset's target. -/
def targetLength (d : Disk) (asset : MinimalPlanAsset) : Nat :=
  (contentAt d .target asset.targetPath.bytes).length

/-- The asset has a target. -/
def Present (d : Disk) (asset : MinimalPlanAsset) : Prop :=
  d.version? .target asset.targetPath.bytes ≠ none

/-- An asset whose source is as the plan has it. -/
def Unchanged (d : Disk) (asset : MinimalPlanAsset) : Prop :=
  ∃ source, d.version? .source asset.sourcePath.bytes = some source
    ∧ source.identity = asset.sourceIdentity

/-- What the loop needs of the machine and of an asset. -/
structure Verifiable (blake3 : Bytes → Digest) (w : Machine) (planId : Bytes)
    (rounds : Nat) (asset : MinimalPlanAsset) : Prop where
  sound : w.disk.Sound
  rounds : ∀ f ∈ w.disk.files, f.current.content.length < rounds
  single : asset.targetPath.components.length = 1
  succeeded : Succeeded blake3 w.db planId asset
  unchanged : Unchanged w.disk asset

/-- Reading keeps an asset verifiable. -/
theorem Verifiable.reads {w' : Machine} {planId : Bytes}
    (h : Verifiable blake3 w planId rounds asset) (hreads : w.Reads w') :
    Verifiable blake3 w' planId rounds asset := by
  have hsound := hreads.sound h.sound
  obtain ⟨source, hsource, hidentity⟩ := h.unchanged
  rw [← hreads.version?] at hsource
  obtain ⟨opened, rfl⟩ := hreads
  exact ⟨hsound, h.rounds, h.single, h.succeeded, source, hsource, hidentity⟩

/-- Reading leaves the contents. -/
private theorem reads_contentAt {w' : Machine} (h : w.Reads w') (root : Root)
    (path : Bytes) :
    contentAt w'.disk root path = contentAt w.disk root path := by
  unfold contentAt
  rw [h.version?]

/-- One asset: counted and put on the lists, or the end of the loop. -/
theorem verifyTask_quiet {planId : Bytes} {done : Verified}
    (h : Verifiable blake3 w planId rounds asset) :
    Yields (pipelineEffects strerror blake3 .none) False
      (fun done' w' => w.Reads w' ∧ Present w.disk asset
        ∧ done'.bytes = done.bytes + targetLength w.disk asset
        ∧ done'.bytes ≤ uint64Max
        ∧ done'.expected
          = done.expected ++ [expectedState blake3 w.disk asset]
        ∧ done'.observed
          = done.observed ++ [observedState blake3 w.disk asset])
      (fun _ _ => ¬(Present w.disk asset
        ∧ done.bytes + targetLength w.disk asset ≤ uint64Max))
      (verifyTask blake3 planId rounds done asset) w := by
  obtain ⟨task, runtime, htask, hread, hstate⟩ := h.succeeded
  obtain ⟨source, hsource, hidentity⟩ := h.unchanged
  unfold verifyTask
  refine .bind (.ofExcept (fun task' htask' => ?_) fun e he => ?_)
  · rw [htask] at htask'
    cases htask'
    refine .bind (repository_quiet (fun runtime' db' hread' => ?_) fun e he => ?_)
    · rw [show (RepositoryCall.run (.readRuntime planId task.id) :
        DbTxn TaskRuntime) = Repository.readRuntime planId task.id from rfl,
        hread] at hread'
      cases hread'
      refine .ite (fun hne => absurd hstate hne) fun _ => ?_
      refine .bind ((verifyPlanAsset_quiet h.sound h.single hsource hidentity
        h.rounds).mono ?_ ?_)
      · rintro _ w' ⟨hreads, target, htarget, rfl⟩
        have hlength : targetLength w.disk asset = target.content.length := by
          rw [targetLength, contentAt, htarget]
        have hpresent : Present w.disk asset := by
          rw [Present, htarget]
          exact Option.some_ne_none target
        have hmax := target.length_le
        refine .ite (fun hover => .throw ?_) fun hfits => .pure ?_
        · rintro ⟨-, hle⟩
          rw [hlength] at hle
          simp only [summaryOf] at hover
          omega
        · refine ⟨hreads, hpresent, ?_, ?_, ?_, ?_⟩
          · rw [hlength]
            rfl
          · simp only [summaryOf] at hfits ⊢
            omega
          · simp only [summaryOf, expectedState, contentAt, hsource]
          · simp only [summaryOf, observedState, contentAt, htarget]
      · rintro _ w' ⟨-, hnone⟩ ⟨hpresent, -⟩
        exact hpresent hnone
    · rw [show (RepositoryCall.run (.readRuntime planId task.id) :
        DbTxn TaskRuntime) = Repository.readRuntime planId task.id from rfl,
        hread] at he
      cases he
  · rw [htask] at he
    cases he

/-- All assets: collected in order, or one of them ended the loop. -/
theorem verifyTasks_quiet {planId : Bytes} (assets : List MinimalPlanAsset) :
    ∀ (w : Machine) (done : Verified),
      (∀ asset ∈ assets, Verifiable blake3 w planId rounds asset) →
      done.bytes ≤ uint64Max →
      Yields (pipelineEffects strerror blake3 .none) False
        (fun done' w' => w.Reads w' ∧ (∀ asset ∈ assets, Present w.disk asset)
          ∧ done.bytes + (assets.map (targetLength w.disk)).sum ≤ uint64Max
          ∧ done'.expected = done.expected
            ++ assets.map (expectedState blake3 w.disk)
          ∧ done'.observed = done.observed
            ++ assets.map (observedState blake3 w.disk))
        (fun _ _ => ¬((∀ asset ∈ assets, Present w.disk asset)
          ∧ done.bytes + (assets.map (targetLength w.disk)).sum ≤ uint64Max))
        (verifyTasks blake3 planId rounds done assets) w := by
  induction assets with
  -- nothing is left to verify
  | nil =>
      intro w done _ hdone
      refine .pure ⟨.refl w, nofun, ?_, ?_, ?_⟩
      · rw [List.map_nil, List.sum_nil, Nat.add_zero]
        exact hdone
      · rw [List.map_nil, List.append_nil]
      · rw [List.map_nil, List.append_nil]
  | cons asset rest ih =>
      intro w done h hdone
      have hfirst := h asset List.mem_cons_self
      unfold verifyTasks
      rw [List.foldlM_cons]
      refine .bind ((verifyTask_quiet hfirst).mono ?_ ?_)
      · rintro done₁ w₁ ⟨hreads, hpresent, hbytes, hmax, hexpected, hobserved⟩
        -- verifying an asset only reads, so the others are as they were
        have hsame : ∀ root path, contentAt w₁.disk root path
            = contentAt w.disk root path := fun root path =>
          reads_contentAt hreads root path
        have hlength : targetLength w₁.disk = targetLength w.disk := by
          funext asset
          simp only [targetLength, hsame]
        have hpresent' : Present w₁.disk = Present w.disk := by
          funext asset
          simp only [Present, hreads.version?]
        have hexpected' :
            expectedState blake3 w₁.disk = expectedState blake3 w.disk := by
          funext asset
          simp only [expectedState, hsame]
        have hobserved' :
            observedState blake3 w₁.disk = observedState blake3 w.disk := by
          funext asset
          simp only [observedState, hsame]
        refine (ih w₁ done₁ (fun asset hasset =>
          (h asset (List.mem_cons_of_mem _ hasset)).reads hreads) hmax).mono
          ?_ ?_
        · rintro done' w' ⟨hreads', hall, hsum, he, ho⟩
          rw [hlength, hbytes] at hsum
          rw [hpresent'] at hall
          refine ⟨hreads.trans hreads', ?_, ?_, ?_, ?_⟩
          · exact List.forall_mem_cons.2 ⟨hpresent, hall⟩
          · rw [List.map_cons, List.sum_cons]
            omega
          · rw [he, hexpected, hexpected', List.append_assoc,
              List.singleton_append, List.map_cons]
          · rw [ho, hobserved, hobserved', List.append_assoc,
              List.singleton_append, List.map_cons]
        -- it fails only for a reason
        · rintro e w' hnot ⟨hall, hsum⟩
          rw [List.map_cons, List.sum_cons] at hsum
          rw [hlength, hpresent', hbytes] at hnot
          exact hnot ⟨(List.forall_mem_cons.1 hall).2, by omega⟩
      · rintro e w' hnot ⟨hall, hsum⟩
        rw [List.map_cons, List.sum_cons] at hsum
        exact hnot ⟨(List.forall_mem_cons.1 hall).1, by omega⟩

-- =============================================================== the end

/-- A report without entries can be written. -/
theorem renderAuditReport_identical {codec : Codec} (hcodec : codec.Lawful)
    {planId : Bytes} (hid : IsUtf8 planId) :
    ∃ report, renderAuditReport codec (verifyReport planId [])
      = .ok report := by
  have htextual : (auditReportJson (verifyReport planId [])).Textual := by
    have hkeys : ([text "plan_id", text "task_id", text "action",
        text "verification", text "diff", text "error"] : List Bytes).Nodup := by
      decide +kernel
    refine .ofMembers hkeys ?_ ?_
    · intro m hm
      simp only [List.mem_cons, List.not_mem_nil, or_false] at hm
      rcases hm with rfl | rfl | rfl | rfl | rfl | rfl <;> exact isUtf8_text _
    · intro m hm
      simp only [List.mem_cons, List.not_mem_nil, or_false] at hm
      rcases hm with rfl | rfl | rfl | rfl | rfl | rfl
      · exact .string hid
      · exact .string (isUtf8_text "")
      · exact .string (isUtf8_text _)
      · exact .string (isUtf8_text _)
      · exact .array nofun
      · exact .string (isUtf8_text "")
  obtain ⟨line, hline, -⟩ := hcodec.round _ htextual
  exact ⟨line ++ [10], by rw [renderAuditReport, hline]⟩

/-- The command ends well when the diff is empty, and only then. -/
theorem conclude_quiet {codec : Codec} (hcodec : codec.Lawful)
    {artifact : FrozenPlanFile} (hid : IsUtf8 artifact.planId)
    (done : Verified) :
    Yields (pipelineEffects strerror blake3 .none) False
      (fun _ _ => diffFileStates done.expected done.observed = [])
      (fun _ _ => diffFileStates done.expected done.observed ≠ [])
      (conclude codec artifact done) w := by
  unfold conclude
  by_cases hdiff : diffFileStates done.expected done.observed = []
  · obtain ⟨report, hreport⟩ := renderAuditReport_identical hcodec hid
    rw [hdiff]
    refine .bind (.ofExcept (fun report' hreport' => ?_) fun e he => ?_)
    · refine .bind (print_quiet ?_)
      refine .ite (fun hne => absurd rfl hne) fun _ => ?_
      exact print_quiet rfl
    · rw [hreport] at he
      cases he
  · refine .bind (.ofExcept (fun report _ => ?_) fun e _ => hdiff)
    refine .bind (print_quiet ?_)
    exact .ite (fun _ => .throw hdiff) fun hempty =>
      absurd (not_not.1 hempty) hdiff

end Assets

-- ============================================================= the verdict

/-- The diff of what was collected is empty exactly when the first assets
of each target path have no difference. -/
theorem diff_collected (blake3 : Bytes → Digest) (d : Disk)
    (assets : List MinimalPlanAsset) :
    diffFileStates (assets.map (expectedState blake3 d))
        (assets.map (observedState blake3 d)) = []
      ↔ ∀ asset, assets.find?
          (·.targetPath.bytes == asset.targetPath.bytes) = some asset →
        (expectedState blake3 d asset).size = (observedState blake3 d asset).size
          ∧ (expectedState blake3 d asset).digest
            = (observedState blake3 d asset).digest := by
  have hfind : ∀ (state : MinimalPlanAsset → DiffFileState) path,
      (∀ asset, (state asset).path = asset.targetPath.bytes) →
      (assets.map state).find? (·.path == path)
        = (assets.find? (·.targetPath.bytes == path)).map state := by
    intro state path hpath
    rw [List.find?_map]
    congr 2
    funext asset
    simp only [Function.comp, hpath]
  have hexpected := fun path =>
    hfind (expectedState blake3 d) path fun _ => rfl
  have hobserved := fun path =>
    hfind (observedState blake3 d) path fun _ => rfl
  rw [diffFileStates_eq_nil]
  simp only [hexpected, hobserved]
  constructor
  · rintro ⟨h, -⟩ asset hasset
    obtain ⟨t, ht, hsize, hdigest⟩ := h (expectedState blake3 d asset)
      (by
        rw [show (expectedState blake3 d asset).path
          = asset.targetPath.bytes from rfl, hasset]
        rfl)
    rw [show (expectedState blake3 d asset).path = asset.targetPath.bytes
      from rfl, hasset] at ht
    cases ht
    exact ⟨hsize, hdigest⟩
  · intro h
    constructor
    · intro s hs
      obtain ⟨asset, hasset, rfl⟩ := Option.map_eq_some_iff.1 hs
      rw [show (expectedState blake3 d asset).path = asset.targetPath.bytes
        from rfl] at hasset ⊢
      obtain ⟨hsize, hdigest⟩ := h asset hasset
      exact ⟨_, by rw [hasset]; rfl, hsize, hdigest⟩
    · intro t ht
      obtain ⟨asset, hasset, rfl⟩ := Option.map_eq_some_iff.1 ht
      rw [hasset]
      rfl

namespace Setting

variable (σ : Setting)

/-- More rounds than any file has bytes. -/
def bound : Nat :=
  (σ.machine.disk.files.map (·.current.content.length)).sum + 1

/-- A file is shorter than the bound. -/
theorem lt_bound {f : DiskFile} (h : f ∈ σ.machine.disk.files) :
    f.current.content.length < σ.bound := by
  have hle : f.current.content.length
      ≤ (σ.machine.disk.files.map (·.current.content.length)).sum :=
    List.le_sum_of_mem (List.mem_map_of_mem h)
  unfold bound
  omega

/-- The assets that are the first with their target path match. -/
def FirstsMatch : Prop :=
  ∀ asset ∈ σ.artifact.plan.assets, σ.First asset → σ.Matches asset

/-- An asset matches when its target is there, with the size and the
digest of the source. -/
theorem matches_iff {asset : MinimalPlanAsset}
    (hasset : asset ∈ σ.artifact.plan.assets) :
    σ.Matches asset ↔ Present σ.machine.disk asset
      ∧ (expectedState σ.blake3 σ.machine.disk asset).size
        = (observedState σ.blake3 σ.machine.disk asset).size
      ∧ (expectedState σ.blake3 σ.machine.disk asset).digest
        = (observedState σ.blake3 σ.machine.disk asset).digest := by
  obtain ⟨source, hsource, -⟩ := σ.unchanged asset hasset
  cases htarget : σ.machine.disk.version? .target asset.targetPath.bytes with
  | none =>
      constructor
      · rintro ⟨_, _, -, ht, -⟩
        rw [htarget] at ht
        cases ht
      · rintro ⟨hpresent, -⟩
        exact absurd htarget hpresent
  | some target =>
      simp only [expectedState, observedState, contentAt, hsource, htarget]
      constructor
      · rintro ⟨_, _, hs, ht, hcontent⟩
        rw [hsource] at hs
        rw [htarget] at ht
        cases hs
        cases ht
        rw [Present, htarget, hcontent]
        exact ⟨Option.some_ne_none _, rfl, rfl⟩
      · rintro ⟨-, -, hdigest⟩
        obtain ⟨_, f, -, hf, rfl⟩ := Disk.version?_eq_some.1 hsource
        obtain ⟨_, g, -, hg, rfl⟩ := Disk.version?_eq_some.1 htarget
        exact ⟨_, _, hsource, htarget, (σ.collisionFree f
          (List.mem_of_getElem? hf) g (List.mem_of_getElem? hg)
          (Option.some.inj hdigest)).symm⟩

/-- Every asset has the target of the first with its target path. -/
theorem present_of_firsts (h : σ.FirstsMatch) {asset : MinimalPlanAsset}
    (hasset : asset ∈ σ.artifact.plan.assets) :
    Present σ.machine.disk asset := by
  cases hfirst : σ.artifact.plan.assets.find?
      (·.targetPath.bytes == asset.targetPath.bytes) with
  | none =>
      have hnone := List.find?_eq_none.1 hfirst asset hasset
      exact absurd (beq_self_eq_true _) hnone
  | some first =>
      have hmem := List.mem_of_find?_eq_some hfirst
      have hpath : (first.targetPath.bytes == asset.targetPath.bytes) = true :=
        List.find?_some (p := fun a : MinimalPlanAsset =>
          a.targetPath.bytes == asset.targetPath.bytes) hfirst
      rw [← beq_iff_eq.1 hpath] at hfirst
      have hmatch := (σ.matches_iff hmem).1 (h first hmem hfirst)
      rw [Present, ← beq_iff_eq.1 hpath]
      exact hmatch.1

/-- The sum fits exactly if the code's does. -/
theorem fits_iff : σ.Fits ↔ (σ.artifact.plan.assets.map
    (targetLength σ.machine.disk)).sum ≤ uint64Max := by
  have hsize : σ.targetSize = targetLength σ.machine.disk := by
    funext asset
    unfold targetSize targetLength contentAt
    cases σ.machine.disk.version? .target asset.targetPath.bytes <;> rfl
  rw [Fits, hsize]

/-- The verdict of the command. -/
theorem execute_spec {rounds : Nat} (hrounds : σ.bound ≤ rounds) :
    Yields (pipelineEffects σ.strerror σ.blake3 .none) False
      (fun _ _ => σ.FirstsMatch ∧ σ.Fits)
      (fun _ _ => ¬(σ.FirstsMatch ∧ σ.Fits))
      (execute σ.codec σ.blake3 σ.layout σ.inputPath rounds) σ.machine := by
  obtain ⟨bytes, hfile, haccepted⟩ := σ.accepted
  obtain ⟨root, hroot⟩ := σ.manifest
  have hplan : σ.machine.readPlanFile σ.inputPath = .ok bytes := by
    rw [Machine.readPlanFile, hfile]
  unfold execute
  refine .bind (readPlanFile_quiet (fun bytes' hbytes' => ?_) fun e he => ?_)
  swap
  · rw [hplan] at he
    cases he
  rw [hplan] at hbytes'
  cases hbytes'
  refine .bind (.ofExcept (fun artifact' hartifact' => ?_) fun e he => ?_)
  swap
  · rw [haccepted] at he
    cases he
  rw [haccepted] at hartifact'
  cases hartifact'
  refine .ite (fun hempty => absurd hempty σ.nonempty) fun _ => ?_
  refine .bind (openDatabase_quiet ?_)
  refine .bind (readManifestSourceRoot_quiet (fun _ _ => ?_) fun e he => ?_)
  swap
  · rw [hroot] at he
    cases he
  refine .bind (openRoot_quiet (.bind (openRoot_quiet ?_)))
  refine .bind ((verifyTasks_quiet σ.artifact.plan.assets σ.machine ⟨0, [], []⟩
    (fun asset hasset => ⟨σ.sound, fun f hf =>
      Nat.lt_of_lt_of_le (σ.lt_bound hf) hrounds, σ.single asset hasset,
      σ.succeeded asset hasset, σ.unchanged asset hasset⟩)
    (Nat.zero_le _)).mono ?_ ?_)
  · rintro done w ⟨-, hpresent, hsum, hexpected, hobserved⟩
    have hverdict : diffFileStates done.expected done.observed = []
        ↔ σ.FirstsMatch ∧ σ.Fits := by
      rw [hexpected, hobserved, List.nil_append, List.nil_append,
        diff_collected, fits_iff]
      constructor
      · intro h
        refine ⟨fun asset hasset hfirst => ?_, Nat.le_trans (by simp) hsum⟩
        exact (σ.matches_iff hasset).2
          ⟨hpresent asset hasset, h asset hfirst⟩
      · rintro ⟨h, -⟩ asset hfirst
        have hasset := List.mem_of_find?_eq_some hfirst
        exact ((σ.matches_iff hasset).1 (h asset hasset hfirst)).2
    refine (conclude_quiet σ.lawful
      (readFrozenPlan_utf8 σ.encoded haccepted) done).mono ?_ ?_
    · exact fun _ _ h => hverdict.1 h
    · exact fun _ _ h hgood => h (hverdict.2 hgood)
  · rintro e w hnot ⟨hfirsts, hfits⟩
    refine hnot ⟨fun asset hasset => σ.present_of_firsts hfirsts hasset, ?_⟩
    rw [fits_iff] at hfits
    rwa [Nat.zero_add]

end Setting

-- ================================================================ the runs

section Reading

variable {blake3 : Bytes → Digest}

private theorem verifySource_uses {asset : MinimalPlanAsset} {rounds : Nat} :
    (verifySource blake3 asset rounds).Uses PipelineCall.Reads := by
  unfold verifySource
  refine .bind (.bind (.lift (uses_call trivial)) fun fd => ?_) fun guard => ?_
  · exact .bind (.lift (uses_call trivial)) fun _ => .ite (.throw _) (.pure _)
  · refine .bind (.bind (.lift (uses_call trivial)) fun current => ?_)
      fun guard => ?_
    · exact .ite (.throw _) (.pure _)
    · refine .bind (verifyBinary_calls trivial trivial) fun source => ?_
      refine .bind (.bind (.lift (uses_call trivial)) fun actual => ?_) fun _ => ?_
      · exact .ite (.throw _) (.pure _)
      · exact .ite (.throw _) (.pure _)

private theorem verifyPlanAsset_uses {asset : MinimalPlanAsset} {rounds : Nat} :
    (verifyPlanAsset blake3 asset rounds).Uses PipelineCall.Reads := by
  unfold verifyPlanAsset
  refine .ite (.throw _) (.bind verifySource_uses fun source => ?_)
  refine .bind (.lift (uses_call trivial)) fun targetFd => ?_
  exact .bind (verifyBinary_calls trivial trivial) fun target => .pure _

/-- Verifying a task only reads. -/
theorem verifyTask_uses {planId : Bytes} {rounds : Nat} {done : Verified}
    {asset : MinimalPlanAsset} :
    (verifyTask blake3 planId rounds done asset).Uses PipelineCall.Reads := by
  unfold verifyTask
  refine .bind (.ofExcept _) fun task => ?_
  refine .bind (.lift (uses_call trivial)) fun runtime => ?_
  refine .ite (.throw _) (.bind verifyPlanAsset_uses fun summary => ?_)
  exact .ite (.throw _) (.pure _)

private theorem verifyTasks_uses {planId : Bytes} {rounds : Nat}
    (assets : List MinimalPlanAsset) : ∀ done : Verified,
      (verifyTasks blake3 planId rounds done assets).Uses PipelineCall.Reads := by
  induction assets with
  | nil => exact fun done => .pure done
  | cons asset rest ih =>
      intro done
      unfold verifyTasks
      rw [List.foldlM_cons]
      exact .bind verifyTask_uses ih

/-- The command only reads. -/
theorem execute_uses {codec : Codec} {layout : WorkspaceLayout}
    {inputPath : Bytes} {rounds : Nat} :
    (execute codec blake3 layout inputPath rounds).Uses PipelineCall.Reads := by
  unfold execute
  refine .bind (.lift (uses_call trivial)) fun bytes => ?_
  refine .bind (.ofExcept _) fun artifact => .ite (.throw _) ?_
  refine .bind (.lift (uses_call trivial)) fun _ => ?_
  refine .bind (.lift (uses_call trivial)) fun root => ?_
  refine .bind (.lift (uses_call trivial)) fun _ => ?_
  refine .bind (.lift (uses_call trivial)) fun _ => ?_
  refine .bind (verifyTasks_uses _ _) fun done => ?_
  refine .bind (.ofExcept _) fun report => ?_
  refine .bind (.lift (uses_call trivial)) fun _ => ?_
  exact .ite (.throw _) (.lift (uses_call trivial))

end Reading

namespace Setting

variable (σ : Setting)

/-- The command has a run, and in every run it ends well exactly when the
first assets match and the bytes can be counted. -/
theorem execute_runs : σ.Runs fun r =>
    r = some (.ok ()) ↔ σ.FirstsMatch ∧ σ.Fits := by
  refine ⟨σ.bound, fun rounds hrounds => ⟨?_, fun r w hrun => ?_⟩⟩
  · exact exists_returns (fun c w hc => hc.answered w) execute_uses σ.machine
  · obtain ⟨result, rfl, hend⟩ := (σ.execute_spec hrounds).returns hrun
    cases result with
    | ok _ => exact iff_of_true rfl hend
    | error e => exact iff_of_false nofun hend

/-- What it is for the report to be correct. -/
theorem correct_iff : σ.Correct ↔ (σ.FirstsMatch ∧ σ.Fits
    ↔ ∀ asset ∈ σ.artifact.plan.assets, σ.Matches asset) := by
  constructor
  · intro h
    obtain ⟨r, w, hright, hr⟩ := Settles.exists h σ.execute_runs
    exact hr.symm.trans hright
  · exact fun h => σ.execute_runs.mono fun r _ hr => hr.trans h

end Setting

/-- The command tells matching targets from others unless a mismatch is
behind an earlier asset of the same target path, or the bytes are too many
to count. -/
theorem verify_correct_iff (σ : Setting) :
    σ.Correct ↔ ¬σ.Hidden ∧ ¬σ.TooLarge := by
  rw [σ.correct_iff]
  constructor
  · intro h
    constructor
    · rintro ⟨hfits, hfirsts, asset, hasset, hno⟩
      exact hno (h.1 ⟨hfirsts, hfits⟩ asset hasset)
    · rintro ⟨hlarge, hall⟩
      exact hlarge (h.2 hall).2
  · rintro ⟨hhidden, hlarge⟩
    constructor
    · rintro ⟨hfirsts, hfits⟩ asset hasset
      by_contra hno
      exact hhidden ⟨hfits, hfirsts, asset, hasset, hno⟩
    · intro hall
      refine ⟨fun asset hasset _ => hall asset hasset, ?_⟩
      by_contra hfits
      exact hlarge ⟨hfits, hall⟩

-- ============================================================== one target

/-- The last 32 bytes. -/
def lastBytes (bytes : Bytes) : Digest :=
  ⟨(List.replicate 32 0 ++ bytes).drop bytes.length, by
    rw [List.length_drop, List.length_append, List.length_replicate,
      Nat.add_sub_cancel]⟩

/-- The plan of these photos as it is written. -/
def photosBytes (assets : List MinimalPlanAsset) : Bytes :=
  ((planLines utf8Strict (.ofInput (albumOf assets))
    (text "plan")).toOption.getD []).flatMap (· ++ [10])

/-- The plan of these photos as it is read. -/
def photosFile (assets : List MinimalPlanAsset) : FrozenPlanFile where
  planId := text "plan"
  bytes := photosBytes assets
  artifactDigest := artifactDigestFor lastBytes (photosBytes assets)
  semanticDigest := semanticDigestFor lastBytes (.ofInput (albumOf assets))
  plan := .ofInput (albumOf assets)

/-- The file of an accepted album is read back. -/
theorem photos_read {assets : List MinimalPlanAsset}
    (haccepted : validatePlanInput (albumOf assets) = .ok ())
    (htext : ∀ asset ∈ (CanonicalMinimalPlan.ofInput (albumOf assets)).assets,
      IsUtf8 asset.logicalAssetId ∧ IsUtf8 asset.sourceAssetId)
    (hfits : (planLines utf8Strict (.ofInput (albumOf assets))
      (text "plan")).toOption.all
        (·.all (·.length ≤ maxJsonLineBytes)) = true) :
    readFrozenPlan utf8Strict lastBytes (photosBytes assets)
      = .ok (photosFile assets) := by
  have htextual : (CanonicalMinimalPlan.ofInput (albumOf assets)).Textual := by
    refine ⟨isUtf8_text _, isUtf8_text _, fun capability hcapability => ?_, htext⟩
    rw [List.mem_singleton.1 hcapability]
    exact ⟨isUtf8_text _, isUtf8_text _⟩
  obtain ⟨lines, hlines, hparse, hshape⟩ :=
    planLines_spec utf8Strict_lawful htextual (isUtf8_text "plan")
  have hbytes : photosBytes assets = lines.flatMap (· ++ [10]) := by
    unfold photosBytes
    rw [hlines]
    rfl
  rw [hlines] at hfits
  unfold photosFile
  rw [hbytes]
  refine readFrozenPlan_lines utf8Strict lastBytes
    (build_ok.2 ⟨validatePlanInput_ok.1 haccepted, rfl⟩)
    (by decide +kernel) (fun line hline => ?_) hparse
  exact ⟨(hshape line hline).1, (hshape line hline).2.1,
    (hshape line hline).2.2,
    of_decide_eq_true (List.all_eq_true.1 hfits line hline)⟩

/-- A photo with the target of another one. -/
def overlaid : MinimalPlanAsset := { beach with
  targetPath := attic.targetPath
  sourceIdentity := { beach.sourceIdentity with inode := 7 } }

def overlaidAlbum : CanonicalMinimalPlan :=
  .ofInput (albumOf [attic, overlaid])

/-- The two assets of the album. -/
theorem overlaid_assets : overlaidAlbum.assets = [attic, overlaid] := by
  decide +kernel

/-- A file with this identity, never modified. -/
def fileOf (identity : FileIdentity) (content : Bytes)
    (h : identity.size.toNat = content.length) : DiskFile where
  current := ⟨identity, content, h⟩
  past := []
  distinct := List.nodup_singleton _
  synced := true

/-- Both photos, and a target that is the first of them. -/
def overlaidDisk : Disk where
  files := [
    fileOf attic.sourceIdentity (text "sun") (by decide +kernel),
    fileOf overlaid.sourceIdentity (text "sea") (by decide +kernel),
    fileOf { attic.sourceIdentity with inode := 8 } (text "sun")
      (by decide +kernel)]
  sources path :=
    if path = [97] then .file 0 else if path = [98] then .file 1 else .absent
  targets name := if name = [97] then some 2 else none
  opened := []

/-- Two sources, and targets that are there. -/
theorem photos_sound {files : List DiskFile} {targets : Bytes → Option Nat}
    (hfiles : 2 ≤ files.length)
    (htargets : ∀ name index, targets name = some index →
      index < files.length) :
    (⟨files, fun path => if path = [97] then .file 0
        else if path = [98] then .file 1 else .absent,
      targets, []⟩ : Disk).Sound := by
  intro root path index h
  show index < files.length
  cases root with
  | target => exact htargets path index h
  | source =>
      simp only [Disk.lookUp] at h
      by_cases hfirst : path = [97]
      · rw [if_pos hfirst] at h
        cases h
        omega
      · rw [if_neg hfirst] at h
        by_cases hsecond : path = [98]
        · rw [if_pos hsecond] at h
          cases h
          omega
        · rw [if_neg hsecond] at h
          cases h

/-- No path leads to a file that is not there. -/
theorem overlaid_sound : overlaidDisk.Sound := by
  refine photos_sound (by decide) fun name index h => ?_
  split at h
  · cases h
    decide
  · cases h

/-- The files have different digests. -/
theorem overlaid_collisionFree : ∀ f ∈ overlaidDisk.files,
    ∀ g ∈ overlaidDisk.files,
      lastBytes f.current.content = lastBytes g.current.content →
        f.current.content = g.current.content := by
  decide +kernel

/-- The row of a task that is done. -/
def doneRow (asset : MinimalPlanAsset) (key : Bytes) : TaskRow where
  planId := text "plan"
  taskId := key
  taskKey := key
  type := .migrateFile
  state := .succeeded
  ownerEpoch := none
  activeAttemptId := none
  attemptCount := 1
  targetPath := asset.targetPath.bytes
  expectedSize := asset.sourceIdentity.size
  expectedDigest := none
  lastError := none

/-- The id of a photo's task. -/
def taskIdOf (asset : MinimalPlanAsset) : Bytes :=
  text "task-" ++ (lastBytes (taskKeyPayload (unkeyedTaskSpec asset))).toHex

def overlaidDb : Db := { Db.empty with
  manifests := [⟨text "manifest", text "/source"⟩]
  tasks := [doneRow attic (taskIdOf attic),
    doneRow overlaid (taskIdOf overlaid)] }

/-- Both tasks have succeeded. -/
theorem overlaid_succeeded : ∀ asset ∈ overlaidAlbum.assets,
    ∃ task runtime, taskSpecForPlanAsset lastBytes asset = .ok task
      ∧ (Repository.readRuntime (text "plan") task.id : DbTxn TaskRuntime)
        overlaidDb = .ok (runtime, overlaidDb)
      ∧ runtime.state = .succeeded := by
  rw [overlaid_assets]
  intro asset hasset
  refine ⟨{ unkeyedTaskSpec asset with
    id := taskIdOf asset, taskKey := taskIdOf asset },
    ⟨taskIdOf asset, .succeeded, 0, none, 1, none⟩, ?_⟩
  rcases List.mem_cons.1 hasset with rfl | hasset
  · exact ⟨rfl, rfl, rfl⟩
  · rw [List.mem_singleton.1 hasset]
    exact ⟨rfl, rfl, rfl⟩

/-- The file of the album is read back. -/
theorem overlaid_read :
    readFrozenPlan utf8Strict lastBytes (photosBytes [attic, overlaid])
      = .ok (photosFile [attic, overlaid]) := by
  refine photos_read rfl ?_ (by decide +kernel)
  show ∀ asset ∈ overlaidAlbum.assets, _
  rw [overlaid_assets]
  intro asset hasset
  rcases List.mem_pair.1 hasset with rfl | rfl
  · exact ⟨isUtf8_text _, isUtf8_text _⟩
  · exact ⟨isUtf8_text _, isUtf8_text _⟩

/-- The workspace of an accepted plan of both photos. -/
def overlaidSetting : Setting where
  strerror _ := []
  blake3 := lastBytes
  codec := utf8Strict
  layout := ⟨text "/w", text "/w/db", [], [], [], [], []⟩
  inputPath := text "plan.jsonl"
  machine := ⟨overlaidDisk, overlaidDb,
    fun _ => some (photosBytes [attic, overlaid]), []⟩
  artifact := photosFile [attic, overlaid]
  lawful := utf8Strict_lawful
  encoded := utf8Strict_encoded
  sound := overlaid_sound
  collisionFree := overlaid_collisionFree
  accepted := ⟨_, rfl, overlaid_read⟩
  nonempty := by
    show overlaidAlbum.assets ≠ []
    rw [overlaid_assets]
    exact List.cons_ne_nil _ _
  single := by
    show ∀ asset ∈ overlaidAlbum.assets, _
    rw [overlaid_assets]
    decide +kernel
  succeeded := overlaid_succeeded
  manifest := ⟨text "/source", rfl⟩
  unchanged := by
    show ∀ asset ∈ overlaidAlbum.assets, _
    rw [overlaid_assets]
    intro asset hasset
    rcases List.mem_pair.1 hasset with rfl | rfl
    · exact ⟨_, rfl, rfl⟩
    · exact ⟨_, rfl, rfl⟩

/-- Two photos with one target: the command ends well although the target
of the second does not match. -/
theorem verify_hides_overlaid : ∃ σ : Setting,
    σ.artifact.plan = overlaidAlbum ∧ σ.machine.disk = overlaidDisk
      ∧ ¬σ.Correct := by
  refine ⟨overlaidSetting, rfl, rfl, fun hcorrect => ?_⟩
  have hverdict := (Setting.correct_iff _).1 hcorrect
  have hassets' : overlaidSetting.artifact.plan.assets = [attic, overlaid] :=
    overlaid_assets
  have hfirst : overlaidSetting.FirstsMatch := by
    rw [Setting.FirstsMatch, hassets']
    intro asset hasset hfirst
    rcases List.mem_cons.1 hasset with rfl | hasset
    · exact ⟨_, _, rfl, rfl, rfl⟩
    · rw [List.mem_singleton.1 hasset, Setting.First, hassets'] at hfirst
      exact absurd hfirst (by decide +kernel)
  have hfits : overlaidSetting.Fits := by
    rw [Setting.Fits, hassets']
    show (3 + (3 + 0)) ≤ uint64Max
    decide +kernel
  obtain ⟨source, target, hsource, htarget, hcontent⟩ :=
    hverdict.1 ⟨hfirst, hfits⟩ overlaid (by
      rw [hassets']
      exact List.mem_cons_of_mem _ List.mem_cons_self)
  cases hsource
  cases htarget
  exact absurd hcontent (by decide +kernel)

end VerifyService

end PhotoBridge
