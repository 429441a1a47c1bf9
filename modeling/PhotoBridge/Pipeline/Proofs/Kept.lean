/-
What migrate and resume keep: the files there were, and a ledger that is
true of the files there are.

`Disk.Carries` says which files a step leaves alone; what it does to the
entries of the target root is said separately, since that is where the
steps differ. From there each step of the file system is a lemma about
`Intact` (the files) and one about the two parameters of the ledger, and
`Kept` puts them together.
-/
import PhotoBridge.Pipeline.Proofs.Guard
import PhotoBridge.Pipeline.Proofs.Ledger
import PhotoBridge.Pipeline.Proofs.Reading

namespace PhotoBridge

open Concurrent

-- ================================================================ the disk

/-- These files are as they were, but may have been synced. -/
structure Disk.Carries (kept : Nat → Prop) (d d' : Disk) : Prop where
  sources : d'.sources = d.sources
  length : d.files.length ≤ d'.files.length
  files : ∀ index f, kept index → d.files[index]? = some f →
    ∃ g, d'.files[index]? = some g ∧ g.current = f.current
      ∧ (f.synced = true → g.synced = true)

namespace Disk.Carries

variable {kept : Nat → Prop} {d d' : Disk}

theorem of_files (hsources : d'.sources = d.sources) (hfiles : d'.files = d.files) :
    d.Carries kept d' where
  sources := hsources
  length := by rw [hfiles]
  files index f _ hf := ⟨f, hfiles ▸ hf, rfl, id⟩

theorem sync {o : OpenFile} {f : DiskFile} (hopen : d.files[o.file]? = some f) :
    d.Carries kept
      { d with files := d.files.set o.file { f with synced := true } } where
  sources := rfl
  length := by rw [List.length_set]
  files index g _ hg := by
    by_cases heq : index = o.file
    · subst heq
      rw [hopen] at hg
      cases hg
      refine ⟨{ f with synced := true }, ?_, rfl, fun _ => rfl⟩
      exact List.getElem?_set_self (List.getElem?_eq_some_iff.1 hopen).1
    · exact ⟨g, by rw [← hg]; exact List.getElem?_set_ne (Ne.symm heq), rfl, id⟩

theorem version? (h : d.Carries kept d') {root : Root} {path : Bytes}
    {index : Nat} {v : FileVersion} (hv : d.version? root path = some v)
    (hentry : d.lookUp root path = some index) (hkept : kept index)
    (hentry' : d'.lookUp root path = some index) :
    d'.version? root path = some v := by
  obtain ⟨index', f, hlook, hf, rfl⟩ := Disk.version?_eq_some.1 hv
  cases hentry.symm.trans hlook
  obtain ⟨g, hg, hsame, -⟩ := h.files index f hkept hf
  exact Disk.version?_eq_some.2 ⟨index, g, hentry', hg, hsame⟩

end Disk.Carries

theorem Disk.disturbed_refl (trouble : Trouble) (d : Disk) :
    d.Disturbed trouble d :=
  ⟨rfl, rfl, rfl, rfl, fun _ _ _ hf hf' => .inl (Option.some.inj (hf'.symm.trans hf))⟩

/-- Nobody else modifies a file. -/
theorem Disk.disturbed_calm {trouble : Trouble} {d d' : Disk}
    (hcalm : ∀ index, ¬trouble.disturbed index) (h : d.Disturbed trouble d') :
    d' = d := by
  refine Disk.disturbed_none.1 ⟨h.sources, h.targets, h.opened, h.length, ?_⟩
  intro index f f' hf hf'
  rcases h.files index f f' hf hf' with hsame | ⟨hdisturbed, -⟩
  · exact .inl hsame
  · exact absurd hdisturbed (hcalm index)

namespace Site

variable (σ : Site)

-- =============================================================== the files

/-- The files there were are there, under their names, and what was added
to the target root is a temp of the plan or a synced copy. -/
structure Intact (d : Disk) : Prop where
  sound : d.Sound
  sources : d.sources = σ.start.disk.sources
  files : ∀ (index : Nat) (f : DiskFile), σ.start.disk.files[index]? = some f →
    ∃ g : DiskFile, d.files[index]? = some g ∧ g.current = f.current
  targets : ∀ name index, σ.start.disk.targets name = some index →
    d.targets name = some index
  added : ∀ name index, σ.start.disk.targets name = none →
    d.targets name = some index → σ.start.disk.files.length ≤ index
      ∧ (σ.IsTemp name ∨ ∃ f, d.files[index]? = some f ∧ f.synced = true
        ∧ σ.IsFinal name f.current)

/-- The temp of a receipt is a synced copy. -/
def Staged (d : Disk) (row : ReceiptRow) : Prop :=
  ∃ index f, d.targets row.tempPath = some index ∧ d.files[index]? = some f
    ∧ f.synced = true ∧ ∃ asset ∈ σ.artifact.plan.assets,
      σ.Records asset row ∧ σ.Copies asset f.current

/-- The final of a receipt has its size and its digest. -/
def Landed (d : Disk) (row : ReceiptRow) : Prop :=
  ∃ v, d.version? .target row.finalPath = some v
    ∧ v.identity.size = row.contentSize ∧ σ.blake3 v.content = row.targetDigest

/-- What every call of the two commands keeps. -/
structure Kept (w : Machine) : Prop where
  planFiles : w.planFiles = σ.start.planFiles
  intact : σ.Intact w.disk
  ledger : σ.Ledger (σ.Staged w.disk) (σ.Landed w.disk) w.db

variable {σ} {d d' : Disk} {kept : Nat → Prop} {w w' : Machine}
  {row : ReceiptRow} {asset : MinimalPlanAsset}

theorem Intact.start (σ : Site) : σ.Intact σ.start.disk where
  sound := σ.sound
  sources := rfl
  files _ f hf := ⟨f, hf, rfl⟩
  targets _ _ h := h
  added _ _ hnone hsome := nomatch hnone.symm.trans hsome

theorem Kept.start (σ : Site) : σ.Kept σ.start := ⟨rfl, .start σ, .start σ _ _⟩

/-- The source of an asset is what it was. -/
theorem Intact.source (h : σ.Intact d) (path : Bytes)
    (hsettled : ∀ name, σ.start.disk.sources path = .target name →
      σ.start.disk.targets name ≠ none) :
    d.lookUp .source path = σ.start.disk.lookUp .source path := by
  cases hentry : σ.start.disk.sources path with
  | absent => simp only [Disk.lookUp, h.sources, hentry]
  | file index => simp only [Disk.lookUp, h.sources, hentry]
  | target name =>
      obtain ⟨index, hindex⟩ := Option.ne_none_iff_exists'.1 (hsettled name hentry)
      simp only [Disk.lookUp, h.sources, hentry, hindex]
      exact h.targets name index hindex

/-- The steps of the file system: what they leave alone, and what becomes
of the entries. -/
theorem Intact.step (h : σ.Intact d) (hc : d.Carries kept d')
    (hkept : ∀ index, index < σ.start.disk.files.length → kept index)
    (htargets : ∀ name index, σ.start.disk.targets name = some index →
      d'.targets name = some index)
    (hadded : ∀ name index, σ.start.disk.targets name = none →
      d'.targets name = some index → index < d'.files.length
        ∧ σ.start.disk.files.length ≤ index
        ∧ (σ.IsTemp name ∨ ∃ f, d'.files[index]? = some f ∧ f.synced = true
          ∧ σ.IsFinal name f.current)) : σ.Intact d' := by
  have hentries : ∀ name index, d'.targets name = some index →
      index < d'.files.length := by
    intro name index hindex
    cases hbefore : σ.start.disk.targets name with
    | none => exact (hadded name index hbefore hindex).1
    | some before =>
        cases (htargets name before hbefore).symm.trans hindex
        exact Nat.lt_of_lt_of_le (h.sound .target name _ (h.targets name _ hbefore))
          hc.length
  refine ⟨?_, hc.sources.trans h.sources, fun index f hf => ?_, htargets,
    fun name index hnone hindex => (hadded name index hnone hindex).2⟩
  · intro root path index hlook
    cases root with
    | target => exact hentries path index hlook
    | source =>
        cases hentry : d.sources path with
        | absent =>
            simp only [Disk.lookUp, hc.sources, hentry] at hlook
            cases hlook
        | file i =>
            simp only [Disk.lookUp, hc.sources, hentry] at hlook
            cases hlook
            refine Nat.lt_of_lt_of_le (h.sound .source path index ?_) hc.length
            simp only [Disk.lookUp, hentry]
        | target name =>
            simp only [Disk.lookUp, hc.sources, hentry] at hlook
            exact hentries name index hlook
  · obtain ⟨g, hg, hsame⟩ := h.files index f hf
    obtain ⟨g', hg', hsame', -⟩ := hc.files index g
      (hkept index (List.getElem?_eq_some_iff.1 hf).1) hg
    exact ⟨g', hg', hsame'.trans hsame⟩

/-- An entry that nobody has touched. -/
theorem Intact.entry (h : σ.Intact d) (hc : d.Carries kept d') {name : Bytes}
    {index : Nat} (hnone : σ.start.disk.targets name = none)
    (hindex : d.targets name = some index) (hkept : kept index ∨ σ.IsTemp name) :
    index < d'.files.length ∧ σ.start.disk.files.length ≤ index
      ∧ (σ.IsTemp name ∨ ∃ f, d'.files[index]? = some f ∧ f.synced = true
        ∧ σ.IsFinal name f.current) := by
  obtain ⟨hlarge, hwhat⟩ := h.added name index hnone hindex
  refine ⟨Nat.lt_of_lt_of_le (h.sound .target name index hindex) hc.length,
    hlarge, ?_⟩
  rcases hkept with hkept | htemp
  · rcases hwhat with htemp | ⟨f, hf, hsynced, hfinal⟩
    · exact .inl htemp
    · obtain ⟨g, hg, hsame, hsync⟩ := hc.files index f hkept hf
      exact .inr ⟨g, hg, hsync hsynced, hsame ▸ hfinal⟩
  · exact .inl htemp

/-- No entry has come or gone. -/
theorem Intact.carried (h : σ.Intact d) (hc : d.Carries (fun _ => True) d')
    (htargets : d'.targets = d.targets) : σ.Intact d' := by
  refine h.step hc (fun _ _ => trivial) ?_ fun name index hnone hindex => ?_
  · rw [htargets]
    exact h.targets
  · rw [htargets] at hindex
    exact h.entry hc hnone hindex (.inl trivial)

theorem Staged.carried (h : σ.Staged d row) (hc : d.Carries kept d')
    (hkept : ∀ index, d.targets row.tempPath = some index → kept index)
    (hentry : d'.targets row.tempPath = d.targets row.tempPath) :
    σ.Staged d' row := by
  obtain ⟨index, f, hindex, hf, hsynced, asset, hasset, hrecords, hcopies⟩ := h
  obtain ⟨g, hg, hsame, hsync⟩ := hc.files index f (hkept index hindex) hf
  exact ⟨index, g, hentry.trans hindex, hg, hsync hsynced, asset, hasset,
    hrecords, hsame ▸ hcopies⟩

theorem Landed.carried (h : σ.Landed d row) (hc : d.Carries kept d')
    (hkept : ∀ index, d.targets row.finalPath = some index → kept index)
    (hentry : ∀ index, d.targets row.finalPath = some index →
      d'.targets row.finalPath = some index) : σ.Landed d' row := by
  obtain ⟨v, hv, hsize, hdigest⟩ := h
  obtain ⟨index, f, hindex, -⟩ := Disk.version?_eq_some.1 hv
  exact ⟨v, hc.version? hv hindex (hkept index hindex) (hentry index hindex), hsize,
    hdigest⟩

/-- No entry has come or gone, nor any row. -/
theorem Kept.carried (h : σ.Kept w) (hplans : w'.planFiles = w.planFiles)
    (hdb : w'.db = w.db) (hc : w.disk.Carries (fun _ => True) w'.disk)
    (htargets : w'.disk.targets = w.disk.targets) : σ.Kept w' where
  planFiles := hplans.trans h.planFiles
  intact := h.intact.carried hc htargets
  ledger := by
    rw [hdb]
    refine h.ledger.mono (fun row _ _ hs => .inl ?_) fun row _ hl => ?_
    · exact hs.carried hc (fun _ _ => trivial) (by rw [htargets])
    · exact hl.carried hc (fun _ _ => trivial) fun index hindex => by
        rw [htargets]
        exact hindex

/-- Only the database has changed. -/
theorem Kept.stored (h : σ.Kept w) (hplans : w'.planFiles = w.planFiles)
    (hdisk : w'.disk = w.disk)
    (hledger : σ.Ledger (σ.Staged w.disk) (σ.Landed w.disk) w'.db) :
    σ.Kept w' := by
  refine ⟨hplans.trans h.planFiles, ?_, ?_⟩
  · rw [hdisk]
    exact h.intact
  · rw [hdisk]
    exact hledger

-- ============================================================ the receipts

/-- A temp is nobody's final. -/
theorem Ledger.temp_ne {staged landed : ReceiptRow → Prop} {db : Db}
    (h : σ.Ledger staged landed db) {row other : ReceiptRow}
    (hrow : row ∈ db.receipts) (hother : other ∈ db.receipts) :
    other.finalPath ≠ row.tempPath := by
  obtain ⟨asset, hasset, hrecords⟩ := h.recorded other hother
  obtain ⟨asset', -, hrecords'⟩ := h.recorded row hrow
  rw [hrecords.finalPath, (h.history.reached.named.receipts row hrow).temp,
    hrecords'.planId]
  exact σ.generated asset hasset row.taskId row.attemptId

theorem Ledger.temp_isTemp {staged landed : ReceiptRow → Prop} {db : Db}
    (h : σ.Ledger staged landed db) (hrow : row ∈ db.receipts) :
    σ.IsTemp row.tempPath ∧ σ.start.disk.targets row.tempPath = none := by
  obtain ⟨asset, -, hrecords⟩ := h.recorded row hrow
  refine ⟨⟨row.taskId, row.attemptId, ?_⟩, hrecords.fresh⟩
  rw [(h.history.reached.named.receipts row hrow).temp, hrecords.planId]

/-- A copy of the source lands as the receipt has it. -/
theorem Records.landed (h : σ.Records asset row) {v : FileVersion}
    (hcopies : σ.Copies asset v) :
    v.identity.size = row.contentSize ∧ σ.blake3 v.content = row.targetDigest := by
  obtain ⟨source, hfrozen, hcontent⟩ := hcopies
  obtain ⟨source', hfrozen', htarget, -⟩ := h.digests
  cases hfrozen.1.symm.trans hfrozen'.1
  constructor
  · rw [h.size, ← hfrozen.2]
    refine UInt64.toNat_inj.1 ?_
    rw [v.size, source.size, hcontent]
  · rw [htarget, hcontent]

-- =============================================================== the steps

/-- A file was synced. -/
theorem Kept.sync (h : σ.Kept w) {o : OpenFile} {f : DiskFile}
    (hopen : w.disk.files[o.file]? = some f) :
    σ.Kept { w with disk := { w.disk with
      files := w.disk.files.set o.file { f with synced := true } } } :=
  h.carried rfl rfl (.sync hopen) rfl

/-- The temp of a receipt whose final is there was removed. -/
theorem Kept.unlink (h : σ.Kept w) (hrow : row ∈ w.db.receipts)
    (hpending : w.db.Pending row) (hlanded : σ.Landed w.disk row) {d' : Disk}
    (hd' : d' = { w.disk with
      targets := Function.update w.disk.targets row.tempPath none }) :
    σ.Kept { w with disk := d' } ∧ σ.Landed d' row := by
  obtain ⟨-, hfresh⟩ := h.ledger.temp_isTemp hrow
  have htemp : d'.targets row.tempPath = none := by
    rw [hd']
    exact Function.update_self ..
  have hother : ∀ name, name ≠ row.tempPath →
      d'.targets name = w.disk.targets name := by
    intro name hne
    rw [hd']
    exact Function.update_of_ne hne ..
  have hc : w.disk.Carries (fun _ => True) d' := by
    rw [hd']
    exact .of_files rfl rfl
  have hlands : ∀ other ∈ w.db.receipts, σ.Landed w.disk other →
      σ.Landed d' other := by
    intro other hmem hl
    refine hl.carried hc (fun _ _ => trivial) fun index hindex => ?_
    rw [hother _ (h.ledger.temp_ne hrow hmem)]
    exact hindex
  refine ⟨⟨h.planFiles, h.intact.step hc (fun _ _ => trivial) ?_ ?_, ?_⟩,
    hlands row hrow hlanded⟩
  · intro name index hindex
    by_cases hname : name = row.tempPath
    · rw [hname, hfresh] at hindex
      cases hindex
    · rw [hother name hname]
      exact h.intact.targets name index hindex
  · intro name index hnone hindex
    by_cases hname : name = row.tempPath
    · rw [hname, htemp] at hindex
      cases hindex
    · rw [hother name hname] at hindex
      exact h.intact.entry hc hnone hindex (.inl trivial)
  · refine h.ledger.mono (fun other hmem hother' hs => ?_) hlands
    by_cases hsame : other.tempPath = row.tempPath
    · -- the receipt itself
      cases h.ledger.apart other hmem row hrow hother' hpending hsame
      exact .inr (hlands row hrow hlanded)
    · exact .inl (hs.carried hc (fun _ _ => trivial) (hother _ hsame))

/-- The temp of a receipt got its final name. -/
theorem Kept.rename (h : σ.Kept w) (hrow : row ∈ w.db.receipts)
    (hpending : w.db.Pending row) {index : Nat}
    (hold : w.disk.targets row.tempPath = some index)
    (hnew : w.disk.targets row.finalPath = none) {d' : Disk}
    (hd' : d' = { w.disk with
      targets := Function.update (Function.update w.disk.targets row.tempPath
        none) row.finalPath (some index) }) :
    σ.Kept { w with disk := d' } ∧ σ.Landed d' row := by
  have hne := h.ledger.temp_ne hrow hrow
  obtain ⟨-, hfresh⟩ := h.ledger.temp_isTemp hrow
  have hfinal : d'.targets row.finalPath = some index := by
    rw [hd']
    exact Function.update_self ..
  have htemp : d'.targets row.tempPath = none := by
    rw [hd']
    exact (Function.update_of_ne hne.symm ..).trans (Function.update_self ..)
  have hother : ∀ name, name ≠ row.finalPath → name ≠ row.tempPath →
      d'.targets name = w.disk.targets name := by
    intro name hnot hnot'
    rw [hd']
    exact (Function.update_of_ne hnot ..).trans (Function.update_of_ne hnot' ..)
  have hc : w.disk.Carries (fun _ => True) d' := by
    rw [hd']
    exact .of_files rfl rfl
  have hfiles : d'.files = w.disk.files := by rw [hd']
  -- without a final the receipt has its temp
  have hstaged : σ.Staged w.disk row := by
    rcases h.ledger.evident row hrow hpending with hs | ⟨v, hv, -⟩
    · exact hs
    · obtain ⟨i, f, hi, -⟩ := Disk.version?_eq_some.1 hv
      exact nomatch hnew.symm.trans hi
  obtain ⟨i, f, hi, hf, hsynced, asset, hasset, hrecords, hcopies⟩ := hstaged
  cases hold.symm.trans hi
  have hlanded : σ.Landed d' row := by
    refine ⟨f.current, Disk.version?_eq_some.2 ⟨index, f, hfinal, ?_, rfl⟩,
      hrecords.landed hcopies⟩
    rw [hfiles]
    exact hf
  have hlands : ∀ other ∈ w.db.receipts, σ.Landed w.disk other →
      σ.Landed d' other := by
    intro other hmem hl
    refine hl.carried hc (fun _ _ => trivial) fun i hi => ?_
    by_cases hname : other.finalPath = row.finalPath
    · rw [hname, hnew] at hi
      cases hi
    · rw [hother _ hname (h.ledger.temp_ne hrow hmem)]
      exact hi
  refine ⟨⟨h.planFiles, h.intact.step hc (fun _ _ => trivial) ?_ ?_, ?_⟩, hlanded⟩
  · intro name i hi
    have hnot : name ≠ row.finalPath := by
      rintro rfl
      exact nomatch hnew.symm.trans (h.intact.targets _ i hi)
    have hnot' : name ≠ row.tempPath := by
      rintro rfl
      exact nomatch hfresh.symm.trans hi
    rw [hother name hnot hnot']
    exact h.intact.targets name i hi
  · intro name i hnone hi
    by_cases hname : name = row.finalPath
    · rw [hname, hfinal] at hi
      cases hi
      obtain ⟨hlt, hlarge, -⟩ := h.intact.entry hc hfresh hold (.inl trivial)
      refine ⟨hlt, hlarge, .inr ⟨f, ?_, hsynced, asset, hasset, ?_, hcopies⟩⟩
      · rw [hfiles]
        exact hf
      · rw [hname, hrecords.finalPath]
    · by_cases hname' : name = row.tempPath
      · rw [hname', htemp] at hi
        cases hi
      · rw [hother name hname hname'] at hi
        exact h.intact.entry hc hnone hi (.inl trivial)
  · refine h.ledger.mono (fun other hmem hother' hs => ?_) hlands
    by_cases hsame : other.tempPath = row.tempPath
    · cases h.ledger.apart other hmem row hrow hother' hpending hsame
      exact .inr hlanded
    · refine .inl (hs.carried hc (fun _ _ => trivial) (hother _ ?_ hsame))
      exact (h.ledger.temp_ne hmem hrow).symm

end Site

end PhotoBridge
