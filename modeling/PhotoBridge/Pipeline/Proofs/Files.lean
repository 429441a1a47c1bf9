/-
What each call does where nothing goes wrong by itself: one rule for each
of them, in the form the programs are proved in.

Nobody modifies a file then (`quiet_iff`), and only reading is left open:
a read moves what it likes, but something.

Where calls fail and others modify files, the rules say less: a call does
what it does after some disturbance (`meets_rough`), and a call of the
repository has all of its effect or none (`repository_rough`).
-/
import PhotoBridge.Db.Proofs.Calls
import PhotoBridge.Pipeline.Files

namespace PhotoBridge

open Concurrent Transaction Session

-- ============================================================ the disk

/-- Storing what is already there. -/
theorem set_of_getElem? {α : Type} {xs : List α} {i : Nat} {a : α}
    (h : xs[i]? = some a) : xs.set i a = xs := by
  obtain ⟨hlt, heq⟩ := List.getElem?_eq_some_iff.1 h
  rw [← heq, List.set_getElem_self]

namespace Disk

variable {d : Disk} {fd : Nat} {o : OpenFile} {f : DiskFile}

/-- What it is for a descriptor to be open on a file. -/
theorem openFile?_eq_some : d.openFile? fd = some (o, f)
    ↔ d.opened[fd]? = some o ∧ d.files[o.file]? = some f := by
  unfold openFile?
  rw [Option.bind_eq_some_iff]
  constructor
  · rintro ⟨a, ha, hf⟩
    obtain ⟨g, hg, hpair⟩ := Option.map_eq_some_iff.1 hf
    cases hpair
    exact ⟨ha, hg⟩
  · rintro ⟨ho, hf⟩
    exact ⟨o, ho, by rw [hf]; rfl⟩

/-- The file that was opened last. -/
theorem openFile?_opening {index : Nat} (h : d.files[index]? = some f) :
    (d.opening index).openFile? d.opened.length = some (⟨index, 0⟩, f) :=
  openFile?_eq_some.2 ⟨List.getElem?_concat_length .., h⟩

/-- A file at another position. -/
theorem openFile?_seek (h : d.openFile? fd = some (o, f)) (position : Nat) :
    (d.seek fd o position).openFile? fd = some ({ o with position }, f) := by
  obtain ⟨ho, hf⟩ := openFile?_eq_some.1 h
  have hlt := (List.getElem?_eq_some_iff.1 ho).1
  exact openFile?_eq_some.2 ⟨List.getElem?_set_self hlt, hf⟩

/-- Only the last position counts. -/
theorem seek_seek (position position' : Nat) :
    (d.seek fd o position).seek fd { o with position } position'
      = d.seek fd o position' := by
  simp only [seek, List.set_set]

end Disk

/-- With nobody around, nothing is disturbed. -/
theorem Disk.disturbed_none {d d' : Disk} :
    d.Disturbed .none d' ↔ d' = d := by
  constructor
  · intro h
    have hfiles : d'.files = d.files := by
      refine List.ext_getElem h.length fun i hi' hi => ?_
      have hfile := h.files i _ _ (List.getElem?_eq_getElem hi)
        (List.getElem?_eq_getElem hi')
      exact hfile.resolve_right fun hd => hd.1
    obtain ⟨files, sources, targets, opened⟩ := d'
    obtain ⟨hs, ht, ho, -, -⟩ := h
    simp only at hfiles hs ht ho
    rw [hfiles, hs, ht, ho]
  · rintro rfl
    refine ⟨rfl, rfl, rfl, rfl, fun i f f' hf hf' => ?_⟩
    rw [hf] at hf'
    exact .inl (Option.some.inj hf').symm

-- ========================================================= the repository

/-- Each operation does all of its function or nothing. -/
theorem repositoryCall_atomic (c : RepositoryCall) :
    Atomic (· = none) (c.run : RepoM c.Value) (c.run : DbTxn c.Value) := by
  cases c with
  | markCommitIntent p t e a => exact markCommitIntent_atomic p t e a
  | markTempWritten p t e a => exact markTempWritten_atomic p t e a
  | persistVerifiedReceipt p receipt =>
      exact persistVerifiedReceipt_atomic p receipt
  | readRuntime p t => exact readRuntime_atomic p t
  | readVerifiedReceipt p t a => exact readVerifiedReceipt_atomic p t a
  | acquireNextExecutionEpoch p => exact acquireNextExecutionEpoch_atomic p
  | recoverSucceeded p t e old a reason => exact recover_atomic
  | recoverRetryable p t e old a reason => exact recover_atomic
  | recoverInconsistent p t e old a reason => exact recover_atomic

-- ============================================================ the rules

section Quiet

variable {strerror : Nat → Bytes} {blake3 : Bytes → Digest} {spent : Prop}
  {w : Machine}

/-- Where there is no trouble, a call does what it does. -/
theorem quiet_iff {c : PipelineCall} {r : pipelineCalls.Answer c}
    {w' : Machine} : pipelineEffects strerror blake3 .none c w r w'
      ↔ pipelineActs strerror blake3 .none c w r w' := by
  unfold pipelineEffects
  constructor
  · rintro ⟨disk, hdisk, h⟩
    rw [Disk.disturbed_none.1 hdisk] at h
    exact h
  · intro h
    exact ⟨w.disk, Disk.disturbed_none.2 rfl, h⟩

/-- One call. -/
private theorem meets_ask {c : PipelineCall}
    {post : pipelineCalls.Answer c → Machine → Prop}
    (h : ∀ r w', pipelineActs strerror blake3 .none c w r w' → post r w') :
    Meets (pipelineEffects strerror blake3 .none) post (ask c) w :=
  fun r w' hc => h r w' (quiet_iff.1 hc)

/-- One call of the file system. -/
theorem meets_file {c : FileCall} {post : c.Answer → Machine → Prop}
    (h : ∀ r disk, fileActs strerror blake3 c w.disk r disk →
      post r { w with disk }) :
    @Meets pipelineCalls c.Answer Machine
      (pipelineEffects strerror blake3 .none) post (ask (.file c)) w := by
  refine meets_ask ?_
  rintro r w' ⟨disk, rfl, hc | ⟨hfails, -⟩ | hrace⟩
  · exact h r disk hc
  · exact hfails.elim
  · cases c with
    | tryIoUringCopyAndHash _ _ _ =>
        obtain ⟨_, _, _, _, _, _, -, -, hno, -⟩ := hrace
        exact hno.elim
    | _ => exact hrace.elim

/-- One call of the repository. -/
theorem repository_quiet {c : RepositoryCall} {ok : c.Value → Machine → Prop}
    {fail : Status → Machine → Prop}
    (hok : ∀ a db', (c.run : DbTxn c.Value) w.db = .ok (a, db') →
      ok a { w with db := db' })
    (hfail : ∀ e, (c.run : DbTxn c.Value) w.db = .error e → fail e w) :
    Yields (pipelineEffects strerror blake3 .none) spent ok fail
      (repository c) w := by
  refine .perform (meets_ask ?_)
  rintro r w' ⟨repo, hdb, htxn, hmemory, hquiet, rfl, rfl⟩
  obtain ⟨hfaults, hbusy⟩ := hquiet.resolve_left id
  have hatomic := repositoryCall_atomic c
  have houtcome := hatomic.outcome htxn hmemory
  obtain ⟨hresult, -⟩ := hatomic.quiet htxn hmemory hfaults hbusy
  rw [hdb] at houtcome hresult
  generalize ((c.run : RepoM c.Value) repo).2.committed = db' at houtcome ⊢
  generalize ((c.run : RepoM c.Value) repo).1 = r at houtcome hresult ⊢
  cases houtcome with
  | done hf => exact hok _ _ hf
  | refused e =>
      cases hf : (c.run : DbTxn c.Value) w.db with
      | ok out =>
          rw [hf] at hresult
          cases hresult
      | error e' =>
          rw [hf] at hresult
          cases hresult
          exact hfail e hf

/-- A call with one outcome. -/
theorem yields_settled {α : Type} {p : Program pipelineCalls (Except Status α)}
    {r : Except Status α} {ok : α → Machine → Prop}
    {fail : Status → Machine → Prop}
    (hp : Meets (pipelineEffects strerror blake3 .none)
      (fun r' w' => r' = r ∧ w' = w) p w)
    (hok : ∀ a, r = .ok a → ok a w) (hfail : ∀ e, r = .error e → fail e w) :
    Yields (pipelineEffects strerror blake3 .none) spent ok fail
      (Attempt.lift p) w := by
  refine .perform (hp.mono ?_)
  rintro r' w' ⟨rfl, rfl⟩
  cases r' with
  | ok a => exact hok a rfl
  | error e => exact hfail e rfl

variable {ok : Unit → Machine → Prop} {fail : Status → Machine → Prop}

/-- Opening a root. -/
theorem openRoot_quiet {root : Root} {path : Bytes} (h : ok () w) :
    Yields (pipelineEffects strerror blake3 .none) spent ok fail
      (openRoot root path) w := by
  refine yields_settled (r := .ok ()) (meets_ask ?_) (fun _ _ => h) nofun
  rintro r w' ⟨hr | ⟨hfails, -⟩, rfl⟩
  · exact ⟨hr, rfl⟩
  · exact hfails.elim

/-- Opening the database. -/
theorem openDatabase_quiet {path : Bytes} (h : ok () w) :
    Yields (pipelineEffects strerror blake3 .none) spent ok fail
      (openDatabase path) w := by
  refine yields_settled (r := .ok ()) (meets_ask ?_) (fun _ _ => h) nofun
  rintro r w' ⟨hr | ⟨hfails, -⟩, rfl⟩
  · exact ⟨hr, rfl⟩
  · exact hfails.elim

/-- Taking the lock. -/
theorem acquireLock_quiet {path : Bytes} (h : ok () w) :
    Yields (pipelineEffects strerror blake3 .none) spent ok fail
      (acquireLock path) w := by
  refine yields_settled (r := .ok ()) (meets_ask ?_) (fun _ _ => h) nofun
  rintro r w' ⟨hr | ⟨hfails, -⟩, rfl⟩
  · exact ⟨hr, rfl⟩
  · exact hfails.elim

/-- Printing a line. -/
theorem print_quiet {line : Bytes}
    (h : ok () { w with output := w.output ++ line }) :
    Yields (pipelineEffects strerror blake3 .none) spent ok fail
      (print line) w := by
  refine .perform (meets_ask ?_)
  rintro r w' ⟨rfl, rfl⟩
  exact h

/-- Reading the file of the plan. -/
theorem readPlanFile_quiet {path : Bytes} {ok : Bytes → Machine → Prop}
    (hok : ∀ bytes, w.readPlanFile path = .ok bytes → ok bytes w)
    (hfail : ∀ e, w.readPlanFile path = .error e → fail e w) :
    Yields (pipelineEffects strerror blake3 .none) spent ok fail
      (readPlanFile path) w := by
  refine yields_settled (meets_ask ?_) hok hfail
  rintro r w' ⟨hr | ⟨hfails, -⟩, rfl⟩
  · exact ⟨hr, rfl⟩
  · exact hfails.elim

/-- Reading the root of the source. -/
theorem readManifestSourceRoot_quiet {id : Bytes}
    {ok : Bytes → Machine → Prop}
    (hok : ∀ bytes, w.db.readManifestSourceRoot id = .ok bytes → ok bytes w)
    (hfail : ∀ e, w.db.readManifestSourceRoot id = .error e → fail e w) :
    Yields (pipelineEffects strerror blake3 .none) spent ok fail
      (readManifestSourceRoot id) w := by
  refine yields_settled (meets_ask ?_) hok hfail
  rintro r w' ⟨hr | ⟨hfails, -⟩, rfl⟩
  · exact ⟨hr, rfl⟩
  · exact hfails.elim

/-- What `OpenSource` reports of a path that leads nowhere. -/
def missing (strerror : Nat → Bytes) : Status :=
  statusFromErrno strerror eNOENT "open source relative path"

/-- Opening a file. -/
theorem openSource_quiet {root : Root} {path : RelativePath}
    {ok : Nat → Machine → Prop}
    (hfound : ∀ index, w.disk.lookUp root path.bytes = some index →
      ok w.disk.opened.length { w with disk := w.disk.opening index })
    (hmissing : w.disk.lookUp root path.bytes = none →
      fail (missing strerror) w) :
    Yields (pipelineEffects strerror blake3 .none) spent ok fail
      (Files.openSource root path) w := by
  refine .perform (meets_file fun r disk hc => ?_)
  simp only [fileActs] at hc
  cases hlook : w.disk.lookUp root path.bytes with
  | none =>
      rw [hlook] at hc
      obtain ⟨rfl, rfl⟩ := hc
      exact hmissing hlook
  | some index =>
      rw [hlook] at hc
      obtain ⟨rfl, rfl⟩ := hc
      exact hfound index hlook

variable {fd : Nat} {o : OpenFile} {f : DiskFile}

/-- Asking for the identity of an open file. -/
theorem statFd_quiet {ok : FileIdentity → Machine → Prop}
    (hopen : w.disk.openFile? fd = some (o, f))
    (h : ok f.current.identity w) :
    Yields (pipelineEffects strerror blake3 .none) spent ok fail
      (Files.statFd fd) w := by
  refine .perform (meets_file fun r disk hc => ?_)
  obtain ⟨rfl, rfl⟩ := (fileActs_statFd strerror blake3 hopen).1 hc
  exact h

/-- Reading from an open file. -/
theorem read_quiet {size : Nat} {ok : Bytes → Machine → Prop}
    (hopen : w.disk.openFile? fd = some (o, f))
    (h : ∀ n, n ≤ size → n ≤ f.current.content.length - o.position →
      (0 < size → o.position < f.current.content.length → 0 < n) →
      ok ((f.current.content.drop o.position).take n)
        { w with disk := w.disk.seek fd o (o.position + n) }) :
    Yields (pipelineEffects strerror blake3 .none) spent ok fail
      (Files.read fd size) w := by
  refine .perform (meets_file fun r disk hc => ?_)
  obtain ⟨n, hsize, hlength, hpos, rfl, rfl⟩ :=
    (fileActs_read strerror blake3 hopen).1 hc
  exact h n hsize hlength hpos

/-- Syncing an open file. -/
theorem fdatasync_quiet (hopen : w.disk.openFile? fd = some (o, f))
    (h : ok () { w with disk := { w.disk with
      files := w.disk.files.set o.file { f with synced := true } } }) :
    Yields (pipelineEffects strerror blake3 .none) spent ok fail
      (Files.fdatasync fd) w := by
  refine .perform (meets_file fun r disk hc => ?_)
  simp only [fileActs, hopen] at hc
  obtain ⟨rfl, rfl⟩ := hc
  exact h

/-- Syncing the directory. -/
theorem fsyncDirectory_quiet (h : ok () w) :
    Yields (pipelineEffects strerror blake3 .none) spent ok fail
      Files.fsyncDirectory w := by
  refine .perform (meets_file fun r disk hc => ?_)
  obtain ⟨rfl, rfl⟩ := hc
  exact h

/-- Taking a name away. -/
theorem unlinkAt_quiet {name : Bytes} {index : Nat}
    (hname : validateLeafName name = .ok ())
    (hentry : w.disk.targets name = some index)
    (h : ok () { w with disk := { w.disk with
      targets := Function.update w.disk.targets name none } }) :
    Yields (pipelineEffects strerror blake3 .none) spent ok fail
      (Files.unlinkAt name) w := by
  refine .perform (meets_file fun r disk hc => ?_)
  simp only [fileActs, hname, hentry] at hc
  obtain ⟨rfl, rfl⟩ := hc
  exact h

/-- Renaming to a name that is free. -/
theorem renameNoReplace_quiet {oldName newName : Bytes} {index : Nat}
    (hold : validateLeafName oldName = .ok ())
    (hnew : validateLeafName newName = .ok ())
    (hentry : w.disk.targets oldName = some index)
    (hfree : w.disk.targets newName = none)
    (h : ok () { w with disk := { w.disk with
      targets := Function.update (Function.update w.disk.targets oldName none)
        newName (some index) } }) :
    Yields (pipelineEffects strerror blake3 .none) spent ok fail
      (Files.renameNoReplace oldName newName) w := by
  refine .perform (meets_file fun r disk hc => ?_)
  simp only [fileActs, hold, hnew, hentry, hfree] at hc
  obtain ⟨rfl, rfl⟩ := hc
  exact h

end Quiet

-- ================================================================= rough

section Rough

variable {strerror : Nat → Bytes} {blake3 : Bytes → Digest} {spent : Prop}
  {trouble : Trouble} {w : Machine}

/-- One call, after whatever others have done. -/
theorem meets_rough {c : PipelineCall}
    {post : pipelineCalls.Answer c → Machine → Prop}
    (h : ∀ disk, w.disk.Disturbed trouble disk → ∀ r w',
      pipelineActs strerror blake3 trouble c { w with disk } r w' →
        post r w') :
    Meets (pipelineEffects strerror blake3 trouble) post (ask c) w := by
  rintro r w' ⟨disk, hdisk, hc⟩
  exact h disk hdisk r w' hc

/-- One call of the file system: it acts, fails or races. -/
theorem meets_file_rough {c : FileCall} {post : c.Answer → Machine → Prop}
    (h : ∀ disk, w.disk.Disturbed trouble disk → ∀ r disk',
      fileActs strerror blake3 c disk r disk'
          ∨ trouble.fails ∧ fileFails c disk r disk'
          ∨ copyRaces trouble c disk r disk' →
        post r { w with disk := disk' }) :
    @Meets pipelineCalls c.Answer Machine
      (pipelineEffects strerror blake3 trouble) post (ask (.file c)) w := by
  refine meets_rough ?_
  rintro disk hdisk r w' ⟨disk', rfl, hc⟩
  exact h disk hdisk r disk' hc

/-- One call of the repository: done, or nothing done. -/
theorem repository_rough {c : RepositoryCall} {ok : c.Value → Machine → Prop}
    {fail : Status → Machine → Prop}
    (hok : ∀ disk a db', w.disk.Disturbed trouble disk →
      (c.run : DbTxn c.Value) w.db = .ok (a, db') →
        ok a { w with disk, db := db' })
    (hfail : ∀ disk e, w.disk.Disturbed trouble disk →
      fail e { w with disk }) :
    Yields (pipelineEffects strerror blake3 trouble) spent ok fail
      (repository c) w := by
  refine .perform (meets_rough ?_)
  rintro disk hdisk r w' ⟨repo, hdb, htxn, hmemory, -, rfl, rfl⟩
  have houtcome := (repositoryCall_atomic c).outcome htxn hmemory
  simp only at hdb
  rw [hdb] at houtcome
  generalize ((c.run : RepoM c.Value) repo).2.committed = db' at houtcome ⊢
  generalize ((c.run : RepoM c.Value) repo).1 = r at houtcome ⊢
  cases houtcome with
  | done hf => exact hok disk _ _ hdisk hf
  | refused e => exact hfail disk e hdisk

/-- A file nobody modifies, behind its descriptor. -/
theorem Disk.Disturbed.openFile? {d d' : Disk} {fd : Nat} {o : OpenFile}
    {f : DiskFile} (h : d.Disturbed trouble d')
    (hopen : d.openFile? fd = some (o, f)) (hcalm : ¬trouble.disturbed o.file) :
    d'.openFile? fd = some (o, f) := by
  obtain ⟨ho, hf⟩ := Disk.openFile?_eq_some.1 hopen
  have hlt : o.file < d'.files.length := by
    rw [h.length]
    exact (List.getElem?_eq_some_iff.1 hf).1
  have hsame := (h.files o.file f _ hf
    (List.getElem?_eq_getElem hlt)).resolve_right fun hd => hcalm hd.1
  rw [Disk.openFile?_eq_some, h.opened, List.getElem?_eq_getElem hlt, hsame]
  exact ⟨ho, rfl⟩

variable {fd : Nat} {o : OpenFile} {f : DiskFile}
  {fail : Status → Machine → Prop}

/-- Asking for the identity of a file that others leave alone. -/
theorem statFd_rough {ok : FileIdentity → Machine → Prop}
    (hopen : w.disk.openFile? fd = some (o, f))
    (hcalm : ¬trouble.disturbed o.file)
    (hok : ∀ disk, w.disk.Disturbed trouble disk →
      ok f.current.identity { w with disk })
    (hfail : ∀ disk e, w.disk.Disturbed trouble disk →
      fail e { w with disk }) :
    Yields (pipelineEffects strerror blake3 trouble) spent ok fail
      (Files.statFd fd) w := by
  refine .perform (meets_file_rough ?_)
  rintro disk hdisk r disk' (hc | ⟨-, ⟨e, rfl⟩, rfl⟩ | hrace)
  · obtain ⟨rfl, rfl⟩ := (fileActs_statFd strerror blake3
      (hdisk.openFile? hopen hcalm)).1 hc
    exact hok disk' hdisk
  · exact hfail disk' e hdisk
  · exact hrace.elim

/-- Reading from a file that others leave alone. -/
theorem read_rough {size : Nat} {ok : Bytes → Machine → Prop}
    (hopen : w.disk.openFile? fd = some (o, f))
    (hcalm : ¬trouble.disturbed o.file)
    (hok : ∀ disk n, w.disk.Disturbed trouble disk → n ≤ size →
      n ≤ f.current.content.length - o.position →
      (0 < size → o.position < f.current.content.length → 0 < n) →
      ok ((f.current.content.drop o.position).take n)
        { w with disk := disk.seek fd o (o.position + n) })
    (hlong : ∀ disk chunk, w.disk.Disturbed trouble disk →
      size < chunk.length → ok chunk { w with disk })
    (hfail : ∀ disk e, w.disk.Disturbed trouble disk →
      fail e { w with disk }) :
    Yields (pipelineEffects strerror blake3 trouble) spent ok fail
      (Files.read fd size) w := by
  refine .perform (meets_file_rough ?_)
  rintro disk hdisk r disk' (hc | ⟨-, ⟨e, rfl⟩ | ⟨chunk, rfl, hsize⟩, rfl⟩ | hrace)
  · obtain ⟨n, hsize, hlength, hpos, rfl, rfl⟩ := (fileActs_read strerror
      blake3 (hdisk.openFile? hopen hcalm)).1 hc
    exact hok disk n hdisk hsize hlength hpos
  · exact hfail disk' e hdisk
  · exact hlong disk' chunk hdisk hsize
  · exact hrace.elim

end Rough

-- ============================================================ the reader

/-- A call that leaves the contents of the disk alone. -/
def PipelineCall.Reads : PipelineCall → Prop
  | .file (.openSource _ _) => True
  | .file (.statFd _) => True
  | .file (.read _ _) => True
  | .file _ => False
  | _ => True

/-- Such a call has an answer in every state. -/
theorem PipelineCall.Reads.answered {strerror : Nat → Bytes}
    {blake3 : Bytes → Digest} {c : PipelineCall} (w : Machine) (h : c.Reads) :
    ∃ r w', pipelineEffects strerror blake3 .none c w r w' := by
  suffices ∃ r w', pipelineActs strerror blake3 .none c w r w' by
    obtain ⟨r, w', hc⟩ := this
    exact ⟨r, w', quiet_iff.2 hc⟩
  cases c with
  | readPlanFile path => exact ⟨_, w, .inl rfl, rfl⟩
  | acquireLock path => exact ⟨_, w, .inl rfl, rfl⟩
  | openDatabase path => exact ⟨_, w, .inl rfl, rfl⟩
  | readManifestSourceRoot id => exact ⟨_, w, .inl rfl, rfl⟩
  | repository c =>
      exact ⟨_, _, ⟨w.db, none, false, [], none⟩, rfl, rfl, rfl,
        .inr ⟨rfl, rfl⟩, rfl, rfl⟩
  | openRoot root path => exact ⟨_, w, .inl rfl, rfl⟩
  | print text => exact ⟨_, _, rfl, rfl⟩
  | file c =>
      suffices ∃ r disk, fileActs strerror blake3 c w.disk r disk by
        obtain ⟨r, disk, hc⟩ := this
        exact ⟨r, _, disk, rfl, .inl hc⟩
      cases c with
      | openSource root path =>
          simp only [fileActs]
          cases w.disk.lookUp root path.bytes with
          | none => exact ⟨_, _, rfl, rfl⟩
          | some index => exact ⟨_, _, rfl, rfl⟩
      | statFd fd =>
          simp only [fileActs]
          cases w.disk.openFile? fd with
          | none => exact ⟨_, _, rfl, rfl⟩
          | some of => exact ⟨_, _, rfl, rfl⟩
      | read fd size =>
          simp only [fileActs]
          cases w.disk.openFile? fd with
          | none => exact ⟨_, _, rfl, rfl⟩
          | some of =>
              refine ⟨_, _, min size _, Nat.min_le_left _ _,
                Nat.min_le_right _ _, ?_, rfl, rfl⟩
              intro hsize hrest
              omega
      | _ => exact absurd h id

end PhotoBridge
