/-
A preparation that ends well has copied the frozen source; one that does
not has left nothing behind but its temporary file.

# The argument

The identities of a file never come back, so where the guard finds the
identity it found before, the source was the same all the time
(`Becomes.of_identity`). The invariant of the copy is therefore allowed to
be conditional: as long as the source has not been modified, the bytes in
the temporary file are those before the position of the source
(`Copied`). Whatever a disturbed read returns only has to arrive in the
temporary file and in the hasher alike. When the guard is satisfied after
the last read, the condition holds.

`Shelf` is what every call keeps, up to further modifications of the
source; `Bench` adds the positions of the two descriptors.
-/
import PhotoBridge.Copy.Proofs.Faulty
import PhotoBridge.Db.Proofs.Receipts
import PhotoBridge.Pipeline.Prepare
import PhotoBridge.Pipeline.Proofs.Guard
import PhotoBridge.Pipeline.Simulate

namespace PhotoBridge.Preparer

open Concurrent Transaction

namespace Preparation

variable (P : Preparation)

-- ============================================================== the state

/-- The temporary file, once it is there. -/
def temp : Nat := P.machine.disk.files.length

/-- Its descriptor. -/
def tempFd : Nat := P.machine.disk.opened.length

abbrev effects : Effects pipelineCalls Machine :=
  pipelineEffects P.strerror P.blake3 P.trouble

/-- What every call leaves as it was. -/
structure Frame (w : Machine) : Prop where
  receipts : w.db.receipts = P.machine.db.receipts
  targets : ∀ name, name ≠ P.key.tempName →
    w.disk.targets name = P.machine.disk.targets name
  files : ∀ index f, index ≠ P.source →
    P.machine.disk.files[index]? = some f → w.disk.files[index]? = some f

/-- Before the temporary file is there. -/
structure Start (w : Machine) (source : DiskFile) : Prop where
  frame : P.Frame w
  source : w.disk.files[P.source]? = some source
  length : w.disk.files.length = P.temp
  opened : w.disk.opened = P.machine.disk.opened

/-- The source and the temporary file. -/
structure Shelf (w : Machine) (source temp : DiskFile) : Prop where
  frame : P.Frame w
  source : w.disk.files[P.source]? = some source
  temp : w.disk.files[P.temp]? = some temp
  entry : w.disk.targets P.key.tempName = some P.temp

/-- Both files open, at these positions. -/
structure Bench (w : Machine) (source temp : DiskFile) (read written : Nat) :
    Prop extends P.Shelf w source temp where
  sourceFd : w.disk.opened[P.guard.fd]? = some ⟨P.source, read⟩
  tempFd : w.disk.opened[P.tempFd]? = some ⟨P.temp, written⟩

variable {P} {w : Machine} {d d' : Disk} {s t : DiskFile} {read written : Nat}

/-- What is known all along is known when it is given up. -/
theorem Frame.abandoned (h : P.Frame w) : P.Abandoned w where
  receipt := by
    rw [h.receipts]
    exact P.fresh
  receipts := h.receipts
  final := h.targets _ P.apart.symm
  files := h.files

/-- The source was there before the temp. -/
private theorem source_lt : P.source < P.temp := by
  have hfile := (Disk.openFile?_eq_some.1 P.opened).2
  exact (List.getElem?_eq_some_iff.1 hfile).1

/-- The guard's descriptor is open on the source. -/
private theorem source_opened :
    P.machine.disk.opened[P.guard.fd]? = some ⟨P.source, 0⟩ :=
  (Disk.openFile?_eq_some.1 P.opened).1

/-- It was opened before the temp's. -/
private theorem fd_lt : P.guard.fd < P.tempFd :=
  (List.getElem?_eq_some_iff.1 P.source_opened).1

-- ========================================================== disturbances

/-- Nobody modifies any other file. -/
theorem drift_file (h : d.Disturbed P.trouble d') {index : Nat}
    (hindex : index ≠ P.source) (hs : d.files[index]? = some s) :
    d'.files[index]? = some s := by
  have hlt : index < d'.files.length := by
    rw [h.length]
    exact (List.getElem?_eq_some_iff.1 hs).1
  have hsame := (h.files index s _ hs
    (List.getElem?_eq_getElem hlt)).resolve_right fun hd => hindex hd.1
  rw [List.getElem?_eq_getElem hlt, hsame]

/-- Others may change the source, but not take it away. -/
theorem drift_source (h : d.Disturbed P.trouble d')
    (hs : d.files[P.source]? = some s) :
    ∃ s', s.Becomes s' ∧ d'.files[P.source]? = some s' := by
  have hlt : P.source < d'.files.length := by
    rw [h.length]
    exact (List.getElem?_eq_some_iff.1 hs).1
  refine ⟨_, ?_, List.getElem?_eq_getElem hlt⟩
  rcases h.files P.source s _ hs (List.getElem?_eq_getElem hlt) with
    hsame | ⟨-, hbecomes⟩
  · rw [hsame]
    exact .refl s
  · exact hbecomes

/-- What is known all along outlives changes made by others. -/
theorem Frame.drift (h : P.Frame w) {disk : Disk}
    (hd : w.disk.Disturbed P.trouble disk) : P.Frame { w with disk } where
  receipts := h.receipts
  targets name hname := by
    rw [← h.targets name hname]
    exact congrFun hd.targets name
  files index f hindex hf := drift_file hd hindex (h.files index f hindex hf)

/-- What is known at the start outlives them. -/
theorem Start.drift (h : P.Start w s) {disk : Disk}
    (hd : w.disk.Disturbed P.trouble disk) :
    ∃ s', s.Becomes s' ∧ P.Start { w with disk } s' := by
  obtain ⟨s', hbecomes, hs'⟩ := drift_source hd h.source
  exact ⟨s', hbecomes, h.frame.drift hd, hs', hd.length.trans h.length,
    hd.opened.trans h.opened⟩

/-- What is known of the temp, while it is closed, outlives them. -/
theorem Shelf.drift (h : P.Shelf w s t) {disk : Disk}
    (hd : w.disk.Disturbed P.trouble disk) :
    ∃ s', s.Becomes s' ∧ P.Shelf { w with disk } s' t := by
  obtain ⟨s', hbecomes, hs'⟩ := drift_source hd h.source
  refine ⟨s', hbecomes, h.frame.drift hd, hs',
    drift_file hd P.source_lt.ne' h.temp, ?_⟩
  rw [← h.entry]
  exact congrFun hd.targets _

/-- What is known of both files, while they are open, outlives them. -/
theorem Bench.drift (h : P.Bench w s t read written) {disk : Disk}
    (hd : w.disk.Disturbed P.trouble disk) :
    ∃ s', s.Becomes s' ∧ P.Bench { w with disk } s' t read written := by
  obtain ⟨s', hbecomes, hshelf⟩ := h.toShelf.drift hd
  refine ⟨s', hbecomes, hshelf, ?_, ?_⟩
  · rw [← h.sourceFd]
    exact congrArg (·[P.guard.fd]?) hd.opened
  · rw [← h.tempFd]
    exact congrArg (·[P.tempFd]?) hd.opened

/-- The source, as its descriptor has it. -/
theorem Bench.sourceFile (h : P.Bench w s t read written) :
    w.disk.openFile? P.guard.fd = some (⟨P.source, read⟩, s) :=
  Disk.openFile?_eq_some.2 ⟨h.sourceFd, h.source⟩

/-- The temp, as its descriptor has it. -/
theorem Bench.tempFile (h : P.Bench w s t read written) :
    w.disk.openFile? P.tempFd = some (⟨P.temp, written⟩, t) :=
  Disk.openFile?_eq_some.2 ⟨h.tempFd, h.temp⟩

/-- Moving about in the source. -/
theorem Bench.seekSource (h : P.Bench w s t read written) (position : Nat) :
    P.Bench { w with disk := w.disk.seek P.guard.fd ⟨P.source, read⟩ position }
      s t position written where
  frame := ⟨h.frame.receipts, h.frame.targets, h.frame.files⟩
  source := h.source
  temp := h.temp
  entry := h.entry
  sourceFd := List.getElem?_set_self (List.getElem?_eq_some_iff.1 h.sourceFd).1
  tempFd := by
    rw [← h.tempFd]
    exact List.getElem?_set_ne P.fd_lt.ne

/-- After a call that changed the source and the temporary file. -/
theorem Bench.afterRace (h : P.Bench w s t read written) {s' t' : DiskFile}
    {disk : Disk} {position : Nat}
    (hfiles : disk.files = (w.disk.files.set P.source s').set P.temp t')
    (htargets : disk.targets = w.disk.targets)
    (hopened : disk.opened = w.disk.opened.set P.tempFd ⟨P.temp, position⟩) :
    P.Bench { w with disk } s' t' read position where
  frame := by
    refine ⟨h.frame.receipts, fun name hname => ?_, fun index f hindex hf => ?_⟩
    · rw [← h.frame.targets name hname]
      exact congrFun htargets name
    · -- the temporary file is none of the files there were
      have hlt : index < P.temp := (List.getElem?_eq_some_iff.1 hf).1
      show disk.files[index]? = some f
      rw [hfiles, List.getElem?_set_ne hlt.ne', List.getElem?_set_ne hindex.symm]
      exact h.frame.files index f hindex hf
  source := by
    show disk.files[P.source]? = some s'
    rw [hfiles, List.getElem?_set_ne P.source_lt.ne']
    exact List.getElem?_set_self (List.getElem?_eq_some_iff.1 h.source).1
  temp := by
    show disk.files[P.temp]? = some t'
    rw [hfiles]
    refine List.getElem?_set_self ?_
    rw [List.length_set]
    exact (List.getElem?_eq_some_iff.1 h.temp).1
  entry := by
    rw [← h.entry]
    exact congrFun htargets _
  sourceFd := by
    show disk.opened[P.guard.fd]? = _
    rw [hopened, List.getElem?_set_ne P.fd_lt.ne', h.sourceFd]
  tempFd := by
    show disk.opened[P.tempFd]? = _
    rw [hopened]
    exact List.getElem?_set_self (List.getElem?_eq_some_iff.1 h.tempFd).1

/-- After a call that wrote to the temporary file. -/
theorem Bench.afterWrite (h : P.Bench w s t read written) {t' : DiskFile}
    {disk : Disk} {position : Nat}
    (hfiles : disk.files = w.disk.files.set P.temp t')
    (htargets : disk.targets = w.disk.targets)
    (hopened : disk.opened = w.disk.opened.set P.tempFd ⟨P.temp, position⟩) :
    P.Bench { w with disk } s t' read position :=
  h.afterRace (by rw [set_of_getElem? h.source, hfiles]) htargets hopened

-- =============================================================== the calls

/-- Asking for the identity of the source. -/
theorem statFd_source {ok : FileIdentity → Machine → Prop}
    (h : P.Bench w s t read written)
    (hok : ∀ s' w', s.Becomes s' → P.Bench w' s' t read written →
      ok s'.current.identity w') :
    Yields P.effects True ok (fun _ => P.Frame) (Files.statFd P.guard.fd) w := by
  refine .perform (meets_file_rough ?_)
  rintro disk hdisk r disk' hc
  obtain ⟨s', hbecomes, h'⟩ := h.drift hdisk
  rcases hc with hc | ⟨-, ⟨e, rfl⟩, rfl⟩ | hrace
  · obtain ⟨rfl, rfl⟩ := (fileActs_statFd _ _ h'.sourceFile).1 hc
    exact hok s' _ hbecomes h'
  · exact h'.frame
  · exact hrace.elim

/-- A read of the source returns what is there at that moment, or more
than was asked for. -/
theorem read_source {size : Nat} {ok : Bytes → Machine → Prop}
    (h : P.Bench w s t read written)
    (hok : ∀ s' w' n, s.Becomes s' → n ≤ size →
      n ≤ s'.current.content.length - read →
      (0 < size → read < s'.current.content.length → 0 < n) →
      P.Bench w' s' t (read + n) written →
      ok ((s'.current.content.drop read).take n) w')
    (hlong : ∀ chunk w', size < chunk.length → P.Frame w' → ok chunk w') :
    Yields P.effects True ok (fun _ => P.Frame)
      (Files.read P.guard.fd size) w := by
  refine .perform (meets_file_rough ?_)
  rintro disk hdisk r disk' hc
  obtain ⟨s', hbecomes, h'⟩ := h.drift hdisk
  rcases hc with hc | ⟨-, ⟨e, rfl⟩ | ⟨chunk, rfl, hsize⟩, rfl⟩ | hrace
  · obtain ⟨n, hsize, hlength, hpos, rfl, rfl⟩ :=
      (fileActs_read _ _ h'.sourceFile).1 hc
    exact hok s' _ n hbecomes hsize hlength hpos (h'.seekSource (read + n))
  · exact h'.frame
  · exact hlong chunk _ hsize h'.frame
  · exact hrace.elim

/-- A write moves the beginning of the data, or reports what ends the
copy. -/
theorem write_temp {data : Bytes} {ok : Nat → Machine → Prop}
    (h : P.Bench w s t read written)
    (hok : ∀ s' t' w' n, s.Becomes s' → n ≤ data.length →
      t'.current.content = Overwrite.overwrite 0 t.current.content written
        (data.take n) →
      P.Bench w' s' t' read (written + n) → ok n w')
    (hbad : ∀ n w', n = 0 ∨ data.length < n → P.Frame w' → ok n w') :
    Yields P.effects True ok (fun _ => P.Frame)
      (Files.write P.tempFd data) w := by
  refine .perform (meets_file_rough ?_)
  rintro disk hdisk r disk' hc
  obtain ⟨s', hbecomes, h'⟩ := h.drift hdisk
  rcases hc with hc | ⟨-, hr, hleft⟩ | hrace
  · simp only [fileActs, h'.tempFile] at hc
    obtain ⟨n, hn, -, rfl, hwrites, hopened⟩ := hc
    obtain ⟨g, hfiles, -, hcontent, -⟩ := hwrites.file
    exact hok s' g _ n hbecomes hn hcontent
      (h'.afterWrite hfiles hwrites.targets hopened)
  · have hframe : P.Frame { w with disk := disk' } := by
      rcases hleft with rfl | ⟨o, f, content, hopen, hwrites, hopened⟩
      · exact h'.frame
      · rw [h'.tempFile] at hopen
        cases hopen
        obtain ⟨g, hfiles, -⟩ := hwrites.file
        have hset : disk'.opened
            = disk.opened.set P.tempFd ⟨P.temp, written⟩ := by
          rw [hopened]
          exact (set_of_getElem? h'.tempFd).symm
        exact (h'.afterWrite hfiles hwrites.targets hset).frame
    rcases hr with ⟨e, rfl⟩ | rfl | ⟨n, rfl, hn⟩
    · exact hframe
    · exact hbad 0 _ (.inl rfl) hframe
    · exact hbad n _ (.inr hn) hframe
  · exact hrace.elim

/-- Syncing the temp. -/
theorem fdatasync_temp {ok : Unit → Machine → Prop}
    (h : P.Bench w s t read written)
    (hok : ∀ s' w', s.Becomes s' →
      P.Bench w' s' { t with synced := true } read written → ok () w') :
    Yields P.effects True ok (fun _ => P.Frame)
      (Files.fdatasync P.tempFd) w := by
  refine .perform (meets_file_rough ?_)
  rintro disk hdisk r disk' hc
  obtain ⟨s', hbecomes, h'⟩ := h.drift hdisk
  rcases hc with hc | ⟨-, ⟨e, rfl⟩, rfl⟩ | hrace
  · simp only [fileActs, h'.tempFile] at hc
    obtain ⟨rfl, rfl⟩ := hc
    refine hok s' _ hbecomes (h'.afterWrite rfl rfl ?_)
    exact (set_of_getElem? h'.tempFd).symm
  · exact h'.frame
  · exact hrace.elim

/-- The temporary file is a new one. -/
theorem createTemp {ok : Nat → Machine → Prop} (h : P.Start w s)
    (hok : ∀ s' t w', s.Becomes s' → t.current.content = [] →
      P.Bench w' s' t 0 0 → ok P.tempFd w') :
    Yields P.effects True ok (fun _ => P.Frame)
      (Files.createTempNoReplace P.key.tempName) w := by
  refine .perform (meets_file_rough ?_)
  rintro disk hdisk r disk' hc
  obtain ⟨s', hbecomes, h'⟩ := h.drift hdisk
  rcases hc with hc | ⟨-, ⟨e, rfl⟩, rfl⟩ | hrace
  · simp only [fileActs] at hc
    split at hc
    · obtain ⟨rfl, rfl⟩ := hc
      exact h'.frame
    · obtain ⟨rfl, rfl⟩ := hc
      exact h'.frame
    · obtain ⟨t, hempty, rfl, rfl⟩ := hc
      have hlength : disk.files.length = P.temp := h'.length
      have hopened : disk.opened = P.machine.disk.opened := h'.opened
      have hfd : disk.opened.length = P.tempFd := congrArg List.length hopened
      rw [hfd, hlength]
      refine hok s' t _ hbecomes hempty ⟨⟨⟨h'.frame.receipts, ?_, ?_⟩,
        ?_, ?_, ?_⟩, ?_, ?_⟩
      · intro name hname
        rw [← h'.frame.targets name hname]
        exact Function.update_of_ne hname _ _
      · intro index f hindex hf
        have hlt : index < disk.files.length := by
          rw [hlength]
          exact (List.getElem?_eq_some_iff.1 hf).1
        show (disk.files ++ [t])[index]? = some f
        rw [List.getElem?_append_left hlt]
        exact h'.frame.files index f hindex hf
      · show (disk.files ++ [t])[P.source]? = some s'
        rw [List.getElem?_append_left (by rw [hlength]; exact P.source_lt)]
        exact h'.source
      · show (disk.files ++ [t])[P.temp]? = some t
        rw [← hlength, List.getElem?_concat_length]
      · exact Function.update_self ..
      · show (disk.opened ++ [_])[P.guard.fd]? = _
        rw [List.getElem?_append_left (by rw [hfd]; exact P.fd_lt), hopened]
        exact P.source_opened
      · show (disk.opened ++ [_])[P.tempFd]? = _
        rw [← hfd, List.getElem?_concat_length]
  · exact h'.frame
  · exact hrace.elim

/-- What the accelerated copy of this source has done. -/
def Accelerated (P : Preparation) (s t' : DiskFile) :
    Option CopyResult → Prop
  | none => t'.current.content = []
  | some copy =>
      copy = ⟨s.current.content.length, P.blake3 s.current.content⟩
        ∧ t'.current.content = s.current.content

/-- Arguments that are valid are accepted. -/
theorem ioUringArgs_accepted {sourceFd targetFd : Nat} {size : UInt64}
    (h : (ioUringArgs sourceFd targetFd size).valid = true) :
    (ioUringArgs sourceFd targetFd size).Accepted := by
  have hchunk : 1 ≤ 2 ^ 20 ∧ 2 ^ 20 ≤ uint32Max ∧ 1 ≤ 4 ∧ 4 ≤ 16 := by decide
  refine ⟨Int.natCast_nonneg _, Int.natCast_nonneg _, hchunk.1, hchunk.2.1,
    hchunk.2.2.1, hchunk.2.2.2, ?_⟩
  simp only [IoUring.Args.valid, Bool.not_eq_true', Bool.or_eq_false_iff,
    decide_eq_false_iff_not] at h
  exact Nat.not_lt.1 h.2

/-- A copy that was accelerated is a copy. -/
theorem accelerated_of_copies {content : Bytes} {r : Option CopyResult}
    {t' : DiskFile}
    (hsize : s.current.content.length = P.guard.manifestIdentity.size.toNat)
    (hcopies : IoUringCopies P.blake3 P.guard.fd P.tempFd
      P.guard.manifestIdentity.size s.current.content [] (.ok r) content)
    (hcontent : t'.current.content = content) : P.Accelerated s t' r := by
  obtain ⟨kernel, disabled, fuel, th, th', clock, w', hhonest, hth, hrun, rfl⟩ :=
    hcopies
  cases r with
  | none =>
      obtain ⟨rfl, -⟩ := IoUring.tryIoUringCopyAndHash_declines hrun
      exact hcontent
  | some copy =>
      have haccepted : (ioUringArgs P.guard.fd P.tempFd
          P.guard.manifestIdentity.size).Accepted := by
        by_contra hno
        unfold IoUring.tryIoUringCopyAndHash at hrun
        rw [Bool.eq_false_iff.2 (mt ioUringArgs_accepted hno)] at hrun
        cases hrun
      obtain ⟨hcopy, htarget⟩ := IoUring.tryIoUringCopyAndHash_sound hhonest hth
        haccepted hsize hrun
      exact ⟨hcopy, hcontent.trans htarget⟩

/-- The accelerated copy: what it did is known if the source was not
modified in the meantime. -/
theorem tryIoUring {ok : Option CopyResult → Machine → Prop}
    (h : P.Bench w s t 0 0) (hempty : t.current.content = [])
    (hsize : s.current.content.length = P.guard.manifestIdentity.size.toNat)
    (hok : ∀ s' t' w' r, s.Becomes s' → P.Bench w' s' t' 0 0 →
      (s'.versions = s.versions → P.Accelerated s t' r) → ok r w') :
    Yields P.effects True ok (fun _ => P.Frame)
      (Files.tryIoUringCopyAndHash P.guard.fd P.tempFd
        P.guard.manifestIdentity.size) w := by
  refine .perform (meets_file_rough ?_)
  rintro disk hdisk r disk' hc
  obtain ⟨s₁, hbecomes, h'⟩ := h.drift hdisk
  rcases hc with hc | ⟨-, hfails⟩ | hrace
  · simp only [fileActs, h'.sourceFile, h'.tempFile] at hc
    obtain ⟨content, hcopies, hwrites, hopened⟩ := hc
    obtain ⟨t', hfiles, -, hcontent, -⟩ := hwrites.file
    have hset : disk'.opened = disk.opened.set P.tempFd ⟨P.temp, 0⟩ := by
      rw [hopened]
      exact (set_of_getElem? h'.tempFd).symm
    have hbench := h'.afterWrite hfiles hwrites.targets hset
    cases r with
    | error e => exact hbench.frame
    | ok r =>
        refine hok s₁ t' _ r hbecomes hbench fun hsame => ?_
        rw [DiskFile.current_of_versions hsame, hempty] at hcopies
        exact accelerated_of_copies hsize hcopies hcontent
  · exact hfails.elim
  · obtain ⟨o, source, s₂, o', target, t', hsource, htarget, -, hbecomes',
      hdiffers, -, -, rfl⟩ := hrace
    rw [h'.sourceFile] at hsource
    rw [h'.tempFile] at htarget
    cases hsource
    cases htarget
    have hbench : P.Bench { w with disk := { disk with
        files := (disk.files.set P.source s₂).set P.temp t' } } s₂ t' 0 0 :=
      h'.afterRace rfl rfl (set_of_getElem? h'.tempFd).symm
    cases r with
    | error e => exact hbench.frame
    | ok r =>
        refine hok s₂ t' _ r (hbecomes.trans hbecomes') hbench fun hsame => ?_
        -- it was modified, and its identity tells
        have hmiddle := hbecomes.unmodified hbecomes' hsame
        rw [DiskFile.current_of_versions hsame,
          DiskFile.current_of_versions hmiddle] at hdiffers
        exact absurd rfl hdiffers

-- =============================================================== the guard

/-- The check before reading. -/
theorem verifyBeforeRead_bench {ok : MutationGuard → Machine → Prop}
    {guard : MutationGuard} (hfd : guard.fd = P.guard.fd)
    (h : P.Bench w s t read written)
    (hok : ∀ s' w', s.Becomes s' →
      s'.current.identity = guard.manifestIdentity →
      P.Bench w' s' t read written →
      ok { guard with openedIdentity := guard.manifestIdentity } w') :
    Yields P.effects True ok (fun _ => P.Frame) guard.verifyBeforeRead w := by
  obtain ⟨fd, manifestIdentity, openedIdentity⟩ := guard
  simp only at hfd
  subst hfd
  unfold MutationGuard.verifyBeforeRead
  refine .bind (statFd_source h fun s' w' hbecomes hbench => ?_)
  refine .ite (fun _ => .throw hbench.frame) fun hsame => ?_
  rw [not_not] at hsame
  rw [hsame]
  exact .pure (hok s' w' hbecomes hsame hbench)

/-- The check after reading. -/
theorem verifyAfterRead_bench {ok : Unit → Machine → Prop}
    {guard : MutationGuard} (hfd : guard.fd = P.guard.fd)
    (h : P.Bench w s t read written)
    (hok : ∀ s' w', s.Becomes s' →
      s'.current.identity = guard.openedIdentity →
      P.Bench w' s' t read written → ok () w') :
    Yields P.effects True ok (fun _ => P.Frame) guard.verifyAfterRead w := by
  unfold MutationGuard.verifyAfterRead verifyIdentity
  rw [hfd]
  refine .bind (statFd_source h fun s' w' hbecomes hbench => ?_)
  refine .ite (fun _ => .throw hbench.frame) fun hsame => ?_
  exact .pure (hok s' w' hbecomes (not_not.1 hsame) hbench)

-- ================================================================ copying

/-- Everything is written, behind what was there. -/
theorem writeAll_bench (fuel : Nat) : ∀ (bytes : Bytes) (w : Machine)
    (s t : DiskFile), bytes.length ≤ fuel →
      P.Bench w s t read t.current.content.length →
      Yields P.effects True
        (fun _ w' => ∃ s' t', s.Becomes s'
          ∧ t'.current.content = t.current.content ++ bytes
          ∧ P.Bench w' s' t' read t'.current.content.length)
        (fun _ => P.Frame) (writeAll P.tempFd fuel bytes) w := by
  induction fuel with
  | zero =>
      intro bytes w s t hle h
      have hnil : bytes = [] := List.length_eq_zero_iff.1 (Nat.le_zero.1 hle)
      rw [hnil]
      exact .pure ⟨s, t, .refl s, (List.append_nil _).symm, h⟩
  | succ fuel ih =>
      intro bytes w s t hle h
      rw [writeAll]
      refine .ite (fun hnil => ?_) fun hmore => ?_
      · rw [hnil]
        exact .pure ⟨s, t, .refl s, (List.append_nil _).symm, h⟩
      refine .bind (write_temp h (fun s₁ t₁ w₁ n hbecomes hn hcontent hbench =>
        ?_) fun n w₁ hbad hframe => ?_)
      · refine .ite (fun _ => .throw hbench.frame) fun hpos =>
          .ite (fun _ => .throw hbench.frame) fun _ => ?_
        rw [Overwrite.overwrite_length] at hcontent
        have hwritten : t.current.content.length + n
            = t₁.current.content.length := by
          rw [hcontent, List.length_append, List.length_take]
          omega
        rw [hwritten] at hbench
        refine (ih (bytes.drop n) w₁ s₁ t₁ ?_ hbench).mono ?_
          fun _ _ hframe => hframe
        · rw [List.length_drop]
          omega
        · rintro _ w₂ ⟨s₂, t₂, hbecomes', hcontent', hbench'⟩
          refine ⟨s₂, t₂, hbecomes.trans hbecomes', ?_, hbench'⟩
          rw [hcontent', hcontent, List.append_assoc, List.take_append_drop]
      · refine .ite (fun _ => .throw hframe) fun hpos => ?_
        exact .ite (fun _ => .throw hframe) fun hfits =>
          absurd (hbad.resolve_left hpos) hfits

/-- What the loop has copied, unless the source was modified: the bytes
before its position. -/
def Copied (base s t : DiskFile) : Prop :=
  s.versions = base.versions →
    t.current.content
        = base.current.content.take t.current.content.length
      ∧ t.current.content.length ≤ base.current.content.length

/-- What the loop ends with: a temporary file that was hashed as it was
written, and is the source unless that was modified. -/
theorem copyLoop_bench {base : DiskFile} {size : Nat} (hsize : 0 < size)
    (rounds : Nat) : ∀ (w : Machine) (s t : DiskFile) (hasher : Hasher),
      base.Becomes s →
      P.Bench w s t t.current.content.length t.current.content.length →
      hasher.finalized = false → hasher.updates.flatten = t.current.content →
      Copied base s t →
      Yields P.effects True
        (fun r w' => ∃ s' t', base.Becomes s'
          ∧ P.Bench w' s' t' t'.current.content.length
              t'.current.content.length
          ∧ r.1 = t'.current.content.length ∧ r.2.finalized = false
          ∧ r.2.updates.flatten = t'.current.content
          ∧ (s'.versions = base.versions →
            t'.current.content = base.current.content))
        (fun _ => P.Frame) (copyLoop P.guard.fd P.tempFd size rounds
          t.current.content.length hasher) w := by
  induction rounds with
  | zero => exact fun _ _ _ _ _ _ _ _ _ => .given_up trivial
  | succ rounds ih =>
      intro w s t hasher hbase h hfresh hhashed hcopied
      rw [copyLoop]
      refine .bind (read_source h (fun s₁ w₁ n hbecomes hn hrest hmoves hbench =>
        ?_) fun chunk w₁ hlong hframe => ?_)
      swap
      · exact .ite (fun _ => .throw hframe) fun hshort => absurd hlong hshort
      -- the chunk that was read
      have hlength : ((s₁.current.content.drop t.current.content.length).take
          n).length = n := by
        rw [List.length_take, List.length_drop]
        omega
      refine .ite (fun _ => .throw hbench.frame) fun _ => .ite (fun hempty => ?_)
        fun hmore => .ite (fun _ => .throw hbench.frame) fun _ => ?_
      · -- the end of the source, as it is now
        rw [hempty, List.length_nil] at hlength
        subst hlength
        refine .pure ⟨s₁, t, hbase.trans hbecomes, hbench, rfl, hfresh, hhashed,
          fun hsame => ?_⟩
        obtain ⟨htake, hle⟩ := hcopied (hbase.unmodified hbecomes hsame)
        rw [DiskFile.current_of_versions hsame] at hmoves
        have hdone := mt (hmoves hsize) (by omega)
        rw [htake, List.take_of_length_le (Nat.not_lt.1 hdone)]
      -- it is hashed and written, and the loop goes on from there
      · refine .bind (.ofExcept (fun hasher' hupdate => ?_) fun e _ => hbench.frame)
        simp only [Hasher.update, hfresh] at hupdate
        cases hupdate
        refine .bind ((writeAll_bench _ _ w₁ s₁ t (Nat.le_refl _) hbench).mono ?_
          fun _ _ hframe => hframe)
        rintro _ w₂ ⟨s₂, t₂, hbecomes', hcontent, hbench'⟩
        have hwritten : t₂.current.content.length
            = t.current.content.length + n := by
          rw [hcontent, List.length_append, hlength]
        rw [hlength, ← hwritten]
        rw [← hwritten] at hbench'
        refine ih w₂ s₂ t₂ _ ((hbase.trans hbecomes).trans hbecomes') hbench' rfl
          ?_ fun hsame => ?_
        · rw [List.flatten_append, hhashed, List.flatten_singleton, hcontent]
        · -- not modified now, so not modified by then
          have hsame₁ := (hbase.trans hbecomes).unmodified hbecomes' hsame
          obtain ⟨htake, hle⟩ := hcopied (hbase.unmodified hbecomes hsame₁)
          rw [DiskFile.current_of_versions hsame₁] at hcontent hrest
          rw [hwritten]
          refine ⟨?_, by omega⟩
          rw [hcontent, htake, List.length_take, Nat.min_eq_left hle,
            take_drop_append]

/-- The copy is one of this source. -/
def CopyOf (P : Preparation) (base : DiskFile) (r : CopyResult)
    (w : Machine) : Prop :=
  ∃ s t read written, base.Becomes s ∧ P.Bench w s t read written
    ∧ t.current.content = base.current.content
    ∧ r = ⟨base.current.content.length, P.blake3 base.current.content⟩

/-- The copy: the temp has what was read, and the digest is of that. -/
theorem copyAndHash_bench {size rounds : Nat} (h : P.Bench w s t 0 0)
    (hempty : t.current.content = []) :
    Yields P.effects True
      (fun r w' => ∃ s' t' read written, s.Becomes s'
        ∧ P.Bench w' s' t' read written
        ∧ (s'.versions = s.versions →
          t'.current.content = s.current.content
            ∧ r = ⟨s.current.content.length, P.blake3 s.current.content⟩))
      (fun _ => P.Frame) (copyAndHash P.blake3 .fresh P.guard.fd P.tempFd size
        rounds) w := by
  unfold copyAndHash
  refine .ite (fun _ => .throw h.frame) fun hsize => ?_
  have hlength : t.current.content.length = 0 := by
    rw [hempty]
    rfl
  have hcopied : Copied s s t := by
    intro _
    rw [hempty]
    exact ⟨rfl, Nat.zero_le _⟩
  have hloop := copyLoop_bench (Nat.pos_of_ne_zero hsize) rounds w s t .fresh
    (.refl s) (by rw [hlength]; exact h) rfl hempty.symm hcopied
  rw [hlength] at hloop
  refine .bind (hloop.mono ?_ fun _ _ hframe => hframe)
  rintro ⟨bytesCopied, hasher⟩ w' ⟨s', t', hbecomes, hbench, rfl, hfresh,
    hflat, hsame⟩
  refine .bind (.ofExcept (fun digest hdigest => ?_) fun e _ => hbench.frame)
  simp only at hfresh hflat
  simp only [Hasher.finalize, hfresh, hflat] at hdigest
  cases hdigest
  refine .pure ⟨s', t', _, _, hbecomes, hbench, fun hversions => ?_⟩
  rw [hsame hversions]
  exact ⟨rfl, rfl⟩

/-- The plain copy of a source that has the frozen identity, if nothing
was written for it. -/
theorem guardedCopyAndHash_bench {base : DiskFile} {guard : MutationGuard}
    {size rounds : Nat} (hfd : guard.fd = P.guard.fd)
    (hidentity : base.current.identity = guard.manifestIdentity)
    (hbase : base.Becomes s) (h : P.Bench w s t 0 0)
    (hempty : s.versions = base.versions → t.current.content = []) :
    Yields P.effects True (P.CopyOf base) (fun _ => P.Frame)
      (guardedCopyAndHash P.blake3 .fresh guard P.tempFd size rounds) w := by
  unfold guardedCopyAndHash
  refine .bind (verifyBeforeRead_bench hfd h
    fun s₁ w₁ hbecomes hsame hbench => ?_)
  have hbase₁ := hbase.trans hbecomes
  have hversions := hbase₁.of_identity (hsame.trans hidentity.symm)
  have hcurrent := DiskFile.current_of_versions hversions
  have hnothing := hempty (hbase.unmodified hbecomes hversions)
  simp only [hfd]
  refine .bind ((copyAndHash_bench hbench hnothing).mono ?_
    fun _ _ hframe => hframe)
  rintro r w₂ ⟨s₂, t₂, _, _, hbecomes₂, hbench₂, hcopy⟩
  refine .bind (verifyAfterRead_bench rfl hbench₂
    fun s₃ w₃ hbecomes₃ hafter hbench₃ => ?_)
  have hunmodified := (hbecomes₂.trans hbecomes₃).of_identity
    (hafter.trans hsame.symm)
  obtain ⟨hcontent, hr⟩ := hcopy (hbecomes₂.unmodified hbecomes₃ hunmodified)
  rw [hcurrent] at hcontent hr
  exact .pure ⟨s₃, t₂, _, _, hbase₁.trans (hbecomes₂.trans hbecomes₃), hbench₃,
    hcontent, hr⟩

/-- The copy between the two checks of the source. -/
theorem copySource_bench {size rounds : Nat} {guard : MutationGuard}
    (hguard : guard = { P.guard with
      openedIdentity := P.guard.manifestIdentity })
    (hidentity : s.current.identity = P.guard.manifestIdentity)
    (h : P.Bench w s t 0 0) (hempty : t.current.content = []) :
    Yields P.effects True (P.CopyOf s) (fun _ => P.Frame)
      (copySource P.blake3 guard P.tempFd size rounds) w := by
  subst hguard
  have hsize : s.current.content.length
      = P.guard.manifestIdentity.size.toNat := by
    rw [← hidentity, s.current.size]
  unfold copySource
  refine .bind (tryIoUring h hempty hsize
    fun s₁ t₁ w₁ r hbecomes hbench hdone => ?_)
  cases r with
  | none => exact guardedCopyAndHash_bench rfl hidentity hbecomes hbench hdone
  | some copy =>
      refine .bind (verifyAfterRead_bench rfl hbench
        fun s₂ w₂ hbecomes₂ hafter hbench₂ => ?_)
      have hunmodified := (hbecomes.trans hbecomes₂).of_identity
        (hafter.trans hidentity.symm)
      obtain ⟨hcopy, hcontent⟩ :=
        hdone (hbecomes.unmodified hbecomes₂ hunmodified)
      exact .pure ⟨s₂, t₁, _, _, hbecomes.trans hbecomes₂, hbench₂, hcontent,
        hcopy⟩

-- ============================================================ the database

/-- Marking the intent stores no receipt. -/
theorem markCommitIntent_receipts {planId taskId attemptId : Bytes}
    {epoch : Nat} {db db' : Db} {u : Unit}
    (h : (Repository.markCommitIntent planId taskId epoch attemptId :
      DbTxn Unit) db = .ok (u, db')) : db'.receipts = db.receipts := by
  obtain ⟨_, -, h⟩ := liftCheck_bind_ok.1 h
  obtain ⟨_, -, h⟩ := liftCheck_bind_ok.1 h
  obtain ⟨-, -, _, -, ⟨-, rfl⟩ | ⟨-, -, -, rfl⟩⟩ := advanceAttemptBody_ok.1 h
  · rfl
  · rfl

/-- Marking the temp stores no receipt. -/
theorem markTempWritten_receipts {planId taskId attemptId : Bytes}
    {epoch : Nat} {db db' : Db} {u : Unit}
    (h : (Repository.markTempWritten planId taskId epoch attemptId :
      DbTxn Unit) db = .ok (u, db')) : db'.receipts = db.receipts := by
  obtain ⟨_, -, h⟩ := liftCheck_bind_ok.1 h
  obtain ⟨_, -, h⟩ := liftCheck_bind_ok.1 h
  obtain ⟨-, -, _, -, ⟨-, rfl⟩ | ⟨-, -, -, rfl⟩⟩ := advanceAttemptBody_ok.1 h
  · rfl
  · rfl

/-- A receipt that was stored is read back. -/
theorem persistVerifiedReceipt_read {planId : Bytes}
    {receipt : VerifiedReceipt} {db db' : Db} {u : Unit}
    (h : (Repository.persistVerifiedReceipt planId receipt : DbTxn Unit) db
      = .ok (u, db')) :
    (Repository.readVerifiedReceipt planId receipt.taskId receipt.attemptId :
      DbTxn VerifiedReceipt) db' = .ok (receipt, db') := by
  obtain ⟨⟨source, identity⟩, hcheck, h⟩ := liftCheck_bind_ok.1 h
  exact liftCheck_bind_ok.2
    ⟨(), checkReceipt_key hcheck, (persistBody_stores hcheck h).read⟩

/-- What is known all along outlives a change of the database that stores
no receipt. -/
theorem Frame.stored (h : P.Frame w) {db : Db}
    (hreceipts : db.receipts = w.db.receipts) : P.Frame { w with db } :=
  ⟨hreceipts.trans h.receipts, h.targets, h.files⟩

-- ============================================================ the read-back

/-- The temporary file is found under its name. -/
theorem openTemp {path : RelativePath} (hpath : path.bytes = P.key.tempName)
    (h : P.Shelf w s t) {ok : Nat → Machine → Prop}
    (hok : ∀ s' w' fd, s.Becomes s' → P.Shelf w' s' t →
      w'.disk.openFile? fd = some (⟨P.temp, 0⟩, t) → ok fd w') :
    Yields P.effects True ok (fun _ => P.Frame)
      (Files.openSource .target path) w := by
  refine .perform (meets_file_rough ?_)
  rintro disk hdisk r disk' hc
  obtain ⟨s', hbecomes, h'⟩ := h.drift hdisk
  rcases hc with hc | ⟨-, ⟨e, rfl⟩, rfl⟩ | hrace
  · have hentry : disk.lookUp .target path.bytes = some P.temp := by
      rw [hpath]
      exact h'.entry
    simp only [fileActs, hentry] at hc
    obtain ⟨rfl, rfl⟩ := hc
    refine hok s' _ _ hbecomes ⟨⟨h'.frame.receipts, h'.frame.targets,
      h'.frame.files⟩, h'.source, h'.temp, h'.entry⟩ ?_
    exact Disk.openFile?_opening h'.temp
  · exact h'.frame
  · exact hrace.elim

/-- The shelf, with a source that may have been modified further. -/
theorem lasting_shelf (base t : DiskFile) (fd : Nat) :
    Lasting P.trouble fd fun w => ∃ s, base.Becomes s ∧ P.Shelf w s t where
  drifts := by
    rintro w disk hdisk ⟨s, hbase, h⟩
    obtain ⟨s', hbecomes, h'⟩ := h.drift hdisk
    exact ⟨s', hbase.trans hbecomes, h'⟩
  seeks := by
    rintro w o position ⟨s, hbase, h⟩
    exact ⟨s, hbase, ⟨h.frame.receipts, h.frame.targets, h.frame.files⟩,
      h.source, h.temp, h.entry⟩

/-- The temp read back has the frozen bytes. -/
theorem verifyTemp_shelf {base : DiskFile} {guard : MutationGuard}
    {copy : CopyResult} {size rounds : Nat}
    (hidentity : base.current.identity = P.guard.manifestIdentity)
    (hbase : base.Becomes s) (h : P.Shelf w s t) (hsynced : t.synced = true)
    (hcontent : t.current.content = base.current.content)
    (hcopy : copy = ⟨base.current.content.length,
      P.blake3 base.current.content⟩) :
    Yields P.effects True P.Prepared (fun _ => P.Frame)
      (verifyTemp P.blake3 guard P.asset P.key copy size rounds) w := by
  have hcalm : ¬P.trouble.disturbed P.temp := P.source_lt.ne'
  unfold verifyTemp
  refine .bind (.ofExcept (fun path hpath => ?_) fun e _ => h.frame)
  refine .bind (openTemp (RelativePath.parse_bytes hpath) h
    fun s₁ w₁ fd hbecomes hshelf hopen => ?_)
  refine .bind ((verifyBinary_rough (lasting_shelf base t fd) hopen hcalm rfl
    ⟨s₁, hbase.trans hbecomes, hshelf⟩).mono ?_ ?_)
  swap
  · rintro e w₂ ⟨s₂, -, hshelf₂⟩
    exact hshelf₂.frame
  rintro verification w₂ ⟨rfl, s₂, hbase₂, hshelf₂⟩
  refine .ite (fun _ => .throw hshelf₂.frame) fun _ => ?_
  refine .bind (repository_rough (fun disk _ db' hdisk hpersist => ?_)
    fun disk e hdisk => hshelf₂.frame.drift hdisk)
  obtain ⟨s₃, hbecomes₃, hshelf₃⟩ := hshelf₂.drift hdisk
  refine .pure ⟨s₃, t, base.current, P.temp, hshelf₃.source, ?_,
    hidentity.trans P.frozen, hshelf₃.entry, hshelf₃.temp, hcontent, hsynced,
    ?_, ?_, ?_, persistVerifiedReceipt_read hpersist⟩
  · exact (hbase₂.trans hbecomes₃).subset List.mem_cons_self
  · show copy.bytesCopied.toUInt64 = _
    rw [hcopy, ← P.frozen, ← hidentity]
    show base.current.content.length.toUInt64 = _
    rw [← base.current.size]
    exact UInt64.ofNat_toNat
  · show some copy.sourceDigest = _
    rw [hcopy]
  · show P.blake3 t.current.content = _
    rw [hcontent]

-- ================================================================ together

/-- How a preparation starts. -/
theorem start : P.Start P.machine P.file where
  frame := ⟨rfl, fun _ _ => rfl, fun _ _ _ h => h⟩
  source := (Disk.openFile?_eq_some.1 P.opened).2
  length := rfl
  opened := rfl

/-- Whatever it comes to is right, and what is known all along holds. -/
theorem prepare_yields (P : Preparation) (size rounds : Nat) :
    Yields P.effects True P.Prepared (fun _ => P.Frame)
      (prepare P.blake3 P.guard P.asset P.key size rounds) P.machine := by
  unfold prepare
  refine .ite (fun _ => .throw P.start.frame) fun _ =>
    .ite (fun _ => .throw P.start.frame) fun _ => ?_
  refine .bind (repository_rough (fun disk _ db hdisk hmark => ?_)
    fun disk e hdisk => P.start.frame.drift hdisk)
  obtain ⟨s₁, -, hstart⟩ := P.start.drift hdisk
  have hstart₁ : P.Start { P.machine with disk, db } s₁ :=
    ⟨hstart.frame.stored (markCommitIntent_receipts hmark), hstart.source,
      hstart.length, hstart.opened⟩
  refine .bind (createTemp hstart₁ fun s₂ t₂ w₂ _ hempty hbench => ?_)
  refine .bind (verifyBeforeRead_bench rfl hbench
    fun base w₃ _ hidentity hbench₃ => ?_)
  refine .bind ((copySource_bench rfl hidentity hbench₃ hempty).mono ?_
    fun _ _ hframe => hframe)
  rintro copy w₄ ⟨s₄, t₄, _, _, hbase, hbench₄, hcontent, hcopy⟩
  refine .bind (fdatasync_temp hbench₄ fun s₅ w₅ hbecomes hbench₅ => ?_)
  refine .bind (repository_rough (fun disk₅ _ db₅ hdisk₅ hmark₅ => ?_)
    fun disk₅ e hdisk₅ => hbench₅.frame.drift hdisk₅)
  obtain ⟨s₆, hbecomes₆, hshelf⟩ := hbench₅.toShelf.drift hdisk₅
  exact verifyTemp_shelf hidentity
    ((hbase.trans hbecomes).trans hbecomes₆)
    ⟨hshelf.frame.stored (markTempWritten_receipts hmark₅), hshelf.source,
      hshelf.temp, hshelf.entry⟩ rfl hcontent hcopy

end Preparation

/-- Whatever fails and whoever modifies the source: a preparation that
ends well has the frozen bytes in a synced temporary file and their
receipt in the database, and one that ends in an error has no receipt and
has not touched the final path. -/
theorem prepare_sound (P : Preparation) (size rounds : Nat)
    {r : Option (Except Status VerifiedReceipt)} {w : Machine}
    (hrun : P.Runs size rounds r w) :
    (∀ receipt, r = some (.ok receipt) → P.Prepared receipt w)
      ∧ ∀ e, r = some (.error e) → P.Abandoned w := by
  have hend := Meets.returns (P.prepare_yields size rounds) hrun
  constructor
  · rintro receipt rfl
    exact hend
  · rintro e rfl
    exact Preparation.Frame.abandoned hend

-- ================================================================== a run

theorem sun_parsed : checkRelativePath (text "f") = .ok [text "f"] := by
  decide

/-- A photo of three bytes, and a claimed task for it. -/
def sunPreparation : Preparation where
  strerror _ := []
  blake3 bytes := if bytes = text "sun" then ⟨List.replicate 32 1, rfl⟩
    else .zero
  machine := {
    disk := {
      files := [⟨⟨⟨1, 2, 3, -4, 5, some 6⟩, text "sun", by decide +kernel⟩, [],
        List.pairwise_singleton _ _, true⟩]
      sources := fun _ => .file 0
      targets := fun _ => none
      opened := [⟨0, 0⟩] }
    db := { Db.empty with
      migrations := [⟨text "m", [], [], 1⟩]
      plans := [⟨text "p", text "m", [], .zero, .zero, 1⟩]
      tasks := [⟨text "p", text "t", text "t", .migrateFile, .running, some 1,
        some (text "a"), 1, text "f", 3, none, none⟩]
      attempts := [newAttemptRow (text "p") (text "t") (text "a") 1] }
    planFiles := fun _ => none
    output := [] }
  guard := ⟨0, ⟨1, 2, 3, -4, 5, some 6⟩, ⟨1, 2, 3, -4, 5, some 6⟩⟩
  asset := {
    logicalAssetId := text "l"
    sourceAssetId := text "s"
    sourcePath := ⟨text "f", [text "f"], sun_parsed⟩
    targetPath := ⟨text "f", [text "f"], sun_parsed⟩
    sourceIdentity := ⟨1, 2, 3, -4, 5, some 6⟩ }
  key := ⟨text "p", text "t", 1, text "a", text "temp"⟩
  source := 0
  file := ⟨⟨⟨1, 2, 3, -4, 5, some 6⟩, text "sun", by decide +kernel⟩, [],
    List.pairwise_singleton _ _, true⟩
  opened := rfl
  frozen := rfl
  fresh := rfl
  apart := by decide +kernel

/-- The run of it in which nothing happens, with a buffer of two bytes. -/
def sunRun : Option (Except Status VerifiedReceipt) × Machine :=
  (prepare sunPreparation.blake3 sunPreparation.guard sunPreparation.asset
    sunPreparation.key 2 3).program.eval
      (fun c w => w.simulate sunPreparation.strerror c) sunPreparation.machine

private theorem sunRun_runs : sunPreparation.Runs 2 3 sunRun.1 sunRun.2 :=
  Machine.simulate_returns (by decide +kernel)

/-- It ends well, and the temporary file is what it should be. -/
theorem prepare_sound_sun : ∃ receipt,
    sunRun.1 = some (.ok receipt)
      ∧ sunPreparation.Prepared receipt sunRun.2 := by
  have hsound := prepare_sound sunPreparation 2 3 sunRun_runs
  have hend : (sunRun.1.bind (·.toOption)).isSome = true := by
    decide +kernel
  cases hrun : sunRun.1 with
  | none =>
      rw [hrun] at hend
      cases hend
  | some result =>
      cases result with
      | error e =>
          rw [hrun] at hend
          cases hend
      | ok receipt => exact ⟨receipt, rfl, hsound.1 receipt hrun⟩

end PhotoBridge.Preparer
