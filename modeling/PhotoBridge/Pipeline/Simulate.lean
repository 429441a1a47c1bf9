/-
A machine to try the pipeline on: one answer for each call, where
nothing fails and nobody interferes.

A read moves all it can, a write everything, and the accelerated copy is
switched off, so that the plain one runs. A write gives its file a new
identity by moving its clock on; it has no answer here if that identity
was in use before (`Simulated`).
-/
import PhotoBridge.Pipeline.Proofs.Files

namespace PhotoBridge

open Concurrent

-- ============================================================= the answers

/-- The file with other bytes, a moment later. -/
def DiskFile.rewritten? (f : DiskFile) (content : Bytes) : Option DiskFile :=
  let identity := { f.current.identity with
    size := content.length.toUInt64
    ctimeNs := f.current.identity.ctimeNs + 1 }
  if h : identity.size.toNat = content.length
      ∧ identity ∉ f.versions.map (·.identity) then
    some {
      current := ⟨identity, content, h.1⟩
      past := f.versions
      distinct := List.nodup_cons.2 ⟨h.2, f.distinct⟩
      synced := false }
  else none

/-- A file without bytes. -/
def DiskFile.new (inode : UInt64) : DiskFile where
  current := ⟨⟨1, inode, 0, 0, 0, none⟩, [], rfl⟩
  past := []
  distinct := List.pairwise_singleton _ _
  synced := false

/-- What a write leaves in the file behind the descriptor. -/
def Disk.rewritten? (d : Disk) (fd : Nat) (data : Bytes) :
    Option (OpenFile × DiskFile) :=
  (d.openFile? fd).bind fun (o, f) =>
    (f.rewritten? (Overwrite.overwrite 0 f.current.content o.position data)).map
      fun g => (o, g)

variable (strerror : Nat → Bytes)

/-- The answer to a call of the file system. -/
def Disk.simulate (d : Disk) : (c : FileCall) → c.Answer × Disk
  | .openSource root path => match d.lookUp root path.bytes with
      | some index => (.ok d.opened.length, d.opening index)
      | none => (.error (statusFromErrno strerror eNOENT
          "open source relative path"), d)
  | .statFd fd => match d.openFile? fd with
      | some (_, f) => (.ok f.current.identity, d)
      | none => (.error (statusFromErrno strerror eBADF
          "fstat file descriptor"), d)
  | .read fd size => match d.openFile? fd with
      | some (o, f) =>
          let chunk := (f.current.content.drop o.position).take size
          (.ok chunk, d.seek fd o (o.position + chunk.length))
      | none => (.error (statusFromErrno strerror eBADF
          "read file descriptor"), d)
  | .createTempNoReplace name => match validateLeafName name, d.targets name with
      | .error e, _ => (.error e, d)
      | .ok (), some _ => (.error (statusFromErrno strerror eEXIST
          "create temporary file"), d)
      | .ok (), none => (.ok d.opened.length, { d with
          files := d.files ++ [.new d.files.length.toUInt64]
          targets := Function.update d.targets name (some d.files.length)
          opened := d.opened ++ [⟨d.files.length, 0⟩] })
  | .write fd data => match d.rewritten? fd data with
      | some (o, g) => (.ok data.length, { d with
          files := d.files.set o.file g
          opened := d.opened.set fd
            { o with position := o.position + data.length } })
      | none => (.error (statusFromErrno strerror eBADF
          "write file descriptor"), d)
  | .fdatasync fd => match d.openFile? fd with
      | some (o, f) => (.ok (), { d with
          files := d.files.set o.file { f with synced := true } })
      | none => (.error (statusFromErrno strerror eBADF
          "fdatasync file descriptor"), d)
  | .renameNoReplace oldName newName =>
      match validateLeafName oldName, validateLeafName newName,
        d.targets oldName, d.targets newName with
      | .error e, _, _, _ => (.error e, d)
      | .ok (), .error e, _, _ => (.error e, d)
      | .ok (), .ok (), none, _ => (.error (statusFromErrno strerror eNOENT
          "rename without replace"), d)
      | .ok (), .ok (), some _, some _ => (.error
          (statusFromErrno strerror eEXIST "rename without replace"), d)
      | .ok (), .ok (), some index, none => (.ok (), { d with
          targets := Function.update (Function.update d.targets oldName none)
            newName (some index) })
  | .unlinkAt name => match validateLeafName name, d.targets name with
      | .error e, _ => (.error e, d)
      | .ok (), none => (.error (statusFromErrno strerror eNOENT
          "unlink directory entry"), d)
      | .ok (), some _ => (.ok (), { d with
          targets := Function.update d.targets name none })
  | .fsyncDirectory => (.ok (), d)
  | .tryIoUringCopyAndHash _ _ _ => (.ok none, d)

/-- The answer to a call. -/
def Machine.simulate (c : PipelineCall) (w : Machine) :
    pipelineCalls.Answer c × Machine :=
  match c with
  | .readPlanFile path => (w.readPlanFile path, w)
  | .acquireLock _ => (.ok (), w)
  | .openDatabase _ => (.ok (), w)
  | .readManifestSourceRoot id => (w.db.readManifestSourceRoot id, w)
  | .repository c =>
      let (r, repo) := (c.run : RepoM c.Value) ⟨w.db, none, false, [], none⟩
      (r, { w with db := repo.committed })
  | .openRoot _ _ => (.ok (), w)
  | .file c =>
      let (r, disk) := w.disk.simulate strerror c
      (r, { w with disk })
  | .print text => (.ok (), { w with output := w.output ++ text })

/-- The calls that are answered as they should be. -/
def PipelineCall.Simulated (c : PipelineCall) (w : Machine) : Prop :=
  match c with
  | .file (.write fd data) => (w.disk.rewritten? fd data).isSome = true
  | .file (.tryIoUringCopyAndHash source target size) =>
      (w.disk.openFile? source).isSome = true
        ∧ (w.disk.openFile? target).isSome = true
        ∧ (ioUringArgs source target size).valid = true
  | _ => True

instance (c : PipelineCall) (w : Machine) : Decidable (c.Simulated w) := by
  unfold PipelineCall.Simulated
  split <;> infer_instance

-- ============================================================== they are runs

variable {strerror} {blake3 : Bytes → Digest}

/-- A kernel that is never asked. -/
def idleKernel : IoUring.Kernel where
  queueInit _ := 0
  submit _ _ := 0
  perform _ _ := none
  wait _ _ := .failed 0
  strerror _ := []

theorem idleKernel_honest : idleKernel.Honest :=
  ⟨nofun, nofun⟩

/-- With the accelerated path switched off nothing is copied. -/
theorem ioUringCopies_disabled {source target : Nat} {size : UInt64}
    {content content' : Bytes}
    (hvalid : (ioUringArgs source target size).valid = true) :
    IoUringCopies blake3 source target size content content' (.ok none)
      content' := by
  refine ⟨idleKernel, some (text "1"), 0, ⟨none, 0⟩, ⟨none, 0⟩, 0,
    ⟨content, content', .fresh, 0⟩, idleKernel_honest, .start, ?_, rfl⟩
  unfold IoUring.tryIoUringCopyAndHash
  rw [hvalid]
  rfl

theorem DiskFile.rewritten?_spec {f g : DiskFile} {content : Bytes}
    (h : f.rewritten? content = some g) :
    f.Becomes g ∧ g.current.content = content ∧ g.synced = false := by
  unfold DiskFile.rewritten? at h
  simp only at h
  split at h
  · cases h
    exact ⟨List.suffix_cons _ _, rfl, rfl⟩
  · cases h

theorem Disk.simulate_acts {c : FileCall} {w : Machine}
    (h : (PipelineCall.file c).Simulated w) :
    fileActs strerror blake3 c w.disk (w.disk.simulate strerror c).1
      (w.disk.simulate strerror c).2 := by
  cases c with
  | openSource root path =>
      simp only [fileActs, Disk.simulate]
      cases w.disk.lookUp root path.bytes <;> exact ⟨rfl, rfl⟩
  | statFd fd =>
      simp only [fileActs, Disk.simulate]
      cases w.disk.openFile? fd <;> exact ⟨rfl, rfl⟩
  | read fd size =>
      simp only [fileActs, Disk.simulate]
      cases w.disk.openFile? fd with
      | none => exact ⟨rfl, rfl⟩
      | some of =>
          obtain ⟨o, f⟩ := of
          have hlength : ((f.current.content.drop o.position).take size).length
              = min size (f.current.content.length - o.position) := by
            rw [List.length_take, List.length_drop]
          refine ⟨((f.current.content.drop o.position).take size).length, ?_,
            ?_, fun _ _ => ?_, ?_, rfl⟩
          · rw [hlength]
            exact Nat.min_le_left _ _
          · rw [hlength]
            exact Nat.min_le_right _ _
          · omega
          · have hsame : (f.current.content.drop o.position).take size
                = (f.current.content.drop o.position).take
                  ((f.current.content.drop o.position).take size).length := by
              rw [List.take_eq_take_iff, hlength, List.length_drop]
              omega
            exact congrArg Except.ok hsame
  | createTempNoReplace name =>
      simp only [fileActs, Disk.simulate]
      cases validateLeafName name with
      | error e => exact ⟨rfl, rfl⟩
      | ok _ =>
          cases w.disk.targets name with
          | some index => exact ⟨rfl, rfl⟩
          | none => exact ⟨.new w.disk.files.length.toUInt64, rfl, rfl, rfl⟩
  | write fd data =>
      simp only [PipelineCall.Simulated] at h
      simp only [fileActs, Disk.simulate]
      cases hopen : w.disk.openFile? fd with
      | none =>
          rw [Disk.rewritten?, hopen] at h
          cases h
      | some of =>
          obtain ⟨o, f⟩ := of
          obtain ⟨p, hp⟩ := Option.isSome_iff_exists.1 h
          have hmap := hp
          rw [Disk.rewritten?, hopen, Option.bind_some] at hmap
          obtain ⟨g, hg, rfl⟩ := Option.map_eq_some_iff.1 hmap
          obtain ⟨hbecomes, hcontent, hsynced⟩ := DiskFile.rewritten?_spec hg
          simp only [hp]
          refine ⟨data.length, Nat.le_refl _, List.length_pos_iff.2, rfl,
            ⟨⟨g, rfl, hbecomes, ?_, .inr hsynced⟩, rfl, rfl⟩, rfl⟩
          rw [List.take_length]
          exact hcontent
  | fdatasync fd =>
      simp only [fileActs, Disk.simulate]
      cases w.disk.openFile? fd <;> exact ⟨rfl, rfl⟩
  | renameNoReplace oldName newName =>
      simp only [fileActs, Disk.simulate]
      cases validateLeafName oldName with
      | error e => exact ⟨rfl, rfl⟩
      | ok _ =>
          cases validateLeafName newName with
          | error e => exact ⟨rfl, rfl⟩
          | ok _ =>
              cases w.disk.targets oldName with
              | none => exact ⟨rfl, rfl⟩
              | some index =>
                  cases w.disk.targets newName <;> exact ⟨rfl, rfl⟩
  | unlinkAt name =>
      simp only [fileActs, Disk.simulate]
      cases validateLeafName name with
      | error e => exact ⟨rfl, rfl⟩
      | ok _ => cases w.disk.targets name <;> exact ⟨rfl, rfl⟩
  | fsyncDirectory => exact ⟨rfl, rfl⟩
  | tryIoUringCopyAndHash source target size =>
      obtain ⟨hsource, htarget, hvalid⟩ := h
      obtain ⟨⟨so, sf⟩, hsource⟩ := Option.isSome_iff_exists.1 hsource
      obtain ⟨⟨o, f⟩, htarget⟩ := Option.isSome_iff_exists.1 htarget
      simp only [fileActs, hsource, htarget]
      refine ⟨f.current.content, ioUringCopies_disabled hvalid, ?_, rfl⟩
      refine ⟨⟨f, ?_, List.suffix_refl _, rfl, .inl rfl⟩, rfl, rfl⟩
      exact (set_of_getElem? (Disk.openFile?_eq_some.1 htarget).2).symm

/-- Each answer is one of those there can be, also where others could
interfere. -/
theorem Machine.simulate_effects {trouble : Trouble} (c : PipelineCall)
    (w : Machine) (h : c.Simulated w) :
    pipelineEffects strerror blake3 trouble c w (w.simulate strerror c).1
      (w.simulate strerror c).2 := by
  refine ⟨w.disk, ⟨rfl, rfl, rfl, rfl, fun i f f' hf hf' => ?_⟩, ?_⟩
  · rw [hf] at hf'
    exact .inl (Option.some.inj hf').symm
  cases c with
  | readPlanFile path => exact ⟨.inl rfl, rfl⟩
  | acquireLock path => exact ⟨.inl rfl, rfl⟩
  | openDatabase path => exact ⟨.inl rfl, rfl⟩
  | readManifestSourceRoot id => exact ⟨.inl rfl, rfl⟩
  | repository c =>
      exact ⟨⟨w.db, none, false, [], none⟩, rfl, rfl, rfl, .inr ⟨rfl, rfl⟩,
        rfl, rfl⟩
  | openRoot root path => exact ⟨.inl rfl, rfl⟩
  | file c => exact ⟨_, rfl, .inl (Disk.simulate_acts h)⟩
  | print text => exact ⟨rfl, rfl⟩

/-- A program whose calls all have an answer here has this run. -/
theorem Machine.simulate_returns {trouble : Trouble} {α : Type}
    {p : Program pipelineCalls α} {w : Machine}
    (h : p.Along PipelineCall.Simulated (fun c w => w.simulate strerror c) w) :
    Returns (pipelineEffects strerror blake3 trouble) p w
      (p.eval (fun c w => w.simulate strerror c) w).1
      (p.eval (fun c w => w.simulate strerror c) w).2 :=
  h.returns Machine.simulate_effects

end PhotoBridge
