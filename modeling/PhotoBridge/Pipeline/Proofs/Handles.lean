/-
Calls on open files, as whoever has them open sees them.

Two disks are alike to a process whose descriptors are the same on both
and lead to the same files (`Disk.Alike`). A call on a descriptor then
answers the same on both, and does the same to these files
(`Disk.Alike.acts`). It touches no name, and of the files at most the one
behind the descriptor it writes to (`Disk.Handled`).
-/
import PhotoBridge.Pipeline.Proofs.Files

namespace PhotoBridge

/-- The calls on open files, of which only this one is written to. -/
def FileCall.Handles (target : Nat) : FileCall → Prop
  | .statFd _ => True
  | .read _ _ => True
  | .write fd _ => fd = target
  | .fdatasync fd => fd = target
  | .tryIoUringCopyAndHash _ fd _ => fd = target
  | _ => False

namespace Disk

/-- The files behind the descriptors, in their order. -/
def handles (d : Disk) : List Nat := d.opened.map OpenFile.file

/-- The same to whoever has these files open. -/
structure Alike (d e : Disk) : Prop where
  opened : e.opened = d.opened
  files : ∀ index ∈ d.handles, e.files[index]? = d.files[index]?

/-- No name has changed, and only this file has been touched. -/
structure Handled (d : Disk) (index : Nat) (d' : Disk) : Prop where
  sources : d'.sources = d.sources
  targets : d'.targets = d.targets
  length : d'.files.length = d.files.length
  files : ∀ i, i ≠ index → d'.files[i]? = d.files[i]?
  handles : d'.handles = d.handles

variable {strerror : Nat → Bytes} {blake3 : Bytes → Digest} {fails : Prop}
  {d d' e : Disk} {o : OpenFile} {f g : DiskFile} {content : Bytes}
  {fd index target position : Nat}

theorem mem_handles (h : d.openFile? fd = some (o, f)) : o.file ∈ d.handles :=
  List.mem_map_of_mem (List.mem_of_getElem? (openFile?_eq_some.1 h).1)

theorem seek_handles (h : d.openFile? fd = some (o, f)) (position : Nat) :
    (d.opened.set fd { o with position }).map OpenFile.file = d.handles := by
  rw [List.map_set]
  refine set_of_getElem? ?_
  rw [List.getElem?_map, (openFile?_eq_some.1 h).1]
  rfl

theorem Handled.refl (d : Disk) (index : Nat) : d.Handled index d :=
  ⟨rfl, rfl, rfl, fun _ _ => rfl, rfl⟩

theorem Handled.seek (h : d.openFile? fd = some (o, f)) (position : Nat) :
    d.Handled index (d.seek fd o position) :=
  ⟨rfl, rfl, rfl, fun _ _ => rfl, seek_handles h position⟩

/-- One file has another content. -/
theorem Handled.set (hfiles : d'.files = d.files.set index g)
    (hsources : d'.sources = d.sources) (htargets : d'.targets = d.targets)
    (hhandles : d'.handles = d.handles) : d.Handled index d' where
  sources := hsources
  targets := htargets
  length := by rw [hfiles, List.length_set]
  files i hi := by rw [hfiles, List.getElem?_set_ne hi.symm]
  handles := hhandles

namespace Alike

theorem refl (d : Disk) : d.Alike d := ⟨rfl, fun _ _ => rfl⟩

theorem openFile? (h : d.Alike e) (fd : Nat) :
    e.openFile? fd = d.openFile? fd := by
  unfold Disk.openFile?
  rw [h.opened]
  cases ho : d.opened[fd]? with
  | none => rfl
  | some o =>
      rw [Option.bind_some, Option.bind_some,
        h.files o.file (List.mem_map_of_mem (List.mem_of_getElem? ho))]

theorem seek (h : d.Alike e) (hopen : d.openFile? fd = some (o, f))
    (position : Nat) : (d.seek fd o position).Alike (e.seek fd o position) where
  opened := congrArg (·.set fd { o with position }) h.opened
  files index hindex := by
    refine h.files index ?_
    rw [← seek_handles hopen position]
    exact hindex

/-- The same file gets the same content. -/
theorem set (h : d.Alike e) (hfiles : d'.files = d.files.set index g)
    (hhandles : d'.handles = d.handles) :
    d'.Alike { e with
      files := e.files.set index g, opened := d'.opened } where
  opened := rfl
  files i hi := by
    rw [hhandles] at hi
    rw [hfiles, List.getElem?_set', List.getElem?_set', h.files i hi]

theorem writes (h : d.Alike e) (hwrites : d.Writes index f content d')
    (hhandles : d'.handles = d.handles) :
    d.Handled index d' ∧ ∃ e', e.Writes index f content e'
      ∧ e'.opened = d'.opened ∧ d'.Alike e' := by
  obtain ⟨⟨g, hfiles, hg⟩, hsources, htargets⟩ := hwrites
  exact ⟨.set hfiles hsources htargets hhandles,
    { e with files := e.files.set index g, opened := d'.opened },
    ⟨⟨g, rfl, hg⟩, rfl, rfl⟩, rfl, h.set hfiles hhandles⟩

/-- A call on open files does the same on either disk. -/
theorem acts {c : FileCall} {r : c.Answer} (h : d.Alike e)
    (hc : c.Handles target) (htarget : d.handles[target]? = some index)
    (hact : fileActs strerror blake3 c d r d' ∨ fails ∧ fileFails c d r d') :
    d.Handled index d' ∧ ∃ e', (fileActs strerror blake3 c e r e'
      ∨ fails ∧ fileFails c e r e') ∧ d'.Alike e' := by
  -- the target's descriptor stands for its file in both
  have hfile : ∀ {o f}, d.openFile? target = some (o, f) → o.file = index := by
    intro o f hopen
    rw [handles, List.getElem?_map, (openFile?_eq_some.1 hopen).1] at htarget
    exact Option.some.inj htarget
  cases c with
  -- the disks are alike to whoever asks
  | statFd fd =>
      rcases hact with hact | ⟨hfails, hr, rfl⟩
      · simp only [fileActs] at hact
        cases hopen : d.openFile? fd <;> rw [hopen] at hact <;>
          obtain ⟨rfl, rfl⟩ := hact <;> refine ⟨.refl _ _, e, .inl ?_, h⟩ <;>
          simp only [fileActs, h.openFile? fd, hopen, and_self]
      · exact ⟨.refl _ _, e, .inr ⟨hfails, hr, rfl⟩, h⟩
  | read fd size =>
      rcases hact with hact | ⟨hfails, hr, rfl⟩
      · simp only [fileActs] at hact
        cases hopen : d.openFile? fd with
        | none =>
            rw [hopen] at hact
            obtain ⟨rfl, rfl⟩ := hact
            refine ⟨.refl _ _, e, .inl ?_, h⟩
            simp only [fileActs, h.openFile? fd, hopen, and_self]
        | some found =>
            obtain ⟨o, f⟩ := found
            rw [hopen] at hact
            obtain ⟨n, hsize, hlength, hpos, rfl, rfl⟩ := hact
            refine ⟨.seek hopen _, _, .inl ?_, h.seek hopen (o.position + n)⟩
            simp only [fileActs, h.openFile? fd, hopen]
            exact ⟨n, hsize, hlength, hpos, rfl, rfl⟩
      · exact ⟨.refl _ _, e, .inr ⟨hfails, hr, rfl⟩, h⟩
  -- a write changes the target's file in both, also when it fails halfway
  | write fd data =>
      cases show fd = target from hc
      rcases hact with hact | ⟨hfails, hr, hleft⟩
      · simp only [fileActs] at hact
        cases hopen : d.openFile? target with
        | none =>
            rw [hopen] at hact
            obtain ⟨rfl, rfl⟩ := hact
            refine ⟨.refl _ _, e, .inl ?_, h⟩
            simp only [fileActs, h.openFile? target, hopen, and_self]
        | some found =>
            obtain ⟨o, f⟩ := found
            obtain rfl := hfile hopen
            rw [hopen] at hact
            obtain ⟨n, hn, hpos, rfl, hwrites, hopened⟩ := hact
            have hhandles : d'.handles = d.handles := by
              rw [handles, hopened]
              exact seek_handles hopen _
            obtain ⟨hhandled, e', hwrites', hsame, halike⟩ :=
              h.writes hwrites hhandles
            refine ⟨hhandled, e', .inl ?_, halike⟩
            simp only [fileActs, h.openFile? target, hopen]
            refine ⟨n, hn, hpos, rfl, hwrites', ?_⟩
            rw [hsame, hopened, h.opened]
      · rcases hleft with rfl | ⟨o, f, content, hopen, hwrites, hopened⟩
        · exact ⟨.refl _ _, e, .inr ⟨hfails, hr, .inl rfl⟩, h⟩
        · obtain rfl := hfile hopen
          have hhandles : d'.handles = d.handles := by rw [handles, hopened]; rfl
          obtain ⟨hhandled, e', hwrites', hsame, halike⟩ :=
            h.writes hwrites hhandles
          refine ⟨hhandled, e', .inr ⟨hfails, hr, .inr ⟨o, f, content, ?_, hwrites',
            ?_⟩⟩, halike⟩
          · rw [h.openFile? target, hopen]
          · rw [hsame, hopened, h.opened]
  -- so does a sync
  | fdatasync fd =>
      cases show fd = target from hc
      rcases hact with hact | ⟨hfails, hr, rfl⟩
      · simp only [fileActs] at hact
        cases hopen : d.openFile? target with
        | none =>
            rw [hopen] at hact
            obtain ⟨rfl, rfl⟩ := hact
            refine ⟨.refl _ _, e, .inl ?_, h⟩
            simp only [fileActs, h.openFile? target, hopen, and_self]
        | some found =>
            obtain ⟨o, f⟩ := found
            obtain rfl := hfile hopen
            rw [hopen] at hact
            obtain ⟨rfl, rfl⟩ := hact
            refine ⟨.set rfl rfl rfl rfl, _, .inl ?_, h.set rfl rfl⟩
            simp only [fileActs, h.openFile? target, hopen, h.opened, and_self]
      · exact ⟨.refl _ _, e, .inr ⟨hfails, hr, rfl⟩, h⟩
  -- the copy reads the one file and writes the other
  | tryIoUringCopyAndHash sourceFd fd size =>
      cases show fd = target from hc
      rcases hact with hact | ⟨-, hno⟩
      · simp only [fileActs] at hact
        cases hsource : d.openFile? sourceFd with
        | none =>
            rw [hsource] at hact
            exact hact.elim
        | some source =>
            cases hopen : d.openFile? target with
            | none =>
                rw [hsource, hopen] at hact
                exact hact.elim
            | some found =>
                obtain ⟨o, f⟩ := found
                obtain rfl := hfile hopen
                rw [hsource, hopen] at hact
                obtain ⟨content, hcopies, hwrites, hopened⟩ := hact
                have hhandles : d'.handles = d.handles := by
                  rw [handles, hopened]
                  rfl
                obtain ⟨hhandled, e', hwrites', hsame, halike⟩ :=
                  h.writes hwrites hhandles
                refine ⟨hhandled, e', .inl ?_, halike⟩
                simp only [fileActs, h.openFile?, hsource, hopen]
                exact ⟨content, hcopies, hwrites', by rw [hsame, hopened, h.opened]⟩
      · exact hno.elim
  | _ => exact hc.elim

end Alike

end Disk

end PhotoBridge
