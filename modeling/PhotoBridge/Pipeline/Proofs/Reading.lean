/-
Reading leaves everything but the open files as it was. A path that leads
to a version before leads to it afterwards, and can be opened again and
again (`openSource_version`).

Renaming and unlinking change entries of the target root, and no other
name, and no file (`Disk.Within`).
-/
import PhotoBridge.Pipeline.Proofs.Guard

namespace PhotoBridge

open Concurrent

-- =============================================================== reading

/-- Files were opened and read, and nothing else was done. -/
def Machine.Reads (w w' : Machine) : Prop :=
  ∃ opened, w' = { w with disk := { w.disk with opened } }

namespace Machine.Reads

variable {w w' w'' : Machine}

theorem refl (w : Machine) : w.Reads w := ⟨w.disk.opened, rfl⟩

theorem trans (h : w.Reads w') (h' : w'.Reads w'') : w.Reads w'' := by
  obtain ⟨_, rfl⟩ := h
  obtain ⟨opened, rfl⟩ := h'
  exact ⟨opened, rfl⟩

theorem opening (w : Machine) (index : Nat) :
    w.Reads { w with disk := w.disk.opening index } := ⟨_, rfl⟩

theorem seek (w : Machine) (fd : Nat) (o : OpenFile) (position : Nat) :
    w.Reads (w.seek fd o position) := ⟨_, rfl⟩

/-- Reading leaves the database. -/
theorem db (h : w.Reads w') : w'.db = w.db := by
  obtain ⟨opened, rfl⟩ := h
  rfl

/-- Reading leaves every version of a file. -/
theorem version? (h : w.Reads w') (root : Root) (path : Bytes) :
    w'.disk.version? root path = w.disk.version? root path := by
  obtain ⟨opened, rfl⟩ := h
  cases root <;> rfl

/-- Reading makes no path lead nowhere. -/
theorem sound (h : w.Reads w') (hw : w.disk.Sound) : w'.disk.Sound := by
  obtain ⟨opened, rfl⟩ := h
  intro root path index hlook
  refine hw root path index ?_
  cases root <;> exact hlook

end Machine.Reads

/-- The bytes that are counted are those that are reported. -/
theorem FileVersion.count_size (v : FileVersion) :
    v.content.length.toUInt64 = v.identity.size := by
  rw [← v.size]
  exact UInt64.ofNat_toNat

/-- A path that leads somewhere, and the file it leads to. -/
theorem Disk.version?_eq_some {d : Disk} {root : Root} {path : Bytes}
    {v : FileVersion} : d.version? root path = some v
      ↔ ∃ index f, d.lookUp root path = some index
        ∧ d.files[index]? = some f ∧ f.current = v := by
  unfold Disk.version?
  rw [Option.bind_eq_some_iff]
  refine exists_congr fun index => ?_
  rw [Option.map_eq_some_iff]
  exact ⟨fun ⟨hlook, f, hf, hv⟩ => ⟨f, hlook, hf, hv⟩,
    fun ⟨f, hlook, hf, hv⟩ => ⟨hlook, f, hf, hv⟩⟩

/-- A path that leads to a file leads to a version of it. -/
theorem Disk.Sound.version?_eq_none {d : Disk} (h : d.Sound) {root : Root}
    {path : Bytes} : d.version? root path = none
      ↔ d.lookUp root path = none := by
  unfold Disk.version?
  constructor
  · intro hnone
    cases hlook : d.lookUp root path with
    | none => rfl
    | some index =>
        rw [hlook, Option.bind_some, List.getElem?_eq_getElem
          (h root path index hlook)] at hnone
        cases hnone
  · intro hlook
    rw [hlook]
    rfl

-- =============================================================== entries

/-- Only these entries of the target root have changed: every other name
leads where it led, and no file has other contents. -/
structure Disk.Within (names : Bytes → Prop) (d d' : Disk) : Prop where
  sources : d'.sources = d.sources
  targets : ∀ name, ¬names name → d'.targets name = d.targets name
  contents : d'.files.map (·.current) = d.files.map (·.current)
  sound : d.Sound → d'.Sound

namespace Disk.Within

variable {names names' : Bytes → Prop} {d d' d'' : Disk}

theorem refl (names : Bytes → Prop) (d : Disk) : d.Within names d :=
  ⟨rfl, fun _ _ => rfl, rfl, id⟩

theorem trans (h : d.Within names d') (h' : d'.Within names d'') :
    d.Within names d'' where
  sources := h'.sources.trans h.sources
  targets name hname := (h'.targets name hname).trans (h.targets name hname)
  contents := h'.contents.trans h.contents
  sound hd := h'.sound (h.sound hd)

/-- More names may change. -/
theorem mono (h : d.Within names d') (hnames : ∀ name, names name → names' name) :
    d.Within names' d' :=
  ⟨h.sources, fun name hname => h.targets name (mt (hnames name) hname),
    h.contents, h.sound⟩

/-- Reading changes no name. -/
theorem of_reads {w w' : Machine} (h : w.Reads w') (names : Bytes → Prop) :
    w.disk.Within names w'.disk := by
  refine ⟨?_, fun name _ => ?_, ?_, h.sound⟩ <;>
    · obtain ⟨opened, rfl⟩ := h
      rfl

/-- The contents stay, whatever names change. -/
theorem current (h : d.Within names d') (index : Nat) :
    d'.files[index]?.map (·.current) = d.files[index]?.map (·.current) := by
  rw [← List.getElem?_map, ← List.getElem?_map, h.contents]

/-- A name that may not change leads to what it did. -/
theorem version?_target (h : d.Within names d') {name : Bytes}
    (hname : ¬names name) :
    d'.version? .target name = d.version? .target name := by
  show (d'.targets name).bind _ = (d.targets name).bind _
  rw [h.targets name hname]
  exact Option.bind_congr fun index _ => h.current index

/-- A source is as it was unless it is one of the entries. -/
theorem version?_source (h : d.Within names d') {path : Bytes}
    (hpath : ∀ name, names name → d.sources path ≠ .target name) :
    d'.version? .source path = d.version? .source path := by
  have hlook : d'.lookUp .source path = d.lookUp .source path := by
    cases hsource : d.sources path with
    | absent => simp only [Disk.lookUp, h.sources, hsource]
    | file index => simp only [Disk.lookUp, h.sources, hsource]
    | target name =>
        have hname := h.targets name fun hname => hpath name hname hsource
        simp only [Disk.lookUp, h.sources, hsource, hname]
  unfold Disk.version?
  rw [hlook]
  exact Option.bind_congr fun index _ => h.current index

end Disk.Within

/-- Entries can be set to lead to files that are there. -/
theorem Disk.Sound.retarget {d : Disk} (h : d.Sound)
    {targets : Bytes → Option Nat}
    (htargets : ∀ name index, targets name = some index →
      index < d.files.length) : ({ d with targets } : Disk).Sound := by
  intro root path index hlook
  cases root with
  | target => exact htargets path index hlook
  | source =>
      cases hsource : d.sources path with
      | absent =>
          simp only [Disk.lookUp, hsource] at hlook
          cases hlook
      | file found =>
          refine h .source path index ?_
          simp only [Disk.lookUp, hsource] at hlook ⊢
          exact hlook
      | target name =>
          simp only [Disk.lookUp, hsource] at hlook
          exact htargets name index hlook

section Entries

variable {d : Disk} {fd index : Nat} {o : OpenFile} {f : DiskFile}
  {name oldName newName : Bytes}

/-- Syncing changes no name. -/
theorem Disk.within_sync (hopen : d.openFile? fd = some (o, f)) :
    d.Within (fun _ => False)
      { d with files := d.files.set o.file { f with synced := true } } := by
  obtain ⟨-, hf⟩ := Disk.openFile?_eq_some.1 hopen
  refine ⟨rfl, fun _ _ => rfl, ?_, fun hd root path index hlook => ?_⟩
  · rw [List.map_set]
    exact set_of_getElem? (by rw [List.getElem?_map, hf]; rfl)
  · rw [List.length_set]
    refine hd root path index ?_
    cases root <;> exact hlook

/-- Taking a name away changes that name. -/
theorem Disk.within_unlink : d.Within (· = name)
    { d with targets := Function.update d.targets name none } := by
  refine ⟨rfl, fun other hother => Function.update_of_ne hother _ _, rfl,
    fun hd => hd.retarget fun other index hindex => ?_⟩
  by_cases hother : other = name
  · rw [hother, Function.update_self] at hindex
    cases hindex
  · rw [Function.update_of_ne hother] at hindex
    exact hd .target other index hindex

/-- Renaming changes two names. -/
theorem Disk.within_rename (hentry : d.targets oldName = some index) :
    d.Within (fun name => name = oldName ∨ name = newName) { d with
      targets := Function.update (Function.update d.targets oldName none)
        newName (some index) } := by
  refine ⟨rfl, fun other hother => ?_, rfl,
    fun hd => hd.retarget fun other found hfound => ?_⟩
  · rw [not_or] at hother
    show Function.update _ _ _ _ = _
    rw [Function.update_of_ne hother.2, Function.update_of_ne hother.1]
  · by_cases hnew : other = newName
    · rw [hnew, Function.update_self] at hfound
      cases hfound
      exact hd .target oldName index hentry
    · rw [Function.update_of_ne hnew] at hfound
      by_cases hold : other = oldName
      · rw [hold, Function.update_self] at hfound
        cases hfound
      · rw [Function.update_of_ne hold] at hfound
        exact hd .target other found hfound

theorem Disk.version?_target : d.version? .target name
    = (d.targets name).bind fun index => d.files[index]?.map (·.current) := rfl

/-- The removed name leads nowhere. -/
theorem Disk.version?_unlink {d' : Disk} (hd' : d' = { d with
    targets := Function.update d.targets name none }) :
    d'.version? .target name = none := by
  subst hd'
  rw [Disk.version?_target]
  simp only [Function.update_self, Option.bind_none]

/-- The old name leads nowhere, and the new one where the old one led. -/
theorem Disk.version?_rename (hentry : d.targets oldName = some index)
    (hne : oldName ≠ newName) {d' : Disk} (hd' : d' = { d with
      targets := Function.update (Function.update d.targets oldName none)
        newName (some index) }) :
    d'.version? .target oldName = none
      ∧ d'.version? .target newName = d.version? .target oldName := by
  subst hd'
  simp only [Disk.version?_target, Function.update_self,
    Function.update_of_ne hne, hentry, Option.bind_none, Option.bind_some,
    and_self]

end Entries

-- =============================================================== opening

section Opening

variable {strerror : Nat → Bytes} {blake3 : Bytes → Digest} {w : Machine}

/-- Opening a path that leads somewhere. -/
theorem openSource_version {root : Root} {path : RelativePath} {v : FileVersion}
    {ok : Nat → Machine → Prop} {fail : Status → Machine → Prop}
    (hv : w.disk.version? root path.bytes = some v)
    (h : ∀ fd f w', w.Reads w' → f.current = v →
      w'.disk.openFile? fd = some (⟨(w.disk.lookUp root path.bytes).getD 0, 0⟩, f) →
      ok fd w') :
    Yields (pipelineEffects strerror blake3 .none) False ok fail
      (Files.openSource root path) w := by
  obtain ⟨index, f, hlook, hf, hcurrent⟩ := Disk.version?_eq_some.1 hv
  refine openSource_quiet (fun index' hlook' => ?_) fun hnone => ?_
  · rw [hlook] at hlook'
    cases hlook'
    refine h _ f _ (.opening w index) hcurrent ?_
    rw [hlook]
    exact Disk.openFile?_opening hf
  · rw [hlook] at hnone
    cases hnone

end Opening

-- =============================================================== the calls

section Calls

variable {blake3 : Bytes → Digest} {uses : PipelineCall → Prop}
  {fd size : Nat}

/-- One call. -/
theorem uses_call {c : PipelineCall} (h : uses c) : (ask c).Uses uses :=
  ⟨h, fun _ => trivial⟩

/-- The loop makes no call but reads. -/
theorem verifyLoop_calls (hread : uses (.file (.read fd size))) (rounds : Nat) :
    ∀ (n : Nat) (hasher : Hasher),
      (verifyLoop fd size rounds n hasher).Uses uses := by
  induction rounds with
  | zero => exact fun _ _ => .given_up
  | succ rounds ih =>
      intro n hasher
      rw [verifyLoop]
      refine .bind (.lift (uses_call hread)) fun chunk => ?_
      refine .ite (.throw _) (.ite (.pure _) (.ite (.throw _) ?_))
      exact .bind (.ofExcept _) fun hasher => ih _ hasher

/-- A verification looks at its file, and makes no other call. -/
theorem verifyBinary_calls (hstat : uses (.file (.statFd fd)))
    (hread : uses (.file (.read fd size))) {expectedSize rounds : Nat}
    {expectedDigest : Option Digest} {hasher : Hasher} :
    (verifyBinary blake3 hasher fd expectedSize expectedDigest size
      rounds).Uses uses := by
  unfold verifyBinary
  refine .ite (.throw _) (.bind (.lift (uses_call hstat)) fun before => ?_)
  refine .bind (verifyLoop_calls hread _ _ _) fun read => ?_
  refine .bind (.lift (uses_call hstat)) fun after => ?_
  exact .ite (.throw _) (.bind (.ofExcept _) fun digest => .pure _)

end Calls

end PhotoBridge
