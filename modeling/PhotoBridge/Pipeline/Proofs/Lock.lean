/-
Which plan ids name a lock file of their own.

Without a slash, the lock path is the locks directory followed by the id
and its suffix; without a NUL, all of it reaches `open`. The reader of
plan files takes ids with either, and a slash leads out of the directory,
a NUL onto another plan's file.
-/
import Mathlib.Data.List.TakeWhile
import PhotoBridge.Pipeline.Lock
import PhotoBridge.Plan.Proofs.Limits

namespace PhotoBridge

variable {root planId : Bytes} {layout : WorkspaceLayout}

/-- Neither a slash nor a NUL. -/
def IsFileStem (planId : Bytes) : Prop := 47 ∉ planId ∧ 0 ∉ planId

-- ================================================================= names

private theorem text_locks : text "locks" = [108, 111, 99, 107, 115] := by
  decide +kernel

private theorem text_lock : text ".lock" = [46, 108, 111, 99, 107] := by
  decide +kernel

/-- The suffix is a file stem itself. -/
private theorem isFileStem_lock : IsFileStem (text ".lock") := by
  rw [text_lock, IsFileStem]
  decide

-- ================================================================= paths

private theorem appendPath_relative {left right : Bytes} (hright : 47 ∉ right)
    (hleft : left ≠ []) (hlast : left.getLast? ≠ some 47) :
    appendPath left right = left ++ 47 :: right := by
  have hhead : right.head? ≠ some 47 := fun h =>
    hright (List.mem_of_mem_head? h)
  have hempty : left.isEmpty = false := List.isEmpty_eq_false_iff.2 hleft
  unfold appendPath
  rw [if_neg hhead, hempty, Bool.false_or, if_neg]
  simpa using hlast

/-- The locks directory is the workspace's, and ends in its name. -/
theorem fromRoot_locks (h : WorkspaceLayout.fromRoot root = .ok layout) :
    ∃ before, layout.locks = before ++ text "locks"
      ∧ (hasNul root = false → 0 ∉ before) := by
  unfold WorkspaceLayout.fromRoot at h
  split at h
  · cases h
  cases h
  have hnul : hasNul root = false → 0 ∉ root := by
    intro hroot
    simpa [hasNul] using hroot
  show ∃ before, appendPath root (text "locks") = before ++ text "locks" ∧ _
  rw [text_locks]
  unfold appendPath
  rw [if_neg (by decide)]
  split
  · exact ⟨root, rfl, hnul⟩
  · refine ⟨root ++ [47], by simp, fun hroot => ?_⟩
    simpa using hnul hroot

private theorem locks_end (h : WorkspaceLayout.fromRoot root = .ok layout) :
    layout.locks ≠ [] ∧ layout.locks.getLast? ≠ some 47 := by
  obtain ⟨before, hlocks, -⟩ := fromRoot_locks h
  rw [hlocks, text_locks]
  refine ⟨by simp, ?_⟩
  simp [List.getLast?_append]

/-- The lock path of an id without a slash. -/
theorem executionLockPath_stem
    (h : WorkspaceLayout.fromRoot root = .ok layout) (hid : 47 ∉ planId) :
    executionLockPath layout planId
      = layout.locks ++ 47 :: (planId ++ text ".lock") := by
  obtain ⟨hnonempty, hlast⟩ := locks_end h
  refine appendPath_relative ?_ hnonempty hlast
  rw [List.mem_append, not_or]
  exact ⟨hid, isFileStem_lock.1⟩

theorem cString_eq {path : Bytes} (h : 0 ∉ path) : cString path = path := by
  unfold cString
  rw [List.takeWhile_eq_self_iff]
  intro byte hbyte
  rw [bne_iff_ne]
  exact fun heq => h (heq ▸ hbyte)

/-- The lock of an id without a slash or a NUL: all of the path. -/
theorem lockFile_stem (h : WorkspaceLayout.fromRoot root = .ok layout)
    (hroot : hasNul root = false) (hid : IsFileStem planId) :
    lockFile layout planId
      = layout.locks ++ 47 :: (planId ++ text ".lock") := by
  have hname : (0 : UInt8) ∉ text "locks" := by
    rw [text_locks]
    decide
  obtain ⟨before, hlocks, hbefore⟩ := fromRoot_locks h
  unfold lockFile
  rw [executionLockPath_stem h hid.1]
  refine cString_eq ?_
  rw [hlocks]
  simp only [List.mem_append, List.mem_cons, not_or]
  exact ⟨⟨hbefore hroot, hname⟩, by decide, hid.2, isFileStem_lock.2⟩

/-- An id and the suffix make a file name exactly if the id has no slash
and no NUL. -/
theorem isFileName_lock :
    IsFileName (planId ++ text ".lock") ↔ IsFileStem planId := by
  have hlength : 5 ≤ (planId ++ text ".lock").length := by
    rw [List.length_append, text_lock]
    exact Nat.le_add_left 5 planId.length
  have hlong : ∀ {name : Bytes}, name.length < 5 →
      planId ++ text ".lock" ≠ name := by
    intro name hname heq
    rw [heq] at hlength
    exact absurd hlength (Nat.not_le.2 hname)
  constructor
  · intro h
    exact ⟨fun hmem => h.noSlash (List.mem_append_left _ hmem),
      fun hmem => h.noNul (List.mem_append_left _ hmem)⟩
  · intro h
    exact {
      nonempty := hlong (by decide)
      notDot := hlong (by decide +kernel)
      notDotDot := hlong (by decide +kernel)
      noSlash := by
        rw [List.mem_append, not_or]
        exact ⟨h.1, isFileStem_lock.1⟩
      noNul := by
        rw [List.mem_append, not_or]
        exact ⟨h.2, isFileStem_lock.2⟩ }

/-- A workspace at a relative path gives the id away. -/
theorem isFileStem_of_directChild
    (h : WorkspaceLayout.fromRoot (text "w") = .ok layout)
    (hchild : DirectChild layout.locks (executionLockPath layout planId)) :
    IsFileStem planId := by
  obtain ⟨name, hname, hpath⟩ := hchild
  have hlocks : layout.locks = text "w/locks" := by
    cases h
    decide +kernel
  obtain ⟨hnonempty, hlast⟩ := locks_end h
  have hempty : layout.locks.isEmpty = false :=
    List.isEmpty_eq_false_iff.2 hnonempty
  unfold executionLockPath appendPath at hpath
  split at hpath
  · -- an absolute path is none of a relative directory's
    next habsolute =>
    rw [hpath, hlocks] at habsolute
    cases habsolute
  · rw [hempty, Bool.false_or, if_neg (by simpa using hlast)] at hpath
    have htail := List.append_cancel_left hpath
    rw [List.cons.injEq] at htail
    rw [← htail.2] at hname
    exact isFileName_lock.1 hname

-- ================================================================== locks

/-- What is locked is the file at the path's C string. -/
theorem acquire_ok {φ : Type} {strerror : Nat → Bytes} {calls : LockCalls φ}
    {lockPath : Bytes} {fd : φ} :
    acquire strerror calls lockPath = .ok fd
      ↔ calls.openFile (cString lockPath) = .ok fd
        ∧ calls.flock fd = .ok () := by
  unfold acquire
  constructor
  · intro h
    split at h
    · cases h
    next opened hopen =>
    split at h
    · next hflock =>
      cases h
      exact ⟨hopen, hflock⟩
    · split at h
      · cases h
      · cases h
  · intro h
    simp only [h.1, h.2]

private theorem lockFile_inj {a b : Bytes}
    (hlayout : WorkspaceLayout.fromRoot root = .ok layout)
    (hroot : hasNul root = false) (ha : IsFileStem a) (hb : IsFileStem b)
    (h : lockFile layout a = lockFile layout b) : a = b := by
  rw [lockFile_stem hlayout hroot ha, lockFile_stem hlayout hroot hb] at h
  have hnames := List.append_cancel_left h
  rw [List.cons.injEq] at hnames
  exact List.append_cancel_right hnames.2

/-- Two plans whose ids name files are locked through files of their own in
the locks directory. -/
theorem acquire_apart {φ : Type} {strerror : Nat → Bytes} {calls : LockCalls φ}
    {a b : Bytes} {fdA fdB : φ}
    (hlayout : WorkspaceLayout.fromRoot root = .ok layout)
    (hroot : hasNul root = false) (ha : IsFileStem a) (hb : IsFileStem b)
    (hids : a ≠ b)
    (hfdA : acquire strerror calls (executionLockPath layout a) = .ok fdA)
    (hfdB : acquire strerror calls (executionLockPath layout b) = .ok fdB) :
    ∃ pathA pathB, calls.openFile pathA = .ok fdA
      ∧ calls.openFile pathB = .ok fdB ∧ DirectChild layout.locks pathA
      ∧ DirectChild layout.locks pathB ∧ pathA ≠ pathB := by
  obtain ⟨hopenA, -⟩ := acquire_ok.1 hfdA
  obtain ⟨hopenB, -⟩ := acquire_ok.1 hfdB
  refine ⟨_, _, hopenA, hopenB, ⟨_, isFileName_lock.2 ha, ?_⟩,
    ⟨_, isFileName_lock.2 hb, ?_⟩, fun h => hids ?_⟩
  · exact lockFile_stem hlayout hroot ha
  · exact lockFile_stem hlayout hroot hb
  · exact lockFile_inj hlayout hroot ha hb h

/-- Two plans lock files of their own, in every workspace's locks
directory, exactly if neither id holds a slash or a NUL. -/
theorem planLocks_confined (a b : FrozenPlanFile) :
    (∀ root layout, WorkspaceLayout.fromRoot root = .ok layout →
      hasNul root = false →
      DirectChild layout.locks (executionLockPath layout a.planId)
        ∧ DirectChild layout.locks (executionLockPath layout b.planId)
        ∧ (a.planId ≠ b.planId →
          lockFile layout a.planId ≠ lockFile layout b.planId))
      ↔ IsFileStem a.planId ∧ IsFileStem b.planId := by
  constructor
  · intro h
    obtain ⟨ha, hb, -⟩ := h (text "w") _ rfl (by decide +kernel)
    exact ⟨isFileStem_of_directChild rfl ha,
      isFileStem_of_directChild rfl hb⟩
  · rintro ⟨ha, hb⟩ root layout hlayout hroot
    exact ⟨⟨_, isFileName_lock.2 ha, executionLockPath_stem hlayout ha.1⟩,
      ⟨_, isFileName_lock.2 hb, executionLockPath_stem hlayout hb.1⟩,
      fun hids hfiles => hids (lockFile_inj hlayout hroot ha hb hfiles)⟩

/-- The album under two ordinary ids: both are accepted. -/
theorem planLocks_confined_album :
    ∃ bytesA bytesB a b layout,
      readFrozenPlan JsonText.strict (fun _ => .zero) bytesA = .ok a
      ∧ readFrozenPlan JsonText.strict (fun _ => .zero) bytesB = .ok b
      ∧ a.planId = text "plan-1" ∧ b.planId = text "plan-2"
      ∧ WorkspaceLayout.fromRoot (text "/w") = .ok layout
      ∧ DirectChild layout.locks (executionLockPath layout (text "plan-1"))
      ∧ DirectChild layout.locks (executionLockPath layout (text "plan-2"))
      ∧ lockFile layout (text "plan-1") ≠ lockFile layout (text "plan-2") := by
  obtain ⟨bytesA, a, ha, hidA⟩ : ∃ bytes a,
      readFrozenPlan JsonText.strict (fun _ => .zero) bytes = .ok a
        ∧ a.planId = text "plan-1" := by
    obtain ⟨lines, -, hread⟩ := album_read (isUtf8_text "plan-1")
      (by decide +kernel) (by decide +kernel)
    exact ⟨_, _, hread, rfl⟩
  obtain ⟨bytesB, b, hb, hidB⟩ : ∃ bytes b,
      readFrozenPlan JsonText.strict (fun _ => .zero) bytes = .ok b
        ∧ b.planId = text "plan-2" := by
    obtain ⟨lines, -, hread⟩ := album_read (isUtf8_text "plan-2")
      (by decide +kernel) (by decide +kernel)
    exact ⟨_, _, hread, rfl⟩
  have hstems : IsFileStem a.planId ∧ IsFileStem b.planId := by
    rw [hidA, hidB]
    unfold IsFileStem
    decide +kernel
  obtain ⟨hchildA, hchildB, hfiles⟩ :=
    (planLocks_confined a b).2 hstems (text "/w") _ rfl (by decide +kernel)
  rw [hidA] at hchildA hfiles
  rw [hidB] at hchildB hfiles
  refine ⟨_, _, a, b, _, ha, hb, hidA, hidB, rfl, hchildA, hchildB, hfiles ?_⟩
  exact (by decide +kernel : text "plan-1" ≠ text "plan-2")

/-- An id that begins with a slash locks a file outside the workspace, and
two ids that agree up to a NUL lock one file. -/
theorem planLocks_not_confined :
    (∀ planId ∈ [text "/x", text "a\x00b", text "a\x00c"], ∃ bytes file,
        readFrozenPlan JsonText.strict (fun _ => .zero) bytes = .ok file
          ∧ file.planId = planId)
      ∧ ∃ layout, WorkspaceLayout.fromRoot (text "/w") = .ok layout
        ∧ executionLockPath layout (text "/x") = text "/x.lock"
        ∧ ¬DirectChild layout.locks (executionLockPath layout (text "/x"))
        ∧ text "a\x00b" ≠ text "a\x00c"
        ∧ lockFile layout (text "a\x00b") = text "/w/locks/a"
        ∧ lockFile layout (text "a\x00c") = text "/w/locks/a" := by
  constructor
  · intro planId hplanId
    simp only [List.mem_cons, List.not_mem_nil, or_false] at hplanId
    rcases hplanId with rfl | rfl | rfl
    · obtain ⟨lines, -, hread⟩ := album_read (isUtf8_text "/x")
        (by decide +kernel) (by decide +kernel)
      exact ⟨_, _, hread, rfl⟩
    · obtain ⟨lines, -, hread⟩ := album_read (isUtf8_text "a\x00b")
        (by decide +kernel) (by decide +kernel)
      exact ⟨_, _, hread, rfl⟩
    · obtain ⟨lines, -, hread⟩ := album_read (isUtf8_text "a\x00c")
        (by decide +kernel) (by decide +kernel)
      exact ⟨_, _, hread, rfl⟩
  · refine ⟨_, rfl, by decide +kernel, ?_, by decide +kernel,
      by decide +kernel, by decide +kernel⟩
    rintro ⟨name, -, hpath⟩
    have hstart := congrArg (List.take 8) hpath
    rw [List.take_append_of_le_length (by decide +kernel)] at hstart
    exact absurd hstart (by decide +kernel)

end PhotoBridge
