/-
The PUT handler's system calls among other threads: each keeps the
invariant, disturbs nobody and leaves every published file alone, given
what the handler knows of the file it works on.
-/
import PhotoBridge.Upload.Proofs.Custody

namespace PhotoBridge.Upload

open Concurrent SharedConnection

-- ================================================================ disks

namespace Disk

variable {disk : Disk} {path p : Path} {i : Inode}

theorem unlink_files_self : (disk.unlink path).files path = none :=
  Function.update_self ..

theorem unlink_files_ne (h : p ≠ path) :
    (disk.unlink path).files p = disk.files p := Function.update_of_ne h ..

private theorem unlink_files_some (h : (disk.unlink path).files p = some i) :
    disk.files p = some i := by
  by_cases hp : p = path
  · subst hp
    rw [unlink_files_self] at h
    cases h
  · rwa [unlink_files_ne hp] at h

theorem unlink_synced_ne (h : p ≠ path) :
    (disk.unlink path).synced p = disk.synced p := Function.update_of_ne h ..

theorem link_files_self : (disk.link path i).files path = some i :=
  Function.update_self ..

theorem link_files_ne (h : p ≠ path) :
    (disk.link path i).files p = disk.files p := Function.update_of_ne h ..

private theorem link_synced_ne (h : p ≠ path) :
    (disk.link path i).synced p = disk.synced p := Function.update_of_ne h ..

private theorem create_content_ne (h : i ≠ disk.next) :
    (disk.create path).content i = disk.content i :=
  Function.update_of_ne h ..

theorem append_content_self {data : Bytes} :
    (disk.append i data).content i = disk.content i ++ data :=
  Function.update_self ..

private theorem append_content_ne {file : Inode} {data : Bytes} (h : i ≠ file) :
    (disk.append file data).content i = disk.content i :=
  Function.update_of_ne h ..

end Disk

namespace World

variable {τ : Type} {terms : Terms} {blake3 : Bytes → Digest}
  {quota : UploadQuota} {faulty : Bool} {t u : τ} {w w' : World τ}
  {s f : Bytes}

/-- What thread `u` counts on of the disk. -/
structure DiskRely (terms : Terms) (u : τ) (w : World τ) (disk' : Disk) :
    Prop where
  inode : ∀ i, w.author i = some u → disk'.content i = w.disk.content i
    ∧ ∀ path, disk'.files path = some i → w.disk.files path = some i
  finals : ∀ s x i, w.disk.files (finalPath s x) = some i →
    disk'.files (finalPath s x) = some i
      ∧ disk'.content i = w.disk.content i
  synced : ∀ s x i, w.disk.files (finalPath s x) = some i →
    w.disk.synced (finalPath s x) = true →
      disk'.synced (finalPath s x) = true
  target : ∀ row ∈ w.db.files, w.holder row.sessionId row.fileId = some u →
    w.disk.files row.final = none → disk'.files row.final = none
  temp : ∀ s f, w.holder s f = some u →
    disk'.files (tempPath s f) = w.disk.files (tempPath s f)
      ∨ terms.exclusive (s, f) = false ∧ disk'.files (tempPath s f) = none
  directories : disk'.directories = w.disk.directories

/-- Others' calls leave what they must to a thread. -/
theorem Calls.rely {c : SystemCall} {r : c.Answer}
    (h : Calls faulty t c w r w') (hw : Sound terms blake3 quota w)
    (hdisk : DiskRely terms u w w'.disk) : Rely terms u w w' := by
  have hdb : w'.db = w.db := congrArg Link.committed h.apart.link
  refine ⟨fun s f => by rw [h.apart.holder], ?_, ?_, fun i hi => ⟨?_, hdisk.inode i hi⟩,
    hdisk.finals, hdisk.synced, hdisk.target, hdisk.temp,
    fun _ => hdisk.directories, by rw [h.started]⟩
  · rw [hdb]
    exact fun row hrow => ⟨row, hrow, .refl row⟩
  · rw [hdb]
    exact fun row hrow _ => hrow
  · rw [h.author, authorAfter, if_neg]
    · exact hi
    · rintro ⟨hge, -⟩
      exact absurd (hw.authors i u hi) (Nat.not_lt.2 hge)

/-- A call leaves the others what it must. -/
theorem Calls.guar {c : SystemCall} {r : c.Answer}
    (h : Calls faulty t c w r w') (hw : Sound terms blake3 quota w)
    (hrely : ∀ u, u ≠ t → DiskRely terms u w w'.disk)
    (hfinals : ∀ s x i, w.disk.files (finalPath s x) = some i →
      w'.disk.files (finalPath s x) = some i
        ∧ w'.disk.content i = w.disk.content i)
    (htouch : ∀ s f, terms.exclusive (s, f) = true →
      w.Touches (.inr c) (tempPath s f) → w.holder s f = some t) :
    Guar terms t (.inr c) w w' := by
  exact ⟨fun u hu => h.rely hw (hrely u hu), h.apart.keeps hfinals, htouch⟩

section

variable [DecidableEq τ]

/-- A call that leaves the disk leaves everything to the others. -/
theorem Guar.still {c : SystemCall} {r : c.Answer}
    (h : Acts faulty t (.inr c) w r w') (hw : Sound terms blake3 quota w)
    (hdisk : w'.disk = w.disk) : w' = w :=
  (h.system hw).still hdisk

-- =============================================================== unlink

omit [DecidableEq τ] in
/-- Taking a temp away leaves the finals. -/
theorem unlinked_finals {disk : Disk} {s' x : Bytes} {i : Inode}
    (hi : disk.files (finalPath s' x) = some i) :
    (disk.unlink (tempPath s f)).files (finalPath s' x) = some i
      ∧ (disk.unlink (tempPath s f)).content i = disk.content i :=
  ⟨(Disk.unlink_files_ne tempPath_ne_finalPath.symm).trans hi, rfl⟩

omit [DecidableEq τ] in
/-- A world one of whose temporary names was taken away. -/
theorem Apart.unlinked (h : Apart w w') (hw : Sound terms blake3 quota w)
    (hdisk : w'.disk = w.disk.unlink (tempPath s f))
    (hauthor : w'.author = w.author) : Sound terms blake3 quota w' := by
  refine h.sound hw ?_ ?_ ?_ ?_ ?_
  · rw [hdisk]
    exact fun path i hi => hw.files path i (Disk.unlink_files_some hi)
  · rw [hauthor, hdisk]
    exact hw.authors
  · rw [hdisk]
    exact fun _ _ => Disk.unlink_files_ne tempPath_ne_finalPath.symm
  · rw [hdisk]
    exact fun _ _ _ _ => rfl
  · rw [hdisk]
    exact fun _ _ hs =>
      (Disk.unlink_synced_ne tempPath_ne_finalPath.symm).trans hs

omit [DecidableEq τ] in
/-- A temporary name taken away. -/
theorem unlink_rely
    (hmay : terms.exclusive (s, f) = true → w.holder s f = some t)
    (hu : u ≠ t) : DiskRely terms u w (w.disk.unlink (tempPath s f)) where
  inode := fun i _ => ⟨rfl, fun path hp => Disk.unlink_files_some hp⟩
  finals := fun _ _ _ => unlinked_finals
  synced := fun s' x i _ hs =>
    (Disk.unlink_synced_ne tempPath_ne_finalPath.symm).trans hs
  target := fun row _ _ hnone =>
    (Disk.unlink_files_ne tempPath_ne_finalPath.symm).trans hnone
  temp := by
    intro s' f' hheld
    by_cases hp : tempPath s' f' = tempPath s f
    · obtain ⟨rfl, rfl⟩ := tempPath_inj hp
      right
      refine ⟨?_, Disk.unlink_files_self⟩
      cases hx : terms.exclusive (s', f') with
      | false => rfl
      | true =>
          rw [hmay hx] at hheld
          exact absurd (Option.some.inj hheld).symm hu
    · exact .inl (Disk.unlink_files_ne hp)
  directories := rfl

/-- A thread may take its own temp away. -/
theorem Acts.unlinks {c : SystemCall} {r : c.Answer}
    (h : Acts faulty t (.inr c) w r w')
    (hc : c = .remove (tempPath s f) ∨ c = .unlink (tempPath s f))
    (hw : Sound terms blake3 quota w)
    (hmay : terms.exclusive (s, f) = true → w.holder s f = some t) :
    Sound terms blake3 quota w' ∧ Guar terms t (.inr c) w w'
      ∧ (w'.disk = w.disk.unlink (tempPath s f)
        ∨ w'.disk = w.disk ∧ faulty = true) := by
  have hcalls := h.system hw
  have hdisk : w'.disk = w.disk.unlink (tempPath s f)
      ∨ w'.disk = w.disk ∧ faulty = true := by
    rcases hc with rfl | rfl
    · exact hcalls.disk
    · exact hcalls.disk
  have htouch : ∀ s' f', terms.exclusive (s', f') = true →
      w.Touches (.inr c) (tempPath s' f') → w.holder s' f' = some t := by
    intro s' f' hx htouches
    have hpath : tempPath s f = tempPath s' f' := by
      rcases hc with rfl | rfl
      · exact htouches
      · exact htouches
    obtain ⟨rfl, rfl⟩ := tempPath_inj hpath
    exact hmay hx
  rcases hdisk with hdisk | ⟨hdisk, hfaulty⟩
  · refine ⟨hcalls.apart.unlinked hw hdisk ?_,
      hcalls.guar hw (fun u hu => ?_) ?_ htouch, .inl hdisk⟩
    · rw [hcalls.author]
      exact authorAfter_same (by rw [hdisk]; rfl)
    · rw [hdisk]
      exact unlink_rely hmay hu
    · rw [hdisk]
      exact fun _ _ _ => unlinked_finals
  · have hsame := hcalls.still hdisk
    subst hsame
    exact ⟨hw, ⟨fun u _ => .refl _, .refl _, htouch⟩, .inr ⟨rfl, hfaulty⟩⟩

-- ================================================================= open

/-- The temporary file made by the thread that holds the file. -/
theorem Acts.opens {r : Option Inode}
    (h : Acts faulty t (.inr (.openExclusive (tempPath s f))) w r w')
    (hw : Sound terms blake3 quota w) (hheld : w.holder s f = some t) :
    Sound terms blake3 quota w'
      ∧ Guar terms t (.inr (.openExclusive (tempPath s f))) w w'
      ∧ (r = some w.disk.next ∧ w'.disk = w.disk.create (tempPath s f)
          ∧ w'.author w.disk.next = some t
        ∨ r = none ∧ w' = w
          ∧ (faulty = true ∨ ¬w.disk.Admits (tempPath s f))) := by
  have hcalls := h.system hw
  have htouch : ∀ s' f', terms.exclusive (s', f') = true →
      w.Touches (.inr (.openExclusive (tempPath s f))) (tempPath s' f') →
        w.holder s' f' = some t := by
    intro s' f' _ htouches
    obtain ⟨rfl, rfl⟩ := tempPath_inj htouches
    exact hheld
  rcases hcalls.disk with ⟨-, hr, hdisk⟩ | ⟨hr, hdisk, hwhy⟩
  · have hnext : w'.disk.next = w.disk.next + 1 := by
      rw [hdisk]
      rfl
    have hold : ∀ path i, w.disk.files path = some i → i ≠ w.disk.next :=
      fun path i hi => Nat.ne_of_lt (hw.files path i hi)
    have hfinal : ∀ s' x, w'.disk.files (finalPath s' x)
        = w.disk.files (finalPath s' x) := by
      rw [hdisk]
      exact fun _ _ => Disk.link_files_ne tempPath_ne_finalPath.symm
    have hcontent : ∀ s' x i, w.disk.files (finalPath s' x) = some i →
        w'.disk.content i = w.disk.content i := by
      rw [hdisk]
      exact fun _ _ i hi => Disk.create_content_ne (hold _ i hi)
    have hsynced : ∀ s' x, w.disk.synced (finalPath s' x) = true →
        w'.disk.synced (finalPath s' x) = true := by
      rw [hdisk]
      exact fun _ _ hs => (Disk.link_synced_ne (i := w.disk.next)
        tempPath_ne_finalPath.symm).trans hs
    refine ⟨hcalls.apart.sound hw ?_ ?_ hfinal hcontent hsynced,
      hcalls.guar hw (fun u hu => ⟨?_, ?_, ?_, ?_, ?_, ?_⟩) ?_ htouch,
      .inl ⟨hr, hdisk, ?_⟩⟩
    · intro path i hi
      rw [hnext]
      rw [hdisk] at hi
      by_cases hp : path = tempPath s f
      · subst hp
        have heq : some w.disk.next = some i := Disk.link_files_self.symm.trans hi
        rw [← Option.some.inj heq]
        exact Nat.lt_succ_self _
      · have hlt := hw.files path i ((Disk.link_files_ne hp).symm.trans hi)
        exact Nat.lt_succ_of_lt hlt
    · intro i u hi
      rw [hcalls.author, authorAfter] at hi
      by_cases hnew : w.disk.next ≤ i ∧ i < w'.disk.next
      · exact hnew.2
      · rw [if_neg hnew] at hi
        rw [hnext]
        exact Nat.lt_succ_of_lt (hw.authors i u hi)
    · intro i hi
      have hne : i ≠ w.disk.next := Nat.ne_of_lt (hw.authors i u hi)
      rw [hdisk]
      refine ⟨Disk.create_content_ne hne, fun path hp => ?_⟩
      by_cases hpath : path = tempPath s f
      · subst hpath
        have heq : some w.disk.next = some i := Disk.link_files_self.symm.trans hp
        exact absurd (Option.some.inj heq).symm hne
      · exact (Disk.link_files_ne hpath).symm.trans hp
    · exact fun s' x i hi => ⟨(hfinal s' x).trans hi, hcontent s' x i hi⟩
    · exact fun s' x i _ hs => hsynced s' x hs
    · exact fun row _ _ hnone => (hfinal _ _).trans hnone
    · intro s' f' hother
      left
      rw [hdisk]
      refine Disk.link_files_ne fun hp => ?_
      obtain ⟨rfl, rfl⟩ := tempPath_inj hp
      rw [hheld] at hother
      exact hu (Option.some.inj hother).symm
    · rw [hdisk]
      rfl
    · exact fun s' x i hi => ⟨(hfinal s' x).trans hi, hcontent s' x i hi⟩
    · rw [hcalls.author, authorAfter, if_pos]
      rw [hnext]
      exact ⟨Nat.le_refl _, Nat.lt_succ_self _⟩
  · have hsame := hcalls.still hdisk
    subst hsame
    exact ⟨hw, ⟨fun u _ => .refl _, .refl _, htouch⟩, .inr ⟨hr, rfl, hwhy⟩⟩

-- ================================================================ write

/-- A write to a file no other name can lead to. -/
theorem Acts.writes {fd : Inode} {data : Bytes} {r : Nat}
    (h : Acts faulty t (.inr (.write fd data)) w r w')
    (hw : Sound terms blake3 quota w) (hheld : w.holder s f = some t)
    (hauthor : w.author fd = some t)
    (hplaces : ∀ path, w.disk.files path = some fd → path = tempPath s f) :
    Sound terms blake3 quota w' ∧ Guar terms t (.inr (.write fd data)) w w'
      ∧ (w'.disk = w.disk.append fd (data.take r) ∧ w'.author = w.author
          ∧ (0 < r ∨ data = []) ∧ r ≤ data.length
        ∨ r = 0 ∧ w' = w ∧ faulty = true) := by
  have hcalls := h.system hw
  -- what it writes to is the temp of its own upload
  have htouch : ∀ s' f', terms.exclusive (s', f') = true →
      w.Touches (.inr (.write fd data)) (tempPath s' f') →
        w.holder s' f' = some t := by
    intro s' f' _ htouches
    obtain ⟨rfl, rfl⟩ := tempPath_inj (hplaces _ htouches)
    exact hheld
  rcases hcalls.disk with ⟨hpos, hle, hdisk⟩ | ⟨hr, hdisk, hfaulty⟩
  -- the bytes are appended, and nothing else happens
  · have hcontent : ∀ s' x i, w.disk.files (finalPath s' x) = some i →
        w'.disk.content i = w.disk.content i := by
      rw [hdisk]
      intro s' x i hi
      refine Disk.append_content_ne ?_
      rintro rfl
      exact tempPath_ne_finalPath (hplaces _ hi).symm
    have hsame : w'.author = w.author := by
      rw [hcalls.author]
      exact authorAfter_same (by rw [hdisk]; rfl)
    refine ⟨hcalls.apart.sound hw ?_ ?_ ?_ hcontent ?_,
      hcalls.guar hw (fun u hu => ⟨?_, ?_, ?_, ?_, ?_, ?_⟩) ?_ htouch,
      .inl ⟨hdisk, hsame, hpos, hle⟩⟩
    · rw [hdisk]
      exact hw.files
    · rw [hsame, hdisk]
      exact hw.authors
    · rw [hdisk]
      exact fun _ _ => rfl
    · rw [hdisk]
      exact fun _ _ hs => hs
    · intro i hi
      rw [hdisk]
      refine ⟨Disk.append_content_ne ?_, fun path hp => hp⟩
      rintro rfl
      rw [hauthor] at hi
      exact hu (Option.some.inj hi).symm
    · intro s' x i hi
      refine ⟨?_, hcontent s' x i hi⟩
      rw [hdisk]
      exact hi
    · rw [hdisk]
      exact fun _ _ _ _ hs => hs
    · rw [hdisk]
      exact fun _ _ _ hnone => hnone
    · rw [hdisk]
      exact fun _ _ _ => .inl rfl
    · rw [hdisk]
      rfl
    · intro s' x i hi
      refine ⟨?_, hcontent s' x i hi⟩
      rw [hdisk]
      exact hi
  -- or the write fails
  · have hsame := hcalls.still hdisk
    subst hsame
    exact ⟨hw, ⟨fun u _ => .refl _, .refl _, htouch⟩, .inr ⟨hr, rfl, hfaulty⟩⟩

-- =============================================================== rename

/-- The file published under its final name. -/
theorem Acts.renames {row : UploadFileRow} {r : Option Errno}
    (h : Acts faulty t (.inr (.renameNoReplace (tempPath s f) row.final)) w r
      w') (hw : Sound terms blake3 quota w) (hheld : w.holder s f = some t)
    (hrow : row ∈ w.db.files) (hkey : row.key = (s, f))
    (hmine : ∀ j, w.disk.files (tempPath s f) = some j →
      w.author j = some t ∧ row.Passed blake3 (w.disk.content j)) :
    Sound terms blake3 quota w'
      ∧ Guar terms t (.inr (.renameNoReplace (tempPath s f) row.final)) w w'
      ∧ ((∃ j, w.disk.files (tempPath s f) = some j ∧ r = none
            ∧ w'.disk = w.disk.rename (tempPath s f) row.final j)
        ∨ r ≠ none ∧ w' = w
          ∧ (faulty = true ∨ w.disk.files (tempPath s f) = none
            ∨ ¬w.disk.Admits row.final)) := by
  have hcalls := h.system hw
  have htouch : ∀ s' f', terms.exclusive (s', f') = true →
      w.Touches (.inr (.renameNoReplace (tempPath s f) row.final))
        (tempPath s' f') → w.holder s' f' = some t := by
    intro s' f' _ htouches
    rcases htouches with hp | hp
    · obtain ⟨rfl, rfl⟩ := tempPath_inj hp
      exact hheld
    · exact absurd hp.symm tempPath_ne_finalPath
  rcases hcalls.disk with ⟨j, hj, hadmits, hr, hdisk⟩ | ⟨hr, hdisk, hwhy, -⟩
  · have hdb : w'.db = w.db := congrArg Link.committed hcalls.apart.link
    have hnone : w.disk.files row.final = none := by
      have htaken := hadmits.1
      rw [Disk.taken, Bool.or_eq_false_iff] at htaken
      exact Option.isSome_eq_false_iff.1 htaken.1 |> Option.isNone_iff_eq_none.1
    have hstate : row.state = .receiving := by
      obtain ⟨row', hrow', hkey', hstate⟩ :=
        UploadDb.receiving_iff.1 (hw.holder s f t hheld)
      rw [hw.tables.row_unique hrow hrow' (hkey.trans hkey'.symm)]
      exact hstate
    -- a row in the same place is this row
    have hthis : ∀ row' ∈ w.db.files, row'.final = row.final → row' = row :=
      fun row' hrow' hp =>
        hw.tables.place_unique hrow' hrow (UploadFileRow.final_inj hp)
    have hself : w'.disk.files row.final = some j := by
      rw [hdisk]
      exact Disk.link_files_self
    have hother : ∀ p, p ≠ tempPath s f → p ≠ row.final →
        w'.disk.files p = w.disk.files p
          ∧ w'.disk.synced p = w.disk.synced p := by
      intro p htemp hfinal
      rw [hdisk]
      exact ⟨(Disk.link_files_ne hfinal).trans (Disk.unlink_files_ne htemp),
        (Disk.link_synced_ne (i := j) hfinal).trans
          (Disk.unlink_synced_ne htemp)⟩
    have hcontent : w'.disk.content = w.disk.content := by
      rw [hdisk]
      rfl
    have hnext : w'.disk.next = w.disk.next := by
      rw [hdisk]
      rfl
    have hauthor : w'.author = w.author := by
      rw [hcalls.author]
      exact authorAfter_same hnext
    have hplace : ∀ p i, w'.disk.files p = some i →
        w.disk.files p = some i ∨ p = row.final ∧ i = j := by
      intro p i hi
      by_cases hfinal : p = row.final
      · subst hfinal
        rw [hself] at hi
        exact .inr ⟨rfl, (Option.some.inj hi).symm⟩
      · rw [hdisk] at hi
        exact .inl (Disk.unlink_files_some
          ((Disk.link_files_ne hfinal).symm.trans hi))
    have hfinals : ∀ s' x i, w.disk.files (finalPath s' x) = some i →
        w'.disk.files (finalPath s' x) = some i
          ∧ w'.disk.content i = w.disk.content i := by
      intro s' x i hi
      refine ⟨?_, congrFun hcontent i⟩
      rw [(hother _ tempPath_ne_finalPath.symm ?_).1]
      · exact hi
      · intro hp
        rw [hp, hnone] at hi
        cases hi
    refine ⟨⟨?_, ?_, ?_, ?_, ?_, ?_, ?_, ?_, ?_, ?_⟩,
      hcalls.guar hw (fun u hu => ⟨?_, hfinals, ?_, ?_, ?_, ?_⟩) hfinals htouch,
      .inl ⟨j, hj, hr, hdisk⟩⟩
    · rw [hcalls.apart.link]
      exact hw.closed
    · rw [hdb]
      exact hw.tables
    · intro p i hi
      rw [hnext]
      rcases hplace p i hi with hold | ⟨-, rfl⟩
      · exact hw.files p i hold
      · exact hw.files _ _ hj
    · rw [hauthor, hnext]
      exact hw.authors
    · rw [hcalls.apart.holder, hdb]
      exact hw.holder
    · intro s' x i hi
      rw [hdb]
      rcases hplace _ i hi with hold | ⟨hp, -⟩
      · exact hw.home s' x i hold
      · rw [(finalPath_inj hp).1]
        exact hw.tables.home row hrow
    · rw [hdb, hcontent]
      intro row' hrow' i hi
      rcases hplace _ i hi with hold | ⟨hp, rfl⟩
      · exact hw.passed row' hrow' i hold
      · rw [hthis row' hrow' hp]
        exact (hmine _ hj).2
    · rw [hdb, hcontent]
      intro row' hrow' hreceived
      obtain ⟨i, hi, hdigest⟩ := hw.received row' hrow' hreceived
      exact ⟨i, (hfinals _ _ i hi).1, hdigest⟩
    · rw [hdb]
      intro hd row' hrow' hreceived
      rw [(hother row'.final tempPath_ne_finalPath.symm ?_).2]
      · exact hw.durable hd row' hrow' hreceived
      · intro hp
        rw [hthis row' hrow' hp, hstate] at hreceived
        cases hreceived
    · rw [hdb]
      intro row' hrow' hx hopen
      rw [(hother row'.final tempPath_ne_finalPath.symm ?_).1]
      · exact hw.unpublished row' hrow' hx hopen
      · intro hp
        rw [hthis row' hrow' hp, hstate] at hopen
        rcases hopen with hopen | hopen <;> cases hopen
    · intro i hi
      refine ⟨congrFun hcontent i, fun p hp => ?_⟩
      rcases hplace p i hp with hold | ⟨-, rfl⟩
      · exact hold
      · rw [(hmine _ hj).1] at hi
        exact absurd (Option.some.inj hi).symm hu
    · intro s' x i hi hs
      rw [(hother _ tempPath_ne_finalPath.symm ?_).2]
      · exact hs
      · intro hp
        rw [hp, hnone] at hi
        cases hi
    · intro row' hrow' hheld' hnone'
      rw [(hother row'.final tempPath_ne_finalPath.symm ?_).1]
      · exact hnone'
      · intro hp
        rw [hthis row' hrow' hp] at hheld'
        obtain ⟨hs, hf⟩ := Prod.mk.inj hkey
        rw [hs, hf, hheld] at hheld'
        exact hu (Option.some.inj hheld').symm
    · intro s' f' hheld'
      left
      refine (hother _ ?_ tempPath_ne_finalPath).1
      intro hp
      obtain ⟨rfl, rfl⟩ := tempPath_inj hp
      rw [hheld] at hheld'
      exact hu (Option.some.inj hheld').symm
    · rw [hdisk]
      rfl
  · have hsame := hcalls.still hdisk
    subst hsame
    exact ⟨hw, ⟨fun u _ => .refl _, .refl _, htouch⟩, .inr ⟨hr, rfl, hwhy⟩⟩

-- ====================================================== the directory

/-- A directory synchronised. -/
theorem Acts.syncs {path : Path} {r : Bool}
    (h : Acts faulty t (.inr (.fsyncDirectory path)) w r w')
    (hw : Sound terms blake3 quota w) :
    Sound terms blake3 quota w'
      ∧ Guar terms t (.inr (.fsyncDirectory path)) w w'
      ∧ (r = true ∧ w'.disk = w.disk.sync path
        ∨ r = false ∧ w' = w ∧ faulty = true) := by
  have hcalls := h.system hw
  rcases hcalls.disk with ⟨hr, hdisk⟩ | ⟨hr, hdisk, hfaulty⟩
  · have hsynced : ∀ p, w.disk.synced p = true → w'.disk.synced p = true := by
      intro p hp
      rw [hdisk]
      exact Bool.or_eq_true_iff.2 (.inl hp)
    have hfiles : w'.disk.files = w.disk.files := by
      rw [hdisk]
      rfl
    have hcontent : w'.disk.content = w.disk.content := by
      rw [hdisk]
      rfl
    have hnext : w'.disk.next = w.disk.next := by
      rw [hdisk]
      rfl
    refine ⟨hcalls.apart.sound hw ?_ ?_ ?_ ?_ fun _ _ => hsynced _,
      hcalls.guar hw (fun u _ => ⟨?_, ?_, ?_, ?_, ?_, ?_⟩) ?_
        fun _ _ _ => False.elim, .inl ⟨hr, hdisk⟩⟩
    · rw [hfiles, hnext]
      exact hw.files
    · rw [hcalls.author, authorAfter_same hnext, hnext]
      exact hw.authors
    · rw [hfiles]
      exact fun _ _ => rfl
    · rw [hcontent]
      exact fun _ _ _ _ => rfl
    · rw [hcontent, hfiles]
      exact fun _ _ => ⟨rfl, fun _ hp => hp⟩
    · rw [hcontent, hfiles]
      exact fun _ _ _ hi => ⟨hi, rfl⟩
    · exact fun _ _ _ _ => hsynced _
    · rw [hfiles]
      exact fun _ _ _ hnone => hnone
    · rw [hfiles]
      exact fun _ _ _ => .inl rfl
    · rw [hdisk]
      rfl
    · rw [hcontent, hfiles]
      exact fun _ _ _ hi => ⟨hi, rfl⟩
  · have hsame := hcalls.still hdisk
    subst hsame
    exact ⟨hw, .refl fun _ => False.elim, .inr ⟨hr, rfl, hfaulty⟩⟩

end

end World

end PhotoBridge.Upload
