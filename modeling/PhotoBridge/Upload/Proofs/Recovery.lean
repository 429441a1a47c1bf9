/-
Opening the store: recovery, run while nobody else is, keeps the
invariant of `Upload/Proofs/Custody.lean` wherever it is stopped. It
commits what it finds under a file's final name without looking at the
client's digest; that only what passed the checks is found there is the
invariant's.

It commits whether or not the name it found would outlive a crash, so
with `durable` the names found must be durable already (`Synced`).
-/
import PhotoBridge.Upload.Proofs.Put

namespace PhotoBridge.Upload

open Concurrent SharedConnection

namespace World

variable {τ : Type} (durable : Bool) (blake3 : Bytes → Digest)
  (quota : UploadQuota)

-- ============================================================ assertions

/-- A sound world in which nobody holds a file or has begun. -/
structure Quiet (w : World τ) : Prop where
  sound : Sound (.plain durable) blake3 quota w
  holder : ∀ s f, w.holder s f = none
  started : ∀ t, w.started t = false

/-- A published file that is still RECEIVING has a durable name. -/
def Synced (w : World τ) : Prop :=
  durable = true → ∀ row ∈ w.db.files, row.state = .receiving →
    (w.disk.files row.final).isSome = true → w.disk.synced row.final = true

variable (τ) in
/-- The protocol of a program that runs alone. -/
def opening : Protocol Unit serverCalls (World τ) where
  inv := Quiet durable blake3 quota
  rely := fun _ w w' => w' = w
  guar := fun _ _ w w' => w.Keeps w'
  rely_refl := fun _ _ => rfl
  rely_trans := fun h h' => h'.trans h
  compat := fun hne _ => absurd rfl hne

variable {durable blake3 quota} {faulty : Bool} {w w' : World τ}
  {row : UploadFileRow} {about : Bytes × Bytes → Prop}

theorem Synced.stored (h : Synced durable w) (hstored : Stored quota about w w')
    (habout : ∀ row ∈ w'.db.files, about row.key → row.state = .receiving →
      row ∈ w.db.files) : Synced durable w' := by
  rw [Synced, hstored.files, hstored.synced]
  intro hd row hrow hstate hsome
  by_cases hkey : about row.key
  · exact h hd row (habout row hrow hkey hstate) hstate hsome
  · rcases hstored.steps.before hrow hkey with hmem | ⟨-, hpending⟩
    · exact h hd row hmem hstate hsome
    · rw [hpending] at hstate
      cases hstate

theorem Quiet.stored (hw : Quiet durable blake3 quota w)
    (hstored : Stored quota about w w') (hstarted : w'.started = w.started)
    (hholder : w'.holder = w.holder)
    (hreceived : ∀ row ∈ w'.db.files, about row.key → row.state = .received →
      (∃ i, w.disk.files row.final = some i
        ∧ row.serverDigest = some (blake3 (w.disk.content i)))
      ∧ (durable = true → w.disk.synced row.final = true)) :
    Quiet durable blake3 quota w' := by
  refine ⟨hstored.sound hw.sound hreceived ?_, ?_, ?_⟩
  · intro _ _ _ hx
    cases hx
  · rw [hholder]
    exact hw.holder
  · rw [hstarted]
    exact hw.started

-- ============================================================== the rules

/-- The program, alone, keeps the invariant from one assertion to the
other. -/
abbrev Alone (durable : Bool) (blake3 : Bytes → Digest) (quota : UploadQuota)
    (faulty : Bool) {α : Type} (pre : World τ → Prop) (p : ServerM α)
    (post : α → World τ → Prop) : Prop :=
  Triple (opening τ durable blake3 quota) (fun _ => ActsAlone faulty) () pre p
    post

variable {α : Type} {pre : World τ → Prop} {post : α → World τ → Prop}

private theorem opening_stable (pre : World τ → Prop) :
    Stable (opening τ durable blake3 quota) () pre := by
  rintro w _ - - rfl hpre
  exact hpre

theorem Alone.call {c : serverCalls.Call}
    {next : serverCalls.Answer c → ServerM α}
    {m : serverCalls.Answer c → World τ → Prop}
    (hc : ∀ {w r w'}, Quiet durable blake3 quota w → pre w →
      ActsAlone faulty c w r w' →
        Quiet durable blake3 quota w' ∧ w.Keeps w' ∧ m r w')
    (hnext : ∀ r, Alone durable blake3 quota faulty (m r) (next r) post) :
    Alone durable blake3 quota faulty pre (.call c next) post :=
  Triple.call (opening_stable pre) (fun _ _ _ hw hpre hact => hc hw hpre hact)
    hnext

theorem Alone.done {a : α} (h : ∀ {w}, pre w → post a w) :
    Alone durable blake3 quota faulty pre (.done a) post :=
  Triple.done (opening_stable pre) fun _ _ hpre => h hpre

/-- A system call made while the store is opened. -/
theorem ActsAlone.system {c : SystemCall} {r : c.Answer}
    (h : ActsAlone faulty (.inr c) w r w') :
    systemOnDisk faulty c w.disk r w'.disk ∧ Apart w w'
      ∧ w'.author = w.author ∧ w'.started = w.started :=
  ⟨h.1.1, ⟨h.1.2, h.2.1⟩, h.2.2.1, h.2.2.2⟩

/-- A system call that looks at the disk only. -/
theorem Alone.still {c : SystemCall} {next : c.Answer → ServerM α}
    {q : c.Answer → World τ → Prop}
    (hc : ∀ {w r disk'}, pre w → systemOnDisk faulty c w.disk r disk' →
      disk' = w.disk ∧ q r w)
    (hnext : ∀ r, Alone durable blake3 quota faulty
      (fun w => q r w ∧ pre w) (next r) post) :
    Alone durable blake3 quota faulty pre
      (.call (I := serverCalls) (.inr c) next) post := by
  refine .call (fun {w r w'} hw hpre hact => ?_) hnext
  obtain ⟨hdisk, hapart, hauthor, hstarted⟩ := hact.system
  obtain ⟨hsame, hq⟩ := hc hpre hdisk
  rw [eq_of_apart hapart hsame hauthor hstarted]
  exact ⟨hw, .refl w, hq, hpre⟩

-- ========================================================= the candidates

/-- The candidates are registered so, and the names found are durable. -/
def Recovering (durable : Bool) (rows : List UploadFileRow) (w : World τ) :
    Prop :=
  Synced durable w ∧ ∀ row ∈ rows, Known row w

variable {rows : List UploadFileRow}

theorem Recovering.apart (h : Recovering durable rows w) (ha : Apart w w')
    (hfiles : ∀ s x, w'.disk.files (finalPath s x)
      = w.disk.files (finalPath s x))
    (hsynced : ∀ s x, w.disk.synced (finalPath s x) = true →
      w'.disk.synced (finalPath s x) = true) : Recovering durable rows w' := by
  have hdb : w'.db = w.db := congrArg Link.committed ha.link
  refine ⟨?_, ?_⟩
  · rw [Synced, hdb]
    intro hd row hrow hstate hsome
    rw [UploadFileRow.final, hfiles] at hsome
    exact hsynced _ _ (h.1 hd row hrow hstate hsome)
  · intro row hrow
    rw [Known, hdb]
    exact h.2 row hrow

theorem giveUpCandidate_alone (hquota : quota.maxReservedBytes.toNat < 2 ^ 63) :
    Alone durable blake3 quota faulty (τ := τ) (Recovering durable rows)
      (giveUpCandidate row) fun _ => Recovering durable rows := by
  refine .call (fun {w r w'} hw hpre hact => ?_) fun _ => .done id
  have hsteps : ∀ v, r = .ok v →
      (Operation.markUploadFailed row.sessionId row.fileId).effect w.db
        = some (v, w'.db) →
      w.db.Steps (· = (row.sessionId, row.fileId)) w'.db := by
    intro v _ heffect
    rw [show w'.db = _ from (congrArg Prod.snd (Option.some.inj heffect)).symm]
    exact UploadDb.markFailed_steps row.sessionId row.fileId
  obtain ⟨hstored, herror, hok⟩ := hact.stored hquota trivial hw.sound
    (fun _ _ _ => hw.holder _ _) hsteps
  -- a row of this file is as it was, or failed
  have hwas : ∀ row' ∈ w'.db.files, row'.key = (row.sessionId, row.fileId) →
      row' ∈ w.db.files ∨ row'.state = .failed := by
    intro row' hrow' hkey
    cases r with
    | error e =>
        rw [herror e rfl] at hrow'
        exact .inl hrow'
    | ok v =>
        rw [show w'.db = _ from
          (congrArg Prod.snd (Option.some.inj (hok v rfl))).symm] at hrow'
        exact (UploadDb.markFailed_state hrow' hkey).2
  refine ⟨hw.stored hstored hact.2.2.2 hact.2.1 ?_, hstored.keeps,
    hpre.1.stored hstored ?_,
    fun row' hrow' => (hpre.2 row' hrow').next hstored.rows⟩
  · intro row' hrow' hkey hstate
    rcases hwas row' hrow' hkey with hmem | hfailed
    · exact ⟨hw.sound.received row' hmem hstate,
        fun hd => hw.sound.durable hd row' hmem hstate⟩
    · rw [hfailed] at hstate
      cases hstate
  · intro row' hrow' hkey hstate
    rcases hwas row' hrow' hkey with hmem | hfailed
    · exact hmem
    · rw [hfailed] at hstate
      cases hstate

/-- `CommitUpload` of what was found under the file's final name. -/
theorem ActsAlone.commits (hquota : quota.maxReservedBytes.toNat < 2 ^ 63)
    {size : UInt64} {digest : Digest} {r : Except Status Unit}
    (h : ActsAlone faulty
      (.inl (.change (.commitUpload row.sessionId row.fileId size digest))) w r w')
    (hw : Quiet durable blake3 quota w) (hpre : Recovering durable rows w)
    (hrow : row ∈ rows)
    (hfound : ∃ i, w.disk.files row.final = some i
      ∧ digest = blake3 (w.disk.content i)) :
    Quiet durable blake3 quota w' ∧ w.Keeps w' ∧ Recovering durable rows w' := by
  have hcommitted : ∀ v,
      (Operation.commitUpload row.sessionId row.fileId size digest).effect w.db
        = some (v, w'.db) →
      UploadDb.Committed row.sessionId row.fileId digest w.db w'.db :=
    fun v heffect => UploadDb.commitUpload_committed hw.sound.tables heffect
  obtain ⟨hstored, herror, hok⟩ := h.stored hquota trivial hw.sound
    (fun _ _ _ => hw.holder _ _) fun v _ heffect => (hcommitted v heffect).steps
  refine ⟨hw.stored hstored h.2.2.2 h.2.1 ?_, hstored.keeps,
    hpre.1.stored hstored ?_,
    fun row' hrow' => (hpre.2 row' hrow').next hstored.rows⟩
  · intro row' hrow' hkey hstate
    cases r with
    | error e =>
        rw [herror e rfl] at hrow'
        exact ⟨hw.sound.received row' hrow' hstate,
          fun hd => hw.sound.durable hd row' hrow' hstate⟩
    | ok v =>
        have hc := hcommitted v (hok v rfl)
        have hknown := (hpre.2 row hrow).next hstored.rows
        have hfinal : row'.final = row.final := by
          obtain ⟨row'', hrow'', hsame⟩ := hknown
          rw [hstored.follows.sound.row_unique hrow' hrow''
            (hkey.trans hsame.key.symm)]
          exact hsame.final
        obtain ⟨i, hi, hdigest⟩ := hfound
        rw [hfinal]
        refine ⟨⟨i, hi, ?_⟩, fun hd => ?_⟩
        · rw [(hc.is row' hrow' hkey).2, hdigest]
        · obtain ⟨row₀, hrow₀, hkey₀, hstate₀⟩ := hc.was
          have hsame := (hpre.2 row hrow).eq hw.sound hrow₀ hkey₀
          have hsynced := hpre.1 hd row₀ hrow₀ hstate₀
          rw [hsame.final, hi] at hsynced
          exact hsynced rfl
  · intro row' hrow' hkey hstate
    cases r with
    | error e =>
        rw [herror e rfl] at hrow'
        exact hrow'
    | ok v =>
        rw [((hcommitted v (hok v rfl)).is row' hrow' hkey).1] at hstate
        cases hstate

theorem recoverCandidate_alone (hquota : quota.maxReservedBytes.toNat < 2 ^ 63)
    (hrow : row ∈ rows) :
    Alone durable blake3 quota faulty (τ := τ) (Recovering durable rows)
      (recoverCandidate blake3 row) fun _ => Recovering durable rows := by
  have hgiveUp : Alone durable blake3 quota faulty (τ := τ)
      (Recovering durable rows) (giveUpCandidate row)
      fun _ => Recovering durable rows := giveUpCandidate_alone hquota
  refine .still (q := fun _ _ => True) (fun _ hdisk => ⟨hdisk.1, trivial⟩)
    fun regular => .given fun _ => ?_
  cases regular with
  | none => exact hgiveUp
  | some regular =>
  cases regular with
  | false => exact hgiveUp
  | true =>
  refine Alone.still (q := fun _ _ => True) (fun _ hdisk => ⟨hdisk.1, trivial⟩)
    fun size => .given fun _ => ?_
  cases size with
  | none => exact hgiveUp
  | some size =>
  show Alone _ _ _ _ _ (if size ≠ row.expectedSize.toUInt64.toNat then _ else _) _
  by_cases hsize : size ≠ row.expectedSize.toUInt64.toNat
  · rw [if_pos hsize]
    exact hgiveUp
  rw [if_neg hsize]
  refine Alone.still (q := fun (r : Option Bytes) w => ∀ content, r = some content →
      ∃ i, w.disk.files row.final = some i ∧ w.disk.content i = content)
    (fun {w r disk'} _ hdisk => ⟨hdisk.1, fun content hr => ?_⟩) fun content => ?_
  · subst hr
    rcases hdisk.2 with hread | ⟨hnone, -⟩
    · exact Option.map_eq_some_iff.1 hread.symm
    · cases hnone
  cases content with
  | none => exact hgiveUp.weaken fun _ _ hpre => hpre.2
  | some content =>
  refine Alone.call (fun {w r w'} hw hpre hact => ?_) (m := fun _ =>
    Recovering durable rows) fun committed => ?_
  · obtain ⟨i, hi, hcontent⟩ := hpre.1 content rfl
    exact hact.commits hquota hw hpre.2 hrow
      ⟨i, hi, congrArg blake3 hcontent.symm⟩
  cases committed with
  | error e => exact hgiveUp
  | ok v =>
  refine Alone.call (c := .inr (.remove (tempPath row.sessionId row.fileId)))
    (fun {w r w'} hw hpre hact => ?_) fun _ => .done id
  obtain ⟨hdisk, hapart, hauthor, hstarted⟩ := hact.system
  rcases hdisk with hdisk | ⟨hdisk, -⟩
  · refine ⟨⟨hapart.unlinked hw.sound hdisk hauthor, ?_, ?_⟩, hapart.keeps ?_,
      hpre.apart hapart ?_ ?_⟩
    · rw [hapart.holder]
      exact hw.holder
    · rw [hstarted]
      exact hw.started
    · rw [hdisk]
      exact fun _ _ _ => unlinked_finals
    · rw [hdisk]
      exact fun _ _ => Disk.unlink_files_ne tempPath_ne_finalPath.symm
    · rw [hdisk]
      exact fun _ _ hs =>
        (Disk.unlink_synced_ne tempPath_ne_finalPath.symm).trans hs
  · rw [eq_of_apart hapart hdisk hauthor hstarted]
    exact ⟨hw, .refl w, hpre⟩

private theorem recoverCandidates_alone
    (hquota : quota.maxReservedBytes.toNat < 2 ^ 63)
    (rest : List UploadFileRow) (hrest : ∀ row ∈ rest, row ∈ rows) :
    Alone durable blake3 quota faulty (τ := τ) (Recovering durable rows)
      (recoverCandidates blake3 rest) fun _ => Recovering durable rows := by
  induction rest with
  | nil => exact .done id
  | cons row rest ih =>
      refine Triple.bind (recoverCandidate_alone hquota
        (hrest row List.mem_cons_self)) fun r => ?_
      cases r with
      | error e => exact Alone.done id
      | ok v => exact ih fun row hrow => hrest row (List.mem_cons_of_mem _ hrow)

/-- `UploadSessionStore::Open`. -/
theorem openStore_alone (hquota : quota.maxReservedBytes.toNat < 2 ^ 63) :
    Alone durable blake3 quota faulty (τ := τ) (Synced durable)
      (openStore blake3) fun _ _ => True := by
  refine .call (c := .inr (.createDirectories _))
    (m := fun _ => Recovering durable []) (fun {w r w'} hw hpre hact => ?_)
    fun message => ?_
  · obtain ⟨hdisk, hapart, hauthor, hstarted⟩ := hact.system
    have hadds : ∃ directories, w'.disk = { w.disk with directories := directories } := by
      rcases hdisk with ⟨-, hdisk, -⟩ | ⟨-, hdisk | ⟨name, -, hdisk⟩, -⟩
      · exact ⟨_, hdisk⟩
      · exact ⟨w.disk.directories, hdisk⟩
      · exact ⟨_, hdisk⟩
    obtain ⟨directories, hdisk'⟩ := hadds
    refine ⟨⟨hapart.sound hw.sound ?_ ?_ ?_ ?_ ?_, ?_, ?_⟩, hapart.keeps ?_,
      Recovering.apart ⟨hpre, nofun⟩ hapart ?_ ?_⟩
    · rw [hdisk']
      exact hw.sound.files
    · rw [hauthor, hdisk']
      exact hw.sound.authors
    · rw [hdisk']
      exact fun _ _ => rfl
    · rw [hdisk']
      exact fun _ _ _ _ => rfl
    · rw [hdisk']
      exact fun _ _ hs => hs
    · rw [hapart.holder]
      exact hw.holder
    · rw [hstarted]
      exact hw.started
    · rw [hdisk']
      exact fun _ _ _ hi => ⟨hi, rfl⟩
    · rw [hdisk']
      exact fun _ _ => rfl
    · rw [hdisk']
      exact fun _ _ hs => hs
  cases message with
  | some message => exact Alone.done fun _ => trivial
  | none =>
  refine Alone.call (c := .inl .interrupted) (m := fun r w =>
    ∀ rows, r = .ok rows → Recovering durable rows w)
    (fun {w r w'} hw hpre hact => ?_) fun r => ?_
  · obtain ⟨hlink, hrows⟩ := StoreOp.Acts.interrupted hact.1 hw.sound.closed
    have hdisk : w'.disk = w.disk := StoreOp.Acts.quietly hact.1 nofun
    rw [eq_of_apart ⟨hlink, hact.2.1⟩ hdisk hact.2.2.1 hact.2.2.2]
    refine ⟨hw, .refl w, fun rows hr => ⟨hpre.1, fun row hrow => ?_⟩⟩
    exact ⟨row, (hrows rows hr row hrow).1, .refl row⟩
  · cases r with
    | error e => exact Alone.done fun _ => trivial
    | ok rows =>
        have hall : Alone durable blake3 quota faulty (τ := τ)
            (Recovering durable rows) (recoverCandidates blake3 rows)
            fun _ => Recovering durable rows :=
          recoverCandidates_alone hquota rows fun _ h => h
        exact (hall.weaken fun _ _ hpre => hpre rows rfl).strengthen
          fun _ _ _ _ => trivial

end World

end PhotoBridge.Upload
