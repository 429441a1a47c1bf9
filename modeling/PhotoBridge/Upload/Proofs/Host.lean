/-
The store's operations as single calls: what each leaves of the
connection, and what it does to the disk. An operation that changes the
tables does its whole effect or nothing (`StoreOp.Acts.change`), one that
reads them leaves the connection as it was (`StoreOp.Acts.reads`), and
only `CreateSession` makes directories (`StoreOp.Acts.quietly`).
-/
import PhotoBridge.Upload.Host
import PhotoBridge.Upload.Proofs.Isolation
import PhotoBridge.Upload.Proofs.Tables

namespace PhotoBridge.Upload

open Concurrent SharedConnection

section Host

variable {φ : Type} {quiet : Bool} {outside : Effects storeCalls φ}
  {host host' : Host φ}

-- ================================================= operations that change

/-- Run by itself, an operation does its whole effect or nothing, and
leaves no transaction open. -/
theorem StoreOp.Acts.change {op : Operation} {r : Except Status op.Answer}
    (h : StoreOp.Acts quiet outside (.change op) host r host')
    (hclosed : host.link.txn = none) :
    host'.link.txn = none
      ∧ (∀ e, r = .error e → host'.link.committed = host.link.committed)
      ∧ ∀ v, r = .ok v →
        op.effect host.link.committed = some (v, host'.link.committed) := by
  obtain ⟨w, hrun, rfl⟩ := h
  exact Correct.alone (Operation.correct op) hclosed hrun

/-- Where nothing fails, a `CommitUpload` that can do its effect
succeeds. -/
theorem StoreOp.Acts.commitUpload_ok {s f : Bytes} {size : UInt64}
    {digest : Digest} {db : UploadDb} {r : Except Status Unit}
    (h : StoreOp.Acts true outside (.change (.commitUpload s f size digest))
      host r host') (hclosed : host.link.txn = none)
    (heffect : host.link.committed.commitUpload s f size digest
      = some ((), db)) : r = .ok () := by
  unfold UploadDb.commitUpload at heffect
  simp only at heffect
  split at heffect
  case isFalse => cases heffect
  rename_i hone
  split at heffect
  · cases heffect
  rename_i updated hupdated
  obtain ⟨w, hrun, rfl⟩ := h
  have hrun' : Returns _ (commitUpload s f size digest) _ r w := hrun
  obtain ⟨_, w₁, hbegin, hrun₁⟩ := Returns.onConnection hrun'
  obtain ⟨rfl, hw₁⟩ := hbegin.quiet_begin hclosed
  obtain ⟨_, w₂, hprepare, hrun₂⟩ := Returns.onConnection hrun₁
  obtain ⟨rfl, hw₂⟩ := hprepare.quiet_prepare
  obtain ⟨_, w₃, hstep, hrun₃⟩ := Returns.onConnection hrun₂
  have hreceive : UploadQuery.run (.commitUpload s f size.toInt64 digest)
      w₂.link.view = .ok ((), host.link.committed.receive s f size.toInt64 digest) := by
    rw [hw₂, hw₁]
    rfl
  obtain ⟨rfl, hw₃⟩ := hstep.quiet_step hreceive
  obtain ⟨changed, w₄, ⟨hchanged, hw₄⟩, hrun₄⟩ := Returns.onConnection hrun₃
  have hlink : w₄.link = ⟨host.link.committed,
      some (host.link.committed.receive s f size.toInt64 digest).2, 1⟩ := by
    rw [hw₄, hw₃, hw₂, hw₁, ← hone]
    rfl
  have hsame : changed = 1 := by
    rw [hchanged, ← hw₄, hlink]
  subst hsame
  obtain ⟨_, w₅, hprepare', hrun₅⟩ := Returns.onConnection (c := .prepare)
    hrun₄
  obtain ⟨rfl, hw₅⟩ := hprepare'.quiet_prepare
  obtain ⟨_, w₆, hstep', hrun₆⟩ := Returns.onConnection hrun₅
  have hprogress : UploadQuery.run (.updateProgress s) w₅.link.view
      = .ok ((), updated) := by
    rw [hw₅, hlink]
    exact congrArg (Except.map fun p => ((), p)) hupdated
  obtain ⟨rfl, hw₆⟩ := hstep'.quiet_step hprogress
  obtain ⟨_, w₇, hcommit, hrun₇⟩ := Returns.onConnection hrun₆
  have htxn : w₆.link.txn = some updated.2 := by
    rw [hw₆, hw₅, hlink]
    rfl
  have hnone := hcommit.quiet_commit htxn
  subst hnone
  cases hrun₇
  rfl

-- =================================================== operations that read

/-- The call leaves a connection without a transaction as it is. -/
def Reads : (interface uploadStatements storeCalls).Call → Prop
  | .inl .prepare => True
  | .inl .errmsg => True
  | .inl (.step q) => uploadStatements.writes q = false
  | .inr (.rowsRead _) => True
  | _ => False

/-- Reading with no transaction open keeps the link. -/
theorem Reads.keeps {t : Unit} {link : Link UploadDb} (hclosed : link.txn = none)
    {c : (interface uploadStatements storeCalls).Call}
    {w w' : Shared Unit UploadDb φ} {r : _} (hc : Reads c) (hw : w.link = link)
    (h : Shared.Acts uploadStatements quiet outside t c w r w') :
    w'.link = link := by
  have hdropped : link.dropped = link := by
    cases link
    cases hclosed
    rfl
  cases c with
  | inr c => exact h.2.1.trans hw
  | inl c =>
      cases c with
      | prepare => exact h.1.1.trans hw
      | errmsg => exact (show w'.link = w.link from h.1).trans hw
      | step q =>
          have hreads : uploadStatements.writes q = false := hc
          rcases h.1 with ⟨row, n, s, -, -, hl⟩ | ⟨e, -, ⟨-, hl⟩ | ⟨-, hl | hl⟩⟩
          · rw [hl, hreads]
            exact hw
          · exact hl.trans hw
          · exact hl.trans hw
          · rw [hl, hw, hdropped]
      | begin => exact hc.elim
      | commit => exact hc.elim
      | rollback => exact hc.elim
      | changes => exact hc.elim

private theorem collect_uses {α : Type} (rows : Except Bytes (List α)) :
    (collect rows).Uses Reads := by
  cases rows with
  | error e => exact trivial
  | ok rows => exact ⟨trivial, fun _ => trivial⟩

private theorem getSession_uses (s : Bytes) : (getSession s).Uses Reads := by
  unfold getSession
  by_cases hs : s.isEmpty = true
  · rw [if_pos hs]
    exact trivial
  · rw [if_neg hs]
    refine ⟨trivial, fun prepared => ?_⟩
    cases prepared with
    | some _ => exact ⟨trivial, fun _ => trivial⟩
    | none =>
    refine ⟨rfl, fun row => ?_⟩
    cases row with
    | error _ => exact trivial
    | ok row =>
    cases row with
    | none => exact trivial
    | some row =>
    refine ⟨trivial, fun prepared => ?_⟩
    cases prepared with
    | some _ => exact ⟨trivial, fun _ => trivial⟩
    | none =>
    refine ⟨rfl, fun rows => ?_⟩
    show (collect rows >>= fun files => _).Uses Reads
    exact Program.Uses.bind (collect_uses rows) fun _ => trivial

/-- Reading a file's row only reads. -/
theorem getFile_uses (s f : Bytes) : (getFile s f).Uses Reads := by
  refine Program.Uses.bind (getSession_uses s) fun session => ?_
  cases session with
  | error e => exact trivial
  | ok session =>
      simp only
      split <;> exact trivial

/-- Looking for interrupted uploads only reads. -/
theorem interruptedUploads_uses : interruptedUploads.Uses Reads := by
  refine ⟨trivial, fun prepared => ?_⟩
  cases prepared with
  | some _ => exact ⟨trivial, fun _ => trivial⟩
  | none =>
  refine ⟨rfl, fun rows => ?_⟩
  show (collect rows >>= fun candidates => _).Uses Reads
  exact Program.Uses.bind (collect_uses rows) fun _ => trivial

/-- A reading call made by itself. -/
theorem Reads.next {α : Type} {link : Link UploadDb} (hclosed : link.txn = none)
    {c : (interface uploadStatements storeCalls).Call} {next : _ → StoreM α}
    {w w' : Shared Unit UploadDb φ} {a : α} (hw : w.link = link)
    (h : Returns (Shared.Acts uploadStatements quiet outside ())
      (.call c next) w a w') (hc : Reads c) :
    ∃ r w₁, Shared.Acts uploadStatements quiet outside () c w r w₁
      ∧ w₁.link = link
      ∧ Returns (Shared.Acts uploadStatements quiet outside ()) (next r) w₁
        a w' := by
  cases h with
  | call hact h => exact ⟨_, _, hact, hc.keeps hclosed hw hact, h⟩

/-- A row read outside a transaction is a row of the committed tables. -/
theorem step_answer {q : UploadQuery} {row : q.Row} {link : Link UploadDb}
    (hclosed : link.txn = none) {w w' : Shared Unit UploadDb φ}
    (hw : w.link = link)
    (h : Shared.Acts uploadStatements quiet outside () (.inl (.step q)) w
      (.ok row) w') :
    ∃ n db, q.run link.committed = .ok (row, n, db) := by
  have hview : w.link.view = link.committed := by
    rw [hw, Link.view, hclosed]
    rfl
  rcases h.1 with ⟨row', n, s, hrun, hr, -⟩ | ⟨e, hr, -⟩
  · cases hr
    exact ⟨n, s, hview ▸ hrun⟩
  · cases hr

/-- The rows `collect` has are some of those there are. -/
theorem collect_answer {α : Type} {rows : Except Bytes (List α)} {got : List α}
    {w w' : Shared Unit UploadDb φ}
    (h : Returns (Shared.Acts uploadStatements quiet outside ()) (collect rows)
      w got w') :
    got = [] ∨ ∃ all n, rows = .ok all ∧ got = all.take n := by
  cases rows with
  | error e =>
      cases h
      exact .inl rfl
  | ok all =>
      cases h with
      | call _ h =>
          cases h
          exact .inr ⟨all, _, rfl, rfl⟩

/-- A session that is read is one of the tables. -/
private theorem getSession_answer {s : Bytes} {link : Link UploadDb}
    (hclosed : link.txn = none) {w w' : Shared Unit UploadDb φ}
    (hw : w.link = link) {session : UploadSession}
    (h : Returns (Shared.Acts uploadStatements quiet outside ()) (getSession s)
      w (.ok session) w') :
    ∀ file ∈ session.files, ∃ row ∈ link.committed.filesOf s,
      file = row.toFile := by
  unfold getSession at h
  by_cases hs : s.isEmpty = true
  · rw [if_pos hs] at h
    cases h
  rw [if_neg hs] at h
  obtain ⟨prepared, w₁, -, hw₁, h⟩ := Reads.next hclosed hw h trivial
  cases prepared with
  | some _ =>
      obtain ⟨_, _, -, -, h⟩ := Reads.next hclosed hw₁ h trivial
      cases h
  | none =>
  obtain ⟨row, w₂, -, hw₂, h⟩ := Reads.next hclosed hw₁ h rfl
  cases row with
  | error _ => cases h
  | ok row =>
  cases row with
  | none => cases h
  | some row =>
  obtain ⟨prepared, w₃, -, hw₃, h⟩ := Reads.next hclosed hw₂ h trivial
  cases prepared with
  | some _ =>
      obtain ⟨_, _, -, -, h⟩ := Reads.next hclosed hw₃ h trivial
      cases h
  | none =>
  obtain ⟨rows, w₄, hact, hw₄, h⟩ := Reads.next hclosed hw₃ h rfl
  obtain ⟨got, w₅, hgot, h⟩ := Returns.bind_inv
    (show Returns _ (collect rows >>= fun files => _) w₄ _ w' from h)
  cases h
  intro file hfile
  obtain ⟨found, hfound, rfl⟩ := List.mem_map.1 hfile
  refine ⟨found, ?_, rfl⟩
  rcases collect_answer hgot with rfl | ⟨all, n, rfl, rfl⟩
  · cases hfound
  · obtain ⟨n', db, hrun⟩ := step_answer hclosed hw₃ hact
    cases hrun
    exact List.mem_of_mem_take hfound

-- ===================================================== reading operations

/-- An operation that reads leaves the connection as it is. -/
theorem StoreOp.Acts.reads {op : StoreOp} {r : op.Answer}
    (h : op.Acts quiet outside host r host') (hop : op.program.Uses Reads)
    (hclosed : host.link.txn = none) : host'.link = host.link := by
  obtain ⟨w, hrun, rfl⟩ := h
  exact hrun.keeps (i := fun w => w.link = host.link)
    (fun c w r w' hc hw hact => hc.keeps hclosed hw hact) hop rfl

/-- A file that is read is one of the tables. -/
theorem StoreOp.Acts.getFile {s f : Bytes} {r : Except Status UploadFile}
    (h : StoreOp.Acts quiet outside (.getFile s f) host r host')
    (hclosed : host.link.txn = none) :
    host'.link = host.link ∧ ∀ file, r = .ok file →
      ∃ row ∈ host.link.committed.files, row.sessionId = s ∧ row.fileId = f
        ∧ file = row.toFile := by
  refine ⟨h.reads (getFile_uses s f) hclosed, ?_⟩
  rintro file rfl
  obtain ⟨w, hrun, rfl⟩ := h
  obtain ⟨session, w₁, hsession, hrest⟩ := Returns.bind_inv
    (show Returns _ (getSession s >>= fun session => _) _ _ w from hrun)
  cases session with
  | error e => cases hrest
  | ok session =>
  simp only at hrest
  split at hrest
  · rename_i found hfound
    cases hrest
    obtain ⟨row, hrow, rfl⟩ := getSession_answer hclosed rfl hsession _
      (List.mem_of_find?_eq_some hfound)
    obtain ⟨hmem, hs⟩ := UploadDb.mem_filesOf.1 hrow
    refine ⟨row, hmem, hs, ?_, rfl⟩
    have hid := List.find?_some hfound
    exact beq_iff_eq.1 hid
  · cases hrest

/-- Interrupted uploads that are read are those of the tables. -/
theorem StoreOp.Acts.interrupted {r : Except Status (List UploadFileRow)}
    (h : StoreOp.Acts quiet outside .interrupted host r host')
    (hclosed : host.link.txn = none) :
    host'.link = host.link ∧ ∀ rows, r = .ok rows → ∀ row ∈ rows,
      row ∈ host.link.committed.files ∧ row.state = .receiving := by
  refine ⟨h.reads interruptedUploads_uses hclosed, ?_⟩
  rintro rows rfl
  obtain ⟨w, hrun, rfl⟩ := h
  have hrun' : Returns _ interruptedUploads _ _ w := hrun
  obtain ⟨prepared, w₁, -, hw₁, hrest⟩ := Reads.next hclosed rfl hrun' trivial
  cases prepared with
  | some _ =>
      obtain ⟨_, _, -, -, hrest⟩ := Reads.next hclosed hw₁ hrest trivial
      cases hrest
  | none =>
  obtain ⟨rows', w₂, hact, hw₂, hrest⟩ := Reads.next hclosed hw₁ hrest rfl
  obtain ⟨got, w₃, hgot, hrest⟩ := Returns.bind_inv
    (show Returns _ (collect rows' >>= fun candidates => _) w₂ _ w from hrest)
  cases hrest
  intro row hrow
  rcases collect_answer hgot with rfl | ⟨all, n, rfl, rfl⟩
  · cases hrow
  · obtain ⟨n', db, hq⟩ := step_answer hclosed hw₁ hact
    cases hq
    have hmem := List.mem_filter.1 (List.mem_of_mem_take hrow)
    exact ⟨hmem.1, beq_iff_eq.1 hmem.2⟩

-- ==================================================== files on the disk

/-- No directory is made. -/
def NoDirectories : (interface uploadStatements storeCalls).Call → Prop
  | .inr (.createDirectories _) => False
  | _ => True

/-- Reading makes no directory. -/
theorem Reads.noDirectories {c : (interface uploadStatements storeCalls).Call}
    (h : Reads c) : NoDirectories c := by
  rcases c with _ | _ | _
  · exact trivial
  · exact h.elim
  · exact trivial

private theorem sqliteError_uses {α : Type} (operation : String) :
    (sqliteError operation >>= fun e =>
      pure (.error e : Except Status α)).Uses NoDirectories :=
  ⟨trivial, fun _ => trivial⟩

private theorem rolledBack_uses {α : Type} {error : StoreM Status}
    (h : Reports error) :
    (rolledBack error : StoreM (Except Status α)).Uses NoDirectories := by
  cases h with
  | pure e => exact ⟨trivial, fun _ => trivial⟩
  | sqlite operation => exact ⟨trivial, fun _ => sqliteError_uses operation⟩

private theorem committing_uses {α : Type} (v : α) :
    (committing v).Uses NoDirectories := by
  refine ⟨trivial, fun r => ?_⟩
  cases r with
  | none => exact trivial
  | some _ => exact ⟨trivial, fun _ => trivial⟩

/-- The update that starts an upload. -/
theorem beginUpload_update_uses (s f : Bytes) :
    Program.Uses NoDirectories (do
      match ← prepare with
      | some _ => rolledBack (sqliteError "prepare begin upload")
      | none => do
          let result ← step (.beginUpload s f)
          let changed ← changes
          if !result.isOk || changed != 1 then
            rolledBack (sqliteError "begin upload")
          else committing BeginUploadResult.started) := by
  refine ⟨trivial, fun prepared => ?_⟩
  cases prepared with
  | some _ => exact rolledBack_uses (.sqlite _)
  | none =>
      refine ⟨trivial, fun result => ⟨trivial, fun changed => ?_⟩⟩
      exact .ite (rolledBack_uses (.sqlite _)) (committing_uses _)

private theorem beginUpload_uses (s f : Bytes) :
    (beginUpload s f).Uses NoDirectories := by
  refine ⟨trivial, fun begun => ?_⟩
  cases begun with
  | some _ => exact trivial
  | none =>
  refine ⟨trivial, fun prepared => ?_⟩
  cases prepared with
  | some _ => exact rolledBack_uses (.sqlite _)
  | none =>
  refine ⟨trivial, fun state => ?_⟩
  rcases state with _ | _ | state
  · exact rolledBack_uses (.pure _)
  · exact rolledBack_uses (.pure _)
  cases state with
  | received => exact ⟨trivial, fun _ => trivial⟩
  | receiving => exact ⟨trivial, fun _ => trivial⟩
  | pending => exact beginUpload_update_uses s f
  | failed => exact beginUpload_update_uses s f

private theorem markUploadFailed_uses (s f : Bytes) :
    (markUploadFailed s f).Uses NoDirectories := by
  refine ⟨trivial, fun prepared => ?_⟩
  cases prepared with
  | some _ => exact sqliteError_uses _
  | none =>
  refine ⟨trivial, fun result => ?_⟩
  cases result with
  | error _ => exact sqliteError_uses _
  | ok _ => exact trivial

/-- Committing an upload makes no directory. -/
theorem commitUpload_uses (s f : Bytes) (size : UInt64) (digest : Digest) :
    (commitUpload s f size digest).Uses NoDirectories := by
  refine ⟨trivial, fun begun => ?_⟩
  cases begun with
  | some _ => exact trivial
  | none =>
  refine ⟨trivial, fun prepared => ?_⟩
  cases prepared with
  | some _ => exact rolledBack_uses (.sqlite _)
  | none =>
  refine ⟨trivial, fun result => ⟨trivial, fun changed => ?_⟩⟩
  refine .ite (rolledBack_uses (.pure _)) ⟨trivial, fun prepared => ?_⟩
  cases prepared with
  | some _ => exact rolledBack_uses (.sqlite _)
  | none =>
  refine ⟨trivial, fun result => ?_⟩
  cases result with
  | error _ => exact rolledBack_uses (.sqlite _)
  | ok _ => exact committing_uses _

private theorem completeSession_uses (s : Bytes) :
    (completeSession s).Uses NoDirectories := by
  refine ⟨trivial, fun begun => ?_⟩
  cases begun with
  | some _ => exact trivial
  | none =>
  refine ⟨trivial, fun prepared => ?_⟩
  cases prepared with
  | some _ => exact rolledBack_uses (.sqlite _)
  | none =>
  refine ⟨trivial, fun counts => ?_⟩
  cases counts with
  | error _ => exact rolledBack_uses (.sqlite _)
  | ok counts =>
  refine .ite (rolledBack_uses (.pure _)) (.ite (rolledBack_uses (.pure _)) ?_)
  refine ⟨trivial, fun prepared => ?_⟩
  cases prepared with
  | some _ => exact rolledBack_uses (.sqlite _)
  | none =>
  refine ⟨trivial, fun result => ⟨trivial, fun changed => ?_⟩⟩
  exact .ite (rolledBack_uses (.sqlite _))
    (.ite (rolledBack_uses (.pure _)) (committing_uses _))

/-- Only creating a session makes one. -/
theorem StoreOp.uses (op : StoreOp)
    (hop : ∀ quota drawn files, op ≠ .change (.createSession quota drawn files)) :
    op.program.Uses NoDirectories := by
  cases op with
  | getFile s f => exact (getFile_uses s f).mono fun _ => Reads.noDirectories
  | interrupted => exact interruptedUploads_uses.mono fun _ => Reads.noDirectories
  | change op =>
      cases op with
      | createSession quota drawn files => exact absurd rfl (hop quota drawn files)
      | beginUpload s f => exact beginUpload_uses s f
      | markUploadFailed s f => exact markUploadFailed_uses s f
      | commitUpload s f size digest => exact commitUpload_uses s f size digest
      | completeSession s => exact completeSession_uses s

/-- An operation other than `CreateSession` leaves the disk as it is. -/
theorem StoreOp.Acts.quietly {faulty : Bool} {op : StoreOp} {r : op.Answer}
    {host host' : Host Disk}
    (h : op.Acts quiet (storeOnDisk faulty) host r host')
    (hop : ∀ quota drawn files, op ≠ .change (.createSession quota drawn files)) :
    host'.system = host.system := by
  obtain ⟨w, hrun, rfl⟩ := h
  refine hrun.keeps (i := fun w => w.outside = host.system) ?_ (op.uses hop) rfl
  rintro c w r w' hc hw hact
  rcases c with _ | _ | _
  · exact hact.2.2.2.trans hw
  · exact hc.elim
  · exact hact.1.1.trans hw

/-- `CreateSession` adds directories and leaves the rest of the disk. -/
theorem StoreOp.Acts.directories {faulty : Bool} {op : StoreOp} {r : op.Answer}
    {host host' : Host Disk}
    (h : op.Acts quiet (storeOnDisk faulty) host r host') :
    ∃ directories, host'.system = { host.system with directories := directories }
      ∧ ∀ path, host.system.directories path = true →
        directories path = true := by
  obtain ⟨w, hrun, rfl⟩ := h
  refine hrun.keeps (i := fun w =>
    ∃ directories, w.outside = { host.system with directories := directories }
      ∧ ∀ path, host.system.directories path = true →
        directories path = true) ?_ (Program.uses_all _) ⟨_, rfl, fun _ h => h⟩
  rintro c w r w' - ⟨directories, hw, hgrows⟩ hact
  have hadds : ∀ name, ∃ directories,
      w.outside.withDirectories name
          = { host.system with directories := directories }
        ∧ ∀ path, host.system.directories path = true →
          directories path = true := by
    intro name
    refine ⟨_, by rw [hw]; rfl, fun path hpath => ?_⟩
    exact Bool.or_eq_true_iff.2 (.inl (hgrows path hpath))
  rcases c with _ | path | _
  · exact ⟨directories, hact.2.2.2.trans hw, hgrows⟩
  · rcases hact.1 with ⟨-, hd, -⟩ | ⟨-, hd | ⟨name, -, hd⟩, -⟩
    · rw [hd]
      exact hadds path
    · exact ⟨directories, hd.trans hw, hgrows⟩
    · rw [hd]
      exact hadds name
  · exact ⟨directories, hact.1.1.trans hw, hgrows⟩

end Host

/-- Ids of one digit each. -/
def digitNonces (digit : Nat → Nat) : Drawn :=
  ⟨fun _ => Fin.ofNat 16 (digit 0), fun i _ => Fin.ofNat 16 (digit i), 0⟩

end PhotoBridge.Upload
