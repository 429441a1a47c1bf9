/-
The job of a worker, whatever the other workers do in the meantime.

Between the creation of the temp and its last sync the job only uses
descriptors, and the files behind them are nobody else's or are never
written to. So what was proved of a preparation by itself (Prepare.lean)
holds here: the job is followed on a machine of its own, which looks the
same to it (`Lent`, `shares_handles`). The other calls are gone through
one by one.
-/
import PhotoBridge.Pipeline.Proofs.Prepare
import PhotoBridge.Pipeline.Proofs.Sharing

namespace PhotoBridge

open Concurrent MigrationService MigrationService.World Transaction

/-- The operations that move the attempt on. -/
def RepositoryCall.Advances (attemptId : Bytes) : RepositoryCall → Prop
  | .markCommitIntent _ _ _ id => id = attemptId
  | .markTempWritten _ _ _ id => id = attemptId
  | _ => False

/-- The calls on open files. -/
def PipelineCall.Handles (target : Nat) : PipelineCall → Prop
  | .file c => c.Handles target
  | _ => False

/-- A step of an attempt is work on it. -/
theorem RepositoryCall.Advances.ok {c : RepositoryCall} {attemptId : Bytes}
    {v : c.Value} {db db' : Db} (hc : c.Advances attemptId)
    (h : (c.run : DbTxn c.Value) db = .ok (v, db')) :
    Db.Worked attemptId db db' ∧ Db.Calm (fun _ => False) db db'
      ∧ db'.tasks = db.tasks := by
  have hadvance : ∀ {p t : Bytes} {e : Nat} {next : FileAttemptState}
      {event : EventType} {u : Unit},
      (advanceAttemptBody p t e attemptId next event none : DbTxn Unit) db
        = .ok (u, db') → Db.Worked attemptId db db'
          ∧ Db.Calm (fun _ => False) db db' ∧ db'.tasks = db.tasks := by
    intro p t e next event u h
    refine ⟨Db.worked_advance h, calm_advance h, ?_⟩
    obtain ⟨-, -, previous, -, ⟨-, rfl⟩ | ⟨-, -, -, rfl⟩⟩ :=
      advanceAttemptBody_ok.1 h
    · rfl
    · rfl
  cases c with
  | markCommitIntent p t e id =>
      cases show id = attemptId from hc
      obtain ⟨_, -, h⟩ := liftCheck_bind_ok.1 h
      obtain ⟨_, -, h⟩ := liftCheck_bind_ok.1 h
      exact hadvance h
  | markTempWritten p t e id =>
      cases show id = attemptId from hc
      obtain ⟨_, -, h⟩ := liftCheck_bind_ok.1 h
      obtain ⟨_, -, h⟩ := liftCheck_bind_ok.1 h
      exact hadvance h
  | _ => exact hc.elim

namespace Site

variable {σ : Site} {s : Session} {base : Machine} {a taskId : Bytes}
  {w w' : MigrationService.World} {α β : Type}

-- ================================================================== rules

/-- What the calls of the pipeline do, in a pool. -/
abbrev shared (σ : Site) (t : Option Bytes) :
    Effects pipelineCalls MigrationService.World :=
  Effects.under (J := migrationCalls) MigrationCall.pipeline (fun _ r => r)
    (poolEffects σ.blake3 σ.strerror σ.trouble t)

/-- Whatever the others do, the attempt keeps to the protocol. -/
abbrev Shares (σ : Site) (s : Session) (base : Machine) (a : Bytes)
    (ok : α → MigrationService.World → Prop) (x : PipelineM α)
    (w : MigrationService.World) : Prop :=
  Secures (σ.shares s base pipelineCalls) σ.shared (some a) True ok
    (fun _ _ => True) x w

/-- A call that does right in every world the others can make of this one.
-/
theorem shares_ask {c : PipelineCall}
    {post : pipelineCalls.Answer c → MigrationService.World → Prop}
    (h : ∀ w₁ r m, σ.Pooled s base w₁ → Rely a w w₁ →
      pipelineActs σ.strerror σ.blake3 σ.trouble c (w₁.view a) r m
        ∨ refused (.pipeline c) r ∧ m = w₁.view a →
      (σ.Pooled s base (w₁.put a m) ∧ Owes (some a) w₁ (w₁.put a m))
        ∧ post r (w₁.put a m)) :
    Keeps (σ.shares s base pipelineCalls) σ.shared (some a) post (ask c) w := by
  rintro w₁ hw₁ hrely r w₂ ⟨_, rfl, m, hm, rfl⟩
  have hacts := h w₁ _ m hw₁ (hrely a rfl) (hm.imp_left ?_)
  · exact ⟨hacts.1.1, hacts.1.2, hacts.2⟩
  · rintro ⟨disk, hdisk, hm⟩
    cases Disk.disturbed_calm (fun _ => id) hdisk
    exact hm

/-- An operation of the database. -/
theorem shares_repository {c : RepositoryCall}
    {ok : c.Value → MigrationService.World → Prop}
    (h : ∀ w₁ v db', σ.Pooled s base w₁ → Rely a w w₁ →
      (c.run : DbTxn c.Value) w₁.machine.db = .ok (v, db') →
      (σ.Pooled s base (w₁.stored db') ∧ Owes (some a) w₁ (w₁.stored db'))
        ∧ ok v (w₁.stored db')) : σ.Shares s base a ok (repository c) w := by
  refine .perform (shares_ask ?_)
  rintro w₁ r m hw₁ hrely (⟨repo, hdb, htxn, hmemory, -, rfl, rfl⟩ | ⟨⟨e, rfl⟩, rfl⟩)
  · change repo.committed = w₁.machine.db at hdb
    have houtcome := (repositoryCall_atomic c).outcome htxn hmemory
    rw [hdb] at houtcome
    generalize ((c.run : RepoM c.Value) repo).1 = r at houtcome ⊢
    generalize ((c.run : RepoM c.Value) repo).2.committed = db' at houtcome ⊢
    cases houtcome with
    | refused e =>
        rw [show w₁.put a { w₁.view a with db := w₁.machine.db } = w₁ from put_view w₁ a]
        exact ⟨⟨hw₁, .refl _ _⟩, trivial⟩
    | done hf =>
        rw [put_stored]
        exact h w₁ _ _ hw₁ hrely hf
  · rw [put_view]
    exact ⟨⟨hw₁, .refl _ _⟩, trivial⟩

/-- A call on files touches nothing but the disk. -/
theorem file_acts {c : FileCall} {m m' : Machine} {r : c.Answer}
    (h : pipelineActs σ.strerror σ.blake3 σ.trouble (.file c) m r m') :
    ∃ d', m' = { m with disk := d' }
      ∧ (fileActs σ.strerror σ.blake3 c m.disk r d'
        ∨ σ.fails ∧ fileFails c m.disk r d') := by
  obtain ⟨d', rfl, hacts | hfails | hraces⟩ := h
  · exact ⟨d', rfl, .inl hacts⟩
  · exact ⟨d', rfl, .inr hfails⟩
  · -- nobody modifies a file in the meantime
    cases c with
    | tryIoUringCopyAndHash sourceFd fd size =>
        obtain ⟨_, _, _, _, _, _, -, -, hno, -⟩ := hraces
        exact hno.elim
    | _ => exact hraces.elim

/-- A call of the file system. -/
theorem shares_file {c : FileCall} {post : c.Answer → MigrationService.World → Prop}
    (h : ∀ w₁ r d', σ.Pooled s base w₁ → Rely a w w₁ →
      fileActs σ.strerror σ.blake3 c (w₁.view a).disk r d'
        ∨ σ.fails ∧ fileFails c (w₁.view a).disk r d' →
      (σ.Pooled s base (w₁.done a d') ∧ Owes (some a) w₁ (w₁.done a d'))
        ∧ post r (w₁.done a d')) :
    Keeps (σ.shares s base pipelineCalls) σ.shared (some a) post
      (ask (.file c)) w := by
  refine shares_ask ?_
  rintro w₁ r m hw₁ hrely (hacts | ⟨hno, -⟩)
  · obtain ⟨d', rfl, hfile⟩ := file_acts hacts
    exact h w₁ r d' hw₁ hrely hfile
  · exact hno.elim

/-- Opening a root. -/
theorem shares_openRoot {root : Root} {path : Bytes} :
    σ.Shares s base a (fun _ w' => Rely a w w') (openRoot root path) w := by
  refine .perform (shares_ask ?_)
  rintro w₁ r m hw₁ hrely (⟨hr, rfl⟩ | ⟨hno, -⟩)
  · rw [put_view]
    refine ⟨⟨hw₁, .refl _ _⟩, ?_⟩
    rcases hr with rfl | ⟨-, e, rfl⟩
    · exact hrely
    · exact trivial
  · exact hno.elim

-- ============================================================ the attempt

/-- The task is running under the attempt, which has no receipt yet. -/
structure Working (σ : Site) (a taskId : Bytes) (w : MigrationService.World) :
    Prop where
  attempted : w.machine.db.Attempted a
  free : ∀ row ∈ w.machine.db.receipts, row.attemptId ≠ a
  running : ∃ row ∈ w.machine.db.tasks,
    row.key = (σ.artifact.planId, taskId) ∧ row.Runs a

/-- Others leave an attempt at work. -/
theorem Working.rely (h : σ.Working a taskId w) (hrely : Rely a w w') :
    σ.Working a taskId w' where
  attempted := hrely.rows.attempts a h.attempted
  free row hrow heq :=
    h.free row ((hrely.rows.receipts h.attempted row heq).1 hrow) heq
  running := by
    obtain ⟨row, hrow, hkey, hruns⟩ := h.running
    exact ⟨row, hrely.rows.tasks h.attempted row hrow hruns, hkey, hruns⟩

/-- An attempt at work has no receipt. -/
theorem Working.unreceipted (h : σ.Working a taskId w) (planId taskId' : Bytes) :
    w.machine.db.receipts.any (ReceiptRow.isAt planId taskId' a) = false := by
  refine List.any_eq_false.2 fun row hrow hat => h.free row hrow ?_
  unfold ReceiptRow.isAt at hat
  simp only [Bool.and_eq_true, beq_iff_eq] at hat
  exact hat.2

/-- An attempt stays at work, whatever it does to the disk. -/
theorem Working.done (h : σ.Working a taskId w) (disk : Disk) :
    σ.Working a taskId (w.done a disk) := ⟨h.attempted, h.free, h.running⟩

/-- The rows and the files of the attempt are as they were, after an
operation that only moves it on. -/
theorem shares_advances {c : RepositoryCall} (hbase : σ.Starts s base)
    (hc : c.Advances a) :
    σ.Shares s base a (fun _ w' => Rely a w w') (repository c) w := by
  refine shares_repository fun w₁ v db' hw₁ hrely hrun => ?_
  obtain ⟨hworked, hcalm, htasks⟩ := hc.ok hrun
  have hhistory : σ.History db' := by
    refine hw₁.kept.ledger.history.repository (fun p receipt heq => ?_) hrun
    rw [heq] at hc
    exact hc.elim
  have hledger := hw₁.kept.ledger.calm hcalm hhistory fun _ => False.elim
  refine ⟨hw₁.worked hbase hworked hledger (hw₁.held_calm hcalm),
    hrely.trans ⟨rfl, fun _ _ => rfl, fun _ _ hi => hi,
      fun _ => hworked.attempted.2, fun _ row _ => ?_, fun _ row hrow _ => ?_⟩⟩
  · show row ∈ db'.receipts ↔ _
    rw [hcalm.receipts]
  · show row ∈ db'.tasks
    rw [htasks]
    exact hrow

-- ============================================================== the source

/-- The source of the asset is open, and is what the plan has frozen. -/
structure Sourced (σ : Site) (base : Machine) (a : Bytes)
    (asset : MinimalPlanAsset) (guard : MutationGuard) (index : Nat)
    (f : DiskFile) (w : MigrationService.World) : Prop where
  opened : (w.tables a)[guard.fd]? = some ⟨index, 0⟩
  file : w.machine.disk.files[index]? = some f
  older : index < base.disk.files.length
  frozen : σ.Frozen asset f.current
  identity : guard.manifestIdentity = asset.sourceIdentity

variable {asset : MinimalPlanAsset} {guard : MutationGuard} {index fd : Nat}
  {f t : DiskFile}

/-- An open file is one of the attempt's handles. -/
theorem mem_handles {o : OpenFile} (h : (w.tables a)[fd]? = some o) :
    o.file ∈ w.handles a :=
  List.mem_map_of_mem (List.mem_of_getElem? h)

/-- Others leave the source to be read. -/
theorem Sourced.rely (h : σ.Sourced base a asset guard index f w)
    (hrely : Rely a w w') : σ.Sourced base a asset guard index f w' where
  opened := by
    rw [hrely.table]
    exact h.opened
  file := (hrely.files index (mem_handles h.opened)).trans h.file
  older := h.older
  frozen := h.frozen
  identity := h.identity

/-- A source that was opened. -/
theorem openSource_shares (hbase : σ.Starts s base)
    (hasset : asset ∈ σ.artifact.plan.assets) (hw : σ.Working a taskId w) :
    σ.Shares s base a (fun fd w' => σ.Working a taskId w' ∧ ∃ index f,
        (w'.tables a)[fd]? = some ⟨index, 0⟩
          ∧ w'.machine.disk.files[index]? = some f
          ∧ index < base.disk.files.length ∧ σ.source asset = some f.current)
      (Files.openSource .source asset.sourcePath) w := by
  refine .perform (shares_file ?_)
  rintro w₁ r d' hw₁ hrely (hacts | ⟨-, ⟨e, rfl⟩, rfl⟩)
  · have hlook : (w₁.view a).disk.lookUp .source asset.sourcePath.bytes
        = σ.start.disk.lookUp .source asset.sourcePath.bytes :=
      hw₁.kept.intact.source _ (σ.settled asset hasset)
    simp only [fileActs, hlook] at hacts
    cases hentry : σ.start.disk.lookUp .source asset.sourcePath.bytes with
    | none =>
        rw [hentry] at hacts
        obtain ⟨rfl, rfl⟩ := hacts
        rw [done_view_self]
        exact ⟨⟨hw₁, .refl _ _⟩, trivial⟩
    | some index =>
        rw [hentry] at hacts
        obtain ⟨rfl, rfl⟩ := hacts
        have hstart := σ.sound .source _ index hentry
        have hfile := List.getElem?_eq_getElem hstart
        obtain ⟨g, hg, hsame⟩ := hw₁.kept.intact.files index _ hfile
        have hlt := Nat.lt_of_lt_of_le hstart hbase.kept.intact.length_le
        have hwork := hw.rely hrely
        refine ⟨hw₁.opening hbase (.inl hlt) hwork.free, hwork.done _, index, g, ?_,
          hg, hlt, Disk.version?_eq_some.2 ⟨index, _, hentry, hfile, hsame.symm⟩⟩
        rw [done_table]
        exact List.getElem?_concat_length ..
  · rw [done_view_self]
    exact ⟨⟨hw₁, .refl _ _⟩, trivial⟩

/-- Asking for the identity of an open source. -/
theorem statFd_shares (hopen : (w.tables a)[fd]? = some ⟨index, 0⟩)
    (hfile : w.machine.disk.files[index]? = some f) :
    σ.Shares s base a (fun identity w' => identity = f.current.identity
      ∧ Rely a w w') (Files.statFd fd) w := by
  refine .perform (shares_file ?_)
  rintro w₁ r d' hw₁ hrely (hacts | ⟨-, ⟨e, rfl⟩, rfl⟩)
  · have hopen₁ : (w₁.view a).disk.openFile? fd = some (⟨index, 0⟩, f) := by
      refine Disk.openFile?_eq_some.2
        ⟨(congrArg (·[fd]?) hrely.table).trans hopen, ?_⟩
      exact (hrely.files index (mem_handles hopen)).trans hfile
    obtain ⟨rfl, rfl⟩ := (fileActs_statFd _ _ hopen₁).1 hacts
    rw [done_view_self]
    exact ⟨⟨hw₁, .refl _ _⟩, rfl, hrely⟩
  · rw [done_view_self]
    exact ⟨⟨hw₁, .refl _ _⟩, trivial⟩

/-- The guard. -/
theorem guard_shares (hbase : σ.Starts s base)
    (hasset : asset ∈ σ.artifact.plan.assets) (hw : σ.Working a taskId w) :
    σ.Shares s base a (fun guard w' => σ.Working a taskId w' ∧ ∃ index f,
        σ.Sourced base a asset guard index f w')
      (MutationGuard.open_ asset.sourcePath asset.sourceIdentity) w := by
  unfold MutationGuard.open_
  refine .andThen (openSource_shares hbase hasset hw) ?_
  rintro fd w₁ ⟨hw₁, index, f, hopen, hfile, hlt, hsource⟩
  refine .andThen (statFd_shares hopen hfile) ?_
  rintro identity w₂ ⟨rfl, hrely⟩
  refine .ite (fun _ => .throw trivial) fun hsame => .pure ⟨hw₁.rely hrely, index, f, ?_⟩
  exact ⟨hrely.table ▸ hopen, (hrely.files index (mem_handles hopen)).trans hfile,
    hlt, ⟨hsource, not_not.1 hsame⟩, rfl⟩

-- ======================================================= open files, lent

/-- The machine looks the same to the attempt, whose temp has this name and
is behind this descriptor. -/
structure Lent (σ : Site) (a taskId name : Bytes) (target index : Nat)
    (w : MigrationService.World) (m : Machine) : Prop where
  working : σ.Working a taskId w
  alike : (w.view a).disk.Alike m.disk
  fd : (w.handles a)[target]? = some index
  entry : w.machine.disk.targets name = some index

variable {name : Bytes} {target : Nat} {m : Machine}

/-- Others leave a temp to the attempt it is lent to. -/
theorem Lent.rely (h : σ.Lent a taskId name target index w m)
    (hrely : Rely a w w') : σ.Lent a taskId name target index w' m where
  working := h.working.rely hrely
  alike := by
    refine ⟨h.alike.opened.trans hrely.table.symm, fun i hi => ?_⟩
    have hmem : i ∈ w.handles a := by
      have hsame : (w'.view a).disk.handles = w.handles a :=
        congrArg (List.map OpenFile.file) hrely.table
      rw [← hsame]
      exact hi
    exact (h.alike.files i hmem).trans (hrely.files i hmem).symm
  fd := by
    rw [← h.fd]
    exact congrArg (fun table => (table.map OpenFile.file)[target]?) hrely.table
  entry := hrely.targets _ _ h.entry


/-- What only uses open files ends as it does on a machine of its own. -/
theorem shares_handles {x : PipelineM α} {effects : Effects pipelineCalls Machine}
    {ok : α → Machine → Prop} {fail : Status → Machine → Prop}
    (hbase : σ.Starts s base)
    (heffects : ∀ (c : FileCall) (m : Machine) (r : c.Answer) (e : Disk),
      fileActs σ.strerror σ.blake3 c m.disk r e
        ∨ σ.fails ∧ fileFails c m.disk r e →
      effects (.file c) m r { m with disk := e })
    (hx : x.Uses (PipelineCall.Handles target))
    (hlarge : base.disk.files.length ≤ index)
    (hlent : σ.Lent a taskId name target index w m)
    (h : Yields effects True ok fail x m) :
    σ.Shares s base a (fun v w' => ∃ m',
      σ.Lent a taskId name target index w' m' ∧ ok v m') x w := by
  refine Keeps.mono (Meets.keeps ?_ h hx hlent) ?_
  · intro c w₀ w₁ r w₂ m hc hlent hw₁ hrely heffect
    cases c with
    | file c =>
        obtain ⟨_, rfl, m₂, ⟨disk, hdisk, hm⟩ | ⟨hno, -⟩, rfl⟩ := heffect
        · cases Disk.disturbed_calm (fun _ => id) hdisk
          obtain ⟨d', rfl, hacts⟩ := file_acts hm
          have hlent₁ := hlent.rely (hrely a rfl)
          obtain ⟨hhandled, e, he, halike⟩ := hlent₁.alike.acts hc hlent₁.fd hacts
          have howns : Owns base w₁ a index :=
            ⟨hlarge, List.mem_of_getElem? hlent₁.fd⟩
          obtain ⟨hpooled, howes⟩ :=
            hw₁.handled hbase hhandled howns hlent₁.working.free
          refine ⟨hpooled, howes, _, heffects c m _ e he, hlent₁.working.done d', ?_,
            ?_, ?_⟩
          · show ((w₁.done a d').view a).disk.Alike e
            rw [done_view]
            exact halike
          · show ((w₁.done a d').handles a)[target]? = _
            rw [done_handles, hhandled.handles]
            exact hlent₁.fd
          · show d'.targets name = _
            rw [hhandled.targets]
            exact hlent₁.entry
        · exact hno.elim
    | _ => exact hc.elim
  · rintro r w' ⟨m', hlent', hr⟩
    match r with
    | none => exact trivial
    | some (.error e) => exact trivial
    | some (.ok v) => exact ⟨m', hlent', hr⟩

/-- What a call of the file system does, it does on any such machine. -/
theorem site_effects {c : FileCall} {m : Machine} {r : c.Answer} {e : Disk}
    (h : fileActs σ.strerror σ.blake3 c m.disk r e
      ∨ σ.fails ∧ fileFails c m.disk r e) :
    σ.effects (.file c) m r { m with disk := e } :=
  ⟨m.disk, Disk.disturbed_refl _ _, e, rfl, h.imp_right .inl⟩

-- ================================================== what the copy only uses

section Handles

variable {blake3 : Bytes → Digest} {size rounds : Nat}

/-- Writing touches nothing but the target. -/
theorem writeAll_handles (fuel : Nat) : ∀ bytes : Bytes,
    (Preparer.writeAll target fuel bytes).Uses (PipelineCall.Handles target) := by
  induction fuel with
  | zero => exact fun _ => .pure _
  | succ fuel ih =>
      intro bytes
      rw [Preparer.writeAll]
      refine .ite (.pure _) (.bind (.lift (uses_call rfl)) fun written => ?_)
      exact .ite (.throw _) (.ite (.throw _) (ih _))

/-- Copying touches nothing but the target. -/
theorem copyLoop_handles (rounds : Nat) : ∀ (n : Nat) (hasher : Hasher),
    (Preparer.copyLoop fd target size rounds n hasher).Uses
      (PipelineCall.Handles target) := by
  induction rounds with
  | zero => exact fun _ _ => .given_up
  | succ rounds ih =>
      intro n hasher
      rw [Preparer.copyLoop]
      refine .bind (.lift (uses_call trivial)) fun chunk => .ite (.throw _)
        (.ite (.pure _) (.ite (.throw _) ?_))
      exact .bind (.ofExcept _) fun hasher =>
        .bind (writeAll_handles _ _) fun _ => ih _ _

/-- The check before reading touches nothing. -/
private theorem verifyBeforeRead_handles :
    guard.verifyBeforeRead.Uses (PipelineCall.Handles target) := by
  unfold MutationGuard.verifyBeforeRead
  exact .bind (.lift (uses_call trivial)) fun _ => .ite (.throw _) (.pure _)

/-- The check after reading touches nothing. -/
private theorem verifyAfterRead_handles :
    guard.verifyAfterRead.Uses (PipelineCall.Handles target) := by
  unfold MutationGuard.verifyAfterRead verifyIdentity
  exact .bind (.lift (uses_call trivial)) fun _ => .ite (.throw _) (.pure _)

/-- Copying between the checks touches nothing but the target. -/
theorem copySource_handles : (Preparer.copySource blake3 guard target size
    rounds).Uses (PipelineCall.Handles target) := by
  unfold Preparer.copySource
  refine .bind (.lift (uses_call rfl)) fun accelerated => ?_
  cases accelerated with
  | some copy => exact .bind verifyAfterRead_handles fun _ => .pure _
  | none =>
      refine .bind verifyBeforeRead_handles fun guard => ?_
      refine .bind (.ite (.throw _) ?_) fun result =>
        .bind verifyAfterRead_handles fun _ => .pure _
      exact .bind (copyLoop_handles _ _ _) fun read =>
        .bind (.ofExcept _) fun digest => .pure _

end Handles

-- ================================================================ the temp

/-- A preparation by itself that is this attempt's. -/
structure Suits (σ : Site) (base : Machine) (f : DiskFile)
    (P : Preparer.Preparation) : Prop where
  strerror : P.strerror = σ.strerror
  blake3 : P.blake3 = σ.blake3
  older : P.source < base.disk.files.length
  file : base.disk.files[P.source]? = some f
  large : base.disk.files.length ≤ P.temp

variable {P : Preparer.Preparation} {read written : Nat} {g : DiskFile}

/-- What a call does in the pool it does alone, too. -/
theorem Suits.effects (h : σ.Suits base f P) (c : FileCall) (m : Machine)
    (r : c.Answer) (e : Disk)
    (hacts : fileActs σ.strerror σ.blake3 c m.disk r e
      ∨ σ.fails ∧ fileFails c m.disk r e) :
    P.effects (.file c) m r { m with disk := e } := by
  refine ⟨m.disk, Disk.disturbed_refl _ _, e, rfl, ?_⟩
  rw [h.strerror, h.blake3]
  exact hacts.imp id fun hfails => .inl ⟨trivial, hfails.2⟩

/-- The source of the preparation is the one the attempt has open. -/
theorem Lent.source (h : σ.Lent a taskId name target index w m)
    (hw : σ.Pooled s base w) (hsuits : σ.Suits base f P)
    (hbench : P.Bench m g t read written) : g = f := by
  have hmem : P.source ∈ (w.view a).disk.handles := by
    have hopen := hbench.sourceFd
    rw [h.alike.opened] at hopen
    exact List.mem_map_of_mem (List.mem_of_getElem? hopen)
  have hsame : m.disk.files[P.source]? = some f :=
    (h.alike.files _ hmem).trans ((hw.files _ hsuits.older).trans hsuits.file)
  exact Option.some.inj (hbench.source.symm.trans hsame)

variable {key : Preparer.AttemptKey} {size rounds : Nat}

/-- Making the temp. -/
theorem createTemp_shares (hbase : σ.Starts s base)
    (hw : σ.Working key.attemptId key.taskId w)
    (hs : σ.Sourced base key.attemptId asset guard index f w)
    (htemp : σ.IsTemp key.tempName)
    (happart : key.tempName ≠ asset.targetPath.bytes) :
    σ.Shares s base key.attemptId (fun fd w' =>
        σ.start.disk.targets key.tempName = none ∧ ∃ P m g t,
          σ.Suits base f P ∧ P.guard = guard ∧ fd = P.tempFd
            ∧ σ.Lent key.attemptId key.taskId key.tempName P.tempFd P.temp w' m
            ∧ P.Bench m g t 0 0 ∧ t.current.content = [])
      (Files.createTempNoReplace key.tempName) w := by
  refine .perform (shares_file ?_)
  intro w₁ r d' hw₁ hrely hacts
  have hwork := hw.rely hrely
  have hs₁ := hs.rely hrely
  let P : Preparer.Preparation := {
    strerror := σ.strerror
    blake3 := σ.blake3
    machine := w₁.view key.attemptId
    guard := guard
    asset := asset
    key := key
    source := index
    file := f
    opened := Disk.openFile?_eq_some.2 ⟨hs₁.opened, hs₁.file⟩
    frozen := hs₁.identity
    fresh := hwork.unreceipted _ _
    apart := happart }
  have hsuits : σ.Suits base f P :=
    ⟨rfl, rfl, hs₁.older, (hw₁.files _ hs₁.older).symm.trans hs₁.file, hw₁.length⟩
  -- what the call does by itself
  have hown : Yields P.effects True
      (fun fd m => fd = P.tempFd ∧ ∃ g t, P.Bench m g t 0 0
        ∧ t.current.content = []) (fun _ => P.Frame)
      (Files.createTempNoReplace key.tempName) P.machine :=
    P.createTemp P.start fun g t m _ hempty hbench => ⟨rfl, g, t, hbench, hempty⟩
  have hdone : Ends True (fun fd m => fd = P.tempFd ∧ ∃ g t, P.Bench m g t 0 0
      ∧ t.current.content = []) (fun _ => P.Frame) (some r)
      { P.machine with disk := d' } :=
    hown r _ (hsuits.effects _ P.machine r d' hacts)
  rcases hacts with hacts | ⟨-, ⟨e, rfl⟩, rfl⟩
  · simp only [fileActs] at hacts
    split at hacts
    · obtain ⟨rfl, rfl⟩ := hacts
      rw [done_view_self]
      exact ⟨⟨hw₁, .refl _ _⟩, trivial⟩
    · obtain ⟨rfl, rfl⟩ := hacts
      rw [done_view_self]
      exact ⟨⟨hw₁, .refl _ _⟩, trivial⟩
    · next hnone =>
      obtain ⟨t, -, rfl, hd'⟩ := hacts
      obtain ⟨hpool, howns⟩ := hw₁.created hbase htemp hnone hwork.free hd'
      obtain ⟨-, g, t', hbench, hempty⟩ := hdone
      refine ⟨hpool, ?_, P, _, g, t', hsuits, rfl, rfl, ⟨hwork.done d', ?_, ?_, ?_⟩,
        hbench, hempty⟩
      · cases hstart : σ.start.disk.targets key.tempName with
        | none => rfl
        | some i =>
            have hthere := hw₁.kept.intact.targets _ i hstart
            exact absurd (hthere.symm.trans hnone) (Option.some_ne_none i)
      · rw [done_view]
        exact .refl d'
      · rw [done_handles, hd']
        refine (List.getElem?_map ..).trans ?_
        exact congrArg (Option.map OpenFile.file) (List.getElem?_concat_length ..)
      · show d'.targets key.tempName = _
        rw [hd']
        exact Function.update_self ..
  · rw [done_view_self]
    exact ⟨⟨hw₁, .refl _ _⟩, trivial⟩

/-- The temp is a synced copy of the source. -/
structure Drafted (σ : Site) (base : Machine) (key : Preparer.AttemptKey)
    (f : DiskFile) (index : Nat) (t : DiskFile) (w : MigrationService.World) :
    Prop where
  working : σ.Working key.attemptId key.taskId w
  owns : Owns base w key.attemptId index
  entry : w.machine.disk.targets key.tempName = some index
  file : w.machine.disk.files[index]? = some t
  synced : t.synced = true
  content : t.current.content = f.current.content

/-- Others leave a temp that was written. -/
theorem Drafted.rely (h : σ.Drafted base key f index t w)
    (hrely : Rely key.attemptId w w') : σ.Drafted base key f index t w' where
  working := h.working.rely hrely
  owns := by
    refine ⟨h.owns.1, ?_⟩
    unfold MigrationService.World.handles
    rw [hrely.table]
    exact h.owns.2
  entry := hrely.targets _ _ h.entry
  file := (hrely.files index h.owns.2).trans h.file
  synced := h.synced
  content := h.content

-- ============================================================= the receipt

/-- What the attempt is for. -/
structure Assigned (σ : Site) (asset : MinimalPlanAsset)
    (key : Preparer.AttemptKey) : Prop where
  mem : asset ∈ σ.artifact.plan.assets
  task : ∃ task, taskSpecForPlanAsset σ.blake3 asset = .ok task
    ∧ key.taskId = task.id
  plan : key.planId = σ.artifact.planId
  temp : key.tempName
    = tempNameFor σ.blake3 key.planId key.taskId key.attemptId

/-- The attempt has a receipt, and the task is still running under it. -/
def Reported (σ : Site) (a taskId : Bytes) (w : MigrationService.World) : Prop :=
  ∃ row ∈ w.machine.db.receipts, row.attemptId = a
    ∧ (row.planId, row.taskId) = (σ.artifact.planId, taskId)
    ∧ w.machine.db.Pending row

variable {copy : CopyResult} {digest : Digest}

/-- A temp has the name of one. -/
theorem Assigned.isTemp (h : σ.Assigned asset key) : σ.IsTemp key.tempName :=
  ⟨key.taskId, key.attemptId, by rw [h.temp, h.plan]⟩

/-- A temp is not named like its target. -/
theorem Assigned.apart (h : σ.Assigned asset key) :
    key.tempName ≠ asset.targetPath.bytes := by
  obtain ⟨taskId, attemptId, htemp⟩ := h.isTemp
  rw [htemp]
  exact (σ.generated asset h.mem taskId attemptId).symm

/-- What the receipt says is true. -/
theorem Assigned.records (h : σ.Assigned asset key)
    (hfrozen : σ.Frozen asset f.current)
    (hidentity : guard.manifestIdentity = asset.sourceIdentity)
    (hfresh : σ.start.disk.targets key.tempName = none)
    (hcopy : copy = ⟨f.current.content.length, σ.blake3 f.current.content⟩)
    (hdigest : digest = σ.blake3 f.current.content) {source : Digest}
    {identity : FileIdentity}
    (hsource : (Preparer.receiptOf guard asset key copy digest).sourceDigest
      = some source)
    (hid : (Preparer.receiptOf guard asset key copy digest).sourceIdentity
      = some identity) :
    σ.Records asset (receiptRow key.planId
      (Preparer.receiptOf guard asset key copy digest) source identity) where
  planId := h.plan
  task := h.task
  fresh := hfresh
  finalPath := rfl
  identity := by
    cases hid
    exact congrArg encodeIdentity hidentity
  size := by
    show copy.bytesCopied.toUInt64 = _
    rw [hcopy, ← hfrozen.2]
    show f.current.content.length.toUInt64 = _
    rw [← f.current.size]
    exact UInt64.ofNat_toNat
  digests := by
    refine ⟨f.current, hfrozen, hdigest, ?_⟩
    have hsame : copy.sourceDigest = source := Option.some.inj hsource
    show source = _
    rw [← hsame, hcopy]

/-- Writing the temp, and marking it. -/
theorem persist_shares (hbase : σ.Starts s base) (h : σ.Assigned asset key)
    (hfrozen : σ.Frozen asset f.current)
    (hidentity : guard.manifestIdentity = asset.sourceIdentity)
    (hfresh : σ.start.disk.targets key.tempName = none)
    (hcopy : copy = ⟨f.current.content.length, σ.blake3 f.current.content⟩)
    (hdigest : digest = σ.blake3 f.current.content)
    (hd : σ.Drafted base key f index t w) :
    σ.Shares s base key.attemptId
      (fun _ w' => σ.Reported key.attemptId key.taskId w')
      (repository (.persistVerifiedReceipt key.planId
        (Preparer.receiptOf guard asset key copy digest))) w := by
  refine shares_repository fun w₁ v db' hw₁ hrely hrun => ?_
  have hd₁ := hd.rely hrely
  -- it was not stored before: the attempt at work has no receipt
  rcases persistVerifiedReceipt_cases hrun with
    ⟨-, hstored⟩ | ⟨source, identity, hsource, hid, -, hdb⟩
  · exact absurd ((hd₁.working.unreceipted _ _).symm.trans hstored)
      Bool.false_ne_true
  have hrecords : ∀ source identity,
      (Preparer.receiptOf guard asset key copy digest).sourceDigest = some source →
      (Preparer.receiptOf guard asset key copy digest).sourceIdentity
        = some identity →
      σ.Records asset (receiptRow key.planId
        (Preparer.receiptOf guard asset key copy digest) source identity) :=
    fun _ _ => h.records hfrozen hidentity hfresh hcopy hdigest
  have hstaged : ∀ source identity,
      (Preparer.receiptOf guard asset key copy digest).sourceDigest = some source →
      (Preparer.receiptOf guard asset key copy digest).sourceIdentity
        = some identity →
      σ.Staged w₁.machine.disk (receiptRow key.planId
        (Preparer.receiptOf guard asset key copy digest) source identity) :=
    fun source identity hs hi => ⟨index, t, hd₁.entry, hd₁.file, hd₁.synced, asset,
      h.mem, hrecords source identity hs hi, f.current, hfrozen, hd₁.content⟩
  have hledger := hw₁.kept.ledger.persist hrun h.temp
    (fun source identity hs hi => ⟨⟨asset, h.mem, hrecords source identity hs hi⟩,
      hstaged source identity hs hi⟩) fun row hrow hpending hsame => ?_
  swap
  · -- the temp of another attempt is another file
    obtain ⟨-, i, hi, howns⟩ := hw₁.held row hrow hpending
    have hsame' : row.tempPath = key.tempName := hsame
    rw [hsame', hd₁.entry] at hi
    cases hi
    exact hd₁.working.free row hrow (hw₁.apart _ _ _ howns hd₁.owns)
  -- the tasks stay, and the receipt comes last
  have htasks : db'.tasks = w₁.machine.db.tasks := by
    rw [hdb]
    rfl
  have hreceipts : db'.receipts = w₁.machine.db.receipts ++ [receiptRow key.planId
      (Preparer.receiptOf guard asset key copy digest) source identity] := by
    rw [hdb]
    rfl
  refine ⟨hw₁.worked hbase (Db.worked_persist hrun) hledger
    fun row hrow hpending => ?_, ?_⟩
  · rw [hreceipts] at hrow
    rcases List.mem_append.1 hrow with hold | hlast
    · refine hw₁.held row hold ?_
      obtain ⟨task, htask, hruns⟩ := hpending
      exact ⟨task, htasks ▸ htask, hruns⟩
    · rw [List.mem_singleton.1 hlast]
      exact ⟨hstaged source identity hsource hid, index, hd₁.entry, hd₁.owns⟩
  -- its own task runs under it
  · obtain ⟨task, htask, hkey, hruns⟩ := hd₁.working.running
    refine ⟨receiptRow key.planId (Preparer.receiptOf guard asset key copy digest)
      source identity, ?_, rfl, Prod.ext h.plan rfl, task, ?_, hkey.trans ?_, hruns⟩
    · show _ ∈ db'.receipts
      rw [hreceipts]
      exact List.mem_append_right _ (List.mem_singleton_self _)
    · show task ∈ db'.tasks
      rw [htasks]
      exact htask
    · exact Prod.ext h.plan.symm rfl

-- ========================================================= the preparation

/-- Opening the temp again. -/
theorem openTemp_shares (hbase : σ.Starts s base) {path : RelativePath}
    (hpath : path.bytes = key.tempName)
    (hd : σ.Drafted base key f index t w) :
    σ.Shares s base key.attemptId (fun fd w' => ∃ m,
        σ.Lent key.attemptId key.taskId key.tempName fd index w' m
          ∧ m.disk.openFile? fd = some (⟨index, 0⟩, t))
      (Files.openSource .target path) w := by
  refine .perform (shares_file ?_)
  rintro w₁ r d' hw₁ hrely (hacts | ⟨-, ⟨e, rfl⟩, rfl⟩)
  · have hd₁ := hd.rely hrely
    have hentry : (w₁.view key.attemptId).disk.lookUp .target path.bytes
        = some index := by
      rw [hpath]
      exact hd₁.entry
    simp only [fileActs, hentry] at hacts
    obtain ⟨rfl, rfl⟩ := hacts
    refine ⟨hw₁.opening hbase (.inr hd₁.owns) hd₁.working.free,
      { w₁.view key.attemptId with
        disk := (w₁.view key.attemptId).disk.opening index },
      ⟨hd₁.working.done _, ?_, ?_, hd₁.entry⟩, Disk.openFile?_opening hd₁.file⟩
    · rw [done_view]
      exact .refl _
    · rw [done_handles]
      refine (List.getElem?_map ..).trans ?_
      exact congrArg (Option.map OpenFile.file) (List.getElem?_concat_length ..)
  · rw [done_view_self]
    exact ⟨⟨hw₁, .refl _ _⟩, trivial⟩

/-- Reading the temp back. -/
theorem verifyTemp_shares (hbase : σ.Starts s base) (h : σ.Assigned asset key)
    (hfrozen : σ.Frozen asset f.current)
    (hidentity : guard.manifestIdentity = asset.sourceIdentity)
    (hfresh : σ.start.disk.targets key.tempName = none)
    (hcopy : copy = ⟨f.current.content.length, σ.blake3 f.current.content⟩)
    (hd : σ.Drafted base key f index t w) :
    σ.Shares s base key.attemptId
      (fun _ w' => σ.Reported key.attemptId key.taskId w')
      (Preparer.verifyTemp σ.blake3 guard asset key copy size rounds) w := by
  unfold Preparer.verifyTemp
  refine .bind (.ofExcept (fun path hpath => ?_) fun _ _ => trivial)
  refine .andThen (openTemp_shares hbase (RelativePath.parse_bytes hpath) hd) ?_
  rintro fd w₁ ⟨m, hlent, hopen⟩
  have hlasting : Lasting σ.trouble fd fun m => m.disk.files[index]? = some t := by
    refine ⟨fun hdisk hm => ?_, fun hm => hm⟩
    cases Disk.disturbed_calm (fun _ => id) hdisk
    exact hm
  have hverify : Yields σ.effects True (fun r m' => r = verificationOf σ.blake3
        t.current copy.bytesCopied (some copy.sourceDigest)
      ∧ m'.disk.files[index]? = some t) (fun _ _ => True)
      (verifyBinary σ.blake3 .fresh fd copy.bytesCopied (some copy.sourceDigest)
        size rounds) m :=
    (verifyBinary_rough hlasting hopen id rfl
      (Disk.openFile?_eq_some.1 hopen).2).mono (fun _ _ hr => hr)
      fun _ _ _ => trivial
  refine .andThen (shares_handles hbase (fun _ _ _ _ => site_effects)
    (verifyBinary_calls trivial trivial) hd.owns.1 hlent hverify) ?_
  rintro verification w₂ ⟨m₂, hlent₂, rfl, hfile⟩
  have hmem : index ∈ w₂.handles key.attemptId := List.mem_of_getElem? hlent₂.fd
  refine .ite (fun _ => .throw trivial) fun _ => ?_
  refine .andThen (persist_shares hbase h hfrozen hidentity hfresh hcopy ?_
    ⟨hlent₂.working, ⟨hd.owns.1, hmem⟩, hlent₂.entry,
      (hlent₂.alike.files index hmem).symm.trans hfile, hd.synced, hd.content⟩)
    fun _ _ hreported => .pure hreported
  exact congrArg σ.blake3 hd.content

/-- A preparation that ends well has a receipt. -/
theorem prepare_shares (hbase : σ.Starts s base) (hpool : σ.Pooled s base w)
    (h : σ.Assigned asset key) (hw : σ.Working key.attemptId key.taskId w)
    (hs : σ.Sourced base key.attemptId asset guard index f w) :
    σ.Shares s base key.attemptId
      (fun _ w' => σ.Reported key.attemptId key.taskId w')
      (Preparer.prepare σ.blake3 guard asset key size rounds) w := by
  unfold Preparer.prepare
  refine .ite (fun _ => .throw trivial) fun _ =>
    .ite (fun _ => .throw trivial) fun _ => ?_
  refine .seq hpool (shares_advances hbase rfl) fun _ w₁ hpool₁ hrely => ?_
  refine .seq hpool₁ (createTemp_shares hbase (hw.rely hrely) (hs.rely hrely)
    h.isTemp h.apart) ?_
  rintro _ w₂ hpool₂ ⟨hfresh, P, m, g, t, hsuits, rfl, rfl, hlent, hbench, hempty⟩
  have hbefore : Yields P.effects True
      (fun guard' m' => guard' = { P.guard with
          openedIdentity := P.guard.manifestIdentity }
        ∧ ∃ g', g'.current.identity = P.guard.manifestIdentity
          ∧ P.Bench m' g' t 0 0)
      (fun _ => P.Frame) P.guard.verifyBeforeRead m :=
    Preparer.Preparation.verifyBeforeRead_bench rfl hbench
      fun g' _ _ hid hbench' => ⟨rfl, g', hid, hbench'⟩
  refine .seq hpool₂ (shares_handles hbase hsuits.effects verifyBeforeRead_handles
    hsuits.large hlent hbefore) ?_
  rintro _ w₃ hpool₃ ⟨m₃, hlent₃, rfl, g₃, hid, hbench₃⟩
  obtain rfl := hlent₃.source hpool₃ hsuits hbench₃
  have hcopies : Yields P.effects True (P.CopyOf g₃) (fun _ => P.Frame)
      (Preparer.copySource σ.blake3 { P.guard with
        openedIdentity := P.guard.manifestIdentity } P.tempFd size rounds) m₃ := by
    rw [← hsuits.blake3]
    exact Preparer.Preparation.copySource_bench rfl hid hbench₃ hempty
  refine .seq hpool₃ (shares_handles hbase hsuits.effects copySource_handles
    hsuits.large hlent₃ hcopies) ?_
  rintro copy w₄ hpool₄ ⟨m₄, hlent₄, g₄, t₄, _, _, -, hbench₄, hcontent, hcopy⟩
  have hsyncs : Yields P.effects True
      (fun _ m' => ∃ g' read written,
        P.Bench m' g' { t₄ with synced := true } read written)
      (fun _ => P.Frame) (Files.fdatasync P.tempFd) m₄ :=
    Preparer.Preparation.fdatasync_temp hbench₄
      fun g' _ _ hbench' => ⟨g', _, _, hbench'⟩
  refine .seq hpool₄ (shares_handles hbase hsuits.effects
    (.lift (uses_call rfl)) hsuits.large hlent₄ hsyncs) ?_
  rintro _ w₅ hpool₅ ⟨m₅, hlent₅, g₅, _, _, hbench₅⟩
  have hmem : P.temp ∈ w₅.handles key.attemptId := List.mem_of_getElem? hlent₅.fd
  have hd : σ.Drafted base key g₃ P.temp { t₄ with synced := true } w₅ :=
    ⟨hlent₅.working, ⟨hsuits.large, hmem⟩, hlent₅.entry,
      (hlent₅.alike.files _ hmem).symm.trans hbench₅.temp, rfl, hcontent⟩
  rw [hsuits.blake3] at hcopy
  refine .andThen (shares_advances hbase rfl) fun _ w₆ hrely₆ => ?_
  exact verifyTemp_shares hbase h hs.frozen hs.identity hfresh hcopy (hd.rely hrely₆)

variable {claimed : ClaimedTask}

/-- A job that ends well has stored a receipt. -/
theorem prepareClaimed_shares (hbase : σ.Starts s base)
    (hpool : σ.Pooled s base w) (h : σ.Assigned asset key)
    (hw : σ.Working key.attemptId key.taskId w) :
    σ.Shares s base key.attemptId
      (fun _ w' => σ.Reported key.attemptId key.taskId w')
      (prepareClaimed σ.blake3 s asset key rounds) w := by
  unfold prepareClaimed
  refine .seq hpool shares_openRoot fun _ w₁ hpool₁ hrely => ?_
  refine .seq hpool₁ (guard_shares hbase h.mem (hw.rely hrely)) ?_
  rintro guard w₂ hpool₂ ⟨hw₂, index, f, hs⟩
  refine .seq hpool₂ shares_openRoot fun _ w₃ hpool₃ hrely₃ => ?_
  exact prepare_shares hbase hpool₃ h (hw₂.rely hrely₃) (hs.rely hrely₃)

end Site

end PhotoBridge
