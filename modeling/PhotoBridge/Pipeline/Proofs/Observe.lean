/-
What recovery finds out about a task before it does anything.

`Running` is what the loop knows of a task it comes to: its row, and what
there is of its receipt, its source, its temp and its final, which is its
`Evidence`. The functions that open the job, look up the receipt and look
at the files then return what the evidence says, and change nothing but
the open files; only a receipt about something else ends the task early.
-/
import PhotoBridge.Db.Proofs.Dependencies
import PhotoBridge.Pipeline.Proofs.Reading
import PhotoBridge.Pipeline.Proofs.Reconcile
import PhotoBridge.Pipeline.Proofs.Runtime
import PhotoBridge.Proofs.Encoding

namespace PhotoBridge.RecoveryService

open Concurrent JsonText Reconciler Transaction

-- ============================================================== evidence

/-- The receipt that is stored of an attempt. -/
def storedReceipt (db : Db) (planId taskId attemptId : Bytes) :
    Option VerifiedReceipt :=
  (db.receipt? planId taskId attemptId).bind fun row =>
    (decodeIdentity row.sourceIdentity).toOption.map row.toReceipt

namespace Evidence

/-- The attempt the task is running under. -/
def attemptId (e : Evidence) : Bytes := e.runtime.attemptId.getD []

def tempName (e : Evidence) (blake3 : Bytes → Digest) (planId : Bytes) : Bytes :=
  tempNameFor blake3 planId e.runtime.id e.attemptId

def finalName (e : Evidence) : Bytes := e.asset.targetPath.bytes

/-- The job that is made of it. -/
def job (e : Evidence) (blake3 : Bytes → Digest) (planId : Bytes)
    (epoch : Nat) (task : TaskSpec) : Job where
  planId := planId
  asset := e.asset
  task := task
  runtime := e.runtime
  attemptId := e.attemptId
  recoveryEpoch := epoch
  intent := {
    taskId := task.id
    attemptId := e.attemptId
    ownerEpoch := e.runtime.ownerEpoch
    tempPath := e.tempName blake3 planId
    finalPath := e.finalName }
  receipt := e.receipt

/-- The names of the target root that are the task's own. -/
def Owns (e : Evidence) (blake3 : Bytes → Digest) (planId name : Bytes) : Prop :=
  name = e.tempName blake3 planId ∨ name = e.finalName

end Evidence

/-- What the plan promises of a task that is to be recovered. -/
structure Recoverable (blake3 : Bytes → Digest) (planId : Bytes)
    (epoch rounds : Nat) (task : TaskSpec) (e : Evidence) : Prop where
  plan : IsId planId
  planUtf8 : IsUtf8 planId
  representable : epoch ≤ int64Max
  spec : taskSpecForPlanAsset blake3 e.asset = .ok task
  valid : validateTaskSpec task = .ok ()
  state : e.runtime.state = .running
  single : e.asset.targetPath.components.length = 1
  utf8 : IsUtf8 e.finalName
  apart : e.tempName blake3 planId ≠ e.finalName
  fits : ∀ v, e.temp = some v ∨ e.final = some v → v.content.length < rounds

/-- What there is of the task in the database. -/
structure Running (blake3 : Bytes → Digest) (planId : Bytes) (epoch : Nat)
    (task : TaskSpec) (e : Evidence) (db : Db) : Prop where
  reached : Reached blake3 db
  current : db.currentEpoch? planId = some epoch
  row : ∃ row, db.task? planId task.id = some row ∧ e.runtime = row.toRuntime
    ∧ row.attemptCount ≤ uint32Max ∧ ¬row.lastError.any Status.isOk
  receipt : e.receipt = storedReceipt db planId e.runtime.id e.attemptId

/-- What there is of it on the disk. -/
structure Found (blake3 : Bytes → Digest) (planId : Bytes) (e : Evidence)
    (d : Disk) : Prop where
  sound : d.Sound
  source : e.source = d.version? .source e.asset.sourcePath.bytes
  temp : e.temp = d.version? .target (e.tempName blake3 planId)
  final : e.final = d.version? .target e.finalName

variable {strerror : Nat → Bytes} {blake3 : Bytes → Digest} {planId : Bytes}
  {epoch rounds : Nat} {task : TaskSpec} {e : Evidence} {db : Db}
  {w w' : Machine}

theorem Found.reads (h : Found blake3 planId e w.disk) (hreads : w.Reads w') :
    Found blake3 planId e w'.disk where
  sound := hreads.sound h.sound
  source := h.source.trans (hreads.version? _ _).symm
  temp := h.temp.trans (hreads.version? _ _).symm
  final := h.final.trans (hreads.version? _ _).symm

section Row

variable (h : Running blake3 planId epoch task e db)
include h

theorem Running.id : e.runtime.id = task.id := by
  obtain ⟨row, hrow, hruntime, -⟩ := h.row
  rw [hruntime]
  exact (Db.task?_key hrow).2.2

theorem Running.read (hids : checkIds planId task.id = .ok ()) :
    (Repository.readRuntime planId task.id : DbTxn TaskRuntime) db
      = .ok (e.runtime, db) := by
  obtain ⟨row, hrow, hruntime, hcount, herror⟩ := h.row
  exact liftCheck_bind_ok.2 ⟨(), hids, readRuntimeWithStatement_ok.2
    ⟨⟨row, hrow, hcount, herror, hruntime⟩, rfl⟩⟩

/-- A task that is running is held by its attempt. -/
theorem Running.holds (hstate : e.runtime.state = .running) :
    db.Holds planId task.id e.attemptId e.runtime.ownerEpoch
      ∧ e.runtime.attemptId = some e.attemptId := by
  obtain ⟨row, hrow, hruntime, -⟩ := h.row
  have hrunning : row.state = .running := by
    rw [hruntime] at hstate
    exact hstate
  have howned := h.reached.sound.owned.tasks row (Db.task?_key hrow).1
  obtain ⟨owner, howner⟩ :=
    Option.isSome_iff_exists.1 (howned.owner_iff.1 hrunning)
  obtain ⟨attempt, hattempt⟩ :=
    Option.isSome_iff_exists.1 (howned.attempt_iff.1 hrunning)
  have hid : e.attemptId = attempt := by
    rw [Evidence.attemptId, hruntime, TaskRow.toRuntime, hattempt]
    rfl
  have hepoch : e.runtime.ownerEpoch = owner := by
    rw [hruntime, TaskRow.toRuntime, howner]
    rfl
  rw [hid, hepoch]
  refine ⟨⟨row, hrow, hrunning, howner, hattempt⟩, ?_⟩
  rw [hruntime]
  exact hattempt

/-- The ids and the epochs of a running task are accepted. -/
theorem Running.accepted (hr : Recoverable blake3 planId epoch rounds task e) :
    IsId task.id ∧ IsId e.attemptId ∧ e.runtime.ownerEpoch ≠ 0
      ∧ e.runtime.ownerEpoch ≤ epoch := by
  obtain ⟨hholds, -⟩ := h.holds hr.state
  obtain ⟨-, hpos, current, hcurrent, hle⟩ := h.reached.sound.holds hholds
  obtain ⟨row, hrow, -, -, hattempt⟩ := hholds
  obtain ⟨hmem, -, hkey⟩ := Db.task?_key hrow
  rw [h.current] at hcurrent
  cases hcurrent
  obtain ⟨hnul, hids⟩ := h.reached.named.tasks row hmem
  refine ⟨⟨?_, hkey ▸ hnul⟩, hids _ hattempt, by omega, hle⟩
  have hvalid := hr.valid
  unfold validateTaskSpec at hvalid
  split at hvalid
  · cases hvalid
  · next hid => exact Bool.eq_false_iff.2 hid

end Row

-- ================================================================ endings

/-- The task's rows are settled as the ending says, and no others. -/
def Ending.Settles (ending : Ending) (planId : Bytes) (e : Evidence)
    (db db' : Db) : Prop :=
  ∃ event : EventRow, event.planId = planId ∧ event.taskId = e.runtime.id
    ∧ event.eventType ≠ .running
    ∧ db' = db.settle planId e.runtime.id e.attemptId e.runtime.ownerEpoch
      ending.runtime.state ending.attempt ending.runtime.lastError event

/-- The task has met its fate. -/
structure Recovered (blake3 : Bytes → Digest) (planId : Bytes) (e : Evidence)
    (w : Machine) (r : Except Status Unit) (w' : Machine) : Prop where
  result : r = (e.fate blake3).2
  settled : (e.fate blake3).1.Settles planId e w.db w'.db
  within : w.disk.Within (e.Owns blake3 planId) w'.disk
  temp : w'.disk.version? .target (e.tempName blake3 planId)
    = (e.fate blake3).1.temp
  final : w'.disk.version? .target e.finalName = (e.fate blake3).1.final

section Recovery

variable (h : Running blake3 planId epoch task e w.db)
  (hr : Recoverable blake3 planId epoch rounds task e)
  {ok : Unit → Machine → Prop} {fail : Status → Machine → Prop}
  {reason : Bytes}
include h hr

/-- The recovery of a running task goes through. -/
theorem Running.recover_ok (hreason : reason.isEmpty = false)
    (next : TaskState) (attempt : FileAttemptState) (event : EventType)
    (hevent : event ≠ .running) (error : Option Status) :
    ∃ db', (Repository.recover planId task.id epoch e.runtime.ownerEpoch
        e.attemptId reason next attempt event error : DbTxn Unit) w.db
          = .ok ((), db')
      ∧ (e.released next attempt error).Settles planId e w.db db' := by
  obtain ⟨hholds, -⟩ := h.holds hr.state
  obtain ⟨htask, hattempt, hpos, hle⟩ := h.accepted hr
  have hmax := hr.representable
  have hcheck : Repository.checkRecovery planId task.id epoch
      e.runtime.ownerEpoch e.attemptId reason = .ok () := by
    unfold Repository.checkRecovery
    rw [checkIds_ok.2 ⟨hr.plan, htask⟩,
      checkEpochAttempt_ok.2 ⟨by omega, hattempt, hmax⟩,
      checkEpochAttempt_ok.2 ⟨hpos, hattempt, by omega⟩, hreason]
    rfl
  refine ⟨_, RecoveryService.recover_ok h.reached.sound hholds h.current hcheck
    event, recoveryEvent planId task.id event epoch e.runtime.ownerEpoch
    e.attemptId reason, rfl, h.id.symm, hevent, ?_⟩
  rw [h.id]
  rfl

theorem recoverRetryable_quiet (hreason : reason.isEmpty = false)
    (hok : ∀ db', (e.retried reason).Settles planId e w.db db' →
      ok () { w with db := db' }) :
    Yields (pipelineEffects strerror blake3 .none) False ok fail
      (recoverRetryable (e.job blake3 planId epoch task) reason) w := by
  obtain ⟨db', hrun, hsettles⟩ := h.recover_ok hr hreason .retryable .retryable
    .recoverRetryable EventType.noConfusion (some ⟨.ioError, reason⟩)
  refine repository_quiet (fun u db₁ hrun₁ => ?_) fun e hrun₁ => ?_
  · cases hrun.symm.trans hrun₁
    exact hok _ hsettles
  · cases hrun.symm.trans hrun₁

theorem recoverInconsistent_quiet (hreason : reason.isEmpty = false)
    (hok : ∀ db', (e.setAside reason).Settles planId e w.db db' →
      ok () { w with db := db' }) :
    Yields (pipelineEffects strerror blake3 .none) False ok fail
      (recoverInconsistent (e.job blake3 planId epoch task) reason) w := by
  obtain ⟨db', hrun, hsettles⟩ := h.recover_ok hr hreason .inconsistent
    .inconsistent .recoverInconsistent EventType.noConfusion
    (some ⟨.internal, reason⟩)
  refine repository_quiet (fun u db₁ hrun₁ => ?_) fun e hrun₁ => ?_
  · cases hrun.symm.trans hrun₁
    exact hok _ hsettles
  · cases hrun.symm.trans hrun₁

theorem recoverSucceeded_quiet (hreason : reason.isEmpty = false)
    (hok : ∀ db', e.succeeded.Settles planId e w.db db' →
      ok () { w with db := db' }) :
    Yields (pipelineEffects strerror blake3 .none) False ok fail
      (recoverSucceeded (e.job blake3 planId epoch task) reason) w := by
  obtain ⟨db', hrun, hsettles⟩ := h.recover_ok hr hreason .succeeded .committed
    .recoverSucceeded EventType.noConfusion none
  refine repository_quiet (fun u db₁ hrun₁ => ?_) fun e hrun₁ => ?_
  · cases hrun.symm.trans hrun₁
    exact hok _ hsettles
  · cases hrun.symm.trans hrun₁

end Recovery

-- ================================================================ the job

/-- A stored receipt that can be read is read, and one that is not there
is reported as such. -/
theorem readVerifiedReceipt_stored {db : Db} (hnamed : Named blake3 db)
    {taskId attemptId : Bytes} (hids : IsId planId ∧ IsId taskId)
    (hattempt : IsId attemptId) :
    (Repository.readVerifiedReceipt planId taskId attemptId :
        DbTxn VerifiedReceipt) db
      = match storedReceipt db planId taskId attemptId with
        | some receipt => .ok (receipt, db)
        | none => .error (.notFound "verified receipt was not found") := by
  have hcheck : Repository.checkReceiptKey planId taskId attemptId = .ok () := by
    unfold Repository.checkReceiptKey
    rw [checkIds_ok.2 hids, hattempt.1, hattempt.2]
    rfl
  unfold Repository.readVerifiedReceipt storedReceipt
  rw [hcheck]
  show (readVerifiedReceiptStatement planId taskId attemptId :
    DbTxn VerifiedReceipt) db = _
  cases hrow : db.receipt? planId taskId attemptId with
  | none =>
      unfold readVerifiedReceiptStatement
      rw [select_bind, hrow]
      rfl
  | some row =>
      have hmem := List.mem_of_find?_eq_some hrow
      obtain ⟨hepoch, ⟨identity, hidentity⟩, -⟩ := hnamed.receipts row hmem
      have hdecode : decodeIdentity row.sourceIdentity = .ok identity := by
        rw [hidentity, decodeIdentity_encodeIdentity]
      rw [Option.bind_some, hdecode]
      exact readVerifiedReceiptStatement_ok.2
        ⟨⟨row, identity, hrow, hepoch, hdecode, rfl⟩, rfl⟩

/-- What a stored receipt is filed under. -/
theorem storedReceipt_key {db : Db} (hnamed : Named blake3 db)
    {taskId attemptId : Bytes} {receipt : VerifiedReceipt}
    (h : storedReceipt db planId taskId attemptId = some receipt) :
    receipt.taskId = taskId ∧ receipt.attemptId = attemptId
      ∧ receipt.tempPath = tempNameFor blake3 planId taskId attemptId := by
  obtain ⟨row, hrow, hreceipt⟩ := Option.bind_eq_some_iff.1 h
  obtain ⟨identity, -, rfl⟩ := Option.map_eq_some_iff.1 hreceipt
  have hkey : ReceiptRow.isAt planId taskId attemptId row = true :=
    List.find?_some (p := ReceiptRow.isAt planId taskId attemptId) hrow
  simp only [ReceiptRow.isAt, Bool.and_eq_true, beq_iff_eq] at hkey
  obtain ⟨⟨rfl, rfl⟩, rfl⟩ := hkey
  exact ⟨rfl, rfl, (hnamed.receipts row (List.mem_of_find?_eq_some hrow)).temp⟩

section Job

variable (h : Running blake3 planId epoch task e w.db)
  (hr : Recoverable blake3 planId epoch rounds task e)
  {fail : Status → Machine → Prop}
include h hr

private theorem openJob_quiet {ok : Job → Machine → Prop}
    (hok : ok { e.job blake3 planId epoch task with receipt := none } w) :
    Yields (pipelineEffects strerror blake3 .none) False ok fail
      (openJob blake3 planId epoch e.asset) w := by
  obtain ⟨htask, -, hepoch, -⟩ := h.accepted hr
  obtain ⟨-, hactive⟩ := h.holds hr.state
  have hread := h.read (checkIds_ok.2 ⟨hr.plan, htask⟩)
  unfold openJob
  refine .bind (.ofExcept (fun task' htask' => ?_) fun err herr => ?_)
  swap
  · cases hr.spec.symm.trans herr
  cases hr.spec.symm.trans htask'
  refine .bind (repository_quiet (fun runtime db' hread' => ?_)
    fun err hread' => ?_)
  swap
  · cases hread.symm.trans hread'
  cases hread.symm.trans hread'
  rw [hactive]
  refine .ite (fun hnot => ?_) fun _ => .ite (fun hsingle => ?_) fun _ => .pure ?_
  · exact (hnot.elim (· hr.state) hepoch).elim
  · exact absurd hr.single hsingle
  · unfold Evidence.job Evidence.tempName at hok
    rw [h.id] at hok
    exact hok

/-- The receipt is that of the job, or it ends the task. -/
theorem readReceipt_quiet {ok : Job → Machine → Prop}
    (hok : e.consistent = true → ok (e.job blake3 planId epoch task) w)
    (hfail : ∀ db', e.consistent = false →
      (e.setAside mismatchReason).Settles planId e w.db db' →
        fail ⟨.internal, mismatchReason⟩ { w with db := db' }) :
    Yields (pipelineEffects strerror blake3 .none) False ok fail
      (readReceipt { e.job blake3 planId epoch task with receipt := none })
      w := by
  obtain ⟨htask, hattempt, -, -⟩ := h.accepted hr
  obtain ⟨-, hactive⟩ := h.holds hr.state
  have hstored := readVerifiedReceipt_stored h.reached.named
    ⟨hr.plan, htask⟩ hattempt
  have hreceipt := h.receipt
  rw [h.id] at hreceipt
  rw [← hreceipt] at hstored
  unfold readReceipt
  refine .bind (.result (repository_quiet (fun receipt db' hread => ?_)
    fun err hread => ?_))
  · cases hfound : e.receipt with
    | none =>
        rw [hfound] at hstored
        cases hstored.symm.trans hread
    | some stored =>
        rw [hfound] at hstored
        cases hstored.symm.trans hread
        obtain ⟨hkey, hkey', htemp⟩ := storedReceipt_key h.reached.named
          (hreceipt.symm.trans hfound)
        have hmatches : receiptMatchesPlan
            { e.job blake3 planId epoch task with receipt := none } receipt
              = e.consistent := by
          simp only [receiptMatchesPlan, Evidence.consistent, Evidence.job,
            Evidence.finalName, hfound, Option.all_some, h.id, hactive,
            Option.some_beq_some]
        have hjob : Job.withReceipt
            { e.job blake3 planId epoch task with receipt := none } receipt
              = e.job blake3 planId epoch task := by
          simp only [Job.withReceipt, Evidence.job, Evidence.tempName, hfound,
            htemp, h.id]
        simp only [hmatches, hjob]
        refine .ite (fun hyes => .pure (hok hyes)) fun hno => ?_
        have hno := Bool.eq_false_iff.2 hno
        exact .bind (recoverInconsistent_quiet h hr (by decide +kernel)
          fun db' hsettles => .throw (hfail db' hno hsettles))
  · cases hfound : e.receipt with
    | some stored =>
        rw [hfound] at hstored
        cases hstored.symm.trans hread
    | none =>
        rw [hfound] at hstored
        cases hstored.symm.trans hread
        refine .ite (fun _ => .pure ?_) fun hne => absurd rfl hne
        have hjob : { e.job blake3 planId epoch task with receipt := none }
            = e.job blake3 planId epoch task := by
          simp only [Evidence.job, hfound]
        rw [hjob]
        exact hok (by rw [Evidence.consistent, hfound]; rfl)

end Job

-- ============================================================== the files

section Files

variable {fail : Status → Machine → Prop}

/-- Opening the source under guard shows whether it is as the plan has it. -/
theorem observeSource_quiet {asset : MinimalPlanAsset} (hsound : w.disk.Sound)
    {ok : ObservedFileState → Machine → Prop}
    (hok : ∀ w', w.Reads w' → ok (match
      w.disk.version? .source asset.sourcePath.bytes with
        | none => {}
        | some v => if v.identity = asset.sourceIdentity then {
            sourceAvailable := true
            sourceIdentity := some asset.sourceIdentity }
          else { sourceChanged := true }) w') :
    Yields (pipelineEffects strerror blake3 .none) False ok fail
      (observeSource asset) w := by
  unfold observeSource MutationGuard.open_
  cases hsource : w.disk.version? .source asset.sourcePath.bytes with
  | none =>
      simp only [hsource] at hok
      refine .bind (.result (.bind (openSource_quiet (fun index hlook => ?_)
        fun _ => ?_)))
      · rw [hsound.version?_eq_none.1 hsource] at hlook
        cases hlook
      · refine .ite (fun _ => .pure (hok w (.refl w))) fun hne => ?_
        exact absurd rfl hne
  | some v =>
      simp only [hsource] at hok
      refine .bind (.result (.bind (openSource_version hsource
        fun fd f w' hreads hf hopen => .bind (statFd_quiet hopen ?_))))
      rw [hf]
      have hok := hok w' hreads
      refine .ite (fun hne => .throw ?_) fun heq => .pure ?_
      · rw [if_neg hne] at hok
        refine .ite (fun habsent => ?_) fun _ =>
          .ite (fun _ => .pure hok) fun hne => absurd rfl hne
        cases habsent
      · rw [if_pos (not_not.1 heq)] at hok
        exact .pure hok

/-- What `ObserveRecoveryFile` sees of a file. -/
def seen (blake3 : Bytes → Digest) (temp : Bool) (observed : ObservedFileState)
    (expectedSize : UInt64) (expectedDigest : Digest) :
    Option FileVersion → Bool × ObservedFileState
  | none => (false, observed)
  | some v => (true, see temp observed
      (verificationOf blake3 v expectedSize.toNat (some expectedDigest)))

theorem observeRecoveryFile_quiet {name : Bytes} (hname : IsFileName name)
    (hsound : w.disk.Sound) {expectedSize : UInt64} {expectedDigest : Digest}
    {temp : Bool} {observed : ObservedFileState}
    (hrounds : ∀ v, w.disk.version? .target name = some v →
      v.content.length < rounds)
    {ok : Bool × ObservedFileState → Machine → Prop}
    (hok : ∀ w', w.Reads w' → ok (seen blake3 temp observed expectedSize
      expectedDigest (w.disk.version? .target name)) w') :
    Yields (pipelineEffects strerror blake3 .none) False ok fail
      (observeRecoveryFile blake3 name expectedSize expectedDigest temp observed
        rounds) w := by
  obtain ⟨path, hparse, hbytes⟩ := hname.parse
  unfold observeRecoveryFile
  refine .bind (.ofExcept (fun path' hparse' => ?_) fun err herr => ?_)
  swap
  · cases hparse.symm.trans herr
  cases hparse.symm.trans hparse'
  rw [← hbytes] at hrounds hok
  cases htarget : w.disk.version? .target path.bytes with
  | none =>
      rw [htarget] at hok
      refine .bind (.result (openSource_quiet (fun index hlook => ?_)
        fun _ => ?_))
      · rw [hsound.version?_eq_none.1 htarget] at hlook
        cases hlook
      · exact .ite (fun _ => .pure (hok w (.refl w))) fun hne => absurd rfl hne
  | some v =>
      rw [htarget] at hok
      refine .bind (.result (openSource_version htarget
        fun fd f w₁ hreads hf hopen => ?_))
      refine (verifyBinary_quiet (by decide) hopen rfl
        (by rw [hf]; exact hrounds v htarget)).andThen ?_
      rintro _ w₂ ⟨rfl, rfl⟩
      rw [hf]
      exact .pure (hok _ (hreads.trans (.seek ..)))

end Files

/-- What the three looks see together. -/
theorem Evidence.observed_looks (e : Evidence) (blake3 : Bytes → Digest)
    (expectedSize : UInt64) (expectedDigest : Digest) :
    (seen blake3 false (seen blake3 true (match e.source with
      | none => {}
      | some v => if v.identity = e.asset.sourceIdentity then {
          sourceAvailable := true
          sourceIdentity := some e.asset.sourceIdentity }
        else { sourceChanged := true }) expectedSize expectedDigest e.temp).2
      expectedSize expectedDigest e.final).2 = e.observed blake3 := by
  obtain ⟨asset, runtime, receipt, source, temp, final⟩ := e
  have hsource : (match source with
      | none => ({} : ObservedFileState)
      | some v => if v.identity = asset.sourceIdentity then {
          sourceAvailable := true
          sourceIdentity := some asset.sourceIdentity }
        else { sourceChanged := true })
      = {
        sourceAvailable := source.any (·.identity == asset.sourceIdentity)
        sourceChanged := source.any (·.identity != asset.sourceIdentity)
        sourceIdentity := (source.filter
          (·.identity == asset.sourceIdentity)).map (·.identity) } := by
    cases source with
    | none => rfl
    | some v =>
        by_cases hv : v.identity = asset.sourceIdentity
        · simp [hv, Option.filter]
        · simp [hv, Option.filter]
  simp only [hsource]
  cases temp <;> cases final <;>
    simp [seen, see, Evidence.observed, verificationOf, FileVersion.count_size]

section Look

variable (h : Running blake3 planId epoch task e w.db)
  (hd : Found blake3 planId e w.disk)
  (hr : Recoverable blake3 planId epoch rounds task e)

section Sizes

include hd hr

theorem Found.temp_lt {v : FileVersion}
    (hv : w.disk.version? .target (e.tempName blake3 planId) = some v) :
    v.content.length < rounds :=
  hr.fits v (.inl (hd.temp.trans hv))

theorem Found.final_lt {v : FileVersion}
    (hv : w.disk.version? .target e.finalName = some v) :
    v.content.length < rounds :=
  hr.fits v (.inr (hd.final.trans hv))

/-- The first look sees what there is. -/
theorem observe_quiet {fail : Status → Machine → Prop}
    {ok : ObservedFileState → Machine → Prop}
    (hok : ∀ w', w.Reads w' → ok (e.observed blake3) w') :
    Yields (pipelineEffects strerror blake3 .none) False ok fail
      (observe blake3 (e.job blake3 planId epoch task) rounds) w := by
  unfold observe
  refine .bind (observeSource_quiet hd.sound fun w₁ hreads₁ => ?_)
  have h₁ := hd.reads hreads₁
  refine .bind (observeRecoveryFile_quiet tempNameFor_isFileName h₁.sound
    (fun v hv => h₁.temp_lt hr hv) fun w₂ hreads₂ => ?_)
  have h₂ := h₁.reads hreads₂
  refine .bind (observeRecoveryFile_quiet (RelativePath.isFileName hr.single)
    h₂.sound (fun v hv => h₂.final_lt hr hv) fun w₃ hreads₃ => .pure ?_)
  have hok := hok w₃ (hreads₁.trans (hreads₂.trans hreads₃))
  rw [← e.observed_looks blake3 (e.job blake3 planId epoch task).expectedSize
    (e.job blake3 planId epoch task).expectedDigest, hd.source, h₁.temp,
    h₂.final] at hok
  exact hok

end Sizes

section Examine

include h hr

/-- What is known of the task passes the checks of `Decide`. -/
theorem decide_quiet (hconsistent : e.consistent = true) :
    decide task e.runtime (e.job blake3 planId epoch task).intent e.receipt
        (e.observed blake3)
      = .ok (firstRule e.runtime e.receipt (e.observed blake3)) := by
  obtain ⟨htask, hattempt, hepoch, -⟩ := h.accepted hr
  obtain ⟨-, hactive⟩ := h.holds hr.state
  have hruntime : validateTaskRuntime e.runtime = .ok () := by
    unfold validateTaskRuntime
    rw [h.id, hactive, hr.state, htask.1, htask.2, Option.any_some, hattempt.1,
      hattempt.2]
    simp [hepoch]
  have htype : task.type = .migrateFile ∧ task.targetPath = e.asset.targetPath := by
    obtain ⟨key, -, hspec⟩ := Joining.bind_ok.1 hr.spec
    cases hspec
    exact ⟨rfl, rfl⟩
  have htemp : (e.tempName blake3 planId).isEmpty = false :=
    List.isEmpty_eq_false_iff.2 tempNameFor_isFileName.nonempty
  have hfinal : e.asset.targetPath.bytes ≠ [] :=
    (RelativePath.isFileName hr.single).nonempty
  have hintent : validateIntent task e.runtime
      (e.job blake3 planId epoch task).intent = .ok () := by
    unfold validateIntent
    rw [if_neg (not_not.2 htype.1), hr.valid, hruntime]
    simp [Evidence.job, htask.1, hattempt.1, htemp, hfinal, h.id, hactive,
      htype.2, Evidence.finalName, bind, Except.bind]
  have hreceipt : validateReceipt (e.job blake3 planId epoch task).intent
      e.receipt = .ok () := by
    unfold validateReceipt
    cases hfound : e.receipt with
    | none => rfl
    | some receipt =>
        obtain ⟨hkey, hkey', hnamed⟩ := storedReceipt_key h.reached.named
          (h.receipt.symm.trans hfound)
        unfold Evidence.consistent at hconsistent
        rw [hfound, Option.all_some] at hconsistent
        simp only [Bool.and_eq_true, beq_iff_eq] at hconsistent
        obtain ⟨⟨⟨⟨⟨-, howner⟩, hpath⟩, -⟩, -⟩, -⟩ := hconsistent
        refine if_neg ?_
        simp [Evidence.job, Evidence.tempName, hkey, hkey', hnamed, howner,
          hpath, h.id, Evidence.finalName]
  unfold Reconciler.decide
  rw [hintent, hreceipt]
  rfl

include hd

/-- The task is examined, or its receipt has ended it. -/
theorem examine_quiet {sourceManifestId targetRoot : Bytes}
    (hroot : ∃ root, w.db.readManifestSourceRoot sourceManifestId = .ok root) :
    Yields (pipelineEffects strerror blake3 .none) False
      (fun r w' => w.Reads w' ∧ e.consistent = true
        ∧ r = (e.job blake3 planId epoch task, e.observed blake3,
          firstRule e.runtime e.receipt (e.observed blake3)))
      (fun err w' => e.consistent = false
        ∧ Recovered blake3 planId e w (.error err) w')
      (examine blake3 sourceManifestId targetRoot planId epoch e.asset rounds)
      w := by
  obtain ⟨root, hroot⟩ := hroot
  unfold examine
  refine .bind (openJob_quiet h hr (.bind (readReceipt_quiet h hr
    (fun hconsistent => ?_) fun db' hinconsistent hsettles => ?_)))
  · refine .bind (readManifestSourceRoot_quiet (fun _ _ => ?_) fun err herr => ?_)
    swap
    · cases hroot.symm.trans herr
    refine .bind (openRoot_quiet (.bind (openRoot_quiet ?_)))
    refine .bind (observe_quiet hd hr fun w' hreads => ?_)
    refine .bind (.ofExcept (fun decision hdecision => ?_) fun err herr => ?_)
    · cases (decide_quiet h hr hconsistent).symm.trans hdecision
      exact .pure ⟨hreads, hconsistent, rfl⟩
    · cases (decide_quiet h hr hconsistent).symm.trans herr
  · have hfate : e.fate blake3
        = (e.setAside mismatchReason, .error ⟨.internal, mismatchReason⟩) := by
      unfold Evidence.fate
      rw [if_pos hinconsistent]
    refine ⟨hinconsistent, ?_, ?_, .refl .., ?_, ?_⟩
    · rw [hfate]
    · rw [hfate]
      exact hsettles
    · rw [hfate]
      exact hd.temp.symm
    · rw [hfate]
      exact hd.final.symm

end Examine

end Look

end PhotoBridge.RecoveryService
