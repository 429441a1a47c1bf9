/-
What recovery does about a task, once it knows what there is.

Each action ends in the one recovery operation that is due, and changes
the target root at most at the task's own two names: a confirmed temp is
removed, or becomes the final. What the rules have seen is still there
when it is looked at again (`confirm_quiet`), so none of the exits in
between is taken, and the task meets its fate (`recoverOne_quiet`).
-/
import PhotoBridge.Pipeline.Proofs.Audit
import PhotoBridge.Pipeline.Proofs.Observe
import PhotoBridge.Plan.Proofs.Identifiers

namespace PhotoBridge.RecoveryService

open Concurrent JsonText Reconciler Transaction

variable {strerror : Nat → Bytes} {blake3 : Bytes → Digest} {planId : Bytes}
  {epoch rounds : Nat} {task : TaskSpec} {e : Evidence} {w w' : Machine}
  {receipt : VerifiedReceipt} {reason : Bytes}
  {fail : Status → Machine → Prop}

-- ============================================================= the fates

/-- How a task ends under a decision. -/
def Evidence.prescribed (e : Evidence) (decision : ReconcileDecision) :
    Ending × Except Status Unit :=
  match decision.action with
  | .retryTask =>
      (e.retried decision.reason, .error ⟨.ioError, decision.reason⟩)
  | .targetConflict =>
      (e.setAside decision.reason, .error ⟨.alreadyExists, decision.reason⟩)
  | .inconsistent =>
      (e.setAside decision.reason, .error ⟨.internal, decision.reason⟩)
  | .adoptFinal => (e.succeeded, .ok ())
  | .adoptFinalAndCleanupTemp => ({ e.succeeded with temp := none }, .ok ())
  | .resumeCommitFromTemp =>
      ({ e.succeeded with temp := none, final := e.temp }, .ok ())
  | .reverifyCommitted =>
      (e.released e.runtime.state .committed e.runtime.lastError,
        .error (.invalid "resume cannot reverify a non-running task"))

/-- A task whose receipt is about it ends as the rules say. -/
theorem fate_of_consistent (h : e.consistent = true) :
    e.fate blake3
      = e.prescribed (firstRule e.runtime e.receipt (e.observed blake3)) := by
  unfold Evidence.fate
  rw [if_neg (by rw [h]; exact Bool.noConfusion)]
  rfl

theorem Evidence.temp_isFileName (e : Evidence) (blake3 : Bytes → Digest)
    (planId : Bytes) : IsFileName (e.tempName blake3 planId) :=
  tempNameFor_isFileName

/-- The file is the one the receipt is about. -/
def Verified (blake3 : Bytes → Digest) (receipt : VerifiedReceipt)
    (v : FileVersion) : Prop :=
  v.identity.size = receipt.contentSize ∧ blake3 v.content = receipt.targetDigest

private theorem tempMatches_found
    (h : (e.observed blake3).tempMatches receipt = true) :
    ∃ v, e.temp = some v ∧ Verified blake3 receipt v := by
  unfold ObservedFileState.tempMatches matchesReceipt Evidence.observed at h
  cases hfound : e.temp with
  | none => simp [hfound] at h
  | some v =>
      refine ⟨v, rfl, ?_⟩
      simpa [hfound, Verified] using h

private theorem finalMatches_found
    (h : (e.observed blake3).finalMatches receipt = true) :
    ∃ v, e.final = some v ∧ Verified blake3 receipt v := by
  unfold ObservedFileState.finalMatches matchesReceipt Evidence.observed at h
  cases hfound : e.final with
  | none => simp [hfound] at h
  | some v =>
      refine ⟨v, rfl, ?_⟩
      simpa [hfound, Verified] using h

-- ============================================================ second looks

section Confirm

variable (hd : Found blake3 planId e w.disk)
  (hr : Recoverable blake3 planId epoch rounds task e)
  (hreceipt : e.receipt = some receipt) {v : FileVersion}
  (hverified : Verified blake3 receipt v)
include hd hr hreceipt hverified

/-- What was seen is seen again. -/
theorem confirmFinal_quiet (hv : e.final = some v) {ok : Bool → Machine → Prop}
    (hok : ∀ w', w.Reads w' → ok true w') :
    Yields (pipelineEffects strerror blake3 .none) False ok fail
      (confirm blake3 (e.job blake3 planId epoch task) false rounds) w := by
  have hthere := hd.final.symm.trans hv
  unfold confirm
  refine .bind (.result (observeRecoveryFile_quiet
    (RelativePath.isFileName hr.single) hd.sound
    (fun v hv => hd.final_lt hr hv) fun w' hreads => ?_))
  rw [show e.asset.targetPath.bytes = e.finalName from rfl, hthere]
  have hyes : (true && v.content.length.toUInt64
      == (e.job blake3 planId epoch task).expectedSize
      && some (blake3 v.content)
        == some (e.job blake3 planId epoch task).expectedDigest) = true := by
    simp [FileVersion.count_size, Job.expectedSize, Job.expectedDigest,
      Evidence.job, hreceipt, hverified.1, hverified.2]
  have hok := hok w' hreads
  rw [← hyes] at hok
  exact .pure hok

theorem confirmTemp_quiet (hv : e.temp = some v) {ok : Bool → Machine → Prop}
    (hok : ∀ w', w.Reads w' → ok true w') :
    Yields (pipelineEffects strerror blake3 .none) False ok fail
      (confirm blake3 (e.job blake3 planId epoch task) true rounds) w := by
  have hthere := hd.temp.symm.trans hv
  unfold confirm
  refine .bind (.result (observeRecoveryFile_quiet tempNameFor_isFileName
    hd.sound (fun v hv => hd.temp_lt hr hv) fun w' hreads => ?_))
  rw [show tempNameFor blake3 planId e.runtime.id e.attemptId
    = e.tempName blake3 planId from rfl, hthere]
  have hyes : (true && v.content.length.toUInt64
      == (e.job blake3 planId epoch task).expectedSize
      && some (blake3 v.content)
        == some (e.job blake3 planId epoch task).expectedDigest) = true := by
    simp [FileVersion.count_size, Job.expectedSize, Job.expectedDigest,
      Evidence.job, hreceipt, hverified.1, hverified.2]
  have hok := hok w' hreads
  rw [← hyes] at hok
  exact .pure hok

end Confirm

-- =============================================================== actions

section Act

variable (h : Running blake3 planId epoch task e w.db)
  (hd : Found blake3 planId e w.disk)
  (hr : Recoverable blake3 planId epoch rounds task e)
include h hr

/-- The last step of a task that is done. -/
theorem complete_quiet (hreason : reason.isEmpty = false)
    {ok : Unit → Machine → Prop}
    (hok : ∀ db' output, e.succeeded.Settles planId e w.db db' →
      ok () { w with db := db', output }) :
    Yields (pipelineEffects strerror blake3 .none) False ok fail
      (complete (e.job blake3 planId epoch task) reason) w :=
  .bind (recoverSucceeded_quiet h hr hreason fun db' hsettles =>
    print_quiet (hok db' _ hsettles))

include hd

/-- A matching final is adopted. -/
theorem adopt_quiet (hreason : reason.isEmpty = false)
    (hreceipt : e.receipt = some receipt)
    (hfinal : ∃ v, e.final = some v ∧ Verified blake3 receipt v)
    {ok : Unit → Machine → Prop}
    (hok : ∀ w', e.succeeded.Settles planId e w.db w'.db →
      w.disk.Within (fun _ => False) w'.disk → ok () w') :
    Yields (pipelineEffects strerror blake3 .none) False ok fail
      (adopt blake3 (e.job blake3 planId epoch task) reason false rounds) w := by
  obtain ⟨v, hv, hverified⟩ := hfinal
  unfold adopt
  refine .bind (confirmFinal_quiet hd hr hreceipt hverified hv fun w₁ hreads => ?_)
  refine .ite (fun hno => by cases hno) fun _ => .ite (fun hno => by cases hno)
    fun _ => complete_quiet (hreads.db ▸ h) hr hreason fun db' output hsettles => ?_
  exact hok _ (hreads.db ▸ hsettles) (.of_reads hreads _)

/-- A matching final is adopted and the temp that matches as well is
removed. -/
theorem adoptAndCleanUp_quiet (hreason : reason.isEmpty = false)
    (hreceipt : e.receipt = some receipt)
    (hfinal : ∃ v, e.final = some v ∧ Verified blake3 receipt v)
    (htemp : ∃ v, e.temp = some v ∧ Verified blake3 receipt v)
    {ok : Unit → Machine → Prop}
    (hok : ∀ w', e.succeeded.Settles planId e w.db w'.db →
      w.disk.Within (· = e.tempName blake3 planId) w'.disk →
      w'.disk.version? .target (e.tempName blake3 planId) = none →
        ok () w') :
    Yields (pipelineEffects strerror blake3 .none) False ok fail
      (adopt blake3 (e.job blake3 planId epoch task) reason true rounds) w := by
  obtain ⟨v, hv, hverified⟩ := hfinal
  obtain ⟨v', hv', hverified'⟩ := htemp
  unfold adopt
  refine .bind (confirmFinal_quiet hd hr hreceipt hverified hv fun w₁ hreads₁ => ?_)
  refine .ite (fun hno => by cases hno) fun _ => .ite (fun _ => ?_)
    fun hno => absurd rfl hno
  have hd₁ := hd.reads hreads₁
  unfold cleanUp
  refine .bind (confirmTemp_quiet hd₁ hr hreceipt hverified' hv'
    fun w₂ hreads₂ => ?_)
  refine .ite (fun hno => by cases hno) fun _ => ?_
  have hreads := hreads₁.trans hreads₂
  have hthere := (hd.reads hreads).temp.symm.trans hv'
  obtain ⟨index, -, hentry, -, -⟩ := Disk.version?_eq_some.1 hthere
  refine .bind (unlinkAt_quiet tempNameFor_isFileName.validateLeafName hentry ?_)
  refine .bind (fsyncDirectory_quiet ?_)
  refine complete_quiet (by exact hreads.db ▸ h) hr hreason
    fun db' output hsettles => ?_
  exact hok _ (by exact hreads.db ▸ hsettles)
    ((Disk.Within.of_reads hreads _).trans Disk.within_unlink)
    (Disk.version?_unlink rfl)

/-- A matching temp becomes the final. -/
theorem resumeCommit_quiet (hreason : reason.isEmpty = false)
    (hreceipt : e.receipt = some receipt)
    (htemp : ∃ v, e.temp = some v ∧ Verified blake3 receipt v)
    (hnone : e.final = none) {ok : Unit → Machine → Prop}
    (hok : ∀ w', e.succeeded.Settles planId e w.db w'.db →
      w.disk.Within (e.Owns blake3 planId) w'.disk →
      w'.disk.version? .target (e.tempName blake3 planId) = none →
      w'.disk.version? .target e.finalName = e.temp → ok () w') :
    Yields (pipelineEffects strerror blake3 .none) False ok fail
      (resumeCommit blake3 (e.job blake3 planId epoch task) reason rounds)
      w := by
  obtain ⟨v, hv, hverified⟩ := htemp
  obtain ⟨path, hparse, hbytes⟩ :=
    (e.temp_isFileName blake3 planId).parse
  have hthere : w.disk.version? .target path.bytes = some v := by
    rw [hbytes, ← hd.temp, hv]
  have hfree := hd.sound.version?_eq_none.1 (hd.final.symm.trans hnone)
  obtain ⟨index, -, hentry, -, -⟩ := Disk.version?_eq_some.1 hthere
  unfold resumeCommit
  refine .bind (.ofExcept (fun path' hparse' => ?_) fun err herr => ?_)
  swap
  · cases hparse.symm.trans herr
  cases hparse.symm.trans hparse'
  refine .bind (openSource_version hthere fun fd f w₁ hreads₁ hf hopen => ?_)
  generalize ho : OpenFile.mk _ 0 = o at hopen
  refine (verifyBinary_quiet (by decide) hopen (ho ▸ rfl) ?_).andThen ?_
  · rw [hf]
    exact hd.temp_lt hr (hbytes ▸ hthere)
  rintro _ w₂ ⟨rfl, rfl⟩
  have hidentical : (verificationOf blake3 f.current
      (e.job blake3 planId epoch task).expectedSize.toNat
      (some (e.job blake3 planId epoch task).expectedDigest)).status
        = .identical := by
    simp [verificationOf, binaryStatus, hf, Job.expectedSize,
      Job.expectedDigest, Evidence.job, hreceipt, ← hverified.1, hverified.2,
      v.size]
  have hreads := hreads₁.trans (.seek w₁ fd o f.current.content.length)
  refine .ite (fun hne => absurd hidentical hne) fun _ => ?_
  have hopen₂ := Disk.openFile?_seek hopen f.current.content.length
  refine .bind (fdatasync_quiet hopen₂ ?_)
  have hsynced := (Disk.Within.of_reads hreads _).trans
    (Disk.within_sync hopen₂)
  rw [hbytes] at hentry
  have hentry' := (hsynced.targets (e.tempName blake3 planId) id).trans hentry
  have hfree' := (hsynced.targets e.finalName id).trans hfree
  refine .bind (renameNoReplace_quiet
    tempNameFor_isFileName.validateLeafName
    (RelativePath.isFileName hr.single).validateLeafName hentry' hfree' ?_)
  refine .bind (fsyncDirectory_quiet ?_)
  refine complete_quiet (by exact hreads.db ▸ h) hr hreason
    fun db' output hsettles => ?_
  obtain ⟨hgone, hnew⟩ := Disk.version?_rename hentry' hr.apart rfl
  refine hok _ (by exact hreads.db ▸ hsettles)
    ((hsynced.mono fun _ hno => hno.elim).trans
      (Disk.within_rename hentry')) hgone (hnew.trans ?_)
  rw [hsynced.version?_target id, ← hd.temp]

/-- Whatever the rules say is done, and the task meets its fate. -/
theorem act_quiet (hconsistent : e.consistent = true) :
    Yields (pipelineEffects strerror blake3 .none) False
      (fun _ w' => Recovered blake3 planId e w (.ok ()) w')
      (fun err w' => Recovered blake3 planId e w (.error err) w')
      (act blake3 (e.job blake3 planId epoch task)
        (firstRule e.runtime e.receipt (e.observed blake3)) rounds) w := by
  have hfate := @fate_of_consistent blake3 e hconsistent
  obtain ⟨text, htext, hreason⟩ := @firstRule_reason e.runtime e.receipt
    (e.observed blake3)
  rw [← htext] at hreason
  have hwarranted := fun action => @firstRule_warranted e.runtime e.receipt
    (e.observed blake3) action
  generalize firstRule e.runtime e.receipt (e.observed blake3) = decision
    at hfate hreason hwarranted ⊢
  -- a task that is given up keeps its files
  have hkept : ∀ {ending : Ending} {result : Except Status Unit} {db' : Db},
      e.prescribed decision = (ending, result) → ending.temp = e.temp →
      ending.final = e.final → ending.Settles planId e w.db db' →
        Recovered blake3 planId e w result { w with db := db' } := by
    intro ending result db' hprescribed htemp hfinal hsettles
    rw [hprescribed] at hfate
    refine ⟨by rw [hfate], by rw [hfate]; exact hsettles, .refl .., ?_, ?_⟩
    · rw [hfate, htemp]
      exact hd.temp.symm
    · rw [hfate, hfinal]
      exact hd.final.symm
  obtain ⟨action, reason⟩ := decision
  cases action with
  | retryTask =>
      exact .bind (recoverRetryable_quiet h hr hreason fun db' hsettles =>
        .throw (hkept rfl rfl rfl hsettles))
  | targetConflict =>
      exact .bind (recoverInconsistent_quiet h hr hreason fun db' hsettles =>
        .throw (hkept rfl rfl rfl hsettles))
  | inconsistent =>
      exact .bind (recoverInconsistent_quiet h hr hreason fun db' hsettles =>
        .throw (hkept rfl rfl rfl hsettles))
  | adoptFinal =>
      obtain ⟨verified, hreceipt, hfinal⟩ := hwarranted _ rfl
        ReconcileAction.noConfusion ReconcileAction.noConfusion
        ReconcileAction.noConfusion
      refine adopt_quiet h hd hr hreason hreceipt (finalMatches_found hfinal)
        fun w' hsettles hwithin => ?_
      refine ⟨by rw [hfate]; rfl, by rw [hfate]; exact hsettles,
        hwithin.mono fun _ hno => hno.elim, ?_, ?_⟩
      · rw [hfate, hwithin.version?_target id]
        exact hd.temp.symm
      · rw [hfate, hwithin.version?_target id]
        exact hd.final.symm
  | adoptFinalAndCleanupTemp =>
      obtain ⟨verified, hreceipt, hfinal, htemp⟩ := hwarranted _ rfl
        ReconcileAction.noConfusion ReconcileAction.noConfusion
        ReconcileAction.noConfusion
      refine adoptAndCleanUp_quiet h hd hr hreason hreceipt
        (finalMatches_found hfinal) (tempMatches_found htemp)
        fun w' hsettles hwithin hgone => ?_
      refine ⟨by rw [hfate]; rfl, by rw [hfate]; exact hsettles,
        hwithin.mono fun _ hname => .inl hname, by rw [hgone, hfate]; rfl, ?_⟩
      rw [hfate, hwithin.version?_target (Ne.symm hr.apart)]
      exact hd.final.symm
  | resumeCommitFromTemp =>
      obtain ⟨verified, hreceipt, htemp, hnone⟩ := hwarranted _ rfl
        ReconcileAction.noConfusion ReconcileAction.noConfusion
        ReconcileAction.noConfusion
      refine resumeCommit_quiet h hd hr hreason hreceipt (tempMatches_found htemp)
        (Option.isNone_iff_eq_none.1 (Option.isSome_eq_false_iff.1 hnone))
        fun w' hsettles hwithin hgone hnew => ?_
      exact ⟨by rw [hfate]; rfl, by rw [hfate]; exact hsettles, hwithin,
        by rw [hgone, hfate]; rfl, by rw [hnew, hfate]; rfl⟩
  | reverifyCommitted =>
      obtain ⟨verified, -, hstate⟩ := hwarranted _ rfl
        ReconcileAction.noConfusion ReconcileAction.noConfusion
        ReconcileAction.noConfusion
      cases hstate.symm.trans hr.state

end Act

-- ============================================================== one task

/-- The id of a task is ASCII. -/
theorem taskId_utf8 {asset : MinimalPlanAsset}
    (h : taskSpecForPlanAsset blake3 asset = .ok task) : IsUtf8 task.id := by
  rw [taskSpecForPlanAsset_id h, toHex_eq]
  refine isUtf8_of_ascii fun c hc => ?_
  have hfixed : ∀ c ∈ text "task-", c < 128 := by decide +kernel
  rcases List.mem_append.1 hc with hc | hc
  · exact hfixed c hc
  · exact hexEncode_ascii _ c hc

/-- The report of a task is UTF-8. -/
theorem recoveryAudit_textual (h : Running blake3 planId epoch task e w.db)
    (hr : Recoverable blake3 planId epoch rounds task e)
    (hconsistent : e.consistent = true) :
    (recoveryAudit (e.job blake3 planId epoch task) (e.observed blake3)
      (firstRule e.runtime e.receipt (e.observed blake3))).Textual := by
  obtain ⟨reason, hreason, -⟩ := @firstRule_reason e.runtime e.receipt
    (e.observed blake3)
  refine ⟨hr.planUtf8, taskId_utf8 hr.spec, ?_, ?_, ?_, isUtf8_text ""⟩
  · show IsUtf8 (reconcileActionName _)
    cases (firstRule e.runtime e.receipt (e.observed blake3)).action <;>
      exact isUtf8_text _
  · show IsUtf8 (firstRule e.runtime e.receipt (e.observed blake3)).reason
    rw [hreason]
    exact isUtf8_text _
  · intro entry hentry
    obtain ⟨s, hs, hpath⟩ := path_of_diff hentry
    rw [← hpath]
    -- only the task's own two names occur
    suffices e.Owns blake3 planId s.path by
      rcases this with hname | hname
      · rw [hname]
        exact tempNameFor_utf8
      · rw [hname]
        exact hr.utf8
    rcases List.mem_append.1 hs with hs | hs
    · cases hfound : e.receipt with
      | none =>
          simp only [Evidence.job, hfound] at hs
          cases hs
      | some receipt =>
          obtain ⟨-, -, htemp⟩ := storedReceipt_key h.reached.named
            (h.receipt.symm.trans hfound)
          unfold Evidence.consistent at hconsistent
          rw [hfound, Option.all_some] at hconsistent
          simp only [Bool.and_eq_true, beq_iff_eq] at hconsistent
          obtain ⟨⟨⟨⟨-, hfinal⟩, -⟩, -⟩, -⟩ := hconsistent
          simp only [Evidence.job, hfound, List.mem_cons, List.not_mem_nil,
            or_false] at hs
          rcases hs with rfl | rfl
          · exact .inl htemp
          · exact .inr hfinal
    · rcases List.mem_append.1 hs with hs | hs
      · split at hs
        · rw [List.mem_singleton.1 hs]
          exact .inl rfl
        · cases hs
      · split at hs
        · rw [List.mem_singleton.1 hs]
          exact .inr rfl
        · cases hs

/-- Reading before it makes no difference. -/
theorem Recovered.after {w₁ : Machine} {output : Bytes} {r : Except Status Unit}
    (h : Recovered blake3 planId e { w₁ with output } r w')
    (hreads : w.Reads w₁) : Recovered blake3 planId e w r w' where
  result := h.result
  settled := hreads.db ▸ h.settled
  within := (Disk.Within.of_reads hreads _).trans h.within
  temp := h.temp
  final := h.final

/-- One round of the loop: the task meets its fate. -/
theorem recoverOne_quiet {codec : Codec} (hcodec : codec.Lawful)
    (h : Running blake3 planId epoch task e w.db)
    (hd : Found blake3 planId e w.disk)
    (hr : Recoverable blake3 planId epoch rounds task e)
    {sourceManifestId targetRoot : Bytes}
    (hroot : ∃ root, w.db.readManifestSourceRoot sourceManifestId = .ok root) :
    Yields (pipelineEffects strerror blake3 .none) False
      (fun r w' => Recovered blake3 planId e w r w') fail
      (recoverOne codec blake3 sourceManifestId targetRoot planId epoch rounds
        e.asset) w := by
  unfold recoverOne
  refine .bind (.result ((examine_quiet h hd hr hroot).mono ?_ ?_))
  · rintro _ w₁ ⟨hreads, hconsistent, rfl⟩
    have h₁ : Running blake3 planId epoch task e w₁.db := hreads.db ▸ h
    obtain ⟨line, hline⟩ := renderAuditReport_ok hcodec
      (recoveryAudit_textual h hr hconsistent)
    refine .bind (.ofExcept (fun line' hline' => ?_) fun err herr => ?_)
    swap
    · cases hline.symm.trans herr
    refine .bind (print_quiet ?_)
    -- the report has changed nothing but the output
    have hd₁ := hd.reads hreads
    have hact := @act_quiet strerror blake3 planId epoch rounds task e
      { w₁ with output := w₁.output ++ line' } h₁ hd₁ hr
      hconsistent
    refine .result (hact.mono ?_ ?_)
    · intro _ w' hrecovered
      exact hrecovered.after hreads
    · intro err w' hrecovered
      exact hrecovered.after hreads
  · rintro err w' ⟨-, hrecovered⟩
    exact .pure hrecovered

end PhotoBridge.RecoveryService
