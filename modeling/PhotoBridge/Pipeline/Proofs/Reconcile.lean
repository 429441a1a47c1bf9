/-
What the rules of recovery say of a task that has succeeded.

Such a task may be verified again or marked inconsistent. Two rules that
come before the one about it can say something else: the one for a task
without a receipt, and the one for a final that does not match.

Of any task, a rule that adopts or commits has seen what it goes by
(`decideVerified_warranted`).
-/
import PhotoBridge.Lib.Joining
import PhotoBridge.Pipeline.Reconcile

namespace PhotoBridge.Reconciler

open Joining

variable {spec : TaskSpec} {runtime : TaskRuntime} {intent : CommitIntent}
  {receipt : Option VerifiedReceipt} {observed : ObservedFileState}
  {result : ReconcileDecision}

/-- Past its checks, `Decide` follows the first rule that applies. -/
theorem decide_ok (h : decide spec runtime intent receipt observed
      = .ok result) : firstRule runtime receipt observed = result := by
  obtain ⟨_, -, h₁⟩ := bind_ok.1 h
  obtain ⟨_, -, h₂⟩ := bind_ok.1 h₁
  cases h₂
  rfl

/-- The source is as it was, and the final is there with the size and the
digest of the receipt. -/
def Confirmed (receipt : Option VerifiedReceipt)
    (observed : ObservedFileState) : Prop :=
  observed.sourceChanged = false ∧ ∃ verified, receipt = some verified
    ∧ observed.finalExists = true
    ∧ observed.finalSize = verified.contentSize
    ∧ observed.finalDigest = some verified.targetDigest

/-- A succeeded task is verified again if its final is confirmed, and
marked inconsistent otherwise. -/
structure DecidesCommitted (receipt : Option VerifiedReceipt)
    (observed : ObservedFileState) (result : ReconcileDecision) : Prop where
  action : result.action = .reverifyCommitted ∨ result.action = .inconsistent
  reverified : result.action = .reverifyCommitted
    ↔ Confirmed receipt observed

private theorem finalMatches_iff {verified : VerifiedReceipt} :
    observed.finalMatches verified = true
      ↔ observed.finalExists = true
        ∧ observed.finalSize = verified.contentSize
        ∧ observed.finalDigest = some verified.targetDigest := by
  simp [ObservedFileState.finalMatches, matchesReceipt, and_assoc]

/-- Without a receipt, nothing is verified or marked inconsistent. -/
theorem decideUnverified_action (observed : ObservedFileState) :
    (decideUnverified observed).action = .targetConflict
      ∨ (decideUnverified observed).action = .retryTask := by
  unfold decideUnverified
  split
  · exact .inl rfl
  · exact .inr rfl

/-- The action of the rules with a receipt, without their reasons. -/
theorem decideVerified_action (verified : VerifiedReceipt) :
    (decideVerified runtime verified observed).action
      = if observed.finalExists && !observed.finalMatches verified then
          .targetConflict
        else if runtime.state = .succeeded then
          if observed.finalMatches verified then .reverifyCommitted
          else .inconsistent
        else if observed.finalMatches verified
            && observed.tempMatches verified then .adoptFinalAndCleanupTemp
        else if observed.finalMatches verified then .adoptFinal
        else if observed.tempMatches verified && !observed.finalExists then
          .resumeCommitFromTemp
        else if !observed.tempExists && !observed.finalExists then
          if observed.sourceAvailable then .retryTask else .inconsistent
        else .inconsistent := by
  unfold decideVerified
  simp only [apply_ite ReconcileDecision.action, decision]

/-- With one, the final decides about a succeeded task. -/
theorem decideVerified_succeeded (verified : VerifiedReceipt)
    (observed : ObservedFileState) (hstate : runtime.state = .succeeded) :
    (decideVerified runtime verified observed).action
      = if observed.finalMatches verified then .reverifyCommitted
        else if observed.finalExists then .targetConflict
        else .inconsistent := by
  rw [decideVerified_action, if_pos hstate]
  cases observed.finalMatches verified with
  | true => simp
  | false => cases observed.finalExists <;> simp

/-- For a succeeded task the decision is the one that is due exactly if
the source has changed, or there is a receipt and no final that differs
from it. -/
theorem decide_committed (hstate : runtime.state = .succeeded)
    (h : decide spec runtime intent receipt observed = .ok result) :
    DecidesCommitted receipt observed result
      ↔ observed.sourceChanged = true ∨ ∃ verified,
        receipt = some verified
        ∧ (observed.finalExists = true →
          observed.finalMatches verified = true) := by
  rw [← decide_ok h]
  unfold firstRule
  cases hchanged : observed.sourceChanged with
  | true =>
      rw [if_pos rfl]
      refine iff_of_true ⟨.inr rfl, ?_⟩ (.inl rfl)
      refine iff_of_false (fun haction => by cases haction) fun hconfirmed => ?_
      exact Bool.false_ne_true (hconfirmed.1.symm.trans hchanged)
  | false =>
      rw [if_neg Bool.false_ne_true]
      cases receipt with
      | none =>
          refine iff_of_false (fun hdecides => ?_) (by simp)
          rcases decideUnverified_action observed with hact | hact
          · rcases hdecides.action with hdue | hdue <;>
              cases hact.symm.trans hdue
          · rcases hdecides.action with hdue | hdue <;>
              cases hact.symm.trans hdue
      | some verified =>
          have haction := decideVerified_succeeded verified observed hstate
          have hconfirmed : Confirmed (some verified) observed
              ↔ observed.finalMatches verified = true := by
            simp [Confirmed, finalMatches_iff, hchanged]
          cases hmatch : observed.finalMatches verified with
          | true =>
              rw [hmatch, if_pos rfl] at haction
              refine iff_of_true ⟨.inl haction, ?_⟩
                (.inr ⟨verified, rfl, fun _ => hmatch⟩)
              exact iff_of_true haction (hconfirmed.2 hmatch)
          | false =>
              rw [hmatch, if_neg Bool.false_ne_true] at haction
              have hnot : ¬Confirmed (some verified) observed := by
                rw [hconfirmed, hmatch]
                exact Bool.false_ne_true
              cases hexists : observed.finalExists with
              | true =>
                  rw [hexists, if_pos rfl] at haction
                  refine iff_of_false (fun hdecides => ?_) ?_
                  · rcases hdecides.action with hdue | hdue <;>
                      cases haction.symm.trans hdue
                  · simp [hmatch]
              | false =>
                  rw [hexists, if_neg Bool.false_ne_true] at haction
                  refine iff_of_true ⟨.inr haction, ?_⟩
                    (.inr ⟨verified, rfl, fun hno => by cases hno⟩)
                  refine iff_of_false (fun hdue => ?_) hnot
                  cases haction.symm.trans hdue

-- ============================================================= warrants

/-- What an action takes for granted. -/
def Warranted (runtime : TaskRuntime) (verified : VerifiedReceipt)
    (observed : ObservedFileState) : ReconcileAction → Prop
  | .adoptFinal => observed.finalMatches verified = true
  | .adoptFinalAndCleanupTemp => observed.finalMatches verified = true
      ∧ observed.tempMatches verified = true
  | .resumeCommitFromTemp => observed.tempMatches verified = true
      ∧ observed.finalExists = false
  | .reverifyCommitted => runtime.state = .succeeded
  | _ => True

private theorem decideVerified_warranted (verified : VerifiedReceipt) :
    Warranted runtime verified observed
      (decideVerified runtime verified observed).action := by
  rw [decideVerified_action]
  split
  · trivial
  · split
    · next hstate =>
      split
      · exact hstate
      · trivial
    · split
      · next hboth => exact Bool.and_eq_true_iff.1 hboth
      · split
        · next hfinal => exact hfinal
        · split
          · next htemp =>
            obtain ⟨htemp, hnone⟩ := Bool.and_eq_true_iff.1 htemp
            exact ⟨htemp, by simpa using hnone⟩
          · split
            · split <;> trivial
            · trivial

/-- Where something is adopted or committed there is a receipt, and what
it takes is there. -/
theorem firstRule_warranted {action : ReconcileAction}
    (h : (firstRule runtime receipt observed).action = action)
    (hretry : action ≠ .retryTask) (hconflict : action ≠ .targetConflict)
    (hinconsistent : action ≠ .inconsistent) :
    ∃ verified, receipt = some verified
      ∧ Warranted runtime verified observed action := by
  unfold firstRule at h
  split at h
  · exact absurd h.symm hinconsistent
  · cases receipt with
    | none =>
        rcases decideUnverified_action observed with haction | haction
        · exact absurd (h.symm.trans haction) hconflict
        · exact absurd (h.symm.trans haction) hretry
    | some verified =>
        exact ⟨verified, rfl, h ▸ decideVerified_warranted verified⟩

/-- Every rule has its reason. -/
theorem firstRule_reason : ∃ reason : String,
    (firstRule runtime receipt observed).reason = text reason
      ∧ (text reason).isEmpty = false := by
  unfold firstRule
  split
  · exact ⟨_, rfl, by decide +kernel⟩
  · split
    · unfold decideUnverified
      split
      · exact ⟨_, rfl, by decide +kernel⟩
      · refine ⟨_, rfl, ?_⟩
        split <;> decide +kernel
    · unfold decideVerified
      dsimp only
      repeat' split
      all_goals exact ⟨_, rfl, by decide +kernel⟩

-- ============================================================ an example

section Example

theorem exampleSpec_parsed :
    checkRelativePath (text "photo.jpg") = .ok [text "photo.jpg"] := rfl

def exampleSpec : TaskSpec where
  id := text "task-1"
  taskKey := text "key-1"
  type := .migrateFile
  assetId := text "asset-1"
  sourceAssetId := some (text "source-1")
  targetPath := ⟨text "photo.jpg", [text "photo.jpg"], exampleSpec_parsed⟩
  estimatedBytes := 10
  expectedDigest := none

def succeededRuntime : TaskRuntime where
  id := text "task-1"
  state := .succeeded
  ownerEpoch := 2
  attemptId := some (text "attempt-1")
  attemptCount := 1
  lastError := none

def exampleIntent : CommitIntent where
  taskId := text "task-1"
  attemptId := text "attempt-1"
  ownerEpoch := 2
  tempPath := text ".photo.pbtmp"
  finalPath := text "photo.jpg"

def exampleReceipt : VerifiedReceipt where
  taskId := text "task-1"
  attemptId := text "attempt-1"
  ownerEpoch := 2
  tempPath := text ".photo.pbtmp"
  finalPath := text "photo.jpg"
  contentSize := 10
  sourceDigest := some .zero
  targetDigest := .zero
  sourceIdentity := none

/-- A final of this size. -/
def finalOfSize (size : UInt64) : ObservedFileState :=
  { finalExists := true, finalSize := size, finalDigest := some .zero }

/-- The final of a committed task, as the receipt says. -/
theorem decide_committed_confirmed :
    ∃ result, decide exampleSpec succeededRuntime exampleIntent
        (some exampleReceipt) (finalOfSize 10) = .ok result
      ∧ DecidesCommitted (some exampleReceipt) (finalOfSize 10) result := by
  have hrun : ∃ result, decide exampleSpec succeededRuntime exampleIntent
      (some exampleReceipt) (finalOfSize 10) = .ok result := ⟨_, rfl⟩
  obtain ⟨result, h⟩ := hrun
  refine ⟨result, h, (decide_committed rfl h).2 (.inr ⟨_, rfl, ?_⟩)⟩
  exact fun _ => by decide

/-- One byte is missing from it: a conflict, although the task has
succeeded. -/
theorem decide_committed_conflict :
    ∃ result, decide exampleSpec succeededRuntime exampleIntent
        (some exampleReceipt) (finalOfSize 9) = .ok result
      ∧ result.action = .targetConflict
      ∧ ¬DecidesCommitted (some exampleReceipt) (finalOfSize 9) result := by
  refine ⟨_, rfl, rfl, fun hdecides => ?_⟩
  rcases hdecides.action with hdue | hdue <;> cases hdue

end Example

end PhotoBridge.Reconciler
