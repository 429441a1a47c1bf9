/-
What recovery makes of what it observes (`reconciler.cpp`).

`decide` is a pure function of a task, its runtime, the commit it was
about to make, the stored receipt and the state of the files. It checks
that these belong together and returns one action, by the first rule
that applies.
-/
import PhotoBridge.Plan

namespace PhotoBridge.Reconciler

/-- What was seen of the source, the temp and the final. -/
structure ObservedFileState where
  sourceAvailable : Bool := false
  sourceChanged : Bool := false
  tempExists : Bool := false
  finalExists : Bool := false
  sourceIdentity : Option FileIdentity := none
  tempIdentity : Option FileIdentity := none
  finalIdentity : Option FileIdentity := none
  tempSize : UInt64 := 0
  finalSize : UInt64 := 0
  tempDigest : Option Digest := none
  finalDigest : Option Digest := none
  deriving DecidableEq

inductive ReconcileAction
  | retryTask | resumeCommitFromTemp | adoptFinal
  | adoptFinalAndCleanupTemp | reverifyCommitted | targetConflict
  | inconsistent
  deriving DecidableEq

structure ReconcileDecision where
  action : ReconcileAction
  reason : Bytes
  deriving DecidableEq

/-- `ValidateIntent`. -/
def validateIntent (spec : TaskSpec) (runtime : TaskRuntime)
    (intent : CommitIntent) : Except Status Unit :=
  if spec.type ≠ .migrateFile then
    .error (.invalid "reconciler only accepts file migration tasks")
  else do
    validateTaskSpec spec
    validateTaskRuntime runtime
    if intent.taskId.isEmpty || intent.attemptId.isEmpty
        || intent.tempPath.isEmpty || intent.finalPath.isEmpty then
      .error (.invalid "commit intent fields must not be empty")
    else if intent.taskId ≠ spec.id ∨ intent.taskId ≠ runtime.id then
      .error (.invalid "commit intent task does not match task runtime")
    else if runtime.attemptId.any (· != intent.attemptId) then
      .error (.invalid "commit intent attempt does not match task runtime")
    else if runtime.ownerEpoch ≠ 0
        ∧ runtime.ownerEpoch ≠ intent.ownerEpoch then
      .error (.invalid "commit intent epoch does not match task runtime")
    else if intent.finalPath ≠ spec.targetPath.bytes then
      .error (.invalid "commit intent final path is not frozen target path")
    else .ok ()

/-- `ValidateReceipt`. -/
def validateReceipt (intent : CommitIntent) (receipt : Option VerifiedReceipt) :
    Except Status Unit :=
  match receipt with
  | none => .ok ()
  | some value =>
      if value.taskId ≠ intent.taskId ∨ value.attemptId ≠ intent.attemptId
          ∨ value.ownerEpoch ≠ intent.ownerEpoch
          ∨ value.tempPath ≠ intent.tempPath
          ∨ value.finalPath ≠ intent.finalPath then
        .error (.invalid "verified receipt does not match commit intent")
      else .ok ()

/-- `Matches`. -/
def matchesReceipt (present : Bool) (size : UInt64) (digest : Option Digest)
    (receipt : VerifiedReceipt) : Bool :=
  present && size == receipt.contentSize
    && digest == some receipt.targetDigest

/-- The temp is the one the receipt is about. -/
def ObservedFileState.tempMatches (observed : ObservedFileState)
    (receipt : VerifiedReceipt) : Bool :=
  matchesReceipt observed.tempExists observed.tempSize observed.tempDigest receipt

/-- The final is the one the receipt is about. -/
def ObservedFileState.finalMatches (observed : ObservedFileState)
    (receipt : VerifiedReceipt) : Bool :=
  matchesReceipt observed.finalExists observed.finalSize observed.finalDigest
    receipt

/-- `Decision`. -/
def decision (action : ReconcileAction) (reason : String) :
    ReconcileDecision :=
  ⟨action, text reason⟩

/-- The rules of `Decide` where there is no receipt. -/
def decideUnverified (observed : ObservedFileState) : ReconcileDecision :=
  if observed.finalExists then
    decision .targetConflict "final exists without a durable verified receipt"
  else decision .retryTask
    (if observed.tempExists then
      "intent has no receipt; retry without cleaning unproven temp"
    else "intent has no receipt; create a new attempt")

/-- The rules of `Decide` where there is one. -/
def decideVerified (runtime : TaskRuntime) (verified : VerifiedReceipt)
    (observed : ObservedFileState) : ReconcileDecision :=
  let tempMatches := observed.tempMatches verified
  let finalMatches := observed.finalMatches verified
  if observed.finalExists && !finalMatches then
    decision .targetConflict
      "final exists but does not match the verified receipt"
  else if runtime.state = .succeeded then
    if finalMatches then
      decision .reverifyCommitted "committed task final matches receipt"
    else decision .inconsistent
      "committed task final is missing or unverifiable"
  else if finalMatches && tempMatches then
    decision .adoptFinalAndCleanupTemp
      ("matching final and temp are durable evidence; "
        ++ "clean owned temp after commit")
  else if finalMatches then
    decision .adoptFinal "matching final can be adopted from durable receipt"
  else if tempMatches && !observed.finalExists then
    decision .resumeCommitFromTemp
      "matching temp can be re-synced and published under a new epoch"
  else if !observed.tempExists && !observed.finalExists then
    if observed.sourceAvailable then
      decision .retryTask
        "receipt exists but files are absent; source can be rechecked"
    else decision .inconsistent
      "receipt exists but files and source are unavailable"
  else decision .inconsistent
    "observed temp is missing or does not match the verified receipt"

/-- The rules of `Decide`, in order. -/
def firstRule (runtime : TaskRuntime) (receipt : Option VerifiedReceipt)
    (observed : ObservedFileState) : ReconcileDecision :=
  if observed.sourceChanged then
    decision .inconsistent
      "SOURCE_CHANGED: source identity differs from the frozen plan"
  else match receipt with
    | none => decideUnverified observed
    | some verified => decideVerified runtime verified observed

/-- `Decide`. -/
def decide (spec : TaskSpec) (runtime : TaskRuntime) (intent : CommitIntent)
    (receipt : Option VerifiedReceipt) (observed : ObservedFileState) :
    Except Status ReconcileDecision := do
  validateIntent spec runtime intent
  validateReceipt intent receipt
  pure (firstRule runtime receipt observed)

end PhotoBridge.Reconciler
