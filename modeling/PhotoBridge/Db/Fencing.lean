/-
Epoch fencing, as a property of a set of runs: what
`AcquireNextExecutionEpoch` promises to the client it grants an epoch to.
-/
import PhotoBridge.Db.Store

namespace PhotoBridge

/-- The epoch an event granted for the plan. -/
def Event.grant? (planId : Bytes) : Event → Option Nat
  | .acted _ (.call (.acquireNextExecutionEpoch p)) (.ok (.epoch e)) =>
      if p = planId then some e else none
  | _ => none

/-- The epochs granted for the plan, the latest first. -/
def grants (planId : Bytes) (t : List Event) : List Nat :=
  t.filterMap (Event.grant? planId)

/-- The event opened a batch of the plan on the client's connection. -/
def Event.beginsBatch (i : Nat) (planId : Bytes) : Event → Bool
  | .acted j (.beginWriteBatch p _) (.ok _) => j == i && p == planId
  | _ => false

/-- The event committed the client's batch. -/
def Event.commitsBatch (i : Nat) : Event → Bool
  | .acted j .commitWriteBatch (.ok _) => j == i
  | _ => false

/-- Whatever batch the client had is over with this event. -/
def Event.endsBatch (i : Nat) : Event → Bool
  | .acted j .commitWriteBatch _ => j == i
  | .acted j .rollbackWriteBatch _ => j == i
  | .closed j => j == i
  | _ => false

/-- Epoch fencing along all runs under a rule. -/
structure Fenced (rule : Store → Nat → Action → Prop) : Prop where
  /-- Once an epoch was granted for a plan, an action that presents an
  epoch other than the current one is refused and changes no table. -/
  stale : ∀ {db : Db} {t : List Event} {σ : Store}, Run rule db t σ →
    ∀ (i : Nat) (action : Action) (faults : List (Option Bytes))
      (planId : Bytes) (epoch : Nat), rule σ i action →
    action.presented = some (planId, epoch) → grants planId t ≠ [] →
    σ.committed.currentEpoch? planId ≠ some epoch →
    (∃ e, (σ.step i action faults).1 = .error e)
      ∧ (σ.step i action faults).2.committed = σ.committed
  /-- A batch begun before a grant and still open at it is never
  committed: between its begin and any later commit of the client the
  batch ended otherwise. -/
  batches : ∀ {db : Db} {t : List Event} {σ : Store}, Run rule db t σ →
    ∀ (i : Nat) (planId : Bytes) (later between since before : List Event)
      (commit grant begin_ : Event),
    t = later ++ commit :: (between ++ grant :: (since ++ begin_ :: before)) →
    begin_.beginsBatch i planId = true →
    (grant.grant? planId).isSome = true → commit.commitsBatch i = true →
    ∃ event ∈ between ++ since, event.endsBatch i = true
  /-- Granted epochs only grow. -/
  increasing : ∀ {db : Db} {t : List Event} {σ : Store}, Run rule db t σ →
    ∀ planId : Bytes, (grants planId t).Pairwise (· > ·)

end PhotoBridge
