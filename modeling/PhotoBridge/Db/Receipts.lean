/-
Verified receipts as evidence, along all runs: what
`PersistVerifiedReceipt` accepted is what `ReadVerifiedReceipt` returns,
to whoever sees the transaction it was stored in, and nothing replaces
it.
-/
import PhotoBridge.Db.Lineage

namespace PhotoBridge

/-- The tables client `i`'s statements read. -/
def Store.view (σ : Store) (i : Nat) : Db :=
  match σ.writer with
  | some (j, s) => if j = i then s else σ.committed
  | none => σ.committed

/-- The versions the tables client `i` reads went through. -/
def Moment.seenBy (m : Moment) (i : Nat) : List Db :=
  match m.store.writer with
  | some (j, _) =>
      if j = i then m.past.working ++ m.past.committed
      else m.past.committed
  | none => m.past.committed

/-- Client `i` can write to the plan under the epoch: the lock is free
and no batch of the plan is active, or it is inside such a batch. -/
def Store.CanWrite (σ : Store) (i : Nat) (planId : Bytes) (epoch : Nat) :
    Prop :=
  (σ.writer = none ∧ batchedEpochFor planId (σ.batches i) = none
      ∧ σ.committed.currentEpoch? planId = some epoch)
    ∨ ∃ s, σ.writer = some (i, s)
      ∧ batchedEpochFor planId (σ.batches i) = some epoch

/-- SQLite takes the length of a bound blob as an `int`. -/
def VerifiedReceipt.Bindable (receipt : VerifiedReceipt) : Prop :=
  receipt.tempPath.length < 2 ^ 31 ∧ receipt.finalPath.length < 2 ^ 31

/-- Receipts along all runs under a rule. In each field client `i`
persists `receipt` at `m`, and it is accepted. -/
structure ReceiptsExact (rule : Store → Nat → Action → Prop) : Prop where
  /-- The client reads it back at once. -/
  immediate : ∀ {db : Db} {m : Moment}, m.Reached rule db →
    ∀ (i : Nat) (planId : Bytes) (receipt : VerifiedReceipt)
      (faults : List (Option Bytes)), receipt.Bindable →
    let persist := Action.call (.persistVerifiedReceipt planId receipt)
    rule m.store i persist →
    (m.store.step i persist faults).1 = .ok .done →
    ((m.act i persist faults).store.step i
        (.call (.readVerifiedReceipt planId receipt.taskId
          receipt.attemptId)) []).1 = .ok (.receipt receipt)
  /-- Once the version it was stored in is a committed one, every client
  reads it back whatever happened since. -/
  forever : ∀ {db : Db} {m m' m'' : Moment}, m.Reached rule db →
    ∀ (i j : Nat) (planId : Bytes) (receipt : VerifiedReceipt)
      (faults : List (Option Bytes)), receipt.Bindable →
    let persist := Action.call (.persistVerifiedReceipt planId receipt)
    rule m.store i persist →
    (m.store.step i persist faults).1 = .ok .done →
    (m.act i persist faults).Leads rule m' →
    (m.act i persist faults).store.view i ∈ m'.past.committed →
    m'.Leads rule m'' →
    (m''.store.step j
        (.call (.readVerifiedReceipt planId receipt.taskId
          receipt.attemptId)) []).1 = .ok (.receipt receipt)
  /-- Outside a transaction of the client's own that is so at once. -/
  committed_alone : ∀ {db : Db} {m : Moment}, m.Reached rule db →
    ∀ (i : Nat) (planId : Bytes) (receipt : VerifiedReceipt)
      (faults : List (Option Bytes)),
    let persist := Action.call (.persistVerifiedReceipt planId receipt)
    rule m.store i persist →
    (∀ s, m.store.writer ≠ some (i, s)) →
    (m.store.step i persist faults).1 = .ok .done →
    (m.act i persist faults).store.view i
      ∈ (m.act i persist faults).past.committed
  /-- Inside one it is so once the transaction is committed. -/
  committed_batch : ∀ {db : Db} {m : Moment}, m.Reached rule db →
    ∀ (i : Nat) (faults : List (Option Bytes)),
    (m.store.step i .commitWriteBatch faults).1 = .ok .done →
    ∀ version ∈ m.seenBy i,
    version ∈ (m.act i .commitWriteBatch faults).past.committed
  /-- Persisted again by a client that sees it, while the task is owned
  and the client can write, it is accepted and no table changes. -/
  replay : ∀ {db : Db} {m m' : Moment}, m.Reached rule db →
    ∀ (i j : Nat) (planId : Bytes) (receipt : VerifiedReceipt)
      (faults : List (Option Bytes)), receipt.Bindable →
    let persist := Action.call (.persistVerifiedReceipt planId receipt)
    rule m.store i persist →
    (m.store.step i persist faults).1 = .ok .done →
    (m.act i persist faults).Leads rule m' →
    (m.act i persist faults).store.view i ∈ m'.seenBy j →
    ((m'.store.view j).task? planId receipt.taskId).any
      (TaskRow.isOwnedBy planId receipt.taskId receipt.ownerEpoch
        receipt.attemptId) = true →
    m'.store.CanWrite j planId receipt.ownerEpoch →
    (m'.store.step j persist []).1 = .ok .done
      ∧ (m'.store.step j persist []).2.view j = m'.store.view j
      ∧ (m'.store.step j persist []).2.committed = m'.store.committed
  /-- Another receipt for the same attempt is refused by everyone who
  sees it, and changes no table. -/
  conflict : ∀ {db : Db} {m m' : Moment}, m.Reached rule db →
    ∀ (i j : Nat) (planId : Bytes) (receipt other : VerifiedReceipt)
      (faults faults' : List (Option Bytes)), receipt.Bindable →
    let persist := Action.call (.persistVerifiedReceipt planId receipt)
    rule m.store i persist →
    (m.store.step i persist faults).1 = .ok .done →
    (m.act i persist faults).Leads rule m' →
    (m.act i persist faults).store.view i ∈ m'.seenBy j →
    other.taskId = receipt.taskId → other.attemptId = receipt.attemptId →
    other ≠ receipt →
    (∃ e, (m'.store.step j
        (.call (.persistVerifiedReceipt planId other)) faults').1 = .error e)
      ∧ (m'.store.step j
        (.call (.persistVerifiedReceipt planId other)) faults').2.committed
          = m'.store.committed

end PhotoBridge
