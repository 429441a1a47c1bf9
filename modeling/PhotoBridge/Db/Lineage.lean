/-
The versions a store's tables went through.

A store knows only its present tables. What happened to one task or one
receipt along a run, and in which order, is a property of the versions
the present tables grew out of, one per step. `Moment` carries them
along with the store, and a transaction's versions become part of the
committed ones only when it is published: what a rolled back batch did
is not in the past of any later version.
-/
import Mathlib.Logic.Relation
import PhotoBridge.Db.Store

namespace PhotoBridge

/-- The past of a store, the latest version first. -/
structure Lineage where
  /-- The versions the committed tables went through. -/
  committed : List Db
  /-- The versions of the open working copy since it was begun. -/
  working : List Db

/-- The event published a working copy. -/
def Event.publishes : Event → Bool
  | .acted _ .commitWriteBatch (.ok _) => true
  | _ => false

/-- The past after a step from `σ` to `σ'`. -/
def Lineage.next (l : Lineage) (σ σ' : Store) (published : Bool) :
    Lineage where
  committed :=
    if published then l.working ++ l.committed
    else σ'.committed :: l.committed
  working := match σ'.writer with
    | none => []
    | some (_, s) => if σ.writer.isSome then s :: l.working else [s]

/-- A point of a run: what was seen so far, the store, and its past. -/
structure Moment where
  events : List Event
  store : Store
  past : Lineage

namespace Moment

/-- The beginning of a run on a database. -/
def start (db : Db) : Moment := ⟨[], Store.opened db, ⟨[db], []⟩⟩

/-- Client `i` performs an action. -/
def act (m : Moment) (i : Nat) (action : Action)
    (faults : List (Option Bytes)) : Moment :=
  let out := m.store.step i action faults
  let event := Event.acted i action out.1
  ⟨event :: m.events, out.2,
    m.past.next m.store out.2 event.publishes⟩

/-- Client `i` goes away. -/
def close (m : Moment) (i : Nat) : Moment :=
  ⟨.closed i :: m.events, m.store.close i,
    m.past.next m.store (m.store.close i) false⟩

/-- Other code adds manifests, migrations and plans. -/
def plan (m : Moment) (manifests : List SourceManifestRow)
    (migrations : List MigrationRow) (plans : List MigrationPlanRow) :
    Moment :=
  let store := { m.store with committed :=
    m.store.committed.withPlans manifests migrations plans }
  ⟨m.events, store, m.past.next m.store store false⟩

/-- One step of a run. -/
inductive Step (rule : Store → Nat → Action → Prop) : Moment → Moment → Prop
  | act (m : Moment) (i : Nat) (action : Action)
      (faults : List (Option Bytes)) (hrule : rule m.store i action) :
      Step rule m (m.act i action faults)
  | close (m : Moment) (i : Nat) : Step rule m (m.close i)
  | plan (m : Moment) (hfree : m.store.writer = none)
      (manifests : List SourceManifestRow) (migrations : List MigrationRow)
      (plans : List MigrationPlanRow) :
      Step rule m (m.plan manifests migrations plans)

/-- `m'` is reached from `m` by any further sequence of steps. -/
def Leads (rule : Store → Nat → Action → Prop) (m m' : Moment) : Prop :=
  Relation.ReflTransGen (Step rule) m m'

/-- `m` is a point of a run on `db`. -/
def Reached (rule : Store → Nat → Action → Prop) (db : Db) (m : Moment) :
    Prop :=
  Leads rule (start db) m

end Moment

end PhotoBridge
