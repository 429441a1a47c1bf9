/-
A pool of workers behind a bounded queue.

One producer claims items and queues them, as long as there is room and no
job has failed; any number of workers take items off the queue, do what
there is to do about each, and record how it went. They share one lock and
one condition variable. Each critical section is one step, and so is each
call, each notification outside the lock and each thread's exit; a thread
whose condition does not hold falls asleep, and wakes when it is notified,
or for no reason at all (`Spurious`).

What an item is, how one is claimed and what its job does are parameters:
the claim is one call, the job a program over calls.

# Ghosts

`claimed` lists the items that were claimed, in that order, and `finished`
those whose job has ended, with its result. No step looks at them.
-/
import PhotoBridge.Lib.Concurrent
import Mathlib.Algebra.BigOperators.Group.Finset.Basic
import Mathlib.Data.Fintype.Basic
import Mathlib.Tactic.Abel

namespace WorkerPool

open Concurrent

-- =============================================================== the design

/-- What a claim comes to. -/
inductive Claim (ι ε : Type)
  | item (x : ι)
  | exhausted
  | failed (e : ε)

/-- What a pool is put together from: items `ι`, results `μ`, errors
`ε`. -/
structure Design (I : Interface) (ι κ μ ε : Type) where
  workers : Nat
  capacity : Nat
  claim : I.Call
  decode : I.Answer claim → Claim ι ε
  /-- What tells the items apart, and their jobs. -/
  name : ι → κ
  /-- The job of an item; it can be given up. -/
  job : ι → Program I (Option (Except ε μ))

/-- Where the producer is. -/
inductive Producer (ι ε : Type)
  /-- Waiting for room: about to test its condition, or asleep. -/
  | waiting (asleep : Bool)
  | claiming
  | pushing (x : ι)
  /-- About to notify, after an item was queued. -/
  | announcing
  /-- About to say that it is done. -/
  | closing (error : Option ε)
  /-- About to notify, after it has said so. -/
  | closed (error : Option ε)
  | joining (error : Option ε)
  | returned (error : Option ε)

/-- Where a worker is. -/
inductive Worker (I : Interface) (ι μ ε : Type)
  /-- Waiting for an item: about to test its condition, or asleep. -/
  | waiting (asleep : Bool)
  | working (x : ι) (rest : Program I (Option (Except ε μ)))
  | exited

variable {I : Interface} {ι κ μ ε σ : Type}

structure State (D : Design I ι κ μ ε) (σ : Type) where
  queue : List ι
  producerDone : Bool
  firstError : Option ε
  messages : List μ
  producer : Producer ι ε
  workers : Fin D.workers → Worker I ι μ ε
  world : σ
  claimed : List ι
  finished : List (ι × Except ε μ)

/-- The pool just started. -/
def State.initial (D : Design I ι κ μ ε) (world : σ) : State D σ where
  queue := []
  producerDone := false
  firstError := none
  messages := []
  producer := .waiting false
  workers := fun _ => .waiting false
  world := world
  claimed := []
  finished := []

/-- Notified. -/
def Producer.wake : Producer ι ε → Producer ι ε
  | .waiting _ => .waiting false
  | p => p

/-- Notified. -/
def Worker.wake : Worker I ι μ ε → Worker I ι μ ε
  | .waiting _ => .waiting false
  | w => w

/-- What the producer makes of an answer to its claim. -/
def Producer.after : Claim ι ε → Producer ι ε
  | .item x => .pushing x
  | .exhausted => .closing none
  | .failed e => .closing (some e)

variable {D : Design I ι κ μ ε}

namespace State

/-- `notify_all`. -/
def notify (s : State D σ) : State D σ :=
  { s with producer := s.producer.wake, workers := fun i => (s.workers i).wake }

def set (s : State D σ) (i : Fin D.workers) (w : Worker I ι μ ε) : State D σ :=
  { s with workers := Function.update s.workers i w }

/-- There is room for another item. -/
def room (s : State D σ) : Bool := s.queue.length < D.capacity

/-- The items a claim has added. -/
def claims (s : State D σ) : Claim ι ε → List ι
  | .item x => s.claimed ++ [x]
  | _ => s.claimed

/-- A job has ended: its message is kept, or its error if it is the
first. -/
def record (s : State D σ) (x : ι) (r : Except ε μ) : State D σ :=
  { s with
    messages := match r with
      | .ok m => s.messages ++ [m]
      | .error _ => s.messages
    firstError := match r with
      | .ok _ => s.firstError
      | .error e => s.firstError.or (some e)
    finished := s.finished ++ [(x, r)] }

end State

-- ================================================================ the steps

/-- A step of a thread; `effects` is what the calls of an item's job do,
and those of the producer. -/
inductive Acts (effects : Option κ → Effects I σ) : State D σ → State D σ → Prop
  | produce (s : State D σ) (hpc : s.producer = .waiting false)
      (herror : s.firstError = none) (hroom : s.room = true) :
      Acts effects s { s with producer := .claiming }
  | halt (s : State D σ) (hpc : s.producer = .waiting false)
      (herror : s.firstError ≠ none) :
      Acts effects s { s with producer := .closing none }
  | doze (s : State D σ) (hpc : s.producer = .waiting false)
      (herror : s.firstError = none) (hroom : s.room = false) :
      Acts effects s { s with producer := .waiting true }
  | claim (s : State D σ) {r : I.Answer D.claim} {world : σ}
      (hpc : s.producer = .claiming) (hc : effects none D.claim s.world r world) :
      Acts effects s { s with
        producer := .after (D.decode r)
        claimed := s.claims (D.decode r)
        world }
  | push (s : State D σ) {x : ι} (hpc : s.producer = .pushing x) :
      Acts effects s { s with
        queue := s.queue ++ [x], producer := .announcing }
  | announce (s : State D σ) (hpc : s.producer = .announcing) :
      Acts effects s { s.notify with producer := .waiting false }
  | close (s : State D σ) {error : Option ε}
      (hpc : s.producer = .closing error) :
      Acts effects s { s with producerDone := true, producer := .closed error }
  | call (s : State D σ) {error : Option ε} (hpc : s.producer = .closed error) :
      Acts effects s { s.notify with producer := .joining error }
  | join (s : State D σ) {error : Option ε} (hpc : s.producer = .joining error)
      (hexited : ∀ i, s.workers i = .exited) :
      Acts effects s { s with producer := .returned error }
  | take (s : State D σ) (i : Fin D.workers) {x : ι} {rest : List ι}
      (hpc : s.workers i = .waiting false) (hqueue : s.queue = x :: rest) :
      Acts effects s
        ({ s.notify with queue := rest }.set i (.working x (D.job x)))
  | leave (s : State D σ) (i : Fin D.workers)
      (hpc : s.workers i = .waiting false) (hqueue : s.queue = [])
      (hdone : s.producerDone = true) :
      Acts effects s (s.set i .exited)
  | nap (s : State D σ) (i : Fin D.workers)
      (hpc : s.workers i = .waiting false) (hqueue : s.queue = [])
      (hdone : s.producerDone = false) :
      Acts effects s (s.set i (.waiting true))
  | work (s : State D σ) (i : Fin D.workers) {x : ι} {c : I.Call}
      {next : I.Answer c → Program I (Option (Except ε μ))} {r : I.Answer c}
      {world : σ} (hpc : s.workers i = .working x (.call c next))
      (hc : effects (some (D.name x)) c s.world r world) :
      Acts effects s ({ s with world }.set i (.working x (next r)))
  | report (s : State D σ) (i : Fin D.workers) {x : ι} {r : Except ε μ}
      (hpc : s.workers i = .working x (.done (some r))) :
      Acts effects s ((s.record x r).notify.set i (.waiting false))

/-- A thread wakes for no reason. -/
inductive Spurious : State D σ → State D σ → Prop
  | producer (s : State D σ) (hpc : s.producer = .waiting true) :
      Spurious s { s with producer := .waiting false }
  | worker (s : State D σ) (i : Fin D.workers)
      (hpc : s.workers i = .waiting true) :
      Spurious s (s.set i (.waiting false))

inductive Reachable (D : Design I ι κ μ ε) (effects : Option κ → Effects I σ)
    (world : σ) : State D σ → Prop
  | init : Reachable D effects world (.initial D world)
  | acts {s s' : State D σ} (h : Reachable D effects world s)
      (hs : Acts effects s s') : Reachable D effects world s'
  | wakes {s s' : State D σ} (h : Reachable D effects world s)
      (hs : Spurious s s') : Reachable D effects world s'

section Reachable

variable {effects : Option κ → Effects I σ} {world world' : σ} {s : State D σ}

/-- The first item that is claimed goes to whichever worker takes it. -/
theorem Reachable.first (i : Fin D.workers) (hcapacity : 0 < D.capacity)
    {r : I.Answer D.claim} {x : ι} (hc : effects none D.claim world r world')
    (hitem : D.decode r = .item x) :
    ∃ s, Reachable D effects world s ∧ s.workers i = .working x (D.job x)
      ∧ s.world = world' := by
  have hroom : (State.initial D world).room = true :=
    decide_eq_true hcapacity
  have hclaiming : Reachable D effects world _ :=
    .acts .init (.produce _ rfl rfl hroom)
  have hclaimed := hclaiming.acts (.claim _ rfl hc)
  have hpushed := hclaimed.acts (.push _ (congrArg Producer.after hitem))
  have htaken := hpushed.acts (.take _ i rfl rfl)
  exact ⟨_, htaken, Function.update_self .., rfl⟩

/-- A worker may do its job to the end before anybody else goes on. -/
theorem Reachable.works {i : Fin D.workers} {x : ι}
    {rest : Program I (Option (Except ε μ))} {r : Option (Except ε μ)}
    (h : Reachable D effects world s) (hpc : s.workers i = .working x rest)
    (hrun : Returns (effects (some (D.name x))) rest s.world r world') :
    Reachable D effects world
      ({ s with world := world' }.set i (.working x (.done r))) := by
  generalize hworld : s.world = w at hrun
  induction hrun generalizing s with
  | done r w =>
      have hsame : { s with world := w }.set i (.working x (.done r)) = s := by
        rw [← hpc, ← hworld]
        show { s with workers := Function.update s.workers i (s.workers i) } = s
        rw [Function.update_eq_self]
      rw [hsame]
      exact h
  | @call c next r a w w₁ w₂ hc _ ih =>
      rw [← hworld] at hc
      have hnext := ih (h.acts (.work s i hpc hc)) (Function.update_self ..) rfl
      have hset : ∀ (u : Worker I ι μ ε),
          Function.update (Function.update s.workers i u) i (.working x (.done a))
            = Function.update s.workers i (.working x (.done a)) :=
        fun u => Function.update_idem _ _ _
      simp only [State.set, hset] at hnext ⊢
      exact hnext

end Reachable

-- ============================================================== the account

/-- The item a worker is working on. -/
def Worker.items : Worker I ι μ ε → Multiset ι
  | .working x _ => {x}
  | _ => 0

/-- The item the producer has in hand. -/
def Producer.items : Producer ι ε → Multiset ι
  | .pushing x => {x}
  | _ => 0

namespace State

/-- The items that are being worked on. -/
def busy (s : State D σ) : Multiset ι := ∑ i, (s.workers i).items

/-- Every claimed item is in one place, and nothing else is. -/
def Account (s : State D σ) : Prop :=
  (s.claimed : Multiset ι) = s.producer.items + (s.queue : Multiset ι)
    + s.busy + (s.finished.map Prod.fst : Multiset ι)

end State

/-- A notified producer holds what it held. -/
@[simp] theorem Producer.wake_items (p : Producer ι ε) :
    p.wake.items = p.items := by
  cases p <;> rfl

/-- A notified worker holds what it held. -/
@[simp] theorem Worker.wake_items (w : Worker I ι μ ε) :
    w.wake.items = w.items := by
  cases w <;> rfl

namespace State

/-- Notifying hands out nothing. -/
@[simp] theorem notify_busy (s : State D σ) : s.notify.busy = s.busy := by
  unfold busy notify
  simp only [Worker.wake_items]

/-- What a worker gets or gives away is all that changes hands. -/
theorem set_busy (s : State D σ) (i : Fin D.workers) (w : Worker I ι μ ε) :
    (s.set i w).busy + (s.workers i).items = s.busy + w.items := by
  unfold busy set
  rw [← Finset.add_sum_erase _ _ (Finset.mem_univ i),
    ← Finset.add_sum_erase _ (fun j => (s.workers j).items) (Finset.mem_univ i)]
  simp only [Function.update_self]
  have hrest : ∑ j ∈ Finset.univ.erase i, (Function.update s.workers i w j).items
      = ∑ j ∈ Finset.univ.erase i, (s.workers j).items := by
    refine Finset.sum_congr rfl fun j hj => ?_
    rw [Function.update_of_ne (Finset.ne_of_mem_erase hj)]
  rw [hrest]
  abel

/-- A worker that was set. -/
theorem set_self {s : State D σ} {i : Fin D.workers} {w : Worker I ι μ ε} :
    (s.set i w).workers i = w := Function.update_self ..

/-- The other workers. -/
theorem set_ne {s : State D σ} {i j : Fin D.workers} {w : Worker I ι μ ε}
    (h : j ≠ i) : (s.set i w).workers j = s.workers j :=
  Function.update_of_ne h ..

/-- A worker goes from one item to another. -/
theorem set_busy_of (s : State D σ) {i : Fin D.workers} {w : Worker I ι μ ε}
    (w' : Worker I ι μ ε) (h : s.workers i = w) : (s.set i w').busy + w.items = s.busy + w'.items := by
  rw [← h]
  exact s.set_busy i w'

end State

variable {s s' : State D σ} {effects : Option κ → Effects I σ} {world : σ}

/-- Every step keeps the account of the items. -/
theorem Acts.account (hs : Acts effects s s') (h : s.Account) : s'.Account := by
  unfold State.Account at h ⊢
  cases hs with
  -- the producer only moves
  | produce hpc herror hroom =>
      rw [hpc] at h
      exact h
  | halt hpc herror =>
      rw [hpc] at h
      exact h
  | doze hpc herror hroom =>
      rw [hpc] at h
      exact h
  -- a claimed item goes to the producer, if there is one
  | @claim r _ hpc hc =>
      rw [hpc] at h
      show ((s.claims (D.decode r) : List ι) : Multiset ι)
        = (Producer.after (D.decode r)).items + _ + s.busy + _
      cases D.decode r with
      | exhausted => exact h
      | failed e => exact h
      | item x =>
          show ((s.claimed ++ [x] : List ι) : Multiset ι) = {x} + _ + s.busy + _
          rw [← Multiset.coe_add, h, Multiset.coe_singleton]
          simp only [Producer.items]
          abel
  -- it goes on to the queue
  | @push x hpc =>
      rw [hpc] at h
      show (s.claimed : Multiset ι)
        = 0 + ((s.queue ++ [x] : List ι) : Multiset ι) + s.busy + _
      rw [← Multiset.coe_add, h, Multiset.coe_singleton]
      simp only [Producer.items]
      abel
  | announce hpc =>
      rw [hpc] at h
      show (s.claimed : Multiset ι) = 0 + _ + s.notify.busy + _
      rw [State.notify_busy]
      exact h
  | close hpc =>
      rw [hpc] at h
      exact h
  | call hpc =>
      rw [hpc] at h
      show (s.claimed : Multiset ι) = 0 + _ + s.notify.busy + _
      rw [State.notify_busy]
      exact h
  | join hpc hexited =>
      rw [hpc] at h
      exact h
  -- from the queue to the worker that takes it
  | @take i x rest hpc hqueue =>
      have hbusy := ({ s.notify with queue := rest } : State D σ).set_busy_of
        (i := i) (.working x (D.job x))
        (show (s.workers i).wake = .waiting false by rw [hpc]; rfl)
      have hsame : ({ s.notify with queue := rest } : State D σ).busy = s.busy :=
        s.notify_busy
      rw [hsame] at hbusy
      show (s.claimed : Multiset ι) = s.producer.wake.items + (rest : Multiset ι)
        + (({ s.notify with queue := rest } : State D σ).set i
          (.working x (D.job x))).busy + _
      rw [h, hqueue, Producer.wake_items, ← Multiset.cons_coe,
        ← Multiset.singleton_add]
      simp only [Worker.items, add_zero] at hbusy
      rw [hbusy]
      abel
  -- the worker held nothing
  | @leave i hpc hqueue hdone =>
      have hbusy := s.set_busy_of .exited hpc
      simp only [Worker.items, add_zero] at hbusy
      show (s.claimed : Multiset ι) = s.producer.items + _ + (s.set i .exited).busy + _
      rw [hbusy]
      exact h
  | @nap i hpc hqueue hdone =>
      have hbusy := s.set_busy_of (.waiting true) hpc
      simp only [Worker.items, add_zero] at hbusy
      show (s.claimed : Multiset ι)
        = s.producer.items + _ + (s.set i (.waiting true)).busy + _
      rw [hbusy]
      exact h
  -- the worker keeps its item
  | @work i x c next r world hpc hc =>
      have hbusy := ({ s with world } : State D σ).set_busy_of
        (.working x (next r)) hpc
      simp only [Worker.items] at hbusy
      show (s.claimed : Multiset ι) = s.producer.items + _
        + (({ s with world } : State D σ).set i (.working x (next r))).busy + _
      rw [add_right_cancel hbusy]
      exact h
  -- from the worker to the finished ones
  | @report i x r hpc =>
      have hbusy := (s.record x r).notify.set_busy_of (i := i)
        (.waiting false)
        (show (s.workers i).wake = .working x (.done (some r)) by rw [hpc]; rfl)
      have hsame : (s.record x r).notify.busy = s.busy := s.notify_busy
      rw [hsame] at hbusy
      simp only [Worker.items, add_zero] at hbusy
      show (s.claimed : Multiset ι) = s.producer.wake.items + (s.queue : Multiset ι)
        + ((s.record x r).notify.set i (.waiting false)).busy
        + ((s.finished ++ [(x, r)]).map Prod.fst : List ι)
      rw [h, ← hbusy, Producer.wake_items, List.map_append, ← Multiset.coe_add,
        List.map_singleton, Multiset.coe_singleton]
      abel

/-- Waking for no reason keeps the account of the items. -/
theorem Spurious.account (hs : Spurious s s') (h : s.Account) : s'.Account := by
  unfold State.Account at h ⊢
  cases hs with
  | producer hpc =>
      rw [hpc] at h
      exact h
  | @worker i hpc =>
      have hbusy := s.set_busy_of (.waiting false) hpc
      simp only [Worker.items, add_zero] at hbusy
      show (s.claimed : Multiset ι)
        = s.producer.items + _ + (s.set i (.waiting false)).busy + _
      rw [hbusy]
      exact h

/-- The account of a pool just started. -/
theorem State.initial_account (D : Design I ι κ μ ε) (world : σ) :
    (State.initial D world).Account := by
  show (([] : List ι) : Multiset ι) = 0 + ([] : List ι)
    + (∑ _i : Fin D.workers, (0 : Multiset ι)) + ([] : List ι)
  simp

-- =============================================================== the threads

/-- The producer has said that it is done. -/
def Producer.isDone : Producer ι ε → Bool
  | .closed _ => true
  | .joining _ => true
  | .returned _ => true
  | _ => false

/-- A notification is on its way. -/
def Producer.notifies : Producer ι ε → Bool
  | .announcing => true
  | .closed _ => true
  | _ => false

/-- The producer has seen that there is room. -/
def Producer.hasRoom : Producer ι ε → Bool
  | .claiming => true
  | .pushing _ => true
  | _ => false

/-- How the threads stand to the queue and the flags. -/
structure State.Threads (s : State D σ) : Prop where
  bounded : s.queue.length ≤ D.capacity
  room : s.producer.hasRoom = true → s.queue.length < D.capacity
  done : s.producerDone = s.producer.isDone
  exited : ∀ i, s.workers i = .exited → s.producerDone = true ∧ s.queue = []
  returned : ∀ error, s.producer = .returned error →
    ∀ i, s.workers i = .exited
  producer_asleep : s.producer = .waiting true →
    s.room = false ∧ s.firstError = none
  worker_asleep : ∀ i, s.workers i = .waiting true →
    s.queue = [] ∧ s.producerDone = false ∨ s.producer.notifies = true

/-- Nobody sleeps who was notified. -/
theorem Worker.wake_ne {w : Worker I ι μ ε} : w.wake ≠ .waiting true := by
  cases w <;> nofun

/-- Only a worker that has exited is an exited one notified. -/
theorem Worker.wake_exited {w : Worker I ι μ ε} :
    w.wake = .exited ↔ w = .exited := by
  cases w <;> simp [Worker.wake]

/-- A notified producer is done if it was. -/
theorem Producer.wake_isDone (p : Producer ι ε) : p.wake.isDone = p.isDone := by
  cases p <;> rfl

/-- A notified producer has room if it had. -/
theorem Producer.wake_hasRoom (p : Producer ι ε) :
    p.wake.hasRoom = p.hasRoom := by
  cases p <;> rfl

/-- A notified producer is not asleep. -/
theorem Producer.wake_ne {p : Producer ι ε} : p.wake ≠ .waiting true := by
  cases p <;> nofun

/-- Only a producer that has returned is a returned one notified. -/
theorem Producer.wake_returned {p : Producer ι ε} {error : Option ε} :
    p.wake = .returned error ↔ p = .returned error := by
  cases p <;> simp [Producer.wake]

namespace State.Threads

/-- The producer goes on, and nobody else is concerned. -/
theorem move (h : s.Threads) {p : Producer ι ε}
    (hroom : p.hasRoom = true → s.queue.length < D.capacity)
    (hdone : s.producer.isDone = p.isDone)
    (hreturned : ∀ error, p = .returned error → ∀ i, s.workers i = .exited)
    (hasleep : p = .waiting true → s.room = false ∧ s.firstError = none)
    (hnotified : s.producer.notifies = false) :
    ({ s with producer := p } : State D σ).Threads where
  bounded := h.bounded
  room := hroom
  done := h.done.trans hdone
  exited := h.exited
  returned := hreturned
  producer_asleep := hasleep
  worker_asleep i hi := by
    have hcases := h.worker_asleep i hi
    rw [hnotified] at hcases
    exact .inl (hcases.resolve_right Bool.false_ne_true)

/-- The producer notifies everybody. -/
theorem announce (h : s.Threads) {p : Producer ι ε}
    (hroom : p.hasRoom = false) (hdone : s.producer.isDone = p.isDone)
    (hreturned : ∀ error, p ≠ .returned error) (hasleep : p ≠ .waiting true) :
    ({ s.notify with producer := p } : State D σ).Threads where
  bounded := h.bounded
  room hp := by
    rw [show p.hasRoom = true from hp] at hroom
    cases hroom
  done := h.done.trans hdone
  exited i hi := h.exited i (Worker.wake_exited.1 hi)
  returned error hp := absurd hp (hreturned error)
  producer_asleep hp := absurd hp hasleep
  worker_asleep i hi := absurd hi Worker.wake_ne

/-- A worker goes on, and nobody else is concerned. -/
theorem set (h : s.Threads) {i : Fin D.workers} {w : Worker I ι μ ε}
    (hidle : s.workers i ≠ .exited)
    (hexited : w = .exited → s.producerDone = true ∧ s.queue = [])
    (hasleep : w = .waiting true → s.queue = [] ∧ s.producerDone = false) :
    (s.set i w).Threads where
  bounded := h.bounded
  room := h.room
  done := h.done
  exited j hj := by
    by_cases hji : j = i
    · rw [hji, State.set_self] at hj
      exact hexited hj
    · rw [State.set_ne hji] at hj
      exact h.exited j hj
  returned error hp := absurd (h.returned error hp i) hidle
  producer_asleep := h.producer_asleep
  worker_asleep j hj := by
    by_cases hji : j = i
    · rw [hji, State.set_self] at hj
      exact .inl (hasleep hj)
    · rw [State.set_ne hji] at hj
      exact h.worker_asleep j hj

end State.Threads

/-- Every step keeps what is known of the threads. -/
theorem Acts.threads (hs : Acts effects s s') (h : s.Threads) : s'.Threads := by
  cases hs with
  | produce hpc herror hroom =>
      refine h.move (fun _ => of_decide_eq_true hroom) ?_ nofun nofun ?_
      · rw [hpc]
        rfl
      · rw [hpc]
        rfl
  | halt hpc herror =>
      refine h.move nofun ?_ nofun nofun ?_
      · rw [hpc]
        rfl
      · rw [hpc]
        rfl
  | doze hpc herror hroom =>
      refine h.move nofun ?_ nofun (fun _ => ⟨hroom, herror⟩) ?_
      · rw [hpc]
        rfl
      · rw [hpc]
        rfl
  | @claim r world hpc hc =>
      have hspace : s.queue.length < D.capacity := h.room (by rw [hpc]; rfl)
      have hmoved : ({ s with producer := .after (D.decode r) } : State D σ).Threads := by
        refine h.move (fun _ => hspace) ?_ ?_ ?_ ?_
        · rw [hpc]
          cases D.decode r <;> rfl
        · intro error herror
          cases hr : D.decode r <;> rw [hr] at herror <;> cases herror
        · intro hasleep
          cases hr : D.decode r <;> rw [hr] at hasleep <;> cases hasleep
        · rw [hpc]
          rfl
      exact ⟨hmoved.bounded, hmoved.room, hmoved.done, hmoved.exited,
        hmoved.returned, hmoved.producer_asleep, hmoved.worker_asleep⟩
  | @push x hpc =>
      have hspace : s.queue.length < D.capacity := h.room (by rw [hpc]; rfl)
      have hdone : s.producerDone = false := by
        rw [h.done, hpc]
        rfl
      refine ⟨?_, nofun, hdone, fun i hi => ?_, nofun, nofun, fun i hi => .inr rfl⟩
      · show (s.queue ++ [x]).length ≤ _
        rw [List.length_append]
        exact hspace
      · rw [(h.exited i hi).1] at hdone
        cases hdone
  | announce hpc =>
      refine h.announce rfl ?_ nofun nofun
      rw [hpc]
      rfl
  | close hpc =>
      refine ⟨h.bounded, nofun, rfl, fun i hi => ⟨rfl, (h.exited i hi).2⟩, nofun,
        nofun, fun i hi => .inr rfl⟩
  | call hpc =>
      refine h.announce rfl ?_ nofun nofun
      rw [hpc]
      rfl
  | join hpc hexited =>
      refine h.move nofun ?_ (fun _ _ => hexited) nofun ?_
      · rw [hpc]
        rfl
      · rw [hpc]
        rfl
  | @take i x rest hpc hqueue =>
      -- everybody is awake, and the queue shorter
      have hlength : s.queue.length = rest.length + 1 := by rw [hqueue]; rfl
      have hbounded := h.bounded
      have hnone : ∀ j, s.workers j ≠ .exited := by
        intro j hj
        rw [(h.exited j hj).2] at hqueue
        cases hqueue
      have htaken : ({ s.notify with queue := rest } : State D σ).Threads := by
        refine ⟨?_, fun hp => ?_, ?_, fun j hj => ?_, fun error hp j => ?_,
          fun hp => ?_, fun j hj => ?_⟩
        · show rest.length ≤ _
          omega
        · have hspace := h.room ((Producer.wake_hasRoom _).symm.trans hp)
          show rest.length < _
          omega
        · exact h.done.trans (Producer.wake_isDone _).symm
        · exact absurd (Worker.wake_exited.1 hj) (hnone j)
        · exact absurd (h.returned error (Producer.wake_returned.1 hp) j) (hnone j)
        · exact absurd hp Producer.wake_ne
        · exact absurd hj Worker.wake_ne
      refine htaken.set (fun hexited => ?_) nofun nofun
      exact hnone i (Worker.wake_exited.1 hexited)
  | @leave i hpc hqueue hdone =>
      refine h.set ?_ (fun _ => ⟨hdone, hqueue⟩) nofun
      rw [hpc]
      nofun
  | @nap i hpc hqueue hdone =>
      refine h.set ?_ nofun fun _ => ⟨hqueue, hdone⟩
      rw [hpc]
      nofun
  | @work i x c next r world hpc hc =>
      have hworld : ({ s with world } : State D σ).Threads :=
        ⟨h.bounded, h.room, h.done, h.exited, h.returned, h.producer_asleep,
          h.worker_asleep⟩
      refine hworld.set ?_ nofun nofun
      show s.workers i ≠ _
      rw [hpc]
      nofun
  | @report i x r hpc =>
      have hrecorded : (s.record x r).notify.Threads := by
        refine ⟨h.bounded, fun hp => ?_, ?_, fun j hj => ?_, fun error hp j => ?_,
          fun hp => ?_, fun j hj => ?_⟩
        · exact h.room ((Producer.wake_hasRoom _).symm.trans hp)
        · exact h.done.trans (Producer.wake_isDone _).symm
        · exact h.exited j (Worker.wake_exited.1 hj)
        · exact Worker.wake_exited.2 (h.returned error (Producer.wake_returned.1 hp) j)
        · exact absurd hp Producer.wake_ne
        · exact absurd hj Worker.wake_ne
      refine hrecorded.set (fun hexited => ?_) nofun nofun
      have hworking := Worker.wake_exited.1 hexited
      rw [show (s.record x r).workers i = s.workers i from rfl, hpc] at hworking
      cases hworking

/-- Waking for no reason keeps what is known of the threads. -/
theorem Spurious.threads (hs : Spurious s s') (h : s.Threads) : s'.Threads := by
  cases hs with
  | producer hpc =>
      refine h.move nofun ?_ nofun nofun ?_
      · rw [hpc]
        rfl
      · rw [hpc]
        rfl
  | @worker i hpc =>
      refine h.set ?_ nofun nofun
      rw [hpc]
      nofun

/-- The threads of a pool just started. -/
theorem State.initial_threads (D : Design I ι κ μ ε) (world : σ) :
    (State.initial D world).Threads :=
  ⟨Nat.zero_le _, nofun, rfl, nofun, nofun, nofun, nofun⟩

-- =============================================================== the results

/-- The error of a job that has failed. -/
def failure : Except ε μ → Option ε
  | .ok _ => none
  | .error e => some e

/-- What is kept of the results: the messages in the order of the reports,
and the first error. -/
structure State.Outcome (s : State D σ) : Prop where
  messages : s.messages = s.finished.filterMap (·.2.toOption)
  firstError : s.firstError = (s.finished.filterMap (failure ·.2)).head?

/-- Every step keeps what is known of the results. -/
theorem Acts.outcome (hs : Acts effects s s') (h : s.Outcome) : s'.Outcome := by
  cases hs with
  | @report i x r hpc =>
      refine ⟨?_, ?_⟩
      · show (s.record x r).messages = (s.finished ++ [(x, r)]).filterMap _
        rw [List.filterMap_append, ← h.messages]
        cases r with
        | ok m => rfl
        | error e => exact (List.append_nil _).symm
      · show (s.record x r).firstError
          = ((s.finished ++ [(x, r)]).filterMap (failure ·.2)).head?
        rw [List.filterMap_append, List.head?_append, ← h.firstError]
        cases r with
        | ok m => exact (Option.or_none).symm
        | error e => rfl
  | _ => exact ⟨h.messages, h.firstError⟩

/-- Waking for no reason keeps what is known of the results. -/
theorem Spurious.outcome (hs : Spurious s s') (h : s.Outcome) : s'.Outcome := by
  cases hs with
  | producer hpc => exact ⟨h.messages, h.firstError⟩
  | worker hpc => exact ⟨h.messages, h.firstError⟩

-- ============================================================== every run

/-- What holds of a pool in every reachable state. -/
structure State.Orderly (s : State D σ) : Prop where
  account : s.Account
  threads : s.Threads
  outcome : s.Outcome

/-- Every state of a pool is an orderly one. -/
theorem Reachable.orderly (h : Reachable D effects world s) : s.Orderly := by
  induction h with
  | init =>
      exact ⟨State.initial_account D world, State.initial_threads D world, rfl, rfl⟩
  | acts _ hs ih =>
      exact ⟨hs.account ih.account, hs.threads ih.threads, hs.outcome ih.outcome⟩
  | wakes _ hs ih =>
      exact ⟨hs.account ih.account, hs.threads ih.threads, hs.outcome ih.outcome⟩

/-- A worker that has an item can go on. -/
theorem working_acts {i : Fin D.workers} {x : ι}
    {rest : Program I (Option (Except ε μ))}
    (hpc : s.workers i = .working x rest) (hspent : rest ≠ .done none)
    (hcall : ∀ c next, rest = .call c next →
      ∃ r world', effects (some (D.name x)) c s.world r world') :
    ∃ s', Acts effects s s' := by
  match rest with
  | .done none => exact absurd rfl hspent
  | .done (some r) => exact ⟨_, .report s i hpc⟩
  | .call c next =>
      obtain ⟨r, world', hc⟩ := hcall c next rfl
      exact ⟨_, .work s i hpc hc⟩

/-- Nobody waits for ever: as long as a claim has some answer, and each
worker that has an item can go on, so can the pool, until the producer has
returned. -/
theorem State.Orderly.progress (h : s.Orderly) (hworkers : 0 < D.workers)
    (hcapacity : 0 < D.capacity)
    (hclaim : ∃ r world', effects none D.claim s.world r world')
    (hworking : ∀ i x rest, s.workers i = .working x rest →
      ∃ s', Acts effects s s')
    (hover : ∀ error, s.producer ≠ .returned error) :
    ∃ s', Acts effects s s' := by
  cases hproducer : s.producer with
  | waiting asleep =>
      cases asleep with
      | false =>
          cases herror : s.firstError with
          | some e =>
              exact ⟨_, .halt s hproducer (by rw [herror]; nofun)⟩
          | none =>
              cases hroom : s.room with
              | true => exact ⟨_, .produce s hproducer herror hroom⟩
              | false => exact ⟨_, .doze s hproducer herror hroom⟩
      | true =>
          -- the queue is full, so no worker sleeps or has left
          obtain ⟨hroom, -⟩ := h.threads.producer_asleep hproducer
          have hfull : D.capacity ≤ s.queue.length :=
            Nat.not_lt.1 (of_decide_eq_false hroom)
          have hqueue : s.queue ≠ [] :=
            List.ne_nil_of_length_pos (Nat.lt_of_lt_of_le hcapacity hfull)
          cases hworker : s.workers ⟨0, hworkers⟩ with
          | exited => exact absurd (h.threads.exited _ hworker).2 hqueue
          | working x rest => exact hworking _ x rest hworker
          | waiting asleep =>
              cases asleep with
              | false =>
                  obtain ⟨x, rest, hcons⟩ := List.exists_cons_of_ne_nil hqueue
                  exact ⟨_, .take s _ hworker hcons⟩
              | true =>
                  rcases h.threads.worker_asleep _ hworker with hempty | hnotifies
                  · exact absurd hempty.1 hqueue
                  · rw [hproducer] at hnotifies
                    cases hnotifies
  | claiming =>
      obtain ⟨r, world', hc⟩ := hclaim
      exact ⟨_, .claim s hproducer hc⟩
  | pushing x => exact ⟨_, .push s hproducer⟩
  | announcing => exact ⟨_, .announce s hproducer⟩
  | closing error => exact ⟨_, .close s hproducer⟩
  | closed error => exact ⟨_, .call s hproducer⟩
  | returned error => exact absurd hproducer (hover error)
  | joining error =>
      by_cases hexited : ∀ i, s.workers i = .exited
      · exact ⟨_, .join s hproducer hexited⟩
      · obtain ⟨i, hi⟩ := not_forall.1 hexited
        have hdone : s.producerDone = true := by
          rw [h.threads.done, hproducer]
          rfl
        cases hworker : s.workers i with
        | exited => exact absurd hworker hi
        | working x rest => exact hworking i x rest hworker
        | waiting asleep =>
            cases asleep with
            | false =>
                cases hqueue : s.queue with
                | nil => exact ⟨_, .leave s i hworker hqueue hdone⟩
                | cons x rest => exact ⟨_, .take s i hworker hqueue⟩
            | true =>
                rcases h.threads.worker_asleep i hworker with ⟨-, hno⟩ | hnotifies
                · rw [hdone] at hno
                  cases hno
                · rw [hproducer] at hnotifies
                  cases hnotifies

/-- Where nothing has failed, every job has ended well. -/
theorem State.Outcome.ok (h : s.Outcome) (hnone : s.firstError = none) {x : ι}
    {r : Except ε μ} (hx : (x, r) ∈ s.finished) : ∃ m, r = .ok m := by
  cases r with
  | ok m => exact ⟨m, rfl⟩
  | error e =>
      have hfailed : e ∈ s.finished.filterMap (failure ·.2) :=
        List.mem_filterMap.2 ⟨(x, .error e), hx, rfl⟩
      rw [List.head?_eq_none_iff.1 (h.firstError.symm.trans hnone)] at hfailed
      cases hfailed

/-- Once the producer has returned, each claimed item's job has ended, once. -/
theorem State.Orderly.returned (h : s.Orderly) (hworkers : 0 < D.workers)
    {error : Option ε} (hreturned : s.producer = .returned error) :
    (s.finished.map Prod.fst).Perm s.claimed := by
  have hexited := h.threads.returned error hreturned
  have hqueue := (h.threads.exited _ (hexited ⟨0, hworkers⟩)).2
  have hbusy : s.busy = 0 := by
    refine Finset.sum_eq_zero fun i _ => ?_
    rw [hexited i]
    rfl
  have haccount := h.account
  unfold State.Account at haccount
  rw [hreturned, hqueue, hbusy] at haccount
  refine (Multiset.coe_eq_coe.1 ?_).symm
  rw [haccount]
  simp [Producer.items]

-- ============================================================== the world

/-- What the claims and the jobs of a pool are about: where the job of an
item can be started (`ready`), which names the world has handed out
(`issued`), where a job has ended (`post`), and that there is nothing left
to claim (`drained`). -/
structure Contract (D : Design I ι κ μ ε) (σ : Type) where
  ready : ι → σ → Prop
  issued : κ → σ → Prop
  post : ι → Option (Except ε μ) → σ → Prop
  drained : σ → Prop

/-- How the claims and the jobs of a pool get on with each other. -/
structure Shared (D : Design I ι κ μ ε) (effects : Option κ → Effects I σ)
    (P : Protocol (Option κ) I σ) (C : Contract D σ) : Prop where
  claim : ∀ s r s', P.inv s → effects none D.claim s r s' →
    P.inv s' ∧ P.guar none D.claim s s'
      ∧ (∀ x, D.decode r = .item x → C.ready x s'
        ∧ C.issued (D.name x) s' ∧ ¬C.issued (D.name x) s)
      ∧ (D.decode r = .exhausted → C.drained s')
      ∧ ∀ k, C.issued k s' →
        C.issued k s ∨ ∃ x, D.decode r = .item x ∧ D.name x = k
  job : ∀ x, Triple P effects (some (D.name x)) (C.ready x) (D.job x) (C.post x)
  ready_stable : ∀ x, Stable P (some (D.name x)) (C.ready x)
  post_stable : ∀ x r, Stable P (some (D.name x)) (C.post x r)
  issued_kept : ∀ k t c s s', P.guar t c s s' → C.issued k s → C.issued k s'
  issued_only : ∀ k j c s s', P.guar (some j) c s s' →
    C.issued k s' → C.issued k s
  drained_kept : ∀ t c s s', P.guar t c s s' → C.drained s → C.drained s'

/-- What the producer ends with, once it has stopped claiming. -/
def Producer.ending : Producer ι ε → Option (Option ε)
  | .closing error => some error
  | .closed error => some error
  | .joining error => some error
  | .returned error => some error
  | _ => none

/-- A notified producer ends as it would have. -/
theorem Producer.wake_ending (p : Producer ι ε) : p.wake.ending = p.ending := by
  cases p <;> rfl

section Shared

variable {P : Protocol (Option κ) I σ} {C : Contract D σ}

/-- The world is sound, and every item's job is safe from where it is. -/
structure State.Safely (P : Protocol (Option κ) I σ)
    (effects : Option κ → Effects I σ) (C : Contract D σ) (s : State D σ) :
    Prop where
  inv : P.inv s.world
  pushing : ∀ x ∈ s.producer.items, C.ready x s.world
  queued : ∀ x ∈ s.queue, C.ready x s.world
  working : ∀ i x rest, s.workers i = .working x rest →
    Safe P effects (some (D.name x)) (C.post x) rest s.world
  finished : ∀ x r, (x, r) ∈ s.finished → C.post x (some r) s.world
  issued : ∀ x ∈ s.claimed, C.issued (D.name x) s.world
  nodup : (s.claimed.map D.name).Nodup
  /-- The producer has stopped because there was nothing left, unless
  something has failed. -/
  drained : s.producer.ending = some none → s.firstError = none →
    C.drained s.world

/-- A worker goes on working when it is notified. -/
theorem Worker.wake_working {w : Worker I ι μ ε} {x : ι}
    {rest : Program I (Option (Except ε μ))} :
    w.wake = .working x rest ↔ w = .working x rest := by
  cases w <;> simp [Worker.wake]

namespace State

/-- No name is in two places. -/
structure Distinct (s : State D σ) (x : ι) (i : Fin D.workers) : Prop where
  pushing : ∀ y ∈ s.producer.items, D.name y ≠ D.name x
  queued : ∀ y ∈ s.queue, D.name y ≠ D.name x
  working : ∀ j y rest, s.workers j = .working y rest → j ≠ i →
    D.name y ≠ D.name x
  finished : ∀ y r, (y, r) ∈ s.finished → D.name y ≠ D.name x

/-- An item that is worked on is a busy one. -/
theorem mem_busy {x : ι} {i : Fin D.workers}
    {rest : Program I (Option (Except ε μ))}
    (hpc : s.workers i = .working x rest) : x ∈ s.busy := by
  unfold busy
  rw [Multiset.mem_sum]
  refine ⟨i, Finset.mem_univ i, ?_⟩
  rw [hpc]
  exact Multiset.mem_singleton_self x

/-- Items have names of their own, so a worker's is apart from all others.
-/
theorem Account.distinct (h : s.Account) (hnodup : (s.claimed.map D.name).Nodup)
    {x : ι} {i : Fin D.workers} {rest : Program I (Option (Except ε μ))}
    (hpc : s.workers i = .working x rest) : s.Distinct x i := by
  have hall : ((s.producer.items + (s.queue : Multiset ι) + s.busy
      + (s.finished.map Prod.fst : Multiset ι)).map D.name).Nodup := by
    rw [← h]
    exact Multiset.coe_nodup.2 hnodup
  rw [Multiset.map_add, Multiset.map_add, Multiset.map_add] at hall
  obtain ⟨hfront, -, hfinished⟩ := Multiset.nodup_add.1 hall
  obtain ⟨-, hbusy, hapart⟩ := Multiset.nodup_add.1 hfront
  have hmem : D.name x ∈ s.busy.map D.name :=
    Multiset.mem_map_of_mem _ (mem_busy hpc)
  rw [Multiset.disjoint_left] at hfinished hapart
  refine ⟨fun y hy heq => ?_, fun y hy heq => ?_, fun j y rest' hj hji heq => ?_,
    fun y r hy heq => ?_⟩
  · refine hapart (a := D.name y) (Multiset.mem_add.2 (.inl ?_)) (heq ▸ hmem)
    exact Multiset.mem_map_of_mem _ hy
  · refine hapart (a := D.name y) (Multiset.mem_add.2 (.inr ?_)) (heq ▸ hmem)
    exact Multiset.mem_map_of_mem _ (Multiset.mem_coe.2 hy)
  · -- two workers with one name count it twice
    unfold busy at hbusy
    rw [← Finset.add_sum_erase _ _ (Finset.mem_univ i), hpc,
      Multiset.map_add] at hbusy
    obtain ⟨-, -, htwice⟩ := Multiset.nodup_add.1 hbusy
    rw [Multiset.disjoint_left] at htwice
    refine htwice (a := D.name x) (Multiset.mem_map_of_mem _
      (Multiset.mem_singleton_self x)) (heq ▸ Multiset.mem_map_of_mem _
      (Multiset.mem_sum.2 ⟨j, Finset.mem_erase.2 ⟨hji, Finset.mem_univ j⟩, ?_⟩))
    rw [hj]
    exact Multiset.mem_singleton_self y
  · refine hfinished (a := D.name y) (Multiset.mem_add.2 (.inr (heq ▸ hmem))) ?_
    exact Multiset.mem_map_of_mem _ (Multiset.mem_coe.2 (List.mem_map_of_mem hy))

end State

/-- What another thread does leaves an item's job safe. -/
theorem Shared.others (h : Shared D effects P C) {t : Option κ} {c : I.Call}
    {a b : σ} (hinv : P.inv a) (hinv' : P.inv b) (hguar : P.guar t c a b) {y : ι}
    (hne : some (D.name y) ≠ t) :
    (C.ready y a → C.ready y b) ∧ (∀ r, C.post y r a → C.post y r b)
      ∧ ∀ rest, Safe P effects (some (D.name y)) (C.post y) rest a →
        Safe P effects (some (D.name y)) (C.post y) rest b := by
  have hrely := P.compat hne hguar
  exact ⟨h.ready_stable y a b hinv hinv' hrely,
    fun r => h.post_stable y r a b hinv hinv' hrely, fun _ hsafe => hsafe.rely hrely⟩

namespace State.Safely

/-- The producer goes on, with no item or with one whose job can be
started. -/
theorem move (h : s.Safely P effects C) {p : Producer ι ε}
    (hp : ∀ x ∈ p.items, C.ready x s.world)
    (hending : p.ending = some none → s.firstError = none → C.drained s.world) :
    ({ s with producer := p } : State D σ).Safely P effects C :=
  ⟨h.inv, hp, h.queued, h.working, h.finished, h.issued, h.nodup, hending⟩

/-- Notifying is safe. -/
theorem notify (h : s.Safely P effects C) : s.notify.Safely P effects C where
  inv := h.inv
  pushing x hx := h.pushing x (by rw [← Producer.wake_items]; exact hx)
  queued := h.queued
  working i x rest hi := h.working i x rest (Worker.wake_working.1 hi)
  finished := h.finished
  issued := h.issued
  nodup := h.nodup
  drained hp := h.drained ((Producer.wake_ending _).symm.trans hp)

/-- A worker goes on to something that is safe. -/
theorem set (h : s.Safely P effects C) {i : Fin D.workers}
    {w : Worker I ι μ ε} (hw : ∀ x rest, w = .working x rest →
      Safe P effects (some (D.name x)) (C.post x) rest s.world) :
    (s.set i w).Safely P effects C where
  inv := h.inv
  pushing := h.pushing
  queued := h.queued
  working j x rest hj := by
    by_cases hji : j = i
    · rw [hji, State.set_self] at hj
      exact hw x rest hj
    · rw [State.set_ne hji] at hj
      exact h.working j x rest hj
  finished := h.finished
  issued := h.issued
  nodup := h.nodup
  drained := h.drained

end State.Safely

/-- Every step of a pool whose calls keep to the protocol is safe. -/
theorem Acts.safely (hs : Acts effects s s') (hshared : Shared D effects P C)
    (haccount : s.Account) (h : s.Safely P effects C) :
    s'.Safely P effects C := by
  cases hs with
  | produce hpc herror hroom => exact h.move nofun nofun
  | halt hpc herror => exact h.move nofun fun _ hnone => absurd hnone herror
  | doze hpc herror hroom => exact h.move nofun nofun
  | @claim r world hpc hc =>
      -- the claim is a call of nobody's, so every job's is kept by the
      -- others' rule
      obtain ⟨hinv', hguar, hitem, hnothing, -⟩ := hshared.claim _ _ _ h.inv hc
      have hothers := fun y : ι =>
        hshared.others h.inv hinv' hguar (Option.some_ne_none (D.name y))
      have hissued : ∀ x ∈ s.claimed, C.issued (D.name x) world := fun x hx =>
        hshared.issued_kept _ none D.claim _ _ hguar (h.issued x hx)
      refine ⟨hinv', ?_, fun x hx => (hothers x).1 (h.queued x hx),
        fun i x rest hi => (hothers x).2.2 rest (h.working i x rest hi),
        fun x r hx => (hothers x).2.1 _ (h.finished x r hx), ?_, ?_, ?_⟩
      -- an item just claimed is ready
      · show ∀ x ∈ (Producer.after (D.decode r)).items, C.ready x world
        cases hr : D.decode r with
        | item y =>
            intro x hx
            rw [Multiset.mem_singleton.1 hx]
            exact (hitem y hr).1
        | exhausted => nofun
        | failed e => nofun
      -- and its name is issued
      · show ∀ x ∈ s.claims (D.decode r), C.issued (D.name x) world
        cases hr : D.decode r with
        | item y =>
            intro x hx
            rcases List.mem_append.1 hx with hx | hx
            · exact hissued x hx
            · rw [List.mem_singleton.1 hx]
              exact (hitem y hr).2.1
        | exhausted => exact hissued
        | failed e => exact hissued
      -- no name was issued twice
      · show ((s.claims (D.decode r)).map D.name).Nodup
        cases hr : D.decode r with
        | item y =>
            show ((s.claimed ++ [y]).map D.name).Nodup
            rw [List.map_append]
            refine List.Nodup.append h.nodup (List.nodup_singleton _) ?_
            rw [List.map_singleton, List.disjoint_singleton]
            intro hy
            obtain ⟨x, hx, hxy⟩ := List.mem_map.1 hy
            exact (hitem y hr).2.2 (hxy ▸ h.issued x hx)
        | exhausted => exact h.nodup
        | failed e => exact h.nodup
      -- without an item, nothing is left to claim
      · show (Producer.after (D.decode r)).ending = some none → _
        cases hr : D.decode r with
        | item y => nofun
        | exhausted => exact fun _ _ => hnothing hr
        | failed e => nofun
  | @push x hpc =>
      have hready : C.ready x s.world := by
        refine h.pushing x ?_
        rw [hpc]
        exact Multiset.mem_singleton_self x
      refine ⟨h.inv, nofun, ?_, h.working, h.finished, h.issued, h.nodup, nofun⟩
      intro y hy
      rcases List.mem_append.1 hy with hy | hy
      · exact h.queued y hy
      · rw [List.mem_singleton.1 hy]
        exact hready
  | announce hpc => exact h.notify.move nofun nofun
  | @close error hpc =>
      have hending : s.producer.ending = some error := by
        rw [hpc]
        rfl
      exact ⟨h.inv, nofun, h.queued, h.working, h.finished, h.issued, h.nodup,
        fun hp => h.drained (hending.trans hp)⟩
  | @call error hpc =>
      have hending : s.producer.ending = some error := by
        rw [hpc]
        rfl
      exact h.notify.move nofun fun hp => h.drained (hending.trans hp)
  | @join error hpc hexited =>
      have hending : s.producer.ending = some error := by
        rw [hpc]
        rfl
      exact h.move nofun fun hp => h.drained (hending.trans hp)
  -- a ready item may be worked on
  | @take i x rest hpc hqueue =>
      have hready : C.ready x s.world := by
        refine h.queued x ?_
        rw [hqueue]
        exact List.mem_cons_self
      have htaken : ({ s.notify with queue := rest } : State D σ).Safely P effects
          C := by
        refine ⟨h.inv, h.notify.pushing, fun y hy => h.queued y ?_,
          h.notify.working, h.finished, h.issued, h.nodup, h.notify.drained⟩
        rw [hqueue]
        exact List.mem_cons_of_mem _ hy
      refine htaken.set fun y rest' hstart => ?_
      cases hstart
      exact hshared.job x _ h.inv hready
  | leave i hpc hqueue hdone => exact h.set nofun
  | nap i hpc hqueue hdone => exact h.set nofun
  | @work i x c next r world hpc hc =>
      -- the items have names of their own, so this call is another's to all
      -- of them
      have hdistinct := haccount.distinct h.nodup hpc
      obtain ⟨hinv', hguar, hnext⟩ := h.working i x _ hpc _ h.inv
        (P.rely_refl _ _) r world hc
      have hothers := fun (y : ι) (hy : D.name y ≠ D.name x) =>
        hshared.others h.inv hinv' hguar
          (fun hsome : some (D.name y) = some (D.name x) => hy (Option.some.inj hsome))
      refine ⟨hinv', fun y hy => (hothers y (hdistinct.pushing y hy)).1
        (h.pushing y hy), fun y hy => (hothers y (hdistinct.queued y hy)).1
        (h.queued y hy), ?_, fun y r hy => (hothers y
        (hdistinct.finished y r hy)).2.1 _ (h.finished y r hy),
        fun y hy => hshared.issued_kept _ _ _ _ _ hguar (h.issued y hy), h.nodup,
        fun hp hnone => hshared.drained_kept _ _ _ _ hguar (h.drained hp hnone)⟩
      -- this job goes on where its call left it
      intro j y rest hj
      by_cases hji : j = i
      · rw [hji, State.set_self] at hj
        cases hj
        exact hnext
      · rw [State.set_ne hji] at hj
        exact (hothers y (hdistinct.working j y rest hj hji)).2.2 rest
          (h.working j y rest hj)
  | @report i x r hpc =>
      -- a job that has ended has come to what it should
      have hended : C.post x (some r) s.world :=
        h.working i x _ hpc _ h.inv (P.rely_refl _ _)
      have hrecorded : (s.record x r).Safely P effects C := by
        refine ⟨h.inv, h.pushing, h.queued, h.working, ?_, h.issued, h.nodup, ?_⟩
        · intro y r' hy
          rcases List.mem_append.1 hy with hy | hy
          · exact h.finished y r' hy
          · cases List.mem_singleton.1 hy
            exact hended
        -- without an error now there was none before
        · intro hp hnone
          refine h.drained hp ?_
          cases r with
          | ok m => exact hnone
          | error e => exact (Option.or_eq_none_iff.1 hnone).1
      exact hrecorded.notify.set nofun

/-- Waking for no reason is safe. -/
theorem Spurious.safely (hs : Spurious s s') (h : s.Safely P effects C) :
    s'.Safely P effects C := by
  cases hs with
  | producer hpc => exact h.move nofun nofun
  | worker i hpc => exact h.set nofun

/-- Whatever the threads do, the world stays sound and every job safe. -/
theorem Reachable.safely (hshared : Shared D effects P C) (hinv : P.inv world)
    (h : Reachable D effects world s) : s.Safely P effects C := by
  induction h with
  | init =>
      exact ⟨hinv, nofun, nofun, nofun, nofun, nofun, List.nodup_nil, nofun⟩
  | acts hreach hs ih => exact hs.safely hshared hreach.orderly.account ih
  | wakes _ hs ih => exact hs.safely ih

/-- A name that was handed out is one of before, or was claimed. -/
theorem Reachable.issued (hshared : Shared D effects P C) (hinv : P.inv world)
    (h : Reachable D effects world s) {k : κ} (hk : C.issued k s.world) :
    C.issued k world ∨ ∃ x ∈ s.claimed, D.name x = k := by
  induction h with
  | init => exact .inl hk
  | wakes _ hs ih => cases hs <;> exact ih hk
  | @acts s _ hreach hs ih =>
      have hsafely := hreach.safely hshared hinv
      cases hs with
      | @claim r after hpc hc =>
          obtain ⟨-, -, -, -, hissued⟩ := hshared.claim _ _ _ hsafely.inv hc
          rcases hissued k hk with hbefore | ⟨x, hitem, hname⟩
          · rcases ih hbefore with hstart | ⟨x, hx, hname⟩
            · exact .inl hstart
            · refine .inr ⟨x, ?_, hname⟩
              show x ∈ s.claims (D.decode r)
              cases D.decode r with
              | item y => exact List.mem_append_left _ hx
              | exhausted => exact hx
              | failed e => exact hx
          · refine .inr ⟨x, ?_, hname⟩
            show x ∈ s.claims (D.decode r)
            rw [hitem]
            exact List.mem_append_right _ (List.mem_singleton_self x)
      | @work i x c next r after hpc hc =>
          obtain ⟨-, hguar, -⟩ := hsafely.working i x _ hpc _ hsafely.inv
            (P.rely_refl _ _) r after hc
          exact ih (hshared.issued_only k _ c _ _ hguar hk)
      | _ => exact ih hk

end Shared

end WorkerPool
