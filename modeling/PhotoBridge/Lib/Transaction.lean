/-
Transactions over a shared store, at the granularity of single
statements: one connection's view of a store, the begin / statement /
commit / rollback calls it can make, and what a bracketed block of
statements amounts to from the outside.

# The connection

`Conn` is what one client holds: the last committed store, the private
working copy while a write transaction is open, whether some other
client holds the write lock, the faults the remaining statements will
meet, and whatever the client keeps in its own memory between calls.
A statement outside a transaction commits at once; inside one it edits
the working copy.

# Statements against transaction functions

A block of statements is compared with a pure function of the store
(`Txn`). `Realises x f` says: inside an open transaction the block `x`
either does exactly what `f` does, or reports an error without having
touched the committed store; and when no statement faults the two agree
outright. The relation composes along `do` blocks, so each block is
related to its function once, statement by statement, and
`atomically_spec` then turns it into the all-or-nothing fact.
-/
import Mathlib.Tactic.Common

namespace Transaction

variable {δ φ μ ε α β : Type}

-- ============================================== transaction functions

/-- What a block of statements computes when nothing fails: a function
from the store to an error or a result with the new store. -/
abbrev Txn (δ ε α : Type) := StateT δ (Except ε) α

/-- A successful sequence is a successful first part and a successful
rest. -/
theorem Txn.bind_eq_ok {x : Txn δ ε α} {k : α → Txn δ ε β} {s s' : δ} {b : β} :
    (x >>= k) s = .ok (b, s')
      ↔ ∃ a s₁, x s = .ok (a, s₁) ∧ k a s₁ = .ok (b, s') := by
  show (StateT.bind x k) s = _ ↔ _
  unfold StateT.bind
  cases hx : x s with
  | error e => simp [bind, Except.bind]
  | ok p =>
      obtain ⟨a, s₁⟩ := p
      simp [bind, Except.bind]

/-- A sequence fails in its first part or in the rest. -/
theorem Txn.bind_eq_error {x : Txn δ ε α} {k : α → Txn δ ε β} {s : δ}
    {e : ε} :
    (x >>= k) s = .error e
      ↔ x s = .error e ∨ ∃ a s₁, x s = .ok (a, s₁) ∧ k a s₁ = .error e := by
  show (StateT.bind x k) s = _ ↔ _
  unfold StateT.bind
  cases hx : x s with
  | error e' => simp [bind, Except.bind]
  | ok p =>
      obtain ⟨a, s₁⟩ := p
      simp [bind, Except.bind]

@[simp] theorem Txn.pure_eq_ok {a b : α} {s s' : δ} :
    (pure a : Txn δ ε α) s = .ok (b, s') ↔ b = a ∧ s' = s := by
  show Except.ok (a, s) = .ok (b, s') ↔ _
  constructor
  · intro h
    cases h
    exact ⟨rfl, rfl⟩
  · rintro ⟨rfl, rfl⟩
    rfl

@[simp] theorem Txn.throw_eq_ok {e : ε} {b : α} {s s' : δ} :
    (throw e : Txn δ ε α) s = .ok (b, s') ↔ False := by
  constructor
  · intro h
    cases h
  · exact False.elim

/-- Read something off the store. -/
def Txn.read (f : δ → α) : Txn δ ε α := fun s => .ok (f s, s)

/-- A statement that can be refused by the store itself. -/
def Txn.edit (f : δ → Except ε (α × δ)) : Txn δ ε α := f

@[simp] theorem Txn.read_eq_ok {f : δ → α} {b : α} {s s' : δ} :
    (Txn.read f : Txn δ ε α) s = .ok (b, s') ↔ b = f s ∧ s' = s := by
  constructor
  · intro h
    cases h
    exact ⟨rfl, rfl⟩
  · rintro ⟨rfl, rfl⟩
    rfl

/-- What is read is handed on. -/
theorem Txn.read_bind (f : δ → α) (k : α → Txn δ ε β) (s : δ) :
    (Txn.read f >>= k) s = k (f s) s := rfl

@[simp] theorem Txn.edit_eq_ok {f : δ → Except ε (α × δ)} {b : α} {s s' : δ} :
    (Txn.edit f : Txn δ ε α) s = .ok (b, s') ↔ f s = .ok (b, s') := Iff.rfl

-- ======================================================== connections

/-- One client's view of the shared store. -/
structure Conn (δ φ μ : Type) where
  /-- The last committed store, common to all clients. -/
  committed : δ
  /-- The working copy, while this client has a transaction open. -/
  txn : Option δ
  /-- Some other client holds the write lock. -/
  busy : Bool
  /-- The faults of the statements to come: `some m` fails with `m`. -/
  faults : List (Option φ)
  /-- What the client remembers between calls. -/
  memory : μ

/-- The store the client's statements read. -/
def Conn.view (c : Conn δ φ μ) : δ := c.txn.getD c.committed

/-- The connection after a statement left the store `s`: the working
copy inside a transaction, the committed store outside one. -/
def Conn.store (c : Conn δ φ μ) (s : δ) : Conn δ φ μ :=
  match c.txn with
  | some _ => { c with txn := some s }
  | none => { c with committed := s }

/-- Take the next statement's fault off the list. -/
def Conn.nextFault (c : Conn δ φ μ) : Option φ × Conn δ φ μ :=
  match c.faults with
  | [] => (none, c)
  | f :: fs => (f, { c with faults := fs })

/-- No transaction is open, the lock is free, and no statement will
fault. -/
structure Conn.Quiet (c : Conn δ φ μ) : Prop where
  txn : c.txn = none
  busy : c.busy = false
  faults : c.faults = []

/-- A client program over one connection. -/
def Session (δ φ μ ε α : Type) := Conn δ φ μ → Except ε α × Conn δ φ μ

namespace Session

instance : Monad (Session δ φ μ ε) where
  pure a := fun c => (.ok a, c)
  bind x k := fun c =>
    match x c with
    | (.ok a, c') => k a c'
    | (.error e, c') => (.error e, c')

instance : MonadExceptOf ε (Session δ φ μ ε) where
  throw e := fun c => (.error e, c)
  tryCatch x h := fun c =>
    match x c with
    | (.ok a, c') => (.ok a, c')
    | (.error e, c') => h e c'

/-- The client's own memory. -/
def remembered : Session δ φ μ ε μ := fun c => (.ok c.memory, c)

/-- Change the client's own memory. -/
def remember (m : μ) : Session δ φ μ ε Unit :=
  fun c => (.ok (), { c with memory := m })

/-- A reading statement. -/
def select (report : φ → ε) (f : δ → α) : Session δ φ μ ε α := fun c =>
  match c.nextFault with
  | (some m, c') => (.error (report m), c')
  | (none, c') => (.ok (f c'.view), c')

/-- A writing statement: it needs the write lock, and the store may
refuse it. -/
def write (report : φ → ε) (locked : φ) (f : δ → Except ε (α × δ)) :
    Session δ φ μ ε α := fun c =>
  match c.nextFault with
  | (some m, c') => (.error (report m), c')
  | (none, c') =>
      if c'.txn.isNone && c'.busy then (.error (report locked), c')
      else match f c'.view with
        | .ok (a, s) => (.ok a, c'.store s)
        | .error e => (.error e, c')

/-- Open a write transaction. It is refused inside another one and while
another client holds the lock. -/
def beginImmediate (report : φ → ε) (nested locked : φ) :
    Session δ φ μ ε Unit := fun c =>
  match c.nextFault with
  | (some m, c') => (.error (report m), c')
  | (none, c') =>
      if c'.txn.isSome then (.error (report nested), c')
      else if c'.busy then (.error (report locked), c')
      else (.ok (), { c' with txn := some c'.committed })

/-- Publish the working copy. -/
def commit (report : φ → ε) (inactive : φ) : Session δ φ μ ε Unit :=
  fun c =>
    match c.nextFault with
    | (some m, c') => (.error (report m), c')
    | (none, c') =>
        match c'.txn with
        | some s => (.ok (), { c' with committed := s, txn := none })
        | none => (.error (report inactive), c')

/-- Drop the working copy. -/
def rollback : Session δ φ μ ε Unit := fun c => (.ok (), { c with txn := none })

/-- Run `x`; if it reports an error, roll back and report it. -/
def orRollback (x : Session δ φ μ ε α) : Session δ φ μ ε α := fun c =>
  match x c with
  | (.ok a, c') => (.ok a, c')
  | (.error e, c') => (.error e, { c' with txn := none })

/-- Mapping the identity does nothing. -/
theorem id_map' (x : Session δ φ μ ε α) : id <$> x = x := by
  funext c
  show (match x c with
    | (.ok a, c') => ((.ok a : Except ε α), c')
    | (.error e, c') => (.error e, c')) = x c
  rcases x c with ⟨_ | _, _⟩ <;> rfl

/-- Doing one thing after another is associative. -/
theorem bind_assoc' {γ : Type} (x : Session δ φ μ ε α)
    (k : α → Session δ φ μ ε β) (l : β → Session δ φ μ ε γ) :
    x >>= k >>= l = x >>= fun a => k a >>= l := by
  funext c
  show (match (match x c with
      | (.ok a, c') => k a c'
      | (.error e, c') => (.error e, c')) with
    | (.ok b, c') => l b c'
    | (.error e, c') => (.error e, c')) = match x c with
      | (.ok a, c') => (match k a c' with
        | (.ok b, c'') => l b c''
        | (.error e, c'') => (.error e, c''))
      | (.error e, c') => (.error e, c')
  rcases x c with ⟨_ | _, _⟩ <;> rfl

instance : LawfulMonad (Session δ φ μ ε) :=
  LawfulMonad.mk' _ id_map' (fun _ _ => rfl) bind_assoc'

-- ================================================ monad computation

@[simp] theorem bind_apply (x : Session δ φ μ ε α) (k : α → Session δ φ μ ε β)
    (c : Conn δ φ μ) :
    (x >>= k) c = match x c with
      | (.ok a, c') => k a c'
      | (.error e, c') => (.error e, c') := rfl

@[simp] theorem pure_apply (a : α) (c : Conn δ φ μ) :
    (pure a : Session δ φ μ ε α) c = (.ok a, c) := rfl

@[simp] theorem throw_apply (e : ε) (c : Conn δ φ μ) :
    (throw e : Session δ φ μ ε α) c = (.error e, c) := rfl

-- ============================================ the realising relation

/-- Two views that differ at most in the working copy and the faults
still to come. -/
structure SameOutside (c c' : Conn δ φ μ) : Prop where
  committed : c'.committed = c.committed
  busy : c'.busy = c.busy
  memory : c'.memory = c.memory

/-- Nothing has happened. -/
theorem SameOutside.refl (c : Conn δ φ μ) : SameOutside c c := ⟨rfl, rfl, rfl⟩

/-- One thing after another. -/
theorem SameOutside.trans {c₁ c₂ c₃ : Conn δ φ μ} (h : SameOutside c₁ c₂)
    (h' : SameOutside c₂ c₃) : SameOutside c₁ c₃ :=
  ⟨h'.committed.trans h.committed, h'.busy.trans h.busy,
    h'.memory.trans h.memory⟩

/-- The block `x`, run inside an open transaction, does what `f` does or
reports an error; only the working copy moves. -/
structure Realises (x : Session δ φ μ ε α) (f : Txn δ ε α) : Prop where
  ok : ∀ {c c' : Conn δ φ μ} {s : δ} {a : α}, c.txn = some s →
    x c = (.ok a, c') →
    ∃ s', f s = .ok (a, s') ∧ c'.txn = some s' ∧ SameOutside c c'
  error : ∀ {c c' : Conn δ φ μ} {s : δ} {e : ε}, c.txn = some s →
    x c = (.error e, c') → c'.txn.isSome ∧ SameOutside c c'
  quiet : ∀ {c : Conn δ φ μ} {s : δ}, c.txn = some s → c.faults = [] →
    (x c).2.faults = [] ∧ (x c).1 = (f s).map Prod.fst

/-- Going on to the next fault changes nothing but the faults. -/
theorem nextFault_same (c : Conn δ φ μ) :
    c.nextFault.2.txn = c.txn ∧ SameOutside c c.nextFault.2 := by
  unfold Conn.nextFault
  cases c.faults with
  | nil => exact ⟨rfl, .refl c⟩
  | cons f fs => exact ⟨rfl, rfl, rfl, rfl⟩

/-- Where there is no fault, none is next. -/
theorem nextFault_quiet {c : Conn δ φ μ} (h : c.faults = []) :
    c.nextFault = (none, c) := by
  unfold Conn.nextFault
  rw [h]

namespace Realises

/-- A block that returns at once. -/
theorem pure (a : α) :
    Realises (Pure.pure a : Session δ φ μ ε α) (Pure.pure a) where
  ok := by
    intro c c' s b hs h
    cases h
    exact ⟨s, rfl, hs, .refl c⟩
  error := by
    intro c c' s e hs h
    cases h
  quiet := by
    intro c s hs hq
    exact ⟨hq, rfl⟩

/-- A block that refuses at once. -/
theorem throw (e : ε) :
    Realises (MonadExcept.throw e : Session δ φ μ ε α) (MonadExcept.throw e) where
  ok := by
    intro c c' s b hs h
    cases h
  error := by
    intro c c' s e' hs h
    cases h
    exact ⟨by rw [hs]; rfl, .refl c⟩
  quiet := by
    intro c s hs hq
    exact ⟨hq, rfl⟩

/-- A reading statement. -/
theorem select (report : φ → ε) (f : δ → α) :
    Realises (Session.select report f : Session δ φ μ ε α) (Txn.read f) where
  ok := by
    intro c c' s b hs h
    obtain ⟨htxn, hsame⟩ := nextFault_same c
    unfold Session.select at h
    split at h
    · cases h
    · next c₁ hf =>
      rw [hf] at htxn hsame
      cases h
      refine ⟨s, ?_, htxn.trans hs, hsame⟩
      show Except.ok (f s, s) = _
      rw [Conn.view, htxn.trans hs]
      rfl
  error := by
    intro c c' s e hs h
    obtain ⟨htxn, hsame⟩ := nextFault_same c
    unfold Session.select at h
    split at h
    · next m c₁ hf =>
      rw [hf] at htxn hsame
      cases h
      exact ⟨by rw [htxn, hs]; rfl, hsame⟩
    · cases h
  quiet := by
    intro c s hs hq
    unfold Session.select
    rw [nextFault_quiet hq]
    refine ⟨hq, ?_⟩
    show Except.ok (f c.view) = _
    rw [Conn.view, hs]
    rfl

/-- A writing statement. -/
theorem write (report : φ → ε) (locked : φ) (f : δ → Except ε (α × δ)) :
    Realises (Session.write report locked f : Session δ φ μ ε α)
      (Txn.edit f) where
  ok := by
    intro c c' s b hs h
    obtain ⟨htxn, hsame⟩ := nextFault_same c
    unfold Session.write at h
    split at h
    · cases h
    · next c₁ hf =>
      rw [hf] at htxn hsame
      have hs₁ : c₁.txn = some s := htxn.trans hs
      have hview : c₁.view = s := by rw [Conn.view, hs₁]; rfl
      rw [hs₁, hview] at h
      simp only [Option.isNone_some, Bool.false_and, Bool.false_eq_true,
        if_false] at h
      split at h
      · next a s' hfs =>
        cases h
        refine ⟨s', hfs, ?_, ?_⟩
        · rw [Conn.store, hs₁]
        · rw [Conn.store, hs₁]
          exact ⟨hsame.committed, hsame.busy, hsame.memory⟩
      · cases h
  error := by
    intro c c' s e hs h
    obtain ⟨htxn, hsame⟩ := nextFault_same c
    unfold Session.write at h
    split at h
    · next m c₁ hf =>
      rw [hf] at htxn hsame
      cases h
      exact ⟨by rw [htxn, hs]; rfl, hsame⟩
    · next c₁ hf =>
      rw [hf] at htxn hsame
      have hs₁ : c₁.txn = some s := htxn.trans hs
      rw [hs₁] at h
      simp only [Option.isNone_some, Bool.false_and, Bool.false_eq_true,
        if_false] at h
      split at h
      · cases h
      · cases h
        exact ⟨by rw [hs₁]; rfl, hsame⟩
  quiet := by
    intro c s hs hq
    have hview : c.view = s := by rw [Conn.view, hs]; rfl
    unfold Session.write
    rw [nextFault_quiet hq]
    simp only [hs, hview, Option.isNone_some, Bool.false_and,
      Bool.false_eq_true, if_false, Txn.edit]
    cases hfs : f s with
    | ok p =>
        obtain ⟨a, s'⟩ := p
        refine ⟨?_, rfl⟩
        show (c.store s').faults = []
        unfold Conn.store
        rw [hs]
        exact hq
    | error e => exact ⟨hq, rfl⟩

/-- Blocks compose. -/
theorem bind {x : Session δ φ μ ε α} {f : Txn δ ε α}
    {k : α → Session δ φ μ ε β} {g : α → Txn δ ε β}
    (hx : Realises x f) (hk : ∀ a, Realises (k a) (g a)) :
    Realises (x >>= k) (f >>= g) where
  ok := by
    intro c c' s b hs h
    rw [bind_apply] at h
    split at h
    · next a c₁ hxc =>
      obtain ⟨s₁, hf, hs₁, hsame⟩ := hx.ok hs hxc
      obtain ⟨s', hg, hs', hsame'⟩ := (hk a).ok hs₁ h
      exact ⟨s', Txn.bind_eq_ok.2 ⟨a, s₁, hf, hg⟩, hs', hsame.trans hsame'⟩
    · cases h
  error := by
    intro c c' s e hs h
    rw [bind_apply] at h
    split at h
    · next a c₁ hxc =>
      obtain ⟨s₁, -, hs₁, hsame⟩ := hx.ok hs hxc
      obtain ⟨hs', hsame'⟩ := (hk a).error hs₁ h
      exact ⟨hs', hsame.trans hsame'⟩
    · next e' c₁ hxc =>
      cases h
      exact hx.error hs hxc
  quiet := by
    intro c s hs hq
    obtain ⟨hq₁, hr⟩ := hx.quiet hs hq
    rw [bind_apply]
    cases hxc : x c with
    | mk r c₁ =>
        rw [hxc] at hq₁ hr
        cases r with
        | ok a =>
            obtain ⟨s₁, hf, hs₁, -⟩ := hx.ok hs hxc
            obtain ⟨hq₂, hr₂⟩ := (hk a).quiet hs₁ hq₁
            refine ⟨hq₂, hr₂.trans ?_⟩
            show _ = ((StateT.bind f g) s).map Prod.fst
            simp only [StateT.bind, hf, Bind.bind, Except.bind]
        | error e =>
            refine ⟨hq₁, ?_⟩
            show _ = ((StateT.bind f g) s).map Prod.fst
            cases hf : f s with
            | ok p => rw [hf] at hr; cases hr
            | error e' =>
                rw [hf] at hr
                cases hr
                simp only [StateT.bind, hf, Bind.bind, Except.bind]
                rfl

/-- Only what a transaction does counts. -/
theorem congr {x : Session δ φ μ ε α} {f g : Txn δ ε α}
    (hx : Realises x f) (h : ∀ s, f s = g s) : Realises x g := by
  have heq : f = g := funext h
  rw [← heq]
  exact hx

/-- A block behind a test. -/
theorem ite {p : Prop} [Decidable p] {x y : Session δ φ μ ε α}
    {f g : Txn δ ε α} (hx : p → Realises x f) (hy : ¬p → Realises y g) :
    Realises (if p then x else y) (if p then f else g) := by
  split
  · next h => exact hx h
  · next h => exact hy h

end Realises

-- =============================================== all or nothing

/-- A block of statements in a transaction of its own: begin, the block
with a rollback on error, commit with a rollback on error. -/
def atomically (report : φ → ε) (nested locked inactive : φ)
    (x : Session δ φ μ ε α) : Session δ φ μ ε α := do
  beginImmediate report nested locked
  let a ← orRollback x
  orRollback (commit report inactive)
  pure a

/-- What a bracketed block did, told from the two sides of it. -/
inductive Outcome (f : Txn δ ε α) (s : δ) : Except ε α → δ → Prop
  | done {a : α} {s' : δ} (h : f s = .ok (a, s')) : Outcome f s (.ok a) s'
  | refused (e : ε) : Outcome f s (.error e) s

/-- Only what it does here counts. -/
theorem Outcome.congr {f g : Txn δ ε α} {s s' : δ} {r : Except ε α}
    (h : Outcome f s r s') (hfg : f s = g s) : Outcome g s r s' := by
  cases h with
  | done hf => exact .done (hfg.symm.trans hf)
  | refused e => exact .refused e

variable {report : φ → ε} {nested locked inactive : φ}
variable {x : Session δ φ μ ε α} {f : Txn δ ε α}

/-- Beginning with no transaction open: refused, or a working copy of
the committed store. -/
theorem beginImmediate_cases (report : φ → ε) (nested locked : φ)
    {c : Conn δ φ μ} (hc : c.txn = none) :
    (∃ e c', beginImmediate report nested locked c
        = ((.error e : Except ε Unit), c') ∧ c'.txn = none ∧ SameOutside c c')
      ∨ ∃ c', beginImmediate report nested locked c
          = ((.ok () : Except ε Unit), c')
        ∧ c'.txn = some c.committed ∧ SameOutside c c'
        ∧ c.busy = false := by
  obtain ⟨htxn, hsame⟩ := nextFault_same c
  unfold beginImmediate
  split
  · next m c₁ hn =>
    rw [hn] at htxn hsame
    exact .inl ⟨_, c₁, rfl, htxn.trans hc, hsame⟩
  · next c₁ hn =>
    rw [hn] at htxn hsame
    rw [if_neg (by rw [htxn, hc]; exact Bool.false_ne_true)]
    split
    · exact .inl ⟨_, c₁, rfl, htxn.trans hc, hsame⟩
    · next hbusy =>
      refine .inr ⟨_, rfl, ?_,
        ⟨hsame.committed, hsame.busy, hsame.memory⟩, ?_⟩
      · rw [hsame.committed]
      · rw [← hsame.busy]
        exact Bool.eq_false_iff.2 hbusy

/-- Beginning inside a transaction is refused. -/
theorem beginImmediate_nested (report : φ → ε) (nested locked : φ)
    {c : Conn δ φ μ} {s : δ} (hc : c.txn = some s) :
    ∃ e c', beginImmediate report nested locked c
      = ((.error e : Except ε Unit), c') ∧ c'.txn = some s ∧ SameOutside c c' := by
  obtain ⟨htxn, hsame⟩ := nextFault_same c
  unfold beginImmediate
  split
  · next m c₁ hn =>
    rw [hn] at htxn hsame
    exact ⟨_, c₁, rfl, htxn.trans hc, hsame⟩
  · next c₁ hn =>
    rw [hn] at htxn hsame
    rw [if_pos (by rw [htxn, hc]; rfl)]
    exact ⟨_, c₁, rfl, htxn.trans hc, hsame⟩

/-- Committing an open transaction: refused with the copy still open, or
published. -/
theorem commit_cases (report : φ → ε) (inactive : φ) {c : Conn δ φ μ} {s : δ} (hc : c.txn = some s) :
    (∃ e c', commit report inactive c = ((.error e : Except ε Unit), c')
        ∧ c'.txn = some s ∧ SameOutside c c')
      ∨ ∃ c', commit report inactive c = ((.ok () : Except ε Unit), c')
        ∧ c'.txn = none ∧ c'.committed = s ∧ c'.busy = c.busy
        ∧ c'.memory = c.memory := by
  obtain ⟨htxn, hsame⟩ := nextFault_same c
  unfold commit
  split
  · next m c₁ hn =>
    rw [hn] at htxn hsame
    exact .inl ⟨_, c₁, rfl, htxn.trans hc, hsame⟩
  · next c₁ hn =>
    rw [hn] at htxn hsame
    rw [htxn.trans hc]
    exact .inr ⟨_, rfl, rfl, rfl, hsame.busy, hsame.memory⟩

/-- A bracketed block outside a transaction either did all of `f` and
committed it or left the store alone; no transaction stays open. -/
theorem atomically_spec (hx : Realises x f) {c : Conn δ φ μ}
    (hc : c.txn = none) :
    let p := atomically report nested locked inactive x c
    Outcome f c.committed p.1 p.2.committed ∧ p.2.txn = none
      ∧ p.2.busy = c.busy ∧ p.2.memory = c.memory := by
  simp only [atomically, bind_apply]
  obtain ⟨e, c₁, hb, hc₁, hsame⟩ | ⟨c₁, hb, hc₁, hsame, -⟩ :=
    beginImmediate_cases report nested locked hc
  · rw [hb]
    refine ⟨?_, hc₁, hsame.busy, hsame.memory⟩
    rw [hsame.committed]
    exact .refused e
  · rw [hb]
    simp only [orRollback]
    cases hxc : x c₁ with
    | mk r c₂ =>
      cases r with
      | error e =>
          obtain ⟨-, h₂⟩ := hx.error hc₁ hxc
          refine ⟨?_, rfl, (hsame.trans h₂).busy, (hsame.trans h₂).memory⟩
          show Outcome f c.committed _ c₂.committed
          rw [(hsame.trans h₂).committed]
          exact .refused e
      | ok a =>
          obtain ⟨s', hf, hs', h₂⟩ := hx.ok hc₁ hxc
          obtain ⟨e, c₃, hm, -, h₃⟩ | ⟨c₃, hm, ht₃, hs₃, hb₃, hm₃⟩ :=
            commit_cases report inactive hs'
          · simp only [hm]
            have hall := (hsame.trans h₂).trans h₃
            refine ⟨?_, trivial, hall.busy, hall.memory⟩
            show Outcome f c.committed _ c₃.committed
            rw [hall.committed]
            exact .refused e
          · simp only [hm]
            refine ⟨?_, ht₃, hb₃.trans (hsame.trans h₂).busy,
              hm₃.trans (hsame.trans h₂).memory⟩
            show Outcome f c.committed (.ok a) c₃.committed
            rw [hs₃]
            exact .done hf

/-- With no fault to come and the lock free, a bracketed block answers
what `f` answers. -/
theorem atomically_quiet (hx : Realises x f) {c : Conn δ φ μ}
    (hc : c.txn = none) (hq : c.faults = []) (hb : c.busy = false) :
    let p := atomically report nested locked inactive x c
    p.1 = (f c.committed).map Prod.fst ∧ p.2.faults = [] := by
  have hbegin : beginImmediate report nested locked c
      = ((.ok () : Except ε Unit), { c with txn := some c.committed }) := by
    simp [beginImmediate, nextFault_quiet hq, hc, hb]
  simp only [atomically, bind_apply]
  rw [hbegin]
  simp only [orRollback]
  obtain ⟨hq₁, hr⟩ := hx.quiet
    (c := { c with txn := some c.committed }) rfl hq
  cases hxc : x { c with txn := some c.committed } with
  | mk r c₂ =>
    rw [hxc] at hq₁ hr
    cases r with
    | error e => exact ⟨hr, hq₁⟩
    | ok a =>
        obtain ⟨s', -, hs', -⟩ := hx.ok
          (c := { c with txn := some c.committed }) rfl hxc
        have hcommit : commit report inactive c₂
            = ((.ok () : Except ε Unit),
                { c₂ with committed := s', txn := none }) := by
          simp only [commit, nextFault_quiet hq₁, hs']
        simp only [hcommit]
        exact ⟨hr, hq₁⟩

/-- With nothing in the way, a bracketed block that does something does
exactly that. -/
theorem atomically_ok (hx : Realises x f) {c : Conn δ φ μ} (hc : c.Quiet)
    {a : α} {s' : δ} (hf : f c.committed = .ok (a, s')) :
    atomically report nested locked inactive x c
      = (.ok a, { c with committed := s' }) := by
  rcases hp : atomically report nested locked inactive x c with ⟨r, c'⟩
  have hquiet : (atomically report nested locked inactive x c).1
        = (f c.committed).map Prod.fst
      ∧ (atomically report nested locked inactive x c).2.faults = [] :=
    atomically_quiet hx hc.txn hc.faults hc.busy
  have hspec : Outcome f c.committed
        (atomically report nested locked inactive x c).1
        (atomically report nested locked inactive x c).2.committed
      ∧ (atomically report nested locked inactive x c).2.txn = none
      ∧ (atomically report nested locked inactive x c).2.busy = c.busy
      ∧ (atomically report nested locked inactive x c).2.memory = c.memory :=
    atomically_spec hx hc.txn
  rw [hp, hf] at hquiet
  rw [hp] at hspec
  obtain ⟨hr, hfaults⟩ := hquiet
  obtain ⟨houtcome, htxn, hbusy, hmemory⟩ := hspec
  have hok : r = .ok a := hr
  rw [hok] at houtcome
  cases houtcome with
  | done hdone =>
      rw [hf] at hdone
      cases hdone
      have hc' : c' = { c with committed := c'.committed } := by
        obtain ⟨committed, txn, busy, faults, memory⟩ := c'
        obtain ⟨committed₀, txn₀, busy₀, faults₀, memory₀⟩ := c
        simp only at htxn hbusy hmemory hfaults
        have htxn₀ : txn₀ = none := hc.txn
        have hfaults₀ : faults₀ = [] := hc.faults
        rw [htxn, hbusy, hmemory, hfaults, htxn₀, hfaults₀]
      rw [hok, ← hc']

variable (report nested locked inactive x) in
/-- Inside an open transaction the bracket is refused and nothing
moves but the list of faults. -/
theorem atomically_nested {c : Conn δ φ μ} {s : δ} (hc : c.txn = some s) :
    let p := atomically report nested locked inactive x c
    (∃ e, p.1 = .error e) ∧ p.2.txn = some s ∧ SameOutside c p.2 := by
  simp only [atomically, bind_apply]
  obtain ⟨e, c₁, hb, hc₁, hsame⟩ := beginImmediate_nested report nested locked hc
  rw [hb]
  exact ⟨⟨e, rfl⟩, hc₁, hsame⟩

/-- A block that joins an open transaction: it edits the working copy as
`f` does, or drops it. -/
theorem orRollback_spec (hx : Realises x f) {c : Conn δ φ μ} {s : δ}
    (hc : c.txn = some s) :
    let p := orRollback x c
    SameOutside c p.2
      ∧ ((∃ a s', p.1 = .ok a ∧ f s = .ok (a, s') ∧ p.2.txn = some s')
        ∨ (∃ e, p.1 = .error e ∧ p.2.txn = none)) := by
  simp only [orRollback]
  cases hxc : x c with
  | mk r c₁ =>
    cases r with
    | ok a =>
        obtain ⟨s', hf, hs', hsame⟩ := hx.ok hc hxc
        exact ⟨hsame, .inl ⟨a, s', rfl, hf, hs'⟩⟩
    | error e =>
        obtain ⟨-, hsame⟩ := hx.error hc hxc
        exact ⟨⟨hsame.committed, hsame.busy, hsame.memory⟩,
          .inr ⟨e, rfl, rfl⟩⟩

-- ================================================= whole operations

/-- The operation `x`, called with no transaction open by a client whose
memory satisfies `I`, does all of `f` or nothing. -/
structure Atomic (I : μ → Prop) (x : Session δ φ μ ε α) (f : Txn δ ε α) :
    Prop where
  outcome : ∀ {c : Conn δ φ μ}, c.txn = none → I c.memory →
    Outcome f c.committed (x c).1 (x c).2.committed
  closed : ∀ {c : Conn δ φ μ}, c.txn = none → I c.memory →
    (x c).2.txn = none ∧ (x c).2.busy = c.busy
      ∧ (x c).2.memory = c.memory
  /-- Another client's lock keeps the store as it is. -/
  locked : ∀ {c : Conn δ φ μ}, c.txn = none → I c.memory →
    c.busy = true → (x c).2.committed = c.committed
  quiet : ∀ {c : Conn δ φ μ}, c.txn = none → I c.memory →
    c.faults = [] → c.busy = false →
    (x c).1 = (f c.committed).map Prod.fst ∧ (x c).2.faults = []

namespace Atomic

variable {I : μ → Prop} {k : α → Session δ φ μ ε β} {g : α → Txn δ ε β}

/-- A bracketed block. -/
theorem atomically (hx : Realises x f) :
    Atomic I (atomically report nested locked inactive x) f where
  outcome := fun hc _ => (atomically_spec hx hc).1
  closed := fun hc _ => (atomically_spec hx hc).2
  locked := by
    intro c hc _ hb
    obtain ⟨htxn, hsame⟩ := nextFault_same c
    simp only [Session.atomically, bind_apply]
    unfold beginImmediate
    cases hn : c.nextFault with
    | mk fault c₁ =>
        rw [hn] at htxn hsame
        cases fault with
        | some m => exact hsame.committed
        | none =>
            have hopen : c₁.txn.isSome = false := by
              rw [htxn, hc]
              rfl
            have hbusy : c₁.busy = true := hsame.busy.trans hb
            simp only [hopen, hbusy, Bool.false_eq_true, if_false, if_true]
            exact hsame.committed
  quiet := fun hc _ hq hb => atomically_quiet hx hc hq hb

/-- An operation that refuses at once. -/
theorem throw (e : ε) :
    Atomic I (MonadExcept.throw e : Session δ φ μ ε α)
      (MonadExcept.throw e) where
  outcome := fun _ _ => .refused e
  closed := fun hc _ => ⟨hc, rfl, rfl⟩
  locked := fun _ _ _ => rfl
  quiet := fun _ _ hq _ => ⟨rfl, hq⟩

/-- A value is atomic. -/
theorem pure (a : α) :
    Atomic I (Pure.pure a : Session δ φ μ ε α) (Pure.pure a) where
  outcome := fun _ _ => .done rfl
  closed := fun hc _ => ⟨hc, rfl, rfl⟩
  locked := fun _ _ _ => rfl
  quiet := fun _ _ hq _ => ⟨rfl, hq⟩

/-- Reading first. -/
theorem bind_select (report : φ → ε) (r : δ → α)
    (hk : ∀ a, Atomic I (k a) (g a)) :
    Atomic I (Session.select report r >>= k) (Txn.read r >>= g) := by
  have hstep : ∀ c : Conn δ φ μ, c.txn = none →
      ((∃ e, (Session.select report r >>= k) c = (.error e, c.nextFault.2))
          ∧ c.faults ≠ [])
        ∨ (Session.select report r >>= k) c
          = k (r c.committed) c.nextFault.2 := by
    intro c hc
    obtain ⟨htxn, hsame⟩ := nextFault_same c
    simp only [bind_apply]
    unfold Session.select
    cases hn : c.nextFault with
    | mk fault c₁ =>
        rw [hn] at htxn hsame
        cases fault with
        | some m =>
            refine .inl ⟨⟨_, rfl⟩, fun hq => ?_⟩
            rw [nextFault_quiet hq] at hn
            cases hn
        | none =>
            right
            show k (r c₁.view) c₁ = _
            rw [Conn.view, htxn, hc, Option.getD_none, hsame.committed]
  have hread : ∀ s : δ, (Txn.read r >>= g) s = g (r s) s := fun _ => rfl
  refine ⟨fun {c} hc hI => ?_, fun {c} hc hI => ?_, fun {c} hc hI hb => ?_,
    fun {c} hc hI hq hb => ?_⟩ <;>
    obtain ⟨htxn, hsame⟩ := nextFault_same c <;>
    have hI' : I c.nextFault.2.memory := by rw [hsame.memory]; exact hI
  · obtain ⟨⟨e, h⟩, -⟩ | h := hstep c hc
    · rw [h]
      simp only [hsame.committed]
      exact .refused e
    · have := (hk (r c.committed)).outcome (htxn.trans hc) hI'
      rw [hsame.committed] at this
      rw [h]
      exact this.congr (hread _).symm
  · obtain ⟨⟨e, h⟩, -⟩ | h := hstep c hc
    · rw [h]
      exact ⟨htxn.trans hc, hsame.busy, hsame.memory⟩
    · rw [h]
      obtain ⟨h₁, h₂, h₃⟩ :=
        (hk (r c.committed)).closed (htxn.trans hc) hI'
      exact ⟨h₁, h₂.trans hsame.busy, h₃.trans hsame.memory⟩
  · obtain ⟨⟨e, h⟩, -⟩ | h := hstep c hc
    · rw [h]
      exact hsame.committed
    · rw [h]
      exact ((hk (r c.committed)).locked (htxn.trans hc) hI'
        (hsame.busy.trans hb)).trans hsame.committed
  · obtain ⟨-, hne⟩ | h := hstep c hc
    · exact absurd hq hne
    · have hsim : c.nextFault.2 = c := by rw [nextFault_quiet hq]
      rw [h, hsim, hread]
      exact (hk (r c.committed)).quiet hc hI hq hb

/-- A writing statement outside a transaction: refused, or committed at
once. -/
theorem write_idle (report : φ → ε) (lockedBy : φ)
    (w : δ → Except ε (α × δ)) {c : Conn δ φ μ} (hc : c.txn = none) :
    (∃ e, Session.write report lockedBy w c = (.error e, c.nextFault.2)
        ∧ (c.faults = [] → c.busy = false → w c.committed = .error e))
      ∨ c.busy = false ∧ ∃ a s', w c.committed = .ok (a, s')
        ∧ Session.write report lockedBy w c
          = (.ok a, { c.nextFault.2 with committed := s' }) := by
  obtain ⟨htxn, hsame⟩ := nextFault_same c
  unfold Session.write
  cases hn : c.nextFault with
  | mk fault c₁ =>
      rw [hn] at htxn hsame
      have hview : c₁.view = c.committed := by
        rw [Conn.view, htxn, hc, Option.getD_none, hsame.committed]
      have hnone : c₁.txn.isNone = true := by
        rw [htxn, hc]
        rfl
      cases fault with
      | some m =>
          refine .inl ⟨_, rfl, fun hq => ?_⟩
          rw [nextFault_quiet hq] at hn
          cases hn
      | none =>
          simp only [hnone, Bool.true_and, hview]
          by_cases hb : c₁.busy = true
          · rw [if_pos hb]
            refine .inl ⟨_, rfl, fun _ hfree => ?_⟩
            rw [← hsame.busy, hb] at hfree
            cases hfree
          · rw [if_neg hb]
            cases hw : w c.committed with
            | error e => exact .inl ⟨e, rfl, fun _ _ => rfl⟩
            | ok p =>
                obtain ⟨a, s'⟩ := p
                refine .inr ⟨?_, a, s', rfl, ?_⟩
                · rw [← hsame.busy]
                  exact Bool.eq_false_iff.2 hb
                · have hnone' : c₁.txn = none := htxn.trans hc
                  simp only [Conn.store, hnone']

/-- One writing statement. -/
theorem write (report : φ → ε) (lockedBy : φ) (w : δ → Except ε (α × δ)) :
    Atomic I (Session.write report lockedBy w) (Txn.edit w) := by
  refine ⟨fun {c} hc _ => ?_, fun {c} hc _ => ?_, fun {c} hc _ hb => ?_,
    fun {c} hc _ hq hb => ?_⟩ <;>
    obtain ⟨htxn, hsame⟩ := nextFault_same c <;>
    obtain ⟨e, h, hex⟩ | ⟨hfree, a, s', hs, h⟩ :=
      write_idle report lockedBy w hc <;> rw [h]
  · simp only [hsame.committed]
    exact .refused e
  · exact .done hs
  · exact ⟨htxn.trans hc, hsame.busy, hsame.memory⟩
  · exact ⟨htxn.trans hc, hsame.busy, hsame.memory⟩
  · exact hsame.committed
  · rw [hb] at hfree
    cases hfree
  · refine ⟨?_, by rw [nextFault_quiet hq]; exact hq⟩
    show _ = (w c.committed).map Prod.fst
    rw [hex hq hb]
    rfl
  · refine ⟨?_, by simp only [nextFault_quiet hq]; exact hq⟩
    show _ = (w c.committed).map Prod.fst
    rw [hs]
    rfl

/-- One writing statement followed by a test of its answer, when a failed
test means that nothing was written. -/
theorem write_test (report : φ → ε) (lockedBy : φ)
    {w : δ → Except ε (α × δ)} {p : α → Prop} [DecidablePred p] {e : ε}
    (hw : ∀ s a s', w s = .ok (a, s') → ¬p a → s' = s) :
    Atomic I
      (Session.write report lockedBy w >>= fun a =>
        if p a then Pure.pure () else MonadExcept.throw e)
      (Txn.edit w >>= fun a =>
        if p a then Pure.pure () else MonadExcept.throw e) := by
  -- the three ways it can go, with the answer and the connection left
  have hcases : ∀ c : Conn δ φ μ, c.txn = none →
      let out := (Session.write report lockedBy w >>= fun a =>
        if p a then (Pure.pure () : Session δ φ μ ε Unit)
        else MonadExcept.throw e) c
      (∃ e', out = (.error e', c.nextFault.2)
          ∧ (c.faults = [] → c.busy = false → w c.committed = .error e'))
        ∨ c.busy = false ∧ ∃ a s', w c.committed = .ok (a, s')
          ∧ (p a ∧ out = (.ok (), { c.nextFault.2 with committed := s' })
            ∨ ¬p a ∧ out = (.error e, { c.nextFault.2 with
                committed := c.committed })) := by
    intro c hc
    simp only [bind_apply]
    obtain ⟨e', h, hq⟩ | ⟨hb, a, s', hs, h⟩ := write_idle report lockedBy w hc
    · rw [h]
      exact .inl ⟨e', rfl, hq⟩
    · rw [h]
      refine .inr ⟨hb, a, s', hs, ?_⟩
      by_cases hp : p a
      · simp only [if_pos hp]
        exact .inl ⟨hp, rfl⟩
      · simp only [if_neg hp]
        rw [hw _ _ _ hs hp]
        exact .inr ⟨hp, rfl⟩
  have hedit : ∀ {s : δ} {a : α} {s' : δ}, w s = .ok (a, s') →
      (Txn.edit w >>= fun a =>
        if p a then (Pure.pure () : Txn δ ε Unit)
        else MonadExcept.throw e) s
        = if p a then .ok ((), s') else .error e := by
    intro s a s' hs
    show StateT.bind (Txn.edit w) _ s = _
    simp only [StateT.bind, Txn.edit, hs, Bind.bind, Except.bind]
    split <;> rfl
  refine ⟨fun {c} hc _ => ?_, fun {c} hc _ => ?_, fun {c} hc _ hb => ?_,
    fun {c} hc _ hq hb => ?_⟩ <;>
    obtain ⟨htxn, hsame⟩ := nextFault_same c
  · obtain ⟨e', h, -⟩ | ⟨-, a, s', hs, ⟨hp, h⟩ | ⟨hp, h⟩⟩ := hcases c hc
    · rw [h]
      simp only [hsame.committed]
      exact .refused e'
    · rw [h]
      exact .done (by rw [hedit hs, if_pos hp])
    · rw [h]
      exact .refused e
  · obtain ⟨e', h, -⟩ | ⟨-, a, s', hs, ⟨hp, h⟩ | ⟨hp, h⟩⟩ := hcases c hc <;>
      rw [h] <;> exact ⟨htxn.trans hc, hsame.busy, hsame.memory⟩
  · obtain ⟨e', h, -⟩ | ⟨hfree, -⟩ := hcases c hc
    · rw [h]
      exact hsame.committed
    · rw [hb] at hfree
      cases hfree
  · obtain ⟨e', h, hex⟩ | ⟨-, a, s', hs, ⟨hp, h⟩ | ⟨hp, h⟩⟩ := hcases c hc
    · rw [h]
      refine ⟨?_, by rw [nextFault_quiet hq]; exact hq⟩
      show _ = (StateT.bind (Txn.edit w) _ c.committed).map Prod.fst
      simp only [StateT.bind, Txn.edit, hex hq hb, Bind.bind, Except.bind]
      rfl
    · rw [h, hedit hs, if_pos hp]
      exact ⟨rfl, by simp only [nextFault_quiet hq]; exact hq⟩
    · rw [h, hedit hs, if_neg hp]
      exact ⟨rfl, by simp only [nextFault_quiet hq]; exact hq⟩

/-- Wrapping the answer. -/
theorem map {x : Session δ φ μ ε α} {f : Txn δ ε α} (hx : Atomic I x f)
    (w : α → β) :
    Atomic I (x >>= fun a => Pure.pure (w a))
      (f >>= fun a => Pure.pure (w a)) := by
  have hstep : ∀ c : Conn δ φ μ, (x >>= fun a => Pure.pure (w a)) c
      = ((x c).1.map w, (x c).2) := by
    intro c
    rw [bind_apply]
    cases hxc : x c with
    | mk r c' => cases r <;> rfl
  have hfun : ∀ s : δ, (f >>= fun a => Pure.pure (w a)) s
      = (f s).map fun p => (w p.1, p.2) := by
    intro s
    show StateT.bind f _ s = _
    unfold StateT.bind
    cases f s <;> rfl
  refine ⟨fun {c} hc hI => ?_, fun {c} hc hI => ?_, fun {c} hc hI hb => ?_,
    fun {c} hc hI hq hb => ?_⟩ <;> rw [hstep]
  · have hout := hx.outcome hc hI
    cases hxc : x c with
    | mk r c' =>
        rw [hxc] at hout
        revert hout
        generalize c'.committed = s'
        intro hout
        cases hout with
        | done hf => exact .done (by rw [hfun, hf]; rfl)
        | refused e => exact .refused e
  · exact hx.closed hc hI
  · exact hx.locked hc hI hb
  · obtain ⟨hr, hq'⟩ := hx.quiet hc hI hq hb
    refine ⟨?_, hq'⟩
    simp only [hr, hfun]
    cases f c.committed <;> rfl

end Atomic

/-- The operation `x`, called inside a transaction by a client whose
memory and working copy satisfy `P`, does what `f` does to the working
copy, or reports an error; the rest stays as it is. -/
structure Joins (P : μ → δ → Prop) (x : Session δ φ μ ε α)
    (f : Txn δ ε α) : Prop where
  ok : ∀ {c c' : Conn δ φ μ} {s : δ} {a : α}, c.txn = some s →
    P c.memory s → x c = (.ok a, c') →
    ∃ s', f s = .ok (a, s') ∧ c'.txn = some s' ∧ SameOutside c c'
  error : ∀ {c c' : Conn δ φ μ} {s : δ} {e : ε}, c.txn = some s →
    P c.memory s → x c = (.error e, c') → SameOutside c c'

namespace Joins

variable {P : μ → δ → Prop}

/-- Plain statements. -/
theorem of_realises (hx : Realises x f) : Joins P x f where
  ok := fun hc _ h => hx.ok hc h
  error := fun hc _ h => (hx.error hc h).2

/-- A block that would open a transaction of its own. -/
theorem refuses : Joins P (atomically report nested locked inactive x) f where
  ok := by
    intro c c' s a hc _ h
    obtain ⟨⟨e, he⟩, -⟩ := atomically_nested report nested locked
      inactive x hc
    rw [h] at he
    cases he
  error := by
    intro c c' s e hc _ h
    obtain ⟨-, -, hsame⟩ := atomically_nested report nested locked
      inactive x hc
    rw [h] at hsame
    exact hsame

/-- A block that joins, rolling back on error; its function may be told
apart from `f` outside `P`. -/
theorem orRollback {f' : Txn δ ε α} (hx : Realises x f')
    (hf : ∀ m s, P m s → f' s = f s) : Joins P (Session.orRollback x) f where
  ok := by
    intro c c' s a hc hP h
    obtain ⟨hsame, ⟨b, s', hb, hs, ht⟩ | ⟨e, he, -⟩⟩ :=
      orRollback_spec hx hc
    · rw [h] at hsame hb ht
      cases hb
      exact ⟨s', (hf _ _ hP).symm.trans hs, ht, hsame⟩
    · rw [h] at he
      cases he
  error := by
    intro c c' s e hc hP h
    obtain ⟨hsame, -⟩ := orRollback_spec hx hc
    rw [h] at hsame
    exact hsame

/-- An operation that refuses at once. -/
theorem throw (e : ε) {f : Txn δ ε α} :
    Joins P (MonadExcept.throw e : Session δ φ μ ε α) f where
  ok := by
    intro c c' s a _ _ h
    cases h
  error := by
    intro c c' s e' _ _ h
    cases h
    exact .refl c

/-- Wrapping the answer. -/
theorem map {x : Session δ φ μ ε α} {f : Txn δ ε α} (hx : Joins P x f)
    (w : α → β) :
    Joins P (x >>= fun a => Pure.pure (w a))
      (f >>= fun a => Pure.pure (w a)) where
  ok := by
    intro c c' s b hc hP h
    rw [bind_apply] at h
    cases hxc : x c with
    | mk r c₁ =>
        rw [hxc] at h
        cases r with
        | error e => cases h
        | ok a =>
            obtain ⟨s', hf, ht, hsame⟩ := hx.ok hc hP hxc
            cases h
            exact ⟨s', Txn.bind_eq_ok.2 ⟨a, s', hf, rfl⟩, ht, hsame⟩
  error := by
    intro c c' s e hc hP h
    rw [bind_apply] at h
    cases hxc : x c with
    | mk r c₁ =>
        rw [hxc] at h
        cases r with
        | error e' =>
            cases h
            exact hx.error hc hP hxc
        | ok a => cases h

end Joins

/-- The operation `x`, called inside a transaction, leaves the committed
store, the lock and the client's memory alone, and the transaction open
when it succeeds. -/
structure Sheltered (x : Session δ φ μ ε α) : Prop where
  ok : ∀ {c c' : Conn δ φ μ} {a : α}, c.txn.isSome → x c = (.ok a, c') →
    c'.txn.isSome ∧ SameOutside c c'
  error : ∀ {c c' : Conn δ φ μ} {e : ε}, c.txn.isSome →
    x c = (.error e, c') → SameOutside c c'

namespace Sheltered

/-- An operation that joins whatever transaction it is called in. -/
theorem of_joins (hx : ∀ m, Joins (fun m' _ => m' = m) x f) :
    Sheltered x where
  ok := by
    intro c c' a hc h
    obtain ⟨s, hs⟩ := Option.isSome_iff_exists.1 hc
    obtain ⟨s', -, hs', hsame⟩ := (hx c.memory).ok hs rfl h
    exact ⟨by rw [hs']; rfl, hsame⟩
  error := by
    intro c c' e hc h
    obtain ⟨s, hs⟩ := Option.isSome_iff_exists.1 hc
    exact (hx c.memory).error hs rfl h

/-- What a transaction does, its batch can shelter. -/
theorem of_realises (hx : Realises x f) : Sheltered x :=
  .of_joins fun _ => .of_realises hx

/-- A block that would open a transaction of its own is refused. -/
theorem atomically (x : Session δ φ μ ε α) :
    Sheltered (atomically report nested locked inactive x) where
  ok := by
    intro c c' a hc h
    obtain ⟨s, hs⟩ := Option.isSome_iff_exists.1 hc
    obtain ⟨⟨e, he⟩, -⟩ :=
      atomically_nested report nested locked inactive x hs
    rw [h] at he
    cases he
  error := by
    intro c c' e hc h
    obtain ⟨s, hs⟩ := Option.isSome_iff_exists.1 hc
    obtain ⟨-, -, hsame⟩ :=
      atomically_nested report nested locked inactive x hs
    rw [h] at hsame
    exact hsame

/-- A block that joins, rolling back on error. -/
theorem orRollback (hx : Realises x f) : Sheltered (orRollback x) :=
  .of_joins fun _ => .orRollback hx fun _ _ _ => rfl

/-- An error is sheltered. -/
theorem throw (e : ε) :
    Sheltered (MonadExcept.throw e : Session δ φ μ ε α) where
  ok := by
    intro c c' a _ h
    cases h
  error := by
    intro c c' e' _ h
    cases h
    exact .refl c

/-- Operations compose. -/
theorem bind {k : α → Session δ φ μ ε β} (hx : Sheltered x)
    (hk : ∀ a, Sheltered (k a)) : Sheltered (x >>= k) where
  ok := by
    intro c c' b hc h
    rw [bind_apply] at h
    cases hxc : x c with
    | mk r c₁ =>
        rw [hxc] at h
        cases r with
        | error e => cases h
        | ok a =>
            obtain ⟨hc₁, hsame₁⟩ := hx.ok hc hxc
            obtain ⟨hc', hsame⟩ := (hk a).ok hc₁ h
            exact ⟨hc', hsame₁.trans hsame⟩
  error := by
    intro c c' e hc h
    rw [bind_apply] at h
    cases hxc : x c with
    | mk r c₁ =>
        rw [hxc] at h
        cases r with
        | error e' =>
            cases h
            exact hx.error hc hxc
        | ok a =>
            obtain ⟨hc₁, hsame₁⟩ := hx.ok hc hxc
            exact hsame₁.trans ((hk a).error hc₁ h)

/-- Whatever it answers, a sheltered operation leaves the outside as it
is. -/
theorem same (hx : Sheltered x) {c : Conn δ φ μ} (hc : c.txn.isSome) :
    SameOutside c (x c).2 := by
  cases hxc : x c with
  | mk r c' =>
      cases r with
      | ok a => exact (hx.ok hc hxc).2
      | error e => exact hx.error hc hxc

end Sheltered

end Session

end Transaction
