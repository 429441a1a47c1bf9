/-
Client programs that only read: what they answer is a function of the
committed store.

`Reads inside x f` says: run with no transaction open, or (`inside`) in
one that has changed nothing, a program `x` that succeeds has answered
what `f` makes of the committed store, and has left the store and the
transaction as they were; and when no statement faults the answer is that
of `f` in every case. The relation composes along `do` blocks, and a block
in a reading transaction of its own reads the same (`Reads.reading`).
-/
import PhotoBridge.Lib.Transaction

namespace Transaction

variable {δ φ μ ε α β : Type}

-- ======================================================== transactions

/-- Open a transaction that has no lock yet. -/
def Session.beginDeferred (report : φ → ε) (nested : φ) :
    Session δ φ μ ε Unit := fun c =>
  match c.nextFault with
  | (some m, c') => (.error (report m), c')
  | (none, c') =>
      if c'.txn.isSome then (.error (report nested), c')
      else (.ok (), { c' with txn := some c'.committed })

/-- A block in a reading transaction of its own. -/
def Session.reading (report : φ → ε) (nested inactive : φ)
    (x : Session δ φ μ ε α) : Session δ φ μ ε α := do
  Session.beginDeferred report nested
  let a ← Session.orRollback x
  Session.orRollback (Session.commit report inactive)
  pure a

/-- No transaction, or one that has changed nothing. -/
def Conn.Unchanged (inside : Bool) (c : Conn δ φ μ) : Prop :=
  c.txn = if inside then some c.committed else none

theorem Conn.Unchanged.view {inside : Bool} {c : Conn δ φ μ}
    (h : c.Unchanged inside) : c.view = c.committed := by
  unfold Conn.Unchanged at h
  rw [Conn.view, h]
  cases inside <;> rfl

theorem Conn.Unchanged.nextFault {inside : Bool} {c : Conn δ φ μ}
    (h : c.Unchanged inside) :
    c.nextFault.2.Unchanged inside
      ∧ c.nextFault.2.committed = c.committed := by
  obtain ⟨htxn, hsame⟩ := Session.nextFault_same c
  refine ⟨?_, hsame.committed⟩
  unfold Conn.Unchanged
  rw [htxn, hsame.committed]
  exact h

namespace Session

-- ============================================================= reading

/-- The program answers what `f` makes of the committed store. -/
structure Reads (inside : Bool) (x : Session δ φ μ ε α)
    (f : δ → Except ε α) : Prop where
  ok : ∀ {c c' : Conn δ φ μ} {a : α}, c.Unchanged inside →
    x c = (.ok a, c') →
    f c.committed = .ok a ∧ c'.Unchanged inside
      ∧ c'.committed = c.committed
  quiet : ∀ {c : Conn δ φ μ}, c.Unchanged inside → c.faults = [] →
    (x c).2.faults = [] ∧ (x c).1 = f c.committed

namespace Reads

variable {inside : Bool} {x : Session δ φ μ ε α} {f : δ → Except ε α}

theorem pure (a : α) :
    Reads inside (Pure.pure a : Session δ φ μ ε α) fun _ => .ok a where
  ok := by
    intro c c' b hc h
    cases h
    exact ⟨rfl, hc, rfl⟩
  quiet := by
    intro c hc hq
    exact ⟨hq, rfl⟩

theorem throw (e : ε) :
    Reads inside (MonadExcept.throw e : Session δ φ μ ε α)
      fun _ => .error e where
  ok := by
    intro c c' b hc h
    cases h
  quiet := by
    intro c hc hq
    exact ⟨hq, rfl⟩

theorem select (report : φ → ε) (g : δ → α) :
    Reads inside (Session.select report g : Session δ φ μ ε α)
      fun s => .ok (g s) where
  ok := by
    intro c c' b hc h
    obtain ⟨hc₁, hsame⟩ := hc.nextFault
    unfold Session.select at h
    split at h
    · cases h
    · next c₁ hf =>
      rw [hf] at hc₁ hsame
      simp only at hc₁ hsame
      cases h
      rw [hc₁.view, hsame]
      exact ⟨rfl, hc₁, rfl⟩
  quiet := by
    intro c hc hq
    unfold Session.select
    rw [nextFault_quiet hq]
    refine ⟨hq, ?_⟩
    show Except.ok (g c.view) = _
    rw [hc.view]

theorem bind {k : α → Session δ φ μ ε β} {g : α → δ → Except ε β}
    (hx : Reads inside x f) (hk : ∀ a, Reads inside (k a) (g a)) :
    Reads inside (x >>= k) fun s => f s >>= fun a => g a s where
  ok := by
    intro c c' b hc h
    rw [bind_apply] at h
    split at h
    · next a c₁ hxc =>
      obtain ⟨hf, hc₁, hsame⟩ := hx.ok hc hxc
      obtain ⟨hg, hc', hsame'⟩ := (hk a).ok hc₁ h
      rw [hsame] at hg
      refine ⟨?_, hc', hsame'.trans hsame⟩
      rw [hf]
      exact hg
    · cases h
  quiet := by
    intro c hc hq
    obtain ⟨hq₁, hr⟩ := hx.quiet hc hq
    rw [bind_apply]
    cases hxc : x c with
    | mk r c₁ =>
        rw [hxc] at hq₁ hr
        simp only at hr
        cases r with
        | ok a =>
            obtain ⟨-, hc₁, hsame⟩ := hx.ok hc hxc
            obtain ⟨hq₂, hr₂⟩ := (hk a).quiet hc₁ hq₁
            rw [hsame] at hr₂
            refine ⟨hq₂, hr₂.trans ?_⟩
            rw [← hr]
            rfl
        | error e =>
            refine ⟨hq₁, ?_⟩
            rw [← hr]
            rfl

theorem congr {g : δ → Except ε α} (hx : Reads inside x f)
    (h : ∀ s, f s = g s) : Reads inside x g := by
  have heq : f = g := funext h
  rw [← heq]
  exact hx

/-- Opening a reading transaction: refused, or one that has changed
nothing. -/
theorem beginDeferred_cases (report : φ → ε) (nested : φ) {c : Conn δ φ μ}
    (hc : c.Unchanged false) :
    (∃ e c', beginDeferred report nested c = ((.error e : Except ε Unit), c')
        ∧ c.faults ≠ [])
      ∨ ∃ c', beginDeferred report nested c = ((.ok () : Except ε Unit), c')
          ∧ c'.Unchanged true ∧ c'.committed = c.committed
          ∧ (c.faults = [] → c'.faults = []) := by
  obtain ⟨hc₁, hsame⟩ := hc.nextFault
  unfold beginDeferred
  split
  · next m c₁ hn =>
    refine .inl ⟨_, c₁, rfl, fun hq => ?_⟩
    rw [nextFault_quiet hq] at hn
    cases hn
  · next c₁ hn =>
    rw [hn] at hc₁ hsame
    have hnone : c₁.txn = none := hc₁
    rw [hnone]
    refine .inr ⟨_, rfl, rfl, hsame, fun hq => ?_⟩
    rw [nextFault_quiet hq] at hn
    cases hn
    exact hq

/-- Committing a transaction that has changed nothing changes nothing. -/
theorem commit_unchanged (report : φ → ε) (inactive : φ) {c : Conn δ φ μ}
    (hc : c.Unchanged true) :
    (∃ e c', commit report inactive c = ((.error e : Except ε Unit), c')
        ∧ c.faults ≠ [])
      ∨ ∃ c', commit report inactive c = ((.ok () : Except ε Unit), c')
          ∧ c'.Unchanged false ∧ c'.committed = c.committed
          ∧ (c.faults = [] → c'.faults = []) := by
  obtain ⟨hc₁, hsame⟩ := hc.nextFault
  unfold commit
  split
  · next m c₁ hn =>
    refine .inl ⟨_, c₁, rfl, fun hq => ?_⟩
    rw [nextFault_quiet hq] at hn
    cases hn
  · next c₁ hn =>
    rw [hn] at hc₁ hsame
    have hsome : c₁.txn = some c₁.committed := hc₁
    rw [hsome]
    refine .inr ⟨_, rfl, rfl, hsame, fun hq => ?_⟩
    rw [nextFault_quiet hq] at hn
    cases hn
    exact hq

/-- A block in a transaction of its own reads what it reads inside one. -/
theorem reading {report : φ → ε} {nested inactive : φ}
    (hx : Reads true x f) :
    Reads false (Session.reading report nested inactive x) f where
  ok := by
    intro c c' a hc h
    simp only [Session.reading, bind_apply, orRollback] at h
    rcases beginDeferred_cases report nested hc with
      ⟨e, c₁, hbegin, -⟩ | ⟨c₁, hbegin, hc₁, hsame₁, -⟩
    · rw [hbegin] at h
      cases h
    · rw [hbegin] at h
      cases hxc : x c₁ with
      | mk r c₂ =>
        simp only [hxc] at h
        cases r with
        | error e => cases h
        | ok b =>
            obtain ⟨hf, hc₂, hsame₂⟩ := hx.ok hc₁ hxc
            simp only at h
            rcases commit_unchanged report inactive hc₂ with
              ⟨e, c₃, hcommit, -⟩ | ⟨c₃, hcommit, hc₃, hsame₃, -⟩
            · rw [hcommit] at h
              cases h
            · rw [hcommit] at h
              cases h
              rw [hsame₁] at hf
              exact ⟨hf, hc₃, hsame₃.trans (hsame₂.trans hsame₁)⟩
  quiet := by
    intro c hc hq
    simp only [Session.reading, bind_apply, orRollback]
    rcases beginDeferred_cases report nested hc with
      ⟨e, c₁, -, hfaults⟩ | ⟨c₁, hbegin, hc₁, hsame₁, hquiet₁⟩
    · exact absurd hq hfaults
    · rw [hbegin]
      obtain ⟨hq₂, hr⟩ := hx.quiet hc₁ (hquiet₁ hq)
      rw [hsame₁] at hr
      cases hxc : x c₁ with
      | mk r c₂ =>
        rw [hxc] at hq₂ hr
        simp only at hr
        cases r with
        | error e =>
            simp only [hxc]
            exact ⟨hq₂, hr⟩
        | ok b =>
            simp only [hxc]
            obtain ⟨-, hc₂, -⟩ := hx.ok hc₁ hxc
            rcases commit_unchanged report inactive hc₂ with
              ⟨e, c₃, -, hfaults⟩ | ⟨c₃, hcommit, -, -, hquiet₃⟩
            · exact absurd hq₂ hfaults
            · rw [hcommit]
              exact ⟨hquiet₃ hq₂, hr⟩

end Reads

end Session

end Transaction
