/-
What a client program can do to the store in whatever mode its
connection is: inside a transaction, outside one, or outside one while
it believes to be inside.

`Realises` (Transaction.lean) compares a block with a function while its
transaction is open. A client that goes on after its transaction was
rolled back has every statement committed on its own, and then only two
weaker things can be said, both of them here. `Moves R x`: the store the
block works on moves by `R`, step by step. `Follows x f`: when the block
succeeds it did what `f` does to the store it saw. `Footprint` is what
is left of `Moves` for a whole operation, which may also drop or publish
its transaction. `Rests P Q x`: from a view of which `P` holds the block
writes nothing. `Blames E x f` adds to `Realises` where an error comes
from: a fault, or `f` itself.
-/
import PhotoBridge.Lib.Transaction

namespace Transaction

namespace Session

variable {δ φ μ ε α β : Type}

-- ============================================================== moves

/-- Every run of the block moves the store it works on by `R` and leaves
the transaction open or closed as it was. -/
structure Moves (R : δ → δ → Prop) (x : Session δ φ μ ε α) : Prop where
  outside : ∀ {c : Conn δ φ μ}, c.txn = none →
    (x c).2.txn = none ∧ R c.committed (x c).2.committed
  inside : ∀ {c : Conn δ φ μ} {s : δ}, c.txn = some s →
    (x c).2.committed = c.committed ∧ ∃ s', (x c).2.txn = some s' ∧ R s s'
  /-- Outside a transaction nothing is written past another client's
  lock. -/
  locked : ∀ {c : Conn δ φ μ}, c.txn = none → c.busy = true →
    (x c).2.committed = c.committed
  busy : ∀ c : Conn δ φ μ, (x c).2.busy = c.busy
  memory : ∀ c : Conn δ φ μ, (x c).2.memory = c.memory

namespace Moves

variable {R S : δ → δ → Prop} {x : Session δ φ μ ε α}
  {k : α → Session δ φ μ ε β}

/-- A block that leaves the connection alone but for the faults it
meets. -/
theorem of_still (hR : ∀ s, R s s)
    (hx : ∀ c, (x c).2.txn = c.txn ∧ SameOutside c (x c).2) : Moves R x where
  outside := by
    intro c hc
    obtain ⟨htxn, hsame⟩ := hx c
    refine ⟨htxn.trans hc, ?_⟩
    rw [hsame.committed]
    exact hR _
  inside := by
    intro c s hc
    obtain ⟨htxn, hsame⟩ := hx c
    exact ⟨hsame.committed, s, htxn.trans hc, hR s⟩
  locked := fun {c} _ _ => (hx c).2.committed
  busy := fun c => (hx c).2.busy
  memory := fun c => (hx c).2.memory

/-- A value moves nothing. -/
theorem pure (hR : ∀ s, R s s) (a : α) :
    Moves R (Pure.pure a : Session δ φ μ ε α) :=
  of_still hR fun c => ⟨rfl, .refl c⟩

/-- An error moves nothing. -/
theorem throw (hR : ∀ s, R s s) (e : ε) :
    Moves R (MonadExcept.throw e : Session δ φ μ ε α) :=
  of_still hR fun c => ⟨rfl, .refl c⟩

/-- A query moves nothing. -/
theorem select (hR : ∀ s, R s s) (report : φ → ε) (f : δ → α) :
    Moves R (Session.select report f : Session δ φ μ ε α) := by
  refine of_still hR fun c => ?_
  have hsame := nextFault_same c
  unfold Session.select
  cases hn : c.nextFault with
  | mk fault c₁ =>
      rw [hn] at hsame
      cases fault <;> exact hsame

/-- A writing statement moves the store as its function does. -/
theorem write (hR : ∀ s, R s s) (report : φ → ε) (lockedBy : φ)
    {f : δ → Except ε (α × δ)} (hf : ∀ s a s', f s = .ok (a, s') → R s s') :
    Moves R (Session.write report lockedBy f : Session δ φ μ ε α) := by
  -- the two ways it can go: nothing moves, or the view moves as `f` says
  have hcases : ∀ c : Conn δ φ μ,
      ((Session.write report lockedBy f c).2.txn = c.txn
          ∧ SameOutside c (Session.write report lockedBy f c).2)
        ∨ ∃ a s', f c.view = .ok (a, s') ∧ ¬(c.txn = none ∧ c.busy = true)
          ∧ (Session.write report lockedBy f c).2
              = (c.nextFault.2).store s' := by
    intro c
    obtain ⟨htxn, hsame⟩ := nextFault_same c
    unfold Session.write
    cases hn : c.nextFault with
    | mk fault c₁ =>
        rw [hn] at htxn hsame
        have hview : c₁.view = c.view := by
          rw [Conn.view, Conn.view, htxn, hsame.committed]
        cases fault with
        | some m => exact .inl ⟨htxn, hsame⟩
        | none =>
            by_cases hlock : (c₁.txn.isNone && c₁.busy) = true
            · simp only [hlock, if_true]
              exact .inl ⟨htxn, hsame⟩
            · simp only [hlock, Bool.false_eq_true, if_false, hview]
              cases hv : f c.view with
              | error e => exact .inl ⟨htxn, hsame⟩
              | ok p =>
                  obtain ⟨a, s'⟩ := p
                  refine .inr ⟨a, s', rfl, ?_, rfl⟩
                  rintro ⟨hnone, hbusy⟩
                  apply hlock
                  rw [htxn, hnone, hsame.busy, hbusy]
                  rfl
  have hstore : ∀ (c : Conn δ φ μ) (s' : δ),
      (c.nextFault.2.store s').busy = c.busy
        ∧ (c.nextFault.2.store s').memory = c.memory := by
    intro c s'
    obtain ⟨-, hsame⟩ := nextFault_same c
    unfold Conn.store
    cases c.nextFault.2.txn <;> exact ⟨hsame.busy, hsame.memory⟩
  refine ⟨fun {c} hc => ?_, fun {c s} hc => ?_, fun {c} hc hb => ?_,
    fun c => ?_, fun c => ?_⟩ <;>
    obtain ⟨htxn, hsame⟩ | ⟨a, s', hv, hfree, heq⟩ := hcases c
  · refine ⟨htxn.trans hc, ?_⟩
    rw [hsame.committed]
    exact hR _
  · have hnone : c.nextFault.2.txn = none := (nextFault_same c).1.trans hc
    have hview : c.view = c.committed := by
      rw [Conn.view, hc]
      rfl
    rw [heq]
    simp only [Conn.store, hnone]
    rw [hview] at hv
    exact ⟨trivial, hf _ _ _ hv⟩
  · exact ⟨hsame.committed, s, htxn.trans hc, hR s⟩
  · have hsome : c.nextFault.2.txn = some s := (nextFault_same c).1.trans hc
    have hview : c.view = s := by
      rw [Conn.view, hc]
      rfl
    rw [heq]
    simp only [Conn.store, hsome]
    rw [hview] at hv
    exact ⟨(nextFault_same c).2.committed, s', rfl, hf _ _ _ hv⟩
  · exact hsame.committed
  · exact absurd ⟨hc, hb⟩ hfree
  · exact hsame.busy
  · rw [heq]
    exact (hstore c s').1
  · exact hsame.memory
  · rw [heq]
    exact (hstore c s').2

/-- Blocks compose: first by `R`, then by `S`, and an error in between
stops after `R`. -/
theorem bind {T : δ → δ → Prop} (hx : Moves R x)
    (hk : ∀ a, Moves S (k a)) (hRT : ∀ s s', R s s' → T s s')
    (hRST : ∀ s s' s'', R s s' → S s' s'' → T s s'') :
    Moves T (x >>= k) := by
  refine ⟨fun {c} hc => ?_, fun {c s} hc => ?_, fun {c} hc hb => ?_,
    fun c => ?_, fun c => ?_⟩ <;> rw [bind_apply] <;>
    cases hxc : x c with
    | mk r c₁ => ?_
  · obtain ⟨htxn, hmove⟩ := hx.outside hc
    rw [hxc] at htxn hmove
    cases r with
    | error e => exact ⟨htxn, hRT _ _ hmove⟩
    | ok a =>
        obtain ⟨htxn', hmove'⟩ := (hk a).outside htxn
        exact ⟨htxn', hRST _ _ _ hmove hmove'⟩
  · obtain ⟨hdb, s₁, htxn, hmove⟩ := hx.inside hc
    rw [hxc] at hdb htxn
    cases r with
    | error e => exact ⟨hdb, s₁, htxn, hRT _ _ hmove⟩
    | ok a =>
        obtain ⟨hdb', s', htxn', hmove'⟩ := (hk a).inside htxn
        exact ⟨hdb'.trans hdb, s', htxn', hRST _ _ _ hmove hmove'⟩
  · have hdb := hx.locked hc hb
    have htxn := (hx.outside hc).1
    have hbusy := hx.busy c
    rw [hxc] at hdb htxn hbusy
    cases r with
    | error e => exact hdb
    | ok a => exact ((hk a).locked htxn (hbusy.trans hb)).trans hdb
  · have hbusy := hx.busy c
    rw [hxc] at hbusy
    cases r with
    | error e => exact hbusy
    | ok a => exact ((hk a).busy c₁).trans hbusy
  · have hmem := hx.memory c
    rw [hxc] at hmem
    cases r with
    | error e => exact hmem
    | ok a => exact ((hk a).memory c₁).trans hmem

/-- A block after one that only reads. -/
theorem after_read (hR : ∀ s, R s s) (hx : Moves Eq x)
    (hk : ∀ a, Moves R (k a)) : Moves R (x >>= k) := by
  refine hx.bind hk ?_ ?_
  · rintro s _ rfl
    exact hR s
  · rintro s _ s'' rfl h
    exact h

/-- Either branch. -/
theorem ite {p : Prop} [Decidable p] {x y : Session δ φ μ ε α}
    (hx : p → Moves R x) (hy : ¬p → Moves R y) :
    Moves R (if p then x else y) := by
  split
  · next h => exact hx h
  · next h => exact hy h

/-- A block's function moves the store as the block does. -/
theorem realised (hx : Moves R x) {f : Txn δ ε α} (hf : Realises x f)
    (m : μ) {s s' : δ} {a : α} (h : f s = .ok (a, s')) : R s s' := by
  -- run the block on a connection without faults
  let c : Conn δ φ μ := ⟨s, some s, false, [], m⟩
  obtain ⟨-, hr⟩ := hf.quiet (c := c) rfl rfl
  rw [h] at hr
  have hrun : x c = (.ok a, (x c).2) := Prod.ext hr rfl
  obtain ⟨s₁, hf₁, htxn, -⟩ := hf.ok rfl hrun
  rw [h] at hf₁
  cases hf₁
  obtain ⟨-, s₂, htxn₂, hmove⟩ := hx.inside (c := c) rfl
  rw [htxn] at htxn₂
  cases htxn₂
  exact hmove

end Moves

-- ========================================================== footprints

/-- Every run of the operation moves the committed store by `R` when it
finds no transaction open, and otherwise touches the working copy only,
moving it by `R` or dropping it. -/
structure Footprint (R : δ → δ → Prop) (x : Session δ φ μ ε α) : Prop where
  outside : ∀ {c : Conn δ φ μ}, c.txn = none →
    (x c).2.txn = none ∧ R c.committed (x c).2.committed
  inside : ∀ {c : Conn δ φ μ} {s : δ}, c.txn = some s →
    (x c).2.committed = c.committed ∧ ∀ s', (x c).2.txn = some s' → R s s'
  locked : ∀ {c : Conn δ φ μ}, c.txn = none → c.busy = true →
    (x c).2.committed = c.committed

namespace Footprint

variable {R : δ → δ → Prop} {x : Session δ φ μ ε α}
  {report : φ → ε} {nested locked inactive : φ}

/-- A move, whatever else it may do. -/
theorem of_moves (hx : Moves R x) : Footprint R x where
  outside := hx.outside
  inside := by
    intro c s hc
    obtain ⟨hdb, s', htxn, hmove⟩ := hx.inside hc
    refine ⟨hdb, fun s'' h => ?_⟩
    rw [htxn] at h
    cases h
    exact hmove
  locked := hx.locked

/-- A block that rolls back on error. -/
theorem orRollback (hx : Moves R x) : Footprint R (Session.orRollback x) := by
  have hcases : ∀ c : Conn δ φ μ,
      (Session.orRollback x c).2 = (x c).2
        ∨ (Session.orRollback x c).2 = { (x c).2 with txn := none } := by
    intro c
    unfold Session.orRollback
    cases hxc : x c with
    | mk r c₁ =>
        cases r with
        | ok a => exact .inl rfl
        | error e => exact .inr rfl
  refine ⟨fun {c} hc => ?_, fun {c s} hc => ?_, fun {c} hc hb => ?_⟩ <;>
    obtain heq | heq := hcases c <;> rw [heq]
  · exact hx.outside hc
  · exact ⟨rfl, (hx.outside hc).2⟩
  · exact (of_moves hx).inside hc
  · exact ⟨(hx.inside hc).1, fun s' h => by cases h⟩
  · exact hx.locked hc hb
  · exact hx.locked hc hb

/-- A block in a transaction of its own. -/
theorem atomically (hR : ∀ s, R s s) {f : Txn δ ε α} (hx : Realises x f)
    (hf : ∀ s a s', f s = .ok (a, s') → R s s') :
    Footprint R (atomically report nested locked inactive x) where
  outside := by
    intro c hc
    have hspec :
        let p := Session.atomically report nested locked inactive x c
        Outcome f c.committed p.1 p.2.committed ∧ p.2.txn = none
          ∧ p.2.busy = c.busy ∧ p.2.memory = c.memory :=
      atomically_spec hx hc
    obtain ⟨hout, htxn, -, -⟩ := hspec
    refine ⟨htxn, ?_⟩
    generalize (Session.atomically report nested locked inactive x c).1 = r
      at hout
    generalize (Session.atomically report nested locked inactive x
      c).2.committed = s' at hout
    cases hout with
    | done h => exact hf _ _ _ h
    | refused e => exact hR _
  inside := by
    intro c s hc
    obtain ⟨-, htxn, hsame⟩ := atomically_nested report nested locked
      inactive x hc
    refine ⟨hsame.committed, fun s' h => ?_⟩
    rw [htxn] at h
    cases h
    exact hR s
  locked := by
    intro c hc hb
    exact (Atomic.atomically (I := fun _ => True) hx).locked hc trivial hb

/-- An error moves nothing, and has no other trace. -/
theorem throw (hR : ∀ s, R s s) (e : ε) :
    Footprint R (MonadExcept.throw e : Session δ φ μ ε α) :=
  of_moves (.throw hR e)

/-- Wrapping the answer. -/
theorem map (hx : Footprint R x) (w : α → β) :
    Footprint R (x >>= fun a => Pure.pure (w a)) := by
  have hrun : ∀ c : Conn δ φ μ,
      ((x >>= fun a => (Pure.pure (w a) : Session δ φ μ ε β)) c).2
        = (x c).2 := by
    intro c
    rw [bind_apply]
    cases hxc : x c with
    | mk r c₁ => cases r <;> rfl
  refine ⟨fun {c} hc => ?_, fun {c s} hc => ?_, fun {c} hc hb => ?_⟩ <;>
    rw [hrun c]
  · exact hx.outside hc
  · exact hx.inside hc
  · exact hx.locked hc hb

end Footprint

-- ============================================================ following

/-- When the block succeeds, it did to the store it saw what `f` does,
and its transaction is open or closed as before. -/
structure Follows (x : Session δ φ μ ε α) (f : Txn δ ε α) : Prop where
  ok : ∀ {c c' : Conn δ φ μ} {a : α}, x c = (.ok a, c') →
    f c.view = .ok (a, c'.view) ∧ c'.txn.isSome = c.txn.isSome

namespace Follows

variable {x : Session δ φ μ ε α} {f : Txn δ ε α}
  {k : α → Session δ φ μ ε β} {g : α → Txn δ ε β}

/-- A value. -/
theorem pure (a : α) :
    Follows (Pure.pure a : Session δ φ μ ε α) (Pure.pure a) := by
  refine ⟨fun {c c' b} h => ?_⟩
  cases h
  exact ⟨rfl, rfl⟩

/-- An error. -/
theorem throw (e : ε) :
    Follows (MonadExcept.throw e : Session δ φ μ ε α)
      (MonadExcept.throw e) := by
  refine ⟨fun {c c' b} h => ?_⟩
  cases h

/-- Going on to the next fault does not change what is seen. -/
theorem nextFault_view (c : Conn δ φ μ) : c.nextFault.2.view = c.view := by
  obtain ⟨htxn, hsame⟩ := nextFault_same c
  rw [Conn.view, Conn.view, htxn, hsame.committed]

/-- A query reads what is seen. -/
theorem select (report : φ → ε) (r : δ → α) :
    Follows (Session.select report r : Session δ φ μ ε α) (Txn.read r) := by
  refine ⟨fun {c c' b} h => ?_⟩
  have hview := nextFault_view c
  have htxn := (nextFault_same c).1
  unfold Session.select at h
  cases hn : c.nextFault with
  | mk fault c₁ =>
      rw [hn] at h hview htxn
      cases fault with
      | some m => cases h
      | none =>
          cases h
          simp only at hview htxn
          refine ⟨?_, by rw [htxn]⟩
          rw [hview]
          rfl

/-- A write edits what is seen. -/
theorem write (report : φ → ε) (lockedBy : φ) (w : δ → Except ε (α × δ)) :
    Follows (Session.write report lockedBy w : Session δ φ μ ε α)
      (Txn.edit w) := by
  refine ⟨fun {c c' b} h => ?_⟩
  have hview := nextFault_view c
  have htxn := (nextFault_same c).1
  unfold Session.write at h
  cases hn : c.nextFault with
  | mk fault c₁ =>
      rw [hn] at h hview htxn
      cases fault with
      | some m => cases h
      | none =>
          simp only at h hview htxn
          split at h
          · cases h
          · rw [hview] at h
            cases hw : w c.view with
            | error e =>
                rw [hw] at h
                cases h
            | ok p =>
                obtain ⟨a, s'⟩ := p
                rw [hw] at h
                cases h
                rw [← htxn]
                unfold Conn.store
                cases ht : c₁.txn with
                | none =>
                    exact ⟨hw, rfl⟩
                | some s =>
                    exact ⟨hw, rfl⟩

/-- One step after another. -/
theorem bind (hx : Follows x f) (hk : ∀ a, Follows (k a) (g a)) :
    Follows (x >>= k) (f >>= g) := by
  refine ⟨fun {c c' b} h => ?_⟩
  rw [bind_apply] at h
  cases hxc : x c with
  | mk r c₁ =>
      rw [hxc] at h
      cases r with
      | error e => cases h
      | ok a =>
          obtain ⟨hf, ht⟩ := hx.ok hxc
          obtain ⟨hg, ht'⟩ := (hk a).ok h
          exact ⟨Txn.bind_eq_ok.2 ⟨a, _, hf, hg⟩, ht'.trans ht⟩

/-- Either branch. -/
theorem ite {p : Prop} [Decidable p] {x y : Session δ φ μ ε α}
    {f g : Txn δ ε α} (hx : p → Follows x f) (hy : ¬p → Follows y g) :
    Follows (if p then x else y) (if p then f else g) := by
  split
  · next h => exact hx h
  · next h => exact hy h

end Follows

-- ============================================================= resting

/-- Started on a view of which `P` holds, the block changes nothing but
the faults to come, and its answer satisfies `Q`. -/
structure Rests (P : δ → Prop) (Q : α → Prop) (x : Session δ φ μ ε α) :
    Prop where
  still : ∀ {c : Conn δ φ μ}, P c.view →
    (x c).2.txn = c.txn ∧ SameOutside c (x c).2
  answer : ∀ {c : Conn δ φ μ} {a : α}, P c.view → (x c).1 = .ok a → Q a

namespace Rests

variable {P : δ → Prop} {Q : α → Prop} {Q' : β → Prop}
  {x : Session δ φ μ ε α} {k : α → Session δ φ μ ε β}

/-- A value that is right. -/
theorem pure {a : α} (ha : Q a) :
    Rests P Q (Pure.pure a : Session δ φ μ ε α) where
  still := fun {c} _ => ⟨rfl, .refl c⟩
  answer := by
    intro c b _ h
    cases h
    exact ha

/-- An error is no value. -/
theorem throw (e : ε) :
    Rests P Q (MonadExcept.throw e : Session δ φ μ ε α) where
  still := fun {c} _ => ⟨rfl, .refl c⟩
  answer := by
    intro c b _ h
    cases h

/-- A query answers something. -/
theorem select (report : φ → ε) (r : δ → α) :
    Rests P (fun _ => True) (Session.select report r : Session δ φ μ ε α) where
  still := by
    intro c _
    have hsame := nextFault_same c
    unfold Session.select
    cases hn : c.nextFault with
    | mk fault c₁ =>
        rw [hn] at hsame
        cases fault <;> exact hsame
  answer := fun _ _ => trivial

/-- A writing statement that finds nothing to write. -/
theorem write (report : φ → ε) (lockedBy : φ)
    {w : δ → Except ε (α × δ)} {a : α} (hw : ∀ s, P s → w s = .ok (a, s)) :
    Rests P (· = a)
      (Session.write report lockedBy w : Session δ φ μ ε α) := by
  have hrun : ∀ c : Conn δ φ μ, P c.view →
      (Session.write report lockedBy w c).2.txn = c.txn
        ∧ SameOutside c (Session.write report lockedBy w c).2
        ∧ ∀ b, (Session.write report lockedBy w c).1 = .ok b → b = a := by
    intro c hP
    obtain ⟨htxn, hsame⟩ := nextFault_same c
    have hview := Follows.nextFault_view c
    unfold Session.write
    cases hn : c.nextFault with
    | mk fault c₁ =>
        rw [hn] at htxn hsame hview
        simp only at hview
        cases fault with
        | some m =>
            refine ⟨htxn, hsame, fun b hb => ?_⟩
            cases hb
        | none =>
            simp only
            split
            · refine ⟨htxn, hsame, fun b hb => ?_⟩
              cases hb
            · rw [hview, hw _ hP]
              simp only
              -- storing what was there leaves the connection as it is
              have hstore : c₁.store c.view = c₁ := by
                rw [← hview]
                unfold Conn.store Conn.view
                cases ht : c₁.txn with
                | none =>
                    simp only [Option.getD_none]
                    rw [← ht]
                | some s =>
                    simp only [Option.getD_some]
                    rw [← ht]
              rw [hstore]
              refine ⟨htxn, hsame, fun b hb => ?_⟩
              cases hb
              rfl
  refine ⟨fun {c} hP => ?_, fun {c b} hP hb => (hrun c hP).2.2 b hb⟩
  exact ⟨(hrun c hP).1, (hrun c hP).2.1⟩

/-- The second step starts from what the first answers. -/
theorem bind (hx : Rests P Q x) (hk : ∀ a, Q a → Rests P Q' (k a)) :
    Rests P Q' (x >>= k) := by
  have hrun : ∀ c : Conn δ φ μ, P c.view →
      ((∃ e, (x >>= k) c = (.error e, (x c).2))
        ∨ ∃ a, Q a ∧ (x >>= k) c = k a (x c).2) ∧ P (x c).2.view := by
    intro c hP
    obtain ⟨htxn, hsame⟩ := hx.still hP
    have hview : (x c).2.view = c.view := by
      rw [Conn.view, Conn.view, htxn, hsame.committed]
    refine ⟨?_, by rw [hview]; exact hP⟩
    have hans : ∀ a, (x c).1 = .ok a → Q a := fun a ha => hx.answer hP ha
    rw [bind_apply]
    cases hxc : x c with
    | mk r c₁ =>
        rw [hxc] at hans
        cases r with
        | error e => exact .inl ⟨e, rfl⟩
        | ok a => exact .inr ⟨a, hans a rfl, rfl⟩
  refine ⟨fun {c} hP => ?_, fun {c b} hP hb => ?_⟩ <;>
    obtain ⟨⟨e, h⟩ | ⟨a, ha, h⟩, hP'⟩ := hrun c hP
  · rw [h]
    exact hx.still hP
  · rw [h]
    obtain ⟨htxn, hsame⟩ := hx.still hP
    obtain ⟨htxn', hsame'⟩ := (hk a ha).still hP'
    exact ⟨htxn'.trans htxn, hsame.trans hsame'⟩
  · rw [h] at hb
    cases hb
  · rw [h] at hb
    exact (hk a ha).answer hP' hb

end Rests

-- ============================================================== errors

/-- An error of the block inside a transaction is one of `E`, the errors
faults are reported as, or the one `f` answers with. -/
structure Blames (E : ε → Prop) (x : Session δ φ μ ε α) (f : Txn δ ε α) :
    Prop where
  error : ∀ {c c' : Conn δ φ μ} {s : δ} {e : ε}, c.txn = some s →
    x c = (.error e, c') → E e ∨ f s = .error e

namespace Blames

variable {E : ε → Prop} {x : Session δ φ μ ε α} {f : Txn δ ε α}
  {k : α → Session δ φ μ ε β} {g : α → Txn δ ε β}

/-- A value has no error to blame. -/
theorem pure (a : α) :
    Blames E (Pure.pure a : Session δ φ μ ε α) (Pure.pure a) := by
  refine ⟨fun {c c' s e} _ h => ?_⟩
  cases h

/-- An error of the function itself. -/
theorem throw (e : ε) :
    Blames E (MonadExcept.throw e : Session δ φ μ ε α)
      (MonadExcept.throw e) := by
  refine ⟨fun {c c' s e'} _ h => ?_⟩
  cases h
  exact .inr rfl

/-- A query fails with what it reports. -/
theorem select {report : φ → ε} (hE : ∀ m, E (report m)) (r : δ → α) :
    Blames E (Session.select report r : Session δ φ μ ε α) (Txn.read r) := by
  refine ⟨fun {c c' s e} _ h => ?_⟩
  unfold Session.select at h
  split at h
  · cases h
    exact .inl (hE _)
  · cases h

/-- A write fails with what it reports, or with an error of its own. -/
theorem write {report : φ → ε} (hE : ∀ m, E (report m)) (lockedBy : φ)
    (w : δ → Except ε (α × δ)) :
    Blames E (Session.write report lockedBy w : Session δ φ μ ε α)
      (Txn.edit w) := by
  refine ⟨fun {c c' s e} hc h => ?_⟩
  have htxn := (nextFault_same c).1
  unfold Session.write at h
  split at h
  · cases h
    exact .inl (hE _)
  · next c₁ hn =>
    rw [hn] at htxn
    have hview : c₁.view = s := by
      rw [Conn.view, htxn, hc]
      rfl
    split at h
    · cases h
      exact .inl (hE _)
    · rw [hview] at h
      cases hw : w s with
      | ok p =>
          obtain ⟨a, s'⟩ := p
          rw [hw] at h
          cases h
      | error e' =>
          rw [hw] at h
          cases h
          exact .inr hw

/-- Each step blames its own errors. -/
theorem bind (hr : Realises x f) (hx : Blames E x f)
    (hk : ∀ a, Blames E (k a) (g a)) : Blames E (x >>= k) (f >>= g) := by
  refine ⟨fun {c c' s e} hc h => ?_⟩
  rw [bind_apply] at h
  cases hxc : x c with
  | mk r c₁ =>
      rw [hxc] at h
      cases r with
      | error e' =>
          cases h
          obtain hE | hf := hx.error hc hxc
          · exact .inl hE
          · right
            show StateT.bind f g s = _
            simp only [StateT.bind, hf, Bind.bind, Except.bind]
      | ok a =>
          obtain ⟨s₁, hf, hs₁, -⟩ := hr.ok hc hxc
          obtain hE | hg := (hk a).error hs₁ h
          · exact .inl hE
          · right
            show StateT.bind f g s = _
            simp only [StateT.bind, hf, Bind.bind, Except.bind]
            exact hg

/-- Either branch. -/
theorem ite {p : Prop} [Decidable p] {x y : Session δ φ μ ε α}
    {f g : Txn δ ε α} (hx : p → Blames E x f) (hy : ¬p → Blames E y g) :
    Blames E (if p then x else y) (if p then f else g) := by
  split
  · next h => exact hx h
  · next h => exact hy h

/-- Beginning and committing fail for faults and locks only. -/
theorem atomically {report : φ → ε} {nested locked inactive : φ}
    (hE : ∀ m, E (report m)) (hx : Blames E x f) {c c' : Conn δ φ μ} {e : ε}
    (hc : c.txn = none)
    (h : atomically report nested locked inactive x c = (.error e, c')) :
    E e ∨ f c.committed = .error e := by
  have hreport : ∀ (y : Session δ φ μ ε Unit) (d d' : Conn δ φ μ) (e : ε),
      (y = beginImmediate report nested locked
        ∨ y = commit report inactive) →
      y d = (.error e, d') → E e := by
    intro y d d' e hy hrun
    obtain rfl | rfl := hy
    · unfold beginImmediate at hrun
      split at hrun
      · cases hrun
        exact hE _
      · split at hrun
        · cases hrun
          exact hE _
        · split at hrun
          · cases hrun
            exact hE _
          · cases hrun
    · unfold commit at hrun
      split at hrun
      · cases hrun
        exact hE _
      · split at hrun
        · cases hrun
        · cases hrun
          exact hE _
  simp only [Session.atomically, bind_apply] at h
  cases hb : beginImmediate report nested locked c with
  | mk r c₁ =>
    rw [hb] at h
    cases r with
    | error e' =>
        cases h
        exact .inl (hreport _ _ _ _ (.inl rfl) hb)
    | ok _ =>
      obtain ⟨e₁, d, hbad, -⟩ | ⟨d, hgood, hd, -⟩ :=
        beginImmediate_cases report nested locked hc
      · rw [hbad] at hb
        cases hb
      · rw [hgood] at hb
        cases hb
        simp only [orRollback] at h
        cases hxc : x c₁ with
        | mk r₂ c₂ =>
          rw [hxc] at h
          cases r₂ with
          | error e₂ =>
              cases h
              exact hx.error hd hxc
          | ok a =>
              simp only at h
              cases hm : commit report inactive c₂ with
              | mk r₃ c₃ =>
                rw [hm] at h
                cases r₃ with
                | error e₃ =>
                    cases h
                    exact .inl (hreport _ _ _ _ (.inr rfl) hm)
                | ok _ => cases h

end Blames

end Session

end Transaction
