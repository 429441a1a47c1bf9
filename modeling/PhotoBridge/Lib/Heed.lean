/-
Programs that swallow no fault: when a block succeeds, none of the
statements it issued had failed. The list of faults to come is the
connection's own account of that, so the property says what a
successful block has taken off it (`Heeds`), and it composes along `do`
blocks like the other relations on sessions.
-/
import PhotoBridge.Lib.Transaction

namespace Transaction

variable {δ φ μ ε α β : Type}

/-- Statements were issued from one connection to the other and none
failed. -/
def Conn.Passed (c c' : Conn δ φ μ) : Prop :=
  ∃ n, c.faults = List.replicate n none ++ c'.faults

theorem Conn.Passed.refl (c : Conn δ φ μ) : c.Passed c := ⟨0, rfl⟩

theorem Conn.Passed.of_faults {c c' : Conn δ φ μ}
    (h : c'.faults = c.faults) : c.Passed c' := by
  refine ⟨0, ?_⟩
  rw [h]
  rfl

theorem Conn.Passed.trans {c₁ c₂ c₃ : Conn δ φ μ} (h : c₁.Passed c₂)
    (h' : c₂.Passed c₃) : c₁.Passed c₃ := by
  obtain ⟨n, hn⟩ := h
  obtain ⟨n', hn'⟩ := h'
  refine ⟨n + n', ?_⟩
  rw [hn, hn', ← List.append_assoc, List.replicate_append_replicate]

/-- A statement that met no fault. -/
theorem Conn.Passed.next {c c₁ : Conn δ φ μ} (h : c.nextFault = (none, c₁)) :
    c.Passed c₁ := by
  unfold Conn.nextFault at h
  cases hf : c.faults with
  | nil =>
      rw [hf] at h
      cases h
      exact .refl c
  | cons fault rest =>
      rw [hf] at h
      cases h
      exact ⟨1, hf⟩

namespace Session

/-- A block that succeeds only when its statements did. -/
structure Heeds (x : Session δ φ μ ε α) : Prop where
  ok : ∀ {c c' : Conn δ φ μ} {a : α}, x c = (.ok a, c') → c.Passed c'

namespace Heeds

variable {x : Session δ φ μ ε α} {k : α → Session δ φ μ ε β}
  {report : φ → ε} {nested locked inactive : φ}

theorem pure (a : α) : Heeds (Pure.pure a : Session δ φ μ ε α) := by
  refine ⟨fun {c c' b} h => ?_⟩
  cases h
  exact .refl c

theorem throw (e : ε) :
    Heeds (MonadExcept.throw e : Session δ φ μ ε α) := by
  refine ⟨fun {c c' b} h => ?_⟩
  cases h

theorem select (report : φ → ε) (f : δ → α) :
    Heeds (Session.select report f : Session δ φ μ ε α) := by
  refine ⟨fun {c c' b} h => ?_⟩
  unfold Session.select at h
  split at h
  · cases h
  · next c₁ hn =>
    cases h
    exact .next hn

theorem write (report : φ → ε) (locked : φ) (f : δ → Except ε (α × δ)) :
    Heeds (Session.write report locked f : Session δ φ μ ε α) := by
  refine ⟨fun {c c' b} h => ?_⟩
  unfold Session.write at h
  split at h
  · cases h
  · next c₁ hn =>
    have hpassed := Conn.Passed.next hn
    split at h
    · cases h
    · split at h
      · next a s hf =>
        cases h
        refine hpassed.trans (.of_faults ?_)
        unfold Conn.store
        cases c₁.txn <;> rfl
      · cases h

/-- A program heeds faults when its parts do. -/
theorem bind (hx : Heeds x) (hk : ∀ a, Heeds (k a)) : Heeds (x >>= k) := by
  refine ⟨fun {c c' b} h => ?_⟩
  rw [bind_apply] at h
  cases hxc : x c with
  | mk r c₁ =>
      rw [hxc] at h
      cases r with
      | error e => cases h
      | ok a => exact (hx.ok hxc).trans ((hk a).ok h)

theorem ite {p : Prop} [Decidable p] {x y : Session δ φ μ ε α}
    (hx : p → Heeds x) (hy : ¬p → Heeds y) :
    Heeds (if p then x else y) := by
  split
  · next h => exact hx h
  · next h => exact hy h

theorem orRollback (hx : Heeds x) : Heeds (Session.orRollback x) := by
  refine ⟨fun {c c' b} h => ?_⟩
  unfold Session.orRollback at h
  cases hxc : x c with
  | mk r c₁ =>
      rw [hxc] at h
      cases r with
      | error e => cases h
      | ok a =>
          cases h
          exact hx.ok hxc

theorem beginImmediate :
    Heeds (Session.beginImmediate report nested locked :
      Session δ φ μ ε Unit) := by
  refine ⟨fun {c c' b} h => ?_⟩
  unfold Session.beginImmediate at h
  split at h
  · cases h
  · next c₁ hn =>
    split at h
    · cases h
    · split at h
      · cases h
      · cases h
        exact (Conn.Passed.next hn).trans (.of_faults rfl)

theorem commit :
    Heeds (Session.commit report inactive : Session δ φ μ ε Unit) := by
  refine ⟨fun {c c' b} h => ?_⟩
  unfold Session.commit at h
  split at h
  · cases h
  · next c₁ hn =>
    split at h
    · cases h
      exact (Conn.Passed.next hn).trans (.of_faults rfl)
    · cases h

/-- A bracketed block. -/
theorem atomically (hx : Heeds x) :
    Heeds (Session.atomically report nested locked inactive x) := by
  unfold Session.atomically
  refine .bind .beginImmediate fun _ => ?_
  refine .bind (.orRollback hx) fun a => ?_
  exact .bind (.orRollback .commit) fun _ => .pure a

end Heeds

end Session

end Transaction
