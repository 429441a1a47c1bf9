/-
Programs that can fail, and what they yield.

An `Attempt` is a program that ends with a value or with an error, or is
given up because a loop has spent its rounds. `Yields` is its weakest
precondition: however the calls are answered, a value satisfies `ok`, an
error `fail`, and the rounds are spent only if `spent` allows it. There
is one rule for each way an attempt is put together, and each rule is an
implication from the parts to the whole, so that a proof follows the
program's text.

`Yields.returns` leads from there to the runs of the program. That there
is a run at all is another matter, and an easy one: a program is a finite
tree, so it has one wherever every call has some answer
(`exists_returns`).
-/
import PhotoBridge.Lib.Concurrent

namespace Concurrent

variable {I : Interface} {α β ε σ : Type}

-- ============================================================ attempts

/-- A program with a value or an error at its end, or neither. -/
abbrev Attempt (I : Interface) (ε α : Type) := ExceptT ε (OptionT (Program I)) α

namespace Attempt

/-- The program itself. -/
def program (x : Attempt I ε α) : Program I (Option (Except ε α)) := x

/-- A program whose answer is a value or an error. -/
def lift (p : Program I (Except ε α)) : Attempt I ε α :=
  ExceptT.mk (OptionT.mk (p >>= fun r => .done (some r)))

/-- The rounds of a loop are spent. -/
def spent : Attempt I ε α := ExceptT.mk (OptionT.mk (.done none))

/-- Go on with the error as with a value. -/
def result (x : Attempt I ε α) : Attempt I ε (Except ε α) :=
  ExceptT.mk (OptionT.mk (x.program >>= fun
    | none => .done none
    | some r => .done (some (.ok r))))

/-- A value or an error that is at hand. -/
def ofExcept (r : Except ε α) : Attempt I ε α :=
  ExceptT.mk (OptionT.mk (.done (some r)))

/-- A step, and then what follows unless it has failed. -/
theorem program_bind (x : Attempt I ε α) (k : α → Attempt I ε β) :
    (x >>= k).program = x.program >>= fun
      | none => .done none
      | some (.error e) => .done (some (.error e))
      | some (.ok a) => (k a).program := by
  show x.program >>= _ = x.program >>= _
  congr 1
  funext r
  match r with
  | none => rfl
  | some (.error e) => rfl
  | some (.ok a) => rfl

/-- Every call the attempt can make is one of these. -/
def Uses (uses : I.Call → Prop) (x : Attempt I ε α) : Prop :=
  x.program.Uses uses

namespace Uses

variable {uses : I.Call → Prop} {x : Attempt I ε α}

/-- A value makes no call. -/
theorem pure (a : α) : Uses uses (Pure.pure a : Attempt I ε α) := trivial

/-- An error makes no call. -/
theorem throw (e : ε) : Uses uses (MonadExcept.throw e : Attempt I ε α) :=
  trivial

/-- Giving up makes no call. -/
theorem given_up : Uses uses (spent : Attempt I ε α) := trivial

/-- A result that is at hand takes no call. -/
theorem ofExcept (r : Except ε α) :
    Uses uses (Attempt.ofExcept r : Attempt I ε α) := trivial

/-- The calls of a program. -/
theorem lift {p : Program I (Except ε α)} (h : p.Uses uses) :
    Uses uses (Attempt.lift p) := Program.Uses.bind h fun _ => trivial

/-- Those of two steps. -/
theorem bind {k : α → Attempt I ε β} (h : Uses uses x)
    (hk : ∀ a, Uses uses (k a)) : Uses uses (x >>= k) := by
  unfold Uses
  rw [program_bind]
  refine Program.Uses.bind h fun r => ?_
  match r with
  | none => exact trivial
  | some (.error e) => exact trivial
  | some (.ok a) => exact hk a

/-- Going on with an error makes no other call. -/
theorem result (h : Uses uses x) : Uses uses x.result := by
  refine Program.Uses.bind h fun r => ?_
  cases r with
  | none => exact trivial
  | some r => exact trivial

/-- More calls may be allowed. -/
theorem mono {uses' : I.Call → Prop} (h : Uses uses x)
    (huses : ∀ c, uses c → uses' c) : Uses uses' x :=
  Program.Uses.mono h huses

/-- Those of either branch. -/
theorem ite {p : Prop} [Decidable p] {y : Attempt I ε α} (hx : Uses uses x)
    (hy : Uses uses y) : Uses uses (if p then x else y) := by
  by_cases hp : p
  · rw [if_pos hp]
    exact hx
  · rw [if_neg hp]
    exact hy

end Uses

end Attempt

-- ================================================ weakest preconditions

variable (effects : Effects I σ)

/-- However its calls are answered, the program ends in `post`. -/
def Meets (post : α → σ → Prop) : Program I α → σ → Prop
  | .done a, s => post a s
  | .call c next, s => ∀ r s', effects c s r s' → Meets post (next r) s'

/-- What an attempt ends with satisfies the part of the postcondition
that is about it. -/
def Ends (spent : Prop) (ok : α → σ → Prop) (fail : ε → σ → Prop) :
    Option (Except ε α) → σ → Prop
  | none, _ => spent
  | some (.ok a), s => ok a s
  | some (.error e), s => fail e s

/-- However its calls are answered, a value satisfies `ok` and an error
`fail`. -/
def Yields (spent : Prop) (ok : α → σ → Prop) (fail : ε → σ → Prop)
    (x : Attempt I ε α) (s : σ) : Prop :=
  Meets effects (Ends spent ok fail) x.program s

variable {effects} {post post' : α → σ → Prop} {s s' : σ}

/-- A weaker postcondition. -/
theorem Meets.mono {p : Program I α} (h : Meets effects post p s)
    (hpost : ∀ a s, post a s → post' a s) : Meets effects post' p s := by
  induction p generalizing s with
  | done a => exact hpost a s h
  | call c next ih => exact fun r s' hc => ih r (h r s' hc)

/-- One program after another. -/
theorem Meets.bind {p : Program I α} {k : α → Program I β}
    {post : β → σ → Prop}
    (h : Meets effects (fun a s => Meets effects post (k a) s) p s) :
    Meets effects post (p >>= k) s := by
  induction p generalizing s with
  | done a => exact h
  | call c next ih => exact fun r s' hc => ih r (h r s' hc)

/-- Every run of the program ends in the postcondition. -/
theorem Meets.returns {p : Program I α} {a : α} (h : Meets effects post p s)
    (hrun : Returns effects p s a s') : post a s' := by
  induction hrun with
  | done a s => exact h
  | call hc _ ih => exact ih (h _ _ hc)

/-- Where every call it uses has an answer, the program has a run. -/
theorem exists_returns {uses : I.Call → Prop}
    (hanswer : ∀ c s, uses c → ∃ r s', effects c s r s')
    {p : Program I α} (hp : p.Uses uses) (s : σ) :
    ∃ a s', Returns effects p s a s' := by
  induction p generalizing s with
  | done a => exact ⟨a, s, .done a s⟩
  | call c next ih =>
      obtain ⟨r, s₁, hc⟩ := hanswer c s hp.1
      obtain ⟨a, s', hrun⟩ := ih r (hp.2 r) s₁
      exact ⟨a, s', .call hc hrun⟩

-- ================================================================ rules

namespace Yields

variable {spent : Prop} {ok ok' : α → σ → Prop} {fail fail' : ε → σ → Prop}
  {x : Attempt I ε α}

/-- A value that is right. -/
theorem pure {a : α} (h : ok a s) :
    Yields effects spent ok fail (Pure.pure a) s := h

/-- An error that is right. -/
theorem throw {e : ε} (h : fail e s) :
    Yields effects spent ok fail (MonadExcept.throw e) s := h

/-- Giving up, where that may be. -/
theorem given_up (h : spent) :
    Yields effects spent ok fail Attempt.spent s := h

/-- Two steps: the second starts where the first ends. -/
theorem bind {k : α → Attempt I ε β} {ok : β → σ → Prop}
    (h : Yields effects spent
      (fun a s => Yields effects spent ok fail (k a) s) fail x s) :
    Yields effects spent ok fail (x >>= k) s := by
  unfold Yields
  rw [Attempt.program_bind]
  refine Meets.bind (h.mono fun r s' hr => ?_)
  match r with
  | none => exact hr
  | some (.error e) => exact hr
  | some (.ok a) => exact hr

/-- A weaker postcondition. -/
theorem mono (h : Yields effects spent ok fail x s)
    (hok : ∀ a s, ok a s → ok' a s) (hfail : ∀ e s, fail e s → fail' e s) :
    Yields effects spent ok' fail' x s := by
  refine Meets.mono h fun r s' hr => ?_
  match r with
  | none => exact hr
  | some (.error e) => exact hfail e s' hr
  | some (.ok a) => exact hok a s' hr

/-- One program after another, the first specified by itself. -/
theorem andThen {k : α → Attempt I ε β} {mid : α → σ → Prop}
    {ok : β → σ → Prop} (h : Yields effects spent mid fail x s)
    (hk : ∀ a s, mid a s → Yields effects spent ok fail (k a) s) :
    Yields effects spent ok fail (x >>= k) s :=
  .bind (h.mono hk fun _ _ hfail => hfail)

/-- An error that is gone on with counts as a value. -/
theorem result {ok : Except ε α → σ → Prop}
    (h : Yields effects spent (fun a s => ok (.ok a) s)
      (fun e s => ok (.error e) s) x s) :
    Yields effects spent ok fail x.result s := by
  refine Meets.bind (Meets.mono h fun r s' hr => ?_)
  match r with
  | none => exact hr
  | some (.error e) => exact hr
  | some (.ok a) => exact hr

/-- A result that is at hand. -/
theorem ofExcept {r : Except ε α} (hok : ∀ a, r = .ok a → ok a s)
    (hfail : ∀ e, r = .error e → fail e s) :
    Yields effects spent ok fail (Attempt.ofExcept r) s := by
  cases r with
  | ok a => exact hok a rfl
  | error e => exact hfail e rfl

/-- One call that answers with a value or an error. -/
theorem perform {p : Program I (Except ε α)}
    (h : Meets effects (fun r s => Ends spent ok fail (some r) s) p s) :
    Yields effects spent ok fail (Attempt.lift p) s :=
  Meets.bind (h.mono fun _ _ hr => hr)

/-- Either branch. -/
theorem ite {p : Prop} [Decidable p] {y : Attempt I ε α}
    (hx : p → Yields effects spent ok fail x s)
    (hy : ¬p → Yields effects spent ok fail y s) :
    Yields effects spent ok fail (if p then x else y) s := by
  by_cases hp : p
  · rw [if_pos hp]
    exact hx hp
  · rw [if_neg hp]
    exact hy hp

/-- A run of an attempt that must not spend its rounds ends with a value
or an error, as specified. -/
theorem returns {r : Option (Except ε α)}
    (h : Yields effects False ok fail x s)
    (hrun : Returns effects x.program s r s') :
    ∃ result, r = some result ∧ Ends False ok fail (some result) s' := by
  have hend := Meets.returns h hrun
  match r with
  | none => exact hend.elim
  | some result => exact ⟨result, rfl, hend⟩

end Yields

end Concurrent
