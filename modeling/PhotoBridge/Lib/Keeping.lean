/-
Attempts that share a state with others.

`Keeps` is to the runs of a pool what `Meets` (Lib/Attempt.lean) is to a
run alone: whatever the others do before each of its calls, a program
keeps the protocol and ends in its postcondition. The postcondition is
about the moment of its last call; where the others cannot falsify it the
program is `Safe`. `Secures` is the same for attempts, with the rules of
`Yields`.

# Proofs from a run alone

What was proved of a program run by itself need not be proved again. Where
each of its calls acts on the shared state as it would on a state of its
own, and the others leave that correspondence alone, the program ends as
it does by itself (`Meets.keeps`). That nobody else is there is the
special case in which the two states are one.
-/
import PhotoBridge.Lib.Attempt

namespace Concurrent

variable {I J : Interface} {α β ε σ τ ρ : Type}

-- =============================================================== programs

/-- Whatever the others do before each of its calls, the program keeps the
protocol and ends in its postcondition. -/
def Keeps (P : Protocol ρ I σ) (effects : ρ → Effects I σ) (t : ρ)
    (post : α → σ → Prop) : Program I α → σ → Prop
  | .done a, s => post a s
  | .call c next, s => ∀ s', P.inv s' → P.rely t s s' →
      ∀ r s'', effects t c s' r s'' →
        P.inv s'' ∧ P.guar t c s' s'' ∧ Keeps P effects t post (next r) s''

variable {P : Protocol ρ I σ} {effects : ρ → Effects I σ} {t : ρ}
  {post post' : α → σ → Prop} {s s' : σ} {p : Program I α}

namespace Keeps

theorem mono (h : Keeps P effects t post p s)
    (hpost : ∀ a s, post a s → post' a s) : Keeps P effects t post' p s := by
  induction p generalizing s with
  | done a => exact hpost a s h
  | call c next ih =>
      intro s' hinv hrely r s'' hc
      obtain ⟨hinv', hguar, hnext⟩ := h s' hinv hrely r s'' hc
      exact ⟨hinv', hguar, ih r hnext⟩

theorem bind {k : α → Program I β} {post : β → σ → Prop}
    (h : Keeps P effects t (fun a s => Keeps P effects t post (k a) s) p s) :
    Keeps P effects t post (p >>= k) s := by
  induction p generalizing s with
  | done a => exact h
  | call c next ih =>
      intro s' hinv hrely r s'' hc
      obtain ⟨hinv', hguar, hnext⟩ := h s' hinv hrely r s'' hc
      exact ⟨hinv', hguar, ih r hnext⟩

/-- The postcondition may also count on what every state satisfies. -/
theorem strengthen (h : Keeps P effects t post p s) (hinv : P.inv s) :
    Keeps P effects t (fun a s => P.inv s ∧ post a s) p s := by
  induction p generalizing s with
  | done a => exact ⟨hinv, h⟩
  | call c next ih =>
      intro s' hinv' hrely r s'' hc
      obtain ⟨hinv'', hguar, hnext⟩ := h s' hinv' hrely r s'' hc
      exact ⟨hinv'', hguar, ih r hnext hinv''⟩

/-- A program is safe where nobody falsifies its postcondition. -/
theorem safe (h : Keeps P effects t post p s) (hinv : P.inv s)
    (hstable : ∀ a, Stable P t (post a)) : Safe P effects t post p s := by
  induction p generalizing s with
  | done a => exact fun s' hinv' hrely => hstable a s s' hinv hinv' hrely h
  | call c next ih =>
      intro s' hinv' hrely r s'' hc
      obtain ⟨hinv'', hguar, hnext⟩ := h s' hinv' hrely r s'' hc
      exact ⟨hinv'', hguar, ih r hnext hinv''⟩

/-- Run by itself, the program ends in its postcondition. -/
theorem returns {a : α} (h : Keeps P effects t post p s) (hinv : P.inv s)
    (hrun : Returns (effects t) p s a s') : P.inv s' ∧ post a s' := by
  induction hrun with
  | done a s => exact ⟨hinv, h⟩
  | call hc _ ih =>
      obtain ⟨hinv', -, hnext⟩ := h _ hinv (P.rely_refl t _) _ _ hc
      exact ih hnext hinv'

/-- Run by itself and stopped, it has kept the invariant. -/
theorem visits (h : Keeps P effects t post p s) (hinv : P.inv s)
    (hrun : Visits (effects t) p s s') : P.inv s' := by
  induction hrun with
  | here p s => exact hinv
  | call hc _ ih =>
      obtain ⟨hinv', -, hnext⟩ := h _ hinv (P.rely_refl t _) _ _ hc
      exact ih hnext hinv'

end Keeps

/-- A program whose calls act on the shared state as on one of its own ends
as it does by itself. -/
theorem Meets.keeps {effects' : Effects I τ} {post : α → τ → Prop}
    {uses : I.Call → Prop} {R : σ → τ → Prop} {m : τ}
    (hstep : ∀ c s s' r s'' m, uses c → R s m → P.inv s' → P.rely t s s' →
      effects t c s' r s'' →
        P.inv s'' ∧ P.guar t c s' s'' ∧ ∃ m', effects' c m r m' ∧ R s'' m')
    (h : Meets effects' post p m) (hp : p.Uses uses) (hR : R s m) :
    Keeps P effects t (fun a s => ∃ m, R s m ∧ post a m) p s := by
  induction p generalizing s m with
  | done a => exact ⟨m, hR, h⟩
  | call c next ih =>
      intro s' hinv hrely r s'' hc
      obtain ⟨hinv', hguar, m', hc', hR'⟩ :=
        hstep c s s' r s'' m hp.1 hR hinv hrely hc
      exact ⟨hinv', hguar, ih r (h r m' hc') (hp.2 r) hR'⟩

/-- Calls that do no more than others. -/
theorem Keeps.of_effects {effects' : ρ → Effects I σ}
    (h : Keeps P effects t post p s)
    (heffects : ∀ c s r s', effects' t c s r s' → effects t c s r s') :
    Keeps P effects' t post p s := by
  induction p generalizing s with
  | done a => exact h
  | call c next ih =>
      intro s' hinv hrely r s'' hc
      obtain ⟨hinv', hguar, hnext⟩ :=
        h s' hinv hrely r s'' (heffects c s' r s'' hc)
      exact ⟨hinv', hguar, ih r hnext⟩

/-- A program alone whose calls keep the invariant. -/
theorem Meets.keeps_alone {effects : Effects I σ} {inv : σ → Prop}
    {uses : I.Call → Prop}
    (hkeeps : ∀ c s r s', uses c → inv s → effects c s r s' → inv s')
    (h : Meets effects post p s) (hp : p.Uses uses) :
    Keeps (Protocol.alone inv) (fun _ => effects) () post p s := by
  induction p generalizing s with
  | done a => exact h
  | call c next ih =>
      intro s' hinv hrely r s'' hc
      rw [show s' = s from hrely] at hinv hc
      exact ⟨hkeeps c s r s'' hp.1 hinv hc, trivial, ih r (h r s'' hc) (hp.2 r)⟩

-- ========================================================== another's calls

/-- A program as one over more calls than it makes. -/
def Program.through (call : I.Call → J.Call)
    (answer : (c : I.Call) → J.Answer (call c) → I.Answer c) :
    Program I α → Program J α
  | .done a => .done a
  | .call c next => .call (call c) fun r =>
      (next (answer c r)).through call answer

/-- The same of an attempt. -/
def Attempt.through (call : I.Call → J.Call)
    (answer : (c : I.Call) → J.Answer (call c) → I.Answer c)
    (x : Attempt I ε α) : Attempt J ε α :=
  ExceptT.mk (OptionT.mk (x.program.through call answer))

/-- What its calls do. -/
def Effects.under (call : I.Call → J.Call)
    (answer : (c : I.Call) → J.Answer (call c) → I.Answer c)
    (effects : Effects J σ) : Effects I σ :=
  fun c s r s' => ∃ r', answer c r' = r ∧ effects (call c) s r' s'

/-- What it owes the others. -/
def Protocol.under (call : I.Call → J.Call) (P : Protocol ρ J σ) :
    Protocol ρ I σ where
  inv := P.inv
  rely := P.rely
  guar t c := P.guar t (call c)
  rely_refl := P.rely_refl
  rely_trans := P.rely_trans
  compat := P.compat

theorem Keeps.through {call : I.Call → J.Call}
    {answer : (c : I.Call) → J.Answer (call c) → I.Answer c}
    {P : Protocol ρ J σ} {effects : ρ → Effects J σ}
    (h : Keeps (P.under call) (fun t => Effects.under call answer (effects t)) t
      post p s) :
    Keeps P effects t post (p.through call answer) s := by
  induction p generalizing s with
  | done a => exact h
  | call c next ih =>
      intro s' hinv hrely r s'' hc
      obtain ⟨hinv', hguar, hnext⟩ := h s' hinv hrely (answer c r) s'' ⟨r, rfl, hc⟩
      exact ⟨hinv', hguar, ih _ hnext⟩

-- =============================================================== attempts

/-- Whatever the others do, the attempt keeps the protocol, a value
satisfies `ok` and an error `fail`. -/
def Secures (P : Protocol ρ I σ) (effects : ρ → Effects I σ) (t : ρ)
    (spent : Prop) (ok : α → σ → Prop) (fail : ε → σ → Prop)
    (x : Attempt I ε α) (s : σ) : Prop :=
  Keeps P effects t (Ends spent ok fail) x.program s

namespace Secures

variable {spent : Prop} {ok ok' : α → σ → Prop} {fail fail' : ε → σ → Prop}
  {x : Attempt I ε α}

theorem pure {a : α} (h : ok a s) :
    Secures P effects t spent ok fail (Pure.pure a) s := h

theorem throw {e : ε} (h : fail e s) :
    Secures P effects t spent ok fail (MonadExcept.throw e) s := h

theorem given_up (h : spent) :
    Secures P effects t spent ok fail Attempt.spent s := h

theorem bind {k : α → Attempt I ε β} {ok : β → σ → Prop}
    (h : Secures P effects t spent
      (fun a s => Secures P effects t spent ok fail (k a) s) fail x s) :
    Secures P effects t spent ok fail (x >>= k) s := by
  unfold Secures
  rw [Attempt.program_bind]
  refine Keeps.bind (Keeps.mono h fun r s' hr => ?_)
  match r with
  | none => exact hr
  | some (.error e) => exact hr
  | some (.ok a) => exact hr

theorem mono (h : Secures P effects t spent ok fail x s)
    (hok : ∀ a s, ok a s → ok' a s) (hfail : ∀ e s, fail e s → fail' e s) :
    Secures P effects t spent ok' fail' x s := by
  refine Keeps.mono h fun r s' hr => ?_
  match r with
  | none => exact hr
  | some (.error e) => exact hfail e s' hr
  | some (.ok a) => exact hok a s' hr

/-- One program after another, the first specified by itself. -/
theorem andThen {k : α → Attempt I ε β} {mid : α → σ → Prop}
    {ok : β → σ → Prop} (h : Secures P effects t spent mid fail x s)
    (hk : ∀ a s, mid a s → Secures P effects t spent ok fail (k a) s) :
    Secures P effects t spent ok fail (x >>= k) s :=
  .bind (h.mono hk fun _ _ hfail => hfail)

/-- The same, and what every state satisfies holds in between. -/
theorem seq {k : α → Attempt I ε β} {mid : α → σ → Prop} {ok : β → σ → Prop}
    (hinv : P.inv s) (h : Secures P effects t spent mid fail x s)
    (hk : ∀ a s', P.inv s' → mid a s' →
      Secures P effects t spent ok fail (k a) s') :
    Secures P effects t spent ok fail (x >>= k) s := by
  refine .bind (Keeps.mono (Keeps.strengthen h hinv) fun r s' hr => ?_)
  match r with
  | none => exact hr.2
  | some (.error e) => exact hr.2
  | some (.ok a) => exact hk a s' hr.1 hr.2

theorem result {ok : Except ε α → σ → Prop}
    (h : Secures P effects t spent (fun a s => ok (.ok a) s)
      (fun e s => ok (.error e) s) x s) :
    Secures P effects t spent ok fail x.result s := by
  refine Keeps.bind (Keeps.mono h fun r s' hr => ?_)
  match r with
  | none => exact hr
  | some (.error e) => exact hr
  | some (.ok a) => exact hr

theorem ofExcept {r : Except ε α} (hok : ∀ a, r = .ok a → ok a s)
    (hfail : ∀ e, r = .error e → fail e s) :
    Secures P effects t spent ok fail (Attempt.ofExcept r) s := by
  cases r with
  | ok a => exact hok a rfl
  | error e => exact hfail e rfl

/-- One call that answers with a value or an error. -/
theorem perform {p : Program I (Except ε α)}
    (h : Keeps P effects t (fun r s => Ends spent ok fail (some r) s) p s) :
    Secures P effects t spent ok fail (Attempt.lift p) s :=
  Keeps.bind (h.mono fun _ _ hr => hr)

theorem ite {p : Prop} [Decidable p] {y : Attempt I ε α}
    (hx : p → Secures P effects t spent ok fail x s)
    (hy : ¬p → Secures P effects t spent ok fail y s) :
    Secures P effects t spent ok fail (if p then x else y) s := by
  by_cases hp : p
  · rw [if_pos hp]
    exact hx hp
  · rw [if_neg hp]
    exact hy hp

/-- An attempt over fewer calls. -/
theorem through {call : I.Call → J.Call}
    {answer : (c : I.Call) → J.Answer (call c) → I.Answer c}
    {P : Protocol ρ J σ} {effects : ρ → Effects J σ}
    (h : Secures (P.under call)
      (fun t => Effects.under call answer (effects t)) t spent ok fail x s) :
    Secures P effects t spent ok fail (x.through call answer) s :=
  Keeps.through h

end Secures

end Concurrent
