/-
Programs over the calls of a shared world. What one thread does is
written once (`Program`) and read in two ways: run by itself
(`Returns`), and interleaved with other threads, one call at a time
(`Moves`).

# Rely and guarantee

A `Protocol` says what every state satisfies (`inv`), what thread `t`
can count on while others move (`rely t`) and what it owes them when it
makes a call (`guar t`); `compat` says that what one thread guarantees is
what every other relies on. A program is `Safe` from a state when,
whatever the others do in the meantime, each of its calls keeps the
invariant and the guarantee, and it ends in its postcondition. A pool of
safe threads stays safe (`Moves.safe`); a program alone is the special
case in which nobody interferes (`Triple.returns`).

`Triple` is the form to prove programs in: a precondition that survives
the others (`Stable`), and one rule for each way a program goes on.
-/
import Mathlib.Logic.Function.Basic

namespace Concurrent

-- ============================================================ programs

/-- The calls a thread can make and what each answers. -/
structure Interface where
  Call : Type
  Answer : Call → Type

/-- What a thread has left to do: nothing, or a call and what follows
each of its answers. -/
inductive Program (I : Interface) (α : Type) : Type
  | done (a : α)
  | call (c : I.Call) (next : I.Answer c → Program I α)

variable {I : Interface} {α β γ σ τ : Type}

namespace Program

/-- One program after another. -/
def bind : Program I α → (α → Program I β) → Program I β
  | .done a, k => k a
  | .call c next, k => .call c fun r => (next r).bind k

instance : Monad (Program I) where
  pure := .done
  bind := bind

/-- One call. -/
def perform (c : I.Call) : Program I (I.Answer c) := .call c .done

@[simp] theorem done_bind (a : α) (k : α → Program I β) :
    (Program.done a >>= k) = k a := rfl

@[simp] theorem call_bind (c : I.Call) (next : I.Answer c → Program I α)
    (k : α → Program I β) :
    (Program.call c next >>= k) = .call c fun r => next r >>= k := rfl

@[simp] theorem pure_eq (a : α) : (pure a : Program I α) = .done a := rfl

@[simp] theorem perform_bind (c : I.Call) (k : I.Answer c → Program I β) :
    (perform c >>= k) = .call c k := rfl

/-- Nothing more is to be done. -/
theorem bind_done (p : Program I α) : p >>= .done = p := by
  induction p with
  | done a => rfl
  | call c next ih =>
      rw [call_bind]
      exact congrArg (Program.call c) (funext ih)

/-- Doing one thing after another is associative. -/
theorem bind_bind (p : Program I α) (k : α → Program I β)
    (l : β → Program I γ) : p >>= k >>= l = p >>= fun a => k a >>= l := by
  induction p with
  | done a => rfl
  | call c next ih =>
      simp only [call_bind]
      exact congrArg (Program.call c) (funext ih)

instance : LawfulMonad (Program I) :=
  LawfulMonad.mk' _ (fun p => bind_done p) (fun _ _ => rfl) bind_bind

/-- Every call the program can make is one of these. -/
def Uses (uses : I.Call → Prop) : Program I α → Prop
  | .done _ => True
  | .call c next => uses c ∧ ∀ r, (next r).Uses uses

/-- The calls of two programs, one after the other. -/
theorem Uses.bind {uses : I.Call → Prop} {p : Program I α}
    {k : α → Program I β} (h : p.Uses uses) (hk : ∀ a, (k a).Uses uses) :
    (p >>= k).Uses uses := by
  induction p with
  | done a => exact hk a
  | call c next ih => exact ⟨h.1, fun r => ih r (h.2 r)⟩

/-- More calls may be allowed. -/
theorem Uses.mono {uses uses' : I.Call → Prop} {p : Program I α}
    (h : p.Uses uses) (huses : ∀ c, uses c → uses' c) : p.Uses uses' := by
  induction p with
  | done a => exact trivial
  | call c next ih => exact ⟨huses c h.1, fun r => ih r (h.2 r)⟩

/-- Any program makes some calls. -/
theorem uses_all (p : Program I α) : p.Uses fun _ => True := by
  induction p with
  | done a => exact trivial
  | call c next ih => exact ⟨trivial, ih⟩

/-- The calls of either branch. -/
theorem Uses.ite {uses : I.Call → Prop} {b : Prop} [Decidable b]
    {p q : Program I α} (hp : p.Uses uses) (hq : q.Uses uses) :
    (if b then p else q).Uses uses := by
  by_cases hb : b
  · rw [if_pos hb]
    exact hp
  · rw [if_neg hb]
    exact hq

/-- Whatever its calls answer, this holds of what the program returns. -/
def Ends (post : α → Prop) : Program I α → Prop
  | .done a => post a
  | .call _ next => ∀ r, (next r).Ends post

/-- The second program starts from what the first ends with. -/
theorem Ends.bind {mid : α → Prop} {post : β → Prop} {p : Program I α}
    {k : α → Program I β} (h : p.Ends mid) (hk : ∀ a, mid a → (k a).Ends post) :
    (p >>= k).Ends post := by
  induction p with
  | done a => exact hk a h
  | call c next ih => exact fun r => ih r (h r)

/-- Either branch. -/
theorem Ends.ite {post : α → Prop} {b : Prop} [Decidable b]
    {p q : Program I α} (hp : p.Ends post) (hq : q.Ends post) :
    (if b then p else q).Ends post := by
  by_cases hb : b
  · rw [if_pos hb]
    exact hp
  · rw [if_neg hb]
    exact hq

/-- Any end will do. -/
theorem ends_all (p : Program I α) : p.Ends fun _ => True := by
  induction p with
  | done a => exact trivial
  | call c next ih => exact ih

end Program

-- ============================================================== runs

/-- What a call can answer in a state, and the state after it. -/
abbrev Effects (I : Interface) (σ : Type) :=
  (c : I.Call) → σ → I.Answer c → σ → Prop

/-- A program run by itself, to its end. -/
inductive Returns (effects : Effects I σ) :
    Program I α → σ → α → σ → Prop
  | done (a : α) (s : σ) : Returns effects (.done a) s a s
  | call {c : I.Call} {next : I.Answer c → Program I α}
      {r : I.Answer c} {a : α} {s s₁ s₂ : σ} (hc : effects c s r s₁)
      (h : Returns effects (next r) s₁ a s₂) :
      Returns effects (.call c next) s a s₂

/-- A run that returns, returns what the program ends with. -/
theorem Returns.ends {effects : Effects I σ} {p : Program I α} {s s' : σ}
    {a : α} {post : α → Prop} (hrun : Returns effects p s a s')
    (h : p.Ends post) : post a := by
  induction hrun with
  | done a s => exact h
  | call hc _ ih => exact ih (h _)

/-- What a program can have reached, run by itself and perhaps stopped. -/
inductive Visits (effects : Effects I σ) : Program I α → σ → σ → Prop
  | here (p : Program I α) (s : σ) : Visits effects p s s
  | call {c : I.Call} {next : I.Answer c → Program I α}
      {r : I.Answer c} {s s₁ s₂ : σ} (hc : effects c s r s₁)
      (h : Visits effects (next r) s₁ s₂) :
      Visits effects (.call c next) s s₂

/-- A run to the end is stopped there. -/
theorem Returns.visits {effects : Effects I σ} {p : Program I α} {s s' : σ}
    {a : α} (h : Returns effects p s a s') : Visits effects p s s' := by
  induction h with
  | done a s => exact .here _ _
  | call hc _ ih => exact .call hc ih

/-- A program run by itself and stopped: the calls it has made, and what
it had left to do. -/
inductive Stops (effects : Effects I σ) :
    Program I α → σ → List I.Call → Program I α → σ → Prop
  | here (p : Program I α) (s : σ) : Stops effects p s [] p s
  | call {c : I.Call} {next : I.Answer c → Program I α} {made : List I.Call}
      {rest : Program I α} {r : I.Answer c} {s s₁ s₂ : σ}
      (hc : effects c s r s₁) (h : Stops effects (next r) s₁ made rest s₂) :
      Stops effects (.call c next) s (c :: made) rest s₂

/-- A run in which every call has the answer it is given here. -/
def Program.eval (answers : (c : I.Call) → σ → I.Answer c × σ) :
    Program I α → σ → α × σ
  | .done a, s => (a, s)
  | .call c next, s => (next (answers c s).1).eval answers (answers c s).2

theorem Program.eval_returns {effects : Effects I σ}
    {answers : (c : I.Call) → σ → I.Answer c × σ}
    (h : ∀ c s, effects c s (answers c s).1 (answers c s).2)
    (p : Program I α) (s : σ) :
    Returns effects p s (p.eval answers s).1 (p.eval answers s).2 := by
  induction p generalizing s with
  | done a => exact .done a s
  | call c next ih => exact .call (h c s) (ih _ _)

/-- Every call of that run is one of these, in the state it is made in. -/
def Program.Along (allowed : I.Call → σ → Prop)
    (answers : (c : I.Call) → σ → I.Answer c × σ) : Program I α → σ → Prop
  | .done _, _ => True
  | .call c next, s => allowed c s
      ∧ (next (answers c s).1).Along allowed answers (answers c s).2

instance Program.decidableAlong {allowed : I.Call → σ → Prop}
    [∀ c s, Decidable (allowed c s)]
    {answers : (c : I.Call) → σ → I.Answer c × σ} :
    (p : Program I α) → (s : σ) → Decidable (p.Along allowed answers s)
  | .done _, _ => .isTrue trivial
  | .call c next, s =>
      have : Decidable ((next (answers c s).1).Along allowed answers
          (answers c s).2) := (next (answers c s).1).decidableAlong _
      inferInstanceAs (Decidable (allowed c s ∧ _))

/-- It is a run if the answers are what these calls can answer. -/
theorem Program.Along.returns {effects : Effects I σ}
    {allowed : I.Call → σ → Prop}
    {answers : (c : I.Call) → σ → I.Answer c × σ}
    (h : ∀ c s, allowed c s → effects c s (answers c s).1 (answers c s).2)
    {p : Program I α} {s : σ} (hp : p.Along allowed answers s) :
    Returns effects p s (p.eval answers s).1 (p.eval answers s).2 := by
  induction p generalizing s with
  | done a => exact .done a s
  | call c next ih => exact .call (h c s hp.1) (ih _ hp.2)

/-- Given rounds enough the program has a run from here, and every run of it
ends like this. -/
def Settles (effects : Effects I σ) (program : Nat → Program I α) (s : σ)
    (post : α → σ → Prop) : Prop :=
  ∃ bound, ∀ rounds, bound ≤ rounds →
    (∃ a s', Returns effects (program rounds) s a s')
      ∧ ∀ a s', Returns effects (program rounds) s a s' → post a s'

section Settles

variable {effects : Effects I σ} {program : Nat → Program I α} {s : σ}
  {post post' : α → σ → Prop}

/-- A weaker postcondition. -/
theorem Settles.mono (h : Settles effects program s post)
    (hpost : ∀ a s', post a s' → post' a s') :
    Settles effects program s post' := by
  obtain ⟨n, hn⟩ := h
  refine ⟨n, fun rounds hrounds => ⟨(hn rounds hrounds).1, fun a s' hrun => ?_⟩⟩
  exact hpost a s' ((hn rounds hrounds).2 a s' hrun)

/-- Two things that every run ends in, a run ends in both. -/
theorem Settles.exists (h : Settles effects program s post)
    (h' : Settles effects program s post') : ∃ a s', post a s' ∧ post' a s' := by
  obtain ⟨n, hn⟩ := h
  obtain ⟨m, hm⟩ := h'
  obtain ⟨⟨a, s', hrun⟩, hpost⟩ := hn (max n m) (Nat.le_max_left n m)
  refine ⟨a, s', hpost a s' hrun, ?_⟩
  exact (hm (max n m) (Nat.le_max_right n m)).2 a s' hrun

end Settles

/-- What is left after `n` calls, each with the answer it is given here. -/
def Program.after (answers : (c : I.Call) → σ → I.Answer c × σ) :
    Nat → Program I α → σ → Program I α × σ
  | 0, p, s => (p, s)
  | _ + 1, .done a, s => (.done a, s)
  | n + 1, .call c next, s =>
      (next (answers c s).1).after answers n (answers c s).2

/-- A program that ended was stopped with nothing left to do. -/
theorem Returns.stops {effects : Effects I σ} {p : Program I α} {s s' : σ}
    {a : α} (h : Returns effects p s a s') :
    ∃ made, Stops effects p s made (.done a) s' := by
  induction h with
  | done a s => exact ⟨[], .here _ s⟩
  | call hc _ ih =>
      obtain ⟨made, hrest⟩ := ih
      exact ⟨_ :: made, .call hc hrest⟩

/-- A run of two programs is a run of each. -/
theorem Returns.bind_inv {effects : Effects I σ} {p : Program I α}
    {k : α → Program I β} {s s' : σ} {b : β}
    (h : Returns effects (p >>= k) s b s') :
    ∃ a s₁, Returns effects p s a s₁ ∧ Returns effects (k a) s₁ b s' := by
  induction p generalizing s with
  | done a => exact ⟨a, s, .done a s, h⟩
  | call c next ih =>
      cases h with
      | call hc h =>
          obtain ⟨a, s₁, hnext, hrest⟩ := ih _ h
          exact ⟨a, s₁, .call hc hnext, hrest⟩

/-- What each of a program's calls keeps, the program keeps. -/
theorem Returns.keeps {effects : Effects I σ} {uses : I.Call → Prop}
    {i : σ → Prop}
    (hkeeps : ∀ c s r s', uses c → i s → effects c s r s' → i s')
    {p : Program I α} {s s' : σ} {a : α} (h : Returns effects p s a s')
    (hp : p.Uses uses) (hs : i s) : i s' := by
  induction h with
  | done a s => exact hs
  | call hc _ ih => exact ih (hp.2 _) (hkeeps _ _ _ _ hp.1 hs hc)

/-- What every call keeps holds wherever the run is stopped. -/
theorem Visits.keeps {effects : Effects I σ} {uses : I.Call → Prop}
    {i : σ → Prop}
    (hkeeps : ∀ c s r s', uses c → i s → effects c s r s' → i s')
    {p : Program I α} {s s' : σ} (h : Visits effects p s s')
    (hp : p.Uses uses) (hs : i s) : i s' := by
  induction h with
  | here p s => exact hs
  | call hc _ ih => exact ih (hp.2 _) (hkeeps _ _ _ _ hp.1 hs hc)

/-- The threads that were started, and what each has left to do. -/
abbrev Pool (τ : Type) (I : Interface) (α : τ → Type) :=
  (t : τ) → Option (Program I (α t))

variable {ρ : τ → Type}

/-- Thread `t` makes its next call, `c`. -/
inductive Moves [DecidableEq τ] (effects : τ → Effects I σ) (t : τ)
    (c : I.Call) : Pool τ I ρ → σ → Pool τ I ρ → σ → Prop
  | step {pool : Pool τ I ρ} {next : I.Answer c → Program I (ρ t)}
      {r : I.Answer c} {s s' : σ} (hnext : pool t = some (.call c next))
      (hc : effects t c s r s') :
      Moves effects t c pool s (Function.update pool t (some (next r))) s'

/-- Threads making their calls one after another, in any order. -/
inductive Runs [DecidableEq τ] (effects : τ → Effects I σ)
    (pool : Pool τ I ρ) (s : σ) : Pool τ I ρ → σ → Prop
  | refl : Runs effects pool s pool s
  | tail {t : τ} {c : I.Call} {pool' pool'' : Pool τ I ρ} {s' s'' : σ}
      (h : Runs effects pool s pool' s')
      (hmove : Moves effects t c pool' s' pool'' s'') :
      Runs effects pool s pool'' s''

/-- Whatever the others have done, thread `t` can run to its end. -/
theorem Runs.eval [DecidableEq τ] {effects : τ → Effects I σ} {t : τ}
    {answers : (c : I.Call) → σ → I.Answer c × σ}
    (h : ∀ c s, effects t c s (answers c s).1 (answers c s).2)
    {pool₀ pool : Pool τ I ρ} {s₀ s : σ} {p : Program I (ρ t)}
    (hrun : Runs effects pool₀ s₀ pool s) (hp : pool t = some p) :
    Runs effects pool₀ s₀
      (Function.update pool t (some (.done (p.eval answers s).1)))
      (p.eval answers s).2 := by
  induction p generalizing pool s with
  | done a =>
      have hsame : Function.update pool t (some (.done a)) = pool := by
        rw [← hp, Function.update_eq_self]
      rw [Program.eval, hsame]
      exact hrun
  | call c next ih =>
      have hrest := ih _ (hrun.tail (.step hp (h c s))) (Function.update_self ..)
      rw [Function.update_idem] at hrest
      exact hrest

/-- Thread `t` making `n` calls, as many as it has. -/
theorem Runs.after [DecidableEq τ] {effects : τ → Effects I σ} {t : τ}
    {answers : (c : I.Call) → σ → I.Answer c × σ}
    (h : ∀ c s, effects t c s (answers c s).1 (answers c s).2) (n : Nat)
    {pool₀ pool : Pool τ I ρ} {s₀ s : σ} {p : Program I (ρ t)}
    (hrun : Runs effects pool₀ s₀ pool s) (hp : pool t = some p) :
    Runs effects pool₀ s₀
      (Function.update pool t (some (p.after answers n s).1))
      (p.after answers n s).2 := by
  have hsame : Function.update pool t (some p) = pool := by
    rw [← hp, Function.update_eq_self]
  induction n generalizing pool p s with
  | zero =>
      rw [Program.after, hsame]
      exact hrun
  | succ n ih =>
      cases p with
      | done a =>
          rw [Program.after, hsame]
          exact hrun
      | call c next =>
          have hstep := hrun.tail (.step hp (h c s))
          have hrest := ih hstep (Function.update_self ..)
            (by rw [Function.update_idem])
          rw [Function.update_idem] at hrest
          exact hrest

-- ================================================== rely and guarantee

/-- What threads that share a state promise each other. -/
structure Protocol (τ : Type) (I : Interface) (σ : Type) where
  inv : σ → Prop
  rely : τ → σ → σ → Prop
  guar : τ → I.Call → σ → σ → Prop
  rely_refl : ∀ t s, rely t s s
  rely_trans : ∀ {t s₁ s₂ s₃}, rely t s₁ s₂ → rely t s₂ s₃ → rely t s₁ s₃
  compat : ∀ {t u c s s'}, u ≠ t → guar t c s s' → rely u s s'

/-- One thread, and nobody it shares the state with. -/
def Protocol.alone (inv : σ → Prop) : Protocol Unit I σ where
  inv := inv
  rely _ s s' := s' = s
  guar _ _ _ _ := True
  rely_refl _ _ := rfl
  rely_trans h h' := h'.trans h
  compat h _ := absurd (Subsingleton.elim _ _) h

variable (P : Protocol τ I σ) (effects : τ → Effects I σ) (t : τ)

/-- Whatever the others do in the meantime, the program keeps the
protocol and ends in its postcondition. -/
def Safe (post : α → σ → Prop) : Program I α → σ → Prop
  | .done a, s => ∀ s', P.inv s' → P.rely t s s' → post a s'
  | .call c next, s => ∀ s', P.inv s' → P.rely t s s' →
      ∀ r s'', effects t c s' r s'' →
        P.inv s'' ∧ P.guar t c s' s'' ∧ Safe post (next r) s''

/-- The others do not falsify the assertion. -/
def Stable (pre : σ → Prop) : Prop :=
  ∀ s s', P.inv s → P.inv s' → P.rely t s s' → pre s → pre s'

/-- The program is safe wherever its precondition holds. -/
def Triple (pre : σ → Prop) (p : Program I α) (post : α → σ → Prop) : Prop :=
  ∀ s, P.inv s → pre s → Safe P effects t post p s

variable {P effects t} {pre pre' : σ → Prop} {post post' : α → σ → Prop}

/-- What the others do before the thread's next step changes nothing. -/
theorem Safe.rely {p : Program I α} {s s' : σ}
    (h : Safe P effects t post p s) (hrely : P.rely t s s') :
    Safe P effects t post p s' := by
  cases p with
  | done a => exact fun s'' hinv hr => h s'' hinv (P.rely_trans hrely hr)
  | call c next =>
      exact fun s'' hinv hr => h s'' hinv (P.rely_trans hrely hr)

/-- A weaker postcondition. -/
theorem Safe.mono {p : Program I α} {s : σ}
    (h : Safe P effects t post p s)
    (hpost : ∀ a s, P.inv s → post a s → post' a s) :
    Safe P effects t post' p s := by
  induction p generalizing s with
  | done a => exact fun s' hinv hr => hpost a s' hinv (h s' hinv hr)
  | call c next ih =>
      intro s' hinv hr r s'' hc
      obtain ⟨hinv', hguar, hnext⟩ := h s' hinv hr r s'' hc
      exact ⟨hinv', hguar, ih r hnext⟩

/-- What a thread is safe from depends on its own calls only. -/
theorem Safe.congr {effects' : τ → Effects I σ} (he : effects t = effects' t)
    {p : Program I α} {s : σ} (h : Safe P effects t post p s) :
    Safe P effects' t post p s := by
  induction p generalizing s with
  | done a => exact h
  | call c next ih =>
      intro s' hinv hr r s'' hc
      rw [← he] at hc
      obtain ⟨hinv', hguar, hnext⟩ := h s' hinv hr r s'' hc
      exact ⟨hinv', hguar, ih r hnext⟩

/-- The second program starts where the first is safe. -/
theorem Safe.bind {p : Program I α} {k : α → Program I β}
    {post : β → σ → Prop} {mid : α → σ → Prop} {s : σ} (hinv : P.inv s)
    (h : Safe P effects t mid p s)
    (hk : ∀ a, Triple P effects t (mid a) (k a) post) :
    Safe P effects t post (p >>= k) s := by
  induction p generalizing s with
  | done a => exact hk a s hinv (h s hinv (P.rely_refl t s))
  | call c next ih =>
      intro s' hinv' hr r s'' hc
      obtain ⟨hinv'', hguar, hnext⟩ := h s' hinv' hr r s'' hc
      exact ⟨hinv'', hguar, ih r hinv'' hnext⟩

namespace Stable

/-- Both stay as they are. -/
theorem and (h : Stable P t pre) (h' : Stable P t pre') :
    Stable P t fun s => pre s ∧ pre' s :=
  fun s s' hi hi' hr hpre =>
    ⟨h s s' hi hi' hr hpre.1, h' s s' hi hi' hr hpre.2⟩

/-- Either stays as it is. -/
theorem or (h : Stable P t pre) (h' : Stable P t pre') :
    Stable P t fun s => pre s ∨ pre' s := by
  intro s s' hi hi' hr hpre
  rcases hpre with hpre | hpre
  · exact .inl (h s s' hi hi' hr hpre)
  · exact .inr (h' s s' hi hi' hr hpre)

/-- What some instance says stays, if each of them does. -/
theorem exists_ {ι : Type} {pre : ι → σ → Prop}
    (h : ∀ i, Stable P t (pre i)) : Stable P t fun s => ∃ i, pre i s := by
  rintro s s' hi hi' hr ⟨i, hpre⟩
  exact ⟨i, h i s s' hi hi' hr hpre⟩

/-- Alone, nothing is disturbed. -/
theorem alone {inv : σ → Prop} {pre : σ → Prop} :
    Stable (I := I) (Protocol.alone inv) () pre := by
  intro s s' _ _ hr hpre
  rw [show s' = s from hr]
  exact hpre

end Stable

namespace Triple

/-- A program with nothing left to do. -/
theorem done (hstable : Stable P t pre) {a : α}
    (h : ∀ s, P.inv s → pre s → post a s) :
    Triple P effects t pre (.done a) post :=
  fun s hinv hpre s' hinv' hr => h s' hinv' (hstable s s' hinv hinv' hr hpre)

/-- A program with a call to make. -/
theorem call {c : I.Call} {next : I.Answer c → Program I α}
    {m : I.Answer c → σ → Prop} (hstable : Stable P t pre)
    (hc : ∀ s r s', P.inv s → pre s → effects t c s r s' →
      P.inv s' ∧ P.guar t c s s' ∧ m r s')
    (hnext : ∀ r, Triple P effects t (m r) (next r) post) :
    Triple P effects t pre (.call c next) post := by
  intro s hinv hpre s' hinv' hr r s'' heffect
  obtain ⟨hinv'', hguar, hmid⟩ := hc s' r s'' hinv'
    (hstable s s' hinv hinv' hr hpre) heffect
  exact ⟨hinv'', hguar, hnext r s'' hinv'' hmid⟩

/-- One program after another. -/
theorem bind {p : Program I α} {k : α → Program I β} {mid : α → σ → Prop}
    {post : β → σ → Prop} (hp : Triple P effects t pre p mid)
    (hk : ∀ a, Triple P effects t (mid a) (k a) post) :
    Triple P effects t pre (p >>= k) post :=
  fun s hinv hpre => Safe.bind hinv (hp s hinv hpre) hk

/-- A stronger precondition. -/
theorem weaken {p : Program I α} (h : Triple P effects t pre' p post)
    (hpre : ∀ s, P.inv s → pre s → pre' s) :
    Triple P effects t pre p post :=
  fun s hinv hs => h s hinv (hpre s hinv hs)

/-- A weaker postcondition. -/
theorem strengthen {p : Program I α} (h : Triple P effects t pre p post)
    (hpost : ∀ a s, P.inv s → post a s → post' a s) :
    Triple P effects t pre p post' :=
  fun s hinv hs => (h s hinv hs).mono hpost

/-- Renaming the answers of a program. -/
theorem map {p : Program I α} {f : α → β} {post : β → σ → Prop}
    (h : Triple P effects t pre p fun a s => post (f a) s) :
    Triple P effects t pre (p >>= fun a => .done (f a)) post := by
  intro s hinv hs
  have hsafe := h s hinv hs
  clear h hs
  induction p generalizing s with
  | done a => exact hsafe
  | call c next ih =>
      intro s' hinv' hr r s'' hc
      obtain ⟨hinv'', hguar, hnext⟩ := hsafe s' hinv' hr r s'' hc
      exact ⟨hinv'', hguar, ih r s'' hinv'' hnext⟩

/-- What the precondition says of no state is at hand. -/
theorem given {p : Program I α} {q : Prop}
    (h : q → Triple P effects t pre p post) :
    Triple P effects t (fun s => q ∧ pre s) p post :=
  fun s hinv hs => h hs.1 s hinv hs.2

/-- A precondition for each of its instances. -/
theorem given_exists {p : Program I α} {ι : Type} {pre : ι → σ → Prop}
    (h : ∀ i, Triple P effects t (pre i) p post) :
    Triple P effects t (fun s => ∃ i, pre i s) p post :=
  fun s hinv ⟨i, hs⟩ => h i s hinv hs

/-- Alone, a program keeps the invariant and ends in its
postcondition. -/
theorem returns {p : Program I α} (h : Triple P effects t pre p post) {s s' : σ}
    {a : α} (hinv : P.inv s) (hpre : pre s)
    (hrun : Returns (effects t) p s a s') : P.inv s' ∧ post a s' := by
  have hsafe := h s hinv hpre
  clear h hpre
  induction hrun with
  | done a s => exact ⟨hinv, hsafe s hinv (P.rely_refl t s)⟩
  | call hc _ ih =>
      obtain ⟨hinv', -, hnext⟩ := hsafe _ hinv (P.rely_refl t _) _ _ hc
      exact ih hinv' hnext

/-- Alone, a program keeps the invariant also where it is stopped. -/
theorem visits {p : Program I α} (h : Triple P effects t pre p post) {s s' : σ}
    (hinv : P.inv s) (hpre : pre s) (hrun : Visits (effects t) p s s') :
    P.inv s' := by
  have hsafe := h s hinv hpre
  clear h hpre
  induction hrun with
  | here p s => exact hinv
  | call hc _ ih =>
      obtain ⟨hinv', -, hnext⟩ := hsafe _ hinv (P.rely_refl t _) _ _ hc
      exact ih hinv' hnext

end Triple

-- ============================================================== pools

/-- The state is sound and every started thread safe from it. -/
structure Pool.Sound (P : Protocol τ I σ) (effects : τ → Effects I σ)
    (post : (t : τ) → ρ t → σ → Prop) (pool : Pool τ I ρ) (s : σ) : Prop where
  inv : P.inv s
  safe : ∀ t p, pool t = some p → Safe P effects t (post t) p s

variable {post : (t : τ) → ρ t → σ → Prop} {pool pool' : Pool τ I ρ}
  {s s' : σ}

/-- A call of one thread keeps every thread safe, and keeps its
guarantee. -/
theorem Moves.sound [DecidableEq τ] {c : I.Call}
    (hmove : Moves effects t c pool s pool' s')
    (h : pool.Sound P effects post s) :
    pool'.Sound P effects post s' ∧ P.guar t c s s' := by
  cases hmove with
  | step hnext hc =>
      obtain ⟨hinv', hguar, hrest⟩ := h.safe t _ hnext s h.inv
        (P.rely_refl t s) _ _ hc
      refine ⟨⟨hinv', fun u p hp => ?_⟩, hguar⟩
      by_cases hu : u = t
      · subst hu
        rw [Function.update_self] at hp
        cases hp
        exact hrest
      · rw [Function.update_of_ne hu] at hp
        exact (h.safe u p hp).rely (P.compat hu hguar)

/-- A thread that was not started after a step was not before it. -/
theorem unstarted [DecidableEq τ] {p : Program I (ρ t)} {u : τ}
    (h : Function.update pool t (some p) u = none) : u ≠ t ∧ pool u = none := by
  by_cases hu : u = t
  · subst hu
    rw [Function.update_self] at h
    cases h
  · rw [Function.update_of_ne hu] at h
    exact ⟨hu, h⟩

/-- A thread that has not started does not move. -/
theorem Moves.unstarted [DecidableEq τ] {c : I.Call} {u : τ}
    (hmove : Moves effects t c pool s pool' s') (h : pool' u = none) :
    u ≠ t ∧ pool u = none := by
  cases hmove with
  | step _ _ => exact Concurrent.unstarted h

/-- A thread that has not started at the end had not at the beginning. -/
theorem Runs.unstarted [DecidableEq τ] (hrun : Runs effects pool s pool' s')
    {u : τ} (h : pool' u = none) : pool u = none := by
  induction hrun with
  | refl => exact h
  | tail _ hmove ih => exact ih (hmove.unstarted h).2

/-- Any number of calls keep every thread safe. -/
theorem Runs.sound [DecidableEq τ] (hrun : Runs effects pool s pool' s')
    (h : pool.Sound P effects post s) : pool'.Sound P effects post s' := by
  induction hrun with
  | refl => exact h
  | tail _ hmove ih => exact (hmove.sound ih).1

/-- A finished thread of a sound pool satisfies its postcondition. -/
theorem Pool.Sound.ended (h : pool.Sound P effects post s) {a : ρ t}
    (hdone : pool t = some (.done a)) : post t a s :=
  h.safe t _ hdone s h.inv (P.rely_refl t s)

/-- Starting a thread. -/
theorem Pool.Sound.start [DecidableEq τ] (h : pool.Sound P effects post s)
    {p : Program I (ρ t)} (hp : Safe P effects t (post t) p s) :
    Pool.Sound P effects post (Function.update pool t (some p)) s := by
  refine ⟨h.inv, fun u q hq => ?_⟩
  by_cases hu : u = t
  · subst hu
    rw [Function.update_self] at hq
    cases hq
    exact hp
  · rw [Function.update_of_ne hu] at hq
    exact h.safe u q hq

end Concurrent
