/-
One SQLite connection used by several threads, call by call.

A transaction belongs to the connection. What keeps a thread's
transaction its own is only that no other thread steps a statement,
commits or rolls back while it is open; a call that does so `Intrudes`. This file states the connection's calls (`Link.Acts`), keeps
the account of who opened the transaction and who changed the committed
store (`Shared`), and gives the rules by which a thread's transaction is
verified among threads that do not intrude: what it saw when it began is
what it commits onto, and nothing of it remains unless its `COMMIT`
succeeded.

A failing call leaves the transaction open or, as SQLite may on some
errors, drops it. Calls that are none of SQLite's go through a second
interface and touch no connection.
-/
import PhotoBridge.Lib.Concurrent

namespace SharedConnection

open Concurrent

-- ======================================================== the connection

/-- The statements a program prepares: the rows they answer, and what
they do to the store with the number of rows they changed. -/
structure Statements (δ ε : Type) where
  Query : Type
  Row : Query → Type
  writes : Query → Bool
  run : (q : Query) → δ → Except ε (Row q × Nat × δ)
  run_read : ∀ {q s row n s'}, writes q = false →
    run q s = .ok (row, n, s') → s' = s

/-- The calls on a connection: `sqlite3_exec` of the three bracket
statements, `sqlite3_prepare`, `sqlite3_step`, `sqlite3_changes` and
`sqlite3_errmsg`. -/
inductive SqlCall (Query : Type)
  | begin
  | commit
  | rollback
  | prepare
  | step (q : Query)
  | changes
  | errmsg

variable {δ ε φ τ α : Type}

/-- A bracket or a preparation answers its error, if there is one. -/
abbrev SqlCall.Answer (S : Statements δ ε) : SqlCall S.Query → Type
  | .begin => Option ε
  | .commit => Option ε
  | .rollback => Option ε
  | .prepare => Option ε
  | .step q => Except ε (S.Row q)
  | .changes => Nat
  | .errmsg => ε

/-- The connection as all its threads have it. -/
structure Link (δ : Type) where
  committed : δ
  /-- The working copy, while a transaction is open. -/
  txn : Option δ
  /-- What `sqlite3_changes` answers. -/
  changes : Nat

namespace Link

/-- The store a statement works on. -/
def view (l : Link δ) : δ := l.txn.getD l.committed

/-- After a writing statement left the store `s`. -/
def store (l : Link δ) (n : Nat) (s : δ) : Link δ :=
  match l.txn with
  | some _ => { l with txn := some s, changes := n }
  | none => { l with committed := s, changes := n }

/-- The transaction is gone. -/
def dropped (l : Link δ) : Link δ := { l with txn := none }

/-- What a call that fails can leave. -/
def Failed (l l' : Link δ) : Prop := l' = l ∨ l' = l.dropped

/-- What a call answers and leaves. With `quiet` no call fails but for
what the connection itself refuses. -/
def Acts (S : Statements δ ε) (quiet : Bool) :
    (c : SqlCall S.Query) → Link δ → c.Answer S → Link δ → Prop
  | .begin, l, r, l' =>
      l.txn = none ∧ r = none ∧ l' = { l with txn := some l.committed }
        ∨ r ≠ none ∧ l' = l ∧ (l.txn ≠ none ∨ quiet = false)
  | .commit, l, r, l' =>
      (∃ s, l.txn = some s ∧ r = none
          ∧ l' = { l with committed := s, txn := none })
        ∨ r ≠ none ∧ (l.txn = none ∧ l' = l ∨ quiet = false ∧ l.Failed l')
  | .rollback, l, _, l' => l' = l.dropped
  | .prepare, l, r, l' => l' = l ∧ (r ≠ none → quiet = false)
  | .step q, l, r, l' =>
      (∃ row n s, S.run q l.view = .ok (row, n, s) ∧ r = .ok row
          ∧ l' = if S.writes q then l.store n s else l)
        ∨ ∃ e, r = .error e
          ∧ (S.run q l.view = .error e ∧ l' = l
            ∨ quiet = false ∧ l.Failed l')
  | .changes, l, r, l' => r = l.changes ∧ l' = l
  | .errmsg, l, _, l' => l' = l

/-- The answer of a call where nothing fails, with one message for
whatever the connection refuses. -/
def answers (S : Statements δ ε) (refusal : ε) :
    (c : SqlCall S.Query) → Link δ → c.Answer S × Link δ
  | .begin, l =>
      match l.txn with
      | none => (none, { l with txn := some l.committed })
      | some _ => (some refusal, l)
  | .commit, l =>
      match l.txn with
      | none => (some refusal, l)
      | some s => (none, { l with committed := s, txn := none })
  | .rollback, l => (none, l.dropped)
  | .prepare, l => (none, l)
  | .step q, l =>
      match S.run q l.view with
      | .error e => (.error e, l)
      | .ok (row, n, s) => (.ok row, if S.writes q then l.store n s else l)
  | .changes, l => (l.changes, l)
  | .errmsg, l => (refusal, l)

/-- An answer is always one the connection may give. -/
theorem answers_acts (S : Statements δ ε) (quiet : Bool) (refusal : ε)
    (c : SqlCall S.Query) (l : Link δ) :
    Acts S quiet c l (l.answers S refusal c).1 (l.answers S refusal c).2 := by
  cases c with
  | begin =>
      cases htxn : l.txn with
      | none => simp [answers, Acts, htxn]
      | some s => simp [answers, Acts, htxn]
  | commit =>
      cases htxn : l.txn with
      | none => simp [answers, Acts, htxn]
      | some s => simp [answers, Acts, htxn]
  | rollback => rfl
  | prepare => exact ⟨rfl, fun h => absurd rfl h⟩
  | step q =>
      cases hrun : S.run q l.view with
      | error e => simp [answers, Acts, hrun]
      | ok p =>
          obtain ⟨row, n, s⟩ := p
          refine .inl ⟨row, n, s, hrun, ?_, ?_⟩
          · simp only [answers, hrun]
          · simp only [answers, hrun]
  | changes => exact ⟨rfl, rfl⟩
  | errmsg => rfl

section Quiet

variable {S : Statements δ ε} {l l' : Link δ}

/-- Where nothing fails, `BEGIN` outside a transaction opens one. -/
theorem Acts.quiet_begin {r : Option ε} (h : Acts S true .begin l r l')
    (hl : l.txn = none) :
    r = none ∧ l' = { l with txn := some l.committed } := by
  rcases h with ⟨-, hr, hl'⟩ | ⟨-, -, hwhy⟩
  · exact ⟨hr, hl'⟩
  · rcases hwhy with hopen | hquiet
    · exact absurd hl hopen
    · cases hquiet

/-- Preparing succeeds where nothing fails. -/
theorem Acts.quiet_prepare {r : Option ε} (h : Acts S true .prepare l r l') :
    r = none ∧ l' = l := by
  refine ⟨?_, h.1⟩
  by_cases hr : r = none
  · exact hr
  · cases h.2 hr

/-- A statement has its effect where nothing fails. -/
theorem Acts.quiet_step {q : S.Query} {r : Except ε (S.Row q)} {row : S.Row q}
    {n : Nat} {s : δ} (h : Acts S true (.step q) l r l')
    (hrun : S.run q l.view = .ok (row, n, s)) :
    r = .ok row ∧ l' = if S.writes q then l.store n s else l := by
  rcases h with ⟨row', n', s', hrun', hr, hl'⟩ | ⟨e, -, ⟨hrun', -⟩ | ⟨hquiet, -⟩⟩
  · rw [hrun] at hrun'
    cases hrun'
    exact ⟨hr, hl'⟩
  · rw [hrun] at hrun'
    cases hrun'
  · cases hquiet

/-- A commit succeeds where nothing fails. -/
theorem Acts.quiet_commit {r : Option ε} {s : δ}
    (h : Acts S true .commit l r l') (hl : l.txn = some s) : r = none := by
  rcases h with ⟨_, -, hr, -⟩ | ⟨-, ⟨hnone, -⟩ | ⟨hquiet, -⟩⟩
  · exact hr
  · rw [hl] at hnone
    cases hnone
  · cases hquiet

end Quiet

end Link

-- ============================================================ the account

/-- The connection with an account of it that no call looks at. -/
structure Shared (τ δ φ : Type) where
  link : Link δ
  /-- Who opened the transaction. -/
  owner : Option τ
  /-- The changes of the committed store, the latest first: by whom, from
  what, to what. -/
  commits : List (τ × δ × δ)
  /-- What the other calls work on. -/
  outside : φ

/-- SQLite's calls and others. -/
abbrev interface (S : Statements δ ε) (E : Interface) : Interface where
  Call := SqlCall S.Query ⊕ E.Call
  Answer
    | .inl c => c.Answer S
    | .inr c => E.Answer c

/-- The call changed the committed store. -/
def Publishes (S : Statements δ ε) (l : Link δ) :
    (c : SqlCall S.Query) → c.Answer S → Bool
  | .commit, r => r.isNone
  | .step q, r => S.writes q && l.txn.isNone && r.isOk
  | _, _ => false

/-- Whose transaction it is after a call of `t`. -/
def ownerAfter (t : τ) (owner : Option τ) (l l' : Link δ) : Option τ :=
  match l'.txn, l.txn with
  | none, _ => none
  | some _, some _ => owner
  | some _, none => some t

variable {S : Statements δ ε} {E : Interface}

/-- The call of thread `t` reaches into a transaction that another thread
opened. -/
def Intrudes (t : τ) (w : Shared τ δ φ) : (interface S E).Call → Prop
  | .inl .commit => w.link.txn ≠ none ∧ w.owner ≠ some t
  | .inl .rollback => w.link.txn ≠ none ∧ w.owner ≠ some t
  | .inl (.step _) => w.link.txn ≠ none ∧ w.owner ≠ some t
  | _ => False

/-- What a call of thread `t` answers and leaves. -/
def Shared.Acts (S : Statements δ ε) (quiet : Bool) (outside : Effects E φ)
    (t : τ) : Effects (interface S E) (Shared τ δ φ)
  | .inl c, w, r, w' =>
      w.link.Acts S quiet c r w'.link
        ∧ w'.owner = ownerAfter t w.owner w.link w'.link
        ∧ w'.commits = (if Publishes S w.link c r then
            [(t, w.link.committed, w'.link.committed)] else []) ++ w.commits
        ∧ w'.outside = w.outside
  | .inr c, w, r, w' =>
      outside c w.outside r w'.outside ∧ w'.link = w.link
        ∧ w'.owner = w.owner ∧ w'.commits = w.commits

/-- A run that goes on with a call on the connection. -/
theorem Returns.onConnection {quiet : Bool} {outside : Effects E φ} {t : τ}
    {c : SqlCall S.Query} {next : c.Answer S → Program (interface S E) α}
    {w w' : Shared τ δ φ} {a : α}
    (h : Returns (Shared.Acts S quiet outside t) (.call (.inl c) next) w a w') :
    ∃ r w₁, w.link.Acts S quiet c r w₁.link
      ∧ Returns (Shared.Acts S quiet outside t) (next r) w₁ a w' := by
  cases h with
  | call hact h => exact ⟨_, _, hact.1, h⟩

/-- A call of thread `t` where nothing fails. -/
def Shared.answers (S : Statements δ ε) (refusal : ε)
    (outside : (c : E.Call) → φ → E.Answer c × φ) (t : τ) :
    (c : (interface S E).Call) → Shared τ δ φ →
      (interface S E).Answer c × Shared τ δ φ
  | .inl c, w =>
      let p := w.link.answers S refusal c
      (p.1, {
        link := p.2
        owner := ownerAfter t w.owner w.link p.2
        commits := (if Publishes S w.link c p.1 then
          [(t, w.link.committed, p.2.committed)] else []) ++ w.commits
        outside := w.outside })
  | .inr c, w =>
      let p := outside c w.outside
      (p.1, { w with outside := p.2 })

/-- The same of the connection's calls and of those outside. -/
theorem Shared.answers_acts {S : Statements δ ε} {quiet : Bool} {refusal : ε}
    {effects : Effects E φ} {outside : (c : E.Call) → φ → E.Answer c × φ}
    (houtside : ∀ c s, effects c s (outside c s).1 (outside c s).2) {t : τ}
    (c : (interface S E).Call) (w : Shared τ δ φ) :
    Shared.Acts S quiet effects t c w
      (Shared.answers S refusal outside t c w).1
      (Shared.answers S refusal outside t c w).2 := by
  cases c with
  | inl c => exact ⟨Link.answers_acts S quiet refusal c w.link, rfl, rfl, rfl⟩
  | inr c => exact ⟨houtside c w.outside, rfl, rfl, rfl⟩

/-- The same among threads that do not intrude. -/
def isolated (S : Statements δ ε) (quiet : Bool) (outside : Effects E φ)
    (t : τ) : Effects (interface S E) (Shared τ δ φ) :=
  fun c w r w' => ¬Intrudes t w c ∧ Shared.Acts S quiet outside t c w r w'

/-- The account adds up: each change starts where the one before it
ended, from `init` on, and the last one ended in the committed store. -/
def Chain (init : δ) : List (τ × δ × δ) → δ → Prop
  | [], s => s = init
  | (_, a, b) :: rest, s => s = b ∧ Chain init rest a

/-- The account is that of the connection. -/
structure Shared.Kept (init : δ) (w : Shared τ δ φ) : Prop where
  owner : w.link.txn ≠ none ↔ w.owner ≠ none
  chain : Chain init w.commits w.link.committed

/-- The committed store was `s` once. -/
def Shared.Seen (init : δ) (w : Shared τ δ φ) (s : δ) : Prop :=
  s = init ∨ ∃ made ∈ w.commits, made.2.2 = s

variable {quiet : Bool} {outside : Effects E φ} {t u : τ}
  {w w' : Shared τ δ φ} {init : δ}

/-- The account after a call that leaves the connection as it is. -/
theorem ownerAfter_self (hkept : w.Kept init) :
    ownerAfter t w.owner w.link w.link = w.owner := by
  unfold ownerAfter
  cases htxn : w.link.txn with
  | none =>
      by_cases ho : w.owner = none
      · exact ho.symm
      · exact absurd htxn (hkept.owner.2 ho)
  | some s => rfl

/-- What was seen stays seen. -/
theorem Shared.Seen.grows {a : δ} (h : w.Seen init a)
    (hgrows : w.commits <:+ w'.commits) : w'.Seen init a := by
  rcases h with h | ⟨made, hmem, h⟩
  · exact .inl h
  · exact .inr ⟨made, hgrows.subset hmem, h⟩

/-- The account only grows. -/
theorem Shared.Acts.grows {c : (interface S E).Call}
    {r : (interface S E).Answer c}
    (h : Shared.Acts S quiet outside t c w r w') :
    w.commits <:+ w'.commits := by
  cases c with
  | inl c =>
      obtain ⟨-, -, hcommits, -⟩ := h
      exact ⟨_, hcommits.symm⟩
  | inr c =>
      obtain ⟨-, -, -, hcommits⟩ := h
      simp [hcommits]

/-- A connection nobody has used yet. -/
def Shared.fresh (link : Link δ) (outside : φ) : Shared τ δ φ where
  link := link
  owner := none
  commits := []
  outside := outside

/-- Only thread `t` ever used the connection. -/
structure Shared.Alone (t : τ) (w : Shared τ δ φ) : Prop where
  owner : ∀ u, w.owner = some u → u = t
  commits : ∀ made ∈ w.commits, made.1 = t

/-- A thread that is alone stays so. -/
theorem Shared.Acts.alone {c : (interface S E).Call}
    {r : (interface S E).Answer c}
    (h : Shared.Acts S quiet outside t c w r w') (ha : w.Alone t) :
    w'.Alone t := by
  cases c with
  | inr c =>
      obtain ⟨-, -, howner, hcommits⟩ := h
      exact ⟨by rw [howner]; exact ha.owner, by
        rw [hcommits]
        exact ha.commits⟩
  | inl c =>
      obtain ⟨-, howner, hcommits, -⟩ := h
      constructor
      · intro u hu
        rw [howner] at hu
        unfold ownerAfter at hu
        split at hu
        · cases hu
        · exact ha.owner u hu
        · exact (Option.some.inj hu).symm
      · intro made hmem
        rw [hcommits] at hmem
        rcases List.mem_append.1 hmem with hmem | hmem
        · split at hmem
          · rw [List.mem_singleton.1 hmem]
          · cases hmem
        · exact ha.commits made hmem

/-- A thread alone on the connection intrudes on nobody. -/
theorem Shared.Alone.not_intrudes {c : (interface S E).Call}
    (ha : w.Alone t) (hkept : w.Kept init) : ¬Intrudes t w c := by
  have hmine : w.link.txn ≠ none → w.owner = some t := by
    intro hopen
    cases ho : w.owner with
    | none => exact absurd ho (hkept.owner.1 hopen)
    | some u => rw [ha.owner u ho]
  cases c with
  | inr c => exact id
  | inl c =>
      cases c with
      | commit => exact fun h => h.2 (hmine h.1)
      | rollback => exact fun h => h.2 (hmine h.1)
      | step q => exact fun h => h.2 (hmine h.1)
      | begin => exact id
      | prepare => exact id
      | changes => exact id
      | errmsg => exact id

section Account

variable [DecidableEq τ]

/-- The changes thread `t` made, the latest first. -/
def Shared.commitsOf (t : τ) (w : Shared τ δ φ) : List (δ × δ) :=
  (w.commits.filter (·.1 = t)).map Prod.snd

/-- What thread `t` can count on: its changes stay the ones it made, and
its transaction stays its own. -/
structure Shared.Undisturbed (t : τ) (w w' : Shared τ δ φ) : Prop where
  grows : w.commits <:+ w'.commits
  commits : w'.commitsOf t = w.commitsOf t
  owner : w'.owner = some t ↔ w.owner = some t
  link : w.owner = some t → w'.link = w.link

/-- What threads on one connection promise each other. -/
def protocol (τ : Type) [DecidableEq τ] (S : Statements δ ε) (E : Interface)
    (φ : Type) (init : δ) : Protocol τ (interface S E) (Shared τ δ φ) where
  inv := Shared.Kept init
  rely := Shared.Undisturbed
  guar := fun t _ w w' => ∀ u, u ≠ t → w.Undisturbed u w'
  rely_refl := fun _ _ => ⟨List.suffix_refl _, rfl, Iff.rfl, fun _ => rfl⟩
  rely_trans := fun h h' => ⟨h.grows.trans h'.grows,
    h'.commits.trans h.commits, h'.owner.trans h.owner,
    fun ho => (h'.link (h.owner.2 ho)).trans (h.link ho)⟩
  compat := fun hu h => h _ hu

-- ============================================== one call among threads

/-- Changes of one thread are no changes of another. -/
theorem Shared.commitsOf_append (made : List (δ × δ))
    (h : w'.commits = made.map (t, ·) ++ w.commits) :
    w'.commitsOf t = made ++ w.commitsOf t
      ∧ ∀ u, u ≠ t → w'.commitsOf u = w.commitsOf u := by
  unfold Shared.commitsOf
  rw [h, List.filter_append, List.map_append]
  constructor
  · have hall : (made.map (t, ·)).filter (·.1 = t) = made.map (t, ·) := by
      rw [List.filter_eq_self]
      rintro _ hmem
      obtain ⟨m, -, rfl⟩ := List.mem_map.1 hmem
      exact decide_eq_true rfl
    rw [hall, List.map_map]
    congr 1
    exact List.map_id made
  · intro u hu
    have hnone : (made.map (t, ·)).filter (·.1 = u) = [] := by
      rw [List.filter_eq_nil_iff]
      rintro _ hmem
      obtain ⟨m, -, rfl⟩ := List.mem_map.1 hmem
      exact fun heq => hu (of_decide_eq_true heq).symm
    rw [List.filter_append, List.map_append, hnone]
    rfl

/-- What a call of thread `t` did to the connection and its account,
with the connection's part left open. -/
structure Stepped (t : τ) (w w' : Shared τ δ φ) (made : List (δ × δ)) :
    Prop where
  owner : w'.owner = ownerAfter t w.owner w.link w'.link
  commits : w'.commits = made.map (t, ·) ++ w.commits

/-- The account stays right when the committed store changed as recorded
and another thread's transaction was left alone. -/
theorem Stepped.keeps {made : List (δ × δ)} (h : Stepped t w w' made)
    (hkept : w.Kept init)
    (hmade : made = [] ∧ w'.link.committed = w.link.committed
      ∨ made = [(w.link.committed, w'.link.committed)])
    (hlink : w.link.txn ≠ none → w.owner ≠ some t → w'.link = w.link) :
    w'.Kept init ∧ ∀ u, u ≠ t → w.Undisturbed u w' := by
  have howner : w'.link.txn ≠ none ↔ w'.owner ≠ none := by
    rw [h.owner]
    unfold ownerAfter
    cases htxn' : w'.link.txn with
    | none => simp
    | some s' =>
        cases htxn : w.link.txn with
        | none => simp
        | some s =>
            have hopen : w.link.txn ≠ none := by
              rw [htxn]
              exact Option.some_ne_none s
            simp [hkept.owner.1 hopen]
  refine ⟨⟨howner, ?_⟩, fun u hu => ?_⟩
  · rw [h.commits]
    rcases hmade with ⟨rfl, hsame⟩ | rfl
    · rw [hsame]
      exact hkept.chain
    · exact ⟨rfl, hkept.chain⟩
  · refine ⟨⟨_, h.commits.symm⟩,
      (Shared.commitsOf_append made h.commits).2 u hu, ?_, fun ho => ?_⟩
    · -- the transaction of `u`, before or after, is not one `t` opened
      rw [h.owner]
      unfold ownerAfter
      by_cases ho : w.owner = some u
      · have hopen : w.link.txn ≠ none := by
          rw [hkept.owner, ho]
          exact Option.some_ne_none u
        have hsame := hlink hopen (by
          rw [ho]
          exact fun heq => hu (Option.some.inj heq))
        rw [hsame]
        cases htxn : w.link.txn with
        | none => exact absurd htxn hopen
        | some s => exact Iff.rfl
      · refine ⟨fun hafter => ?_, fun hbefore => absurd hbefore ho⟩
        cases htxn' : w'.link.txn with
        | none => simp [htxn'] at hafter
        | some s' =>
            cases htxn : w.link.txn with
            | none =>
                simp only [htxn', htxn, Option.some.injEq] at hafter
                exact absurd hafter.symm hu
            | some s => simpa [htxn', htxn] using hafter
    · have hopen : w.link.txn ≠ none := by
        rw [hkept.owner, ho]
        exact Option.some_ne_none u
      refine hlink hopen ?_
      rw [ho]
      exact fun heq => hu (Option.some.inj heq)

/-- Storing inside a transaction commits nothing. -/
theorem Link.store_committed (l : Link δ) (n : Nat) (s : δ)
    (h : l.txn ≠ none) : (l.store n s).committed = l.committed := by
  unfold Link.store
  cases htxn : l.txn with
  | none => exact absurd htxn h
  | some s => rfl

/-- A call that fails commits nothing. -/
theorem Link.Failed.committed {l l' : Link δ} (h : l.Failed l') :
    l'.committed = l.committed := by
  rcases h with rfl | rfl <;> rfl

/-- A call that does not intrude keeps the account and disturbs no other
thread. -/
theorem isolated_keeps {c : (interface S E).Call}
    {r : (interface S E).Answer c}
    (h : isolated S quiet outside t c w r w') (hkept : w.Kept init) :
    w'.Kept init ∧ ∀ u, u ≠ t → w.Undisturbed u w' := by
  obtain ⟨hout, hacts⟩ := h
  cases c with
  -- a call that is none of SQLite's
  | inr c =>
      obtain ⟨-, hlink, howner, hcommits⟩ := hacts
      refine ⟨⟨by rw [hlink, howner]; exact hkept.owner, ?_⟩, fun u _ => ?_⟩
      · rw [hlink, hcommits]
        exact hkept.chain
      · exact ⟨by simp [hcommits], by
          unfold Shared.commitsOf
          rw [hcommits], by rw [howner], fun _ => hlink⟩
  -- one of SQLite's
  | inl c =>
      obtain ⟨hact, howner, hcommits, -⟩ := hacts
      have hstep : Stepped t w w' (if Publishes S w.link c r then
          [(w.link.committed, w'.link.committed)] else []) := by
        refine ⟨howner, ?_⟩
        rw [hcommits]
        split <;> rfl
      refine hstep.keeps hkept ?_ ?_
      · -- what is recorded is what was committed
        cases c with
        | begin =>
            left
            refine ⟨rfl, ?_⟩
            rcases hact with ⟨-, -, hl⟩ | ⟨-, hl, -⟩ <;> rw [hl]
        | commit =>
            rcases hact with ⟨s, -, hr, hl⟩ | ⟨hr, hl⟩
            · right
              rw [hr]
              rfl
            · left
              refine ⟨if_neg ?_, ?_⟩
              · cases r with
                | none => exact absurd rfl hr
                | some e => exact Bool.false_ne_true
              · rcases hl with ⟨-, hl⟩ | ⟨-, hl⟩
                · rw [hl]
                · exact hl.committed
        | rollback =>
            left
            refine ⟨rfl, ?_⟩
            rw [show w'.link = _ from hact]
            rfl
        | prepare =>
            left
            refine ⟨rfl, ?_⟩
            rw [hact.1]
        | step q =>
            rcases hact with ⟨row, n, s, -, hr, hl⟩ | ⟨e, hr, hl⟩
            · by_cases hw : S.writes q = true
              · by_cases htxn : w.link.txn = none
                · right
                  simp [Publishes, hw, htxn, hr, Except.isOk, Except.toBool]
                · left
                  constructor
                  · simp [Publishes, htxn]
                  · rw [hl, if_pos hw]
                    exact Link.store_committed _ _ _ htxn
              · left
                rw [if_neg hw] at hl
                refine ⟨?_, by rw [hl]⟩
                simp [Publishes, hw]
            · left
              constructor
              · simp [Publishes, hr, Except.isOk, Except.toBool]
              · rcases hl with ⟨-, hl⟩ | ⟨-, hl⟩
                · rw [hl]
                · exact hl.committed
        | changes =>
            left
            refine ⟨rfl, ?_⟩
            rw [hact.2]
        | errmsg =>
            left
            refine ⟨rfl, ?_⟩
            rw [show w'.link = _ from hact]
      · -- a call that changes the connection would intrude
        intro hopen hother
        cases c with
        | begin =>
            rcases hact with ⟨hnone, -, -⟩ | ⟨-, hl, -⟩
            · exact absurd hnone hopen
            · exact hl
        | commit => exact absurd ⟨hopen, hother⟩ hout
        | rollback => exact absurd ⟨hopen, hother⟩ hout
        | prepare => exact hact.1
        | step q => exact absurd ⟨hopen, hother⟩ hout
        | changes => exact hact.2
        | errmsg => exact hact

-- ================================================== one transaction

/-- Thread `t` has no transaction and has changed nothing. -/
structure Idle (t : τ) (w : Shared τ δ φ) : Prop where
  owner : w.owner ≠ some t
  commits : w.commitsOf t = []

/-- Thread `t` has a transaction open onto the committed store `a`, with
the working copy `b`. -/
structure Own (t : τ) (a b : δ) (w : Shared τ δ φ) : Prop where
  owner : w.owner = some t
  txn : w.link.txn = some b
  committed : w.link.committed = a
  commits : w.commitsOf t = []

/-- Its transaction is open, or was lost. -/
def Held (t : τ) (w : Shared τ δ φ) : Prop :=
  (∃ a b, Own t a b w) ∨ Idle t w

/-- It changed the committed store once, from `a` to `b`. -/
structure Ended (t : τ) (a b : δ) (w : Shared τ δ φ) : Prop where
  owner : w.owner ≠ some t
  commits : w.commitsOf t = [(a, b)]

section Rules

variable {a b : δ} {post : α → Shared τ δ φ → Prop}

/-- Others leave a thread idle. -/
theorem Idle.stable : Stable (protocol τ S E φ init) t (Idle t) := by
  intro w w' _ _ hr h
  exact ⟨fun ho => h.owner (hr.owner.1 ho), hr.commits.trans h.commits⟩

/-- Others leave a thread its transaction. -/
theorem Own.stable : Stable (protocol τ S E φ init) t (Own t a b) := by
  intro w w' _ _ hr h
  have hlink := hr.link h.owner
  exact ⟨hr.owner.2 h.owner, by rw [hlink]; exact h.txn,
    by rw [hlink]; exact h.committed, hr.commits.trans h.commits⟩

/-- Others do not count in its transaction. -/
theorem Own.stable_changes (n : Nat) :
    Stable (protocol τ S E φ init) t
      fun w => Own t a b w ∧ w.link.changes = n := by
  intro w w' hi hi' hr h
  refine ⟨Own.stable w w' hi hi' hr h.1, ?_⟩
  rw [hr.link h.1.owner]
  exact h.2

/-- Others leave a transaction held. -/
theorem Held.stable : Stable (protocol τ S E φ init) t (Held t) :=
  .or (.exists_ fun _ => .exists_ fun _ => Own.stable) Idle.stable

/-- Others leave what a thread has committed. -/
theorem Ended.stable : Stable (protocol τ S E φ init) t (Ended t a b) := by
  intro w w' _ _ hr h
  exact ⟨fun ho => h.owner (hr.owner.1 ho), hr.commits.trans h.commits⟩

/-- The committed store a transaction was opened onto. -/
theorem Own.seen (h : Own t a b w) (hkept : w.Kept init) :
    w.Seen init a := by
  have hchain := hkept.chain
  rw [h.committed] at hchain
  cases hc : w.commits with
  | nil =>
      rw [hc] at hchain
      exact .inl hchain
  | cons made rest =>
      rw [hc] at hchain
      refine .inr ⟨made, ?_, hchain.1.symm⟩
      rw [hc]
      exact List.mem_cons_self

variable (S quiet outside init t) in
/-- The program is right among threads that do not intrude. -/
abbrev Correct (pre : Shared τ δ φ → Prop) (p : Program (interface S E) α)
    (post : α → Shared τ δ φ → Prop) : Prop :=
  Triple (protocol τ S E φ init) (isolated S quiet outside) t pre p post

/-- One call among threads that do not intrude. -/
theorem Correct.oneCall {pre : Shared τ δ φ → Prop}
    {c : (interface S E).Call}
    {next : (interface S E).Answer c → Program (interface S E) α}
    {m : (interface S E).Answer c → Shared τ δ φ → Prop}
    (hstable : Stable (protocol τ S E φ init) t pre)
    (hmid : ∀ w r w', w.Kept init → pre w →
      isolated S quiet outside t c w r w' → m r w')
    (hnext : ∀ r, Correct S quiet outside t init (m r) (next r) post) :
    Correct S quiet outside t init pre
      (.call c next) post :=
  .call hstable (fun w r w' hkept hpre hact =>
    ⟨(isolated_keeps hact hkept).1, (isolated_keeps hact hkept).2,
      hmid w r w' hkept hpre hact⟩) hnext

/-- The changes of thread `t` after one of its calls. -/
theorem commitsOf_acts {c : SqlCall S.Query} {r : c.Answer S}
    (h : Shared.Acts S quiet outside t (.inl c) w r w') :
    w'.commitsOf t = (if Publishes S w.link c r then
      [(w.link.committed, w'.link.committed)] else []) ++ w.commitsOf t := by
  obtain ⟨-, -, hcommits, -⟩ := h
  refine (Shared.commitsOf_append _ ?_).1
  rw [hcommits]
  split <;> rfl

/-- A thread without a transaction finds none, or another's. -/
theorem Idle.link (h : Idle t w)
    (hout : w.link.txn ≠ none → w.owner = some t) : w.link.txn = none := by
  by_cases htxn : w.link.txn = none
  · exact htxn
  · exact absurd (hout htxn) h.owner

/-- What is left when a call of a thread with a transaction fails. -/
theorem Own.failed (h : Own t a b w) {c : SqlCall S.Query} {r : c.Answer S}
    (hact : Shared.Acts S quiet outside t (.inl c) w r w')
    (hpub : Publishes S w.link c r = false) (hl : w.link.Failed w'.link) :
    Held t w' := by
  have hcommits := commitsOf_acts hact
  rw [hpub, if_neg Bool.false_ne_true, h.commits] at hcommits
  obtain ⟨-, howner, -, -⟩ := hact
  unfold ownerAfter at howner
  rcases hl with hl | hl
  · left
    rw [hl, h.txn] at howner
    exact ⟨a, b, howner.trans h.owner, by rw [hl]; exact h.txn,
      by rw [hl]; exact h.committed, hcommits⟩
  · right
    refine ⟨?_, hcommits⟩
    rw [howner, hl]
    exact fun hnone => Option.some_ne_none t hnone.symm

/-- `BEGIN IMMEDIATE`. -/
theorem Correct.begin
    {next : Option ε → Program (interface S E) α}
    (hok : ∀ a, Correct S quiet outside t init (Own t a a) (next none) post)
    (herror : ∀ e, Correct S quiet outside t init (Idle t) (next (some e)) post) :
    Correct S quiet outside t init (Idle t)
      (.call (.inl .begin) next) post := by
  refine Correct.oneCall (c := .inl .begin)
    (m := fun (r : Option ε) w => match r with
      | none => ∃ a, Own t a a w
      | some _ => Idle t w) Idle.stable ?_ ?_
  · rintro w r w' - hidle ⟨-, hact⟩
    have hcommits := commitsOf_acts hact
    rw [if_neg (by exact Bool.false_ne_true), hidle.commits] at hcommits
    obtain ⟨hl, howner, -, -⟩ := hact
    rcases hl with ⟨hnone, rfl, hl⟩ | ⟨hr, hl, -⟩
    · refine ⟨w.link.committed, ?_, by rw [hl], by rw [hl], hcommits⟩
      rw [howner, hl]
      unfold ownerAfter
      simp only [hnone]
    · cases r with
      | none => exact absurd rfl hr
      | some e =>
          refine ⟨?_, hcommits⟩
          rw [howner, hl]
          unfold ownerAfter
          cases htxn : w.link.txn with
          | none => exact fun hnone => Option.some_ne_none t hnone.symm
          | some s => exact hidle.owner
  · intro r
    cases r with
    | none => exact .given_exists fun a => hok a
    | some e => exact herror e

/-- An assertion about what is the thread's own. -/
structure Private (S : Statements δ ε) (E : Interface) (init : δ) (t : τ)
    (pre : Shared τ δ φ → Prop) : Prop where
  stable : Stable (protocol τ S E φ init) t pre
  frame : ∀ {w w' : Shared τ δ φ}, w'.link = w.link → w'.owner = w.owner →
    w'.commits = w.commits → pre w → pre w'

/-- The changes of a thread are read off the account. -/
private theorem commitsOf_congr (h : w'.commits = w.commits) :
    w'.commitsOf t = w.commitsOf t := by
  unfold Shared.commitsOf
  rw [h]

/-- Only the account and the owner tell whether a thread is idle. -/
theorem Idle.frame (h : Idle t w) (ho : w'.owner = w.owner)
    (hm : w'.commits = w.commits) : Idle t w' :=
  ⟨by rw [ho]; exact h.owner, (commitsOf_congr hm).trans h.commits⟩

/-- Only the connection and the account tell what a transaction has come
to. -/
theorem Own.frame (h : Own t a b w) (hl : w'.link = w.link)
    (ho : w'.owner = w.owner) (hm : w'.commits = w.commits) :
    Own t a b w' :=
  ⟨ho.trans h.owner, by rw [hl]; exact h.txn, by rw [hl]; exact h.committed,
    (commitsOf_congr hm).trans h.commits⟩

/-- What happens outside does not end a thread's idleness. -/
theorem Idle.isPrivate : Private S E init t (φ := φ) (Idle t) :=
  ⟨Idle.stable, fun _ ho hm h => h.frame ho hm⟩

/-- What happens outside does not touch a transaction. -/
theorem Own.isPrivate : Private S E init t (φ := φ) (Own t a b) :=
  ⟨Own.stable, fun hl ho hm h => h.frame hl ho hm⟩

/-- What happens outside does not let go of a transaction. -/
theorem Held.isPrivate : Private S E init t (φ := φ) (Held t) := by
  refine ⟨Held.stable, fun hl ho hm h => ?_⟩
  rcases h with ⟨a, b, hown⟩ | hidle
  · exact .inl ⟨a, b, hown.frame hl ho hm⟩
  · exact .inr (hidle.frame ho hm)

/-- Preparing a statement, reading `sqlite3_errmsg` or
`sqlite3_changes`, or a call that is not SQLite's. -/
theorem Correct.aside {pre : Shared τ δ φ → Prop} {c : (interface S E).Call}
    {next : (interface S E).Answer c → Program (interface S E) α}
    (hc : c = .inl .prepare ∨ c = .inl .errmsg ∨ c = .inl .changes
      ∨ ∃ e, c = .inr e)
    (hpre : Private S E init t pre)
    (hnext : ∀ r, Correct S quiet outside t init pre (next r) post) :
    Correct S quiet outside t init pre (.call c next) post := by
  refine Correct.oneCall (m := fun _ w => pre w) hpre.stable ?_ hnext
  rintro w r w' hkept hw ⟨-, hact⟩
  rcases hc with rfl | rfl | rfl | ⟨e, rfl⟩
  · obtain ⟨⟨hl, -⟩, howner, hcommits, -⟩ := hact
    rw [hl, ownerAfter_self hkept] at howner
    exact hpre.frame hl howner hcommits hw
  · obtain ⟨hl, howner, hcommits, -⟩ := hact
    rw [show w'.link = w.link from hl, ownerAfter_self hkept] at howner
    exact hpre.frame hl howner hcommits hw
  · obtain ⟨⟨-, hl⟩, howner, hcommits, -⟩ := hact
    rw [hl, ownerAfter_self hkept] at howner
    exact hpre.frame hl howner hcommits hw
  · obtain ⟨-, hl, howner, hcommits⟩ := hact
    exact hpre.frame hl howner hcommits hw

/-- A statement stepped in the thread's own transaction. -/
theorem Correct.step {q : S.Query}
    {next : Except ε (S.Row q) → Program (interface S E) α}
    (hok : ∀ row n b', S.run q b = .ok (row, n, b') →
      Correct S quiet outside t init
        (fun w => Own t a b' w ∧ (S.writes q = true → w.link.changes = n))
        (next (.ok row)) post)
    (herror : ∀ e, Correct S quiet outside t init (Held t)
      (next (.error e)) post) :
    Correct S quiet outside t init (Own t a b) (.call (.inl (.step q)) next)
      post := by
  refine Correct.oneCall (c := .inl (.step q))
    (m := fun (r : Except ε (S.Row q)) w => match r with
      | .ok row => ∃ n b', S.run q b = .ok (row, n, b')
          ∧ Own t a b' w ∧ (S.writes q = true → w.link.changes = n)
      | .error _ => Held t w) Own.stable ?_ ?_
  · rintro w r w' - hown ⟨-, hact⟩
    have hview : w.link.view = b := by
      unfold Link.view
      rw [hown.txn]
      rfl
    have hpub : Publishes S w.link (.step q) r = false := by
      simp [Publishes, hown.txn]
    have hcommits := commitsOf_acts hact
    rw [hpub, if_neg Bool.false_ne_true, hown.commits] at hcommits
    have hact' := hact
    obtain ⟨hl, howner, -, -⟩ := hact
    rcases hl with ⟨row, n, b', hrun, rfl, hl⟩ | ⟨e, rfl, hl⟩
    · rw [hview] at hrun
      refine ⟨n, b', hrun, ?_⟩
      by_cases hw : S.writes q = true
      · have hstore : w'.link = { w.link with txn := some b', changes := n } := by
          rw [hl, if_pos hw, Link.store, hown.txn]
        refine ⟨⟨?_, by rw [hstore], by rw [hstore]; exact hown.committed,
          hcommits⟩, fun _ => by rw [hstore]⟩
        rw [howner, hstore, ownerAfter, hown.txn]
        exact hown.owner
      · have hsame : b' = b := S.run_read (Bool.eq_false_iff.2 hw) hrun
        rw [if_neg hw] at hl
        refine ⟨⟨?_, by rw [hl, hsame]; exact hown.txn,
          by rw [hl]; exact hown.committed, hcommits⟩,
          fun h => absurd h hw⟩
        rw [howner, hl, ownerAfter, hown.txn]
        exact hown.owner
    · refine hown.failed hact' hpub ?_
      rcases hl with ⟨-, hl⟩ | ⟨-, hl⟩
      · exact .inl hl
      · exact hl
  · intro r
    cases r with
    | ok row =>
        refine .given_exists fun n => .given_exists fun b' => .given ?_
        exact fun hrun => hok row n b' hrun
    | error e => exact herror e

/-- A reading statement in the thread's own transaction. -/
theorem Correct.stepRead {q : S.Query} (hreads : S.writes q = false)
    {next : Except ε (S.Row q) → Program (interface S E) α}
    (hok : ∀ row n, S.run q b = .ok (row, n, b) →
      Correct S quiet outside t init (Own t a b) (next (.ok row)) post)
    (herror : ∀ e, Correct S quiet outside t init (Held t)
      (next (.error e)) post) :
    Correct S quiet outside t init (Own t a b) (.call (.inl (.step q)) next)
      post := by
  refine .step (fun row n b' hrun => ?_) herror
  have hsame := S.run_read hreads hrun
  subst hsame
  exact (hok row n hrun).weaken fun w _ h => h.1

/-- A statement in the thread's own transaction, whatever it changes. -/
theorem Correct.stepOwn {q : S.Query}
    {next : Except ε (S.Row q) → Program (interface S E) α}
    (hok : ∀ row n b', S.run q b = .ok (row, n, b') →
      Correct S quiet outside t init (Own t a b') (next (.ok row)) post)
    (herror : ∀ e, Correct S quiet outside t init (Held t)
      (next (.error e)) post) :
    Correct S quiet outside t init (Own t a b) (.call (.inl (.step q)) next)
      post :=
  .step (fun row n b' hrun => (hok row n b' hrun).weaken fun _ _ h => h.1)
    herror

/-- A writing statement in the thread's own transaction. -/
theorem Correct.stepWrite {q : S.Query} (hwrites : S.writes q = true)
    {next : Except ε (S.Row q) → Program (interface S E) α}
    (hok : ∀ row n b', S.run q b = .ok (row, n, b') →
      Correct S quiet outside t init
        (fun w => Own t a b' w ∧ w.link.changes = n) (next (.ok row)) post)
    (herror : ∀ e, Correct S quiet outside t init (Held t)
      (next (.error e)) post) :
    Correct S quiet outside t init (Own t a b) (.call (.inl (.step q)) next)
      post :=
  .step (fun row n b' hrun =>
    (hok row n b' hrun).weaken fun _ _ h => ⟨h.1, h.2 hwrites⟩) herror

/-- `sqlite3_changes`, after a writing statement of the transaction. -/
theorem Correct.changes {m : Nat}
    {next : Nat → Program (interface S E) α}
    (hnext : Correct S quiet outside t init (Own t a b) (next m) post) :
    Correct S quiet outside t init
      (fun w => Own t a b w ∧ w.link.changes = m)
      (.call (.inl .changes) next) post := by
  refine Correct.oneCall (c := .inl .changes)
    (m := fun (r : Nat) w => r = m ∧ Own t a b w) (Own.stable_changes m)
    ?_ ?_
  · rintro w r w' hkept ⟨hown, hm⟩ ⟨-, hact⟩
    have hcommits := commitsOf_acts hact
    rw [if_neg (by exact Bool.false_ne_true), hown.commits] at hcommits
    obtain ⟨⟨hr, hl⟩, howner, -, -⟩ := hact
    rw [hl, ownerAfter_self hkept] at howner
    exact ⟨hr.trans hm, howner.trans hown.owner, by rw [hl]; exact hown.txn,
      by rw [hl]; exact hown.committed, hcommits⟩
  · intro r
    refine .given fun hr => ?_
    subst hr
    exact hnext

/-- `COMMIT` of the thread's own transaction. -/
theorem Correct.commit {next : Option ε → Program (interface S E) α}
    (hok : Correct S quiet outside t init (Ended t a b) (next none) post)
    (herror : ∀ e, Correct S quiet outside t init (Held t) (next (some e))
      post) :
    Correct S quiet outside t init (Own t a b) (.call (.inl .commit) next)
      post := by
  refine Correct.oneCall (c := .inl .commit)
    (m := fun (r : Option ε) w => match r with
      | none => Ended t a b w
      | some _ => Held t w) Own.stable ?_ ?_
  · rintro w r w' - hown ⟨-, hact⟩
    have hcommits := commitsOf_acts hact
    have hact' := hact
    obtain ⟨hl, howner, -, -⟩ := hact
    rcases hl with ⟨s, htxn, rfl, hl⟩ | ⟨hr, hl⟩
    · rw [hown.txn] at htxn
      cases htxn
      refine ⟨?_, ?_⟩
      · rw [howner, hl]
        exact fun hnone => Option.some_ne_none t hnone.symm
      · rw [hcommits, hl, hown.commits, hown.committed]
        rfl
    · cases r with
      | none => exact absurd rfl hr
      | some e =>
          refine hown.failed hact' rfl ?_
          rcases hl with ⟨-, hl⟩ | ⟨-, hl⟩
          · exact .inl hl
          · exact hl
  · intro r
    cases r with
    | none => exact hok
    | some e => exact herror e

/-- `ROLLBACK` of what may be left of the thread's transaction. -/
theorem Correct.rollback {next : Option ε → Program (interface S E) α}
    (hnext : ∀ r, Correct S quiet outside t init (Idle t) (next r) post) :
    Correct S quiet outside t init (Held t) (.call (.inl .rollback) next)
      post := by
  refine Correct.oneCall (c := .inl .rollback) (m := fun _ w => Idle t w)
    Held.stable ?_ hnext
  rintro w r w' - hheld ⟨-, hact⟩
  have hcommits := commitsOf_acts hact
  rw [if_neg (by exact Bool.false_ne_true)] at hcommits
  obtain ⟨hl, howner, -, -⟩ := hact
  refine ⟨?_, ?_⟩
  · rw [howner, show w'.link = w.link.dropped from hl]
    exact fun hnone => Option.some_ne_none t hnone.symm
  · rw [hcommits]
    rcases hheld with ⟨a, b, hown⟩ | hidle
    · exact hown.commits
    · exact hidle.commits

/-- A writing statement stepped outside a transaction. -/
theorem Correct.stepAlone {q : S.Query} (hwrites : S.writes q = true)
    {next : Except ε (S.Row q) → Program (interface S E) α}
    (hok : ∀ row n a b, S.run q a = .ok (row, n, b) →
      Correct S quiet outside t init (Ended t a b) (next (.ok row)) post)
    (herror : ∀ e, Correct S quiet outside t init (Idle t)
      (next (.error e)) post) :
    Correct S quiet outside t init (Idle t) (.call (.inl (.step q)) next)
      post := by
  refine Correct.oneCall (c := .inl (.step q))
    (m := fun (r : Except ε (S.Row q)) w => match r with
      | .ok row => ∃ n a b, S.run q a = .ok (row, n, b) ∧ Ended t a b w
      | .error _ => Idle t w) Idle.stable ?_ ?_
  · rintro w r w' hkept hidle ⟨hout, hact⟩
    have hcommits := commitsOf_acts hact
    have hnone : w.link.txn = none := by
      refine hidle.link fun htxn => ?_
      by_cases ho : w.owner = some t
      · exact ho
      · exact absurd ⟨htxn, ho⟩ hout
    have hview : w.link.view = w.link.committed := by
      unfold Link.view
      rw [hnone]
      rfl
    obtain ⟨hl, howner, -, -⟩ := hact
    rcases hl with ⟨row, n, s, hrun, rfl, hl⟩ | ⟨e, rfl, hl⟩
    · rw [hview] at hrun
      rw [if_pos hwrites, Link.store, hnone] at hl
      refine ⟨n, w.link.committed, s, hrun, ?_, ?_⟩
      · rw [howner, hl]
        unfold ownerAfter
        simp only
        exact fun h => Option.some_ne_none t h.symm
      · rw [hcommits, hl, hidle.commits]
        simp [Publishes, hwrites, hnone, Except.isOk, Except.toBool]
    · have hnone' : w'.link.txn = none := by
        rcases hl with ⟨-, hl⟩ | ⟨-, hl | hl⟩
        · rw [hl]
          exact hnone
        · rw [hl]
          exact hnone
        · rw [hl]
          rfl
      refine ⟨?_, ?_⟩
      · rw [howner, ownerAfter, hnone']
        exact fun h => Option.some_ne_none t h.symm
      · rw [hcommits, hidle.commits]
        simp [Publishes, Except.isOk, Except.toBool]
  · intro r
    cases r with
    | ok row =>
        refine .given_exists fun n => .given_exists fun a =>
          .given_exists fun b => .given fun hrun => ?_
        exact hok row n a b hrun
    | error e => exact herror e

end Rules

-- ==================================================== whole operations

/-- What an operation `effect` of thread `t` that answered `r` has done to
the committed store: nothing if it answered an error, and otherwise all
of it, at once. An operation with nothing to change answered what was
right of a store that was committed. -/
structure Isolated {κ : Type} (init : δ) (effect : δ → Option (α × δ)) (t : τ)
    (r : Except κ α) (w : Shared τ δ φ) : Prop where
  owner : w.owner ≠ some t
  error : ∀ e, r = .error e → w.commitsOf t = []
  ok : ∀ v, r = .ok v →
    (∃ a b, effect a = some (v, b) ∧ w.commitsOf t = [(a, b)])
      ∨ w.commitsOf t = [] ∧ ∃ a, effect a = some (v, a) ∧ w.Seen init a

/-- An idle thread that reports an error has done nothing. -/
theorem Idle.isolated {κ : Type} {effect : δ → Option (α × δ)} {e : κ}
    (h : Idle t w) : Isolated init effect t (.error e) w := by
  refine ⟨h.owner, fun _ _ => h.commits, fun v hv => ?_⟩
  cases hv

/-- An idle thread may report what an effect that changes nothing would
have answered. -/
theorem Idle.isolated_ok {κ : Type} {effect : δ → Option (α × δ)} {v : α} {a : δ}
    (h : Idle t w) (hv : effect a = some (v, a)) (hseen : w.Seen init a) :
    Isolated init effect t (.ok v : Except κ α) w := by
  refine ⟨h.owner, fun e he => ?_, fun v' hv' => ?_⟩
  · cases he
  · cases hv'
    exact .inr ⟨h.commits, a, hv, hseen⟩

/-- A thread that has committed its effect may report its answer. -/
theorem Ended.isolated {κ : Type} {effect : δ → Option (α × δ)} {v : α} {a b : δ}
    (h : Ended t a b w) (hv : effect a = some (v, b)) :
    Isolated init effect t (.ok v : Except κ α) w := by
  refine ⟨h.owner, fun e he => ?_, fun v' hv' => ?_⟩
  · cases he
  · cases hv'
    exact .inl ⟨a, b, hv, h.commits⟩

/-- A store that was committed once stays so, through the whole program. -/
theorem Correct.seen {pre : Shared τ δ φ → Prop}
    {p : Program (interface S E) α} {post : α → Shared τ δ φ → Prop} {a : δ}
    (hpre : ∀ w, w.Kept init → pre w → w.Seen init a)
    (h : Correct S quiet outside t init pre p fun r w =>
      w.Seen init a → post r w) :
    Correct S quiet outside t init pre p post := by
  intro w hkept hw
  have hseen := hpre w hkept hw
  have hsafe := h w hkept hw
  clear h hpre hw
  induction p generalizing w with
  | done r =>
      intro w' hkept' hrely
      exact hsafe w' hkept' hrely (hseen.grows hrely.grows)
  | call c next ih =>
      intro w' hkept' hrely r w'' hact
      obtain ⟨hkept'', hguar, hnext⟩ := hsafe w' hkept' hrely r w'' hact
      refine ⟨hkept'', hguar, ih r w'' hkept'' ?_ hnext⟩
      exact (hseen.grows hrely.grows).grows hact.2.grows

/-- A thread that is alone intrudes on nobody. -/
theorem returns_isolated {p : Program (interface S E) α} {r : α}
    (h : Returns (Shared.Acts S quiet outside t) p w r w') (ha : w.Alone t)
    (hkept : w.Kept init) :
    Returns (isolated S quiet outside t) p w r w' ∧ w'.Alone t := by
  induction h with
  | done r w => exact ⟨.done r w, ha⟩
  | call hact _ ih =>
      have hiso : isolated S quiet outside t _ _ _ _ :=
        ⟨ha.not_intrudes hkept, hact⟩
      obtain ⟨hrest, halone⟩ := ih (hact.alone ha) (isolated_keeps hiso hkept).1
      exact ⟨.call hiso hrest, halone⟩

/-- A thread that is alone has made all changes. -/
theorem Shared.Alone.commitsOf_eq (ha : w.Alone t) :
    w.commitsOf t = w.commits.map Prod.snd := by
  unfold Shared.commitsOf
  rw [List.filter_eq_self.2]
  exact fun made hmem => decide_eq_true (ha.commits made hmem)

/-- An operation alone on a connection without a transaction does all of
its effect or none, and leaves no transaction open. -/
theorem Correct.alone {κ : Type} {p : Program (interface S E) (Except κ α)}
    {effect : δ → Option (α × δ)} {link : Link δ} {out : φ}
    (h : Correct S quiet outside t link.committed (Idle t) p
      (Isolated link.committed effect t))
    (htxn : link.txn = none) {r : Except κ α} {w : Shared τ δ φ}
    (hrun : Returns (Shared.Acts S quiet outside t) p
      (Shared.fresh link out) r w) :
    w.link.txn = none
      ∧ (∀ e, r = .error e → w.link.committed = link.committed)
      ∧ ∀ v, r = .ok v →
        effect link.committed = some (v, w.link.committed) := by
  have hfresh : (Shared.fresh link out : Shared τ δ φ).Kept
      link.committed := by
    refine ⟨?_, rfl⟩
    simp [Shared.fresh, htxn]
  have hidle : Idle t (Shared.fresh link out : Shared τ δ φ) := by
    refine ⟨?_, rfl⟩
    exact fun h => Option.some_ne_none t h.symm
  have halone : (Shared.fresh link out : Shared τ δ φ).Alone t := by
    refine ⟨fun u hu => ?_, fun made hmem => ?_⟩
    · cases hu
    · cases hmem
  obtain ⟨hiso, halone'⟩ := returns_isolated hrun halone hfresh
  obtain ⟨hkept, hpost⟩ := h.returns hfresh hidle hiso
  have hcommits := halone'.commitsOf_eq
  have hchain := hkept.chain
  have hnone : w.owner = none := by
    cases ho : w.owner with
    | none => rfl
    | some u =>
        have hut := halone'.owner u ho
        exact absurd (ho.trans (congrArg some hut)) hpost.owner
  have hquietly : w.commitsOf t = [] → w.link.committed = link.committed := by
    intro hnil
    rw [hcommits, List.map_eq_nil_iff] at hnil
    rw [hnil] at hchain
    exact hchain
  refine ⟨?_, fun e he => hquietly (hpost.error e he), fun v hv => ?_⟩
  · by_cases htxn' : w.link.txn = none
    · exact htxn'
    · exact absurd hnone (hkept.owner.1 htxn')
  · rcases hpost.ok v hv with ⟨a, b, heffect, hmade⟩ | ⟨hnil, a, heffect, hseen⟩
    · rw [hcommits] at hmade
      obtain ⟨⟨u, a', b'⟩, hw, hab⟩ := List.map_eq_singleton_iff.1 hmade
      cases hab
      rw [hw] at hchain
      obtain ⟨hb, ha⟩ := hchain
      rw [hb, ← heffect]
      exact congrArg effect ha.symm
    · have hsame := hquietly hnil
      rw [hcommits, List.map_eq_nil_iff] at hnil
      rcases hseen with rfl | ⟨made, hmem, -⟩
      · rw [hsame]
        exact heffect
      · rw [hnil] at hmem
        cases hmem

end Account

end SharedConnection
