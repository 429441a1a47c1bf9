/-
The upload store's operations run by several threads on its one
connection, one SQLite call at a time.

Nothing but SQLite keeps them apart. `BEGIN IMMEDIATE` refuses a second
transaction, so an operation that opens one is safe from every other that
does; `MarkUploadFailed` opens none, and its `UPDATE` becomes part of
whatever transaction is open (`markUploadFailed_lost`). As long as no
call reaches into another operation's transaction, every operation does
all it does at once or nothing (`operations_isolated`).
-/
import PhotoBridge.Upload.Proofs.Isolation

namespace PhotoBridge.Upload

open Concurrent SharedConnection

/-- The operations the threads are to run, each on a thread of its own. -/
def started {τ : Type} (ops : τ → Operation) :
    Pool τ (interface uploadStatements storeCalls)
      fun t => Except Status (ops t).Answer :=
  fun t => some (ops t).program

/-- In every interleaving in which no call reaches into a transaction
another operation opened, each operation that has returned did its whole
effect in one change of the committed tables, or, with an error, changed
nothing; and the changes follow one another. -/
theorem operations_isolated {τ φ : Type} [DecidableEq τ] {quiet : Bool}
    {outside : Effects storeCalls φ} (ops : τ → Operation)
    {link : Link UploadDb} {out : φ} (hclosed : link.txn = none)
    {pool : Pool τ (interface uploadStatements storeCalls)
      fun t => Except Status (ops t).Answer} {w : Shared τ UploadDb φ}
    (hrun : Runs (isolated uploadStatements quiet outside) (started ops)
      (Shared.fresh link out) pool w) :
    w.Kept link.committed
      ∧ ∀ t r, pool t = some (.done r) →
        Isolated link.committed (ops t).effect t r w := by
  have hkept : (Shared.fresh link out : Shared τ UploadDb φ).Kept
      link.committed := by
    refine ⟨?_, rfl⟩
    simp [Shared.fresh, hclosed]
  have hstart : (started ops).Sound (protocol τ uploadStatements storeCalls φ
      link.committed) (isolated uploadStatements quiet outside)
      (fun t => Isolated link.committed (ops t).effect t)
      (Shared.fresh link out) := by
    refine ⟨hkept, fun t p hp => ?_⟩
    cases hp
    have hidle : SharedConnection.Idle t
        (Shared.fresh link out : Shared τ UploadDb φ) := by
      refine ⟨?_, rfl⟩
      exact fun h => Option.some_ne_none t h.symm
    exact (ops t).correct _ hkept hidle
  have hend := hrun.sound hstart
  exact ⟨hend.inv, fun t r hdone => hend.ended hdone⟩

-- ================================================ an update kept, and lost

/-- A session with one file received and one being received. -/
def twoFiles : UploadDb where
  sessions := [⟨text "s", 0, 2, 1, .opened⟩]
  files := [⟨text "s", text "a", text "a.jpg", text "a.jpg", 1, 1, none,
      some .zero, .received⟩,
    ⟨text "s", text "b", text "b.jpg", text "b.jpg", 1, 0, none, none,
      .receiving⟩]

/-- A second upload of the file that is received, while the upload of the
other one is given up. -/
def twoUploads : Bool → Operation
  | false => .beginUpload (text "s") (text "a")
  | true => .markUploadFailed (text "s") (text "b")

/-- The connection and its account while no change has been committed. -/
def unchanged (txn : Option UploadDb) (changes : Nat) :
    Shared Bool UploadDb Unit where
  link := ⟨twoFiles, txn, changes⟩
  owner := txn.map fun _ => false
  commits := []
  outside := ()

/-- The same once the upload has been given up with no transaction open. -/
def givenUp : Shared Bool UploadDb Unit where
  link := ⟨(twoFiles.markFailed (text "s") (text "b")).2, none, 1⟩
  owner := none
  commits :=
    [(true, twoFiles, (twoFiles.markFailed (text "s") (text "b")).2)]
  outside := ()

/-- The other operation has prepared its statement when the upload is
begun, and makes its update once that transaction is over: both return,
and both are isolated. -/
theorem operations_isolated_failed :
    ∃ w : Shared Bool UploadDb Unit,
      Isolated twoFiles (twoUploads true).effect true
          (.ok () : Except Status (twoUploads true).Answer) w
        ∧ Isolated twoFiles (twoUploads false).effect false
          (.ok .alreadyReceived : Except Status (twoUploads false).Answer)
          w := by
  have hprepare : ∀ t, isolated uploadStatements true anyCall t
      (.inl .prepare) (unchanged none 0) none (unchanged none 0) :=
    fun t => ⟨id, ⟨rfl, fun h => absurd rfl h⟩, rfl, rfl, rfl⟩
  have hinside : isolated uploadStatements true anyCall false
      (.inl .prepare) (unchanged (some twoFiles) 0) none
      (unchanged (some twoFiles) 0) :=
    ⟨id, ⟨rfl, fun h => absurd rfl h⟩, rfl, rfl, rfl⟩
  have hbegin : isolated uploadStatements true anyCall false
      (.inl .begin) (unchanged none 0) none (unchanged (some twoFiles) 0) :=
    ⟨id, .inl ⟨rfl, rfl, rfl⟩, rfl, rfl, rfl⟩
  have hlooked : isolated uploadStatements true anyCall false
      (.inl (.step (.uploadState (text "s") (text "a"))))
      (unchanged (some twoFiles) 0) (.ok (some UploadFileState.received))
      (unchanged (some twoFiles) 0) :=
    ⟨fun h => h.2 rfl, .inl ⟨_, _, _, rfl, rfl, rfl⟩, rfl, rfl, rfl⟩
  have hrollback : isolated uploadStatements true anyCall false
      (.inl .rollback) (unchanged (some twoFiles) 0) none
      (unchanged none 0) := ⟨fun h => h.2 rfl, rfl, rfl, rfl, rfl⟩
  have hfailed : isolated uploadStatements true anyCall true
      (.inl (.step (.markFailed (text "s") (text "b")))) (unchanged none 0)
      (.ok ()) givenUp :=
    ⟨fun h => h.1 rfl, .inl ⟨(), 1, _, rfl, rfl, rfl⟩, rfl, rfl, rfl⟩
  have hrun : Runs (isolated uploadStatements true anyCall)
      (started twoUploads) (unchanged none 0) (started twoUploads)
      (unchanged none 0) := .refl
  replace hrun := hrun.tail (.step (t := true) rfl (hprepare _))
  replace hrun := hrun.tail (.step (t := false) rfl hbegin)
  replace hrun := hrun.tail (.step (t := false) rfl hinside)
  replace hrun := hrun.tail (.step (t := false) rfl hlooked)
  replace hrun := hrun.tail (.step (t := false) rfl hrollback)
  replace hrun := hrun.tail (.step (t := true) rfl hfailed)
  have hclosed : (⟨twoFiles, none, 0⟩ : Link UploadDb).txn = none := rfl
  have hend := (operations_isolated twoUploads hclosed hrun).2
  exact ⟨_, hend true _ rfl, hend false _ rfl⟩

/-- An update made inside the transaction of another operation is gone
when that operation rolls back, though it was answered. -/
theorem markUploadFailed_lost :
    ∃ pool w, Runs (Shared.Acts uploadStatements true anyCall)
        (started twoUploads) (Shared.fresh ⟨twoFiles, none, 0⟩ ()) pool w
      ∧ pool true = some (.done (.ok ()))
      ∧ pool false = some (.done (.ok BeginUploadResult.alreadyReceived))
      ∧ w.link.txn = none ∧ w.link.committed = twoFiles
      ∧ ¬Isolated twoFiles (twoUploads true).effect true
          (.ok () : Except Status (twoUploads true).Answer) w := by
  have hbegin : Shared.Acts uploadStatements true anyCall false
      (.inl .begin) (unchanged none 0) none (unchanged (some twoFiles) 0) :=
    ⟨.inl ⟨rfl, rfl, rfl⟩, rfl, rfl, rfl⟩
  have hprepare : ∀ t, Shared.Acts uploadStatements true anyCall t
      (.inl .prepare) (unchanged (some twoFiles) 0) none
      (unchanged (some twoFiles) 0) :=
    fun t => ⟨⟨rfl, fun h => absurd rfl h⟩, rfl, rfl, rfl⟩
  have hfailed : Shared.Acts uploadStatements true anyCall true
      (.inl (.step (.markFailed (text "s") (text "b"))))
      (unchanged (some twoFiles) 0) (.ok ())
      (unchanged (some (twoFiles.markFailed (text "s") (text "b")).2) 1) :=
    ⟨.inl ⟨(), 1, _, rfl, rfl, rfl⟩, rfl, rfl, rfl⟩
  have hlooked : Shared.Acts uploadStatements true anyCall false
      (.inl (.step (.uploadState (text "s") (text "a"))))
      (unchanged (some (twoFiles.markFailed (text "s") (text "b")).2) 1)
      (.ok (some UploadFileState.received))
      (unchanged (some (twoFiles.markFailed (text "s") (text "b")).2) 1) :=
    ⟨.inl ⟨_, _, _, rfl, rfl, rfl⟩, rfl, rfl, rfl⟩
  have hrollback : Shared.Acts uploadStatements true anyCall false
      (.inl .rollback)
      (unchanged (some (twoFiles.markFailed (text "s") (text "b")).2) 1)
      none (unchanged none 1) := ⟨rfl, rfl, rfl, rfl⟩
  have hrun : Runs (Shared.Acts uploadStatements true anyCall)
      (started twoUploads) (unchanged none 0) (started twoUploads)
      (unchanged none 0) := .refl
  replace hrun := hrun.tail (.step (t := false) rfl hbegin)
  replace hrun := hrun.tail (.step (t := false) rfl (hprepare _))
  replace hrun := hrun.tail (.step (t := true) rfl (hprepare _))
  replace hrun := hrun.tail (.step (t := true) rfl hfailed)
  replace hrun := hrun.tail (.step (t := false) rfl hlooked)
  replace hrun := hrun.tail (.step (t := false) rfl hrollback)
  refine ⟨_, _, hrun, rfl, rfl, rfl, rfl, fun h => ?_⟩
  rcases h.ok _ rfl with ⟨a, b, -, hmade⟩ | ⟨-, a, heffect, hseen⟩
  · cases hmade
  · rcases hseen with rfl | ⟨made, hmem, -⟩
    · have hchanges : UploadDb.markUploadFailed (text "s") (text "b") twoFiles
          ≠ some ((), twoFiles) := by decide
      exact hchanges heffect
    · cases hmem

end PhotoBridge.Upload
