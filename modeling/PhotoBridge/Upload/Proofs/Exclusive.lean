/-
Who uses a file's temporary name.

Only the thread that holds the file does, as long as no handler of that
file finds a body of the registered size whose digest is not the
registered one: that handler gives the file up first and takes its
temporary name away after, when the file may be another's already.
-/
import PhotoBridge.Upload.Proofs.Durable

namespace PhotoBridge.Upload

open Concurrent SharedConnection

/-- A promise about this file's temporary name. -/
def Terms.about (row : UploadFileRow) : Terms := ⟨fun key => key == row.key, false⟩

variable {τ : Type} [DecidableEq τ]

/-- The calls of threads each of which may meet errors or not. -/
def handling (faulty : τ → Bool) : τ → Effects serverCalls (World τ) :=
  fun t => World.Acts (faulty t) t

namespace World

variable {terms : Terms} {blake3 : Bytes → Digest} {quota : UploadQuota}
  {w w' : World τ} {t : τ}

/-- Who holds a file has begun an upload. -/
def Begun (w : World τ) : Prop :=
  ∀ s f u, w.holder s f = some u → w.started u = true

theorem Acts.begun {faulty : Bool} {c : serverCalls.Call}
    {r : serverCalls.Answer c} (h : Acts faulty t c w r w')
    (hw : Sound terms blake3 quota w) (hbegun : w.Begun) : w'.Begun := by
  obtain ⟨hhost, hholder, -, hstarted⟩ := h
  intro s f u hu
  rw [hholder, holderAfter] at hu
  rw [hstarted]
  by_cases hr : w'.db.receiving s f = true
  · rw [if_pos hr] at hu
    by_cases hr' : w.db.receiving s f = true
    · rw [if_pos hr'] at hu
      exact Bool.or_eq_true_iff.2 (.inl (hbegun s f u hu))
    · rw [if_neg hr'] at hu
      cases hu
      have hanswers : answersStarted c r = true := by
        have hnew : w'.link = w.link → answersStarted c r = true := by
          intro hlink
          have hdb : w'.db = w.db := congrArg Link.committed hlink
          rw [hdb] at hr
          exact absurd hr hr'
        cases c with
        | inr c => exact hnew hhost.2
        | inl op =>
            cases op with
            | getFile s f =>
                exact hnew (StoreOp.Acts.getFile hhost hw.closed).1
            | interrupted =>
                exact hnew (StoreOp.Acts.interrupted hhost hw.closed).1
            | change op =>
                obtain ⟨-, herror, hok⟩ := StoreOp.Acts.change hhost hw.closed
                cases r with
                | error e =>
                    have hdb : w'.db = w.db := herror e rfl
                    rw [hdb] at hr
                    exact absurd hr hr'
                | ok v =>
                    rcases UploadDb.Operation.effect_receiving hw.tables
                      (hok v rfl) hr with hold | hstarted
                    · exact absurd hold hr'
                    · exact hstarted
      refine Bool.or_eq_true_iff.2 (.inr ?_)
      rw [hanswers, beq_self_eq_true, Bool.and_true]
  · rw [if_neg hr] at hu
    cases hu

omit [DecidableEq τ] in
/-- The promise about one file's temporary name, where the file is not
published unless it is received or being received. -/
theorem Sound.exclusively (hw : Sound (.plain false) blake3 quota w)
    {row : UploadFileRow} (hrow : row ∈ w.db.files)
    (hopen : row.state = .pending ∨ row.state = .failed →
      w.disk.files row.final = none) :
    Sound (.about row) blake3 quota w where
  closed := hw.closed
  tables := hw.tables
  files := hw.files
  authors := hw.authors
  holder := hw.holder
  home := hw.home
  passed := hw.passed
  received := hw.received
  durable := nofun
  unpublished := by
    intro row' hrow' hkey hstate
    rw [hw.tables.row_unique hrow' hrow (beq_iff_eq.1 hkey)] at hstate ⊢
    exact hopen hstate

end World

section Uploads

variable {blake3 : Bytes → Digest} {quota : UploadQuota} {faulty₀ : Bool}
  {faulty : τ → Bool} {requests₀ requests : τ → PutRequest}
  {sys₀ : System τ} {w₀ w : World τ} {row : UploadFileRow}
  {pool : Pool τ serverCalls fun _ => Response}

/-- A handler for each request, none of which has begun. -/
def handlers (blake3 : Bytes → Digest) (requests : τ → PutRequest) :
    Pool τ serverCalls fun _ => Response :=
  fun t => some (put blake3 (requests t))

/-- The key a request is for. -/
def PutRequest.key (request : PutRequest) : Bytes × Bytes :=
  (request.sessionId, request.fileId)

/-- What holds while handlers run. -/
structure Uploading (blake3 : Bytes → Digest) (quota : UploadQuota)
    (faulty : τ → Bool) (requests : τ → PutRequest) (directories : Path → Bool)
    (row : UploadFileRow) (pool : Pool τ serverCalls fun _ => Response)
    (w : World τ) : Prop where
  sound : pool.Sound
    (World.uploads τ (.about row) blake3 quota)
    (handling faulty)
    (fun t => World.Replies (.about row) blake3
      directories (faulty t) t (requests t)) w
  begun : w.Begun
  known : World.Known row w

theorem Uploading.run {pool₀ : Pool τ serverCalls fun _ => Response}
    {directories : Path → Bool}
    (h : Uploading blake3 quota faulty requests directories row pool₀ w₀)
    (hrun : Runs (handling faulty) pool₀ w₀ pool w) :
    Uploading blake3 quota faulty requests directories row pool w := by
  induction hrun with
  | refl => exact h
  | tail _ hmove ih =>
      obtain ⟨hsound, hguar⟩ := hmove.sound ih.sound
      refine ⟨hsound, ?_, ih.known.next hguar.keeps.rows⟩
      cases hmove with
      | step _ hc => exact World.Acts.begun hc ih.sound.inv ih.begun

theorem uploading_handlers (hquota : quota.maxReservedBytes.toNat < 2 ^ 63)
    (hfresh : sys₀.Fresh)
    (hreach : Relation.ReflTransGen
      (System.Step blake3 quota faulty₀ requests₀) sys₀
      ⟨.serving fun _ => none, w₀⟩)
    (hrow : row ∈ w₀.db.files)
    (hopen : row.state = .pending ∨ row.state = .failed →
      w₀.disk.files (finalPath row.sessionId row.safeFilename) = none)
    (hhonest : ∀ t, (requests t).key = row.key →
      (requests t).body.Honest blake3 row) :
    Uploading blake3 quota faulty requests w₀.disk.directories row
      (handlers blake3 requests) w₀ := by
  have hbegin : sys₀.Sound false blake3 quota faulty₀ := hfresh.sound
  obtain ⟨hsys, -⟩ := hbegin.run hquota (System.stepsFrom_of_step hreach)
  cases hsys with
  | serving hpool hidle =>
  have hw := hpool.inv.exclusively hrow hopen
  refine ⟨⟨hw, fun t p hp => ?_⟩, fun s f u hu => ?_, row, hrow, .refl row⟩
  · cases hp
    have hcoming : World.Coming (.about row) blake3
        w₀.disk.directories t (requests t) w₀ := by
      refine ⟨hidle t rfl, fun _ => rfl, fun hkey => ?_⟩
      have hkey' : (requests t).key = row.key := beq_iff_eq.1 hkey
      exact ⟨row, hkey'.symm, ⟨row, hrow, .refl row⟩, hhonest t hkey'⟩
    have hput : World.Handles (.about row) blake3 quota (faulty t) t
        (World.Coming (.about row) blake3 w₀.disk.directories t (requests t))
        (put blake3 (requests t)) _ := World.put_handles hquota (requests t)
    have heffects : World.Acts (faulty t) t = handling faulty t := rfl
    exact (hput w₀ hw hcoming).congr heffects
  · exact absurd hu ((hidle u rfl).free s f)

/-- Handlers of any files, made to wait for each other and to fail in any
way, where the bodies of those for this file that have the registered size
have the registered digest: only the one that holds the file, which
started, touches its temporary name. A handler of the file that started
and met no error publishes a body that matches. Every handler can run to
its end. -/
theorem uploads_exclusive (hquota : quota.maxReservedBytes.toNat < 2 ^ 63)
    (hfresh : sys₀.Fresh)
    (hreach : Relation.ReflTransGen
      (System.Step blake3 quota faulty₀ requests₀) sys₀
      ⟨.serving fun _ => none, w₀⟩)
    (hrow : row ∈ w₀.db.files)
    (hopen : row.state = .pending ∨ row.state = .failed →
      w₀.disk.files (finalPath row.sessionId row.safeFilename) = none)
    (hhonest : ∀ t, (requests t).key = row.key →
      (requests t).body.Honest blake3 row)
    (hrun : Runs (handling faulty)
      (handlers blake3 requests) w₀ pool w) :
    (∀ t c pool' w', Moves (handling faulty) t c pool w
        pool' w' →
      w.Touches c (tempPath row.sessionId row.fileId) →
        w.holder row.sessionId row.fileId = some t ∧ w.started t = true)
    ∧ (∀ t r, pool t = some (.done r) → (requests t).key = row.key →
      w.started t = true → faulty t = false →
      (requests t).body.Matches blake3 row →
      row.Roomy w₀.disk.directories →
        r = .published (blake3 (requests t).body.content)
          ∧ ∃ i, w.disk.files (finalPath row.sessionId row.safeFilename) = some i
            ∧ w.disk.content i = (requests t).body.content)
    ∧ ∀ t, ∃ pool' w' r, Runs (handling faulty) pool w
        pool' w'
      ∧ pool' t = some (.done r) := by
  have h := (uploading_handlers hquota hfresh hreach hrow hopen hhonest).run hrun
  refine ⟨fun t c pool' w' hmove htouch => ?_,
    fun t r hdone hkey hstarted hf hmatches hroom => ?_, fun t => ?_⟩
  · obtain ⟨-, hguar⟩ := hmove.sound h.sound
    have hheld := hguar.exclusive _ _ (beq_self_eq_true row.key) htouch
    exact ⟨hheld, h.begun _ _ _ hheld⟩
  · have hreplies := h.sound.ended hdone
    obtain ⟨row', hrow', hsame⟩ := h.known
    have hanswer := hreplies (beq_iff_eq.2 hkey) hf hstarted row' hrow'
      (hsame.key.trans hkey.symm) (hsame.symm.matches hmatches)
      (hsame.symm.roomy hroom)
    rw [World.There, hsame.final] at hanswer
    exact hanswer
  · cases ht : pool t with
    | none => cases hrun.unstarted ht
    | some p =>
        have hanswers : ∀ c s, handling faulty t c s
            (World.answers t c s).1 (World.answers t c s).2 :=
          World.answers_acts (faulty t) t
        exact ⟨_, _, _, .eval hanswers .refl ht, Function.update_self ..⟩

end Uploads

-- ======================================================= an honest upload

/-- The row of the registered file. -/
def registeredRow : UploadFileRow :=
  requestRow someNonces 0 ⟨text "a.jpg", 1, some (blake3Of (text "a"))⟩
    (text "a.jpg")

theorem registeredRow_mem : registeredRow ∈ registered.db.files := by decide

private theorem registeredRow_unpublished :
    registered.disk.files
      (finalPath registeredRow.sessionId registeredRow.safeFilename) = none := rfl

private theorem twoRequests_matches :
    (twoRequests false).body.Matches blake3Of registeredRow :=
  ⟨⟨rfl, rfl⟩, fun _ hdigest => (Option.some.inj hdigest).symm⟩

private theorem registeredRow_roomy :
    registeredRow.Roomy registered.disk.directories :=
  ⟨rfl, rfl, rfl, rfl, rfl, rfl⟩

/-- Two uploads of the registered contents: the first is published. -/
theorem uploads_exclusive_honest :
    ∃ w : World Bool, ∃ i,
      w.disk.files (finalPath registeredRow.sessionId registeredRow.safeFilename)
          = some i
        ∧ w.disk.content i = (twoRequests false).body.content := by
  have hreach : Relation.ReflTransGen
      (System.StepsFrom false blake3Of .standard false twoRequests)
      ⟨.down, freshWorld⟩ ⟨.serving fun _ => none, registered⟩ := registered_run
  have hanswers : ∀ c s, handling (fun _ => false) false c s
      (World.answers false c s).1 (World.answers false c s).2 :=
    World.answers_acts false false
  have hrun : Runs (handling fun _ => false)
      (handlers blake3Of fun _ : Bool => twoRequests false) registered _ _ :=
    .after hanswers 20 .refl rfl
  obtain ⟨-, hpublished, -⟩ := uploads_exclusive (by decide) freshWorld_fresh
    (System.step_of_stepsFrom hreach) registeredRow_mem
    (fun _ => registeredRow_unpublished)
    (fun _ _ _ => twoRequests_matches.client) hrun
  obtain ⟨-, i, hi, hcontent⟩ := hpublished false _ rfl rfl rfl rfl
    twoRequests_matches registeredRow_roomy
  exact ⟨_, i, hi, hcontent⟩

-- ====================================================== a mismatched one

/-- The second request's handler, about to take its temporary name away. -/
def mismatched : ServerM Response × World Bool :=
  (put blake3Of (twoRequests true)).after (World.answers true) 8 registered

/-- The first one's, which has made its temporary file since. -/
def creating : ServerM Response × World Bool :=
  (put blake3Of (twoRequests false)).after (World.answers false) 4 mismatched.2

def unlinking : ServerM Response × World Bool :=
  mismatched.1.after (World.answers true) 1 creating.2

/-- The first one's, to its end. -/
def lost : ServerM Response × World Bool :=
  creating.1.after (World.answers false) 20 unlinking.2

/-- A handler that finds the wrong digest takes away the temporary file of
the one that holds the file, whose upload is then answered with an error
though it matches and no call failed by itself. -/
theorem uploads_exclusive_mismatched :
    (∃ pool c pool' w',
      Runs (handling fun _ => false) (handlers blake3Of twoRequests) registered
          pool creating.2
        ∧ Moves (handling fun _ => false) true c pool creating.2 pool' w'
        ∧ creating.2.Touches c
          (tempPath registeredRow.sessionId registeredRow.fileId)
        ∧ creating.2.holder registeredRow.sessionId registeredRow.fileId
          = some false)
    ∧ ∃ pool r, Runs (handling fun _ => false) (handlers blake3Of twoRequests)
        registered pool lost.2
      ∧ pool false = some (.done r) ∧ lost.2.started false = true
      ∧ (twoRequests false).body.Matches blake3Of registeredRow
      ∧ registeredRow.Roomy registered.disk.directories
      ∧ r = .line 500 (text "unable to publish upload")
      ∧ lost.2.disk.files
        (finalPath registeredRow.sessionId registeredRow.safeFilename) = none := by
  have hanswers : ∀ (t : Bool) c s, handling (fun _ => false) t c s
      (World.answers t c s).1 (World.answers t c s).2 :=
    World.answers_acts false
  have hmismatched : Runs (handling fun _ => false)
      (handlers blake3Of twoRequests) registered _ mismatched.2 :=
    .after (hanswers true) 8 .refl rfl
  have hcreating : Runs (handling fun _ => false)
      (handlers blake3Of twoRequests) registered _ creating.2 :=
    .after (hanswers false) 4 hmismatched rfl
  have hunlinking : Runs (handling fun _ => false)
      (handlers blake3Of twoRequests) registered _ unlinking.2 :=
    .after (hanswers true) 1 hcreating rfl
  have hlost : Runs (handling fun _ => false)
      (handlers blake3Of twoRequests) registered _ lost.2 :=
    .after (hanswers false) 20 hunlinking rfl
  refine ⟨⟨_, _, _, _, hcreating, .step rfl (hanswers true
      (.inr (.unlink (tempPath registeredRow.sessionId registeredRow.fileId))) _),
      rfl, rfl⟩, _, _, hlost, rfl, rfl, twoRequests_matches,
    registeredRow_roomy, rfl, rfl⟩

end PhotoBridge.Upload
