/-
The receiver through any number of lives: whatever the handlers, the other
requests, kills and restarts do, a file that is RECEIVED stands under its
final name with the contents that passed the checks, and stays so.

One step keeps `System.Sound` (`System.Step.sound`), which says of each
phase what the threads and the recovery were proved to need; the rest is
induction on the run.
-/
import PhotoBridge.Upload.Proofs.Recovery
import Mathlib.Logic.Relation

namespace PhotoBridge.Upload

open Concurrent SharedConnection

namespace World

variable {τ : Type} {terms : Terms} {durable : Bool} {blake3 : Bytes → Digest}
  {quota : UploadQuota} {faulty : Bool} {w w' w'' : World τ}

-- ========================================================== worlds kept

theorem Keeps.trans (h : w.Keeps w') (h' : w'.Keeps w'') : w.Keeps w'' := by
  refine ⟨fun s x i hi => ?_, fun row hrow hstate =>
    h'.received row (h.received row hrow hstate) hstate, fun row hrow => ?_⟩
  · obtain ⟨hi', hcontent⟩ := h.finals s x i hi
    obtain ⟨hi'', hcontent'⟩ := h'.finals s x i hi'
    exact ⟨hi'', hcontent'.trans hcontent⟩
  · obtain ⟨row', hrow', hsame⟩ := h.rows row hrow
    obtain ⟨row'', hrow'', hsame'⟩ := h'.rows row' hrow'
    exact ⟨row'', hrow'', hsame.trans hsame'⟩

/-- The process changes, the tables and the disk do not. -/
structure Same (w w' : World τ) : Prop where
  closed : w'.link.txn = none
  db : w'.db = w.db
  disk : w'.disk = w.disk
  author : w'.author = w.author

theorem Same.keeps (h : Same w w') : w.Keeps w' := by
  refine ⟨?_, ?_, ?_⟩
  · rw [h.disk]
    exact fun _ _ _ hi => ⟨hi, rfl⟩
  · rw [h.db]
    exact fun _ hrow _ => hrow
  · rw [h.db]
    exact fun row hrow => ⟨row, hrow, .refl row⟩

theorem Same.sound (h : Same w w') (hw : Sound terms blake3 quota w)
    (hholder : ∀ s f, w'.holder s f = none) : Sound terms blake3 quota w' := by
  obtain ⟨hclosed, hdb, hdisk, hauthor⟩ := h
  refine ⟨hclosed, ?_, ?_, ?_, ?_, ?_, ?_, ?_, ?_, ?_⟩
  · rw [hdb]
    exact hw.tables
  · rw [hdisk]
    exact hw.files
  · rw [hauthor, hdisk]
    exact hw.authors
  · intro s f t ht
    rw [hholder] at ht
    cases ht
  · rw [hdisk, hdb]
    exact hw.home
  · rw [hdisk, hdb]
    exact hw.passed
  · rw [hdisk, hdb]
    exact hw.received
  · rw [hdisk, hdb]
    exact hw.durable
  · rw [hdisk, hdb]
    exact hw.unpublished

theorem Same.quiet (h : Same w w') (hw : Sound (.plain durable) blake3 quota w)
    (hholder : ∀ s f, w'.holder s f = none) (hstarted : ∀ t, w'.started t = false) :
    Quiet durable blake3 quota w' :=
  ⟨h.sound hw hholder, hholder, hstarted⟩

theorem Sound.forgets (hw : Sound terms blake3 quota w) : Same w w.forgotten :=
  ⟨hw.closed, rfl, rfl, rfl⟩

theorem Sound.forgotten (hw : Sound (.plain durable) blake3 quota w) :
    Quiet durable blake3 quota w.forgotten :=
  hw.forgets.quiet hw (fun _ _ => rfl) fun _ => rfl

/-- An operation of another request. -/
theorem ActsAlone.aside (hquota : quota.maxReservedBytes.toNat < 2 ^ 63)
    {op : Operation} {r : Except Status op.Answer} (hop : op.Aside quota)
    (h : ActsAlone faulty (.inl (.change op)) w r w')
    (hw : Sound (.plain durable) blake3 quota w) :
    Sound (.plain durable) blake3 quota w' ∧ w.Keeps w'
      ∧ ∀ t, Rely (.plain durable) t w w' := by
  have hunder : op.Under quota := by
    cases op with
    | createSession quota' drawn files => exact hop
    | _ => exact trivial
  obtain ⟨hstored, -⟩ := h.stored hquota hunder hw
    (fun _ _ => False.elim) fun v _ heffect =>
      UploadDb.Operation.aside_steps hop heffect
  refine ⟨hstored.sound hw (fun _ _ => False.elim) fun _ _ => False.elim,
    hstored.keeps, fun t => hstored.rely (fun _ _ => False.elim) ?_ ?_⟩
  · rintro ⟨key, hkey⟩
    cases hkey
  · rw [h.2.2.2]

end World

-- ============================================================== the system

section System

variable {τ : Type} [DecidableEq τ]

/-- What a handler leaves; nothing is said of its answer here. -/
def anyReply : (t : τ) → Response → World τ → Prop := fun _ _ _ => True

/-- What holds of the receiver in each phase. -/
inductive System.Sound (durable : Bool) (blake3 : Bytes → Digest)
    (quota : UploadQuota) (faulty : Bool) : System τ → Prop
  | down {w : World τ} (hquiet : w.Quiet durable blake3 quota) :
      Sound durable blake3 quota faulty ⟨.down, w⟩
  | opening {rest : ServerM (Except Status Unit)} {w : World τ}
      (hquiet : w.Quiet durable blake3 quota)
      (hsafe : Safe (World.opening τ durable blake3 quota)
        (fun _ => World.ActsAlone faulty) () (fun _ _ => True) rest w) :
      Sound durable blake3 quota faulty ⟨.opening rest, w⟩
  | serving {pool : Pool τ serverCalls fun _ => Response} {w : World τ}
      (hpool : pool.Sound (World.uploads τ (.plain durable) blake3 quota)
        (World.Acts faulty) anyReply w)
      (hidle : ∀ t, pool t = none → World.Idle t w) :
      Sound durable blake3 quota faulty ⟨.serving pool, w⟩

variable {durable : Bool} {blake3 : Bytes → Digest} {quota : UploadQuota}
  {faulty : Bool} {requests : τ → PutRequest} {sys sys' sys₀ : System τ}

theorem System.Sound.world (h : sys.Sound durable blake3 quota faulty) :
    sys.world.Sound (.plain durable) blake3 quota := by
  cases h with
  | down hquiet => exact hquiet.sound
  | opening hquiet _ => exact hquiet.sound
  | serving hpool _ => exact hpool.inv

/-- The step starts the process. -/
def System.Starts (sys sys' : System τ) : Prop :=
  sys.phase = .down ∧ sys'.phase ≠ .down

/-- One step keeps what holds of the receiver, and published files as they
are, if a start finds the published names durable. -/
theorem System.Step.sound (hquota : quota.maxReservedBytes.toNat < 2 ^ 63)
    (hstep : System.Step blake3 quota faulty requests sys sys')
    (hstarts : sys.Starts sys' → sys.world.Synced durable)
    (h : sys.Sound durable blake3 quota faulty) :
    sys'.Sound durable blake3 quota faulty ∧ sys.world.Keeps sys'.world := by
  cases hstep with
  -- a process starts, with the connection as the last one left it
  | starts =>
      rename_i w
      cases h with
      | down hquiet =>
      have hsame : World.Same w { w with link := Link.opened w.link.committed } :=
        ⟨rfl, rfl, rfl, rfl⟩
      have hquiet' := hsame.quiet hquiet.sound hquiet.holder hquiet.started
      refine ⟨.opening hquiet' ?_, hsame.keeps⟩
      exact World.openStore_alone hquota _ hquiet' (hstarts ⟨rfl, nofun⟩)
  -- recovery makes a call, by itself
  | opens hc =>
      cases h with
      | opening hquiet hsafe =>
      obtain ⟨hquiet', hkeeps, hrest⟩ := hsafe _ hquiet rfl _ _ hc
      exact ⟨.opening hquiet' hrest, hkeeps⟩
  -- it is done, and nobody holds anything yet
  | serves =>
      cases h with
      | opening hquiet _ =>
      refine ⟨.serving ⟨hquiet.sound, nofun⟩ fun t _ => ⟨fun s f hh => ?_,
        hquiet.started t⟩, .refl _⟩
      rw [hquiet.holder] at hh
      cases hh
  -- it fails, and the process ends
  | refuses =>
      cases h with
      | opening hquiet _ =>
      exact ⟨.down hquiet.sound.forgotten, hquiet.sound.forgets.keeps⟩
  -- a request for a thread that has none
  | arrives hfree =>
      rename_i t pool w
      cases h with
      | serving hpool hidle =>
      have hcoming : World.Coming (.plain durable) blake3 w.disk.directories t
          (requests t) w := by
        refine ⟨hidle t hfree, ?_, nofun⟩
        rintro ⟨key, hkey⟩
        cases hkey
      have hput : World.Handles (.plain durable) blake3 quota faulty t
          (World.Coming (.plain durable) blake3 w.disk.directories t (requests t))
          (put blake3 (requests t)) (anyReply t) :=
        Triple.strengthen (World.put_handles hquota (requests t))
          fun _ _ _ _ => trivial
      exact ⟨.serving (hpool.start (hput w hpool.inv hcoming)) fun u hu =>
        hidle u (unstarted hu).2, .refl w⟩
  -- a thread makes a call
  | moves hmove =>
      cases h with
      | serving hpool hidle =>
      obtain ⟨hpool', hguar⟩ := hmove.sound hpool
      refine ⟨.serving hpool' fun u hu => ?_, hguar.keeps⟩
      obtain ⟨hne, hnone⟩ := hmove.unstarted hu
      exact (hidle u hnone).rely (hguar.rely u hne)
  -- so does one that does not upload
  | aside hop hc =>
      cases h with
      | serving hpool hidle =>
      obtain ⟨hinv, hkeeps, hrely⟩ := hc.aside hquota hop hpool.inv
      exact ⟨.serving ⟨hinv, fun t p hp => (hpool.safe t p hp).rely (hrely t)⟩
        fun t ht => (hidle t ht).rely (hrely t), hkeeps⟩
  -- a kill leaves what is committed and what is on disk
  | killed =>
      have hw := h.world
      exact ⟨.down hw.forgotten, hw.forgets.keeps⟩

-- ================================================================ runs

/-- A step, a start only where the published names are durable. -/
def System.StepsFrom (durable : Bool) (blake3 : Bytes → Digest)
    (quota : UploadQuota) (faulty : Bool) (requests : τ → PutRequest)
    (sys sys' : System τ) : Prop :=
  System.Step blake3 quota faulty requests sys sys'
    ∧ (sys.Starts sys' → sys.world.Synced durable)

theorem System.Fresh.sound (h : sys.Fresh) :
    sys.Sound durable blake3 quota faulty := by
  obtain ⟨hdown, htables, hfiles, hholder, hauthor, hstarted⟩ := h
  obtain ⟨phase, w⟩ := sys
  have hdb : w.db = .empty := congrArg Link.committed htables
  have hnone : ∀ row ∈ w.db.files, False := by
    rw [hdb]
    exact fun _ hrow => List.not_mem_nil hrow
  have hphase : phase = .down := hdown
  subst hphase
  refine .down ⟨⟨?_, ?_, fun path i hi => (hfiles path i hi).2, ?_, ?_, ?_, ?_, ?_,
    ?_, ?_⟩, hholder, hstarted⟩
  · rw [htables]
    rfl
  · rw [hdb]
    exact UploadDb.empty_sound
  · intro i t ht
    rw [hauthor] at ht
    cases ht
  · intro s f t ht
    rw [hholder] at ht
    cases ht
  · intro s x i hi
    exact absurd rfl (hfiles _ i hi).1
  · exact fun row hrow => (hnone row hrow).elim
  · exact fun row hrow => (hnone row hrow).elim
  · exact fun _ row hrow => (hnone row hrow).elim
  · exact fun row hrow => (hnone row hrow).elim

/-- What holds of the receiver at one point holds from then on, and
published files stay as they are. -/
theorem System.Sound.run (hquota : quota.maxReservedBytes.toNat < 2 ^ 63)
    (h : sys.Sound durable blake3 quota faulty)
    (hrun : Relation.ReflTransGen
      (System.StepsFrom durable blake3 quota faulty requests) sys sys') :
    sys'.Sound durable blake3 quota faulty ∧ sys.world.Keeps sys'.world := by
  induction hrun with
  | refl => exact ⟨h, .refl sys.world⟩
  | tail _ hstep ih =>
      obtain ⟨hsound, hkeeps⟩ := ih
      obtain ⟨hsound', hkeeps'⟩ := hstep.1.sound hquota hstep.2 hsound
      exact ⟨hsound', hkeeps.trans hkeeps'⟩

/-- Where nothing is said of durability, any step will do. -/
theorem System.stepsFrom_of_step (hrun : Relation.ReflTransGen
      (System.Step blake3 quota faulty requests) sys sys') :
    Relation.ReflTransGen
      (System.StepsFrom false blake3 quota faulty requests) sys sys' := by
  induction hrun with
  | refl => exact .refl
  | tail _ hstep ih => exact ih.tail ⟨hstep, fun _ hdurable => by cases hdurable⟩

theorem System.step_of_stepsFrom (hrun : Relation.ReflTransGen
      (System.StepsFrom durable blake3 quota faulty requests) sys sys') :
    Relation.ReflTransGen
      (System.Step blake3 quota faulty requests) sys sys' := by
  induction hrun with
  | refl => exact .refl
  | tail _ hstep ih => exact ih.tail hstep.1

/-- A program of the opening phase run to its end. -/
theorem System.opening_run (p : ServerM (Except Status Unit)) (w : World τ) :
    Relation.ReflTransGen
      (System.StepsFrom durable blake3 quota faulty requests)
      ⟨.opening p, w⟩
      ⟨.opening (.done (p.eval World.answersAlone w).1),
        (p.eval World.answersAlone w).2⟩ := by
  induction p generalizing w with
  | done a => exact .refl
  | call c next ih =>
      refine .head ⟨.opens (World.answersAlone_acts faulty c w), ?_⟩ (ih _ _)
      rintro ⟨hdown, -⟩
      cases hdown

/-- The receiver started, where nothing fails. -/
theorem System.opened_run {w : World τ} (hsynced : w.Synced durable)
    (hok : (w.openedAlone blake3).1 = .ok ()) :
    Relation.ReflTransGen
      (System.StepsFrom durable blake3 quota faulty requests)
      ⟨.down, w⟩ ⟨.serving fun _ => none, (w.openedAlone blake3).2⟩ := by
  refine .head ⟨.starts, fun _ => hsynced⟩ ((System.opening_run _ _).tail ?_)
  rw [show ((openStore blake3).eval World.answersAlone _).1 = .ok () from hok]
  refine ⟨.serves, ?_⟩
  rintro ⟨hdown, -⟩
  cases hdown

/-- Handlers at work. -/
theorem System.serving_run
    {pool pool' : Pool τ serverCalls fun _ => Response} {w w' : World τ}
    (hrun : Concurrent.Runs (World.Acts faulty) pool w pool' w') :
    Relation.ReflTransGen
      (System.StepsFrom durable blake3 quota faulty requests)
      ⟨.serving pool, w⟩ ⟨.serving pool', w'⟩ := by
  induction hrun with
  | refl => exact .refl
  | tail _ hmove ih =>
      refine ih.tail ⟨.moves hmove, ?_⟩
      rintro ⟨hdown, -⟩
      cases hdown

-- ================================================================ a run

/-- BLAKE3 of the two bodies below. -/
def blake3Of (content : Bytes) : Digest :=
  if content = text "a" then
    ⟨[23, 118, 47, 221, 217, 105, 164, 83, 146, 93, 101, 113, 122, 195, 238,
      162, 19, 32, 182, 107, 84, 52, 47, 222, 21, 18, 141, 108, 175, 33, 33,
      95], rfl⟩
  else
    ⟨[16, 229, 207, 61, 60, 138, 79, 159, 52, 104, 200, 204, 88, 238, 168, 72,
      146, 162, 47, 218, 219, 193, 172, 178, 36, 16, 25, 0, 68, 193, 213, 83],
      rfl⟩

/-- An empty workspace. -/
def freshWorld : World Bool where
  link := Link.opened .empty
  disk := ⟨fun _ => none, fun _ => false, fun _ => [], fun _ => false, 0⟩
  holder := fun _ _ => none
  author := fun _ => none
  started := fun _ => false

def someNonces : Drawn := digitNonces fun _ => 0

/-- A session of one file, of one byte. -/
def oneFile : Operation :=
  .createSession .standard someNonces
    [⟨text "a.jpg", 1, some (blake3Of (text "a"))⟩]

/-- Two uploads of the file, the second not what was registered. -/
def twoRequests (t : Bool) : PutRequest where
  authorized := true
  sessionId := someNonces.sessionId
  fileId := someNonces.fileId 0
  body := ⟨[if t then text "b" else text "a"], true⟩

/-- The receiver started, and the session created. -/
def registered : World Bool :=
  ((freshWorld.openedAlone blake3Of).2.answersAlone (.inl (.change oneFile))).2

/-- The first upload after this many calls. -/
def uploadAfter (calls : Nat) : ServerM Response × World Bool :=
  (put blake3Of (twoRequests false)).after (World.answers false) calls registered

theorem freshWorld_fresh : System.Fresh ⟨.down, freshWorld⟩ where
  down := rfl
  tables := rfl
  files := nofun
  holder := fun _ _ => rfl
  author := fun _ => rfl
  started := fun _ => rfl

private theorem freshWorld_synced : freshWorld.Synced durable :=
  fun _ _ hrow => absurd hrow List.not_mem_nil

/-- The receiver started, and another request's operation made. -/
theorem aside_run {op : Operation} (hop : op.Aside .standard) :
    Relation.ReflTransGen
      (System.StepsFrom durable blake3Of .standard faulty twoRequests)
      ⟨.down, freshWorld⟩ ⟨.serving fun _ => none,
        ((freshWorld.openedAlone blake3Of).2.answersAlone
          (.inl (.change op))).2⟩ := by
  refine (System.opened_run freshWorld_synced rfl).tail
    ⟨.aside hop (World.answersAlone_acts faulty _ _), ?_⟩
  rintro ⟨hdown, -⟩
  cases hdown

/-- And the first upload made. -/
theorem put_run {w : World Bool} (hrun : Relation.ReflTransGen
      (System.StepsFrom durable blake3Of .standard faulty twoRequests)
      ⟨.down, freshWorld⟩ ⟨.serving fun _ => none, w⟩) (calls : Nat) :
    Relation.ReflTransGen
      (System.StepsFrom durable blake3Of .standard faulty twoRequests)
      ⟨.down, freshWorld⟩
      ⟨.serving (Function.update (Function.update (fun _ => none) false
          (some (put blake3Of (twoRequests false)))) false
        (some ((put blake3Of (twoRequests false)).after
          (World.answers false) calls w).1)),
        ((put blake3Of (twoRequests false)).after
          (World.answers false) calls w).2⟩ := by
  refine (hrun.tail ⟨.arrives (t := false) rfl, ?_⟩).trans
    (System.serving_run ?_)
  · rintro ⟨hdown, -⟩
    cases hdown
  · exact Concurrent.Runs.refl.after (World.answers_acts faulty false) calls
      (Function.update_self ..)

theorem registered_run :
    Relation.ReflTransGen
      (System.StepsFrom durable blake3Of .standard faulty twoRequests)
      ⟨.down, freshWorld⟩ ⟨.serving fun _ => none, registered⟩ :=
  aside_run (show oneFile.Aside .standard from rfl)

theorem uploadAfter_run (calls : Nat) :
    Relation.ReflTransGen
      (System.StepsFrom durable blake3Of .standard faulty twoRequests)
      ⟨.down, freshWorld⟩
      ⟨.serving (Function.update (Function.update (fun _ => none) false
          (some (put blake3Of (twoRequests false)))) false
        (some (uploadAfter calls).1)), (uploadAfter calls).2⟩ :=
  put_run registered_run calls

-- ===================================================== what RECEIVED means

/-- In every state of the receiver, whatever its handlers, kills and
restarts did before, a file that is RECEIVED has a final file of the
registered size whose digest is the server's, and the client's if one was
registered; and in every later state it still has. -/
theorem System.received_published
    (hquota : quota.maxReservedBytes.toNat < 2 ^ 63) (hfresh : sys₀.Fresh)
    (hrun : Relation.ReflTransGen
      (System.Step blake3 quota faulty requests) sys₀ sys)
    (hlater : Relation.ReflTransGen
      (System.Step blake3 quota faulty requests) sys sys') :
    ∀ row ∈ sys.world.db.files, row.state = .received →
      ∃ i, sys.world.disk.files (finalPath row.sessionId row.safeFilename)
          = some i
        ∧ ((sys.world.disk.content i).length : Int) = row.expectedSize.toInt
        ∧ row.serverDigest = some (blake3 (sys.world.disk.content i))
        ∧ (∀ digest, row.clientDigest = some digest →
          row.serverDigest = some digest)
        ∧ row ∈ sys'.world.db.files
        ∧ sys'.world.disk.files (finalPath row.sessionId row.safeFilename)
          = some i
        ∧ sys'.world.disk.content i = sys.world.disk.content i := by
  intro row hrow hstate
  have hbegin : sys₀.Sound false blake3 quota faulty := hfresh.sound
  obtain ⟨hsound, -⟩ := hbegin.run hquota (System.stepsFrom_of_step hrun)
  have hw := hsound.world
  obtain ⟨-, hkeeps⟩ := hsound.run hquota (System.stepsFrom_of_step hlater)
  obtain ⟨i, hi, hdigest⟩ := hw.received row hrow hstate
  have hpassed := hw.passed row hrow i hi
  obtain ⟨hi', hcontent⟩ := hkeeps.finals _ _ i hi
  refine ⟨i, hi, ?_, hdigest, fun digest hclient => ?_,
    hkeeps.received row hrow hstate, hi', hcontent⟩
  · rw [hpassed.size]
    exact toNat_toUInt64 (hw.tables.files row hrow).nonneg
  · rw [hdigest, ← hpassed.client digest hclient]

/-- An upload that went through, and the process killed after it. -/
theorem System.received_published_upload :
    ∃ row ∈ (uploadAfter 20).2.db.files, row.state = .received
      ∧ ∃ i, (uploadAfter 20).2.disk.files
          (finalPath row.sessionId row.safeFilename) = some i
        ∧ (((uploadAfter 20).2.disk.content i).length : Int)
          = row.expectedSize.toInt
        ∧ row.serverDigest = some (blake3Of ((uploadAfter 20).2.disk.content i))
        ∧ row ∈ (uploadAfter 20).2.forgotten.db.files := by
  have hreceived : ∃ row ∈ (uploadAfter 20).2.db.files,
      row.state = .received := by decide
  obtain ⟨row, hrow, hstate⟩ := hreceived
  have hrun : Relation.ReflTransGen
      (System.StepsFrom false blake3Of .standard false twoRequests) _ _ :=
    uploadAfter_run 20
  obtain ⟨i, hi, hsize, hdigest, -, hrow', -⟩ := System.received_published
    (by decide) freshWorld_fresh (System.step_of_stepsFrom hrun)
      (.single .killed) row hrow hstate
  exact ⟨row, hrow, hstate, i, hi, hsize, hdigest, hrow'⟩

end System

end PhotoBridge.Upload
