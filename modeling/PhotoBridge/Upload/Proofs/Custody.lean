/-
Who may do what to the files under `incoming/`: the protocol the PUT
handlers keep.

The state RECEIVING is a lock: the thread that set it (`World.holder`) is
the only one to publish the file, and what it writes to no one else can
reach under any name. Names are less safe than files: for the files that
are `exclusive` threads also promise to leave the temporary name alone
unless they hold the file, and the handler keeps that promise only where it
never finds a digest that differs from the client's. With `durable` they promise that a
received file's name would outlive a crash.
-/
import PhotoBridge.Upload.Proofs.Host
import PhotoBridge.Upload.Proofs.Rows

namespace PhotoBridge.Upload

open Concurrent SharedConnection

-- =============================================================== paths

def UploadFileRow.final (row : UploadFileRow) : Path :=
  finalPath row.sessionId row.safeFilename

def UploadFileRow.temp (row : UploadFileRow) : Path :=
  tempPath row.sessionId row.fileId

/-- A final's path tells its session and its name. -/
theorem finalPath_inj {s s' x x' : Bytes}
    (h : finalPath s x = finalPath s' x') : s = s' ∧ x = x' := by
  simp only [finalPath, List.cons.injEq, and_true, true_and] at h
  exact h

/-- A temp's path tells its session and its file. -/
theorem tempPath_inj {s s' f f' : Bytes} (h : tempPath s f = tempPath s' f') :
    s = s' ∧ f = f' := by
  simp only [tempPath, List.cons.injEq, and_true, true_and] at h
  exact ⟨h.1, List.append_cancel_right h.2⟩

/-- No temp has the path of a final. -/
theorem tempPath_ne_finalPath {s f s' x : Bytes} :
    tempPath s f ≠ finalPath s' x := by
  intro h
  have hlen := congrArg List.length h
  simp [tempPath, finalPath] at hlen

/-- Rows of one upload have one final. -/
theorem UploadFileRow.Same.final {row row' : UploadFileRow}
    (h : row.Same row') : row'.final = row.final := by
  have hplace := h.place
  unfold UploadFileRow.place at hplace
  unfold UploadFileRow.final
  rw [Prod.mk.injEq] at hplace
  rw [hplace.1, hplace.2]

/-- A final's path tells its place. -/
theorem UploadFileRow.final_inj {row row' : UploadFileRow}
    (h : row.final = row'.final) : row.place = row'.place := by
  obtain ⟨hs, hx⟩ := finalPath_inj h
  unfold UploadFileRow.place
  rw [hs, hx]

-- ============================================================ invariant

/-- What the threads promise each other beyond the rest. -/
structure Terms where
  /-- No one touches this file's temporary name but who holds the file. -/
  exclusive : Bytes × Bytes → Bool
  /-- A received file's name is durable. -/
  durable : Bool

/-- No promise about temporary names. -/
def Terms.plain (durable : Bool) : Terms := ⟨fun _ => false, durable⟩

/-- The contents passed the checks for this file. -/
structure UploadFileRow.Passed (blake3 : Bytes → Digest)
    (row : UploadFileRow) (content : Bytes) : Prop where
  size : content.length = row.expectedSize.toUInt64.toNat
  client : ∀ digest, row.clientDigest = some digest → digest = blake3 content

/-- What passes for one row of an upload passes for the other. -/
theorem UploadFileRow.Same.passed {blake3 : Bytes → Digest}
    {row row' : UploadFileRow} (h : row.Same row') {content : Bytes}
    (hpassed : row.Passed blake3 content) : row'.Passed blake3 content :=
  ⟨by rw [h.expected]; exact hpassed.size,
    by rw [h.client]; exact hpassed.client⟩

namespace World

variable {τ : Type} (terms : Terms) (blake3 : Bytes → Digest)
  (quota : UploadQuota)

/-- The committed tables. -/
abbrev db (w : World τ) : UploadDb := w.link.committed

structure Sound (w : World τ) : Prop where
  closed : w.link.txn = none
  tables : w.db.Sound quota
  files : ∀ path i, w.disk.files path = some i → i < w.disk.next
  authors : ∀ i t, w.author i = some t → i < w.disk.next
  holder : ∀ s f t, w.holder s f = some t → w.db.receiving s f = true
  home : ∀ s x i, w.disk.files (finalPath s x) = some i →
    s ∈ w.db.sessions.map (·.sessionId)
  passed : ∀ row ∈ w.db.files, ∀ i, w.disk.files row.final = some i →
    row.Passed blake3 (w.disk.content i)
  received : ∀ row ∈ w.db.files, row.state = .received →
    ∃ i, w.disk.files row.final = some i
      ∧ row.serverDigest = some (blake3 (w.disk.content i))
  durable : terms.durable = true → ∀ row ∈ w.db.files,
    row.state = .received → w.disk.synced row.final = true
  unpublished : ∀ row ∈ w.db.files, terms.exclusive row.key = true →
    row.state = .pending ∨ row.state = .failed →
      w.disk.files row.final = none

/-- Published files stay as they are, received ones received, and
registered ones registered. -/
structure Keeps (w w' : World τ) : Prop where
  finals : ∀ s x i, w.disk.files (finalPath s x) = some i →
    w'.disk.files (finalPath s x) = some i
      ∧ w'.disk.content i = w.disk.content i
  received : ∀ row ∈ w.db.files, row.state = .received → row ∈ w'.db.files
  rows : ∀ row ∈ w.db.files, ∃ row' ∈ w'.db.files, row.Same row'

/-- What thread `t` can count on while others move. -/
structure Rely (t : τ) (w w' : World τ) : Prop where
  holder : ∀ s f, w'.holder s f = some t ↔ w.holder s f = some t
  rows : ∀ row ∈ w.db.files, ∃ row' ∈ w'.db.files, row.Same row'
  held : ∀ row ∈ w.db.files, w.holder row.sessionId row.fileId = some t →
    row ∈ w'.db.files
  inode : ∀ i, w.author i = some t → w'.author i = some t
    ∧ w'.disk.content i = w.disk.content i
    ∧ ∀ path, w'.disk.files path = some i → w.disk.files path = some i
  finals : ∀ s x i, w.disk.files (finalPath s x) = some i →
    w'.disk.files (finalPath s x) = some i
      ∧ w'.disk.content i = w.disk.content i
  synced : ∀ s x i, w.disk.files (finalPath s x) = some i →
    w.disk.synced (finalPath s x) = true →
      w'.disk.synced (finalPath s x) = true
  target : ∀ row ∈ w.db.files, w.holder row.sessionId row.fileId = some t →
    w.disk.files row.final = none → w'.disk.files row.final = none
  temp : ∀ s f, w.holder s f = some t →
    w'.disk.files (tempPath s f) = w.disk.files (tempPath s f)
      ∨ terms.exclusive (s, f) = false ∧ w'.disk.files (tempPath s f) = none
  directories : (∃ key, terms.exclusive key = true) →
    w'.disk.directories = w.disk.directories
  started : w'.started t = w.started t

variable {terms blake3 quota} {t : τ} {w w' w'' : World τ}

/-- Nothing is taken away if nothing happens. -/
theorem Keeps.refl (w : World τ) : w.Keeps w :=
  ⟨fun _ _ _ h => ⟨h, rfl⟩, fun _ h _ => h, fun row hrow => ⟨row, hrow, .refl row⟩⟩

/-- Others may do nothing. -/
theorem Rely.refl (w : World τ) : Rely terms t w w where
  holder := fun _ _ => Iff.rfl
  rows := fun row hrow => ⟨row, hrow, .refl row⟩
  held := fun _ hrow _ => hrow
  inode := fun _ h => ⟨h, rfl, fun _ hp => hp⟩
  finals := fun _ _ _ h => ⟨h, rfl⟩
  synced := fun _ _ _ _ h => h
  target := fun _ _ _ h => h
  temp := fun _ _ _ => .inl rfl
  directories := fun _ => rfl
  started := rfl

/-- Others may do one thing after another. -/
theorem Rely.trans (h : Rely terms t w w') (h' : Rely terms t w' w'') :
    Rely terms t w w'' where
  holder := fun s f => (h'.holder s f).trans (h.holder s f)
  rows := by
    intro row hrow
    obtain ⟨row', hrow', hsame⟩ := h.rows row hrow
    obtain ⟨row'', hrow'', hsame'⟩ := h'.rows row' hrow'
    exact ⟨row'', hrow'', hsame.trans hsame'⟩
  held := fun row hrow hheld =>
    h'.held row (h.held row hrow hheld) ((h.holder _ _).2 hheld)
  inode := by
    intro i hi
    obtain ⟨ha, hc, hp⟩ := h.inode i hi
    obtain ⟨ha', hc', hp'⟩ := h'.inode i ha
    exact ⟨ha', hc'.trans hc, fun path hpath => hp path (hp' path hpath)⟩
  finals := by
    intro s x i hi
    obtain ⟨hi', hc⟩ := h.finals s x i hi
    obtain ⟨hi'', hc'⟩ := h'.finals s x i hi'
    exact ⟨hi'', hc'.trans hc⟩
  synced := fun s x i hi hs =>
    h'.synced s x i (h.finals s x i hi).1 (h.synced s x i hi hs)
  target := fun row hrow hheld hnone =>
    h'.target row (h.held row hrow hheld) ((h.holder _ _).2 hheld)
      (h.target row hrow hheld hnone)
  temp := by
    intro s f hheld
    rcases h'.temp s f ((h.holder s f).2 hheld) with heq' | hgone
    · rcases h.temp s f hheld with heq | ⟨hx, hnone⟩
      · exact .inl (heq'.trans heq)
      · exact .inr ⟨hx, heq'.trans hnone⟩
    · exact .inr hgone
  directories := fun hx => (h'.directories hx).trans (h.directories hx)
  started := h'.started.trans h.started

/-- The call works on the file of this name. -/
def Touches (w : World τ) : serverCalls.Call → Path → Prop
  | .inr (.remove path), p => path = p
  | .inr (.unlink path), p => path = p
  | .inr (.openExclusive path), p => path = p
  | .inr (.renameNoReplace old new), p => old = p ∨ new = p
  | .inr (.write fd _), p => w.disk.files p = some fd
  | _, _ => False

/-- What thread `t` owes the others for a call. -/
structure Guar (terms : Terms) (t : τ) (c : serverCalls.Call)
    (w w' : World τ) : Prop where
  rely : ∀ u, u ≠ t → Rely terms u w w'
  keeps : w.Keeps w'
  exclusive : ∀ s f, terms.exclusive (s, f) = true →
    w.Touches c (tempPath s f) → w.holder s f = some t

/-- A thread may leave the world as it is. -/
theorem Guar.refl {c : serverCalls.Call}
    (hc : ∀ path, ¬w.Touches c path) : Guar terms t c w w :=
  ⟨fun _ _ => .refl w, .refl w, fun _ _ _ h => absurd h (hc _)⟩

variable (τ terms blake3 quota) in
/-- The protocol of the PUT handlers. -/
def uploads : Protocol τ serverCalls (World τ) where
  inv := Sound terms blake3 quota
  rely := Rely terms
  guar := Guar terms
  rely_refl := fun _ w => .refl w
  rely_trans := .trans
  compat := fun hu h => h.rely _ hu

-- ===================================================== store operations

/-- An operation of the store: the tables change as an operation about
these files does, and of the disk only directories. -/
structure Stored (quota : UploadQuota) (about : Bytes × Bytes → Prop)
    (w w' : World τ) : Prop where
  closed : w'.link.txn = none
  follows : UploadDb.Follows quota w.db w'.db
  steps : w.db.Steps about w'.db
  files : w'.disk.files = w.disk.files
  content : w'.disk.content = w.disk.content
  synced : w'.disk.synced = w.disk.synced
  next : w'.disk.next = w.disk.next
  author : w'.author = w.author
  holder : ∀ s f u, w'.holder s f = some u → w'.db.receiving s f = true
  others : ∀ s f, ¬about (s, f) → w'.holder s f = w.holder s f

variable {about : Bytes × Bytes → Prop}

/-- The world is in order after a change of the tables, if what is received
is there. -/
theorem Stored.sound (h : Stored quota about w w')
    (hw : Sound terms blake3 quota w)
    (hreceived : ∀ row ∈ w'.db.files, about row.key → row.state = .received →
      (∃ i, w.disk.files row.final = some i
        ∧ row.serverDigest = some (blake3 (w.disk.content i)))
      ∧ (terms.durable = true → w.disk.synced row.final = true))
    (hunpublished : ∀ row ∈ w'.db.files, about row.key →
      terms.exclusive row.key = true →
      row.state = .pending ∨ row.state = .failed →
        w.disk.files row.final = none) :
    Sound terms blake3 quota w' := by
  -- a row of another file was there before, or nothing stands in its place
  have hother : ∀ row ∈ w'.db.files, ¬about row.key →
      row ∈ w.db.files
        ∨ row.state = .pending ∧ w.disk.files row.final = none := by
    intro row hrow habout
    rcases h.steps.before hrow habout with hmem | ⟨hnew, hpending⟩
    · exact .inl hmem
    · refine .inr ⟨hpending, ?_⟩
      cases hfile : w.disk.files row.final with
      | none => rfl
      | some i => exact absurd (hw.home _ _ i hfile) hnew
  refine ⟨h.closed, h.follows.sound, ?_, ?_, h.holder, ?_, ?_, ?_, ?_, ?_⟩
  · rw [h.files, h.next]
    exact hw.files
  · rw [h.author, h.next]
    exact hw.authors
  · rw [h.files]
    exact fun s x i hi => h.steps.sessions s (hw.home s x i hi)
  · rw [h.files, h.content]
    intro row hrow i hi
    rcases h.steps.back row hrow with ⟨row₀, hrow₀, hsame, -⟩ | ⟨hnew, -⟩
    · rw [hsame.final] at hi
      exact hsame.passed (hw.passed row₀ hrow₀ i hi)
    · exact absurd (hw.home _ _ i hi) hnew
  · rw [h.files, h.content]
    intro row hrow hstate
    by_cases habout : about row.key
    · exact (hreceived row hrow habout hstate).1
    · rcases hother row hrow habout with hmem | ⟨hpending, -⟩
      · exact hw.received row hmem hstate
      · rw [hpending] at hstate
        cases hstate
  · rw [h.synced]
    intro hd row hrow hstate
    by_cases habout : about row.key
    · exact (hreceived row hrow habout hstate).2 hd
    · rcases hother row hrow habout with hmem | ⟨hpending, -⟩
      · exact hw.durable hd row hmem hstate
      · rw [hpending] at hstate
        cases hstate
  · rw [h.files]
    intro row hrow hx hstate
    by_cases habout : about row.key
    · exact hunpublished row hrow habout hx hstate
    · rcases hother row hrow habout with hmem | ⟨-, hnone⟩
      · exact hw.unpublished row hmem hx hstate
      · exact hnone

/-- A change of the tables takes no row away. -/
theorem Stored.rows (h : Stored quota about w w') :
    ∀ row ∈ w.db.files, ∃ row' ∈ w'.db.files, row.Same row' := by
  intro row hrow
  obtain ⟨row', hrow', hsame, -⟩ := h.steps.forth row hrow
  exact ⟨row', hrow', hsame⟩

/-- A change of the tables takes no file away. -/
theorem Stored.keeps (h : Stored quota about w w') : w.Keeps w' := by
  refine ⟨fun s x i hi => ?_, h.follows.received, h.rows⟩
  rw [h.files, h.content]
  exact ⟨hi, rfl⟩

/-- A thread that holds none of the files is not disturbed. -/
theorem Stored.rely (h : Stored quota about w w')
    (hmine : ∀ s f, about (s, f) →
      w.holder s f ≠ some t ∧ w'.holder s f ≠ some t)
    (hdirectories : (∃ key, terms.exclusive key = true) →
      w'.disk.directories = w.disk.directories)
    (hstarted : w'.started t = w.started t) : Rely terms t w w' where
  holder := by
    intro s f
    by_cases habout : about (s, f)
    · have hnot := hmine s f habout
      exact ⟨fun h' => absurd h' hnot.2, fun h' => absurd h' hnot.1⟩
    · rw [h.others s f habout]
  rows := h.rows
  held := fun row hrow hheld =>
    h.steps.unchanged hrow fun habout => (hmine _ _ habout).1 hheld
  inode := by
    intro i hi
    rw [h.author, h.content, h.files]
    exact ⟨hi, rfl, fun _ hp => hp⟩
  finals := by
    intro s x i hi
    rw [h.files, h.content]
    exact ⟨hi, rfl⟩
  synced := by
    rw [h.synced]
    exact fun _ _ _ _ hs => hs
  target := by
    rw [h.files]
    exact fun _ _ _ hnone => hnone
  temp := by
    rw [h.files]
    exact fun _ _ _ => .inl rfl
  directories := hdirectories
  started := hstarted

-- ======================================================== system calls

/-- The store's part of the world, as a system call leaves it. -/
structure Apart (w w' : World τ) : Prop where
  link : w'.link = w.link
  holder : w'.holder = w.holder

/-- A name that is not a published file's changed its file, or a file its
contents. -/
theorem Apart.sound (h : Apart w w') (hw : Sound terms blake3 quota w)
    (hfiles : ∀ path i, w'.disk.files path = some i → i < w'.disk.next)
    (hauthors : ∀ i t, w'.author i = some t → i < w'.disk.next)
    (hfinals : ∀ s x, w'.disk.files (finalPath s x)
      = w.disk.files (finalPath s x))
    (hcontent : ∀ s x i, w.disk.files (finalPath s x) = some i →
      w'.disk.content i = w.disk.content i)
    (hsynced : ∀ s x, w.disk.synced (finalPath s x) = true →
      w'.disk.synced (finalPath s x) = true) :
    Sound terms blake3 quota w' := by
  have hdb : w'.db = w.db := congrArg Link.committed h.link
  refine ⟨?_, ?_, hfiles, hauthors, ?_, ?_, ?_, ?_, ?_, ?_⟩
  · rw [h.link]
    exact hw.closed
  · rw [hdb]
    exact hw.tables
  · rw [h.holder, hdb]
    exact hw.holder
  · intro s x i hi
    rw [hfinals] at hi
    rw [hdb]
    exact hw.home s x i hi
  · rw [hdb]
    intro row hrow i hi
    rw [UploadFileRow.final, hfinals] at hi
    rw [hcontent _ _ i hi]
    exact hw.passed row hrow i hi
  · rw [hdb]
    intro row hrow hstate
    obtain ⟨i, hi, hdigest⟩ := hw.received row hrow hstate
    refine ⟨i, ?_, ?_⟩
    · rw [UploadFileRow.final, hfinals]
      exact hi
    · rw [hcontent _ _ i hi]
      exact hdigest
  · rw [hdb]
    exact fun hd row hrow hstate =>
      hsynced _ _ (hw.durable hd row hrow hstate)
  · rw [hdb]
    intro row hrow hx hstate
    rw [UploadFileRow.final, hfinals]
    exact hw.unpublished row hrow hx hstate

/-- What a system call leaves of published files is kept. -/
theorem Apart.keeps (h : Apart w w')
    (hfinals : ∀ s x i, w.disk.files (finalPath s x) = some i →
      w'.disk.files (finalPath s x) = some i
        ∧ w'.disk.content i = w.disk.content i) : w.Keeps w' := by
  refine ⟨hfinals, ?_, ?_⟩ <;>
    rw [show w'.db = w.db from congrArg Link.committed h.link]
  · exact fun row hrow _ => hrow
  · exact fun row hrow => ⟨row, hrow, .refl row⟩

/-- A system call that leaves the disk as it is leaves all as it is. -/
theorem eq_of_apart (h : Apart w w') (hdisk : w'.disk = w.disk)
    (hauthor : w'.author = w.author) (hstarted : w'.started = w.started) :
    w' = w := by
  obtain ⟨hlink, hholder⟩ := h
  cases w
  cases w'
  cases hlink
  cases hholder
  cases hdisk
  cases hauthor
  cases hstarted
  rfl

-- ======================================================= the account kept

/-- Whether an upload goes on tells who holds it. -/
theorem holderAfter_same (hw : Sound terms blake3 quota w) {db' : UploadDb}
    {s f : Bytes} (h : db'.receiving s f = w.db.receiving s f) :
    holderAfter t w.holder w.db db' s f = w.holder s f := by
  unfold holderAfter
  rw [h]
  by_cases hr : w.db.receiving s f = true
  · rw [if_pos hr, if_pos hr]
  · rw [if_neg hr]
    cases ho : w.holder s f with
    | none => rfl
    | some u => exact absurd (hw.holder s f u ho) hr

/-- Only an upload that goes on is held. -/
theorem holderAfter_receiving {holder : Bytes → Bytes → Option τ}
    {db db' : UploadDb} {s f : Bytes} {u : τ}
    (h : holderAfter t holder db db' s f = some u) :
    db'.receiving s f = true := by
  unfold holderAfter at h
  by_cases hr : db'.receiving s f = true
  · exact hr
  · rw [if_neg hr] at h
    cases h

/-- Only its caller is made a holder by a call. -/
theorem holderAfter_of {holder : Bytes → Bytes → Option τ} {db db' : UploadDb}
    {s f : Bytes} {u : τ} (h : holderAfter t holder db db' s f = some u)
    (hu : u ≠ t) : holder s f = some u := by
  unfold holderAfter at h
  by_cases hr : db'.receiving s f = true
  · rw [if_pos hr] at h
    by_cases hr' : db.receiving s f = true
    · rw [if_pos hr'] at h
      exact h
    · rw [if_neg hr'] at h
      exact absurd (Option.some.inj h).symm hu
  · rw [if_neg hr] at h
    cases h

/-- Where no file is made, nobody becomes an author. -/
theorem authorAfter_same {author : Inode → Option τ} {disk disk' : Disk}
    (h : disk'.next = disk.next) :
    authorAfter t author disk disk' = author := by
  funext i
  unfold authorAfter
  rw [if_neg]
  rintro ⟨hge, hlt⟩
  rw [h] at hlt
  exact absurd hlt (Nat.not_lt.2 hge)

/-- A system call, apart from the account. -/
structure Calls (faulty : Bool) (t : τ) (c : SystemCall) (w : World τ)
    (r : c.Answer) (w' : World τ) : Prop where
  disk : systemOnDisk faulty c w.disk r w'.disk
  apart : Apart w w'
  author : w'.author = authorAfter t w.author w.disk w'.disk
  started : w'.started = w.started

/-- A call that leaves the disk as it is leaves the world as it is. -/
theorem Calls.still {faulty : Bool} {c : SystemCall} {r : c.Answer}
    (h : Calls faulty t c w r w') (hdisk : w'.disk = w.disk) : w' = w := by
  refine eq_of_apart h.apart hdisk ?_ h.started
  rw [h.author]
  exact authorAfter_same (by rw [hdisk])

section Calls

variable [DecidableEq τ] {faulty : Bool}

/-- A call of the system leaves the tables alone. -/
theorem Acts.system {c : SystemCall} {r : c.Answer}
    (h : Acts faulty t (.inr c) w r w') (hw : Sound terms blake3 quota w) :
    Calls faulty t c w r w' := by
  obtain ⟨hhost, hholder, hauthor, hstarted⟩ := h
  have hlink : w'.link = w.link := hhost.2
  refine ⟨hhost.1, ⟨hlink, ?_⟩, hauthor, ?_⟩
  · rw [hholder, hlink]
    funext s f
    exact holderAfter_same hw rfl
  · rw [hstarted]
    funext u
    simp [answersStarted]

/-- Reading a file's row leaves the world as it is. -/
theorem Acts.getFile {s f : Bytes} {r : Except Status UploadFile}
    (h : Acts faulty t (.inl (.getFile s f)) w r w')
    (hw : Sound terms blake3 quota w) :
    w' = w ∧ ∀ file, r = .ok file → ∃ row ∈ w.db.files, row.key = (s, f)
      ∧ file = row.toFile := by
  obtain ⟨hhost, hholder, hauthor, hstarted⟩ := h
  obtain ⟨hlink, hfile⟩ := StoreOp.Acts.getFile hhost hw.closed
  have hlink' : w'.link = w.link := hlink
  have hdisk : w'.disk = w.disk := StoreOp.Acts.quietly hhost nofun
  refine ⟨eq_of_apart ⟨hlink', ?_⟩ hdisk ?_ ?_, fun file hok => ?_⟩
  · rw [hholder, hlink']
    funext s f
    exact holderAfter_same hw rfl
  · rw [hauthor]
    exact authorAfter_same (by rw [hdisk])
  · rw [hstarted]
    funext u
    simp [answersStarted]
  · obtain ⟨row, hrow, hs, hf, rfl⟩ := hfile file hok
    exact ⟨row, hrow, Prod.ext hs hf, rfl⟩

omit [DecidableEq τ] in
/-- What an operation that changes the tables leaves of them. -/
theorem changed {op : Operation} {about : Bytes × Bytes → Prop}
    {r : Except Status op.Answer} {quiet : Bool}
    (h : StoreOp.Acts quiet (storeOnDisk faulty) (.change op) w.host r w'.host)
    (hquota : quota.maxReservedBytes.toNat < 2 ^ 63) (hop : op.Under quota)
    (hw : Sound terms blake3 quota w)
    (hsteps : ∀ v, r = .ok v → op.effect w.db = some (v, w'.db) →
      w.db.Steps about w'.db) :
    w'.link.txn = none ∧ UploadDb.Follows quota w.db w'.db
      ∧ w.db.Steps about w'.db ∧ (∀ e, r = .error e → w'.db = w.db)
      ∧ ∀ v, r = .ok v → op.effect w.db = some (v, w'.db) := by
  obtain ⟨hclosed, herror, hok⟩ := h.change hw.closed
  cases r with
  | error e =>
      have hsame : w'.db = w.db := herror e rfl
      refine ⟨hclosed, ?_, ?_, herror, hok⟩
      · rw [hsame]
        exact hw.tables.follows
      · rw [hsame]
        exact .refl _
  | ok v =>
      have heffect : op.effect w.db = some (v, w'.db) := hok v rfl
      exact ⟨hclosed, Operation.effect_follows hw.tables hquota hop heffect,
        hsteps v rfl heffect, herror, hok⟩

/-- An operation that changes the tables but makes no directory. -/
theorem Acts.stored {op : Operation} {about : Bytes × Bytes → Prop}
    {r : Except Status op.Answer}
    (h : Acts faulty t (.inl (.change op)) w r w')
    (hquota : quota.maxReservedBytes.toNat < 2 ^ 63)
    (hcreates : ∀ quota drawn files, op ≠ .createSession quota drawn files)
    (hw : Sound terms blake3 quota w)
    (hsteps : ∀ v, r = .ok v → op.effect w.db = some (v, w'.db) →
      w.db.Steps about w'.db) :
    Stored quota about w w' ∧ w'.disk = w.disk
      ∧ (∀ e, r = .error e → w'.db = w.db)
      ∧ ∀ v, r = .ok v → op.effect w.db = some (v, w'.db) := by
  obtain ⟨hhost, hholder, hauthor, -⟩ := h
  have hdisk : w'.disk = w.disk := by
    refine StoreOp.Acts.quietly hhost fun quota' drawn files heq => ?_
    exact hcreates quota' drawn files (StoreOp.change.inj heq)
  have hop : op.Under quota := by
    cases op with
    | createSession quota' drawn files => exact absurd rfl (hcreates _ _ _)
    | _ => exact trivial
  obtain ⟨hclosed, hfollows, hsteps', herror, hok⟩ :=
    changed hhost hquota hop hw hsteps
  refine ⟨⟨hclosed, hfollows, hsteps', by rw [hdisk], by rw [hdisk],
    by rw [hdisk], by rw [hdisk], ?_, ?_, ?_⟩, hdisk, herror, hok⟩
  · rw [hauthor]
    exact authorAfter_same (by rw [hdisk])
  · rw [hholder]
    exact fun s f u hu => holderAfter_receiving hu
  · rw [hholder]
    exact fun s f habout => holderAfter_same hw (hsteps'.receiving habout)

omit [DecidableEq τ] in
/-- An operation made by no thread, about files nobody holds. -/
theorem ActsAlone.stored {op : Operation} {about : Bytes × Bytes → Prop}
    {r : Except Status op.Answer}
    (h : ActsAlone faulty (.inl (.change op)) w r w')
    (hquota : quota.maxReservedBytes.toNat < 2 ^ 63) (hop : op.Under quota)
    (hw : Sound terms blake3 quota w)
    (hfree : ∀ s f, about (s, f) → w.holder s f = none)
    (hsteps : ∀ v, r = .ok v → op.effect w.db = some (v, w'.db) →
      w.db.Steps about w'.db) :
    Stored quota about w w' ∧ (∀ e, r = .error e → w'.db = w.db)
      ∧ ∀ v, r = .ok v → op.effect w.db = some (v, w'.db) := by
  obtain ⟨hhost, hholder, hauthor, -⟩ := h
  obtain ⟨directories, hdisk, -⟩ := StoreOp.Acts.directories hhost
  have hdisk' : w'.disk = { w.disk with directories := directories } := hdisk
  obtain ⟨hclosed, hfollows, hsteps', herror, hok⟩ :=
    changed hhost hquota hop hw hsteps
  refine ⟨⟨hclosed, hfollows, hsteps', by rw [hdisk'], by rw [hdisk'],
    by rw [hdisk'], by rw [hdisk'], hauthor, ?_, ?_⟩, herror, hok⟩
  · rw [hholder]
    intro s f u hu
    by_cases habout : about (s, f)
    · rw [hfree s f habout] at hu
      cases hu
    · rw [hsteps'.receiving habout]
      exact hw.holder s f u hu
  · rw [hholder]
    exact fun _ _ _ => rfl

/-- Other threads are not disturbed by an operation on files they do not
hold. -/
theorem Acts.rely {op : Operation} {about : Bytes × Bytes → Prop}
    {r : Except Status op.Answer}
    (h : Acts faulty t (.inl (.change op)) w r w')
    (hstored : Stored quota about w w') (hdisk : w'.disk = w.disk) {u : τ}
    (hu : u ≠ t) (hmine : ∀ s f, about (s, f) → w.holder s f ≠ some u) :
    Rely terms u w w' := by
  obtain ⟨-, hholder, -, hstarted⟩ := h
  refine hstored.rely (fun s f habout => ⟨hmine s f habout, fun h' => ?_⟩)
    (fun _ => by rw [hdisk]) ?_
  · rw [hholder] at h'
    exact hmine s f habout (holderAfter_of h' hu)
  · rw [hstarted]
    simp [hu]

-- ============================================ the handler's operations

/-- `BeginUpload` of a thread that holds nothing: it holds the file
afterwards if, and only if, the answer is `Started`. -/
structure Begins (terms : Terms) (t : τ) (s f : Bytes)
    (r : Except Status BeginUploadResult) (w w' : World τ) : Prop where
  disk : w'.disk = w.disk
  rows : ∀ row ∈ w.db.files, ∃ row' ∈ w'.db.files, row.Same row'
  other : r ≠ .ok .started →
    (∀ s f, w'.holder s f ≠ some t) ∧ w'.started t = w.started t
  started : r = .ok .started →
    (∀ s' f', w'.holder s' f' = some t ↔ (s, f) = (s', f'))
      ∧ (terms.exclusive (s, f) = true → ∀ row ∈ w.db.files,
        row.key = (s, f) → w.disk.files row.final = none)

/-- An upload that begins is held by the thread that began it. -/
theorem Acts.begins (hquota : quota.maxReservedBytes.toNat < 2 ^ 63)
    {s f : Bytes} {r : Except Status BeginUploadResult}
    (h : Acts faulty t (.inl (.change (.beginUpload s f))) w r w')
    (hw : Sound terms blake3 quota w) (hfree : ∀ s f, w.holder s f ≠ some t) :
    Sound terms blake3 quota w'
      ∧ Guar terms t (.inl (.change (.beginUpload s f))) w w'
      ∧ Begins terms t s f r w w' := by
  by_cases hr : r = .ok .started
  -- it has begun: the row was not receiving, so nobody held it
  · subst hr
    have hbegun : ∀ v, (.ok .started : Except Status BeginUploadResult) = .ok v →
        (Operation.beginUpload s f).effect w.db = some (v, w'.db) →
        UploadDb.Begun s f w.db w'.db := by
      rintro v hv heffect
      cases hv
      exact UploadDb.beginUpload_begun hw.tables heffect
    obtain ⟨hstored, hdisk, -, hok⟩ := h.stored hquota nofun hw
      fun v hv heffect => (hbegun v hv heffect).steps
    have hb := hbegun _ rfl (hok _ rfl)
    have hnobody : ∀ u, w.holder s f ≠ some u := by
      intro u hu
      obtain ⟨row, hrow, hkey, hstate⟩ :=
        UploadDb.receiving_iff.1 (hw.holder s f u hu)
      rcases hb.was row hrow hkey with hs | hs <;> rw [hs] at hstate <;>
        cases hstate
    have hmine : w'.holder s f = some t := by
      have hnot : w.db.receiving s f ≠ true := by
        intro hr
        obtain ⟨row, hrow, hkey, hstate⟩ := UploadDb.receiving_iff.1 hr
        rcases hb.was row hrow hkey with hs | hs <;> rw [hs] at hstate <;>
          cases hstate
      rw [h.2.1, holderAfter, if_pos (UploadDb.receiving_iff.2 hb.is),
        if_neg hnot]
    -- the row is receiving now, so nothing is said of its file
    have hkeyOf : ∀ row ∈ w'.db.files, row.key = (s, f) →
        row.state = .receiving := by
      intro row hrow hkey
      obtain ⟨row', hrow', hkey', hstate⟩ := hb.is
      rw [hstored.follows.sound.row_unique hrow hrow' (hkey.trans hkey'.symm)]
      exact hstate
    refine ⟨hstored.sound hw ?_ ?_, ⟨fun u hu => ?_, hstored.keeps,
      fun _ _ _ => False.elim⟩, hdisk, ?_, fun hne => absurd rfl hne,
      fun _ => ⟨fun s' f' => ?_, ?_⟩⟩
    · intro row hrow hkey hstate
      rw [hkeyOf row hrow hkey] at hstate
      cases hstate
    · intro row hrow hkey _ hstate
      rw [hkeyOf row hrow hkey] at hstate
      rcases hstate with hstate | hstate <;> cases hstate
    · refine h.rely hstored hdisk hu fun s' f' hkey => ?_
      obtain ⟨rfl, rfl⟩ := Prod.mk.inj hkey
      exact hnobody u
    · exact hstored.rows
    · constructor
      · intro hheld
        by_cases hkey : (s', f') = (s, f)
        · exact hkey.symm
        · rw [hstored.others s' f' hkey] at hheld
          exact absurd hheld (hfree s' f')
      · intro hkey
        obtain ⟨rfl, rfl⟩ := Prod.mk.inj hkey
        exact hmine
    · exact fun hx row hrow hkey => hw.unpublished row hrow
        ((congrArg terms.exclusive hkey).trans hx) (hb.was row hrow hkey)
  -- it has not: the tables are as they were
  · have hsame : ∀ v, r = .ok v →
        (Operation.beginUpload s f).effect w.db = some (v, w'.db) →
        w'.db = w.db := fun v hv heffect =>
      UploadDb.beginUpload_other heffect fun hv' => hr (hv' ▸ hv)
    have hsteps : ∀ v, r = .ok v →
        (Operation.beginUpload s f).effect w.db = some (v, w'.db) →
        w.db.Steps (fun _ => False) w'.db := by
      intro v hv heffect
      rw [hsame v hv heffect]
      exact .refl _
    obtain ⟨hstored, hdisk, herror, hok⟩ := h.stored hquota nofun hw hsteps
    have hdb : w'.db = w.db := by
      cases r with
      | error e => exact herror e rfl
      | ok v => exact hsame v rfl (hok v rfl)
    refine ⟨hstored.sound hw (fun _ _ => False.elim) fun _ _ => False.elim,
      ⟨fun u hu => h.rely hstored hdisk hu fun _ _ => False.elim,
        hstored.keeps, fun _ _ _ => False.elim⟩,
      hdisk, ?_, fun _ => ⟨fun s' f' => ?_, ?_⟩, fun hs => absurd hs hr⟩
    · rw [hdb]
      exact fun row hrow => ⟨row, hrow, .refl row⟩
    · rw [hstored.others s' f' id]
      exact hfree s' f'
    · rw [h.2.2.2]
      cases r with
      | error e => simp [answersStarted]
      | ok v =>
          cases v with
          | started => exact absurd rfl hr
          | alreadyReceived => simp [answersStarted]
          | busy => simp [answersStarted]

/-- `MarkUploadFailed` by the thread that holds the file. -/
theorem Acts.marks (hquota : quota.maxReservedBytes.toNat < 2 ^ 63)
    {s f : Bytes} {r : Except Status Unit}
    (h : Acts faulty t (.inl (.change (.markUploadFailed s f))) w r w')
    (hw : Sound terms blake3 quota w) (hheld : w.holder s f = some t)
    (hvacant : terms.exclusive (s, f) = true → ∀ row ∈ w.db.files,
      row.key = (s, f) → w.disk.files row.final = none) :
    Sound terms blake3 quota w'
      ∧ Guar terms t (.inl (.change (.markUploadFailed s f))) w w'
      ∧ ∀ row ∈ w.db.files, ∃ row' ∈ w'.db.files, row.Same row' := by
  have hmarked : ∀ v, (Operation.markUploadFailed s f).effect w.db
      = some (v, w'.db) → w'.db = (w.db.markFailed s f).2 := by
    intro v heffect
    exact (congrArg Prod.snd (Option.some.inj heffect)).symm
  obtain ⟨hstored, hdisk, herror, hok⟩ := h.stored hquota nofun hw
    fun v hv heffect => by
      rw [hmarked v heffect]
      exact UploadDb.markFailed_steps s f
  -- the row was RECEIVING, and is that or failed
  obtain ⟨row₀, hrow₀, hkey₀, hstate₀⟩ :=
    UploadDb.receiving_iff.1 (hw.holder s f t hheld)
  have hstate : ∀ row ∈ w'.db.files, row.key = (s, f) →
      row.state = .receiving ∨ row.state = .failed := by
    intro row hrow hkey
    have hold : row ∈ w.db.files → row.state = .receiving := by
      intro hmem
      rw [hw.tables.row_unique hmem hrow₀ (hkey.trans hkey₀.symm)]
      exact hstate₀
    cases r with
    | error e =>
        rw [herror e rfl] at hrow
        exact .inl (hold hrow)
    | ok v =>
        rw [hmarked v (hok v rfl)] at hrow
        rcases (UploadDb.markFailed_state hrow hkey).2 with hmem | hfailed
        · exact .inl (hold hmem)
        · exact .inr hfailed
  refine ⟨hstored.sound hw ?_ ?_, ⟨fun u hu => ?_, hstored.keeps,
    fun _ _ _ => False.elim⟩, hstored.rows⟩
  · intro row hrow hkey hreceived
    rcases hstate row hrow hkey with hs | hs <;> rw [hs] at hreceived <;>
      cases hreceived
  · intro row hrow hkey hx _
    obtain ⟨row', hrow', hsame, -⟩ | ⟨hnew, -⟩ := hstored.steps.back row hrow
    · rw [hsame.final]
      exact hvacant ((congrArg terms.exclusive hkey).symm.trans hx) row' hrow'
        (hsame.key.symm.trans hkey)
    · have hid := hw.tables.home row₀ hrow₀
      rw [show row₀.sessionId = row.sessionId from
        congrArg Prod.fst (hkey₀.trans hkey.symm)] at hid
      exact absurd hid hnew
  · refine h.rely hstored hdisk hu fun s' f' hkey hother => ?_
    obtain ⟨rfl, rfl⟩ := Prod.mk.inj hkey
    rw [hheld] at hother
    exact hu (Option.some.inj hother).symm

/-- `CommitUpload` by the thread that holds the file and has published
it. -/
theorem Acts.commits (hquota : quota.maxReservedBytes.toNat < 2 ^ 63)
    {s f : Bytes} {size : UInt64} {digest : Digest} {r : Except Status Unit}
    (h : Acts faulty t (.inl (.change (.commitUpload s f size digest))) w r w')
    (hw : Sound terms blake3 quota w) (hheld : w.holder s f = some t)
    (hpublished : ∀ row ∈ w.db.files, row.key = (s, f) →
      (∃ i, w.disk.files row.final = some i
        ∧ digest = blake3 (w.disk.content i))
      ∧ (terms.durable = true → w.disk.synced row.final = true)) :
    Sound terms blake3 quota w'
      ∧ Guar terms t (.inl (.change (.commitUpload s f size digest))) w w'
      ∧ w'.disk = w.disk
      ∧ ∀ row ∈ w.db.files, ∃ row' ∈ w'.db.files, row.Same row' := by
  have hcommitted : ∀ v, (Operation.commitUpload s f size digest).effect w.db
      = some (v, w'.db) → UploadDb.Committed s f digest w.db w'.db :=
    fun v heffect => UploadDb.commitUpload_committed hw.tables heffect
  obtain ⟨hstored, hdisk, herror, hok⟩ := h.stored hquota nofun hw
    fun v hv heffect => (hcommitted v heffect).steps
  obtain ⟨row₀, hrow₀, hkey₀, hstate₀⟩ :=
    UploadDb.receiving_iff.1 (hw.holder s f t hheld)
  have hstate : ∀ row ∈ w'.db.files, row.key = (s, f) →
      row.state = .receiving
        ∨ row.state = .received ∧ row.serverDigest = some digest := by
    intro row hrow hkey
    cases r with
    | error e =>
        rw [herror e rfl] at hrow
        rw [hw.tables.row_unique hrow hrow₀ (hkey.trans hkey₀.symm)]
        exact .inl hstate₀
    | ok v => exact .inr ((hcommitted v (hok v rfl)).is row hrow hkey)
  refine ⟨hstored.sound hw ?_ ?_, ⟨fun u hu => ?_, hstored.keeps,
    fun _ _ _ => False.elim⟩, hdisk, hstored.rows⟩
  · intro row hrow hkey hreceived
    have hdigest : row.serverDigest = some digest := by
      rcases hstate row hrow hkey with hs | ⟨-, hd⟩
      · rw [hs] at hreceived
        cases hreceived
      · exact hd
    obtain ⟨row', hrow', hsame, -⟩ | ⟨-, hpending⟩ := hstored.steps.back row hrow
    · obtain ⟨⟨i, hi, hcontent⟩, hsynced⟩ :=
        hpublished row' hrow' (hsame.key.symm.trans hkey)
      rw [hsame.final]
      exact ⟨⟨i, hi, hdigest.trans (congrArg some hcontent)⟩, hsynced⟩
    · rw [hpending] at hreceived
      cases hreceived
  · intro row hrow hkey _ hopen
    rcases hstate row hrow hkey with hs | ⟨hs, -⟩ <;> rw [hs] at hopen <;>
      rcases hopen with hopen | hopen <;> cases hopen
  · refine h.rely hstored hdisk hu fun s' f' hkey hother => ?_
    obtain ⟨rfl, rfl⟩ := Prod.mk.inj hkey
    rw [hheld] at hother
    exact hu (Option.some.inj hother).symm

/-- Where nothing fails, a `CommitUpload` with the registered size
succeeds. -/
theorem Acts.commits_ok {s f : Bytes} {size : UInt64} {digest : Digest}
    {r : Except Status Unit}
    (h : Acts false t (.inl (.change (.commitUpload s f size digest))) w r w')
    (hw : Sound terms blake3 quota w) (hheld : w.holder s f = some t)
    {row : UploadFileRow} (hrow : row ∈ w.db.files) (hkey : row.key = (s, f))
    (hsize : row.expectedSize.toUInt64 = size) : r = .ok () := by
  obtain ⟨row₀, hrow₀, hkey₀, hstate₀⟩ :=
    UploadDb.receiving_iff.1 (hw.holder _ _ t hheld)
  rw [hw.tables.row_unique hrow₀ hrow (hkey₀.trans hkey.symm)] at hstate₀
  obtain ⟨db', heffect⟩ :=
    UploadDb.commitUpload_some hw.tables hrow hstate₀ digest
  obtain ⟨rfl, rfl⟩ := Prod.mk.inj hkey
  subst hsize
  exact StoreOp.Acts.commitUpload_ok h.1 hw.closed heffect

end Calls

end World

end PhotoBridge.Upload
