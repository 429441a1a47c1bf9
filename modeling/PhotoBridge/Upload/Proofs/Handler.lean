/-
`ReceiveBody` among other handlers: what a thread that holds a file knows
of it on the way (`Holding`, `Writing`, `Published`), all of which the
others leave true, and the rules for its calls.
-/
import PhotoBridge.Upload.Proofs.Publishing

namespace PhotoBridge.Upload

open Concurrent SharedConnection

-- ============================================================== bodies

def Body.content (body : Body) : Bytes := body.chunks.flatten

/-- The body came to its end with the size registered. -/
structure Body.Sized (body : Body) (row : UploadFileRow) : Prop where
  complete : body.complete = true
  size : body.content.length = row.expectedSize.toUInt64.toNat

/-- The body is what was registered. -/
structure Body.Matches (blake3 : Bytes → Digest) (body : Body)
    (row : UploadFileRow) : Prop where
  sized : body.Sized row
  client : ∀ digest, row.clientDigest = some digest →
    digest = blake3 body.content

/-- Where the body has the registered size, it has the registered
digest. -/
def Body.Honest (blake3 : Bytes → Digest) (body : Body)
    (row : UploadFileRow) : Prop :=
  body.Sized row → ∀ digest, row.clientDigest = some digest →
    digest = blake3 body.content

/-- There is room for the file's names in these directories. -/
structure UploadFileRow.Roomy (directories : Path → Bool)
    (row : UploadFileRow) : Prop where
  tempParent : directories (parentPath row.temp) = true
  temp : directories row.temp = false
  tempFits : Disk.fits row.temp = true
  finalParent : directories (parentPath row.final) = true
  final : directories row.final = false
  finalFits : Disk.fits row.final = true

section Same

variable {blake3 : Bytes → Digest} {row row' : UploadFileRow} {body : Body}

/-- Rows of one upload have one temp. -/
theorem UploadFileRow.Same.temp (h : row.Same row') : row'.temp = row.temp := by
  obtain ⟨hs, hf⟩ := Prod.mk.inj h.key
  rw [UploadFileRow.temp, UploadFileRow.temp, hs, hf]

/-- A body with the size of one row has that of the other. -/
theorem UploadFileRow.Same.sized (h : row.Same row') (hsized : body.Sized row') :
    body.Sized row :=
  ⟨hsized.complete, by rw [← h.expected]; exact hsized.size⟩

/-- A body that is what one row asks for is what the other does. -/
theorem UploadFileRow.Same.matches (h : row.Same row')
    (hmatches : body.Matches blake3 row') : body.Matches blake3 row :=
  ⟨h.sized hmatches.sized, by rw [← h.client]; exact hmatches.client⟩

/-- A body that is honest for one row is so for the other. -/
theorem UploadFileRow.Same.honest (h : row.Same row')
    (hhonest : body.Honest blake3 row) : body.Honest blake3 row' := by
  intro hsized
  rw [h.client]
  exact hhonest (h.sized hsized)

/-- There is still room for its final. -/
theorem UploadFileRow.Same.roomy (h : row.Same row')
    {directories : Path → Bool} (hroom : row'.Roomy directories) :
    row.Roomy directories := by
  obtain ⟨h1, h2, h3, h4, h5, h6⟩ := hroom
  rw [h.temp] at h1 h2 h3
  rw [h.final] at h4 h5 h6
  exact ⟨h1, h2, h3, h4, h5, h6⟩

end Same

namespace World

variable {τ : Type} {terms : Terms} {blake3 : Bytes → Digest}
  {quota : UploadQuota} {faulty : Bool} {t : τ} {w w' : World τ}
  {row : UploadFileRow} {directories : Path → Bool} {i : Inode} {data : Bytes}

-- =========================================================== assertions

/-- The file is registered so. -/
def Known (row : UploadFileRow) (w : World τ) : Prop :=
  ∃ row' ∈ w.db.files, row.Same row'

/-- Threads that keep off each other's names make no directories. -/
def Settled (terms : Terms) (directories : Path → Bool) (w : World τ) :
    Prop :=
  (∃ key, terms.exclusive key = true) → w.disk.directories = directories

/-- The thread has not begun. -/
structure Idle (t : τ) (w : World τ) : Prop where
  free : ∀ s f, w.holder s f ≠ some t
  started : w.started t = false

/-- The thread holds this file and no other. -/
structure Holding (terms : Terms) (directories : Path → Bool) (t : τ)
    (row : UploadFileRow) (w : World τ) : Prop where
  mine : ∀ s f, w.holder s f = some t ↔ row.key = (s, f)
  known : Known row w
  settled : Settled terms directories w
  vacant : terms.exclusive row.key = true → w.disk.files row.final = none

/-- It writes to a file of its own. -/
structure Writing (terms : Terms) (directories : Path → Bool) (t : τ)
    (row : UploadFileRow) (i : Inode) (data : Bytes) (w : World τ) : Prop
    extends Holding terms directories t row w where
  author : w.author i = some t
  content : w.disk.content i = data
  places : ∀ path, w.disk.files path = some i → path = row.temp
  temp : ∀ j, w.disk.files row.temp = some j → j = i
  there : terms.exclusive row.key = true → w.disk.files row.temp = some i

/-- It has published the file. -/
structure Published (terms : Terms) (directories : Path → Bool) (t : τ)
    (row : UploadFileRow) (data : Bytes) (w : World τ) : Prop where
  mine : ∀ s f, w.holder s f = some t ↔ row.key = (s, f)
  known : Known row w
  settled : Settled terms directories w
  final : ∃ i, w.disk.files row.final = some i ∧ w.disk.content i = data

/-- The published file is there. -/
def There (row : UploadFileRow) (data : Bytes) (w : World τ) : Prop :=
  ∃ i, w.disk.files row.final = some i ∧ w.disk.content i = data

/-- A row that is registered stays registered. -/
theorem Known.rely (h : Known row w) (hr : Rely terms t w w') :
    Known row w' := by
  obtain ⟨row', hrow', hsame⟩ := h
  obtain ⟨row'', hrow'', hsame'⟩ := hr.rows row' hrow'
  exact ⟨row'', hrow'', hsame.trans hsame'⟩

/-- The directories stay. -/
theorem Settled.rely (h : Settled terms directories w)
    (hr : Rely terms t w w') : Settled terms directories w' :=
  fun hx => (hr.directories hx).trans (h hx)

/-- A thread that holds nothing is given nothing by others. -/
theorem Idle.rely (h : Idle t w) (hr : Rely terms t w w') : Idle t w' :=
  ⟨fun s f hh => h.free s f ((hr.holder s f).1 hh), hr.started.trans h.started⟩

/-- An upload that has begun is held by its thread. -/
theorem Holding.held (h : Holding terms directories t row w) :
    w.holder row.sessionId row.fileId = some t := (h.mine _ _).2 rfl

/-- The row as it is now. -/
theorem Holding.now (h : Holding terms directories t row w) :
    ∃ row' ∈ w.db.files, row.Same row'
      ∧ row'.key = (row.sessionId, row.fileId) := by
  obtain ⟨row', hrow', hsame⟩ := h.known
  exact ⟨row', hrow', hsame, hsame.key⟩

/-- Others leave an upload to its holder. -/
theorem Holding.rely (h : Holding terms directories t row w)
    (hr : Rely terms t w w') : Holding terms directories t row w' := by
  refine ⟨fun s f => (hr.holder s f).trans (h.mine s f), h.known.rely hr,
    h.settled.rely hr, fun hx => ?_⟩
  obtain ⟨row', hrow', hsame, hkey⟩ := h.now
  have hheld : w.holder row'.sessionId row'.fileId = some t :=
    (h.mine _ _).2 (hsame.key ▸ rfl)
  rw [← hsame.final]
  refine hr.target row' hrow' hheld ?_
  rw [hsame.final]
  exact h.vacant hx

/-- Others leave a file to its author. -/
theorem Writing.rely (h : Writing terms directories t row i data w)
    (hr : Rely terms t w w') : Writing terms directories t row i data w' := by
  obtain ⟨hauthor, hcontent, hplaces⟩ := hr.inode i h.author
  have htemp := hr.temp _ _ h.held
  refine ⟨h.toHolding.rely hr, hauthor, hcontent.trans h.content,
    fun path hp => h.places path (hplaces path hp), fun j hj => ?_, fun hx => ?_⟩
  · rcases htemp with heq | ⟨-, hnone⟩
    · exact h.temp j (heq.symm.trans hj)
    · rw [UploadFileRow.temp, hnone] at hj
      cases hj
  · rcases htemp with heq | ⟨hnot, -⟩
    · exact heq.trans (h.there hx)
    · cases hx.symm.trans hnot

/-- Others leave a final that is there. -/
theorem There.rely (h : There row data w) (hr : Rely terms t w w') :
    There row data w' := by
  obtain ⟨i, hi, hcontent⟩ := h
  obtain ⟨hi', hsame⟩ := hr.finals _ _ i hi
  exact ⟨i, hi', hsame.trans hcontent⟩

/-- Others leave an upload that is published. -/
theorem Published.rely (h : Published terms directories t row data w)
    (hr : Rely terms t w w') : Published terms directories t row data w' :=
  ⟨fun s f => (hr.holder s f).trans (h.mine s f), h.known.rely hr,
    h.settled.rely hr, There.rely h.final hr⟩

/-- What a call elsewhere does not touch. -/
theorem Holding.apart (h : Holding terms directories t row w)
    (ha : Apart w w') (hd : w'.disk.directories = w.disk.directories)
    (hfinal : w'.disk.files row.final = w.disk.files row.final) :
    Holding terms directories t row w' := by
  have hdb : w'.db = w.db := congrArg Link.committed ha.link
  refine ⟨?_, ?_, fun hx => hd.trans (h.settled hx), fun hx => hfinal.trans (h.vacant hx)⟩
  · rw [ha.holder]
    exact h.mine
  · rw [Known, hdb]
    exact h.known

/-- Bytes appended to one's own file. -/
theorem Writing.append (h : Writing terms directories t row i data w)
    (ha : Apart w w') {more : Bytes}
    (hdisk : w'.disk = w.disk.append i more) (hauthor : w'.author = w.author) :
    Writing terms directories t row i (data ++ more) w' := by
  refine ⟨h.toHolding.apart ha (by rw [hdisk]; rfl) (by rw [hdisk]; rfl), ?_, ?_,
    ?_, ?_, ?_⟩
  · rw [hauthor]
    exact h.author
  · rw [hdisk, Disk.append_content_self, h.content]
  · rw [hdisk]
    exact h.places
  · rw [hdisk]
    exact h.temp
  · rw [hdisk]
    exact h.there

section Triples

variable [DecidableEq τ]

variable (terms blake3 quota faulty t) in
/-- The program keeps the protocol on its way from one assertion to the
other. -/
abbrev Handles {α : Type} (pre : World τ → Prop) (p : ServerM α)
    (post : α → World τ → Prop) : Prop :=
  Triple (uploads τ terms blake3 quota) (Acts faulty) t pre p post

variable {α : Type} {pre : World τ → Prop} {post : α → World τ → Prop}

/-- A system call. -/
theorem Handles.system {c : SystemCall} {next : c.Answer → ServerM α}
    {m : c.Answer → World τ → Prop}
    (hstable : ∀ {w w'}, pre w → Rely terms t w w' → pre w')
    (hc : ∀ {w r w'}, Sound terms blake3 quota w → pre w →
      Acts faulty t (.inr c) w r w' →
        Sound terms blake3 quota w' ∧ Guar terms t (.inr c) w w' ∧ m r w')
    (hnext : ∀ r, Handles terms blake3 quota faulty t (m r) (next r) post) :
    Handles terms blake3 quota faulty t pre
      (.call (I := serverCalls) (.inr c) next) post :=
  .call (fun _ _ _ _ hr hpre => hstable hpre hr)
    (fun _ _ _ hw hpre hact => hc hw hpre hact) hnext

/-- A system call that leaves the disk as it is. -/
theorem Handles.still {c : SystemCall} {next : c.Answer → ServerM α}
    {q : c.Answer → Prop}
    (hstable : ∀ {w w'}, pre w → Rely terms t w w' → pre w')
    (hc : ∀ {w r disk'}, pre w → systemOnDisk faulty c w.disk r disk' →
      disk' = w.disk ∧ q r)
    (htouch : ∀ (w : World τ) path, ¬w.Touches (.inr c) path)
    (hnext : ∀ r, q r →
      Handles terms blake3 quota faulty t pre (next r) post) :
    Handles terms blake3 quota faulty t pre
      (.call (I := serverCalls) (.inr c) next) post := by
  refine .system (m := fun r w => q r ∧ pre w) hstable
    (fun {w r w'} hw hpre hact => ?_) fun r => .given fun hq => hnext r hq
  obtain ⟨hdisk, hq⟩ := hc hpre (hact.system hw).disk
  have hsame := (hact.system hw).still hdisk
  subst hsame
  exact ⟨hw, .refl (htouch w'), hq, hpre⟩

/-- An operation of the store. -/
theorem Handles.store {op : StoreOp} {next : op.Answer → ServerM α}
    {m : op.Answer → World τ → Prop}
    (hstable : ∀ {w w'}, pre w → Rely terms t w w' → pre w')
    (hc : ∀ {w r w'}, Sound terms blake3 quota w → pre w →
      Acts faulty t (.inl op) w r w' →
        Sound terms blake3 quota w' ∧ Guar terms t (.inl op) w w' ∧ m r w')
    (hnext : ∀ r, Handles terms blake3 quota faulty t (m r) (next r) post) :
    Handles terms blake3 quota faulty t pre
      (.call (I := serverCalls) (.inl op) next) post :=
  .call (fun _ _ _ _ hr hpre => hstable hpre hr)
    (fun _ _ _ hw hpre hact => hc hw hpre hact) hnext

/-- Nothing is left to do. -/
theorem Handles.done {a : α}
    (hstable : ∀ {w w'}, pre w → Rely terms t w w' → pre w')
    (h : ∀ {w}, Sound terms blake3 quota w → pre w → post a w) :
    Handles terms blake3 quota faulty t pre (.done a) post :=
  Triple.done (fun _ _ _ _ hr hpre => hstable hpre hr) fun _ hw hpre => h hw hpre

-- ====================================================== writing the body

omit [DecidableEq τ] in
/-- The fuel lasts: each round takes at least a byte. -/
theorem length_drop_le {data : Bytes} {n fuel : Nat} (hn : n ≠ 0)
    (h : data.length ≤ fuel + 1) : (data.drop n).length ≤ fuel := by
  rw [List.length_drop]
  omega

/-- The loop writes a chunk, or reports that it could not. -/
theorem writeLoop_handles (fuel : Nat) (rest written : Bytes)
    (hfuel : rest.length ≤ fuel) :
    Handles terms blake3 quota faulty t
      (Writing terms directories t row i written) (writeLoop i fuel rest)
      fun ok w => match ok with
        | true => Writing terms directories t row i (written ++ rest) w
        | false => faulty = true
          ∧ ∃ data, Writing terms directories t row i data w := by
  induction fuel generalizing rest written with
  | zero =>
      cases rest with
      | cons byte rest => cases hfuel
      | nil =>
          refine .done Writing.rely fun {w} _ hpre => ?_
          show Writing terms directories t row i (written ++ []) w
          rw [List.append_nil]
          exact hpre
  | succ fuel ih =>
      cases rest with
      | nil =>
          refine .done Writing.rely fun {w} _ hpre => ?_
          show Writing terms directories t row i (written ++ []) w
          rw [List.append_nil]
          exact hpre
      | cons byte rest =>
      refine .system (m := fun r w => r = 0 ∧ faulty = true
            ∧ Writing terms directories t row i written w
          ∨ 0 < r ∧ Writing terms directories t row i
            (written ++ (byte :: rest).take r) w)
        Writing.rely (fun {w r w'} hw hpre hact => ?_) fun r => ?_
      · obtain ⟨hw', hguar, hafter⟩ :=
          hact.writes hw hpre.held hpre.author hpre.places
        refine ⟨hw', hguar, ?_⟩
        rcases hafter with ⟨hdisk, hauthor, hpos, -⟩ | ⟨hr, hsame, hfaulty⟩
        · refine .inr ⟨?_, hpre.append (hact.system hw).apart hdisk hauthor⟩
          rcases hpos with hpos | hnil
          · exact hpos
          · cases hnil
        · subst hsame
          exact .inl ⟨hr, hfaulty, hpre⟩
      · by_cases hr : r = 0
        · subst hr
          refine .done (fun {w w'} hpre hr => ?_) fun {w} _ hpre => ?_
          · rcases hpre with ⟨h0, hf, hpre⟩ | ⟨hlt, -⟩
            · exact .inl ⟨h0, hf, hpre.rely hr⟩
            · exact absurd hlt (Nat.lt_irrefl 0)
          · rcases hpre with ⟨-, hf, hpre⟩ | ⟨hlt, -⟩
            · exact ⟨hf, written, hpre⟩
            · exact absurd hlt (Nat.lt_irrefl 0)
        · have hdrop : ((byte :: rest).drop r).length ≤ fuel :=
            length_drop_le hr hfuel
          have hrest := ih ((byte :: rest).drop r)
            (written ++ (byte :: rest).take r) hdrop
          rw [List.append_assoc, List.take_append_drop] at hrest
          show Handles _ _ _ _ _ _ (if r = 0 then _ else _) _
          rw [if_neg hr]
          refine hrest.weaken fun w _ hpre => ?_
          rcases hpre with ⟨h0, -⟩ | ⟨-, hpre⟩
          · exact absurd h0 hr
          · exact hpre

/-- `WriteAll` writes a chunk, or reports that it could not. -/
theorem writeAll_handles (data written : Bytes) :
    Handles terms blake3 quota faulty t
      (Writing terms directories t row i written) (writeAll i data)
      fun ok w => match ok with
        | true => Writing terms directories t row i (written ++ data) w
        | false => faulty = true
          ∧ ∃ data, Writing terms directories t row i data w :=
  writeLoop_handles data.length data written (Nat.le_refl _)

/-- What the reader leaves: the whole body written and hashed, or the
reason why not. -/
inductive Receives (terms : Terms) (directories : Path → Bool) (faulty : Bool)
    (t : τ) (row : UploadFileRow) (i : Inode) (expected : Nat)
    (complete : Bool) (whole : Bytes) (got : Received) (w : World τ) : Prop
  | all (hread : got.readOk = complete) (hhashed : got.hashed = whole)
      (hreceived : got.received.toNat = whole.length)
      (h : Writing terms directories t row i whole w)
  | short (hread : got.readOk = false)
      (hwhy : faulty = true ∨ expected < whole.length)
      (h : ∃ data, Writing terms directories t row i data w)

omit [DecidableEq τ] in
/-- What has been received stays received. -/
theorem Receives.rely {expected : Nat} {complete : Bool} {whole : Bytes}
    {got : Received}
    (h : Receives terms directories faulty t row i expected complete whole got w)
    (hr : Rely terms t w w') :
    Receives terms directories faulty t row i expected complete whole got w' := by
  cases h with
  | all hread hhashed hreceived h => exact .all hread hhashed hreceived (h.rely hr)
  | short hread hwhy h =>
      obtain ⟨data, h⟩ := h
      exact .short hread hwhy ⟨data, h.rely hr⟩

/-- Every chunk that is taken is written and hashed, up to the size. -/
theorem receiveChunks_handles (expected : UInt64) (complete : Bool)
    (chunks : List Bytes) (received : UInt64) (hashed : Bytes)
    (hreceived : received.toNat = hashed.length)
    (hle : hashed.length ≤ expected.toNat) :
    Handles terms blake3 quota faulty t
      (Writing terms directories t row i hashed)
      (receiveChunks i expected complete chunks received hashed)
      (Receives terms directories faulty t row i expected.toNat complete
        (hashed ++ chunks.flatten)) := by
  induction chunks generalizing received hashed with
  | nil =>
      refine .done Writing.rely fun {w} _ hpre => ?_
      rw [List.flatten_nil, List.append_nil]
      exact .all rfl rfl hreceived hpre
  | cons chunk rest ih =>
      have hroom : (expected - received).toNat = expected.toNat - hashed.length := by
        rw [UInt64.toNat_sub_of_le, hreceived]
        rw [UInt64.le_iff_toNat_le]
        omega
      rw [receiveChunks, List.flatten_cons, ← List.append_assoc]
      by_cases hover : chunk.length > (expected - received).toNat
      · rw [if_pos hover]
        refine .done Writing.rely fun {w} _ hpre => ?_
        refine .short rfl (.inr ?_) ⟨hashed, hpre⟩
        rw [List.length_append, List.length_append]
        omega
      · rw [if_neg hover]
        refine Triple.bind (writeAll_handles chunk hashed) fun ok => ?_
        cases ok with
        | false =>
            refine Handles.done (fun {w w'} hpre hr => ?_) fun {w} _ hpre => ?_
            · obtain ⟨hf, data, hpre⟩ := hpre
              exact ⟨hf, data, hpre.rely hr⟩
            · exact .short rfl (.inl hpre.1) hpre.2
        | true =>
            have hlen : (hashed ++ chunk).length ≤ expected.toNat := by
              rw [List.length_append]
              omega
            refine ih (received + UInt64.ofNat chunk.length) (hashed ++ chunk)
              ?_ hlen
            have hlt := expected.toNat_lt
            rw [List.length_append] at hlen ⊢
            rw [UInt64.toNat_add, UInt64.toNat_ofNat', hreceived,
              Nat.mod_eq_of_lt (a := chunk.length), Nat.mod_eq_of_lt]
            · omega
            · omega

-- ============================================================ one body

omit [DecidableEq τ] in
/-- Receiving goes on inside an upload. -/
theorem Receives.holding {expected : Nat} {complete : Bool} {whole : Bytes}
    {got : Received}
    (h : Receives terms directories faulty t row i expected complete whole got w) :
    Holding terms directories t row w := by
  cases h with
  | all _ _ _ h => exact h.toHolding
  | short _ _ h =>
      obtain ⟨data, h⟩ := h
      exact h.toHolding

/-- The temporary name was taken away. -/
structure Cleared (terms : Terms) (directories : Path → Bool) (faulty : Bool)
    (t : τ) (row : UploadFileRow) (w : World τ) : Prop
    extends Holding terms directories t row w where
  vacated : terms.exclusive row.key = true → faulty = false →
    w.disk.files row.temp = none

omit [DecidableEq τ] in
/-- What has been cleared stays cleared. -/
theorem Cleared.rely (h : Cleared terms directories faulty t row w)
    (hr : Rely terms t w w') : Cleared terms directories faulty t row w' := by
  refine ⟨h.toHolding.rely hr, fun hx hf => ?_⟩
  rcases hr.temp _ _ h.held with heq | ⟨hnot, -⟩
  · exact heq.trans (h.vacated hx hf)
  · cases hx.symm.trans hnot

/-- What `ReceiveBody` leaves. -/
def Got (terms : Terms) (blake3 : Bytes → Digest) (directories : Path → Bool)
    (faulty : Bool) (t : τ) (row : UploadFileRow) (body : Body) :
    Except Status Digest × Bool → World τ → Prop
  | (.error _, _), w =>
      (terms.exclusive row.key = true → faulty = false → row.Roomy directories →
        ¬body.Sized row)
      ∧ Holding terms directories t row w
  | (.ok digest, _), w => (digest = blake3 body.content ∧ body.Sized row)
      ∧ ∃ i, Writing terms directories t row i body.content w

/-- A call that takes the temp away clears. -/
theorem clears_handles {α : Type} {c : SystemCall}
    {next : c.Answer → ServerM α} {post : α → World τ → Prop}
    (hc : c = .remove row.temp ∨ c = .unlink row.temp)
    (hnext : ∀ r, Handles terms blake3 quota faulty t
      (Cleared terms directories faulty t row) (next r) post) :
    Handles terms blake3 quota faulty t (Holding terms directories t row)
      (.call (I := serverCalls) (.inr c) next) post := by
  refine .system Holding.rely (fun {w r w'} hw hpre hact => ?_) hnext
  obtain ⟨hw', hguar, hdisk⟩ := hact.unlinks hc hw fun _ => hpre.held
  refine ⟨hw', hguar, hpre.apart (hact.system hw).apart ?_ ?_, fun _ hf => ?_⟩
  · rcases hdisk with hdisk | ⟨hdisk, -⟩
    · rw [hdisk]
      rfl
    · rw [hdisk]
  · rcases hdisk with hdisk | ⟨hdisk, -⟩
    · rw [hdisk]
      exact Disk.unlink_files_ne tempPath_ne_finalPath.symm
    · rw [hdisk]
  · rcases hdisk with hdisk | ⟨-, hfaulty⟩
    · rw [hdisk]
      exact Disk.unlink_files_self
    · rw [hf] at hfaulty
      cases hfaulty

omit [DecidableEq τ] in
/-- The temporary file can be made where there is room for it. -/
theorem Cleared.admits (h : Cleared terms directories faulty t row w)
    (hx : terms.exclusive row.key = true) (hf : faulty = false)
    (hroom : row.Roomy directories) : w.disk.Admits row.temp := by
  refine ⟨?_, ?_, hroom.tempFits⟩
  · rw [Disk.taken, h.vacated hx hf, h.settled ⟨_, hx⟩]
    exact hroom.temp
  · rw [h.settled ⟨_, hx⟩]
    exact hroom.tempParent

/-- A new temp belongs to the thread that made it. -/
theorem openExclusive_handles {α : Type} {next : Option Inode → ServerM α}
    {post : α → World τ → Prop}
    (hnone : (terms.exclusive row.key = true → faulty = false →
        ¬row.Roomy directories) →
      Handles terms blake3 quota faulty t (Holding terms directories t row)
        (next none) post)
    (hsome : ∀ i, Handles terms blake3 quota faulty t
      (Writing terms directories t row i []) (next (some i)) post) :
    Handles terms blake3 quota faulty t
      (Cleared terms directories faulty t row)
      (.call (I := serverCalls) (.inr (.openExclusive row.temp)) next) post := by
  refine .system (m := fun r w => match r with
    | none => (terms.exclusive row.key = true → faulty = false →
        ¬row.Roomy directories) ∧ Holding terms directories t row w
    | some i => Writing terms directories t row i [] w)
    Cleared.rely (fun {w r w'} hw hpre hact => ?_) fun r => ?_
  · obtain ⟨hw', hguar, hafter⟩ := hact.opens hw hpre.held
    refine ⟨hw', hguar, ?_⟩
    rcases hafter with ⟨rfl, hdisk, hauthor⟩ | ⟨rfl, hsame, hwhy⟩
    · have hfinal : w'.disk.files row.final = w.disk.files row.final := by
        rw [hdisk]
        exact Disk.link_files_ne tempPath_ne_finalPath.symm
      have hnew : w'.disk.files row.temp = some w.disk.next := by
        rw [hdisk]
        exact Disk.link_files_self
      refine ⟨hpre.toHolding.apart (hact.system hw).apart (by rw [hdisk]; rfl)
        hfinal, hauthor, ?_, fun path hp => ?_, fun j hj => ?_, fun _ => hnew⟩
      · rw [hdisk]
        exact Function.update_self ..
      · by_cases hpath : path = row.temp
        · exact hpath
        · rw [hdisk] at hp
          have hold : w.disk.files path = some w.disk.next :=
            (Disk.link_files_ne hpath).symm.trans hp
          exact absurd (hw.files path _ hold) (Nat.lt_irrefl _)
      · rw [hnew] at hj
        exact (Option.some.inj hj).symm
    · subst hsame
      refine ⟨fun hx hf hroom => ?_, hpre.toHolding⟩
      rcases hwhy with hfaulty | hnot
      · rw [hf] at hfaulty
        cases hfaulty
      · exact hnot (hpre.admits hx hf hroom)
  · cases r with
    | none => exact .given hnone
    | some i => exact hsome i

/-- Syncing is asked for exactly if all has been received. -/
theorem syncReceived_handles {pre : World τ → Prop} (expected : UInt64)
    (got : Received)
    (hstable : ∀ {w w'}, pre w → Rely terms t w w' → pre w') :
    Handles terms blake3 quota faulty t pre (syncReceived i expected got)
      fun ok w => (if got.readOk && got.received == expected then
        ok = true ∨ faulty = true else ok = false) ∧ pre w := by
  unfold syncReceived
  by_cases hread : (got.readOk && got.received == expected) = true
  · rw [if_pos hread]
    simp only [if_pos hread]
    exact .still hstable (fun _ h => h) (fun _ _ => id) fun r hr =>
      .done hstable fun _ hpre => ⟨hr, hpre⟩
  · rw [if_neg hread]
    simp only [if_neg hread]
    exact .done hstable fun _ hpre => ⟨rfl, hpre⟩

/-- A body that is received is in the temp, or the temp is gone. -/
theorem receiveBody_handles (body : Body) :
    Handles terms blake3 quota faulty t (Holding terms directories t row)
      (receiveBody blake3 row.temp row.expectedSize.toUInt64 body)
      (Got terms blake3 directories faulty t row body) := by
  refine clears_handles (.inl rfl) fun _ => openExclusive_handles ?_ fun i => ?_
  · intro hnot
    refine .done Holding.rely fun {w} _ hpre => ?_
    exact ⟨fun hx hf hroom => absurd hroom (hnot hx hf), hpre⟩
  · show Handles _ _ _ _ _ _ (receiveChunks i row.expectedSize.toUInt64
      body.complete body.chunks 0 [] >>= fun got => _) _
    refine Triple.bind (receiveChunks_handles row.expectedSize.toUInt64
      body.complete body.chunks 0 [] rfl (Nat.zero_le _)) fun got => ?_
    refine Triple.bind (syncReceived_handles _ got Receives.rely) fun syncOk => ?_
    refine .given fun hsync => Handles.still Receives.rely (fun _ h => h)
      (fun _ _ => id) fun closed hclosed => ?_
    by_cases hfailed : (!syncOk || !closed) = true
    · -- the file is taken away again
      have hwhy : ∀ w : World τ, Receives terms directories faulty t row i
          row.expectedSize.toUInt64.toNat body.complete body.content got w →
          faulty = false → ¬body.Sized row := by
        intro w hpre hf hsized
        cases hpre with
        | short _ hwhy _ =>
            rcases hwhy with hfaulty | hlong
            · rw [hf] at hfaulty
              cases hfaulty
            · exact absurd hsized.size (Nat.ne_of_gt hlong)
        | all hread _ hreceived _ =>
            have hall : (got.readOk
                && got.received == row.expectedSize.toUInt64) = true := by
              rw [Bool.and_eq_true, beq_iff_eq]
              exact ⟨hread.trans hsized.complete,
                UInt64.toNat_inj.1 (hreceived.trans hsized.size)⟩
            rw [if_pos hall, hf] at hsync
            rw [hf] at hclosed
            rcases hsync with hsync | hsync
            · rcases hclosed with hclosed | hclosed
              · rw [hsync, hclosed] at hfailed
                cases hfailed
              · cases hclosed
            · cases hsync
      have hcleared : Handles terms blake3 quota faulty t
          (fun w => (faulty = false → ¬body.Sized row)
            ∧ Holding terms directories t row w)
          (do
            let _ ← callSystem (.unlink row.temp)
            if got.sizeOverflow then
              pure (.error (.invalid "upload body exceeds registered file size"),
                true)
            else
              pure (.error ⟨.ioError, text (
                if got.received == row.expectedSize.toUInt64 then
                  "unable to synchronize upload temporary file"
                else "upload body size does not match registered file")⟩, false))
          (Got terms blake3 directories faulty t row body) := by
        refine .given fun hnot => clears_handles (.inr rfl) fun _ => ?_
        by_cases hover : got.sizeOverflow = true
        · rw [if_pos hover]
          exact .done Cleared.rely fun _ hpre =>
            ⟨fun _ hf _ => hnot hf, hpre.toHolding⟩
        · rw [if_neg hover]
          exact .done Cleared.rely fun _ hpre =>
            ⟨fun _ hf _ => hnot hf, hpre.toHolding⟩
      show Handles _ _ _ _ _ _ (if (!syncOk || !closed) = true then _ else _) _
      rw [if_pos hfailed]
      exact hcleared.weaken fun w _ hpre => ⟨hwhy w hpre, hpre.holding⟩
    · show Handles _ _ _ _ _ _ (if (!syncOk || !closed) = true then _ else _) _
      rw [if_neg hfailed]
      have hok : syncOk = true := by
        cases syncOk with
        | true => rfl
        | false => exact absurd rfl hfailed
      refine .done Receives.rely fun {w} _ hpre => ?_
      by_cases hall : (got.readOk
          && got.received == row.expectedSize.toUInt64) = true
      · rw [Bool.and_eq_true, beq_iff_eq] at hall
        cases hpre with
        | short hread _ _ =>
            rw [hall.1] at hread
            cases hread
        | all hread hhashed hreceived h =>
            refine ⟨⟨congrArg blake3 hhashed, hread.symm.trans hall.1, ?_⟩, i, h⟩
            rw [← hall.2]
            exact hreceived.symm
      · rw [if_neg hall, hok] at hsync
        cases hsync

end Triples

end World

end PhotoBridge.Upload
