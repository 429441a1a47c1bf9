/-
The PUT handler among others: it keeps the protocol of
`Upload/Proofs/Custody.lean` whatever body it is sent, and where threads
keep off each other's temporary names and nothing fails, a complete body
that matches what was registered is published.
-/
import PhotoBridge.Upload.Proofs.Handler

namespace PhotoBridge.Upload

open Concurrent SharedConnection

namespace World

variable {τ : Type} [DecidableEq τ] {terms : Terms} {blake3 : Bytes → Digest}
  {quota : UploadQuota} {faulty : Bool} {t : τ} {w w' : World τ}
  {row : UploadFileRow} {directories : Path → Bool} {i : Inode} {data : Bytes}

-- ========================================================= publishing

omit [DecidableEq τ] in
/-- The rows of one key are one row. -/
theorem Known.eq (hw : Sound terms blake3 quota w) (h : Known row w)
    {row' : UploadFileRow} (hrow' : row' ∈ w.db.files)
    (hkey : row'.key = row.key) : row.Same row' := by
  obtain ⟨row'', hrow'', hsame⟩ := h
  rw [hw.tables.row_unique hrow' hrow'' (hkey.trans hsame.key.symm)]
  exact hsame

omit [DecidableEq τ] in
theorem Known.next (h : Known row w)
    (hrows : ∀ row ∈ w.db.files, ∃ row' ∈ w'.db.files, row.Same row') :
    Known row w' := by
  obtain ⟨row', hrow', hsame⟩ := h
  obtain ⟨row'', hrow'', hsame'⟩ := hrows row' hrow'
  exact ⟨row'', hrow'', hsame.trans hsame'⟩

/-- `MarkUploadFailed`, by the handler that holds the file. -/
theorem marks_handles (hquota : quota.maxReservedBytes.toNat < 2 ^ 63)
    {α : Type} {next : Except Status Unit → ServerM α}
    {post : α → World τ → Prop}
    (hnext : ∀ r, Handles terms blake3 quota faulty t (Known row) (next r) post) :
    Handles terms blake3 quota faulty t (Holding terms directories t row)
      (.call (I := serverCalls)
        (.inl (.change (.markUploadFailed row.sessionId row.fileId))) next)
      post := by
  refine .store Holding.rely (fun {w r w'} hw hpre hact => ?_) hnext
  have hvacant : terms.exclusive row.key = true → ∀ row' ∈ w.db.files,
      row'.key = (row.sessionId, row.fileId) →
        w.disk.files row'.final = none := by
    intro hx row' hrow' hkey
    rw [(hpre.known.eq hw hrow' hkey).final]
    exact hpre.vacant hx
  obtain ⟨hw', hguar, hrows⟩ := hact.marks hquota hw hpre.held hvacant
  exact ⟨hw', hguar, hpre.known.next hrows⟩

/-- What a handler that started answers: where threads keep off each
other's names and nothing fails, a body that matches is published if there
is room for it. -/
def Answers (terms : Terms) (blake3 : Bytes → Digest)
    (directories : Path → Bool) (faulty : Bool) (row : UploadFileRow)
    (body : Body) (r : Response) (w : World τ) : Prop :=
  Known row w ∧ (terms.exclusive row.key = true → faulty = false →
    body.Matches blake3 row → row.Roomy directories →
      r = .published (blake3 body.content) ∧ There row body.content w)

omit [DecidableEq τ] in
/-- The published file can be given its name where there is room for it. -/
theorem Holding.admits (h : Holding terms directories t row w)
    (hx : terms.exclusive row.key = true) (hroom : row.Roomy directories) :
    w.disk.Admits row.final := by
  refine ⟨?_, ?_, hroom.finalFits⟩
  · rw [Disk.taken, h.vacant hx, h.settled ⟨_, hx⟩]
    exact hroom.final
  · rw [h.settled ⟨_, hx⟩]
    exact hroom.finalParent

private theorem renames_handles {α : Type} {next : Option Errno → ServerM α}
    {post : α → World τ → Prop} (hpassed : row.Passed blake3 data)
    (herror : ∀ e, (terms.exclusive row.key = true → faulty = false →
        ¬row.Roomy directories) →
      Handles terms blake3 quota faulty t (Holding terms directories t row)
        (next (some e)) post)
    (hdone : Handles terms blake3 quota faulty t
      (Published terms directories t row data) (next none) post) :
    Handles terms blake3 quota faulty t
      (Writing terms directories t row i data)
      (.call (I := serverCalls) (.inr (.renameNoReplace row.temp row.final))
        next) post := by
  refine .system (m := fun r w => match r with
    | some _ => (terms.exclusive row.key = true → faulty = false →
        ¬row.Roomy directories) ∧ Holding terms directories t row w
    | none => Published terms directories t row data w)
    Writing.rely (fun {w r w'} hw hpre hact => ?_) fun r => ?_
  · obtain ⟨row', hrow', hsame, hkey⟩ := hpre.now
    rw [← hsame.final] at hact ⊢
    have hmine : ∀ j, w.disk.files row.temp = some j →
        w.author j = some t ∧ row'.Passed blake3 (w.disk.content j) := by
      intro j hj
      rw [hpre.temp j hj, hpre.content]
      exact ⟨hpre.author, hsame.passed hpassed⟩
    obtain ⟨hw', hguar, hafter⟩ := hact.renames hw hpre.held hrow' hkey hmine
    refine ⟨hw', hguar, ?_⟩
    rcases hafter with ⟨j, hj, rfl, hdisk⟩ | ⟨hr, rfl, hwhy⟩
    · have hapart := (hact.system hw).apart
      have hdb : w'.db = w.db := congrArg Link.committed hapart.link
      refine ⟨?_, ?_, fun hx => ?_, j, ?_, ?_⟩
      · rw [hapart.holder]
        exact hpre.mine
      · rw [Known, hdb]
        exact hpre.known
      · rw [hdisk]
        exact hpre.settled hx
      · rw [hdisk, ← hsame.final]
        exact Disk.link_files_self
      · rw [hdisk]
        show w.disk.content j = data
        rw [hpre.temp j hj]
        exact hpre.content
    · cases r with
      | none => exact absurd rfl hr
      | some e =>
          refine ⟨fun hx hf hroom => ?_, hpre.toHolding⟩
          rcases hwhy with hfaulty | hgone | hnot
          · rw [hf] at hfaulty
            cases hfaulty
          · have hthere := hpre.there hx
            rw [UploadFileRow.temp, hgone] at hthere
            cases hthere
          · rw [hsame.final] at hnot
            exact hnot (hpre.admits hx hroom)
  · cases r with
    | some e => exact .given (herror e)
    | none => exact hdone

private theorem syncDirectory_handles :
    Handles terms blake3 quota faulty t
      (Published terms directories t row data)
      (syncDirectory (parentPath row.final))
      fun ok w => (ok = false → terms.exclusive row.key = true → faulty = false →
          ¬row.Roomy directories)
        ∧ (ok = true → w.disk.synced row.final = true)
        ∧ Published terms directories t row data w := by
  -- what is synced stays so: nobody takes the final away
  have hsynced : ∀ {w w' : World τ},
      w.disk.synced row.final = true ∧ Published terms directories t row data w →
      Rely terms t w w' →
      w'.disk.synced row.final = true
        ∧ Published terms directories t row data w' := by
    intro w w' h hr
    obtain ⟨i, hi, -⟩ := h.2.final
    exact ⟨hr.synced _ _ i hi h.1, h.2.rely hr⟩
  refine .system (m := fun opened w => (opened = false →
      terms.exclusive row.key = true → faulty = false → ¬row.Roomy directories)
      ∧ Published terms directories t row data w)
    Published.rely (fun {w opened w'} hw hpre hact => ?_) fun opened => ?_
  -- opening the directory changes nothing
  · obtain ⟨hdisk, hopened⟩ := (hact.system hw).disk
    have hsame := (hact.system hw).still hdisk
    subst hsame
    refine ⟨hw, .refl fun _ => id, fun hno hx hf hroom => ?_, hpre⟩
    rcases hopened with hopened | ⟨-, hfaulty⟩
    · rw [hno, hpre.settled ⟨_, hx⟩, hroom.finalParent] at hopened
      cases hopened
    · rw [hf] at hfaulty
      cases hfaulty
  -- without the directory there is nothing to sync
  · cases opened with
    | false =>
        refine .given fun hno => Handles.done Published.rely fun _ hpre => ?_
        exact ⟨hno, (fun h => by cases h), hpre⟩
    | true =>
    refine .given fun _ => Handles.system (m := fun synced w =>
      (synced = false → faulty = true) ∧
        (synced = true → w.disk.synced row.final = true)
        ∧ Published terms directories t row data w)
      Published.rely (fun {w synced w'} hw hpre hact => ?_) fun synced => ?_
    -- the sync, which changes nothing but what would outlive a crash
    · obtain ⟨hw', hguar, hafter⟩ := hact.syncs hw
      refine ⟨hw', hguar, ?_⟩
      rcases hafter with ⟨rfl, hdisk⟩ | ⟨rfl, rfl, hfaulty⟩
      · have hapart := (hact.system hw).apart
        have hdb : w'.db = w.db := congrArg Link.committed hapart.link
        obtain ⟨i, hi, hcontent⟩ := hpre.final
        refine ⟨(fun h => by cases h), fun _ => ?_, ?_, ?_, fun hx => ?_, i,
          ?_, ?_⟩
        · rw [hdisk]
          show (w.disk.synced row.final || _) = true
          rw [beq_self_eq_true, hi]
          exact Bool.or_true _
        · rw [hapart.holder]
          exact hpre.mine
        · rw [Known, hdb]
          exact hpre.known
        · rw [hdisk]
          exact hpre.settled hx
        · rw [hdisk]
          exact hi
        · rw [hdisk]
          exact hcontent
      · exact ⟨fun _ => hfaulty, (fun h => by cases h), hpre⟩
    · refine .given fun hfailed => ?_
      have hstable : ∀ {w w' : World τ},
          (synced = true → w.disk.synced row.final = true)
            ∧ Published terms directories t row data w →
          Rely terms t w w' →
          (synced = true → w'.disk.synced row.final = true)
            ∧ Published terms directories t row data w' := by
        intro w w' h hr
        exact ⟨fun hs => (hsynced ⟨h.1 hs, h.2⟩ hr).1, h.2.rely hr⟩
      -- closing it changes nothing
      refine Handles.still (q := fun _ => True) hstable
        (fun _ hdisk => ⟨hdisk, trivial⟩) (fun _ _ => id) fun _ _ =>
          Handles.done hstable fun _ hpre => ⟨fun hno _ hf _ => ?_, hpre⟩
      have hfaulty := hfailed hno
      rw [hf] at hfaulty
      cases hfaulty

omit [DecidableEq τ] in
theorem Answers.rely {body : Body} {r : Response}
    (h : Answers terms blake3 directories faulty row body r w)
    (hr : Rely terms t w w') :
    Answers terms blake3 directories faulty row body r w' := by
  refine ⟨h.1.rely hr, fun hx hf hmatches hroom => ?_⟩
  obtain ⟨hr', hthere⟩ := h.2 hx hf hmatches hroom
  exact ⟨hr', hthere.rely hr⟩

private theorem publishUpload_handles
    (hquota : quota.maxReservedBytes.toNat < 2 ^ 63) {body : Body}
    (hpassed : row.Passed blake3 body.content) :
    Handles terms blake3 quota faulty t
      (Writing terms directories t row i body.content)
      (publishUpload row.sessionId row.fileId row.toFile (blake3 body.content))
      (Answers terms blake3 directories faulty row body) := by
  refine renames_handles hpassed (fun e hnot => ?_) ?_
  · refine marks_handles hquota fun _ => ?_
    by_cases hexist : e = .exist
    · show Handles _ _ _ _ _ _ (if e = .exist then _ else _) _
      rw [if_pos hexist]
      exact .done Known.rely fun _ hpre =>
        ⟨hpre, fun hx hf _ hroom => absurd hroom (hnot hx hf)⟩
    · show Handles _ _ _ _ _ _ (if e = .exist then _ else _) _
      rw [if_neg hexist]
      exact .done Known.rely fun _ hpre =>
        ⟨hpre, fun hx hf _ hroom => absurd hroom (hnot hx hf)⟩
  · show Handles _ _ _ _ _ _
      (syncDirectory (parentPath row.final) >>= fun synced => _) _
    refine Triple.bind syncDirectory_handles fun synced => ?_
    refine .given fun hno => ?_
    cases synced with
    | false =>
        refine Handles.done (fun {w w'} hpre hr => ⟨nofun, hpre.2.rely hr⟩)
          fun {w} _ hpre => ⟨hpre.2.known, fun hx hf _ hroom => ?_⟩
        exact absurd hroom (hno rfl hx hf)
    | true =>
    refine Handles.store (m := fun (r : Except Status Unit) w =>
        (faulty = false → r = .ok ()) ∧ Known row w ∧ There row body.content w)
      (fun {w w'} hpre hr => ?_) (fun {w r w'} hw hpre hact => ?_) fun r => ?_
    · obtain ⟨i, hi, -⟩ := hpre.2.final
      exact ⟨fun hs => hr.synced _ _ i hi (hpre.1 hs), hpre.2.rely hr⟩
    · have hheld := (hpre.2.mine _ _).2 rfl
      obtain ⟨hw', hguar, hdisk, hrows⟩ := hact.commits hquota hw hheld
        fun row' hrow' hkey => by
          have hsame := hpre.2.known.eq hw hrow' hkey
          obtain ⟨i, hi, hcontent⟩ := hpre.2.final
          rw [hsame.final]
          exact ⟨⟨i, hi, congrArg blake3 hcontent.symm⟩, fun _ => hpre.1 rfl⟩
      refine ⟨hw', hguar, fun hf => ?_, hpre.2.known.next hrows, ?_⟩
      · subst hf
        obtain ⟨row', hrow', hsame⟩ := hpre.2.known
        exact hact.commits_ok hw hheld hrow' hsame.key
          (congrArg Int64.toUInt64 hsame.expected)
      · rw [There, hdisk]
        exact hpre.2.final
    · have hstable : ∀ {w w' : World τ},
          Known row w ∧ There row body.content w → Rely terms t w w' →
          Known row w' ∧ There row body.content w' :=
        fun h hr => ⟨h.1.rely hr, h.2.rely hr⟩
      refine .given fun hok => ?_
      cases r with
      | error e =>
          refine Handles.done hstable fun _ hpre => ⟨hpre.1, fun _ hf _ _ => ?_⟩
          cases hok hf
      | ok v =>
          exact Handles.done hstable fun _ hpre =>
            ⟨hpre.1, fun _ _ _ _ => ⟨rfl, hpre.2⟩⟩

-- =========================================================== the handler

private theorem upload_handles (hquota : quota.maxReservedBytes.toNat < 2 ^ 63)
    {body : Body} (hhonest : terms.exclusive row.key = true → body.Honest blake3 row) :
    Handles terms blake3 quota faulty t (Holding terms directories t row)
      (upload blake3 row.sessionId row.fileId row.toFile body)
      (Answers terms blake3 directories faulty row body) := by
  refine Triple.bind (receiveBody_handles body) fun got => ?_
  obtain ⟨got, sizeOverflow⟩ := got
  cases got with
  | error e =>
      refine .given fun hnot => marks_handles hquota fun _ => ?_
      refine Handles.done Known.rely fun _ hpre => ⟨hpre, ?_⟩
      exact fun hx hf hmatches hroom =>
        absurd hmatches.sized (hnot hx hf hroom)
  | ok digest =>
  refine .given fun hgot => .given_exists fun i => ?_
  obtain ⟨rfl, hsized⟩ := hgot
  show Handles _ _ _ _ _ _ (if row.clientDigest.any _ = true then _ else _) _
  by_cases hdiffers : row.clientDigest.any (· != blake3 body.content) = true
  · rw [if_pos hdiffers]
    -- the file is given up before its temporary name is taken away, which
    -- those who keep off each other's names must not do
    have hopen : terms.exclusive row.key = false := by
      cases hx : terms.exclusive row.key with
      | false => rfl
      | true =>
          cases hclient : row.clientDigest with
          | none =>
              rw [hclient] at hdiffers
              cases hdiffers
          | some digest =>
              rw [hclient, hhonest hx hsized digest hclient] at hdiffers
              exact absurd rfl (bne_iff_ne.1 hdiffers)
    have hmarked : Handles terms blake3 quota faulty t
        (Holding terms directories t row)
        (do
          let _ ← callChange (.markUploadFailed row.sessionId row.fileId)
          let _ ← callSystem (.unlink (tempPath row.sessionId row.fileId))
          pure (.line 422 (text "client hash does not match upload")))
        (Answers terms blake3 directories faulty row body) := by
      refine marks_handles hquota fun _ => ?_
      refine Handles.system (m := fun _ => Known row) Known.rely
        (fun {w r w'} hw hpre hact => ?_) fun _ => ?_
      · obtain ⟨hw', hguar, -⟩ := hact.unlinks (.inr rfl) hw fun hx => by
          cases hopen.symm.trans hx
        refine ⟨hw', hguar, ?_⟩
        rw [Known, show w'.db = w.db from
          congrArg Link.committed (hact.system hw).apart.link]
        exact hpre
      · refine Handles.done Known.rely fun _ hpre => ⟨hpre, fun hx => ?_⟩
        cases hopen.symm.trans hx
    exact hmarked.weaken fun _ _ hpre => hpre.toHolding
  · rw [if_neg hdiffers]
    refine publishUpload_handles hquota ⟨hsized.size, fun digest hdigest => ?_⟩
    by_cases heq : digest = blake3 body.content
    · exact heq
    · rw [hdigest] at hdiffers
      exact absurd (bne_iff_ne.2 heq) hdiffers

/-- The handler has not begun, and knows the directories; where threads
keep off each other's names, its body is honest about what is registered. -/
structure Coming (terms : Terms) (blake3 : Bytes → Digest)
    (directories : Path → Bool) (t : τ) (request : PutRequest) (w : World τ) :
    Prop where
  idle : Idle t w
  settled : Settled terms directories w
  honest : terms.exclusive (request.sessionId, request.fileId) = true → ∃ row,
    row.key = (request.sessionId, request.fileId) ∧ Known row w
      ∧ request.body.Honest blake3 row

/-- What the handler answers a request. -/
def Replies (terms : Terms) (blake3 : Bytes → Digest)
    (directories : Path → Bool) (faulty : Bool) (t : τ) (request : PutRequest)
    (r : Response) (w : World τ) : Prop :=
  terms.exclusive (request.sessionId, request.fileId) = true →
    faulty = false → w.started t = true → ∀ row ∈ w.db.files,
      row.key = (request.sessionId, request.fileId) →
      request.body.Matches blake3 row → row.Roomy directories →
        r = .published (blake3 request.body.content)
          ∧ There row request.body.content w

omit [DecidableEq τ] in
theorem Coming.rely {request : PutRequest}
    (h : Coming terms blake3 directories t request w) (hr : Rely terms t w w') :
    Coming terms blake3 directories t request w' := by
  refine ⟨h.idle.rely hr, h.settled.rely hr, fun hx => ?_⟩
  obtain ⟨row, hkey, hknown, hhonest⟩ := h.honest hx
  exact ⟨row, hkey, hknown.rely hr, hhonest⟩

omit [DecidableEq τ] in
theorem Answers.replies {request : PutRequest} {r : Response}
    (h : Answers terms blake3 directories faulty row request.body r w)
    (hw : Sound terms blake3 quota w)
    (hkey : row.key = (request.sessionId, request.fileId)) :
    Replies terms blake3 directories faulty t request r w := by
  intro hx hf _ row' hrow' hkey' hmatches hroom
  have hsame := h.1.eq hw hrow' (hkey'.trans hkey.symm)
  have hfinal := hsame.final
  have htemp := hsame.temp
  obtain ⟨hr, hthere⟩ := h.2 ((congrArg terms.exclusive hkey).trans hx) hf
    (hsame.matches hmatches) (hsame.roomy hroom)
  refine ⟨hr, ?_⟩
  rw [There, hfinal]
  exact hthere

/-- A handler that answers before it started owes nothing. -/
theorem replies_idle {request : PutRequest} {r : Response} :
    Handles terms blake3 quota faulty t (fun w => w.started t = false)
      (.done r : ServerM Response)
      (Replies terms blake3 directories faulty t request) := by
  refine .done (fun {w w'} hpre hr => hr.started.trans hpre) fun {w} _ hpre => ?_
  intro _ _ hstarted
  rw [hpre] at hstarted
  cases hstarted

/-- The file as it is registered: one of its requests is let start. -/
theorem started_handles (hquota : quota.maxReservedBytes.toNat < 2 ^ 63)
    {request : PutRequest} {row : UploadFileRow} {file : UploadFile}
    (hkey : row.key = (request.sessionId, request.fileId))
    (hfile : file = row.toFile)
    (hhonest : terms.exclusive row.key = true →
      request.body.Honest blake3 row) :
    Handles terms blake3 quota faulty t
      (fun w => Idle t w ∧ Settled terms directories w ∧ Known row w)
      (do
        match ← callChange (.beginUpload request.sessionId request.fileId) with
        | .error e => pure (.line 500 e.message)
        | .ok .alreadyReceived => pure .received
        | .ok .busy => pure (.line 409 (text "upload is already receiving"))
        | .ok .started =>
            upload blake3 request.sessionId request.fileId file request.body)
      (Replies terms blake3 directories faulty t request) := by
  obtain ⟨hs, hf⟩ := Prod.mk.inj hkey
  subst hfile
  rw [← hs, ← hf]
  refine Handles.store (m := fun (r : Except Status BeginUploadResult) w =>
    if r = .ok .started then Holding terms directories t row w
    else w.started t = false)
    (fun hpre hr => ⟨hpre.1.rely hr, hpre.2.1.rely hr, hpre.2.2.rely hr⟩)
    (fun {w r w'} hw hpre hact => ?_) fun r => ?_
  · obtain ⟨hidle, hsettled, hknown⟩ := hpre
    obtain ⟨hw', hguar, hbegins⟩ := hact.begins hquota hw hidle.free
    refine ⟨hw', hguar, ?_⟩
    by_cases hr : r = .ok .started
    · rw [if_pos hr]
      obtain ⟨hmine, hvacant⟩ := hbegins.started hr
      refine ⟨fun s f => (hmine s f).trans ?_, hknown.next hbegins.rows, ?_, ?_⟩
      · exact Iff.rfl
      · intro hx
        rw [hbegins.disk]
        exact hsettled hx
      · intro hx
        obtain ⟨row', hrow', hsame⟩ := hknown
        rw [hbegins.disk, ← hsame.final]
        exact hvacant hx row' hrow' hsame.key
    · rw [if_neg hr]
      exact (hbegins.other hr).2.trans hidle.started
  · by_cases hr : r = .ok .started
    · subst hr
      exact Triple.strengthen (upload_handles hquota hhonest)
        fun _ _ hw hpost => hpost.replies hw hkey
    · simp only [if_neg hr]
      cases r with
      | error e => exact replies_idle
      | ok v =>
          cases v with
          | started => exact absurd rfl hr
          | alreadyReceived => exact replies_idle
          | busy => exact replies_idle

theorem put_handles (hquota : quota.maxReservedBytes.toNat < 2 ^ 63)
    (request : PutRequest) :
    Handles terms blake3 quota faulty t
      (Coming terms blake3 directories t request) (put blake3 request)
      (Replies terms blake3 directories faulty t request) := by
  unfold put
  by_cases hauth : (!request.authorized) = true
  · rw [if_pos hauth]
    exact replies_idle.weaken fun _ _ hpre => hpre.idle.started
  rw [if_neg hauth]
  refine .store (m := fun (r : Except Status UploadFile) w =>
    Coming terms blake3 directories t request w ∧ ∀ file, r = .ok file →
      ∃ row, row.key = (request.sessionId, request.fileId)
        ∧ file = row.toFile ∧ Known row w
        ∧ (terms.exclusive row.key = true → request.body.Honest blake3 row))
    Coming.rely (fun {w r w'} hw hpre hact => ?_) fun r => ?_
  · obtain ⟨hsame, hfile⟩ := hact.getFile hw
    subst hsame
    refine ⟨hw, .refl fun _ => id, hpre, fun file hok => ?_⟩
    obtain ⟨row, hrow, hkey, heq⟩ := hfile file hok
    refine ⟨row, hkey, heq, ⟨row, hrow, .refl row⟩, fun hx => ?_⟩
    obtain ⟨row', hkey', hknown, hhonest⟩ :=
      hpre.honest ((congrArg terms.exclusive hkey).symm.trans hx)
    exact (hknown.eq hw hrow (hkey.trans hkey'.symm)).honest hhonest
  cases r with
  | error e => exact replies_idle.weaken fun _ _ hpre => hpre.1.idle.started
  | ok file =>
  intro w hw hpre
  obtain ⟨row, hkey, hfile, hknown, hhonest⟩ := hpre.2 file rfl
  exact started_handles hquota hkey hfile hhonest w hw
    ⟨hpre.1.idle, hpre.1.settled, hknown⟩

end World

end PhotoBridge.Upload
