/-
What an operation does to the file rows, one row at a time: what was
registered stays, and no row changes but those of the file the operation
is about.
-/
import PhotoBridge.Upload.Proofs.Tables
import PhotoBridge.Upload.System

namespace PhotoBridge.Upload

-- ========================================================= registrations

/-- The rows agree on what was registered. -/
structure UploadFileRow.Same (row row' : UploadFileRow) : Prop where
  key : row'.key = row.key
  place : row'.place = row.place
  expected : row'.expectedSize = row.expectedSize
  client : row'.clientDigest = row.clientDigest

theorem UploadFileRow.Same.refl (row : UploadFileRow) : row.Same row :=
  ⟨rfl, rfl, rfl, rfl⟩

theorem UploadFileRow.Same.symm {row row' : UploadFileRow}
    (h : row.Same row') : row'.Same row :=
  ⟨h.key.symm, h.place.symm, h.expected.symm, h.client.symm⟩

theorem UploadFileRow.Same.trans {row row' row'' : UploadFileRow}
    (h : row.Same row') (h' : row'.Same row'') : row.Same row'' :=
  ⟨h'.key.trans h.key, h'.place.trans h.place, h'.expected.trans h.expected,
    h'.client.trans h.client⟩

theorem UploadFileRow.isAt_iff {s f : Bytes} {row : UploadFileRow} :
    row.isAt s f = true ↔ row.key = (s, f) := by
  rw [UploadFileRow.isAt, Bool.and_eq_true, beq_iff_eq, beq_iff_eq,
    UploadFileRow.key, Prod.mk.injEq]

theorem UploadDb.receiving_iff {db : UploadDb} {s f : Bytes} :
    db.receiving s f = true
      ↔ ∃ row ∈ db.files, row.key = (s, f) ∧ row.state = .receiving := by
  unfold UploadDb.receiving
  rw [List.any_eq_true]
  constructor
  · rintro ⟨row, hrow, h⟩
    rw [Bool.and_eq_true, UploadFileRow.isAt_iff, beq_iff_eq] at h
    exact ⟨row, hrow, h⟩
  · rintro ⟨row, hrow, h⟩
    refine ⟨row, hrow, ?_⟩
    rw [Bool.and_eq_true, UploadFileRow.isAt_iff, beq_iff_eq]
    exact h

/-- Two rows of one file are one row. -/
theorem UploadDb.Sound.row_unique {quota : UploadQuota} {db : UploadDb}
    (hdb : db.Sound quota) {row row' : UploadFileRow} (hrow : row ∈ db.files)
    (hrow' : row' ∈ db.files) (h : row.key = row'.key) : row = row' :=
  List.inj_on_of_nodup_map hdb.keys hrow hrow' h

theorem UploadDb.Sound.place_unique {quota : UploadQuota} {db : UploadDb}
    (hdb : db.Sound quota) {row row' : UploadFileRow} (hrow : row ∈ db.files)
    (hrow' : row' ∈ db.files) (h : row.place = row'.place) : row = row' :=
  List.inj_on_of_nodup_map hdb.places hrow hrow' h

-- ============================================================== one step

/-- The tables after an operation about these files. -/
structure UploadDb.Steps (about : Bytes × Bytes → Prop) (db db' : UploadDb) :
    Prop where
  forth : ∀ row ∈ db.files, ∃ row' ∈ db'.files,
    row.Same row' ∧ (¬about row.key → row' = row)
  back : ∀ row' ∈ db'.files,
    (∃ row ∈ db.files, row.Same row' ∧ (¬about row.key → row' = row))
      ∨ row'.sessionId ∉ db.sessions.map (·.sessionId) ∧ row'.state = .pending
  sessions : ∀ s ∈ db.sessions.map (·.sessionId),
    s ∈ db'.sessions.map (·.sessionId)

namespace UploadDb

variable {quota : UploadQuota} {db db' : UploadDb}
  {about : Bytes × Bytes → Prop}

theorem Steps.refl (db : UploadDb) : Steps about db db where
  forth := fun row hrow => ⟨row, hrow, .refl row, fun _ => rfl⟩
  back := fun row hrow => .inl ⟨row, hrow, .refl row, fun _ => rfl⟩
  sessions := fun _ hs => hs

theorem Steps.unchanged (h : Steps about db db') {row : UploadFileRow}
    (hrow : row ∈ db.files) (hother : ¬about row.key) : row ∈ db'.files := by
  obtain ⟨row', hrow', -, heq⟩ := h.forth row hrow
  rw [← heq hother]
  exact hrow'

/-- Another file's row was there before, or is of a new session. -/
theorem Steps.before (h : Steps about db db') {row : UploadFileRow}
    (hrow : row ∈ db'.files) (hother : ¬about row.key) :
    row ∈ db.files
      ∨ row.sessionId ∉ db.sessions.map (·.sessionId)
        ∧ row.state = .pending := by
  rcases h.back row hrow with ⟨row₀, hrow₀, hsame, heq⟩ | hnew
  · left
    have hother₀ : ¬about row₀.key := by
      rw [← hsame.key]
      exact hother
    rw [heq hother₀]
    exact hrow₀
  · exact .inr hnew

/-- Whether another file is being received does not change. -/
theorem Steps.receiving (h : Steps about db db') {s f : Bytes}
    (hother : ¬about (s, f)) : db'.receiving s f = db.receiving s f := by
  rw [Bool.eq_iff_iff, receiving_iff, receiving_iff]
  constructor
  · rintro ⟨row, hrow, hkey, hstate⟩
    rcases h.before hrow (hkey ▸ hother) with hmem | ⟨-, hpending⟩
    · exact ⟨row, hmem, hkey, hstate⟩
    · rw [hpending] at hstate
      cases hstate
  · rintro ⟨row, hrow, hkey, hstate⟩
    exact ⟨row, h.unchanged hrow (hkey ▸ hother), hkey, hstate⟩

/-- Rows rewritten in place, those of one file only. -/
theorem steps_map {s f : Bytes} {g : UploadFileRow → UploadFileRow}
    {sessions : List UploadSessionRow}
    (hsame : ∀ row : UploadFileRow, row.Same (g row))
    (hother : ∀ row, row.key ≠ (s, f) → g row = row)
    (hsessions : ∀ id ∈ db.sessions.map (·.sessionId),
      id ∈ sessions.map (·.sessionId)) :
    Steps (· = (s, f)) db ⟨sessions, db.files.map g⟩ where
  forth := fun row hrow =>
    ⟨g row, List.mem_map_of_mem hrow, hsame row, hother row⟩
  back := by
    intro row' hrow'
    obtain ⟨row, hrow, rfl⟩ := List.mem_map.1 hrow'
    exact .inl ⟨row, hrow, hsame row, hother row⟩
  sessions := hsessions

/-- `WHERE session_id = ? AND file_id = ? AND ..` and an assignment that
keeps what was registered. -/
theorem steps_select {s f : Bytes} {extra : UploadFileRow → Bool}
    {change : UploadFileRow → UploadFileRow}
    {sessions : List UploadSessionRow}
    (hsame : ∀ row : UploadFileRow, row.Same (change row))
    (hsessions : ∀ id ∈ db.sessions.map (·.sessionId),
      id ∈ sessions.map (·.sessionId)) :
    Steps (· = (s, f)) db ⟨sessions, db.files.map fun row =>
      if row.isAt s f && extra row then change row else row⟩ := by
  refine steps_map (fun row => ?_) (fun row hrow => ?_) hsessions
  · split
    · exact hsame row
    · exact .refl row
  · rw [if_neg]
    intro h
    rw [Bool.and_eq_true, UploadFileRow.isAt_iff] at h
    exact hrow h.1

-- ======================================================== each operation

/-- `BeginUpload` that started an upload. -/
structure Begun (s f : Bytes) (db db' : UploadDb) : Prop where
  steps : Steps (· = (s, f)) db db'
  was : ∀ row ∈ db.files, row.key = (s, f) →
    row.state = .pending ∨ row.state = .failed
  is : ∃ row ∈ db'.files, row.key = (s, f) ∧ row.state = .receiving

theorem beginUpload_begun (hdb : db.Sound quota) {s f : Bytes}
    (h : UploadDb.beginUpload s f db = some (.started, db')) :
    Begun s f db db' := by
  unfold UploadDb.beginUpload at h
  cases hfile : db.file? s f with
  | none =>
      rw [hfile] at h
      cases h
  | some row =>
  rw [hfile] at h
  have hmem : row ∈ db.files := List.mem_of_find?_eq_some hfile
  have hfound := List.find?_some hfile
  have hkey : row.key = (s, f) := UploadFileRow.isAt_iff.1 hfound
  have hstate : row.state = .pending ∨ row.state = .failed := by
    cases hs : row.state with
    | pending => exact .inl rfl
    | failed => exact .inr rfl
    | received =>
        simp only [hs] at h
        cases h
    | receiving =>
        simp only [hs] at h
        cases h
  have hdb' : db' = (db.begin_ s f).2 := by
    rcases hstate with hs | hs
    · simp only [hs] at h
      split at h
      · cases h
        rfl
      · cases h
    · simp only [hs] at h
      split at h
      · cases h
        rfl
      · cases h
  subst hdb'
  refine ⟨steps_select (fun row => ⟨rfl, rfl, rfl, rfl⟩) fun _ hid => hid,
    fun other hother hsame => ?_, ?_⟩
  · rw [hdb.row_unique hother hmem (hsame.trans hkey.symm)]
    exact hstate
  · refine ⟨{ row with state := .receiving }, ?_, hkey, rfl⟩
    refine List.mem_map.2 ⟨row, hmem, if_pos ?_⟩
    rw [Bool.and_eq_true, UploadFileRow.isAt_iff, Bool.or_eq_true, beq_iff_eq,
      beq_iff_eq]
    exact ⟨hkey, hstate⟩

/-- `BeginUpload` that did not. -/
theorem beginUpload_other {s f : Bytes} {v : BeginUploadResult}
    (h : UploadDb.beginUpload s f db = some (v, db')) (hv : v ≠ .started) :
    db' = db := by
  unfold UploadDb.beginUpload at h
  split at h
  · cases h
  split at h
  · cases h
    rfl
  · cases h
    rfl
  · split at h
    · cases h
      exact absurd rfl hv
    · cases h

/-- `MarkUploadFailed`. -/
theorem markFailed_steps (s f : Bytes) :
    Steps (· = (s, f)) db (db.markFailed s f).2 :=
  steps_select (fun _ => ⟨rfl, rfl, rfl, rfl⟩) fun _ hid => hid

theorem markFailed_state {s f : Bytes} {row : UploadFileRow}
    (hrow : row ∈ (db.markFailed s f).2.files) (hkey : row.key = (s, f)) :
    row.state ≠ .receiving ∧ (row ∈ db.files ∨ row.state = .failed) := by
  obtain ⟨row₀, hrow₀, rfl⟩ := List.mem_map.1 hrow
  by_cases h : row₀.isAt s f = true ∧ row₀.state = .receiving
  · rw [if_pos]
    · exact ⟨nofun, .inr rfl⟩
    · rw [Bool.and_eq_true, beq_iff_eq]
      exact h
  · have hsame : ¬(row₀.isAt s f && row₀.state == .receiving) = true := by
      rw [Bool.and_eq_true, beq_iff_eq]
      exact h
    rw [if_neg hsame] at hkey ⊢
    exact ⟨fun hs => h ⟨UploadFileRow.isAt_iff.2 hkey, hs⟩, .inl hrow₀⟩

/-- `CommitUpload` that went through. -/
structure Committed (s f : Bytes) (digest : Digest) (db db' : UploadDb) :
    Prop where
  steps : Steps (· = (s, f)) db db'
  was : ∃ row ∈ db.files, row.key = (s, f) ∧ row.state = .receiving
  is : ∀ row ∈ db'.files, row.key = (s, f) →
    row.state = .received ∧ row.serverDigest = some digest

theorem commitUpload_committed (hdb : db.Sound quota) {s f : Bytes}
    {size : UInt64} {digest : Digest}
    (h : UploadDb.commitUpload s f size digest db = some ((), db')) :
    Committed s f digest db db' := by
  simp only [UploadDb.commitUpload] at h
  split at h
  · rename_i hone
    cases hp : (db.receive s f size.toInt64 digest).2.updateProgress s with
    | error e =>
        rw [hp] at h
        cases h
    | ok updated =>
    rw [hp] at h
    cases h
    unfold updateProgress at hp
    split at hp
    · cases hp
    rename_i total htotal
    cases hp
    have hselects : ∀ row : UploadFileRow,
        (row.isAt s f && row.state == .receiving
          && row.expectedSize == size.toInt64)
        = (row.isAt s f && (row.state == .receiving
          && row.expectedSize == size.toInt64)) := fun row => Bool.and_assoc ..
    have hpos : 0 < (db.receive s f size.toInt64 digest).1 := by omega
    obtain ⟨row, hmem, hrow⟩ := List.countP_pos_iff.1 hpos
    have hkey : row.key = (s, f) := by
      rw [Bool.and_eq_true, Bool.and_eq_true, UploadFileRow.isAt_iff] at hrow
      exact hrow.1.1
    refine ⟨?_, ⟨row, hmem, hkey, (receive_selects hrow).2.1⟩,
      fun row' hrow' hkey' => ?_⟩
    · have hids : ∀ id ∈ db.sessions.map (·.sessionId),
          id ∈ ((db.receive s f size.toInt64 digest).2.updateSessions
            (·.sessionId == s) fun row =>
              { row with receivedTotalBytes := total }).2.sessions.map
                (·.sessionId) := by
        intro id hid
        obtain ⟨session, hsession, rfl⟩ := List.mem_map.1 hid
        refine List.mem_map.2 ⟨_, List.mem_map_of_mem hsession, ?_⟩
        split <;> rfl
      simp only [updateSessions, receive, updateFiles, hselects] at hids ⊢
      exact steps_select (fun _ => ⟨rfl, rfl, rfl, rfl⟩) hids
    · obtain ⟨row₀, hrow₀, rfl⟩ := List.mem_map.1 hrow'
      by_cases hsel : (row₀.isAt s f && row₀.state == .receiving
          && row₀.expectedSize == size.toInt64) = true
      · rw [if_pos hsel]
        exact ⟨rfl, rfl⟩
      · rw [if_neg hsel] at hkey'
        have hsame := hdb.row_unique hrow₀ hmem (hkey'.trans hkey.symm)
        rw [hsame] at hsel
        exact absurd hrow hsel
  · cases h

/-- A predicate that picks out one row's key picks out one row. -/
theorem Sound.countP_eq_one (hdb : db.Sound quota)
    {selects : UploadFileRow → Bool} {row : UploadFileRow}
    (hrow : row ∈ db.files) (hselects : selects row = true)
    (hkey : ∀ row', selects row' = true → row'.key = row.key) :
    db.files.countP selects = 1 := by
  have hpos : 0 < db.files.countP selects :=
    List.countP_pos_iff.2 ⟨row, hrow, hselects⟩
  have hle : db.files.countP selects
      ≤ db.files.countP ((· == row.key) ∘ UploadFileRow.key) :=
    List.countP_mono_left fun row' _ h => beq_iff_eq.2 (hkey row' h)
  have hone := List.nodup_iff_count_le_one.1 hdb.keys row.key
  rw [List.count, List.countP_map] at hone
  omega

private theorem received_le {row : UploadFileRow} (h : row.Sound quota) :
    0 ≤ row.receivedSize.toInt
      ∧ row.receivedSize.toInt ≤ row.expectedSize.toInt := by
  by_cases hstate : row.state = .received
  · rw [h.received hstate]
    exact ⟨h.nonneg, Int.le_refl _⟩
  · rw [h.other hstate]
    exact ⟨Int.le_refl 0, h.nonneg⟩

/-- No file has more than it is to have, and those sizes add up. -/
theorem Rewrites.progress_some (hdb : db.Sound quota)
    {g : UploadFileRow → UploadFileRow} (hg : Rewrites quota db g) {s : Bytes}
    (hs : s ∈ db.sessions.map (·.sessionId)) :
    ∃ total, sumInt64 (((db.filesOf s).map g).map (·.receivedSize))
      = some total := by
  have hof : ∀ row ∈ db.filesOf s, row ∈ db.files :=
    fun row hrow => (mem_filesOf.1 hrow).1
  obtain ⟨session, hsession, rfl⟩ := List.mem_map.1 hs
  have hexpected := (hdb.sessions session hsession).expected
  refine sumInt64_some (fun v hv => ?_) ?_
  · obtain ⟨file, hfile, rfl⟩ := List.mem_map.1 hv
    obtain ⟨row, hrow, rfl⟩ := List.mem_map.1 hfile
    exact (received_le (hg.sound row (hof row hrow))).1
  · rw [List.map_map, List.map_map]
    refine lt_of_le_of_lt ?_ session.expectedTotalBytes.toInt_lt
    rw [hexpected]
    refine List.sum_le_sum fun row hrow => ?_
    have hle := (received_le (hg.sound row (hof row hrow))).2
    rw [hg.expected row (hof row hrow)] at hle
    exact hle

/-- `CommitUpload` of a file being received, with its size, goes
through. -/
theorem commitUpload_some (hdb : db.Sound quota) {row : UploadFileRow}
    (hrow : row ∈ db.files) (hstate : row.state = .receiving)
    (digest : Digest) :
    ∃ db', UploadDb.commitUpload row.sessionId row.fileId
      row.expectedSize.toUInt64 digest db = some ((), db') := by
  have hone : (db.receive row.sessionId row.fileId
      row.expectedSize.toUInt64.toInt64 digest).1 = 1 := by
    refine hdb.countP_eq_one hrow ?_ fun row' h => ?_
    · rw [Bool.and_eq_true, Bool.and_eq_true, UploadFileRow.isAt_iff,
        beq_iff_eq, beq_iff_eq]
      exact ⟨⟨rfl, hstate⟩, rfl⟩
    · rw [Bool.and_eq_true, Bool.and_eq_true, UploadFileRow.isAt_iff] at h
      exact h.1.1
  have hg := Rewrites.receive hdb row.sessionId row.fileId
    row.expectedSize.toUInt64.toInt64 digest
  obtain ⟨total, htotal⟩ := hg.progress_some hdb (hdb.home row hrow)
  rw [← hg.filesOf db.sessions row.sessionId] at htotal
  have hprogress : ∃ updated, (db.receive row.sessionId row.fileId
      row.expectedSize.toUInt64.toInt64 digest).2.updateProgress row.sessionId
        = .ok updated := by
    unfold updateProgress
    rw [show sumInt64 ((filesOf (db.receive row.sessionId row.fileId
      row.expectedSize.toUInt64.toInt64 digest).2 row.sessionId).map _)
        = some total from htotal]
    exact ⟨_, rfl⟩
  obtain ⟨updated, hupdated⟩ := hprogress
  refine ⟨updated.2, ?_⟩
  simp only [UploadDb.commitUpload, hupdated]
  rw [if_pos hone]

/-- An operation that is about no file there is. -/
theorem Operation.aside_steps {op : Operation} (hop : op.Aside quota)
    {v : op.Answer} (h : op.effect db = some (v, db')) :
    Steps (fun _ => False) db db' := by
  cases op with
  | createSession quota' drawn files =>
      obtain ⟨⟨total, names, reserved, -, -, -, hsessions, happended⟩, hfresh, -⟩ :=
        createSession_created h
      refine ⟨fun row hrow => ⟨row, ?_, .refl row, fun _ => rfl⟩,
        fun row hrow => ?_, fun s hs => ?_⟩
      · rw [happended.files]
        exact List.mem_append_left _ hrow
      · rw [happended.files] at hrow
        rcases List.mem_append.1 hrow with hrow | hrow
        · exact .inl ⟨row, hrow, .refl row, fun _ => rfl⟩
        · obtain ⟨file, -, i, safe, -, rfl⟩ := mem_requestRows hrow
          exact .inr ⟨hfresh, rfl⟩
      · rw [hsessions, List.map_append]
        exact List.mem_append_left _ hs
  | completeSession s =>
      have hcompleted : UploadDb.completeSession s db = some ((), db') := h
      unfold UploadDb.completeSession at hcompleted
      split at hcompleted
      · cases hcompleted
      · cases hcompleted
        refine ⟨fun row hrow => ⟨row, hrow, .refl row, fun _ => rfl⟩,
          fun row hrow => .inl ⟨row, hrow, .refl row, fun _ => rfl⟩,
          fun id hid => ?_⟩
        obtain ⟨session, hsession, rfl⟩ := List.mem_map.1 hid
        refine List.mem_map.2 ⟨_, List.mem_map_of_mem hsession, ?_⟩
        split <;> rfl
  | beginUpload s f => exact hop.elim
  | markUploadFailed s f => exact hop.elim
  | commitUpload s f size digest => exact hop.elim

/-- Only a `BeginUpload` that answers `Started` makes a file RECEIVING. -/
theorem Operation.effect_receiving (hdb : db.Sound quota) {op : Operation}
    {v : op.Answer} (h : op.effect db = some (v, db')) {s f : Bytes}
    (hreceiving : db'.receiving s f = true) :
    db.receiving s f = true
      ∨ answersStarted (.inl (.change op)) (.ok v) = true := by
  cases op with
  | createSession quota' drawn files =>
      have hsteps := Operation.aside_steps
        (show (Operation.createSession quota' drawn files).Aside quota' from rfl) h
      rw [hsteps.receiving id] at hreceiving
      exact .inl hreceiving
  | completeSession s' =>
      have hsteps := Operation.aside_steps
        (show (Operation.completeSession s').Aside quota from trivial) h
      rw [hsteps.receiving id] at hreceiving
      exact .inl hreceiving
  | beginUpload s' f' =>
      by_cases hv : v = .started
      · subst hv
        exact .inr rfl
      · rw [beginUpload_other h hv] at hreceiving
        exact .inl hreceiving
  | markUploadFailed s' f' =>
      have hdb' : db' = (db.markFailed s' f').2 :=
        (congrArg Prod.snd (Option.some.inj h)).symm
      subst hdb'
      by_cases hkey : (s, f) = (s', f')
      · obtain ⟨row, hrow, hrowKey, hstate⟩ := receiving_iff.1 hreceiving
        exact absurd hstate (markFailed_state hrow (hrowKey.trans hkey)).1
      · rw [(markFailed_steps s' f').receiving hkey] at hreceiving
        exact .inl hreceiving
  | commitUpload s' f' size digest =>
      have hcommitted := commitUpload_committed hdb h
      by_cases hkey : (s, f) = (s', f')
      · obtain ⟨row, hrow, hrowKey, hstate⟩ := receiving_iff.1 hreceiving
        rw [(hcommitted.is row hrow (hrowKey.trans hkey)).1] at hstate
        cases hstate
      · rw [hcommitted.steps.receiving hkey] at hreceiving
        exact .inl hreceiving

end UploadDb

end PhotoBridge.Upload
