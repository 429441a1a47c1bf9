/-
Every effect of Db/Proofs/Effects.lean keeps keys and ownership.

A task's soundness depends on the store only through its attempts, its
RUNNING events and its plan's current epoch. So each effect is first
described by what it does to those three (the frame lemmas), and a task
the effect is not about keeps its soundness by `OwnedSoundly.frame`; the
one task it is about is looked at by hand.
-/
import Mathlib.Data.List.Nodup
import PhotoBridge.Db.Ownership
import PhotoBridge.Db.Proofs.Effects

namespace PhotoBridge

variable {db db' : Db} {task : TaskRow}
variable {planId taskId attemptId : Bytes} {epoch : Nat}

-- ===================================================== keys, pointwise

/-- Two rows of one key are one row. -/
theorem Db.Keyed.task_unique (h : db.Keyed) {t t' : TaskRow}
    (ht : t ∈ db.tasks) (ht' : t' ∈ db.tasks)
    (hp : t.planId = t'.planId) (hk : t.taskId = t'.taskId) : t = t' :=
  List.inj_on_of_nodup_map h.tasks ht ht' (by simp [hp, hk])

/-- An attempt has one row. -/
theorem Db.Keyed.attempt_unique (h : db.Keyed) {a a' : AttemptRow}
    (ha : a ∈ db.attempts) (ha' : a' ∈ db.attempts)
    (hid : a.attemptId = a'.attemptId) : a = a' :=
  List.inj_on_of_nodup_map h.attempts ha ha' hid

/-- Among rows with distinct keys, one is counted if only rows of its key
can be. -/
theorem countP_eq_one {α κ : Type} {rows : List α} {key : α → κ}
    {p : α → Bool} {row : α} (hkeys : (rows.map key).Nodup) (hrow : row ∈ rows)
    (hp : p row = true)
    (honly : ∀ other ∈ rows, p other = true → key other = key row) :
    rows.countP p = 1 := by
  classical
  have hcount : rows.countP p = rows.count row := by
    unfold List.count
    refine List.countP_congr fun other hother => ?_
    rw [beq_iff_eq]
    constructor
    · intro hother'
      exact List.inj_on_of_nodup_map hkeys hother hrow
        (honly other hother hother')
    · rintro rfl
      exact hp
  rw [hcount]
  exact List.count_eq_one_of_mem hkeys.of_map hrow

@[simp] theorem TaskRow.isAt_iff :
    task.isAt planId taskId = true
      ↔ task.planId = planId ∧ task.taskId = taskId := by
  simp [TaskRow.isAt]

@[simp] theorem TaskRow.isOwnedBy_iff :
    task.isOwnedBy planId taskId epoch attemptId = true
      ↔ (task.planId = planId ∧ task.taskId = taskId)
        ∧ task.ownerEpoch = some epoch
        ∧ task.activeAttemptId = some attemptId ∧ task.state = .running := by
  simp [TaskRow.isOwnedBy, and_assoc]

@[simp] theorem AttemptRow.isAt_iff {row : AttemptRow} :
    row.isAt planId taskId attemptId epoch = true
      ↔ row.planId = planId ∧ row.taskId = taskId
        ∧ row.attemptId = attemptId ∧ row.ownerEpoch = epoch := by
  simp [AttemptRow.isAt, and_assoc]

/-- The attempts of a task. -/
theorem Db.mem_attemptsOf {row : AttemptRow} :
    row ∈ db.attemptsOf planId taskId
      ↔ row ∈ db.attempts ∧ row.planId = planId ∧ row.taskId = taskId := by
  simp [Db.attemptsOf]

/-- Its open attempts. -/
theorem Db.mem_openAttempts {row : AttemptRow} :
    row ∈ db.openAttempts planId taskId
      ↔ row ∈ db.attemptsOf planId taskId ∧ row.finished = false := by
  simp [Db.openAttempts]

/-- A task with no row has no attempts. -/
theorem Db.Keyed.attemptsOf_nil (h : db.Keyed)
    (hno : db.hasTask planId taskId = false) :
    db.attemptsOf planId taskId = [] := by
  rw [List.eq_nil_iff_forall_not_mem]
  intro row hrow
  obtain ⟨hmem, rfl, rfl⟩ := Db.mem_attemptsOf.1 hrow
  rw [h.attempt_task row hmem] at hno
  cases hno

/-- A task with no row has no events. -/
theorem Db.Keyed.runningEvents_nil (h : db.Keyed)
    (hno : db.hasTask planId taskId = false) :
    db.runningEvents planId taskId = [] := by
  rw [List.eq_nil_iff_forall_not_mem]
  intro event hevent
  simp only [Db.runningEvents, List.mem_filter, Bool.and_eq_true,
    beq_iff_eq] at hevent
  obtain ⟨hmem, ⟨rfl, rfl⟩, -⟩ := hevent
  rw [h.event_task event hmem] at hno
  cases hno

-- ============================================================== frames

/-- The current epoch of a plan has not gone back. -/
def Db.EpochGrew (db db' : Db) (planId : Bytes) : Prop :=
  ∀ current, db.currentEpoch? planId = some current →
    ∃ current', db'.currentEpoch? planId = some current'
      ∧ current ≤ current'

/-- An epoch that stays has grown. -/
theorem Db.EpochGrew.of_eq
    (h : db'.currentEpoch? planId = db.currentEpoch? planId) :
    db.EpochGrew db' planId :=
  fun current hc => ⟨current, h.trans hc, Nat.le_refl current⟩

/-- An epoch that was granted stays granted. -/
theorem Db.EpochGranted.grow (h : db.EpochGranted planId epoch)
    (hg : db.EpochGrew db' planId) : db'.EpochGranted planId epoch := by
  obtain ⟨hpos, current, hc, hle⟩ := h
  obtain ⟨current', hc', hle'⟩ := hg current hc
  exact ⟨hpos, current', hc', Nat.le_trans hle hle'⟩

/-- A rewriting of attempt rows that keeps what ownership looks at. -/
structure KeepsAttempt (g : AttemptRow → AttemptRow) (row : AttemptRow) :
    Prop where
  attemptId : (g row).attemptId = row.attemptId
  ownerEpoch : (g row).ownerEpoch = row.ownerEpoch
  finished : (g row).finished = row.finished

/-- Rewriting attempts without finishing them leaves the same ones open. -/
theorem openAttempts_map {g : AttemptRow → AttemptRow}
    (ha : db'.attemptsOf planId taskId
      = (db.attemptsOf planId taskId).map g)
    (hg : ∀ row ∈ db.attemptsOf planId taskId, KeepsAttempt g row) :
    db'.openAttempts planId taskId
      = (db.openAttempts planId taskId).map g := by
  unfold Db.openAttempts
  rw [ha, List.filter_map]
  congr 1
  apply List.filter_congr
  intro row hrow
  simp only [Function.comp_apply, (hg row hrow).finished]

/-- A task the step is not about stays sound. -/
theorem TaskRow.OwnedSoundly.frame (h : task.OwnedSoundly db)
    {g : AttemptRow → AttemptRow}
    (ha : db'.attemptsOf task.planId task.taskId
      = (db.attemptsOf task.planId task.taskId).map g)
    (hg : ∀ row ∈ db.attemptsOf task.planId task.taskId, KeepsAttempt g row)
    (he : (db'.runningEvents task.planId task.taskId).length
      = (db.runningEvents task.planId task.taskId).length)
    (hc : db.EpochGrew db' task.planId) : task.OwnedSoundly db' where
  owner_iff := h.owner_iff
  attempt_iff := h.attempt_iff
  running := by
    intro epoch attemptId hepoch hattempt
    obtain ⟨⟨row, hrow, hid, hown⟩, hgrant⟩ := h.running _ _ hepoch hattempt
    have hmem : row ∈ db.openAttempts task.planId task.taskId := by
      rw [hrow]
      exact List.mem_singleton_self row
    have hkeep := hg row (Db.mem_openAttempts.1 hmem).1
    refine ⟨⟨g row, ?_, hkeep.attemptId.trans hid,
      hkeep.ownerEpoch.trans hown⟩, hgrant.grow hc⟩
    rw [openAttempts_map ha hg, hrow]
    rfl
  idle := by
    intro hs
    rw [openAttempts_map ha hg, h.idle hs]
    rfl
  attempts_counted := by
    rw [ha, List.length_map]
    exact h.attempts_counted
  events_counted := by
    rw [he]
    exact h.events_counted

/-- The special case of `frame` for stores with the same attempts. -/
theorem TaskRow.OwnedSoundly.frame_id (h : task.OwnedSoundly db)
    (ha : db'.attemptsOf task.planId task.taskId
      = db.attemptsOf task.planId task.taskId)
    (he : (db'.runningEvents task.planId task.taskId).length
      = (db.runningEvents task.planId task.taskId).length)
    (hc : db.EpochGrew db' task.planId) : task.OwnedSoundly db' :=
  h.frame (g := id) (by rw [ha, List.map_id])
    (fun _ _ => ⟨rfl, rfl, rfl⟩) he hc

-- ============================================== what the edits touch

@[simp] theorem Db.currentEpoch?_append (db : Db) (event : EventRow) :
    (db.append event).currentEpoch? = db.currentEpoch? := rfl

@[simp] theorem Db.attemptsOf_append (db : Db) (event : EventRow) :
    (db.append event).attemptsOf = db.attemptsOf := rfl

@[simp] theorem Db.currentEpoch?_updateTasks (db : Db)
    (p : TaskRow → Bool) (f : TaskRow → TaskRow) :
    (db.updateTasks p f).2.currentEpoch? = db.currentEpoch? := rfl

@[simp] theorem Db.currentEpoch?_setAttempt (db : Db)
    (state : FileAttemptState) (result : Option TaskState)
    (error : Option Status) (finish : Bool) :
    (db.setAttempt planId taskId attemptId epoch state result error
      finish).currentEpoch? = db.currentEpoch? := rfl

/-- An event of another type is not counted. -/
theorem Db.runningEvents_append {event : EventRow}
    (h : event.eventType ≠ .running) (db : Db) (p t : Bytes) :
    (db.append event).runningEvents p t = db.runningEvents p t := by
  simp [Db.runningEvents, Db.append, List.filter_append, h]

/-- The rewriting of attempt rows in `Db.setAttempt`. -/
def rewriteAttempt (planId taskId attemptId : Bytes) (epoch : Nat)
    (state : FileAttemptState) (result : Option TaskState)
    (error : Option Status) (finish : Bool) (row : AttemptRow) :
    AttemptRow :=
  if row.isAt planId taskId attemptId epoch then
    { row with
      fileState := state, finished := finish, result := result,
      error := error }
  else row

section SetAttempt

variable (state : FileAttemptState) (result : Option TaskState)
  (error : Option Status) (finish : Bool)

variable (planId taskId attemptId epoch) in
/-- A rewritten attempt keeps its key. -/
theorem rewriteAttempt_key (row : AttemptRow) :
    let row' := rewriteAttempt planId taskId attemptId epoch state result
      error finish row
    row'.planId = row.planId ∧ row'.taskId = row.taskId
      ∧ row'.attemptId = row.attemptId ∧ row'.ownerEpoch = row.ownerEpoch := by
  unfold rewriteAttempt
  split <;> exact ⟨rfl, rfl, rfl, rfl⟩

/-- The attempts, one of them rewritten. -/
theorem Db.attempts_setAttempt (db : Db) :
    (db.setAttempt planId taskId attemptId epoch state result error
      finish).attempts
      = db.attempts.map (rewriteAttempt planId taskId attemptId epoch state
          result error finish) := rfl

/-- The attempts of a task, one of them rewritten. -/
theorem Db.attemptsOf_setAttempt (db : Db) (p t : Bytes) :
    (db.setAttempt planId taskId attemptId epoch state result error
      finish).attemptsOf p t
      = (db.attemptsOf p t).map (rewriteAttempt planId taskId attemptId
          epoch state result error finish) := by
  unfold Db.attemptsOf
  rw [Db.attempts_setAttempt, List.filter_map]
  congr 1
  apply List.filter_congr
  intro row _
  obtain ⟨hp, ht, -, -⟩ := rewriteAttempt_key planId taskId attemptId
    epoch state result error finish row
  simp only [Function.comp_apply, hp, ht]

variable (attemptId epoch) in
/-- Away from its task the rewriting does nothing. -/
theorem rewriteAttempt_other {p t : Bytes} {row : AttemptRow}
    (hrow : row ∈ db.attemptsOf p t) (hne : ¬(p = planId ∧ t = taskId)) :
    rewriteAttempt planId taskId attemptId epoch state result error finish
      row = row := by
  obtain ⟨-, rfl, rfl⟩ := Db.mem_attemptsOf.1 hrow
  unfold rewriteAttempt
  rw [if_neg]
  simp only [AttemptRow.isAt_iff]
  rintro ⟨hp, ht, -⟩
  exact hne ⟨hp, ht⟩

end SetAttempt

/-- Receipts stay backed when attempt rows are rewritten. -/
theorem backed_setAttempt (state : FileAttemptState)
    (result : Option TaskState) (error : Option Status) (finish : Bool)
    {receipts : List ReceiptRow}
    (h : ∀ receipt ∈ receipts, ∃ attempt ∈ db.attempts,
      attempt.attemptId = receipt.attemptId
        ∧ attempt.planId = receipt.planId ∧ attempt.taskId = receipt.taskId
        ∧ attempt.ownerEpoch = receipt.ownerEpoch) :
    ∀ receipt ∈ receipts, ∃ attempt ∈ (db.setAttempt planId taskId attemptId
        epoch state result error finish).attempts,
      attempt.attemptId = receipt.attemptId
        ∧ attempt.planId = receipt.planId ∧ attempt.taskId = receipt.taskId
        ∧ attempt.ownerEpoch = receipt.ownerEpoch := by
  intro receipt hreceipt
  obtain ⟨attempt, hmem, h₁, h₂, h₃, h₄⟩ := h receipt hreceipt
  obtain ⟨k₁, k₂, k₃, k₄⟩ := rewriteAttempt_key planId taskId attemptId
    epoch state result error finish attempt
  exact ⟨_, List.mem_map_of_mem hmem, k₃.trans h₁, k₁.trans h₂,
    k₂.trans h₃, k₄.trans h₄⟩

-- ============================================================ the keys

/-- Rewriting task rows under their keys keeps the keys. -/
theorem Db.Keyed.updateTasks (h : db.Keyed) {p : TaskRow → Bool}
    {f : TaskRow → TaskRow}
    (hf : ∀ row, (f row).planId = row.planId ∧ (f row).taskId = row.taskId) :
    (db.updateTasks p f).2.Keyed := by
  have hkey : ∀ row : TaskRow,
      (if p row then f row else row).planId = row.planId
        ∧ (if p row then f row else row).taskId = row.taskId := by
    intro row
    split
    · exact hf row
    · exact ⟨rfl, rfl⟩
  have htask : ∀ planId taskId,
      (db.updateTasks p f).2.hasTask planId taskId
        = db.hasTask planId taskId := by
    intro planId taskId
    refine Db.hasTask_updateTasks (fun row => ?_) db
    simp only [TaskRow.isAt, (hf row).1, (hf row).2]
  refine ⟨?_, h.attempts, fun a ha => ?_, fun e he => ?_⟩
  · unfold Db.updateTasks
    rw [List.map_map]
    simpa [Function.comp_def, hkey] using h.tasks
  · rw [htask]
    exact h.attempt_task a ha
  · rw [htask]
    exact h.event_task e he

/-- Rewriting an attempt keeps the keys. -/
theorem Db.Keyed.setAttempt (h : db.Keyed) (state : FileAttemptState)
    (result : Option TaskState) (error : Option Status) (finish : Bool) :
    (db.setAttempt planId taskId attemptId epoch state result error
      finish).Keyed := by
  have hkey := fun row => rewriteAttempt_key planId taskId attemptId
    epoch state result error finish row
  refine ⟨h.tasks, ?_, ?_, h.event_task⟩
  · rw [Db.attempts_setAttempt, List.map_map]
    simpa [Function.comp_def, hkey] using h.attempts
  · rw [Db.attempts_setAttempt]
    intro a ha
    obtain ⟨row, hrow, rfl⟩ := List.mem_map.1 ha
    rw [(hkey row).1, (hkey row).2.1]
    exact h.attempt_task row hrow

/-- An event of a task that is there keeps the keys. -/
theorem Db.Keyed.append (h : db.Keyed) {event : EventRow}
    (htask : db.hasTask event.planId event.taskId = true) :
    (db.append event).Keyed := by
  refine ⟨h.tasks, h.attempts, h.attempt_task, fun e he => ?_⟩
  obtain he | he := List.mem_append.1 he
  · exact h.event_task e he
  · rw [List.mem_singleton.1 he]
    exact htask

-- ================================================= advancing an attempt

/-- An owned task's row, the attempt it names and the rows of that key. -/
theorem Db.Sound.holds (h : db.Sound)
    (hh : db.Holds planId taskId attemptId epoch) :
    db.OpenAttemptIs planId taskId attemptId epoch
      ∧ db.EpochGranted planId epoch := by
  obtain ⟨row, hrow, -, hepoch, hattempt⟩ := hh
  have hat := TaskRow.isAt_iff.1
    (List.find?_some (p := TaskRow.isAt planId taskId) hrow)
  obtain ⟨rfl, rfl⟩ := hat
  exact (h.owned.tasks row (List.mem_of_find?_eq_some hrow)).running _ _
    hepoch hattempt

/-- The open attempt of an owned task is the one row with its key. -/
theorem Db.Sound.attempt_open (h : db.Sound)
    (ho : db.OpenAttemptIs planId taskId attemptId epoch)
    {row : AttemptRow} (hrow : row ∈ db.attempts)
    (hid : row.attemptId = attemptId) : row.finished = false := by
  obtain ⟨open_, heq, hopen, -⟩ := ho
  have hmem : open_ ∈ db.openAttempts planId taskId := by
    rw [heq]
    exact List.mem_singleton_self open_
  obtain ⟨hof, hfin⟩ := Db.mem_openAttempts.1 hmem
  rw [h.keyed.attempt_unique hrow (Db.mem_attemptsOf.1 hof).1
    (hid.trans hopen.symm)]
  exact hfin

/-- Advancing an owned attempt keeps the store sound. -/
theorem Db.Sound.advance (h : db.Sound)
    (hh : db.Holds planId taskId attemptId epoch)
    (state : FileAttemptState) {event : EventRow}
    (hp : event.planId = planId) (ht : event.taskId = taskId)
    (htype : event.eventType ≠ .running) :
    (db.advance planId taskId attemptId epoch state event).Sound := by
  obtain ⟨ho, -⟩ := h.holds hh
  refine ⟨(h.keyed.setAttempt state none none false).append ?_, ?_, ?_⟩
  · rw [hp, ht]
    exact hh.hasTask
  · intro task htask
    refine (h.owned.tasks task htask).frame
      (g := rewriteAttempt planId taskId attemptId epoch state none none
        false) ?_ ?_ ?_ (.of_eq rfl)
    · exact Db.attemptsOf_setAttempt state none none false db _ _
    · intro row hrow
      obtain ⟨-, -, hid, hepoch⟩ := rewriteAttempt_key planId taskId attemptId
        epoch state
        none none false row
      refine ⟨hid, hepoch, ?_⟩
      unfold rewriteAttempt
      split
      · next hat =>
        exact (h.attempt_open ho (Db.mem_attemptsOf.1 hrow).1
          (AttemptRow.isAt_iff.1 hat).2.2.1).symm
      · rfl
    · unfold Db.advance
      rw [Db.runningEvents_append htype]
      rfl
  · exact backed_setAttempt state none none false h.owned.receipts

/-- Storing a receipt of an owned attempt keeps the store sound. -/
theorem Db.Sound.addReceipt (h : db.Sound) {row : ReceiptRow}
    (hh : db.Holds row.planId row.taskId row.attemptId row.ownerEpoch) :
    (db.addReceipt row).Sound := by
  refine ⟨⟨h.keyed.tasks, h.keyed.attempts, h.keyed.attempt_task,
    h.keyed.event_task⟩, fun task htask => ?_, fun receipt hreceipt => ?_⟩
  · exact (h.owned.tasks task htask).frame_id rfl rfl (.of_eq rfl)
  · obtain hold | hnew := List.mem_append.1 hreceipt
    · exact h.owned.receipts receipt hold
    · rw [List.mem_singleton.1 hnew]
      obtain ⟨⟨attempt, heq, hid, hepoch⟩, -⟩ := h.holds hh
      have hmem : attempt ∈ db.openAttempts row.planId row.taskId := by
        rw [heq]
        exact List.mem_singleton_self attempt
      obtain ⟨hall, hp, ht⟩ :=
        Db.mem_attemptsOf.1 (Db.mem_openAttempts.1 hmem).1
      exact ⟨attempt, hall, hid, hp, ht, hepoch⟩

-- ===================================================== settling a task

/-- Among rows with unique keys, a row of the key of an owned row is
that row. -/
theorem Db.Sound.owned_of_key (h : db.Sound)
    (hown : db.Owned planId taskId attemptId epoch)
    (htask : task ∈ db.tasks) (hp : task.planId = planId)
    (ht : task.taskId = taskId) :
    task.isOwnedBy planId taskId epoch attemptId = true := by
  have hpos : 0 < db.tasks.countP
      (TaskRow.isOwnedBy planId taskId epoch attemptId) := by
    rw [hown]
    exact Nat.one_pos
  obtain ⟨row, hrow, hby⟩ := List.countP_pos_iff.1 hpos
  obtain ⟨⟨hrp, hrt⟩, -⟩ := TaskRow.isOwnedBy_iff.1 hby
  rw [h.keyed.task_unique htask hrow (hp.trans hrp.symm)
    (ht.trans hrt.symm)]
  exact hby

/-- An owned row is found. -/
theorem Db.Owned.hasTask (h : db.Owned planId taskId attemptId epoch) :
    db.hasTask planId taskId = true := by
  have hpos : 0 < db.tasks.countP
      (TaskRow.isOwnedBy planId taskId epoch attemptId) := by
    rw [h]
    exact Nat.one_pos
  obtain ⟨row, hrow, hby⟩ := List.countP_pos_iff.1 hpos
  exact List.any_eq_true.2
    ⟨row, hrow, TaskRow.isAt_iff.2 (TaskRow.isOwnedBy_iff.1 hby).1⟩

/-- Closing the one open attempt leaves none open. -/
theorem openAttempts_close
    (ho : db.OpenAttemptIs planId taskId attemptId epoch)
    (state : FileAttemptState) (result : Option TaskState)
    (error : Option Status) :
    (db.setAttempt planId taskId attemptId epoch state result error
      true).openAttempts planId taskId = [] := by
  obtain ⟨row, heq, hid, hepoch⟩ := ho
  rw [List.eq_nil_iff_forall_not_mem]
  intro row' hrow'
  obtain ⟨hof, hfin⟩ := Db.mem_openAttempts.1 hrow'
  rw [Db.attemptsOf_setAttempt] at hof
  obtain ⟨old, hold, rfl⟩ := List.mem_map.1 hof
  unfold rewriteAttempt at hfin
  split at hfin
  · cases hfin
  · next hnot =>
    -- an attempt left open was open before, so it is the one just closed
    have hopen : old ∈ db.openAttempts planId taskId :=
      Db.mem_openAttempts.2 ⟨hold, hfin⟩
    rw [heq] at hopen
    obtain rfl := List.mem_singleton.1 hopen
    obtain ⟨-, hp, ht⟩ := Db.mem_attemptsOf.1 hold
    exact hnot (AttemptRow.isAt_iff.2 ⟨hp, ht, hid, hepoch⟩)

/-- A released row agrees with a store in which its attempts are closed. -/
theorem TaskRow.OwnedSoundly.release (h : task.OwnedSoundly db)
    {next : TaskState} (hnext : next ≠ .running) (error : Option Status)
    (hidle : db'.openAttempts task.planId task.taskId = [])
    (ha : (db'.attemptsOf task.planId task.taskId).length
      = (db.attemptsOf task.planId task.taskId).length)
    (he : (db'.runningEvents task.planId task.taskId).length
      = (db.runningEvents task.planId task.taskId).length) :
    (task.release next error).OwnedSoundly db' where
  owner_iff := by simp [TaskRow.release, hnext]
  attempt_iff := by simp [TaskRow.release, hnext]
  running := by
    intro epoch attemptId hepoch
    cases hepoch
  idle := fun _ => hidle
  attempts_counted := h.attempts_counted.trans ha.symm
  events_counted := h.events_counted.trans he.symm

/-- Settling an owned task keeps the store sound. -/
theorem Db.Sound.settle (h : db.Sound)
    (hown : db.Owned planId taskId attemptId epoch) {next : TaskState}
    (hnext : next ≠ .running) (attempt : FileAttemptState)
    (error : Option Status) {event : EventRow}
    (hp : event.planId = planId) (ht : event.taskId = taskId)
    (htype : event.eventType ≠ .running) :
    (db.settle planId taskId attemptId epoch next attempt error
      event).Sound := by
  have hevents : ∀ p t, ((db.settle planId taskId attemptId epoch next
      attempt error event).runningEvents p t).length
        = (db.runningEvents p t).length := by
    intro p t
    unfold Db.settle
    rw [Db.runningEvents_append htype]
    rfl
  have hattempts : ∀ p t, (db.settle planId taskId attemptId epoch next
      attempt error event).attemptsOf p t
        = (db.attemptsOf p t).map (rewriteAttempt planId taskId attemptId
            epoch attempt (some next) error true) := fun p t =>
    Db.attemptsOf_setAttempt attempt (some next) error true
      (db.updateTasks (TaskRow.isOwnedBy planId taskId epoch attemptId)
        (TaskRow.release next error)).2 p t
  refine ⟨?_, ?_, ?_⟩
  · refine ((h.keyed.updateTasks (f := TaskRow.release next error)
      fun _ => ⟨rfl, rfl⟩).setAttempt attempt (some next) error
        true).append ?_
    rw [hp, ht]
    exact (Db.hasTask_updateTasks (f := TaskRow.release next error)
      (fun _ => rfl) db).trans hown.hasTask
  · intro task htask
    obtain ⟨old, hold, rfl⟩ := List.mem_map.1 htask
    have hsound := h.owned.tasks old hold
    split
    · next hby =>
      -- the task itself: its one open attempt is the one closed
      obtain ⟨⟨rfl, rfl⟩, hepoch, hattempt, -⟩ := TaskRow.isOwnedBy_iff.1 hby
      obtain ⟨ho, -⟩ := hsound.running _ _ hepoch hattempt
      refine hsound.release hnext error ?_ ?_ (hevents _ _)
      · exact openAttempts_close ho attempt (some next) error
      · rw [hattempts, List.length_map]
    · next hnot =>
      refine hsound.frame (hattempts _ _) ?_ (hevents _ _) (.of_eq rfl)
      intro row hrow
      have hne : ¬(old.planId = planId ∧ old.taskId = taskId) := by
        rintro ⟨hp', ht'⟩
        exact hnot (h.owned_of_key hown hold hp' ht')
      have hsame := rewriteAttempt_other attemptId epoch attempt (some next) error true hrow hne
      exact ⟨by rw [hsame], by rw [hsame], by rw [hsame]⟩
  · exact backed_setAttempt attempt (some next) error true h.owned.receipts

-- ============================================= releasing and claiming

/-- `SetReady` releases rows that no attempt runs for. -/
theorem Db.Sound.setReady (h : db.Sound) :
    (db.updateTasks (db.isReadyable planId taskId)
      (TaskRow.release .ready none)).2.Sound := by
  refine ⟨h.keyed.updateTasks fun _ => ⟨rfl, rfl⟩, fun task htask => ?_,
    h.owned.receipts⟩
  obtain ⟨old, hold, rfl⟩ := List.mem_map.1 htask
  have hsound := h.owned.tasks old hold
  split
  · next hready =>
    have hstate : old.state ≠ .running := by
      simp only [Db.isReadyable, Bool.and_eq_true, Bool.or_eq_true,
        beq_iff_eq] at hready
      intro hrun
      rw [hrun] at hready
      simp at hready
    exact hsound.release (by simp) none (hsound.idle hstate) rfl rfl
  · exact hsound.frame_id rfl rfl (.of_eq rfl)

/-- A claim adds an attempt to its task, and to no other. -/
theorem Db.attemptsOf_claim (db : Db) (p t : Bytes) :
    (db.claim planId taskId attemptId epoch).attemptsOf p t
      = db.attemptsOf p t
        ++ if planId = p ∧ taskId = t
          then [newAttemptRow planId taskId attemptId epoch] else [] := by
  simp only [Db.attemptsOf, Db.claim, List.filter_append]
  congr 1
  by_cases hkey : planId = p ∧ taskId = t
  · rw [if_pos hkey]
    simp [newAttemptRow, hkey.1, hkey.2]
  · rw [if_neg hkey]
    simpa [newAttemptRow] using hkey

/-- A claim adds an event to its task, and to no other. -/
theorem Db.runningEvents_claim (db : Db) (p t : Bytes) :
    (db.claim planId taskId attemptId epoch).runningEvents p t
      = db.runningEvents p t
        ++ if planId = p ∧ taskId = t
          then [claimEvent planId taskId attemptId epoch] else [] := by
  simp only [Db.runningEvents, Db.claim, List.filter_append]
  congr 1
  by_cases hkey : planId = p ∧ taskId = t
  · rw [if_pos hkey]
    simp [claimEvent, hkey.1, hkey.2]
  · rw [if_neg hkey]
    simpa [claimEvent] using hkey

/-- A claimed row agrees with the store it is claimed in. -/
theorem TaskRow.OwnedSoundly.claim (h : task.OwnedSoundly db)
    (hstate : task.state ≠ .running)
    (hgrant : db.EpochGranted task.planId epoch) :
    (task.claim epoch attemptId).OwnedSoundly
      (db.claim task.planId task.taskId attemptId epoch) where
  owner_iff := by simp [TaskRow.claim]
  attempt_iff := by simp [TaskRow.claim]
  running := by
    intro e a he ha
    cases he
    cases ha
    refine ⟨⟨newAttemptRow task.planId task.taskId attemptId epoch, ?_, rfl,
      rfl⟩, hgrant⟩
    have hidle := h.idle hstate
    unfold Db.openAttempts at hidle
    show (Db.attemptsOf _ task.planId task.taskId).filter _ = _
    rw [Db.attemptsOf_claim, if_pos ⟨rfl, rfl⟩, List.filter_append, hidle]
    rfl
  idle := fun hs => absurd rfl hs
  attempts_counted := by
    show task.attemptCount + 1
      = (Db.attemptsOf _ task.planId task.taskId).length
    rw [Db.attemptsOf_claim, if_pos ⟨rfl, rfl⟩, List.length_append,
      ← h.attempts_counted]
    rfl
  events_counted := by
    show task.attemptCount + 1
      = (Db.runningEvents _ task.planId task.taskId).length
    rw [Db.runningEvents_claim, if_pos ⟨rfl, rfl⟩, List.length_append,
      ← h.events_counted]
    rfl

@[simp] theorem TaskRow.isClaimable_iff :
    task.isClaimable planId taskId = true
      ↔ (task.planId = planId ∧ task.taskId = taskId)
        ∧ task.state = .ready ∧ task.activeAttemptId = none := by
  simp [TaskRow.isClaimable, and_assoc]

/-- Claiming a READY task under a fresh attempt id keeps the store
sound. -/
theorem Db.Sound.claim (h : db.Sound)
    (hgrant : db.EpochGranted planId epoch)
    (hcount : db.tasks.countP (TaskRow.isClaimable planId taskId) = 1)
    (hfresh : db.attempts.any (·.attemptId == attemptId) = false)
    (htask : db.hasTask planId taskId = true) :
    (db.claim planId taskId attemptId epoch).Sound := by
  have hhas : ∀ p t, (db.claim planId taskId attemptId epoch).hasTask p t
      = db.hasTask p t := fun p t =>
    Db.hasTask_updateTasks (f := TaskRow.claim epoch attemptId)
      (fun _ => rfl) db
  have hkeyed := h.keyed.updateTasks
    (p := TaskRow.isClaimable planId taskId)
    (f := TaskRow.claim epoch attemptId) fun _ => ⟨rfl, rfl⟩
  refine ⟨⟨hkeyed.tasks, ?_, ?_, ?_⟩, ?_, ?_⟩
  · show (List.map AttemptRow.attemptId (db.attempts ++ [_])).Nodup
    rw [List.map_append, List.nodup_append]
    refine ⟨h.keyed.attempts, List.nodup_singleton _, ?_⟩
    intro a ha b hb heq
    obtain ⟨row, hrow, rfl⟩ := List.mem_map.1 ha
    obtain rfl := List.mem_singleton.1 hb
    simp only [List.any_eq_false, beq_iff_eq] at hfresh
    exact hfresh row hrow heq
  · intro a ha
    rw [hhas]
    obtain ha | ha := List.mem_append.1 ha
    · exact h.keyed.attempt_task a ha
    · rw [List.mem_singleton.1 ha]
      exact htask
  · intro e he
    rw [hhas]
    obtain he | he := List.mem_append.1 he
    · exact h.keyed.event_task e he
    · rw [List.mem_singleton.1 he]
      exact htask
  · intro task htask
    obtain ⟨old, hold, rfl⟩ := List.mem_map.1 htask
    have hsound := h.owned.tasks old hold
    split
    · next hclaim =>
      obtain ⟨⟨rfl, rfl⟩, hready, -⟩ := TaskRow.isClaimable_iff.1 hclaim
      exact hsound.claim (by simp [hready]) hgrant
    · next hnot =>
      -- the key is claimed on its one row, so this row has another key
      have hne : ¬(planId = old.planId ∧ taskId = old.taskId) := by
        rintro ⟨rfl, rfl⟩
        obtain ⟨row, hrow, hclaim⟩ := List.countP_pos_iff.1
          (Nat.lt_of_lt_of_eq Nat.one_pos hcount.symm)
        obtain ⟨⟨hp, ht⟩, -⟩ := TaskRow.isClaimable_iff.1 hclaim
        rw [h.keyed.task_unique hold hrow hp.symm ht.symm] at hnot
        exact hnot (by rwa [hp, ht] at *)
      refine hsound.frame_id ?_ ?_ (.of_eq rfl)
      · rw [Db.attemptsOf_claim, if_neg hne, List.append_nil]
      · rw [Db.runningEvents_claim, if_neg hne, List.append_nil]
  · intro receipt hreceipt
    obtain ⟨attempt, hmem, hrest⟩ := h.owned.receipts receipt hreceipt
    exact ⟨attempt, List.mem_append_left _ hmem, hrest⟩

-- ============================================ new tasks and new epochs

/-- A task row just added agrees with the store: nothing refers to it. -/
theorem Db.Sound.addTaskRow (h : db.Sound) {spec : TaskSpec}
    (hfree : db.taskRefused (Db.newTaskRow planId spec) = false) :
    (db.addTaskRow (Db.newTaskRow planId spec)).Sound := by
  have hnew : db.hasTask planId spec.id = false := by
    simp only [Db.taskRefused, Db.newTaskRow, Bool.or_eq_false_iff] at hfree
    rw [Db.hasTask, List.any_eq_false]
    intro row hrow hat
    obtain ⟨hp, ht⟩ := TaskRow.isAt_iff.1 hat
    have := List.any_eq_false.1 hfree.2 row hrow
    simp [hp, ht] at this
  have hhas : ∀ {p t}, db.hasTask p t = true →
      (db.addTaskRow (Db.newTaskRow planId spec)).hasTask p t = true := by
    intro p t ht
    simp only [Db.hasTask, Db.addTaskRow, List.any_append, Bool.or_eq_true]
    exact .inl ht
  refine ⟨⟨?_, h.keyed.attempts,
    fun a ha => hhas (h.keyed.attempt_task a ha),
    fun e he => hhas (h.keyed.event_task e he)⟩, fun task htask => ?_,
    h.owned.receipts⟩
  · show (List.map _ (db.tasks ++ [_])).Nodup
    rw [List.map_append, List.nodup_append]
    refine ⟨h.keyed.tasks, List.nodup_singleton _, ?_⟩
    intro a ha b hb heq
    obtain ⟨row, hrow, rfl⟩ := List.mem_map.1 ha
    obtain rfl := List.mem_singleton.1 hb
    obtain ⟨hp, ht⟩ := Prod.mk.inj heq
    rw [Db.hasTask, List.any_eq_false] at hnew
    exact hnew row hrow (TaskRow.isAt_iff.2 ⟨hp, ht⟩)
  · obtain hold | hadded := List.mem_append.1 htask
    · exact (h.owned.tasks task hold).frame_id rfl rfl (.of_eq rfl)
    · rw [List.mem_singleton.1 hadded]
      have ha : db.attemptsOf planId spec.id = [] :=
        h.keyed.attemptsOf_nil hnew
      have he : db.runningEvents planId spec.id = [] :=
        h.keyed.runningEvents_nil hnew
      refine ⟨by simp [Db.newTaskRow], by simp [Db.newTaskRow], ?_, ?_, ?_,
        ?_⟩
      · intro epoch attemptId hepoch
        cases hepoch
      · intro _
        show (db.attemptsOf planId spec.id).filter _ = []
        rw [ha]
        rfl
      · exact (congrArg List.length ha).symm
      · exact (congrArg List.length he).symm

/-- The migration a plan belongs to. -/
def Db.migrationOf? (db : Db) (planId : Bytes) : Option Bytes :=
  (db.plans.find? (·.planId == planId)).map (·.migrationId)

/-- Setting a plan's epoch shows in every plan of the same migration and
in no other. -/
theorem Db.currentEpoch?_setCurrentEpoch (value : Nat) {current : Nat}
    (hc : db.currentEpoch? planId = some current) (q : Bytes) :
    db.migrationOf? q = db.migrationOf? planId
        ∧ db.currentEpoch? q = some current
        ∧ (db.setCurrentEpoch planId value).2.currentEpoch? q = some value
      ∨ db.migrationOf? q ≠ db.migrationOf? planId
        ∧ (db.setCurrentEpoch planId value).2.currentEpoch? q
          = db.currentEpoch? q := by
  unfold Db.currentEpoch? at hc
  unfold Db.setCurrentEpoch Db.migrationOf?
  cases hplan : db.plans.find? (·.planId == planId) with
  | none => simp [hplan] at hc
  | some plan =>
      simp only [hplan] at hc
      simp only [Db.currentEpoch?]
      cases hq : db.plans.find? (·.planId == q) with
      | none => exact .inr ⟨by simp, rfl⟩
      | some plan' =>
          simp only
          rw [List.find?_map]
          have hpred : ((fun row : MigrationRow =>
              row.migrationId == plan'.migrationId) ∘ fun row =>
                if row.migrationId == plan.migrationId
                then { row with currentEpoch := value } else row)
              = fun row => row.migrationId == plan'.migrationId := by
            funext row
            simp only [Function.comp_apply]
            split <;> rfl
          rw [hpred]
          by_cases hsame : plan'.migrationId = plan.migrationId
          · left
            rw [hsame]
            cases hrow : db.migrations.find?
                (·.migrationId == plan.migrationId) with
            | none => simp [hrow] at hc
            | some row =>
                rw [hrow] at hc
                have hid := List.find?_some
                  (p := fun row : MigrationRow =>
                    row.migrationId == plan.migrationId) hrow
                refine ⟨by simp [hsame], hc, ?_⟩
                simp only [Option.map_some, hid, if_true]
          · right
            refine ⟨by simpa using hsame, ?_⟩
            cases hrow : db.migrations.find?
                (·.migrationId == plan'.migrationId) with
            | none => rfl
            | some row =>
                have hid := List.find?_some
                  (p := fun row : MigrationRow =>
                    row.migrationId == plan'.migrationId) hrow
                rw [beq_iff_eq] at hid
                have hne : (row.migrationId == plan.migrationId) = false := by
                  rw [beq_eq_false_iff_ne, hid]
                  exact hsame
                simp only [Option.map_some, hne, Bool.false_eq_true,
                  if_false]

/-- The plan whose epoch is set has it. -/
theorem Db.currentEpoch?_setCurrentEpoch_self (value : Nat) {current : Nat}
    (hc : db.currentEpoch? planId = some current) :
    (db.setCurrentEpoch planId value).2.currentEpoch? planId = some value := by
  obtain ⟨-, -, h⟩ | ⟨hne, -⟩ :=
    Db.currentEpoch?_setCurrentEpoch value hc planId
  · exact h
  · exact absurd rfl hne

/-- After `AcquireNextExecutionEpoch` no plan's epoch has gone back. -/
theorem Db.EpochGrew.setCurrentEpoch {current : Nat}
    (hc : db.currentEpoch? planId = some current) (q : Bytes) :
    db.EpochGrew (db.setCurrentEpoch planId (current + 1)).2 q := by
  obtain ⟨-, hq, h⟩ | ⟨-, h⟩ := Db.currentEpoch?_setCurrentEpoch
    (current + 1) hc q
  · intro e he
    rw [hq] at he
    cases he
    exact ⟨_, h, Nat.le_succ _⟩
  · exact .of_eq h

/-- A new epoch touches no table but its own. -/
theorem Db.setCurrentEpoch_tables (db : Db) (planId : Bytes) (value : Nat) :
    let db' := (db.setCurrentEpoch planId value).2
    db'.tasks = db.tasks ∧ db'.attempts = db.attempts
      ∧ db'.events = db.events ∧ db'.receipts = db.receipts := by
  unfold Db.setCurrentEpoch
  cases db.plans.find? (·.planId == planId) with
  | none => exact ⟨rfl, rfl, rfl, rfl⟩
  | some plan => exact ⟨rfl, rfl, rfl, rfl⟩

/-- Stores with the same rows, whose epochs have not gone back. -/
theorem Db.Sound.of_tables (h : db.Sound) (ht : db'.tasks = db.tasks)
    (ha : db'.attempts = db.attempts) (he : db'.events = db.events)
    (hr : db'.receipts = db.receipts) (hg : ∀ q, db.EpochGrew db' q) :
    db'.Sound := by
  have hhas : ∀ p t, db'.hasTask p t = db.hasTask p t := by
    intro p t
    rw [Db.hasTask, ht, Db.hasTask]
  refine ⟨⟨?_, ?_, ?_, ?_⟩, ?_, ?_⟩
  · rw [ht]
    exact h.keyed.tasks
  · rw [ha]
    exact h.keyed.attempts
  · rw [ha]
    intro a hmem
    rw [hhas]
    exact h.keyed.attempt_task a hmem
  · rw [he]
    intro e hmem
    rw [hhas]
    exact h.keyed.event_task e hmem
  · rw [ht]
    intro task hmem
    refine (h.owned.tasks task hmem).frame_id ?_ ?_ (hg _)
    · rw [Db.attemptsOf, ha, Db.attemptsOf]
    · rw [Db.runningEvents, he, Db.runningEvents]
  · rw [hr, ha]
    exact h.owned.receipts

end PhotoBridge
