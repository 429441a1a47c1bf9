/-
The event log is faithful. `file_state` and `task_event` are written by
separate statements, so their agreement is an invariant of its own
(`Db.Journal`): an attempt's row is rewritten only together with one
event that names its new state, and a new row comes with its RUNNING
event. One lemma (`Db.Journal.rewrite`) covers every operation on a
running attempt; what differs is why the new state is a new one.
-/
import PhotoBridge.Db.Proofs.Store

namespace PhotoBridge

open Transaction

variable {db db' : Db} {planId taskId attemptId : Bytes} {epoch : Nat}

-- ========================================================= the journal

/-- What the log and the attempts promise each other. -/
structure Db.Journal (db : Db) : Prop where
  logged : db.Logged
  /-- A closed attempt has a result. -/
  closed : ∀ a ∈ db.attempts, a.finished = a.result.isSome
  /-- VERIFIED_DURABLE is reached by storing a receipt. -/
  verified : ∀ a ∈ db.attempts, a.fileState = .verifiedDurable →
    db.receipts.any
      (ReceiptRow.isAt a.planId a.taskId a.attemptId) = true
  /-- Every event is some attempt's. -/
  owned : ∀ e ∈ db.events, ∃ a ∈ db.attempts, a.attemptId = e.attemptId

theorem Db.Fresh.journal (h : db.Fresh) : db.Journal := by
  obtain ⟨-, -, ha, he, -⟩ := h
  refine ⟨?_, ?_, ?_, ?_⟩ <;> simp [Db.Logged, ha, he]

/-- Only attempts, events and receipts matter. -/
theorem Db.Journal.of_tables (h : db.Journal)
    (ha : db'.attempts = db.attempts) (he : db'.events = db.events)
    (hr : db'.receipts = db.receipts) : db'.Journal := by
  refine ⟨fun a hmem => ?_, ?_, ?_, ?_⟩
  · rw [ha] at hmem
    have hlog := h.logged a hmem
    refine ⟨?_, ?_, ?_⟩ <;> unfold Db.eventsOf <;> rw [he]
    · exact hlog.begins
    · exact hlog.state
    · exact hlog.result
  · rw [ha]
    exact h.closed
  · rw [ha, hr]
    exact h.verified
  · rw [ha, he]
    exact h.owned

theorem Db.eventsOf_append (db : Db) (event : EventRow) (id : Bytes) :
    (db.append event).eventsOf id
      = db.eventsOf id ++ (if event.attemptId = id then [event] else []) := by
  unfold Db.eventsOf Db.append
  simp only [List.filter_append, List.filter_cons, List.filter_nil,
    beq_iff_eq]

-- ================================================== rewriting an attempt

/-- The one row of a key. -/
theorem Db.HasAttempt.row (hatt : db.HasAttempt planId taskId attemptId epoch) :
    ∃ row ∈ db.attempts,
      row.isAt planId taskId attemptId epoch = true := by
  have hpos : 0 < db.attempts.countP
      (AttemptRow.isAt planId taskId attemptId epoch) := by
    rw [hatt]
    exact Nat.one_pos
  exact List.countP_pos_iff.1 hpos

/-- Attempts are told apart by their ids, so a row of the id is the row
of the key. -/
theorem Db.Keyed.isAt_of_id (h : db.Keyed)
    (hatt : db.HasAttempt planId taskId attemptId epoch) {row : AttemptRow}
    (hrow : row ∈ db.attempts) (hid : row.attemptId = attemptId) :
    row.isAt planId taskId attemptId epoch = true := by
  obtain ⟨row', hrow', hat⟩ := hatt.row
  have hid' := (AttemptRow.isAt_iff.1 hat).2.2.1
  rw [h.attempt_unique hrow hrow' (hid.trans hid'.symm)]
  exact hat

/-- Rewriting one attempt together with an event that names its new state
keeps the journal. -/
theorem Db.Journal.rewrite (h : db.Journal) (hk : db.Keyed)
    (hatt : db.HasAttempt planId taskId attemptId epoch)
    (result : Option TaskState) (error : Option Status)
    {event : EventRow} (hid : event.attemptId = attemptId)
    (hfin : event.eventType.finishes = result.isSome)
    (ha : db'.attempts = (db.setAttempt planId taskId attemptId epoch
      event.eventType.names result error result.isSome).attempts)
    (he : db'.events = db.events ++ [event])
    (hr : ∀ r ∈ db.receipts, r ∈ db'.receipts)
    (hv : event.eventType.names = .verifiedDurable →
      db'.receipts.any (ReceiptRow.isAt planId taskId attemptId) = true) :
    db'.Journal := by
  have hevents : ∀ id, db'.eventsOf id
      = db.eventsOf id ++ (if event.attemptId = id then [event] else []) := by
    intro id
    rw [← Db.eventsOf_append]
    unfold Db.eventsOf
    rw [he]
    rfl
  have hkeep : ∀ a : AttemptRow, db.receipts.any
      (ReceiptRow.isAt a.planId a.taskId a.attemptId) = true →
      db'.receipts.any
        (ReceiptRow.isAt a.planId a.taskId a.attemptId) = true := by
    intro a hany
    obtain ⟨r, hmem, hat⟩ := List.any_eq_true.1 hany
    exact List.any_eq_true.2 ⟨r, hr r hmem, hat⟩
  -- a row of the new table is the rewritten one, or an old one of another id
  have hcases : ∀ a ∈ db'.attempts,
      (∃ row ∈ db.attempts, row.isAt planId taskId attemptId epoch = true
          ∧ a = { row with
            fileState := event.eventType.names, finished := result.isSome,
            result := result, error := error })
        ∨ a ∈ db.attempts ∧ event.attemptId ≠ a.attemptId := by
    intro a hmem
    rw [ha, Db.attempts_setAttempt] at hmem
    obtain ⟨row, hrow, rfl⟩ := List.mem_map.1 hmem
    unfold rewriteAttempt
    by_cases hat : row.isAt planId taskId attemptId epoch = true
    · rw [if_pos hat]
      exact .inl ⟨row, hrow, hat, rfl⟩
    · rw [if_neg hat]
      refine .inr ⟨hrow, fun hsame => hat ?_⟩
      exact hk.isAt_of_id hatt hrow (hsame.symm.trans hid)
  refine ⟨fun a hmem => ?_, fun a hmem => ?_, fun a hmem hstate => ?_,
    fun e hmem => ?_⟩
  · rcases hcases a hmem with ⟨row, hrow, hat, rfl⟩ | ⟨hold, hother⟩
    · have hlog := h.logged row hrow
      have hrid : row.attemptId = event.attemptId :=
        (AttemptRow.isAt_iff.1 hat).2.2.1.trans hid.symm
      have hall : db'.eventsOf row.attemptId
          = db.eventsOf row.attemptId ++ [event] := by
        rw [hevents, if_pos hrid.symm]
      refine ⟨?_, ?_, ?_⟩
      · show (db'.eventsOf row.attemptId).head?.map _ = _
        have hbegins := hlog.begins
        rw [hall, List.head?_append]
        cases hhead : (db.eventsOf row.attemptId).head? with
        | none =>
            rw [hhead] at hbegins
            cases hbegins
        | some first =>
            rw [hhead] at hbegins
            exact hbegins
      · show (db'.eventsOf row.attemptId).getLast?.map _ = _
        rw [hall, List.getLast?_concat]
        rfl
      · show (db'.eventsOf row.attemptId).getLast?.map _ = _
        rw [hall, List.getLast?_concat]
        exact congrArg some hfin
    · have hlog := h.logged a hold
      have hall : db'.eventsOf a.attemptId = db.eventsOf a.attemptId := by
        rw [hevents, if_neg hother, List.append_nil]
      refine ⟨?_, ?_, ?_⟩ <;> rw [hall]
      · exact hlog.begins
      · exact hlog.state
      · exact hlog.result
  · rcases hcases a hmem with ⟨row, -, -, rfl⟩ | ⟨hold, -⟩
    · rfl
    · exact h.closed a hold
  · rcases hcases a hmem with ⟨row, -, hat, rfl⟩ | ⟨hold, -⟩
    · obtain ⟨hp, ht, hi, -⟩ := AttemptRow.isAt_iff.1 hat
      have hany := hv hstate
      rw [← hp, ← ht, ← hi] at hany
      exact hany
    · exact hkeep a (h.verified a hold hstate)
  · rw [he] at hmem
    have hback : ∀ row ∈ db.attempts, ∃ a ∈ db'.attempts,
        a.attemptId = row.attemptId := by
      intro row hrow
      refine ⟨rewriteAttempt planId taskId attemptId epoch
        event.eventType.names result error result.isSome row, ?_, ?_⟩
      · rw [ha, Db.attempts_setAttempt]
        exact List.mem_map_of_mem hrow
      · exact (rewriteAttempt_key planId taskId attemptId epoch _ _ _ _
          row).2.2.1
    rcases List.mem_append.1 hmem with hold | hnew
    · obtain ⟨row, hrow, hrid⟩ := h.owned e hold
      obtain ⟨a, hmem', haid⟩ := hback row hrow
      exact ⟨a, hmem', haid.trans hrid⟩
    · rw [List.mem_singleton.1 hnew]
      obtain ⟨row, hrow, hat⟩ := hatt.row
      obtain ⟨a, hmem', haid⟩ := hback row hrow
      exact ⟨a, hmem', (haid.trans (AttemptRow.isAt_iff.1 hat).2.2.1).trans
        hid.symm⟩

/-- A rewriting that gives the attempt another state changes the file
states. -/
theorem fileStates_rewrite {state : FileAttemptState}
    {result : Option TaskState} {error : Option Status} {finish : Bool}
    {row : AttemptRow} (hrow : row ∈ db.attempts)
    (hat : row.isAt planId taskId attemptId epoch = true)
    (hne : row.fileState ≠ state)
    (ha : db'.attempts = (db.setAttempt planId taskId attemptId epoch state
      result error finish).attempts) :
    db'.fileStates ≠ db.fileStates := by
  intro hsame
  unfold Db.fileStates at hsame
  rw [ha, Db.attempts_setAttempt, List.map_map] at hsame
  have hpoint := List.map_inj_left.1 hsame row hrow
  simp only [Function.comp_apply, rewriteAttempt, if_pos hat] at hpoint
  exact hne (Prod.mk.inj hpoint).2.symm

-- ======================================================== one change

/-- The log moved with the file states: by one event, or not at all. -/
def Db.Told (db db' : Db) : Prop :=
  db'.fileStates = db.fileStates ∧ db'.events = db.events
    ∨ db'.fileStates ≠ db.fileStates ∧ ∃ event, db'.events = db.events ++ [event]

/-- A key's state is that of its row. -/
theorem Db.Keyed.fileState_of_key (h : db.Keyed) {row : AttemptRow}
    (hrow : row ∈ db.attempts)
    (hat : row.isAt planId taskId attemptId epoch = true) :
    db.attemptState? planId taskId attemptId epoch = some row.fileState := by
  unfold Db.attemptState?
  cases hfind : db.attempts.find?
      (AttemptRow.isAt planId taskId attemptId epoch) with
  | none => exact absurd hat (List.find?_eq_none.1 hfind row hrow)
  | some found =>
      have hmem := List.mem_of_find?_eq_some hfind
      have hfound := AttemptRow.isAt_iff.1 (List.find?_some hfind)
      have hid := (AttemptRow.isAt_iff.1 hat).2.2.1
      rw [h.attempt_unique hrow hmem (hid.trans hfound.2.2.1.symm)]
      rfl

/-- No finishing event names VERIFIED_DURABLE. -/
private theorem finishes_not_verified {event : EventType}
    (h : event.finishes = true) : event.names ≠ .verifiedDurable := by
  revert h
  cases event <;> decide

/-- An open attempt has not been finished by its last event. -/
theorem Db.Journal.open_state (h : db.Journal) {row : AttemptRow}
    (hrow : row ∈ db.attempts) (hopen : row.finished = false)
    {event : EventType} (hevent : event.finishes = true) :
    row.fileState ≠ event.names := by
  have hlog := h.logged row hrow
  have hstate := hlog.state
  have hresult := hlog.result
  rw [← h.closed row hrow, hopen] at hresult
  intro hsame
  rw [hsame] at hstate
  cases hlast : (db.eventsOf row.attemptId).getLast? with
  | none =>
      rw [hlast] at hstate
      cases hstate
  | some last =>
      rw [hlast] at hstate hresult
      have hnames : last.eventType.names = event.names :=
        Option.some.inj hstate
      have hgoes : last.eventType.finishes = false := Option.some.inj hresult
      -- no state is named both by a finishing event and by another
      revert hnames hgoes hevent
      cases last.eventType <;> cases event <;> decide

/-- A task's one running row has an open attempt. -/
theorem Db.Sound.owned_open (h : db.Sound)
    (hown : db.Owned planId taskId attemptId epoch) :
    db.OpenAttemptIs planId taskId attemptId epoch := by
  have hpos : 0 < db.tasks.countP
      (TaskRow.isOwnedBy planId taskId epoch attemptId) := by
    rw [hown]
    exact Nat.one_pos
  obtain ⟨row, hrow, hby⟩ := List.countP_pos_iff.1 hpos
  obtain ⟨⟨rfl, rfl⟩, hepoch, hattempt, -⟩ := TaskRow.isOwnedBy_iff.1 hby
  exact ((h.owned.tasks row hrow).running _ _ hepoch hattempt).1

/-- A rewriting is told by one event. -/
theorem Db.Told.rewrite {state : FileAttemptState}
    {result : Option TaskState} {error : Option Status} {finish : Bool}
    {event : EventRow} {row : AttemptRow} (hrow : row ∈ db.attempts)
    (hat : row.isAt planId taskId attemptId epoch = true)
    (hne : row.fileState ≠ state)
    (ha : db'.attempts = (db.setAttempt planId taskId attemptId epoch state
      result error finish).attempts)
    (he : db'.events = db.events ++ [event]) : db.Told db' :=
  .inr ⟨fileStates_rewrite hrow hat hne ha, event, he⟩

theorem Db.Told.of_tables (ha : db'.attempts = db.attempts)
    (he : db'.events = db.events) : db.Told db' := by
  refine .inl ⟨?_, he⟩
  unfold Db.fileStates
  rw [ha]

/-- A claim begins the story of a new attempt. -/
theorem Db.Journal.claim (h : db.Journal)
    (hfresh : db.attempts.any (·.attemptId == attemptId) = false) :
    (db.claim planId taskId attemptId epoch).Journal := by
  have hother : ∀ a ∈ db.attempts, a.attemptId ≠ attemptId := by
    intro a hmem hid
    have hnot := List.any_eq_false.1 hfresh a hmem
    exact hnot (beq_iff_eq.2 hid)
  have hevents : ∀ id, (db.claim planId taskId attemptId epoch).eventsOf id
      = db.eventsOf id ++ (if attemptId = id
        then [claimEvent planId taskId attemptId epoch] else []) := fun id =>
    db.eventsOf_append (claimEvent planId taskId attemptId epoch) id
  have hnone : db.eventsOf attemptId = [] := by
    unfold Db.eventsOf
    refine List.filter_eq_nil_iff.2 fun e hmem hid => ?_
    obtain ⟨a, ha, haid⟩ := h.owned e hmem
    exact hother a ha (haid.trans (beq_iff_eq.1 hid))
  refine ⟨fun a hmem => ?_, fun a hmem => ?_, fun a hmem hstate => ?_,
    fun e hmem => ?_⟩
  · rcases List.mem_append.1 hmem with hold | hnew
    · have hlog := h.logged a hold
      have hall : (db.claim planId taskId attemptId epoch).eventsOf
          a.attemptId = db.eventsOf a.attemptId := by
        rw [hevents, if_neg (hother a hold).symm, List.append_nil]
      refine ⟨?_, ?_, ?_⟩ <;> rw [hall]
      · exact hlog.begins
      · exact hlog.state
      · exact hlog.result
    · rw [List.mem_singleton.1 hnew]
      have hall : (db.claim planId taskId attemptId epoch).eventsOf attemptId
          = [claimEvent planId taskId attemptId epoch] := by
        rw [hevents, if_pos rfl, hnone, List.nil_append]
      refine ⟨?_, ?_, ?_⟩ <;> unfold newAttemptRow <;> rw [hall] <;> rfl
  · rcases List.mem_append.1 hmem with hold | hnew
    · exact h.closed a hold
    · rw [List.mem_singleton.1 hnew]
      rfl
  · rcases List.mem_append.1 hmem with hold | hnew
    · exact h.verified a hold hstate
    · rw [List.mem_singleton.1 hnew] at hstate
      cases hstate
  · rcases List.mem_append.1 hmem with hold | hnew
    · obtain ⟨a, ha, haid⟩ := h.owned e hold
      exact ⟨a, List.mem_append_left _ ha, haid⟩
    · rw [List.mem_singleton.1 hnew]
      exact ⟨_, List.mem_append_right _ (List.mem_singleton_self _), rfl⟩

/-- Every change keeps the journal and is told by it. -/
theorem Db.Change.journal (hchange : db.Change db') (hs : db.Sound)
    (h : db.Journal) : db'.Journal ∧ db.Told db' := by
  cases hchange with
  | same => exact ⟨h, .of_tables rfl rfl⟩
  | addTask => exact ⟨h.of_tables rfl rfl rfl, .of_tables rfl rfl⟩
  | addDependency => exact ⟨h.of_tables rfl rfl rfl, .of_tables rfl rfl⟩
  | setReady => exact ⟨h.of_tables rfl rfl rfl, .of_tables rfl rfl⟩
  | claim _ _ _ hfresh _ =>
      refine ⟨h.claim hfresh, .inr ⟨fun hsame => ?_, _, rfl⟩⟩
      have hlength := congrArg List.length hsame
      simp [Db.fileStates, Db.claim] at hlength
  | @advance p t a e hh hatt previous event hprev hne _ hevent =>
      obtain ⟨row, hrow, hat⟩ := hatt.row
      have hstate := hs.keyed.fileState_of_key hrow hat
      rw [hprev] at hstate
      rw [Option.some.inj hstate] at hne
      refine ⟨?_, .rewrite hrow hat hne rfl rfl⟩
      have hopen : event.finishes = false ∧ event.names ≠ .verifiedDurable := by
        rcases hevent with rfl | rfl <;> decide
      exact h.rewrite hs.keyed hatt none none rfl hopen.1 rfl rfl
        (fun _ => id) fun hv => absurd hv hopen.2
  | @persist p receipt source identity hh hnew hatt =>
      obtain ⟨row, hrow, hat⟩ := hatt.row
      have hne : row.fileState ≠ .verifiedDurable := by
        intro hv
        have hany := h.verified row hrow hv
        obtain ⟨hp, ht, hi, -⟩ := AttemptRow.isAt_iff.1 hat
        rw [hp, ht, hi, hnew] at hany
        cases hany
      refine ⟨?_, .rewrite hrow hat hne rfl rfl⟩
      refine h.rewrite hs.keyed hatt none none
        (rfl : (receiptEvent p receipt).attemptId = _) rfl rfl rfl
        (fun r hr => List.mem_append_left _ hr) fun _ => ?_
      refine List.any_eq_true.2 ⟨receiptRow p receipt source identity,
        List.mem_append_right _ (List.mem_singleton_self _), ?_⟩
      simp [ReceiptRow.isAt, receiptRow]
  | @settle p t a e hown hatt next _ event hevent error acting detail =>
      obtain ⟨row, hrow, hat⟩ := hatt.row
      have hfin := hs.attempt_open (hs.owned_open hown) hrow
        (AttemptRow.isAt_iff.1 hat).2.2.1
      refine ⟨?_, .rewrite hrow hat (h.open_state hrow hfin hevent) rfl rfl⟩
      refine h.rewrite hs.keyed hatt (some next) error rfl hevent rfl rfl
        (fun _ => id) fun hv => ?_
      exact absurd hv (finishes_not_verified hevent)

-- ========================================================== one call

variable {reply : Reply}

/-- A successful call keeps the journal and is told by it. -/
theorem call_journal (c : Call) (hrun : (c.run : DbTxn Reply) db
      = .ok (reply, db')) (hs : db.Sound) (h : db.Journal) :
    db'.Journal ∧ db.Told db' := by
  by_cases hc : ∃ planId, c = .acquireNextExecutionEpoch planId
  · obtain ⟨p, rfl⟩ := hc
    obtain ⟨current, -, -, rfl⟩ := acquire_call_ok hrun
    obtain ⟨-, ha, he, hr⟩ := db.setCurrentEpoch_tables p (current + 1)
    exact ⟨h.of_tables ha he hr, .of_tables ha he⟩
  · exact (call_change c (fun p hp => hc ⟨p, hp⟩) hrun).journal hs h

/-- Asking again for a state the attempt has changes nothing. -/
theorem advance_replays {next : FileAttemptState} {event : EventType}
    {u : Unit}
    (hreach : db.attemptState? planId taskId attemptId epoch = some next)
    (hrun : (advanceAttemptBody planId taskId epoch attemptId next event none :
      DbTxn Unit) db = .ok (u, db')) : db' = db := by
  obtain ⟨-, -, previous, hprev, ⟨-, rfl⟩ | ⟨hne, -⟩⟩ :=
    advanceAttemptBody_ok.1 hrun
  · rfl
  · rw [hreach] at hprev
    exact absurd (Option.some.inj hprev).symm hne

/-- A replay changes nothing. -/
theorem call_replays (c : Call) (hc : c.Replays db)
    (hrun : (c.run : DbTxn Reply) db = .ok (reply, db')) : db' = db := by
  cases c with
  | markCommitIntent p t e a =>
      obtain ⟨_, h₁, -⟩ := answer_ok.1 hrun
      obtain ⟨_, -, h₂⟩ := liftCheck_bind_ok.1 h₁
      obtain ⟨_, -, h₃⟩ := liftCheck_bind_ok.1 h₂
      exact advance_replays hc h₃
  | markTempWritten p t e a =>
      obtain ⟨_, h₁, -⟩ := answer_ok.1 hrun
      obtain ⟨_, -, h₂⟩ := liftCheck_bind_ok.1 h₁
      obtain ⟨_, -, h₃⟩ := liftCheck_bind_ok.1 h₂
      exact advance_replays hc h₃
  | persistVerifiedReceipt p receipt =>
      obtain ⟨_, h₁, -⟩ := answer_ok.1 hrun
      obtain ⟨_, -, h₂⟩ := liftCheck_bind_ok.1 h₁
      obtain ⟨-, -, ⟨-, rfl, -⟩ | ⟨hnew, -⟩⟩ :=
        persistVerifiedReceiptBody_ok.1 h₂
      · rfl
      · have hstored : db.receipts.any (ReceiptRow.isAt p receipt.taskId
            receipt.attemptId) = true := hc
        rw [hnew] at hstored
        cases hstored
  | _ => cases hc

theorem Db.Told.logs {c : Call} (h : db.Told db')
    (hsilent : c.Replays db → db' = db) : Logs c false db db' := by
  refine ⟨fun hne => ?_, fun heq => ?_, fun hor => ?_⟩
  · rcases h with ⟨hsame, -⟩ | ⟨-, hone⟩
    · exact absurd hsame hne
    · exact hone
  · rcases h with ⟨-, hnone⟩ | ⟨hdiffers, -⟩
    · exact hnone
    · exact absurd heq hdiffers
  · rcases hor with hfalse | hreplay
    · cases hfalse
    · exact hsilent hreplay

/-- What a successful call logs. -/
private theorem call_logs (c : Call) (hrun : (c.run : DbTxn Reply) db
      = .ok (reply, db')) (hs : db.Sound) (h : db.Journal) :
    Logs c false db db' :=
  (call_journal c hrun hs h).2.logs fun hreplay => call_replays c hreplay hrun

theorem Logs.refl (c : Call) (failed : Bool) (db : Db) :
    Logs c failed db db :=
  ⟨fun hne => absurd rfl hne, fun _ => rfl, fun _ => rfl⟩

-- ========================================================= whole runs

variable {σ σ' : Store} {i : Nat} {action : Action}
  {r : Except Status Reply} {t : List Event}

/-- The committed tables and the working copy of a batch in order keep
the journal. -/
structure Store.Journal (σ : Store) : Prop where
  committed : σ.committed.Journal
  working : ∀ i s, σ.writer = some (i, s) → σ.stopped i = false → s.Journal

theorem Store.journal_iff : σ.Journal ↔ σ.All Db.Journal :=
  ⟨fun h => ⟨h.committed, h.working⟩, fun h => ⟨h.committed, h.working⟩⟩

theorem Store.Journal.close (h : σ.Journal) (i : Nat) : (σ.close i).Journal :=
  Store.journal_iff.2 ((Store.journal_iff.1 h).close i)

/-- A step keeps the journals. -/
theorem Stepped.journal (hstep : Stepped σ i action r σ') (hs : σ.Sound)
    (h : σ.Journal) : σ'.Journal := by
  have hboth : σ.All fun db => db.Sound ∧ db.Journal :=
    ⟨⟨hs.committed, h.committed⟩, fun j s hw hstop =>
      ⟨hs.working j s hw hstop, h.working j s hw hstop⟩⟩
  have hboth' : σ'.All fun db => db.Sound ∧ db.Journal := by
    refine hstep.all (fun c db reply db' _ hrun hdb => ?_) hboth
    exact ⟨call_sound c hrun hdb.1, (call_journal c hrun hdb.1 hdb.2).1⟩
  exact ⟨hboth'.committed.2, fun j s hw hstop => (hboth'.working j s hw hstop).2⟩

/-- Along every disciplined run the journals are kept. -/
theorem Run.journal (hrun : Run stopsAtError db t σ) (hs : db.Sound)
    (h : db.Journal) : σ.Journal := by
  induction hrun with
  | start => exact ⟨h, by simp [Store.opened]⟩
  | act hrun i action faults hrule ih =>
      exact (step_cases hrun.ok action hrule faults).journal (hrun.sound hs) ih
  | close _ i ih => exact ih.close i
  | plan _ hfree _ _ _ ih =>
      exact ⟨ih.committed.of_tables rfl rfl rfl, ih.working⟩

/-- The event log is faithful along every run whose batches stop at the
first error. -/
theorem logFaithful_stopsAtError : LogFaithful stopsAtError := by
  refine ⟨?_, ?_, ?_, ?_, ?_⟩
  · intro db t σ hfresh hrun i c faults hrule hb
    have hsound := hrun.sound hfresh.sound
    have hjournal := hrun.journal hfresh.sound hfresh.journal
    have hstep := step_cases hrun.ok (.call c) hrule faults
    revert hstep
    generalize hout : (σ.step i (.call c) faults).1 = r
    generalize (σ.step i (.call c) faults).2 = σ'
    intro hstep
    cases hstep with
    | refused e _ => exact .refl c _ σ.committed
    | own _ hcall _ => exact call_logs c hcall hsound.committed hjournal.committed
    | joined hb' => exact absurd hb hb'
    | failed _ hb' => exact absurd hb hb'
    | dropped ha =>
        rcases ha with ⟨ha, -⟩ | ha <;> cases ha
  · intro db t σ hfresh hrun i c faults reply hrule hb hout
    have hsound := hrun.sound hfresh.sound
    have hjournal := hrun.journal hfresh.sound hfresh.journal
    have hstep := step_cases hrun.ok (.call c) hrule faults
    rw [hout] at hstep
    revert hstep
    generalize (σ.step i (.call c) faults).2 = σ'
    intro hstep
    cases hstep with
    | own hb' => exact absurd hb' hb
    | joined _ hstop hw _ hcall =>
        exact ⟨_, _, hw, rfl, rfl, call_logs c hcall
          (hsound.working _ _ hw hstop) (hjournal.working _ _ hw hstop)⟩
    | dropped ha =>
        rcases ha with ⟨ha, -⟩ | ha <;> cases ha
  · intro db t σ hfresh hrun i action faults e hrule hout
    have hstep := step_cases hrun.ok action hrule faults
    rw [hout] at hstep
    revert hstep
    generalize (σ.step i action faults).2 = σ'
    intro hstep
    cases hstep with
    | refused => rfl
    | failed => rfl
    | dropped => rfl
  · intro db t σ hfresh hrun i faults reply hrule hout
    have hstep := step_cases hrun.ok .commitWriteBatch hrule faults
    rw [hout] at hstep
    revert hstep
    generalize (σ.step i .commitWriteBatch faults).2 = σ'
    intro hstep
    cases hstep with
    | published _ _ hw => exact ⟨_, hw, rfl⟩
    | dropped ha =>
        rcases ha with ⟨-, e, he⟩ | ha
        · cases he
        · cases ha
  · intro db t σ hfresh hrun
    exact (hrun.journal hfresh.sound hfresh.journal).committed.logged

end PhotoBridge
