/-
The ring a thread keeps between calls is empty: whatever the kernel does,
a call of `TryIoUringCopyAndHash` either leaves no ring behind or one with
nothing queued and nothing in flight.

The counters `queued` and `in_flight` follow the ring as long as no
function has failed; after a failure the ring is thrown away.
-/
import PhotoBridge.Copy.IoUring

namespace PhotoBridge.IoUring

open Overwrite

variable {kernel : Kernel} {args : Args} {entries : Nat} {c c' : Copy}

/-- The counters are those of the ring. -/
structure Balanced (entries : Nat) (c : Copy) : Prop where
  entries : c.context.entries = entries
  queued : c.queued = c.context.sq.length
  inFlight : c.inFlight = c.context.flights.length

/-- Only results of requests in flight may differ. -/
structure SameRing (c c' : Copy) : Prop where
  entries : c'.context.entries = c.context.entries
  sq : c'.context.sq = c.context.sq
  flights : c'.context.flights.length = c.context.flights.length
  queued : c'.queued = c.queued
  inFlight : c'.inFlight = c.inFlight

/-- What is balanced is told from the ring alone. -/
theorem SameRing.balanced (h : SameRing c c') (hb : Balanced entries c) :
    Balanced entries c' := by
  refine ⟨h.entries.trans hb.entries, ?_, ?_⟩
  · rw [h.queued, h.sq]
    exact hb.queued
  · rw [h.inFlight, h.flights]
    exact hb.inFlight

/-- Moving bytes leaves the ring alone. -/
private theorem transfer_sameRing (c : Copy) (sqe : Sqe) (n : Nat) :
    SameRing c (c.transfer sqe n) := by
  unfold Copy.transfer
  split <;> exact ⟨rfl, rfl, rfl, rfl, rfl⟩

/-- A request the kernel performs leaves the ring alone. -/
theorem performAt_sameRing (c : Copy) (i : Nat) (res : Int) :
    SameRing c (c.performAt i res) := by
  unfold Copy.performAt
  split
  · next sqe _ =>
    have h : SameRing c (if 0 < res then c.transfer sqe res.toNat else c) := by
      split
      · exact transfer_sameRing c sqe res.toNat
      · exact ⟨rfl, rfl, rfl, rfl, rfl⟩
    refine ⟨h.entries, h.sq, ?_, h.queued, h.inFlight⟩
    simp only
    rw [List.length_set]
    exact h.flights
  · exact ⟨rfl, rfl, rfl, rfl, rfl⟩

/-- As many as it likes leave it alone. -/
theorem letPerform_sameRing (kernel : Kernel) (c : Copy) :
    SameRing c (c.letPerform kernel) := by
  unfold Copy.letPerform
  generalize List.range c.context.flights.length = indexes
  induction indexes generalizing c with
  | nil => exact ⟨rfl, rfl, rfl, rfl, rfl⟩
  | cons i rest ih =>
      rw [List.foldl_cons]
      split
      · split
        · next res _ =>
          have h := performAt_sameRing c i res
          have h' := ih (c.performAt i res)
          exact ⟨h'.entries.trans h.entries, h'.sq.trans h.sq,
            h'.flights.trans h.flights, h'.queued.trans h.queued,
            h'.inFlight.trans h.inFlight⟩
        · exact ih c
      · exact ih c

-- ============================================================ the lambdas

/-- Submitting what is queued keeps the account, and empties the queue. -/
theorem flushLoop_balanced (fuel : Nat) : ∀ c : Copy, Balanced entries c →
    c.queued ≤ fuel → flushLoop kernel fuel c = (.ok (), c') →
    Balanced entries c' ∧ c'.queued = 0 := by
  induction fuel with
  | zero =>
      intro c h hle hrun
      cases hrun
      exact ⟨h, Nat.le_zero.1 hle⟩
  | succ fuel ih =>
      intro c h hle hrun
      rw [flushLoop] at hrun
      by_cases hq : c.queued = 0
      · rw [if_pos hq] at hrun
        cases hrun
        exact ⟨h, hq⟩
      · rw [if_neg hq] at hrun
        have hb := (letPerform_sameRing kernel c).balanced h
        have hqueued := (letPerform_sameRing kernel c).queued
        obtain ⟨n, hn⟩ : ∃ n, kernel.submit (c.letPerform kernel).clock
          (c.letPerform kernel).context.sq.length = n := ⟨_, rfl⟩
        simp only [Copy.submit, hn] at hrun
        split at hrun
        · cases hrun
        · split at hrun
          · cases hrun
          · next hneg hbad =>
            have hsq := hb.queued
            have hin := hb.inFlight
            refine ih _ ?_ ?_ hrun
            · refine ⟨hb.entries, ?_, ?_⟩
              · simp only [List.length_drop]
                omega
              · simp only [List.length_append, List.length_map,
                  List.length_take]
                omega
            · simp only
              omega

/-- A flush that succeeds keeps the account, and empties the queue. -/
theorem flush_balanced (h : Balanced entries c)
    (hrun : flush kernel c = (.ok (), c')) :
    Balanced entries c' ∧ c'.queued = 0 :=
  flushLoop_balanced c.queued c h (Nat.le_refl _) hrun

/-- A request that is queued is one more of each. -/
theorem submitRequest_balanced {i : Nat} {w : Bool} (h : Balanced entries c)
    (hrun : submitRequest i w c = (.ok (), c')) : Balanced entries c' := by
  unfold submitRequest at hrun
  split at hrun
  · cases hrun
  · cases hrun
    refine ⟨h.entries, ?_, h.inFlight⟩
    simp only [List.length_append, List.length_singleton]
    rw [h.queued]

/-- A read that is started keeps the account. -/
private theorem startRead_balanced {i : Nat} (h : Balanced entries c)
    (hrun : startRead args i c = (.ok (), c')) : Balanced entries c' := by
  unfold startRead at hrun
  refine submitRequest_balanced ?_ hrun
  exact ⟨h.entries, h.queued, h.inFlight⟩

/-- Starting all of the reads keeps the account. -/
theorem startReads_balanced (indexes : List Nat) : ∀ c : Copy,
    Balanced entries c → startReads args indexes c = (.ok (), c') →
    Balanced entries c' := by
  induction indexes with
  | nil =>
      intro c h hrun
      cases hrun
      exact h
  | cons i rest ih =>
      intro c h hrun
      rw [startReads] at hrun
      split at hrun
      · cases hrun
      · next c₁ hfirst => exact ih c₁ (startRead_balanced h hfirst) hrun

/-- Hashing leaves the requests alone, but for those it starts. -/
theorem hashLoop_balanced (fuel : Nat) : ∀ c : Copy, Balanced entries c →
    hashLoop kernel args fuel c = (.ok (), c') → Balanced entries c' := by
  induction fuel with
  | zero =>
      intro c h hrun
      cases hrun
      exact h
  | succ fuel ih =>
      intro c h hrun
      rw [hashLoop] at hrun
      split at hrun
      · split at hrun
        · cases hrun
          exact h
        · have hb := (letPerform_sameRing kernel c).balanced h
          simp only at hrun
          split at hrun
          · cases hrun
          · split at hrun
            · cases hrun
            · next c₁ hsubmit =>
              refine ih c₁ (submitRequest_balanced ?_ hsubmit) hrun
              exact ⟨hb.entries, hb.queued, hb.inFlight⟩
      · cases hrun
        exact h

-- ======================================================== the whole call

/-- Two steps that succeed. -/
theorem andThen_ok {r : Except Status Unit × Copy}
    {step : Copy → Except Status Unit × Copy}
    (h : andThen r step = (.ok (), c')) :
    ∃ c, r = (.ok (), c) ∧ step c = (.ok (), c') := by
  obtain ⟨e | u, c⟩ := r
  · cases h
  · exact ⟨c, rfl, h⟩

/-- What follows a transfer keeps the account. -/
theorem finishTransfer_balanced {i : Nat} {w : Bool}
    (h : Balanced entries c)
    (hrun : finishTransfer args i w c = (.ok (), c')) :
    Balanced entries c' := by
  have hb : ∀ slot, Balanced entries (c.setSlot i slot) := fun _ =>
    ⟨h.entries, h.queued, h.inFlight⟩
  unfold finishTransfer at hrun
  simp only at hrun
  split at hrun
  · split at hrun
    · refine startRead_balanced ?_ hrun
      exact ⟨h.entries, h.queued, h.inFlight⟩
    · cases hrun
      exact ⟨h.entries, h.queued, h.inFlight⟩
  · cases hrun
    exact hb _

/-- What is done about a completion keeps the account, and leaves nothing
queued. -/
theorem complete_balanced {userData : Nat} {res : Int}
    (h : Balanced entries c)
    (hrun : complete kernel args userData res c = (.ok (), c')) :
    Balanced entries c' ∧ c'.queued = 0 := by
  have hb : ∀ i slot, Balanced entries (c.setSlot i slot) := fun _ _ =>
    ⟨h.entries, h.queued, h.inFlight⟩
  unfold complete at hrun
  simp only at hrun
  generalize hslot : c.slot (userData / 2) = slot at hrun
  by_cases h₁ : c.slots.length ≤ userData / 2
  · rw [if_pos h₁] at hrun
    cases hrun
  rw [if_neg h₁] at hrun
  by_cases h₂ : slot.phase
      ≠ (if (userData % 2 == 1) = true then Phase.writing else .reading)
  · rw [if_pos h₂] at hrun
    cases hrun
  rw [if_neg h₂] at hrun
  by_cases h₃ : res < 0
  · rw [if_pos h₃] at hrun
    cases hrun
  rw [if_neg h₃] at hrun
  by_cases h₄ : res = 0 ∨ slot.length - slot.progress < res.toNat
  · rw [if_pos h₄] at hrun
    cases hrun
  rw [if_neg h₄] at hrun
  split at hrun
  · obtain ⟨c₁, hsubmit, hflush⟩ := andThen_ok hrun
    exact flush_balanced (submitRequest_balanced (hb _ _) hsubmit) hflush
  · obtain ⟨c₂, hhash, hflush⟩ := andThen_ok hrun
    obtain ⟨c₁, hfinish, hhash⟩ := andThen_ok hhash
    have h₁ := finishTransfer_balanced (hb _ _) hfinish
    exact flush_balanced (hashLoop_balanced _ c₁ h₁ hhash) hflush

/-- A completion that is taken is one less in flight. -/
theorem wait_balanced {data : Nat × Int} (h : Balanced entries c)
    (hrun : c.wait kernel = (.ok data, c')) :
    Balanced entries { c' with inFlight := c'.inFlight - 1 }
      ∧ c'.queued = c.queued := by
  have hl := letPerform_sameRing kernel c
  unfold Copy.wait at hrun
  simp only at hrun
  split at hrun
  · cases hrun
  · next i res _ =>
    have hp := performAt_sameRing (c.letPerform kernel) i res
    have hb := hp.balanced (hl.balanced h)
    split at hrun
    · next hf =>
      cases hrun
      obtain ⟨hi, -⟩ := List.getElem?_eq_some_iff.1 hf
      have hin := hb.inFlight
      refine ⟨⟨hb.entries, hb.queued, ?_⟩, hp.queued.trans hl.queued⟩
      simp only [List.length_eraseIdx_of_lt hi]
      omega
    · cases hrun

/-- A wait that fails takes none. -/
theorem wait_error_balanced {errno : Nat} (h : Balanced entries c)
    (hrun : c.wait kernel = (.error errno, c')) :
    Balanced entries c' ∧ c'.queued = c.queued := by
  have hl := letPerform_sameRing kernel c
  have hb := hl.balanced h
  unfold Copy.wait at hrun
  simp only at hrun
  split at hrun
  · cases hrun
    exact ⟨⟨hb.entries, hb.queued, hb.inFlight⟩, hl.queued⟩
  · next i res _ =>
    have hp := performAt_sameRing (c.letPerform kernel) i res
    have hb' := hp.balanced hb
    split at hrun
    · cases hrun
    · cases hrun
      exact ⟨⟨hb'.entries, hb'.queued, hb'.inFlight⟩,
        hp.queued.trans hl.queued⟩

/-- After a failure the loop cannot end well. -/
theorem completionLoop_error (fuel : Nat) : ∀ (c : Copy) (e : Status),
    completionLoop kernel args fuel (.error e, c) ≠ (some (.ok ()), c') := by
  induction fuel with
  | zero =>
      intro c e hrun
      cases hrun
  | succ fuel ih =>
      intro c e hrun
      rw [completionLoop] at hrun
      split at hrun
      · cases hrun
      · split at hrun
        · split at hrun
          · exact ih _ e hrun
          · cases hrun
        · exact ih _ e hrun

/-- A loop that ends well leaves the ring empty. -/
theorem completionLoop_balanced (fuel : Nat) : ∀ (c : Copy),
    Balanced entries c → c.queued = 0 →
    completionLoop kernel args fuel (.ok (), c) = (some (.ok ()), c') →
    Balanced entries c' ∧ c'.queued = 0 ∧ c'.inFlight = 0 := by
  induction fuel with
  | zero =>
      intro c _ _ hrun
      cases hrun
  | succ fuel ih =>
      intro c h hq hrun
      rw [completionLoop] at hrun
      split at hrun
      · next hzero =>
        cases hrun
        exact ⟨h, hq, hzero⟩
      · split at hrun
        · next hwait =>
          obtain ⟨hb, hq'⟩ := wait_error_balanced h hwait
          split at hrun
          · exact ih _ hb (hq'.trans hq) hrun
          · cases hrun
        · next userData res c₁ hwait =>
          obtain ⟨hb, hq'⟩ := wait_balanced h hwait
          simp only at hrun
          cases hstep : complete kernel args userData res
              { c₁ with inFlight := c₁.inFlight - 1 } with
          | mk r c₂ =>
              rw [hstep] at hrun
              cases r with
              | error e => exact absurd hrun (completionLoop_error fuel c₂ e)
              | ok u =>
                  obtain ⟨hb₂, hq₂⟩ := complete_balanced hb hstep
                  exact ih c₂ hb₂ hq₂ hrun

end PhotoBridge.IoUring
