/-
The io_uring copy under a kernel that may also fail: what it returns, when
it returns a result, is what it returns under a kernel that keeps moving.

# Why

A request that moved nothing, or failed, is reported by its completion,
and the loop does not end before every completion was seen. So as long
as none was recorded (`Poisoned`), the kernel has done nothing but move,
and a kernel that moves wherever this one does not (`Kernel.steadied`)
would have had the same run; and once one was, the run cannot end well.

The steadied kernel also has to stop interrupting waits at some time. A
run that ends has used finitely many moments, so any late enough time
will do.
-/
import Mathlib.Order.Filter.AtTopBot.Basic
import PhotoBridge.Copy.Proofs.Agreement

namespace PhotoBridge.IoUring

open Overwrite Filter

variable {kernel : Kernel} {args : Args} {c c' : Copy}

-- ==================================================== the steadied kernel

/-- The first completion there is, with everything moved. -/
def completeFirst : List Flight → Wait
  | [] => .completes 0 0
  | flight :: _ => .completes 0 flight.sqe.length

/-- The kernel, but moving where it does not, and without interruptions
from a time on. -/
def Kernel.steadied (kernel : Kernel) (calm : Nat) : Kernel where
  queueInit := kernel.queueInit
  submit := fun t n =>
    if 0 < kernel.submit t n ∧ kernel.submit t n ≤ n then kernel.submit t n
    else n
  perform := fun t sqe => (kernel.perform t sqe).filter (0 < ·)
  wait := fun t flights =>
    if calm ≤ t then completeFirst flights
    else match kernel.wait t flights with
      | .failed errno =>
          if errno = eINTR then .failed eINTR else completeFirst flights
      | .completes i res => match flights[i]? with
          | none => .failed eINTR
          | some flight =>
              .completes i (if 0 < res then res else flight.sqe.length)
  strerror := kernel.strerror

private theorem completeFirst_moves {flights : List Flight} (hne : flights ≠ [])
    (hpos : ∀ flight ∈ flights, 0 < flight.sqe.length) :
    ∃ i flight res, completeFirst flights = .completes i res
      ∧ flights[i]? = some flight ∧ 0 < res ∧ res ≤ flight.sqe.length := by
  cases flights with
  | nil => exact absurd rfl hne
  | cons flight rest =>
      exact ⟨0, flight, flight.sqe.length, rfl, rfl,
        Int.natCast_pos.2 (hpos flight (.head rest)), Int.le_refl _⟩

theorem Kernel.Honest.steadied (h : kernel.Honest) (calm : Nat) :
    (kernel.steadied calm).Moves where
  submit := by
    intro t n hn
    simp only [Kernel.steadied]
    split
    · next hmoves => exact hmoves
    · exact ⟨Int.natCast_pos.2 hn, Int.le_refl _⟩
  perform := by
    intro t sqe res hres
    obtain ⟨hperform, hpos⟩ := Option.filter_eq_some_iff.1 hres
    exact ⟨of_decide_eq_true hpos, h.perform t sqe res hperform⟩
  wait := by
    intro t flights hne hpos
    have hfirst := completeFirst_moves hne hpos
    simp only [Kernel.steadied]
    split
    · exact .inr hfirst
    cases hwait : kernel.wait t flights with
    | failed errno =>
        simp only
        split
        · exact .inl rfl
        · exact .inr hfirst
    | completes i res =>
        simp only
        cases hf : flights[i]? with
        | none => exact .inl rfl
        | some flight =>
            refine .inr ⟨i, flight, _, rfl, hf, ?_⟩
            split
            · next hres => exact ⟨hres, h.wait t flights i res flight hwait hf⟩
            · exact ⟨Int.natCast_pos.2 (hpos flight (List.mem_of_getElem? hf)),
                Int.le_refl _⟩
  settles := by
    intro t
    refine ⟨max t calm, Nat.le_max_left t calm, ?_⟩
    intro flights
    simp only [Kernel.steadied, Nat.le_max_right, if_true]
    cases flights with
    | nil => exact Wait.noConfusion
    | cons flight rest => exact Wait.noConfusion

-- ====================================================== poisoned flights

/-- A request in flight has moved nothing, or failed. -/
def Poisoned (c : Copy) : Prop :=
  ∃ (i : Nat) (sqe : Sqe) (res : Int),
    c.context.flights[i]? = some ⟨sqe, some res⟩ ∧ res ≤ 0

private theorem transfer_context (c : Copy) (sqe : Sqe) (n : Nat) :
    (c.transfer sqe n).context = c.context := by
  unfold Copy.transfer
  split <;> rfl

/-- Performing a request poisons it when nothing is moved, and takes the
poison from none. -/
theorem Poisoned.performAt (h : Poisoned c) (i : Nat) (res : Int) :
    Poisoned (c.performAt i res) := by
  obtain ⟨j, sqe, bad, hj, hbad⟩ := h
  unfold Copy.performAt
  split
  · next sqe' hi =>
    have hne : i ≠ j := by
      rintro rfl
      rw [hj] at hi
      cases hi
    refine ⟨j, sqe, bad, ?_, hbad⟩
    have hcontext : (if 0 < res then c.transfer sqe' res.toNat else c).context
        = c.context := by
      split
      · exact transfer_context c sqe' res.toNat
      · rfl
    simp only [hcontext]
    rw [List.getElem?_set_ne hne]
    exact hj
  · exact ⟨j, sqe, bad, hj, hbad⟩

private theorem performAt_poisons {i : Nat} {res : Int} {sqe : Sqe}
    (hi : c.context.flights[i]? = some ⟨sqe, none⟩) (hres : res ≤ 0) :
    Poisoned (c.performAt i res) := by
  refine ⟨i, sqe, res, ?_, hres⟩
  obtain ⟨hlt, -⟩ := List.getElem?_eq_some_iff.1 hi
  simp only [Copy.performAt, hi, if_neg (Int.not_lt.2 hres)]
  exact List.getElem?_set_self hlt

private theorem steadied_perform (calm t : Nat) (sqe : Sqe) :
    (kernel.steadied calm).perform t sqe
      = (kernel.perform t sqe).filter (0 < ·) := rfl

/-- The kernel performing what it likes: the steadied one does the same,
or a request is poisoned. -/
theorem letPerform_steadied (kernel : Kernel) (calm : Nat) (c : Copy) :
    (Poisoned c → Poisoned (c.letPerform kernel))
      ∧ (c.letPerform (kernel.steadied calm) = c.letPerform kernel
        ∨ Poisoned (c.letPerform kernel)) := by
  unfold Copy.letPerform
  generalize List.range c.context.flights.length = indexes
  -- one request after the other, the state going along
  induction indexes generalizing c with
  | nil => exact ⟨id, .inl rfl⟩
  | cons i rest ih =>
      simp only [List.foldl_cons]
      cases hi : c.context.flights[i]? with
      | none => exact ih c
      | some flight =>
          simp only [steadied_perform calm c.clock]
          cases hp : kernel.perform c.clock flight.sqe with
          | none => exact ih c
          | some res =>
              obtain ⟨hkeep, hsame⟩ := ih (c.performAt i res)
              refine ⟨fun h => hkeep (h.performAt i res), ?_⟩
              by_cases hpos : 0 < res
              · have hfilter : (some res).filter (0 < ·) = some res := by
                  simp [hpos]
                simp only [hfilter]
                exact hsame
              have hfilter : (some res).filter (0 < ·) = none := by
                simpa using Int.not_lt.1 hpos
              simp only [hfilter]
              obtain ⟨sqe, done⟩ := flight
              cases done with
              | none => exact .inr (hkeep (performAt_poisons hi (by omega)))
              | some old =>
                  -- a request that is already performed stays as it is
                  have hid : c.performAt i res = c := by
                    simp only [Copy.performAt, hi]
                  rw [hid] at hsame ⊢
                  exact hsame

/-- Requests are only added. -/
theorem Poisoned.congr (h : Poisoned c)
    (hflights : c.context.flights <+: c'.context.flights) : Poisoned c' := by
  obtain ⟨i, sqe, res, hi, hres⟩ := h
  obtain ⟨more, hmore⟩ := hflights
  refine ⟨i, sqe, res, ?_, hres⟩
  rw [← hmore, List.getElem?_append_left (List.getElem?_eq_some_iff.1 hi).1]
  exact hi

-- ============================================================ the lambdas

/-- A step that ended well keeps the poison, and without any it is the
step of the steadied kernel. -/
structure Follows (c : Copy) (steadied : Except Status Unit × Copy)
    (c' : Copy) : Prop where
  keeps : Poisoned c → Poisoned c'
  same : steadied = (.ok (), c') ∨ Poisoned c'

/-- A step the kernel has no part in. -/
theorem Follows.alone {step : Except Status Unit × Copy}
    (hflights : c'.context.flights = c.context.flights)
    (h : step = (.ok (), c')) : Follows c step c' :=
  ⟨fun hpoison => hpoison.congr (hflights ▸ List.prefix_refl _), .inl h⟩

/-- One step after another. -/
theorem Follows.andThen {r : Except Status Unit × Copy} {c₁ : Copy}
    {step : Copy → Except Status Unit × Copy} (h : Follows c r c₁)
    (h' : Follows c₁ (step c₁) c') : Follows c (andThen r step) c' := by
  refine ⟨fun hpoison => h'.keeps (h.keeps hpoison), ?_⟩
  rcases h.same with rfl | hpoison
  · exact h'.same
  · exact .inr (h'.keeps hpoison)

variable {entries : Nat} (calm : Nat)

theorem flushLoop_follows (fuel : Nat) : ∀ c : Copy, Balanced entries c →
    c.queued ≤ fuel → flushLoop kernel fuel c = (.ok (), c') →
    Follows c (flushLoop (kernel.steadied calm) fuel c) c' := by
  induction fuel with
  | zero =>
      intro c _ _ hrun
      cases hrun
      exact .alone rfl rfl
  | succ fuel ih =>
      intro c h hle hrun
      rw [flushLoop] at hrun ⊢
      by_cases hq : c.queued = 0
      · rw [if_pos hq] at hrun ⊢
        cases hrun
        exact .alone rfl rfl
      rw [if_neg hq] at hrun ⊢
      simp only [Copy.submit] at hrun ⊢
      have hb := (letPerform_sameRing kernel c).balanced h
      have hqueued := (letPerform_sameRing kernel c).queued
      obtain ⟨hkeep, hsame⟩ := letPerform_steadied kernel calm c
      obtain ⟨c₁, hc₁⟩ : ∃ c₁, c.letPerform kernel = c₁ := ⟨_, rfl⟩
      simp only [hc₁] at hrun hb hqueued hkeep hsame
      obtain ⟨n, hn⟩ : ∃ n, kernel.submit c₁.clock c₁.context.sq.length = n :=
        ⟨_, rfl⟩
      simp only [hn] at hrun
      by_cases hneg : n < 0
      · rw [if_pos hneg] at hrun
        cases hrun
      rw [if_neg hneg] at hrun
      by_cases hbad : n = 0 ∨ c₁.queued < n.toNat
      · rw [if_pos hbad] at hrun
        cases hrun
      rw [if_neg hbad] at hrun
      have hsq := hb.queued
      have hin := hb.inFlight
      have hrest := ih (c₁.submitted n.toNat) ⟨hb.entries, ?_, ?_⟩ ?_ hrun
      · have hadded : Poisoned c₁ → Poisoned c' := fun hpoison =>
          hrest.keeps (hpoison.congr (List.prefix_append _ _))
        refine ⟨fun hpoison => hadded (hkeep hpoison), ?_⟩
        rcases hsame with hsame | hpoison
        · have hsubmit : (kernel.steadied calm).submit c₁.clock
              c₁.context.sq.length = n := by
            simp only [Kernel.steadied, hn]
            rw [if_pos]
            omega
          simp only [hsame, hsubmit, if_neg hneg, if_neg hbad]
          exact hrest.same
        · exact .inr (hadded hpoison)
      · simp only [Copy.submitted, List.length_drop]
        omega
      · simp only [Copy.submitted, List.length_append, List.length_map,
          List.length_take]
        omega
      · simp only [Copy.submitted]
        omega

private theorem flush_follows (h : Balanced entries c)
    (hrun : flush kernel c = (.ok (), c')) :
    Follows c (flush (kernel.steadied calm) c) c' :=
  flushLoop_follows calm c.queued c h (Nat.le_refl _) hrun

private theorem submitRequest_flights {i : Nat} {w : Bool}
    (hrun : submitRequest i w c = (.ok (), c')) :
    c'.context.flights = c.context.flights := by
  unfold submitRequest at hrun
  split at hrun
  · cases hrun
  · cases hrun
    rfl

private theorem submitRequest_follows {i : Nat} {w : Bool}
    (hrun : submitRequest i w c = (.ok (), c')) :
    Follows c (submitRequest i w c) c' :=
  .alone (submitRequest_flights hrun) hrun

private theorem hashLoop_follows (fuel : Nat) : ∀ c : Copy,
    hashLoop kernel args fuel c = (.ok (), c') →
    Follows c (hashLoop (kernel.steadied calm) args fuel c) c' := by
  induction fuel with
  | zero =>
      intro c hrun
      cases hrun
      exact .alone rfl rfl
  | succ fuel ih =>
      intro c hrun
      rw [hashLoop] at hrun ⊢
      by_cases hlt : c.nextHash < args.chunkCount
      · rw [if_pos hlt] at hrun ⊢
        cases hfind : c.slots.findIdx? fun slot =>
            slot.phase = .ready ∧ slot.sequence = c.nextHash with
        | none =>
            simp only [hfind] at hrun ⊢
            cases hrun
            exact .alone rfl rfl
        | some index =>
            simp only [hfind] at hrun ⊢
            obtain ⟨hkeep, hsame⟩ := letPerform_steadied kernel calm c
            obtain ⟨c₁, hc₁⟩ : ∃ c₁, c.letPerform kernel = c₁ := ⟨_, rfl⟩
            simp only [hc₁] at hrun hkeep hsame
            generalize hslot : c₁.tick.slot index = slot at hrun
            cases hhash : c₁.tick.hasher.update
                (slot.bytes.take slot.length) with
            | error e =>
                simp only [hhash] at hrun
                cases hrun
            | ok hasher =>
                simp only [hhash] at hrun
                split at hrun
                · cases hrun
                · next c₂ hsubmit =>
                  have hrest := ih c₂ hrun
                  have hkept : Poisoned c₁ → Poisoned c' := by
                    refine fun hpoison => hrest.keeps (hpoison.congr ?_)
                    rw [submitRequest_flights hsubmit]
                    exact List.prefix_refl _
                  refine ⟨fun hpoison => hkept (hkeep hpoison), ?_⟩
                  rcases hsame with hsame | hpoison
                  · simp only [hsame, hslot, hhash, hsubmit]
                    exact hrest.same
                  · exact .inr (hkept hpoison)
      · rw [if_neg hlt] at hrun ⊢
        cases hrun
        exact .alone rfl rfl

theorem hashReady_follows (hrun : hashReady kernel args c = (.ok (), c')) :
    Follows c (hashReady (kernel.steadied calm) args c) c' :=
  hashLoop_follows calm _ c hrun

private theorem finishTransfer_flights {i : Nat} {w : Bool}
    (hrun : finishTransfer args i w c = (.ok (), c')) :
    c'.context.flights = c.context.flights := by
  unfold finishTransfer at hrun
  simp only at hrun
  split at hrun
  · split at hrun
    · unfold startRead at hrun
      exact (submitRequest_flights hrun).trans rfl
    · cases hrun
      rfl
  · cases hrun
    rfl

/-- A completion. -/
theorem complete_follows {userData : Nat} {res : Int}
    (h : Balanced entries c)
    (hrun : complete kernel args userData res c = (.ok (), c')) :
    0 < res ∧ Follows c (complete (kernel.steadied calm) args userData res c)
      c' := by
  have hb : ∀ i slot, Balanced entries (c.setSlot i slot) := fun _ _ =>
    ⟨h.entries, h.queued, h.inFlight⟩
  unfold complete at hrun ⊢
  simp only at hrun ⊢
  generalize hslot : c.slot (userData / 2) = slot at hrun ⊢
  by_cases h₁ : c.slots.length ≤ userData / 2
  · rw [if_pos h₁] at hrun
    cases hrun
  rw [if_neg h₁] at hrun ⊢
  by_cases h₂ : slot.phase
      ≠ (if (userData % 2 == 1) = true then Phase.writing else .reading)
  · rw [if_pos h₂] at hrun
    cases hrun
  rw [if_neg h₂] at hrun ⊢
  by_cases h₃ : res < 0
  · rw [if_pos h₃] at hrun
    cases hrun
  rw [if_neg h₃] at hrun ⊢
  by_cases h₄ : res = 0 ∨ slot.length - slot.progress < res.toNat
  · rw [if_pos h₄] at hrun
    cases hrun
  rw [if_neg h₄] at hrun ⊢
  refine ⟨by omega, ?_⟩
  -- what follows has the flights of `c`
  have hstart : ∀ i slot {r : Except Status Unit × Copy},
      Follows (c.setSlot i slot) r c' → Follows c r c' :=
    fun _ _ _ h => ⟨h.keeps, h.same⟩
  refine hstart (userData / 2)
    { slot with progress := slot.progress + res.toNat } ?_
  split at hrun
  · next hshort =>
    rw [if_pos hshort]
    obtain ⟨c₁, hsubmit, hflush⟩ := andThen_ok hrun
    exact (submitRequest_follows hsubmit).andThen
      (flush_follows calm (submitRequest_balanced (hb _ _) hsubmit) hflush)
  · next hwhole =>
    rw [if_neg hwhole]
    obtain ⟨c₂, hhash, hflush⟩ := andThen_ok hrun
    obtain ⟨c₁, hfinish, hhash⟩ := andThen_ok hhash
    have h₁ := finishTransfer_balanced (hb _ _) hfinish
    have hstart := Follows.alone (finishTransfer_flights hfinish) hfinish
    exact (hstart.andThen (hashReady_follows calm hhash)).andThen
      (flush_follows calm (hashLoop_balanced _ c₁ h₁ hhash) hflush)

-- ================================================================ waiting

/-- The completion that was delivered, or one that is still to come, says
that nothing was moved. -/
def Doomed (answer : Except Nat (Nat × Int)) (c : Copy) : Prop :=
  Poisoned c ∨ ∃ data, answer = .ok data ∧ data.2 ≤ 0

private theorem wait_keeps {answer : Except Nat (Nat × Int)}
    (hl : Poisoned (c.letPerform kernel))
    (hrun : c.wait kernel = (answer, c')) : Doomed answer c' := by
  unfold Copy.wait at hrun
  simp only at hrun
  split at hrun
  · cases hrun
    exact .inl hl
  · next i res _ =>
    obtain ⟨j, sqe, bad, hj, hbad⟩ := hl.performAt i res
    split at hrun
    · next sqe' res' hi =>
      cases hrun
      by_cases hij : j = i
      · -- the poisoned request itself
        subst hij
        rw [hj] at hi
        cases hi
        exact .inr ⟨_, rfl, hbad⟩
      · have hmem := List.mem_eraseIdx_iff_getElem?.2 ⟨j, hij, hj⟩
        obtain ⟨k, hk⟩ := List.mem_iff_getElem?.1 hmem
        exact .inl ⟨k, sqe, bad, hk, hbad⟩
    · cases hrun
      exact .inl ⟨j, sqe, bad, hj, hbad⟩

/-- What a wait says that is not a failure of its own, the steadied kernel
says as well, unless something went wrong. -/
theorem wait_steadied {answer : Except Nat (Nat × Int)}
    (hrun : c.wait kernel = (answer, c'))
    (hintr : ∀ errno, answer = .error errno → errno = eINTR) :
    (∀ᶠ calm in atTop, c.wait (kernel.steadied calm) = (answer, c'))
      ∨ Doomed answer c' := by
  -- a request that has failed is passed on
  by_cases hpoison : Poisoned (c.letPerform kernel)
  · exact .inr (wait_keeps hpoison hrun)
  have hsame : ∀ calm,
      c.letPerform (kernel.steadied calm) = c.letPerform kernel := fun calm =>
    (letPerform_steadied kernel calm c).2.resolve_right hpoison
  unfold Copy.wait at hrun ⊢
  simp only [hsame] at hrun ⊢
  generalize c.letPerform kernel = c₁ at hrun ⊢
  -- from some time on, this wait is before the kernel is steadied
  have hlate : ∀ᶠ calm in atTop, ¬calm ≤ c₁.clock := by
    filter_upwards [eventually_gt_atTop c₁.clock] with calm hlt
    exact Nat.not_le.2 hlt
  cases hwait : kernel.wait c₁.clock c₁.context.flights with
  | failed errno =>
      rw [hwait] at hrun
      cases hrun
      have herrno := hintr errno rfl
      left
      filter_upwards [hlate] with calm hcalm
      simp only [Kernel.steadied, if_neg hcalm, hwait, herrno, if_true]
  | completes i res =>
      simp only [hwait] at hrun
      cases hi : c₁.context.flights[i]? with
      | none =>
          have hid : c₁.performAt i res = c₁ := by
            simp only [Copy.performAt, hi]
          simp only [hid, hi] at hrun
          cases hrun
          left
          filter_upwards [hlate] with calm hcalm
          simp only [Kernel.steadied, if_neg hcalm, hwait, hi]
      | some flight =>
          obtain ⟨sqe, done⟩ := flight
          cases done with
          | some old =>
              have hid : ∀ res, c₁.performAt i res = c₁ := by
                intro res
                simp only [Copy.performAt, hi]
              left
              filter_upwards [hlate] with calm hcalm
              simp only [Kernel.steadied, if_neg hcalm, hwait, hi, hid]
                at hrun ⊢
              exact hrun
          | none =>
              by_cases hpos : 0 < res
              · left
                filter_upwards [hlate] with calm hcalm
                simp only [Kernel.steadied, if_neg hcalm, hwait, hi,
                  if_pos hpos]
                exact hrun
              · -- the request fails now, and is delivered at once
                obtain ⟨hlt, -⟩ := List.getElem?_eq_some_iff.1 hi
                have hset : (c₁.performAt i res).context.flights[i]?
                    = some ⟨sqe, some res⟩ := by
                  simp only [Copy.performAt, hi, if_neg hpos]
                  exact List.getElem?_set_self hlt
                simp only [hset] at hrun
                cases hrun
                exact .inr (.inr ⟨_, rfl, Int.not_lt.1 hpos⟩)

-- ================================================================ the loop

/-- A completion that says nothing was moved ends in a failure. -/
theorem complete_doomed {userData : Nat} {res : Int} (hres : res ≤ 0)
    (h : Balanced entries c) :
    complete kernel args userData res c ≠ (.ok (), c') := by
  intro hrun
  obtain ⟨hpos, -⟩ := complete_follows 0 h hrun
  omega

/-- With a poisoned request in flight the loop cannot end well. -/
theorem completionLoop_poisoned (fuel : Nat) : ∀ c : Copy,
    Balanced entries c → Poisoned c →
    completionLoop kernel args fuel (.ok (), c) ≠ (some (.ok ()), c') := by
  induction fuel with
  | zero =>
      intro c _ _ hrun
      cases hrun
  | succ fuel ih =>
      intro c h hpoison hrun
      rw [completionLoop] at hrun
      have hl := (letPerform_steadied kernel 0 c).1 hpoison
      split at hrun
      · next hzero =>
        obtain ⟨i, sqe, res, hi, -⟩ := hpoison
        obtain ⟨hlt, -⟩ := List.getElem?_eq_some_iff.1 hi
        have hin := h.inFlight
        omega
      · split at hrun
        · next hwait =>
          split at hrun
          · rcases wait_keeps hl hwait with hpoison' | ⟨data, hdata, -⟩
            · exact ih _ (wait_error_balanced h hwait).1 hpoison' hrun
            · cases hdata
          · cases hrun
        · next userData res c₁ hwait =>
          have hb := (wait_balanced h hwait).1
          simp only at hrun
          cases hstep : complete kernel args userData res
              { c₁ with inFlight := c₁.inFlight - 1 } with
          | mk r c₂ =>
              rw [hstep] at hrun
              cases r with
              | error e => exact completionLoop_error fuel c₂ e hrun
              | ok u =>
                  rcases wait_keeps hl hwait with hpoison' | ⟨data, hdata, hres⟩
                  · have hfollow := (complete_follows 0 hb hstep).2
                    exact ih c₂ (complete_balanced hb hstep).1
                      (hfollow.keeps hpoison') hrun
                  · cases hdata
                    exact complete_doomed hres hb hstep

/-- A loop that ends well runs the same under the steadied kernel. -/
theorem completionLoop_steadied (fuel : Nat) : ∀ c : Copy,
    Balanced entries c →
    completionLoop kernel args fuel (.ok (), c) = (some (.ok ()), c') →
    ∀ᶠ calm in atTop, completionLoop (kernel.steadied calm) args fuel
      (.ok (), c) = (some (.ok ()), c') := by
  induction fuel with
  | zero =>
      intro c _ hrun
      cases hrun
  | succ fuel ih =>
      intro c h hrun
      simp only [completionLoop] at hrun ⊢
      by_cases hzero : c.inFlight = 0
      -- nothing is under way
      · rw [if_pos hzero] at hrun
        simp only [if_pos hzero]
        exact .of_forall fun _ => hrun
      rw [if_neg hzero] at hrun
      simp only [if_neg hzero]
      cases hwait : c.wait kernel with
      | mk answer c₁ =>
          simp only [hwait] at hrun
          cases answer with
          -- the wait was interrupted, so it goes on as before
          | error errno =>
              have hb := (wait_error_balanced h hwait).1
              by_cases hintr : errno = eINTR
              · simp only [if_pos hintr] at hrun
                rcases wait_steadied hwait
                  (fun _ he => by cases he; exact hintr) with hsame | hdoom
                · filter_upwards [hsame, ih c₁ hb hrun] with calm hsame hrest
                  simp only [hsame, if_pos hintr]
                  exact hrest
                · rcases hdoom with hpoison | ⟨data, hdata, -⟩
                  · exact absurd hrun (completionLoop_poisoned fuel c₁ hb hpoison)
                  · cases hdata
              · simp only [if_neg hintr] at hrun
                cases hrun
          -- a completion was taken, and dealt with
          | ok data =>
              obtain ⟨userData, res⟩ := data
              have hb := (wait_balanced h hwait).1
              simp only at hrun
              cases hstep : complete kernel args userData res
                  { c₁ with inFlight := c₁.inFlight - 1 } with
              | mk r c₂ =>
                  rw [hstep] at hrun
                  cases r with
                  | error e => exact absurd hrun (completionLoop_error fuel c₂ e)
                  | ok u =>
                      have hb₂ := (complete_balanced hb hstep).1
                      have hnot := fun hpoison =>
                        completionLoop_poisoned fuel c₂ hb₂ hpoison hrun
                      rcases wait_steadied hwait (fun _ he => by cases he)
                        with hsame | hdoom
                      · filter_upwards [hsame, ih c₂ hb₂ hrun]
                          with calm hsame hrest
                        have hfollow := (complete_follows calm hb hstep).2
                        have hstep' := hfollow.same.resolve_right hnot
                        simp only [hsame, hstep']
                        exact hrest
                      · rcases hdoom with hpoison | ⟨data, hdata, hres⟩
                        · have hfollow := (complete_follows 0 hb hstep).2
                          exact absurd (hfollow.keeps hpoison) hnot
                        · cases hdata
                          exact absurd hstep (complete_doomed hres hb)

/-- So does a whole copy. -/
theorem runCopy_steadied {fuel : Nat} (h : Balanced entries c)
    (hrun : runCopy kernel args fuel c = (some (.ok ()), c')) :
    ∀ᶠ calm in atTop,
      runCopy (kernel.steadied calm) args fuel c = (some (.ok ()), c') := by
  unfold runCopy at hrun ⊢
  cases hreads : startReads args (List.range args.slotCount) c with
  | mk r c₀ =>
      simp only [hreads, andThen] at hrun ⊢
      cases r with
      | error e => exact absurd hrun (completionLoop_error fuel c₀ e)
      | ok u =>
          simp only at hrun ⊢
          have hb := startReads_balanced _ c h hreads
          cases hflush : flush kernel c₀ with
          | mk r c₁ =>
              rw [hflush] at hrun
              cases r with
              | error e => exact absurd hrun (completionLoop_error fuel c₁ e)
              | ok u =>
                  have hb₁ := (flush_balanced hb hflush).1
                  filter_upwards [completionLoop_steadied fuel c₁ hb₁ hrun]
                    with calm hloop
                  have hsame := (flush_follows calm hb hflush).same
                  rw [hsame.resolve_right fun hpoison =>
                    completionLoop_poisoned fuel c₁ hb₁ hpoison hrun]
                  exact hloop

-- ============================================================ the whole call

/-- Whatever the kernel does, as long as it is honest: a result that is
returned has the size and the digest of the source, whose bytes are then
in the target. -/
theorem tryIoUringCopyAndHash_sound {blake3 : Bytes → Digest}
    {disabled : Option Bytes} {fuel : Nat} {th th' : Thread} {source : Bytes}
    {clock : Nat} {result : CopyResult} {w' : World} (hk : kernel.Honest)
    (hth : th.Reachable) (hargs : args.Accepted)
    (hsize : source.length = args.sourceSize)
    (hrun : tryIoUringCopyAndHash kernel args blake3 disabled fuel th
      ⟨source, [], .fresh, clock⟩ = (some (.ok (some result)), th', w')) :
    result = ⟨source.length, blake3 source⟩ ∧ w'.target = source := by
  unfold tryIoUringCopyAndHash at hrun
  simp only [hargs.valid, Bool.not_true, Bool.false_eq_true, if_false] at hrun
  by_cases hdisabled : disabled = some (text "1")
  · rw [if_pos hdisabled] at hrun
    cases hrun
  rw [if_neg hdisabled] at hrun
  by_cases hring : (th.ring kernel args.queueDepth).result ≠ 0
  · rw [if_pos hring] at hrun
    split at hrun <;> cases hrun
  rw [if_neg hring] at hrun
  cases hcopy : runCopy kernel args fuel
      (.begin args ⟨source, [], .fresh, clock⟩
        (th.ring kernel args.queueDepth)) with
  | mk r c =>
      rw [hcopy] at hrun
      match r with
      | none => cases hrun
      | some (.error e) => cases hrun
      | some (.ok ()) =>
          have hb : Balanced (max 8 args.queueDepth) (.begin args
              ⟨source, [], .fresh, clock⟩
              (th.ring kernel args.queueDepth)) :=
            begin_balanced (hth.clean.ring kernel args.queueDepth) _
          obtain ⟨calm, hcalm⟩ := (runCopy_steadied hb hcopy).exists
          -- the same call under the steadied kernel
          let σ : Setting := {
            kernel := kernel.steadied calm, blake3, args, disabled
            thread := th, source, clock, moves := hk.steadied calm
            size := hsize, enabled := hdisabled, reachable := hth
            ring := not_not.1 hring }
          have hsame : σ.run fuel = (some (.ok (some result)), th', w') := by
            rw [σ.run_eq hargs]
            show conclude args blake3 (runCopy (kernel.steadied calm) args fuel
              (.begin args ⟨source, [], .fresh, clock⟩
                (th.ring kernel args.queueDepth))) = _
            rw [hcalm]
            exact hrun
          obtain ⟨bound, th'', w'', hret, htarget, -⟩ := σ.returns hargs
          have hmore := σ.run_mono hargs (Nat.le_max_left fuel bound) hsame
          rw [hret _ (Nat.le_max_right fuel bound)] at hmore
          cases hmore
          exact ⟨rfl, htarget⟩

end PhotoBridge.IoUring
