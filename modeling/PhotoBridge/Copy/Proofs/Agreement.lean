/-
The io_uring copy agrees with the plain one for all arguments it accepts,
and not for the larger chunk sizes, which it refuses.
-/
import PhotoBridge.Copy.Agreement
import PhotoBridge.Copy.Proofs.CopyAndHash
import PhotoBridge.Copy.Proofs.IoUring
import PhotoBridge.Copy.Proofs.Ring

namespace PhotoBridge.IoUring

open Overwrite

variable {kernel : Kernel} {src : Bytes} {args : Args} {th th' : Thread}
  {c c' : Copy}

-- ====================================================== the cached ring

/-- The cached ring is empty, and sized for its depth. -/
def Thread.Clean (th : Thread) : Prop :=
  ∀ context, th.context = some context → context.sq = []
    ∧ context.flights = [] ∧ context.entries = max 8 th.depth

theorem Thread.Clean.ring (h : th.Clean) (kernel : Kernel) (depth : Nat) :
    (th.ring kernel depth).sq = [] ∧ (th.ring kernel depth).flights = []
      ∧ (th.ring kernel depth).entries = max 8 depth := by
  unfold Thread.ring
  cases hc : th.context with
  | none => exact ⟨rfl, rfl, rfl⟩
  | some context =>
      simp only
      split
      · next heq =>
        rw [← heq]
        exact h context hc
      · exact ⟨rfl, rfl, rfl⟩

/-- A copy that ends well leaves the ring as it found it: empty. -/
theorem runCopy_balanced {entries fuel : Nat} (h : Balanced entries c)
    (hrun : runCopy kernel args fuel c = (some (.ok ()), c')) :
    c'.context.sq = [] ∧ c'.context.flights = []
      ∧ c'.context.entries = entries := by
  unfold runCopy at hrun
  cases hstart : andThen (startReads args (List.range args.slotCount) c)
      (flush kernel) with
  | mk r c₁ =>
      rw [hstart] at hrun
      cases r with
      | error e => exact absurd hrun (completionLoop_error fuel c₁ e)
      | ok u =>
          obtain ⟨c₀, hreads, hflush⟩ := andThen_ok hstart
          obtain ⟨hb, hq⟩ := flush_balanced
            (startReads_balanced _ c h hreads) hflush
          obtain ⟨hb', hq', hin⟩ :=
            completionLoop_balanced fuel c₁ hb hq hrun
          have hsq := hb'.queued
          have hflights := hb'.inFlight
          rw [hq'] at hsq
          rw [hin] at hflights
          exact ⟨List.eq_nil_of_length_eq_zero hsq.symm,
            List.eq_nil_of_length_eq_zero hflights.symm, hb'.entries⟩

theorem begin_balanced {entries : Nat} {context : Context}
    (h : context.sq = [] ∧ context.flights = [] ∧ context.entries = entries)
    (w : World) : Balanced entries (.begin args w context) := by
  refine ⟨h.2.2, ?_, ?_⟩
  · show 0 = context.sq.length
    rw [h.1]
    rfl
  · show 0 = context.flights.length
    rw [h.2.1]
    rfl

/-- The ring is kept only when nothing failed before the checks. -/
theorem conclude_thread {blake3 : Bytes → Digest} {w : World}
    {result : Option (Except Status Unit)}
    {r : Except Status (Option CopyResult)}
    (h : conclude args blake3 (result, c) = (some r, th', w)) :
    th' = ⟨none, args.queueDepth⟩
      ∨ result = some (.ok ()) ∧ th' = ⟨some c.context, args.queueDepth⟩ := by
  match result with
  | none => cases h
  | some (.error e) =>
      cases h
      exact .inl rfl
  | some (.ok ()) =>
      refine .inr ⟨rfl, ?_⟩
      simp only [conclude] at h
      split at h
      · cases h
        rfl
      · split at h <;> cases h <;> rfl

/-- Whatever was called before, the cached ring is empty. -/
theorem Thread.Reachable.clean (h : th.Reachable) : th.Clean := by
  induction h with
  | start =>
      intro context hc
      cases hc
  | @call kernel args blake3 disabled fuel th th' w w' r _ hrun ih =>
      have hring := ih.ring kernel args.queueDepth
      unfold tryIoUringCopyAndHash at hrun
      split at hrun
      · cases hrun
        exact ih
      split at hrun
      · cases hrun
        exact ih
      simp only at hrun
      split at hrun
      · -- no ring: what is cached is the failed one
        have hth : th' = ⟨some (th.ring kernel args.queueDepth),
            args.queueDepth⟩ := by
          split at hrun <;> cases hrun <;> rfl
        subst hth
        intro context hc
        cases hc
        exact hring
      cases hcopy : runCopy kernel args fuel
          (.begin args w (th.ring kernel args.queueDepth)) with
      | mk result c =>
          rw [hcopy] at hrun
          rcases conclude_thread hrun with hth | ⟨rfl, hth⟩
          · subst hth
            intro context hc
            cases hc
          · subst hth
            intro context hc
            cases hc
            exact runCopy_balanced (begin_balanced hring w) hcopy

-- ========================================================= the start

/-- The state before the first read satisfies the invariant. -/
theorem begin_inv {context : Context} {source : Bytes} {clock : Nat}
    (h : context.sq = [] ∧ context.flights = []
      ∧ context.entries = max 8 args.queueDepth)
    (hsize : source.length = args.sourceSize) :
    Inv source args none (.begin args ⟨source, [], .fresh, clock⟩ context) := by
  -- every slot is free and empty, and nothing is queued or under way
  have hslot : ∀ (i : Nat) s, (Copy.begin args ⟨source, [], .fresh, clock⟩
      context).slots[i]? = some s → s = .sized args.chunkSize := by
    intro i s hs
    exact (List.eq_of_mem_replicate (List.mem_of_getElem? hs))
  have hfree : ∀ (i : Nat) s, (Copy.begin args ⟨source, [], .fresh, clock⟩
      context).slots[i]? = some s → s.phase = .free := by
    intro i s hs
    rw [hslot i s hs]
    rfl
  have hreq : (Copy.begin args ⟨source, [], .fresh, clock⟩
      context).requests = [] := by
    show context.flights.map (·.sqe) ++ context.sq = []
    rw [h.1, h.2.1]
    rfl
  have hflights : (Copy.begin args ⟨source, [], .fresh, clock⟩
      context).context.flights = [] := h.2.1
  have hweight : ∀ f : BufferSlot → Nat, f (.sized args.chunkSize) = 0 →
      total f (Copy.begin args ⟨source, [], .fresh, clock⟩
        context).slots = 0 := by
    intro f hf
    apply total_eq_zero
    intro s hs
    rw [List.eq_of_mem_replicate hs]
    exact hf
  refine ⟨⟨rfl, hsize, ?_⟩, ⟨Nat.le_refl _, Nat.zero_le _, ?_, ?_, ?_, ?_⟩,
    ⟨?_, ?_, ?_, ?_, ?_, ?_, ?_, ?_⟩, ⟨?_, ?_⟩, ⟨rfl, Nat.zero_le _, ?_⟩⟩
  -- the buffers, the order, the requests, the counts and the target
  · intro i s hs
    rw [hslot i s hs]
    refine ⟨List.length_replicate, fun hp => absurd rfl hp, fun hp => ?_,
      fun hp => ?_, fun hp => ?_⟩ <;> cases hp
  · intro i s hs hp
    exact absurd (hfree i s hs) hp
  · intro i s hs hu
    unfold Unhashed at hu
    rw [hfree i s hs] at hu
    rcases hu with hu | hu <;> cases hu
  · intro i s hs hp
    exact absurd (hfree i s hs) hp
  · intro k _ hk
    exact absurd hk (Nat.not_lt_zero k)
  · exact List.length_replicate
  · show args.queueDepth ≤ context.entries
    rw [h.2.2]
    exact Nat.le_max_right _ _
  · show 0 = context.sq.length
    rw [h.1]
    rfl
  · rw [hreq]
    intro r hr
    cases hr
  · rw [hflights]
    intro f hf
    cases hf
  · rw [hreq]
    exact List.nodup_nil
  · rintro i s hs ⟨w, hw⟩ _
    rw [hfree i s hs] at hw
    exact absurd hw.symm busyPhase_ne_free
  · intro i hi
    cases hi
  · rw [hweight inUse rfl]
    rfl
  · rw [hweight held rfl]
    exact frontier_zero.symm
  · intro pos hpos
    exact absurd (frontier_zero ▸ hpos) (Nat.not_lt_zero pos)

-- =========================================================== the end

/-- Nothing in flight and nothing queued: everything is copied. -/
theorem Between.done (h : Between src args c) (hin : c.inFlight = 0)
    (hc : 0 < args.chunkSize) (hdepth : 0 < args.queueDepth) :
    c.completed = args.chunkCount ∧ c.nextHash = args.chunkCount
      ∧ c.bytesCopied = args.sourceSize ∧ c.target = src
      ∧ c.hasher = ⟨(List.range args.chunkCount).map
          (piece src args.chunkSize), false⟩ := by
  have hinv := h.steady.inv
  have hflights : c.context.flights = [] := by
    have hcount := h.steady.inFlight
    unfold InFlightOk at hcount
    rw [hin] at hcount
    exact List.eq_nil_of_length_eq_zero hcount.symm
  have hsq : c.context.sq = [] := by
    have hcount := hinv.tickets.queued
    rw [h.queued] at hcount
    exact List.eq_nil_of_length_eq_zero hcount.symm
  have hreq : c.requests = [] := by
    unfold Copy.requests
    rw [hflights, hsq]
    rfl
  have hidle : ∀ (i : Nat) s, c.slots[i]? = some s →
      ∀ w, s.phase ≠ busyPhase w := by
    intro i s hs w hw
    obtain ⟨r, hr, -⟩ := hinv.tickets.busy i s hs ⟨w, hw⟩ nofun
    rw [hreq] at hr
    cases hr
  have hhash : c.nextHash = c.nextRead := by
    by_contra hne
    have hle := hinv.sequence.hashed_le
    obtain ⟨i, s, hs, hseq, hun⟩ :=
      hinv.sequence.covered c.nextHash (Nat.le_refl _) (by omega)
    rcases hun with hp | hp
    · exact hidle i s hs false hp
    · exact h.hashed i s hs hp hseq
  have hfree : ∀ (i : Nat) s, c.slots[i]? = some s → s.phase = .free := by
    intro i s hs
    have hw := hidle i s hs true
    have hr := hidle i s hs false
    cases hp : s.phase with
    | free => rfl
    | reading => exact absurd hp hr
    | writing => exact absurd hp hw
    | ready =>
        have hge := hinv.sequence.ge_hash i s hs (.inr hp)
        have hlt := hinv.sequence.lt_read i s hs
          (by rw [hp]; exact Phase.noConfusion)
        omega
  have hread : c.nextRead = args.chunkCount := by
    by_cases hslots : args.chunkCount = 0
    · have hle := hinv.sequence.read_le
      omega
    · have hpos : 0 < c.slots.length := by
        rw [hinv.tickets.count]
        unfold Args.slotCount
        omega
      have hs := List.getElem?_eq_getElem hpos
      exact h.steady.full 0 _ hs (hfree 0 _ hs)
  have hzero : ∀ f : BufferSlot → Nat,
      (∀ s, s.phase = .free → f s = 0) → total f c.slots = 0 := by
    intro f hf
    apply total_eq_zero
    intro s hs
    obtain ⟨i, hi⟩ := List.getElem?_of_mem hs
    exact hf s (hfree i s hi)
  have huse := hzero inUse fun s hs => if_pos hs
  have hheld := hzero held fun s hs => if_pos hs
  have hcompleted := hinv.accounts.completed
  have hbytes := hinv.accounts.bytes
  rw [hread, frontier_chunkCount hc] at hbytes
  rw [← hinv.buffers.source]
  refine ⟨by omega, by omega, by omega, ?_, ?_⟩
  · apply List.ext_getElem?
    intro pos
    by_cases hlt : pos < args.sourceSize
    · rcases hinv.files.written pos (by
          rw [hread, frontier_chunkCount hc]
          exact hlt) with hw | ⟨i, s, hs, hp, -⟩
      · exact hw
      · exact absurd (hfree i s hs) hp
    · have htarget := hinv.files.target_le
      have hsource := hinv.buffers.size
      rw [List.getElem?_eq_none (by omega),
        List.getElem?_eq_none (by omega)]
  · rw [hinv.files.hasher, hhash, hread]

/-- The copy from the first read on. -/
theorem runCopy_spec (hk : kernel.Moves) (hc : 0 < args.chunkSize)
    (hdepth : 0 < args.queueDepth) {context : Context} {source : Bytes}
    (clock : Nat) (h : context.sq = [] ∧ context.flights = []
      ∧ context.entries = max 8 args.queueDepth)
    (hsize : source.length = args.sourceSize) :
    ∃ bound c, (∀ fuel, bound ≤ fuel → runCopy kernel args fuel
        (.begin args ⟨source, [], .fresh, clock⟩ context)
          = (some (.ok ()), c))
      ∧ c.completed = args.chunkCount ∧ c.nextHash = args.chunkCount
      ∧ c.bytesCopied = args.sourceSize ∧ c.target = source
      ∧ c.hasher = ⟨(List.range args.chunkCount).map
          (piece source args.chunkSize), false⟩ := by
  obtain ⟨c₁, hreads, hinv₁, hin₁, hreading⟩ := startReads_spec hc
    args.slotCount 0 (.begin args ⟨source, [], .fresh, clock⟩ context)
    (begin_inv h hsize) (begin_balanced h _).inFlight rfl
    (by rw [Nat.zero_add]; exact List.length_replicate)
    (by rw [Nat.zero_add]; exact Nat.min_le_right _ _) (by
      intro j s hs
      rw [if_neg (Nat.not_lt_zero j),
        List.eq_of_mem_replicate (List.mem_of_getElem? hs)]
      rfl)
  obtain ⟨c₂, hflush, hinv₂, hin₂, hcalm, hq⟩ := flush_spec hk hinv₁ hin₁
  have hfull : Full args c₁ := by
    intro i s hs hp
    rw [hreading i s hs] at hp
    cases hp
  have hhashed : Hashed c₁ := by
    intro i s hs hp
    rw [hreading i s hs] at hp
    cases hp
  have hbetween : Between source args c₂ :=
    ⟨⟨hinv₂, hin₂, hcalm.full hfull⟩, hcalm.hashed hhashed, hq⟩
  obtain ⟨bound, c, hloop, hend, hzero⟩ :=
    completionLoop_spec hk hc hbetween
  refine ⟨bound, c, ?_, hend.done hzero hc hdepth⟩
  intro fuel hfuel
  unfold runCopy
  rw [List.range_eq_range', hreads]
  simp only [andThen]
  rw [hflush]
  exact hloop fuel hfuel

/-- More fuel does not change a result. -/
theorem completionLoop_mono {r : Except Status Unit} (fuel : Nat) :
    ∀ x : Except Status Unit × Copy,
      completionLoop kernel args fuel x = (some r, c') →
      completionLoop kernel args (fuel + 1) x = (some r, c') := by
  induction fuel with
  | zero =>
      intro x h
      cases h
  | succ fuel ih =>
      intro x h
      obtain ⟨failure, c⟩ := x
      rw [completionLoop] at h ⊢
      split
      · next hzero =>
        rw [if_pos hzero] at h
        exact h
      · next hne =>
        rw [if_neg hne] at h
        cases hwait : c.wait kernel with
        | mk answer c₁ =>
            rw [hwait] at h
            cases answer with
            | error errno =>
                simp only at h ⊢
                split
                · next hintr =>
                  rw [if_pos hintr] at h
                  exact ih _ h
                · next hother =>
                  rw [if_neg hother] at h
                  exact h
            | ok data =>
                cases failure with
                | error e => exact ih _ h
                | ok u => exact ih _ h

private theorem runCopy_mono {r : Except Status Unit} {fuel more : Nat}
    (hle : fuel ≤ more) (h : runCopy kernel args fuel c = (some r, c')) :
    runCopy kernel args more c = (some r, c') := by
  unfold runCopy at h ⊢
  induction hle with
  | refl => exact h
  | step _ ih => exact completionLoop_mono _ _ ih

-- ======================================================== the agreement

/-- The arguments the function accepts. -/
def Args.Accepted (a : Args) : Prop :=
  0 ≤ a.sourceFd ∧ 0 ≤ a.targetFd ∧ 1 ≤ a.chunkSize
    ∧ a.chunkSize ≤ uint32Max ∧ 1 ≤ a.queueDepth ∧ a.queueDepth ≤ 16
    ∧ a.sourceSize ≤ int64Max

theorem Args.Accepted.valid {a : Args} (h : a.Accepted) : a.valid = true := by
  obtain ⟨h₁, h₂, h₃, h₄, h₅, h₆, h₇⟩ := h
  simp only [Args.valid, Bool.not_eq_true', Bool.or_eq_false_iff,
    decide_eq_false_iff_not, beq_eq_false_iff_ne]
  omega

/-- A call in the setting, once the ring is there. -/
theorem Setting.run_eq (σ : Setting) (h : σ.args.Accepted) (fuel : Nat) :
    σ.run fuel = conclude σ.args σ.blake3 (runCopy σ.kernel σ.args fuel
      (.begin σ.args σ.world
        (σ.thread.ring σ.kernel σ.args.queueDepth))) := by
  unfold Setting.run tryIoUringCopyAndHash
  simp only [h.valid, Bool.not_true, Bool.false_eq_true, if_false,
    σ.enabled, σ.ring, ne_eq, not_true_eq_false]

/-- The call ends well, with the source copied and hashed. -/
theorem Setting.returns (σ : Setting) (h : σ.args.Accepted) :
    ∃ bound th w, (∀ fuel, bound ≤ fuel →
        σ.run fuel = (some (.ok (some σ.expected)), th, w))
      ∧ w.target = σ.source
      ∧ w.hasher.updates = (List.range σ.args.chunkCount).map
          (piece σ.source σ.args.chunkSize) := by
  obtain ⟨-, -, hchunk, -, hdepth, -, -⟩ := id h
  obtain ⟨bound, c, hrun, hcompleted, hhash, hbytes, htarget, hhasher⟩ :=
    runCopy_spec σ.moves hchunk hdepth σ.clock
      (σ.reachable.clean.ring σ.kernel σ.args.queueDepth) σ.size
  have hpieces : ((List.range σ.args.chunkCount).map
      (piece σ.source σ.args.chunkSize)).flatten = σ.source := by
    rw [flatten_pieces, List.take_of_length_le]
    have hfront := frontier_chunkCount hchunk
    unfold Args.frontier at hfront
    have hsize := σ.size
    omega
  refine ⟨bound, ⟨some c.context, σ.args.queueDepth⟩, { c.toWorld with
    hasher := { c.hasher with finalized := true } }, ?_, htarget, ?_⟩
  · intro fuel hfuel
    rw [σ.run_eq h]
    unfold Setting.world
    rw [hrun fuel hfuel]
    simp only [conclude, hcompleted, hhash, hbytes, ne_eq, not_true_eq_false, or_self,
      if_false, hhasher, Hasher.finalize, Bool.false_eq_true, hpieces]
    unfold Setting.expected
    rw [σ.size]
  · show c.hasher.updates = _
    rw [hhasher]

/-- More fuel does not change what the call returns. -/
theorem Setting.run_mono (σ : Setting) (h : σ.args.Accepted)
    {fuel more : Nat} (hle : fuel ≤ more)
    {r : Except Status (Option CopyResult)} {th : Thread} {w : World}
    (hrun : σ.run fuel = (some r, th, w)) :
    σ.run more = (some r, th, w) := by
  rw [σ.run_eq h] at hrun ⊢
  cases hcopy : runCopy σ.kernel σ.args fuel (.begin σ.args σ.world
      (σ.thread.ring σ.kernel σ.args.queueDepth)) with
  | mk result c =>
      rw [hcopy] at hrun
      cases result with
      | none => cases hrun
      | some result =>
          rw [runCopy_mono hle hcopy]
          exact hrun

/-- A call that returns `nullopt` has done nothing. -/
theorem tryIoUringCopyAndHash_declines {blake3 : Bytes → Digest}
    {disabled : Option Bytes} {fuel : Nat} {w w' : World}
    (h : tryIoUringCopyAndHash kernel args blake3 disabled fuel th w
      = (some (.ok none), th', w')) :
    w' = w ∧ (th' = th ∨ th' = ⟨some (th.ring kernel args.queueDepth),
      args.queueDepth⟩) := by
  unfold tryIoUringCopyAndHash at h
  split at h
  · cases h
  split at h
  · cases h
    exact ⟨rfl, .inl rfl⟩
  simp only at h
  split at h
  · split at h
    · cases h
      exact ⟨rfl, .inr rfl⟩
    · cases h
  cases hcopy : runCopy kernel args fuel
      (.begin args w (th.ring kernel args.queueDepth)) with
  | mk result c =>
      rw [hcopy] at h
      match result with
      | none => cases h
      | some (.error e) => cases h
      | some (.ok ()) =>
          simp only [conclude] at h
          split at h
          · cases h
          · split at h <;> cases h

/-- The io_uring copy agrees with the plain copy on all arguments it
accepts. -/
theorem ioUring_agrees : Agrees Args.Accepted where
  returns := by
    intro σ h ops ho size hpos
    obtain ⟨bound, th, w, hrun, htarget, hhasher⟩ := σ.returns h
    obtain ⟨-, -, -, -, -, -, hmax⟩ := h
    refine ⟨max bound (σ.source.length + 1), ?_⟩
    intro fuel hfuel
    obtain ⟨w', hplain, htarget'⟩ := copyAndHash_spec ho σ.blake3 hpos
      σ.source σ.clock (σ.size ▸ hmax) (show σ.source.length < fuel by omega)
    exact ⟨th, w, w', hrun fuel (by omega), htarget, hhasher, hplain,
      htarget'⟩
  only := by
    intro σ h fuel r th w hrun
    obtain ⟨bound, th', w', hret, -⟩ := σ.returns h
    have hmore := σ.run_mono h (Nat.le_max_left fuel bound) hrun
    rw [hret _ (Nat.le_max_right fuel bound)] at hmore
    cases hmore
    rfl
  declines := by
    intro kernel args blake3 disabled fuel th w th' w' h
    exact tryIoUringCopyAndHash_declines h

-- ================================================ the refused chunk sizes

/-- A kernel that does everything at once and in order. -/
def promptKernel : Kernel where
  queueInit := fun _ => 0
  submit := fun _ n => n
  perform := fun _ _ => none
  wait := fun _ flights => match flights with
    | [] => .completes 0 0
    | flight :: _ => .completes 0 flight.sqe.length
  strerror := fun _ => []

theorem promptKernel_moves : promptKernel.Moves where
  submit := by
    intro t n hn
    exact ⟨Int.natCast_pos.2 hn, Int.le_refl _⟩
  perform := by
    intro t sqe res h
    cases h
  wait := by
    intro t flights hne hpos
    cases flights with
    | nil => exact absurd rfl hne
    | cons flight rest =>
        exact .inr ⟨0, flight, flight.sqe.length, rfl, rfl,
          Int.natCast_pos.2 (hpos flight (.head rest)), Int.le_refl _⟩
  settles := by
    intro t
    refine ⟨t, Nat.le_refl t, ?_⟩
    intro flights h
    cases flights <;> cases h

/-- An empty file and a chunk size of four gigabytes. -/
def hugeChunks : Setting where
  kernel := promptKernel
  blake3 := fun _ => .zero
  args := ⟨3, 4, 0, uint32Max + 1, 4⟩
  disabled := none
  thread := ⟨none, 0⟩
  source := []
  clock := 0
  moves := promptKernel_moves
  size := rfl
  enabled := nofun
  reachable := .start
  ring := rfl

/-- A chunk size above `UINT_MAX` is refused, so the copies do not agree on
every positive chunk size. -/
theorem not_agrees_anyChunk : ¬Agrees fun a => 0 ≤ a.sourceFd
    ∧ 0 ≤ a.targetFd ∧ 1 ≤ a.chunkSize ∧ 1 ≤ a.queueDepth
    ∧ a.queueDepth ≤ 16 ∧ a.sourceSize ≤ int64Max := by
  intro h
  have hrun : hugeChunks.run 0 = (some (.error (.invalid
      "invalid io_uring copy descriptors, size, or queue depth")),
      hugeChunks.thread, hugeChunks.world) := rfl
  have hok := h.only hugeChunks (by decide) 0 _ _ _ hrun
  cases hok

end PhotoBridge.IoUring
