/-
The io_uring copy from the first read to the digest: under a kernel that
keeps moving, every function of the engine keeps the invariant and returns
no error, and the completion loop ends.

# Why it ends

Every byte is read once and written once. `Copy.work` counts what is left
of that, over the slots and past `next_read`; a completion takes at least
one byte off it and nothing else changes it. Between two completions the
wait can only be interrupted, and not for ever.

# Why it is done when it ends

With nothing in flight no slot is reading or writing. The chunk
`next_hash` would be in a slot that is ready, and `hash_ready` leaves no
such slot; so all chunks read are hashed and written, and a slot stays
free only when there is nothing left to read.
-/
import Mathlib.Data.List.Perm.Basic
import PhotoBridge.Copy.Proofs.Moves

namespace PhotoBridge.IoUring

open Overwrite

variable {kernel : Kernel} {src : Bytes} {args : Args} {hole : Option Nat}
  {c c' c'' : Copy} {i : Nat} {s : BufferSlot} {w : Bool}

-- ======================================================= what is left to do

/-- The bytes a slot has still to move. -/
def todo (s : BufferSlot) : Nat :=
  match s.phase with
  | .free => 0
  | .reading => s.length - s.progress + s.length
  | .ready => s.length
  | .writing => s.length - s.progress

/-- The bytes the copy has still to move. -/
def Copy.work (args : Args) (c : Copy) : Nat :=
  total todo c.slots + 2 * (args.sourceSize - args.frontier c.nextRead)

/-- A slot is free only when there is nothing left to read. -/
def Full (args : Args) (c : Copy) : Prop :=
  ∀ (i : Nat) s, c.slots[i]? = some s → s.phase = .free →
    c.nextRead = args.chunkCount

/-- No slot waits for the hasher with the next chunk. -/
def Hashed (c : Copy) : Prop :=
  ∀ (i : Nat) s, c.slots[i]? = some s → s.phase = .ready →
    s.sequence ≠ c.nextHash

/-- Slots and positions are the same, apart from the bytes. -/
structure Calm (c c' : Copy) : Prop where
  keys : c'.slots.map BufferSlot.key = c.slots.map BufferSlot.key
  nextRead : c'.nextRead = c.nextRead
  nextHash : c'.nextHash = c.nextHash

namespace Calm

theorem refl (c : Copy) : Calm c c := ⟨rfl, rfl, rfl⟩

theorem trans (h : Calm c c') (h' : Calm c' c'') : Calm c c'' :=
  ⟨h'.keys.trans h.keys, h'.nextRead.trans h.nextRead,
    h'.nextHash.trans h.nextHash⟩

private theorem of_performed (h : Performed c c') : Calm c c' :=
  ⟨h.keys, h.nextRead, h.nextHash⟩

theorem before (h : Calm c c') {s' : BufferSlot}
    (hs : c'.slots[i]? = some s') :
    ∃ s, c.slots[i]? = some s ∧ s'.key = s.key := by
  have hmap : (c.slots.map BufferSlot.key)[i]? = some s'.key := by
    rw [← h.keys, List.getElem?_map, hs]
    rfl
  rw [List.getElem?_map, Option.map_eq_some_iff] at hmap
  obtain ⟨s, hs, hkey⟩ := hmap
  exact ⟨s, hs, hkey.symm⟩

theorem full (h : Calm c c') (hf : Full args c) : Full args c' := by
  intro i s' hs' hfree
  obtain ⟨s, hs, hkey⟩ := h.before hs'
  obtain ⟨-, -, -, -, hphase⟩ := key_eq_iff.1 hkey
  rw [h.nextRead]
  exact hf i s hs (hphase.symm.trans hfree)

theorem hashed (h : Calm c c') (hh : Hashed c) : Hashed c' := by
  intro i s' hs' hready
  obtain ⟨s, hs, hkey⟩ := h.before hs'
  obtain ⟨hseq, -, -, -, hphase⟩ := key_eq_iff.1 hkey
  rw [h.nextHash, hseq]
  exact hh i s hs (hphase.symm.trans hready)

theorem work (h : Calm c c') (args : Args) :
    c'.work args = c.work args := by
  have hmap : ∀ l : List BufferSlot,
      total todo l = total todo (l.map BufferSlot.key) := by
    intro l
    unfold total
    rw [List.map_map]
    rfl
  unfold Copy.work
  rw [hmap, h.keys, ← hmap, h.nextRead]

end Calm

-- ============================================================== the kernel

/-- The kernel performs what it likes. -/
theorem Inv.letPerform (hk : kernel.Moves) (h : Inv src args hole c) :
    Inv src args hole (c.letPerform kernel)
      ∧ Performed c (c.letPerform kernel) := by
  unfold Copy.letPerform
  generalize List.range c.context.flights.length = indexes
  -- one request after the other, the state going along
  induction indexes generalizing c with
  | nil => exact ⟨h, .refl c⟩
  | cons i rest ih =>
      rw [List.foldl_cons]
      cases hf : c.context.flights[i]? with
      | none => exact ih h
      | some f =>
          simp only
          cases hp : kernel.perform c.clock f.sqe with
          | none => exact ih h
          | some res =>
              simp only
              obtain ⟨hpos, hle⟩ := hk.perform _ _ _ hp
              obtain ⟨hinv, hperf⟩ := h.performAt hf hpos hle
              obtain ⟨hinv', hperf'⟩ := ih hinv
              exact ⟨hinv', hperf.trans hperf'⟩

/-- The state after the kernel has taken `k` entries. -/
def Copy.submitted (c : Copy) (k : Nat) : Copy :=
  { c with
    clock := c.clock + 1
    context := { c.context with
      sq := c.context.sq.drop k
      flights := c.context.flights
        ++ (c.context.sq.take k).map fun sqe => Flight.mk sqe none }
    queued := c.queued - k
    inFlight := c.inFlight + k }

theorem Inv.submitted (h : Inv src args hole c) (k : Nat) :
    Inv src args hole (c.submitted k) := by
  have hreq : (c.submitted k).requests = c.requests := by
    show (c.context.flights ++ (c.context.sq.take k).map fun sqe =>
        Flight.mk sqe none).map (·.sqe) ++ c.context.sq.drop k
      = c.context.flights.map (·.sqe) ++ c.context.sq
    rw [List.map_append, List.map_map, List.append_assoc]
    congr 1
    have hid : (c.context.sq.take k).map
        ((·.sqe) ∘ fun sqe => Flight.mk sqe none) = c.context.sq.take k :=
      List.map_id _
    rw [hid, List.take_append_drop]
  have ht := h.tickets
  refine ⟨⟨h.buffers.source, h.buffers.size, h.buffers.slots⟩,
    ⟨h.sequence.hashed_le, h.sequence.read_le, h.sequence.lt_read,
      h.sequence.ge_hash, h.sequence.distinct, h.sequence.covered⟩,
    ⟨ht.count, ht.entries, ?_, ?_, ?_, ?_, ?_, ?_⟩,
    ⟨h.accounts.completed, h.accounts.bytes⟩,
    ⟨h.files.hasher, h.files.target_le, h.files.written⟩⟩
  · show c.queued - k = (c.context.sq.drop k).length
    rw [List.length_drop, ht.queued]
  · rw [hreq]
    exact ht.pending
  · intro f hf n hn
    rcases List.mem_append.1 hf with hf | hf
    · exact ht.performed f hf n hn
    · obtain ⟨sqe, -, rfl⟩ := List.mem_map.1 hf
      cases hn
  · rw [hreq]
    exact ht.nodup
  · rw [hreq]
    exact ht.busy
  · rw [hreq]
    exact ht.reaped

/-- The counter of requests in flight is right. -/
def InFlightOk (c : Copy) : Prop := c.inFlight = c.context.flights.length

theorem Performed.inFlightOk (h : Performed c c') (hc : InFlightOk c) :
    InFlightOk c' := by
  have hlen := congrArg List.length h.sqes
  rw [List.length_map, List.length_map] at hlen
  have hin : c'.inFlight = c.inFlight :=
    congrArg (fun c => c.inFlight) h.rest
  unfold InFlightOk
  rw [hin, hlen]
  exact hc

/-- One round of `flush`. -/
theorem flushLoop_succ (hk : kernel.Moves) (h : Inv src args hole c)
    (hin : InFlightOk c) (hq : c.queued ≠ 0) (fuel : Nat) :
    ∃ c', flushLoop kernel (fuel + 1) c = flushLoop kernel fuel c'
      ∧ Inv src args hole c' ∧ InFlightOk c' ∧ Calm c c'
      ∧ c'.queued < c.queued := by
  obtain ⟨hinv, hperf⟩ := h.letPerform hk
  have hin' := hperf.inFlightOk hin
  have hqueued : (c.letPerform kernel).queued = c.queued :=
    congrArg (fun c => c.queued) hperf.rest
  have hlen := hinv.tickets.queued
  have hmoves := hk.submit (c.letPerform kernel).clock
    (c.letPerform kernel).context.sq.length (by omega)
  obtain ⟨n, hn⟩ : ∃ n, kernel.submit (c.letPerform kernel).clock
    (c.letPerform kernel).context.sq.length = n := ⟨_, rfl⟩
  rw [hn] at hmoves
  have hneg : ¬n < 0 := by omega
  have hbad : ¬(n = 0 ∨ (c.letPerform kernel).queued < n.toNat) := by omega
  refine ⟨(c.letPerform kernel).submitted n.toNat, ?_, hinv.submitted _,
    ?_, ?_, ?_⟩
  · rw [flushLoop, if_neg hq]
    simp only [Copy.submit, hn, hneg, hbad, if_false]
    rfl
  · unfold InFlightOk Copy.submitted
    simp only [List.length_append, List.length_map, List.length_take]
    rw [hin']
    omega
  · exact ⟨hperf.keys, hperf.nextRead, hperf.nextHash⟩
  · show (c.letPerform kernel).queued - _ < c.queued
    omega

/-- `flush` submits everything. -/
theorem flush_spec (hk : kernel.Moves) (h : Inv src args hole c)
    (hin : InFlightOk c) :
    ∃ c', flush kernel c = (.ok (), c') ∧ Inv src args hole c' ∧ InFlightOk c'
      ∧ Calm c c' ∧ c'.queued = 0 := by
  have hloop : ∀ fuel (c : Copy), Inv src args hole c → InFlightOk c →
      c.queued ≤ fuel → ∃ c', flushLoop kernel fuel c = (.ok (), c')
        ∧ Inv src args hole c' ∧ InFlightOk c' ∧ Calm c c' ∧ c'.queued = 0 := by
    intro fuel
    induction fuel with
    | zero =>
        intro c h hin hle
        exact ⟨c, rfl, h, hin, .refl c, by omega⟩
    | succ fuel ih =>
        intro c h hin hle
        by_cases hq : c.queued = 0
        · refine ⟨c, ?_, h, hin, .refl c, hq⟩
          rw [flushLoop, if_pos hq]
        · obtain ⟨c₁, heq, h₁, hin₁, hcalm, hlt⟩ :=
            flushLoop_succ hk h hin hq fuel
          obtain ⟨c₂, hrun, h₂, hin₂, hcalm₂, hq₂⟩ :=
            ih c₁ h₁ hin₁ (by omega)
          exact ⟨c₂, heq.trans hrun, h₂, hin₂, hcalm.trans hcalm₂, hq₂⟩
  exact hloop c.queued c h hin (Nat.le_refl _)

-- ========================================================== the requests

private theorem submitRequest_eq (hs : c.slots[i]? = some s)
    (hroom : c.context.sq.length < c.context.entries) (s' : BufferSlot) :
    submitRequest i w (c.setSlot i s') = (.ok (), c.post i w s') := by
  have hslot : (c.setSlot i s').slot i = s' :=
    Copy.slot_eq (getElem?_set_of_some hs)
  have hfull : ¬(c.setSlot i s').context.entries
      ≤ (c.setSlot i s').context.sq.length := Nat.not_le.2 hroom
  unfold submitRequest
  rw [if_neg hfull]
  simp only [hslot]
  unfold Copy.setSlot Copy.post busyPhase
  simp only [List.set_set]

/-- A state between completions: the invariant, and no slot idle while
there is something to read. -/
structure Steady (src : Bytes) (args : Args) (c : Copy) : Prop where
  inv : Inv src args none c
  inFlight : InFlightOk c
  full : Full args c

theorem Steady.calm (h : Inv src args none c') (hin : InFlightOk c')
    (hcalm : Calm c c') (hs : Steady src args c) : Steady src args c' :=
  ⟨h, hin, hcalm.full hs.full⟩

/-- `start_read` on a free slot. -/
theorem startRead_spec (h : Inv src args none c) (hc : 0 < args.chunkSize)
    (hs : c.slots[i]? = some s) (hfree : s.phase = .free)
    (hlt : c.nextRead < args.chunkCount) :
    ∃ c', startRead args i c = (.ok (), c') ∧ Inv src args none c'
      ∧ c'.work args = c.work args
      ∧ c'.slots = c.slots.set i
          { s.starting args c.nextRead with phase := .reading }
      ∧ c'.nextRead = c.nextRead + 1 ∧ c'.inFlight = c.inFlight
      ∧ c'.context.flights = c.context.flights := by
  have hidle : ∀ v, s.phase ≠ busyPhase v := by
    intro v hv
    rw [hfree] at hv
    exact busyPhase_ne_free hv.symm
  have hroom := h.tickets.room hs (h.tickets.no_request hs hidle)
  refine ⟨_, ?_, h.start hc hs hfree hlt, ?_, rfl, rfl, rfl, rfl⟩
  · unfold startRead
    rw [Copy.slot_eq hs]
    exact submitRequest_eq (c := { c with nextRead := c.nextRead + 1 }) hs
      hroom _
  · have htotal := total_set (f := todo)
      (b := { s.starting args c.nextRead with phase := .reading }) hs
    have hold : todo s = 0 := by
      unfold todo
      rw [hfree]
    have hnew : todo { s.starting args c.nextRead with phase := .reading }
        = 2 * min args.chunkSize
          (args.sourceSize - c.nextRead * args.chunkSize) := by
      show min args.chunkSize _ - 0 + min args.chunkSize _ = _
      omega
    show total todo (c.slots.set i { s.starting args c.nextRead with
        phase := .reading })
        + 2 * (args.sourceSize - args.frontier (c.nextRead + 1))
      = total todo c.slots
        + 2 * (args.sourceSize - args.frontier c.nextRead)
    have hfront := frontier_succ args c.nextRead
    have hle : args.frontier (c.nextRead + 1) ≤ args.sourceSize :=
      Nat.min_le_right _ _
    omega

-- ============================================================ the hashing

/-- The invariant reads neither the clock nor `in_flight`. -/
theorem Inv.aside (h : Inv src args hole c) (t n : Nat) :
    Inv src args hole { c with clock := t, inFlight := n } := by
  have ht := h.tickets
  have hs := h.sequence
  exact ⟨⟨h.buffers.source, h.buffers.size, h.buffers.slots⟩,
    ⟨hs.hashed_le, hs.read_le, hs.lt_read, hs.ge_hash, hs.distinct,
      hs.covered⟩,
    ⟨ht.count, ht.entries, ht.queued, ht.pending, ht.performed, ht.nodup,
      ht.busy, ht.reaped⟩,
    ⟨h.accounts.completed, h.accounts.bytes⟩,
    ⟨h.files.hasher, h.files.target_le, h.files.written⟩⟩

/-- Hashing a chunk leaves the work to do as it is. -/
theorem work_hash (hs : c.slots[i]? = some s) (hready : s.phase = .ready)
    (chunk : Bytes) :
    ((c.hashed chunk).post i true { s with progress := 0 }).work args
      = c.work args := by
  have htotal := total_set (f := todo)
    (b := { s with progress := 0, phase := .writing }) hs
  have hold : todo s = s.length := by
    unfold todo
    rw [hready]
  have hnew : todo { s with progress := 0, phase := .writing }
      = s.length := rfl
  show total todo (c.slots.set i { s with progress := 0, phase := .writing })
      + 2 * (args.sourceSize - args.frontier c.nextRead)
    = total todo c.slots + 2 * (args.sourceSize - args.frontier c.nextRead)
  omega

theorem Full.set {s' : BufferSlot} (h : Full args c)
    (hslots : c'.slots = c.slots.set i s') (hfree : s'.phase ≠ .free)
    (hread : c'.nextRead = c.nextRead) : Full args c' := by
  unfold Full
  rw [hslots, hread]
  exact forall_set (fun hp => absurd hp hfree) fun j t _ ht => h j t ht

/-- One chunk hashed and its write posted. -/
theorem hashLoop_succ (hk : kernel.Moves) (h : Steady src args c)
    (hc : 0 < args.chunkSize) (hlt : c.nextHash < args.chunkCount)
    (hfind : c.slots.findIdx? (fun slot =>
      slot.phase = .ready ∧ slot.sequence = c.nextHash) = some i)
    (fuel : Nat) :
    ∃ c', hashLoop kernel args (fuel + 1) c = hashLoop kernel args fuel c'
      ∧ Steady src args c' ∧ c'.work args = c.work args
      ∧ c'.nextHash = c.nextHash + 1 := by
  obtain ⟨hi, hp, -⟩ := List.findIdx?_eq_some_iff_getElem.1 hfind
  rw [decide_eq_true_eq] at hp
  have hs₀ : c.slots[i]? = some c.slots[i] := List.getElem?_eq_getElem hi
  obtain ⟨hinv, hperf⟩ := h.inv.letPerform hk
  have hin := hperf.inFlightOk h.inFlight
  have hcalm := Calm.of_performed hperf
  have hfull := hcalm.full h.full
  have hwork := hcalm.work args
  have hnextHash := hperf.nextHash
  obtain ⟨s, hs, hkey⟩ := hperf.after hs₀
  obtain ⟨hseq, -, -, -, hphase⟩ := key_eq_iff.1 hkey
  have hready : s.phase = .ready := hphase.trans hp.1
  have hnext : s.sequence = (c.letPerform kernel).nextHash :=
    (hseq.trans hp.2).trans hnextHash.symm
  -- from here on the state is the one the kernel left
  obtain ⟨c₁, hc₁⟩ : ∃ c₁, (c.letPerform kernel).tick = c₁ := ⟨_, rfl⟩
  have hinv₁ : Inv src args none c₁ := hc₁ ▸ hinv.aside _ _
  have hs₁ : c₁.slots[i]? = some s := hc₁ ▸ hs
  have hnext₁ : s.sequence = c₁.nextHash := hc₁ ▸ hnext
  have hidle : ∀ v, s.phase ≠ busyPhase v := by
    intro v hv
    rw [hready] at hv
    exact busyPhase_ne_ready hv.symm
  have hroom := hinv₁.tickets.room hs₁ (hinv₁.tickets.no_request hs₁ hidle)
  have hupdate : c₁.hasher.update (s.bytes.take s.length)
      = .ok (c₁.hashed (s.bytes.take s.length)).hasher := by
    unfold Copy.hashed
    rw [hinv₁.files.hasher]
    rfl
  refine ⟨(c₁.hashed (s.bytes.take s.length)).post i true
    { s with progress := 0 }, ?_, ⟨hinv₁.hash hc hs₁ hready hnext₁, ?_, ?_⟩,
    ?_, ?_⟩
  · rw [hashLoop, if_pos hlt, hfind]
    simp only [hc₁, Copy.slot_eq hs₁, hupdate]
    have hsubmit := submitRequest_eq (w := true)
      (c := c₁.hashed (s.bytes.take s.length)) hs₁ hroom
      { s with progress := 0 }
    rw [show ({ c₁.setSlot i { s with progress := 0 } with
        hasher := (c₁.hashed (s.bytes.take s.length)).hasher
        nextHash := c₁.nextHash + 1 } : Copy)
      = (c₁.hashed (s.bytes.take s.length)).setSlot i
          { s with progress := 0 } from rfl, hsubmit]
  · show c₁.inFlight = c₁.context.flights.length
    rw [← hc₁]
    exact hin
  · refine Full.set (c := c₁) ?_ rfl Phase.noConfusion rfl
    rw [← hc₁]
    exact hfull
  · rw [work_hash hs₁ hready, ← hc₁]
    exact hwork
  · show c₁.nextHash + 1 = c.nextHash + 1
    rw [← hc₁, ← hnextHash]
    rfl

/-- With all chunks hashed nothing waits. -/
theorem Sequence.hashed (h : Sequence args c)
    (hge : args.chunkCount ≤ c.nextHash) : Hashed c := by
  intro i s hs hready hseq
  have hsf : s.phase ≠ .free := by
    rw [hready]
    exact Phase.noConfusion
  have hlt := h.lt_read i s hs hsf
  have hcount := h.read_le
  omega

/-- `hash_ready` leaves no slot that holds the next chunk. -/
theorem hashReady_spec (hk : kernel.Moves) (h : Steady src args c)
    (hc : 0 < args.chunkSize) :
    ∃ c', hashReady kernel args c = (.ok (), c') ∧ Steady src args c'
      ∧ Hashed c' ∧ c'.work args = c.work args := by
  have hloop : ∀ fuel (c : Copy), Steady src args c →
      args.chunkCount - c.nextHash ≤ fuel →
      ∃ c', hashLoop kernel args fuel c = (.ok (), c') ∧ Steady src args c'
        ∧ Hashed c' ∧ c'.work args = c.work args := by
    intro fuel
    induction fuel with
    | zero =>
        intro c h hle
        exact ⟨c, rfl, h, h.inv.sequence.hashed (by omega), rfl⟩
    | succ fuel ih =>
        intro c h hle
        by_cases hlt : c.nextHash < args.chunkCount
        · cases hfind : c.slots.findIdx? (fun slot =>
              slot.phase = .ready ∧ slot.sequence = c.nextHash) with
          | none =>
              refine ⟨c, ?_, h, ?_, rfl⟩
              · rw [hashLoop, if_pos hlt, hfind]
              · intro i s hs hready hseq
                have hnone := List.findIdx?_eq_none_iff.1 hfind s
                  (List.mem_of_getElem? hs)
                rw [decide_eq_false_iff_not] at hnone
                exact hnone ⟨hready, hseq⟩
          | some i =>
              obtain ⟨c₁, heq, h₁, hwork, hnext⟩ :=
                hashLoop_succ hk h hc hlt hfind fuel
              obtain ⟨c₂, hrun, h₂, hhashed, hwork₂⟩ :=
                ih c₁ h₁ (by omega)
              exact ⟨c₂, heq.trans hrun, h₂, hhashed, hwork₂.trans hwork⟩
        · refine ⟨c, ?_, h, h.inv.sequence.hashed (by omega), rfl⟩
          rw [hashLoop, if_neg hlt]
  exact hloop _ c h (Nat.le_refl _)

-- ======================================================== a completion

/-- The completion of a request of slot `i` that moved `n` bytes. -/
structure Reaped (src : Bytes) (args : Args) (c : Copy) (i : Nat) (w : Bool) (n : Nat)
    (s : BufferSlot) : Prop where
  inv : Inv src args (some i) c
  slot : c.slots[i]? = some s
  phase : s.phase = busyPhase w
  pos : 0 < n
  le : s.progress + n ≤ s.length
  moved : Moved c.source c.target s w (s.progress + n)

/-- The state after the `i`th request in flight is taken out. -/
def Copy.reap (c : Copy) (i : Nat) : Copy :=
  { c with
    clock := c.clock + 1
    context := { c.context with flights := c.context.flights.eraseIdx i } }

theorem requests_reap {f : Flight} (hf : c.context.flights[i]? = some f) :
    c.requests.Perm (f.sqe :: (c.reap i).requests) := by
  obtain ⟨hi, hget⟩ := List.getElem?_eq_some_iff.1 hf
  have herase := (List.getElem_cons_eraseIdx_perm hi).symm
  rw [hget] at herase
  exact (herase.map (·.sqe)).append_right c.context.sq

/-- Taking out a performed request leaves its slot without one. -/
theorem Inv.reap (h : Inv src args none c) {sqe : Sqe} {res : Int}
    (hf : c.context.flights[i]? = some ⟨sqe, some res⟩) :
    ∃ s, Reaped src args (c.reap i) sqe.slot sqe.write res.toNat s
      ∧ sqe.userData = sqe.slot * 2 + (if sqe.write then 1 else 0) := by
  have hmem := List.mem_of_getElem? hf
  obtain ⟨s, hs, hphase, hreq, hok, hshape⟩ := h.flight hmem
  obtain ⟨hpos, hle, hmoved⟩ := h.tickets.performed _ hmem res rfl
  have ht := h.tickets
  have hq := h.sequence
  have hperm := requests_reap hf
  have hnodup := (hperm.map (·.slot)).nodup_iff.1 ht.nodup
  rw [List.map_cons, List.nodup_cons] at hnodup
  refine ⟨s, ⟨⟨⟨h.buffers.source, h.buffers.size, h.buffers.slots⟩,
    ⟨hq.hashed_le, hq.read_le, hq.lt_read, hq.ge_hash, hq.distinct,
      hq.covered⟩,
    ⟨ht.count, ht.entries, ht.queued, ?_, ?_, ?_, ?_, ?_⟩,
    ⟨h.accounts.completed, h.accounts.bytes⟩,
    ⟨h.files.hasher, h.files.target_le, h.files.written⟩⟩, hs, hphase,
    ?_, ?_, hmoved s hs⟩, ?_⟩
  · intro r hr
    exact ht.pending r (hperm.mem_iff.2 (.tail _ hr))
  · intro f hf
    exact ht.performed f ((List.eraseIdx_sublist _ i).subset hf)
  · exact hnodup.2
  · intro j t hj hbusy hhole
    obtain ⟨r, hr, hslot⟩ := ht.busy j t hj hbusy nofun
    rcases List.mem_cons.1 (hperm.mem_iff.1 hr) with rfl | hr
    · exact absurd (hslot ▸ rfl) hhole
    · exact ⟨r, hr, hslot⟩
  · -- the request taken out was the only one of its slot
    intro j hj r hr hslot
    cases hj
    exact hnodup.1 (hslot ▸ List.mem_map_of_mem hr)
  · omega
  · have hlength : sqe.length = s.length - s.progress :=
      congrArg Sqe.length hreq
    simp only at hle
    omega
  · exact congrArg Sqe.userData hreq

/-- A request in flight asks for something. -/
theorem Inv.flight_pos (h : Inv src args hole c) {f : Flight}
    (hf : f ∈ c.context.flights) : 0 < f.sqe.length := by
  obtain ⟨s, -, hphase, hreq, hok, -⟩ := h.flight hf
  have hlength : f.sqe.length = s.length - s.progress :=
    congrArg Sqe.length hreq
  have hlt : s.progress < s.length := by
    cases hw : f.sqe.write with
    | false =>
        rw [hw] at hphase
        exact (hok.reading hphase).1
    | true =>
        rw [hw] at hphase
        exact (hok.writing hphase).1
  omega

/-- A performed request stays where it is, with a result. -/
theorem performAt_flight {f : Flight} (hf : c.context.flights[i]? = some f)
    (res : Int) : ∃ r, (c.performAt i res).context.flights[i]?
      = some ⟨f.sqe, some r⟩ := by
  obtain ⟨sqe, r⟩ := f
  unfold Copy.performAt
  rw [hf]
  cases r with
  | some r => exact ⟨r, hf⟩
  | none =>
      refine ⟨res, ?_⟩
      have hflights : (if 0 < res then c.transfer sqe res.toNat else c
          ).context.flights = c.context.flights := by
        split
        · unfold Copy.transfer
          split <;> rfl
        · rfl
      simp only
      rw [hflights]
      exact getElem?_set_of_some hf

/-- `io_uring_wait_cqe`: interrupted, or a completion. -/
theorem wait_spec (hk : kernel.Moves) (h : Steady src args c)
    (hne : c.inFlight ≠ 0) :
    (∃ c', c.wait kernel = (.error eINTR, c') ∧ Steady src args c' ∧ Calm c c'
        ∧ c'.clock = c.clock + 1 ∧ c'.inFlight = c.inFlight
        ∧ c'.queued = c.queued
        ∧ ∃ flights, kernel.wait c.clock flights = .failed eINTR)
      ∨ ∃ c' i w s res, c.wait kernel
          = (.ok (i * 2 + (if w then 1 else 0), res), c')
        ∧ Reaped src args c' i w res.toNat s ∧ 0 < res ∧ Calm c c'
        ∧ c'.inFlight = c.inFlight ∧ c'.queued = c.queued
        ∧ c'.inFlight = c'.context.flights.length + 1 := by
  obtain ⟨hinv, hperf⟩ := h.inv.letPerform hk
  have hin := hperf.inFlightOk h.inFlight
  have hclock : (c.letPerform kernel).clock = c.clock :=
    congrArg (fun c => c.clock) hperf.rest
  have hcount : (c.letPerform kernel).inFlight = c.inFlight :=
    congrArg (fun c => c.inFlight) hperf.rest
  have hqueued : (c.letPerform kernel).queued = c.queued :=
    congrArg (fun c => c.queued) hperf.rest
  have hcalm := Calm.of_performed hperf
  have hflights : (c.letPerform kernel).context.flights ≠ [] := by
    intro hnil
    unfold InFlightOk at hin
    rw [hnil, hcount] at hin
    exact hne hin
  rcases hk.wait (c.letPerform kernel).clock _ hflights
    (fun f hf => hinv.flight_pos hf) with hw | ⟨i, f, res, hw, hf, hpos, hle⟩
  -- the wait is interrupted: the same again, a moment later
  · left
    refine ⟨(c.letPerform kernel).tick, ?_,
      ⟨hinv.aside _ _, hin, hcalm.full h.full⟩,
      ⟨hcalm.keys, hcalm.nextRead, hcalm.nextHash⟩, ?_, hcount, hqueued,
      (c.letPerform kernel).context.flights, ?_⟩
    · simp only [Copy.wait, hw]
    · show (c.letPerform kernel).clock + 1 = c.clock + 1
      rw [hclock]
    · rw [← hclock]
      exact hw
  -- a request that was performed is taken out
  · right
    obtain ⟨hinv', hperf'⟩ := hinv.performAt hf hpos hle
    obtain ⟨r, hr⟩ := performAt_flight hf res
    obtain ⟨s, hreaped, hdata⟩ := hinv'.reap hr
    have hcalm' := hcalm.trans (.of_performed hperf')
    have hin' := hperf'.inFlightOk hin
    have hcount' : ((c.letPerform kernel).performAt i res).inFlight
        = c.inFlight :=
      (congrArg (fun c => c.inFlight) hperf'.rest).trans hcount
    have hqueued' : ((c.letPerform kernel).performAt i res).queued
        = c.queued :=
      (congrArg (fun c => c.queued) hperf'.rest).trans hqueued
    refine ⟨((c.letPerform kernel).performAt i res).reap i, f.sqe.slot,
      f.sqe.write, s, r, ?_, hreaped, ?_,
      ⟨hcalm'.keys, hcalm'.nextRead, hcalm'.nextHash⟩, hcount', hqueued',
      ?_⟩
    · simp only [Copy.wait, hw, hr, hdata]
      rfl
    · have hrpos := hreaped.pos
      omega
    · obtain ⟨hi, -⟩ := List.getElem?_eq_some_iff.1 hr
      show ((c.letPerform kernel).performAt i res).inFlight
        = (((c.letPerform kernel).performAt i res).context.flights.eraseIdx
          i).length + 1
      rw [List.length_eraseIdx_of_lt hi, hin']
      omega

-- ================================================= handling a completion

/-- Replacing a slot changes the work by what the slot has to move. -/
theorem work_set (args : Args) (c' : Copy) (s' : BufferSlot)
    (hs : c.slots[i]? = some s)
    (hslots : c'.slots = c.slots.set i s')
    (hread : c'.nextRead = c.nextRead) :
    c'.work args + todo s = c.work args + todo s' := by
  have htotal := total_set (f := todo) (b := s') hs
  unfold Copy.work
  rw [hslots, hread]
  omega

private theorem todo_busy (hphase : s.phase = busyPhase w) :
    todo s = s.length - s.progress + (if w then 0 else s.length) := by
  unfold todo
  rw [hphase]
  cases w <;> rfl

/-- A slot put to rest: ready after a read, free or reading again after a
write. -/
theorem finishTransfer_spec {n : Nat} (h : Reaped src args c i w n s)
    (hc : 0 < args.chunkSize) (hin : InFlightOk c) (hfull : Full args c)
    (heq : s.progress + n = s.length) :
    ∃ c', finishTransfer args i w (c.setSlot i (s.advanced n)) = (.ok (), c')
      ∧ Steady src args c' ∧ c'.work args + n = c.work args := by
  have hs := h.slot
  have hslot : (c.setSlot i (s.advanced n)).slot i = s.advanced n :=
    Copy.slot_eq (getElem?_set_of_some hs)
  have htodo := todo_busy h.phase
  have hphase := h.phase
  have hmoved := h.moved
  -- a read: the buffer is ready to be hashed
  cases w with
  | false =>
      have hinv := h.inv.readDone hs hphase hmoved heq
      refine ⟨c.setSlot i { s.advanced n with phase := .ready }, ?_,
        ⟨hinv, hin, hfull.set rfl Phase.noConfusion rfl⟩, ?_⟩
      · unfold finishTransfer
        simp only [hslot, Bool.false_eq_true, if_false]
        unfold Copy.setSlot
        rw [List.set_set]
      · have hwork := work_set args
          (c.setSlot i { s.advanced n with phase := .ready })
          { s.advanced n with phase := .ready } hs rfl rfl
        have hnew : todo { s.advanced n with phase := .ready } = s.length :=
          rfl
        simp only [Bool.false_eq_true, if_false] at htodo
        omega
  -- a write: the buffer is free, for the next read if there is one
  | true =>
      have hinv := h.inv.writeDone hs hphase hmoved heq
      have hwork := work_set args
        ((c.counted s.length).setSlot i
          { s.advanced n with phase := .free })
        { s.advanced n with phase := .free } hs rfl rfl
      have hnew : todo { s.advanced n with phase := .free } = 0 := rfl
      simp only [if_true] at htodo
      have hfinish : finishTransfer args i true (c.setSlot i (s.advanced n))
          = if c.nextRead < args.chunkCount then
              startRead args i ((c.counted s.length).setSlot i
                { s.advanced n with phase := .free })
            else (.ok (), (c.counted s.length).setSlot i
              { s.advanced n with phase := .free }) := by
        unfold finishTransfer
        simp only [hslot, if_true]
        unfold Copy.setSlot Copy.counted
        simp only [List.set_set]
        rfl
      rw [hfinish]
      by_cases hlt : c.nextRead < args.chunkCount
      · obtain ⟨c', hrun, hinv', hwork', hslots, hread, hin', hflights⟩ :=
          startRead_spec hinv hc (getElem?_set_of_some hs) rfl hlt
        rw [if_pos hlt]
        refine ⟨c', hrun, ⟨hinv', ?_, ?_⟩, by omega⟩
        · unfold InFlightOk
          rw [hin', hflights]
          exact hin
        · -- a free slot would have meant that nothing is left to read
          unfold Full
          rw [hslots]
          refine forall_set nofun ?_
          intro j t hj ht hfree
          simp only [Copy.setSlot] at ht
          rw [List.getElem?_set_ne fun he => hj he.symm] at ht
          have hnone := hfull j t ht hfree
          omega
      · rw [if_neg hlt]
        refine ⟨_, rfl, ⟨hinv, hin, ?_⟩, by omega⟩
        intro j t _ _
        have hle := h.inv.sequence.read_le
        show c.nextRead = args.chunkCount
        omega

/-- What a completion leaves behind. -/
structure Settled (src : Bytes) (args : Args) (c c' : Copy) : Prop where
  steady : Steady src args c'
  hashed : Hashed c'
  queued : c'.queued = 0
  work : c'.work args < c.work args

private theorem complete_spec (hk : kernel.Moves) {res : Int}
    (h : Reaped src args c i w res.toNat s) (hres : 0 < res)
    (hc : 0 < args.chunkSize) (hin : InFlightOk c) (hfull : Full args c)
    (hhashed : Hashed c) :
    ∃ c', complete kernel args (i * 2 + (if w then 1 else 0)) res c
      = (.ok (), c') ∧ Settled src args c c' := by
  have hs := h.slot
  have hindex : (i * 2 + (if w then 1 else 0)) / 2 = i := by
    split <;> omega
  have hwrite : ((i * 2 + (if w then 1 else 0)) % 2 == 1) = w := by
    cases w with
    | false => simp
    | true => simp
  obtain ⟨hi, -⟩ := List.getElem?_eq_some_iff.1 hs
  have hle := h.le
  have hpos := h.pos
  have hphase : s.phase = if w then .writing else .reading := h.phase
  -- what the code checks of a completion holds
  unfold complete
  simp only [hindex, hwrite, Copy.slot_eq hs]
  rw [if_neg (Nat.not_le.2 hi), if_neg (not_not.2 hphase),
    if_neg (Int.not_lt.2 (Int.le_of_lt hres))]
  have hcount : ¬(res = 0 ∨ s.length - s.progress < res.toNat) := by omega
  rw [if_neg hcount]
  by_cases hlt : s.progress + res.toNat < s.length
  · -- a short transfer: ask for the rest
    rw [if_pos hlt]
    have hroom := h.inv.tickets.room hs (h.inv.tickets.reaped i rfl)
    have hinv := h.inv.resume hs h.phase h.moved hlt
    obtain ⟨c', hflush, hinv', hin', hcalm, hq⟩ := flush_spec hk hinv hin
    have hfree : busyPhase w ≠ .free := busyPhase_ne_free
    have hfull' : Full args (c.post i w (s.advanced res.toNat)) :=
      hfull.set rfl hfree rfl
    have hhashed' : Hashed (c.post i w (s.advanced res.toNat)) := by
      refine forall_set ?_ fun j t _ ht => hhashed j t ht
      intro hready
      exact absurd hready busyPhase_ne_ready
    have hwork := work_set args (c.post i w (s.advanced res.toNat))
      { s.advanced res.toNat with phase := busyPhase w } hs rfl rfl
    have hold := todo_busy h.phase
    have hnew : todo { s.advanced res.toNat with phase := busyPhase w }
        = s.length - (s.progress + res.toNat)
          + (if w then 0 else s.length) := todo_busy rfl
    have hkeep := hcalm.work args
    refine ⟨c', ?_, ⟨hinv', hin', hcalm.full hfull'⟩,
      hcalm.hashed hhashed', hq, by omega⟩
    have hsubmit := submitRequest_eq (w := w) hs hroom
      (s.advanced res.toNat)
    unfold BufferSlot.advanced at hsubmit hflush
    rw [hsubmit]
    exact hflush
  · -- a whole one
    rw [if_neg hlt]
    obtain ⟨c₁, hrun₁, h₁, hwork₁⟩ :=
      finishTransfer_spec h hc hin hfull (by omega)
    obtain ⟨c₂, hrun₂, h₂, hhashed₂, hwork₂⟩ := hashReady_spec hk h₁ hc
    obtain ⟨c₃, hrun₃, hinv₃, hin₃, hcalm, hq⟩ :=
      flush_spec hk h₂.inv h₂.inFlight
    have hkeep := hcalm.work args
    refine ⟨c₃, ?_, ⟨hinv₃, hin₃, hcalm.full h₂.full⟩,
      hcalm.hashed hhashed₂, hq, by omega⟩
    unfold BufferSlot.advanced at hrun₁
    rw [hrun₁]
    simp only [andThen]
    rw [hrun₂]
    exact hrun₃

-- ==================================================== the completion loop

/-- A state at the head of the completion loop. -/
structure Between (src : Bytes) (args : Args) (c : Copy) : Prop where
  steady : Steady src args c
  hashed : Hashed c
  queued : c.queued = 0

/-- A completion is delivered and handled. -/
theorem completionLoop_deliver (hk : kernel.Moves) (hc : 0 < args.chunkSize)
    {res : Int} (hne : c.inFlight ≠ 0)
    (hwait : c.wait kernel = (.ok (i * 2 + (if w then 1 else 0), res), c'))
    (hreaped : Reaped src args c' i w res.toNat s) (hres : 0 < res)
    (hcalm : Calm c c') (h : Between src args c)
    (hin : c'.inFlight = c'.context.flights.length + 1) :
    ∃ c'', (∀ fuel, completionLoop kernel args (fuel + 1) (.ok (), c)
        = completionLoop kernel args fuel (.ok (), c''))
      ∧ Between src args c'' ∧ c''.work args < c.work args := by
  have hreaped' : Reaped src args { c' with inFlight := c'.inFlight - 1 } i w
      res.toNat s :=
    ⟨hreaped.inv.aside _ _, hreaped.slot, hreaped.phase, hreaped.pos,
      hreaped.le, hreaped.moved⟩
  have hcount : InFlightOk { c' with inFlight := c'.inFlight - 1 } := by
    show c'.inFlight - 1 = c'.context.flights.length
    omega
  obtain ⟨c'', hrun, hsettled⟩ := complete_spec hk hreaped' hres hc hcount
    (hcalm.full h.steady.full) (hcalm.hashed h.hashed)
  refine ⟨c'', ?_, ⟨hsettled.steady, hsettled.hashed, hsettled.queued⟩, ?_⟩
  · intro fuel
    rw [completionLoop, if_neg hne, hwait]
    simp only
    rw [hrun]
  · rw [← hcalm.work args]
    exact hsettled.work

/-- After some interruptions a completion is handled. -/
theorem completionLoop_advance (hk : kernel.Moves) (hc : 0 < args.chunkSize)
    {u : Nat} (hquiet : ∀ flights, kernel.wait u flights ≠ .failed eINTR)
    (d : Nat) : ∀ c, Between src args c → c.inFlight ≠ 0 → c.clock + d = u →
      ∃ k c', (∀ fuel, completionLoop kernel args (fuel + k) (.ok (), c)
          = completionLoop kernel args fuel (.ok (), c'))
        ∧ Between src args c' ∧ c'.work args < c.work args := by
  -- on the time until the signals stop
  induction d with
  | zero =>
      intro c h hne hclock
      rcases wait_spec hk h.steady hne with
        ⟨c', -, -, -, -, -, -, flights, hintr⟩
        | ⟨c', i, w, s, res, hwait, hreaped, hres, hcalm, -, -, hin⟩
      · rw [show c.clock = u by omega] at hintr
        exact absurd hintr (hquiet flights)
      · obtain ⟨c'', hrun, h'', hwork⟩ :=
          completionLoop_deliver hk hc hne hwait hreaped hres hcalm h hin
        exact ⟨1, c'', hrun, h'', hwork⟩
  | succ d ih =>
      intro c h hne hclock
      rcases wait_spec hk h.steady hne with
        ⟨c', hwait, hsteady, hcalm, hclock', hcount, hq, -⟩
        | ⟨c', i, w, s, res, hwait, hreaped, hres, hcalm, -, -, hin⟩
      · have h' : Between src args c' :=
          ⟨hsteady, hcalm.hashed h.hashed, hq.trans h.queued⟩
        obtain ⟨k, c'', hrun, h'', hwork⟩ := ih c' h' (by omega) (by omega)
        refine ⟨k + 1, c'', ?_, h'', ?_⟩
        · intro fuel
          rw [← Nat.add_assoc, completionLoop, if_neg hne, hwait]
          simp only [if_true]
          exact hrun fuel
        · rw [← hcalm.work args]
          exact hwork
      · obtain ⟨c'', hrun, h'', hwork⟩ :=
          completionLoop_deliver hk hc hne hwait hreaped hres hcalm h hin
        exact ⟨1, c'', hrun, h'', hwork⟩

/-- The loop ends, with nothing in flight. -/
theorem completionLoop_spec (hk : kernel.Moves) (hc : 0 < args.chunkSize)
    (h : Between src args c) :
    ∃ bound c', (∀ fuel, bound ≤ fuel →
        completionLoop kernel args fuel (.ok (), c) = (some (.ok ()), c'))
      ∧ Between src args c' ∧ c'.inFlight = 0 := by
  obtain ⟨n, hn⟩ : ∃ n, c.work args = n := ⟨_, rfl⟩
  induction n using Nat.strongRecOn generalizing c with
  | ind n ih =>
      by_cases hzero : c.inFlight = 0
      · refine ⟨1, c, ?_, h, hzero⟩
        intro fuel hfuel
        obtain ⟨fuel, rfl⟩ := Nat.exists_eq_add_of_le' hfuel
        rw [completionLoop, if_pos hzero]
      · obtain ⟨u, hu, hquiet⟩ := hk.settles c.clock
        obtain ⟨k, c', hrun, h', hwork⟩ :=
          completionLoop_advance hk hc hquiet (u - c.clock) c h hzero
            (by omega)
        obtain ⟨bound, c'', hend, h'', hin⟩ :=
          ih (c'.work args) (hn ▸ hwork) h' rfl
        refine ⟨bound + k, c'', ?_, h'', hin⟩
        intro fuel hfuel
        obtain ⟨rest, rfl⟩ : ∃ rest, fuel = rest + k :=
          ⟨fuel - k, by omega⟩
        rw [hrun]
        exact hend rest (by omega)

-- =============================================================== the start

/-- The reads before the first wait: slots before `k` are reading, the
others free. -/
theorem startReads_spec (hc : 0 < args.chunkSize) (m : Nat) :
    ∀ k (c : Copy), Inv src args none c → InFlightOk c → c.nextRead = k →
      c.slots.length = k + m → k + m ≤ args.chunkCount →
      (∀ (j : Nat) s, c.slots[j]? = some s →
        s.phase = if j < k then .reading else .free) →
      ∃ c', startReads args (List.range' k m) c = (.ok (), c')
        ∧ Inv src args none c' ∧ InFlightOk c'
        ∧ ∀ (j : Nat) s, c'.slots[j]? = some s → s.phase = .reading := by
  induction m with
  | zero =>
      intro k c h hin hread hlen hle hphase
      refine ⟨c, rfl, h, hin, ?_⟩
      intro j s hs
      obtain ⟨hj, -⟩ := List.getElem?_eq_some_iff.1 hs
      rw [hphase j s hs, if_pos (by omega)]
  | succ m ih =>
      intro k c h hin hread hlen hle hphase
      have hs : c.slots[k]? = some (c.slots.get ⟨k, by omega⟩) :=
        List.getElem?_eq_getElem _
      have hfree := hphase k _ hs
      rw [if_neg (Nat.lt_irrefl k)] at hfree
      obtain ⟨c', hrun, h', -, hslots, hread', hin', hflights⟩ :=
        startRead_spec h hc hs hfree (by omega)
      have hlen' : c'.slots.length = k + 1 + m := by
        rw [hslots, List.length_set]
        omega
      obtain ⟨c'', hrun', h''⟩ := ih (k + 1) c' h' (by
          unfold InFlightOk
          rw [hin', hflights]
          exact hin) (by omega) hlen' (by omega) (by
        rw [hslots]
        refine forall_set ?_ ?_
        · rw [if_pos (Nat.lt_succ_self k)]
        · intro j t hj ht
          rw [hphase j t ht]
          simp only [show j < k + 1 ↔ j < k by omega])
      refine ⟨c'', ?_, h''⟩
      rw [List.range'_succ, startReads, hrun]
      exact hrun'

end PhotoBridge.IoUring
