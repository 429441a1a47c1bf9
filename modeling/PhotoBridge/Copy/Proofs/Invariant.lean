/-
The invariant of the io_uring copy, and what its primitive moves do to it.

# The groups

- `Buffers`: what every slot holds of its chunk, and what of it has
  reached the target.
- `Sequence`: which chunks are in which slots, and that the chunks between
  `next_hash` and `next_read` are all in some slot.
- `Tickets`: every slot that is reading or writing has exactly one request
  in the ring, for exactly what is left of it. While a completion is being
  handled its slot has none: that slot is the `hole`.
- `Accounts`: `completed` and `bytes_copied` against the slots in use.
- `Files`: the hasher has the chunks before `next_hash`, and the target has
  every byte of a chunk that is no longer in a slot.

# The moves

The kernel performs a request (`performAt`); the program posts one
(`Copy.post`: a first read, the rest of a short transfer, a write after
hashing) or puts a slot to rest (`setSlot`: a chunk read, a chunk written).
-/
import Mathlib.Data.List.Nodup
import PhotoBridge.Copy.IoUring

namespace PhotoBridge.IoUring

open Overwrite

-- ============================================================ the chunks

/-- Where the first `k` chunks end. -/
def Args.frontier (a : Args) (k : Nat) : Nat :=
  min (k * a.chunkSize) a.sourceSize

section Chunks

variable {src : Bytes} {args : Args} {k : Nat}

/-- A chunk is one that starts before the end. -/
theorem lt_chunkCount_iff (hc : 0 < args.chunkSize) :
    k < args.chunkCount ↔ k * args.chunkSize < args.sourceSize := by
  have hdiv := Nat.div_add_mod args.sourceSize args.chunkSize
  have hmod := Nat.mod_lt args.sourceSize hc
  rw [Nat.mul_comm] at hdiv
  unfold Args.chunkCount
  constructor
  · intro h
    split at h
    · have hle : k ≤ args.sourceSize / args.chunkSize := by omega
      have hmul := Nat.mul_le_mul_right args.chunkSize hle
      omega
    · have hlt : k + 1 ≤ args.sourceSize / args.chunkSize := by omega
      have hmul := Nat.mul_le_mul_right args.chunkSize hlt
      rw [Nat.succ_mul] at hmul
      omega
  · intro h
    by_contra hge
    split at hge
    · have hle : args.sourceSize / args.chunkSize + 1 ≤ k := by omega
      have hmul := Nat.mul_le_mul_right args.chunkSize hle
      rw [Nat.succ_mul] at hmul
      omega
    · have hle : args.sourceSize / args.chunkSize ≤ k := by omega
      have hmul := Nat.mul_le_mul_right args.chunkSize hle
      omega

/-- Nothing lies before the first chunk. -/
theorem frontier_zero : args.frontier 0 = 0 := by
  unfold Args.frontier
  rw [Nat.zero_mul]
  exact Nat.zero_min _

/-- All chunks together are the whole file. -/
theorem frontier_chunkCount (hc : 0 < args.chunkSize) :
    args.frontier args.chunkCount = args.sourceSize := by
  have h := (lt_chunkCount_iff hc : args.chunkCount < _ ↔ _)
  unfold Args.frontier
  omega

/-- A chunk further. -/
theorem frontier_succ (args : Args) (k : Nat) : args.frontier (k + 1)
    = args.frontier k
      + min args.chunkSize (args.sourceSize - k * args.chunkSize) := by
  unfold Args.frontier
  rw [Nat.succ_mul]
  omega

end Chunks

-- ========================================================= the invariant

/-- The requests in the ring, performed ones included. -/
def Copy.requests (c : Copy) : List Sqe :=
  c.context.flights.map (·.sqe) ++ c.context.sq

/-- The first `m` bytes of the slot's chunk are in its buffer. -/
def Filled (source : Bytes) (s : BufferSlot) (m : Nat) : Prop :=
  ∀ j, j < m → s.bytes[j]? = source[s.offset + j]?

/-- The first `m` bytes of the slot's chunk are in the target. -/
def Landed (source target : Bytes) (s : BufferSlot) (m : Nat) : Prop :=
  ∀ j, j < m → target[s.offset + j]? = source[s.offset + j]?

def busyPhase (write : Bool) : Phase := if write then .writing else .reading

/-- What a request that moved `m` bytes in all has done. -/
def Moved (source target : Bytes) (s : BufferSlot) (write : Bool)
    (m : Nat) : Prop :=
  if write then Landed source target s m else Filled source s m

/-- A slot that is in use: where its chunk is. -/
structure Shaped (args : Args) (s : BufferSlot) : Prop where
  offset : s.offset = s.sequence * args.chunkSize
  inside : s.offset < args.sourceSize
  length : s.length = min args.chunkSize (args.sourceSize - s.offset)

structure BufferOk (args : Args) (source target : Bytes)
    (s : BufferSlot) : Prop where
  size : s.bytes.length = args.chunkSize
  shaped : s.phase ≠ .free → Shaped args s
  reading : s.phase = .reading →
    s.progress < s.length ∧ Filled source s s.progress
  ready : s.phase = .ready → Filled source s s.length
  writing : s.phase = .writing → s.progress < s.length
    ∧ Filled source s s.length ∧ Landed source target s s.progress

structure Buffers (src : Bytes) (args : Args) (c : Copy) : Prop where
  source : c.source = src
  size : c.source.length = args.sourceSize
  slots : ∀ (i : Nat) s, c.slots[i]? = some s →
    BufferOk args c.source c.target s

/-- The slot holds a chunk that is not hashed yet. -/
def Unhashed (s : BufferSlot) : Prop :=
  s.phase = .reading ∨ s.phase = .ready

structure Sequence (args : Args) (c : Copy) : Prop where
  hashed_le : c.nextHash ≤ c.nextRead
  read_le : c.nextRead ≤ args.chunkCount
  lt_read : ∀ (i : Nat) s, c.slots[i]? = some s → s.phase ≠ .free →
    s.sequence < c.nextRead
  ge_hash : ∀ (i : Nat) s, c.slots[i]? = some s → Unhashed s →
    c.nextHash ≤ s.sequence
  distinct : ∀ (i : Nat) s, c.slots[i]? = some s → s.phase ≠ .free →
    ∀ (j : Nat) t, c.slots[j]? = some t → t.phase ≠ .free →
      s.sequence = t.sequence → i = j
  covered : ∀ k, c.nextHash ≤ k → k < c.nextRead →
    ∃ (i : Nat) (s : BufferSlot), c.slots[i]? = some s ∧ s.sequence = k ∧ Unhashed s

structure Tickets (args : Args) (hole : Option Nat) (c : Copy) : Prop where
  count : c.slots.length = args.slotCount
  entries : args.queueDepth ≤ c.context.entries
  queued : c.queued = c.context.sq.length
  pending : ∀ r ∈ c.requests, ∃ s, c.slots[r.slot]? = some s
    ∧ s.phase = busyPhase r.write ∧ r = s.request r.slot r.write
  performed : ∀ f ∈ c.context.flights, ∀ n, f.res = some n →
    0 < n ∧ n ≤ f.sqe.length ∧ ∀ s, c.slots[f.sqe.slot]? = some s →
      Moved c.source c.target s f.sqe.write (s.progress + n.toNat)
  nodup : (c.requests.map (·.slot)).Nodup
  busy : ∀ (i : Nat) s, c.slots[i]? = some s → (∃ w, s.phase = busyPhase w) →
    hole ≠ some i → ∃ r ∈ c.requests, r.slot = i
  reaped : ∀ i, hole = some i → ∀ r ∈ c.requests, r.slot ≠ i

/-- One for a slot in use. -/
def inUse (s : BufferSlot) : Nat := if s.phase = .free then 0 else 1

/-- The length of a slot in use. -/
def held (s : BufferSlot) : Nat := if s.phase = .free then 0 else s.length

structure Accounts (args : Args) (c : Copy) : Prop where
  completed : c.completed + total inUse c.slots = c.nextRead
  bytes : c.bytesCopied + total held c.slots = args.frontier c.nextRead

structure Files (args : Args) (c : Copy) : Prop where
  hasher : c.hasher
    = ⟨(List.range c.nextHash).map (piece c.source args.chunkSize), false⟩
  target_le : c.target.length ≤ args.sourceSize
  written : ∀ pos, pos < args.frontier c.nextRead →
    c.target[pos]? = c.source[pos]?
      ∨ ∃ (i : Nat) (s : BufferSlot), c.slots[i]? = some s
        ∧ s.phase ≠ .free ∧ s.offset ≤ pos ∧ pos < s.offset + s.length

/-- The invariant; `hole` is the slot whose completion is being handled. -/
structure Inv (src : Bytes) (args : Args) (hole : Option Nat)
    (c : Copy) : Prop where
  buffers : Buffers src args c
  sequence : Sequence args c
  tickets : Tickets args hole c
  accounts : Accounts args c
  files : Files args c

-- ========================================== what performing leaves alone

/-- A slot without its bytes. -/
def BufferSlot.key (s : BufferSlot) : BufferSlot := { s with bytes := [] }

/-- Between the two states the kernel has performed requests: buffers, the
target and the results of requests may differ, and nothing else. -/
structure Performed (c c' : Copy) : Prop where
  keys : c'.slots.map BufferSlot.key = c.slots.map BufferSlot.key
  sqes : c'.context.flights.map (·.sqe) = c.context.flights.map (·.sqe)
  rest : c' = { c with
    slots := c'.slots
    target := c'.target
    context := { c.context with flights := c'.context.flights } }

namespace Performed

variable {c c' c'' : Copy} {i : Nat} {s s' : BufferSlot}

theorem refl (c : Copy) : Performed c c := ⟨rfl, rfl, rfl⟩

theorem trans (h : Performed c c') (h' : Performed c' c'') :
    Performed c c'' := by
  refine ⟨h'.keys.trans h.keys, h'.sqes.trans h.sqes, ?_⟩
  calc c'' = { c' with
        slots := c''.slots
        target := c''.target
        context := { c'.context with flights := c''.context.flights } } :=
        h'.rest
    _ = { c with
        slots := c''.slots
        target := c''.target
        context := { c.context with flights := c''.context.flights } } := by
        rw [h.rest]

/-- Performing a request leaves the requests. -/
theorem requests (h : Performed c c') : c'.requests = c.requests := by
  have hsq : c'.context.sq = c.context.sq :=
    congrArg (fun c => c.context.sq) h.rest
  unfold Copy.requests
  rw [h.sqes, hsq]

/-- The slot that was there before. -/
theorem before (h : Performed c c') (hs : c'.slots[i]? = some s') :
    ∃ s, c.slots[i]? = some s ∧ s'.key = s.key := by
  have hmap : (c.slots.map BufferSlot.key)[i]? = some s'.key := by
    rw [← h.keys, List.getElem?_map, hs]
    rfl
  rw [List.getElem?_map, Option.map_eq_some_iff] at hmap
  obtain ⟨s, hs, hkey⟩ := hmap
  exact ⟨s, hs, hkey.symm⟩

/-- The slot that is there after. -/
theorem after (h : Performed c c') (hs : c.slots[i]? = some s) :
    ∃ s', c'.slots[i]? = some s' ∧ s'.key = s.key := by
  have hmap : (c'.slots.map BufferSlot.key)[i]? = some s.key := by
    rw [h.keys, List.getElem?_map, hs]
    rfl
  rw [List.getElem?_map, Option.map_eq_some_iff] at hmap
  exact hmap

/-- It leaves the buffers in their places. -/
theorem length (h : Performed c c') : c'.slots.length = c.slots.length := by
  have hlen := congrArg List.length h.keys
  rwa [List.length_map, List.length_map] at hlen

/-- A weight that does not look at the bytes. -/
theorem total {f : BufferSlot → Nat} (hf : ∀ s, f s.key = f s)
    (h : Performed c c') : total f c'.slots = total f c.slots := by
  have hmap : ∀ l : List BufferSlot,
      Overwrite.total f l = Overwrite.total f (l.map BufferSlot.key) := by
    intro l
    unfold Overwrite.total
    rw [List.map_map]
    congr 1
    exact List.map_congr_left fun s _ => (hf s).symm
  rw [hmap, hmap c.slots, h.keys]

end Performed

/-- Equal keys, field by field. -/
theorem key_eq_iff {s t : BufferSlot} : s.key = t.key ↔
    s.sequence = t.sequence ∧ s.offset = t.offset ∧ s.length = t.length
      ∧ s.progress = t.progress ∧ s.phase = t.phase := by
  cases s
  cases t
  simp [BufferSlot.key]

section Performing

variable {src : Bytes} {args : Args} {hole : Option Nat} {c c' : Copy}

/-- It starts no read. -/
theorem Performed.nextRead (h : Performed c c') : c'.nextRead = c.nextRead :=
  congrArg (fun c => c.nextRead) h.rest

/-- It hashes nothing. -/
theorem Performed.nextHash (h : Performed c c') : c'.nextHash = c.nextHash :=
  congrArg (fun c => c.nextHash) h.rest

/-- It leaves the source. -/
theorem Performed.source (h : Performed c c') : c'.source = c.source :=
  congrArg (fun c => c.source) h.rest

/-- The order of the chunks does not change. -/
theorem Sequence.performed (hs : Sequence args c) (h : Performed c c') :
    Sequence args c' := by
  have hread := h.nextRead
  have hhash := h.nextHash
  refine ⟨?_, ?_, ?_, ?_, ?_, ?_⟩
  · rw [hread, hhash]
    exact hs.hashed_le
  · rw [hread]
    exact hs.read_le
  · intro i s' hs' hfree
    obtain ⟨s, hi, hkey⟩ := h.before hs'
    obtain ⟨hseq, -, -, -, hphase⟩ := key_eq_iff.1 hkey
    rw [hread, hseq]
    rw [hphase] at hfree
    exact hs.lt_read i s hi hfree
  · intro i s' hs' hun
    obtain ⟨s, hi, hkey⟩ := h.before hs'
    obtain ⟨hseq, -, -, -, hphase⟩ := key_eq_iff.1 hkey
    rw [hhash, hseq]
    unfold Unhashed at hun
    rw [hphase] at hun
    exact hs.ge_hash i s hi hun
  · intro i s' hs' hsf j t' ht' htf hst
    obtain ⟨s, hi, hskey⟩ := h.before hs'
    obtain ⟨t, hj, htkey⟩ := h.before ht'
    obtain ⟨hsseq, -, -, -, hsphase⟩ := key_eq_iff.1 hskey
    obtain ⟨htseq, -, -, -, htphase⟩ := key_eq_iff.1 htkey
    rw [hsphase] at hsf
    rw [htphase] at htf
    rw [hsseq, htseq] at hst
    exact hs.distinct i s hi hsf j t hj htf hst
  · intro k hk hk'
    rw [hhash] at hk
    rw [hread] at hk'
    obtain ⟨i, s, hi, hseq, hun⟩ := hs.covered k hk hk'
    obtain ⟨s', hi', hkey⟩ := h.after hi
    obtain ⟨hseq', -, -, -, hphase⟩ := key_eq_iff.1 hkey
    refine ⟨i, s', hi', hseq'.trans hseq, ?_⟩
    unfold Unhashed
    rw [hphase]
    exact hun

/-- The counts do not change. -/
theorem Accounts.performed (ha : Accounts args c) (h : Performed c c') :
    Accounts args c' := by
  have hcompleted : c'.completed = c.completed :=
    congrArg (fun c => c.completed) h.rest
  have hbytes : c'.bytesCopied = c.bytesCopied :=
    congrArg (fun c => c.bytesCopied) h.rest
  refine ⟨?_, ?_⟩
  · rw [hcompleted, h.total fun _ => rfl, h.nextRead]
    exact ha.completed
  · rw [hbytes, h.total fun _ => rfl, h.nextRead]
    exact ha.bytes

/-- A request is told by the key of its buffer. -/
private theorem request_key {s s' : BufferSlot} (h : s'.key = s.key) (i : Nat)
    (w : Bool) : s'.request i w = s.request i w := by
  obtain ⟨-, hoffset, hlength, hprogress, -⟩ := key_eq_iff.1 h
  unfold BufferSlot.request
  rw [hoffset, hlength, hprogress]

/-- The tickets, once the performed requests are looked at again. -/
theorem Tickets.performed_of (ht : Tickets args hole c)
    (h : Performed c c')
    (hp : ∀ f ∈ c'.context.flights, ∀ n, f.res = some n →
      0 < n ∧ n ≤ f.sqe.length ∧ ∀ s, c'.slots[f.sqe.slot]? = some s →
        Moved c'.source c'.target s f.sqe.write (s.progress + n.toNat)) :
    Tickets args hole c' := by
  have hsq : c'.context.sq = c.context.sq :=
    congrArg (fun c => c.context.sq) h.rest
  have hentries : c'.context.entries = c.context.entries :=
    congrArg (fun c => c.context.entries) h.rest
  have hqueued : c'.queued = c.queued := congrArg (fun c => c.queued) h.rest
  refine ⟨?_, ?_, ?_, ?_, hp, ?_, ?_, ?_⟩
  · rw [h.length]
    exact ht.count
  · rw [hentries]
    exact ht.entries
  · rw [hqueued, hsq]
    exact ht.queued
  · intro r hr
    rw [h.requests] at hr
    obtain ⟨s, hs, hphase, hreq⟩ := ht.pending r hr
    obtain ⟨s', hs', hkey⟩ := h.after hs
    obtain ⟨-, -, -, -, hphase'⟩ := key_eq_iff.1 hkey
    refine ⟨s', hs', hphase'.trans hphase, ?_⟩
    rw [request_key hkey]
    exact hreq
  · rw [h.requests]
    exact ht.nodup
  · rintro i s' hs' ⟨w, hw⟩ hhole
    obtain ⟨s, hs, hkey⟩ := h.before hs'
    obtain ⟨-, -, -, -, hphase⟩ := key_eq_iff.1 hkey
    rw [h.requests]
    exact ht.busy i s hs ⟨w, hphase.symm.trans hw⟩ hhole
  · rw [h.requests]
    exact ht.reaped

/-- The target keeps what it has of the source. -/
def Kept (source target target' : Bytes) : Prop :=
  ∀ p : Nat, target[p]? = source[p]? → target'[p]? = source[p]?

/-- A target that stays is kept. -/
theorem Kept.refl (source target : Bytes) : Kept source target target :=
  fun _ h => h

/-- What has landed stays landed in a target that is kept. -/
theorem Kept.landed {source target target' : Bytes} {s : BufferSlot}
    {m : Nat} (h : Kept source target target')
    (hl : Landed source target s m) : Landed source target' s m :=
  fun j hj => h _ (hl j hj)

/-- What has moved stays moved. -/
theorem Kept.moved {source target target' : Bytes} {s : BufferSlot}
    {w : Bool} {m : Nat} (h : Kept source target target')
    (hm : Moved source target s w m) : Moved source target' s w m := by
  cases w with
  | false => exact hm
  | true => exact h.landed hm

/-- A buffer stays in order. -/
theorem Kept.bufferOk {source target target' : Bytes} {s : BufferSlot}
    (h : Kept source target target') (hb : BufferOk args source target s) :
    BufferOk args source target' s where
  size := hb.size
  shaped := hb.shaped
  reading := hb.reading
  ready := hb.ready
  writing := fun hp =>
    ⟨(hb.writing hp).1, (hb.writing hp).2.1, h.landed (hb.writing hp).2.2⟩

/-- The files stay in order. -/
theorem Files.performed (hf : Files args c) (h : Performed c c')
    (hkept : Kept c.source c.target c'.target)
    (hle : c'.target.length ≤ args.sourceSize) : Files args c' := by
  have hhasher : c'.hasher = c.hasher :=
    congrArg (fun c => c.hasher) h.rest
  refine ⟨?_, hle, ?_⟩
  · rw [hhasher, h.nextHash, h.source]
    exact hf.hasher
  · intro pos hpos
    rw [h.nextRead] at hpos
    rw [h.source]
    rcases hf.written pos hpos with hw | ⟨i, s, hs, hfree, hlo, hhi⟩
    · exact .inl (hkept pos hw)
    · obtain ⟨s', hs', hkey⟩ := h.after hs
      obtain ⟨-, hoffset, hlength, -, hphase⟩ := key_eq_iff.1 hkey
      refine .inr ⟨i, s', hs', ?_, ?_, ?_⟩
      · rw [hphase]
        exact hfree
      · rw [hoffset]
        exact hlo
      · rw [hoffset, hlength]
        exact hhi

/-- A buffer has one request under way. -/
theorem Tickets.flight_unique (ht : Tickets args hole c) {f g : Flight}
    (hf : f ∈ c.context.flights) (hg : g ∈ c.context.flights)
    (h : f.sqe.slot = g.sqe.slot) : f = g := by
  have hnodup := ht.nodup
  unfold Copy.requests at hnodup
  rw [List.map_append, List.map_map] at hnodup
  exact List.inj_on_of_nodup_map hnodup.of_append_left hf hg h

theorem Copy.slot_eq {i : Nat} {s : BufferSlot} (hs : c.slots[i]? = some s) :
    c.slot i = s := by
  unfold Copy.slot
  rw [List.getD_eq_getElem?_getD, hs]
  rfl

/-- The slot a request in flight is for. -/
theorem Inv.flight (h : Inv src args hole c) {f : Flight}
    (hf : f ∈ c.context.flights) : ∃ s, c.slots[f.sqe.slot]? = some s
      ∧ s.phase = busyPhase f.sqe.write
      ∧ f.sqe = s.request f.sqe.slot f.sqe.write
      ∧ BufferOk args c.source c.target s ∧ Shaped args s := by
  have hr : f.sqe ∈ c.requests :=
    List.mem_append_left _ (List.mem_map_of_mem hf)
  obtain ⟨s, hs, hphase, hreq⟩ := h.tickets.pending _ hr
  have hok := h.buffers.slots _ s hs
  refine ⟨s, hs, hphase, hreq, hok, hok.shaped ?_⟩
  rw [hphase]
  unfold busyPhase
  split <;> exact Phase.noConfusion

-- ================================================= one request performed

/-- A write of `n` bytes of a slot whose buffer is filled. -/
theorem write_lands {source target : Bytes} {s : BufferSlot} {n : Nat}
    (hok : BufferOk args source target s) (hshape : Shaped args s)
    (hsize : source.length = args.sourceSize)
    (hle : target.length ≤ args.sourceSize)
    (hphase : s.phase = .writing) (hn : s.progress + n ≤ s.length) :
    let target' := overwrite 0 target (s.offset + s.progress)
      ((s.bytes.drop s.progress).take n)
    Kept source target target' ∧ target'.length ≤ args.sourceSize
      ∧ Landed source target' s (s.progress + n) := by
  obtain ⟨-, hfilled, hlanded⟩ := hok.writing hphase
  have hbytes := hok.size
  have hlength := hshape.length
  have hinside := hshape.inside
  have hdata : ((s.bytes.drop s.progress).take n).length = n := by
    rw [List.length_take, List.length_drop]
    omega
  have hstretch : ∀ j, j < ((s.bytes.drop s.progress).take n).length →
      ((s.bytes.drop s.progress).take n)[j]?
        = source[s.offset + s.progress + j]? := by
    intro j hj
    rw [hdata] at hj
    rw [List.getElem?_take_of_lt hj, List.getElem?_drop,
      hfilled (s.progress + j) (by omega), Nat.add_assoc]
  have hlen : (overwrite 0 target (s.offset + s.progress)
      ((s.bytes.drop s.progress).take n)).length ≤ args.sourceSize := by
    rw [length_overwrite, hdata]
    omega
  have hkept : Kept source target (overwrite 0 target
      (s.offset + s.progress) ((s.bytes.drop s.progress).take n)) := by
    intro p hp
    by_cases hlt : p < source.length
    · exact getElem?_overwrite_keeps hstretch hlt hp
    · rw [List.getElem?_eq_none (by omega),
        List.getElem?_eq_none (by omega)]
  refine ⟨hkept, hlen, ?_⟩
  intro j hj
  by_cases hold : j < s.progress
  · exact hkept _ (hlanded j hold)
  · exact getElem?_overwrite_of_stretch hstretch (by omega)
      (by rw [hdata]; omega)

/-- A read of `n` bytes into a slot. -/
theorem read_fills {source target : Bytes} {s : BufferSlot} {n : Nat}
    (hok : BufferOk args source target s) (hshape : Shaped args s)
    (hsize : source.length = args.sourceSize)
    (hphase : s.phase = .reading) (hn : s.progress + n ≤ s.length) :
    let s' : BufferSlot := { s with
      bytes := overwrite 0 s.bytes s.progress
        ((source.drop (s.offset + s.progress)).take n) }
    BufferOk args source target s' ∧ Filled source s' (s.progress + n) := by
  obtain ⟨hlt, hfilled⟩ := hok.reading hphase
  have hbytes := hok.size
  have hlength := hshape.length
  have hinside := hshape.inside
  have hdata : ((source.drop (s.offset + s.progress)).take n).length = n := by
    rw [List.length_take, List.length_drop]
    omega
  have hnew : Filled source { s with
      bytes := overwrite 0 s.bytes s.progress
        ((source.drop (s.offset + s.progress)).take n) }
      (s.progress + n) := by
    intro j hj
    by_cases hold : j < s.progress
    · rw [getElem?_overwrite_out (.inl hold) (by omega)]
      exact hfilled j hold
    · rw [getElem?_overwrite_in (by omega) (by omega),
        List.getElem?_take_of_lt (by omega), List.getElem?_drop]
      congr 1
      show s.offset + s.progress + (j - s.progress) = s.offset + j
      omega
  refine ⟨⟨?_, ?_, ?_, ?_, ?_⟩, hnew⟩
  · rw [length_overwrite, hdata]
    omega
  · intro _
    exact ⟨hshape.offset, hshape.inside, hshape.length⟩
  · intro _
    exact ⟨hlt, fun j hj => hnew j (Nat.lt_add_right n hj)⟩
  · intro hp
    rw [hphase] at hp
    cases hp
  · intro hp
    rw [hphase] at hp
    cases hp

/-- What performing changes, spelled out. -/
theorem performAt_eq {i : Nat} {sqe : Sqe} {s : BufferSlot} {res : Int}
    (hf : c.context.flights[i]? = some ⟨sqe, none⟩)
    (hs : c.slots[sqe.slot]? = some s)
    (hreq : sqe = s.request sqe.slot sqe.write) (hpos : 0 < res) :
    c.performAt i res = { c with
      target := if sqe.write then overwrite 0 c.target
          (s.offset + s.progress) ((s.bytes.drop s.progress).take res.toNat)
        else c.target
      slots := if sqe.write then c.slots else c.slots.set sqe.slot { s with
        bytes := overwrite 0 s.bytes s.progress
          ((c.source.drop (s.offset + s.progress)).take res.toNat) }
      context := { c.context with
        flights := c.context.flights.set i ⟨sqe, some res⟩ } } := by
  have hposition : sqe.position = s.progress := by rw [hreq]; rfl
  have hoffset : sqe.offset = s.offset + s.progress := by rw [hreq]; rfl
  unfold Copy.performAt
  rw [hf]
  simp only [hpos, if_true, Copy.transfer, Copy.slot_eq hs, Copy.setSlot,
    hposition, hoffset]
  cases sqe.write <;> rfl

/-- The kernel performs a request in flight. -/
theorem Inv.performAt (h : Inv src args hole c) {i : Nat} {f : Flight}
    {res : Int} (hf : c.context.flights[i]? = some f) (hpos : 0 < res)
    (hle : res ≤ f.sqe.length) :
    Inv src args hole (c.performAt i res) ∧ Performed c (c.performAt i res) := by
  have hmem := List.mem_of_getElem? hf
  obtain ⟨s, hs, hphase, hreq, hok, hshape⟩ := h.flight hmem
  obtain ⟨sqe, r⟩ := f
  simp only at hs hphase hreq hle
  cases r with
  | some r =>
      have hsame : c.performAt i res = c := by
        unfold Copy.performAt
        rw [hf]
      rw [hsame]
      exact ⟨h, .refl c⟩
  | none =>
      have hn : s.progress + res.toNat ≤ s.length := by
        have hlength : sqe.length = s.length - s.progress := by
          rw [hreq]
          rfl
        omega
      -- an earlier result belongs to another slot
      have hother : ∀ g ∈ c.context.flights, ∀ n, g.res = some n →
          g.sqe.slot ≠ sqe.slot := by
        intro g hg n hgn hslot
        have heq := h.tickets.flight_unique hg hmem hslot
        rw [heq] at hgn
        cases hgn
      have hsqes : (c.context.flights.set i ⟨sqe, some res⟩).map (·.sqe)
          = c.context.flights.map (·.sqe) := map_set_of_eq hf rfl
      rw [performAt_eq hf hs hreq hpos]
      cases hw : sqe.write with
      | true =>
          rw [hw] at hphase
          obtain ⟨hkept, hlen, hlanded⟩ := write_lands hok hshape
            h.buffers.size h.files.target_le hphase hn
          simp only [if_true]
          refine (fun hp => ⟨⟨⟨h.buffers.source, h.buffers.size, ?_⟩,
            h.sequence.performed hp, h.tickets.performed_of hp ?_,
            h.accounts.performed hp, h.files.performed hp hkept hlen⟩, hp⟩)
            ⟨rfl, hsqes, rfl⟩
          · intro j t ht
            exact hkept.bufferOk (h.buffers.slots j t ht)
          · intro g hg n hgn
            rcases List.mem_or_eq_of_mem_set hg with hg | rfl
            · obtain ⟨h₁, h₂, h₃⟩ := h.tickets.performed g hg n hgn
              exact ⟨h₁, h₂, fun t ht => hkept.moved (h₃ t ht)⟩
            · cases hgn
              refine ⟨hpos, hle, fun t ht => ?_⟩
              cases hs.symm.trans ht
              rw [hw]
              exact hlanded
      | false =>
          rw [hw] at hphase
          obtain ⟨hok', hfilled⟩ := read_fills hok hshape h.buffers.size
            hphase hn
          simp only [Bool.false_eq_true, if_false]
          refine (fun hp => ⟨⟨⟨h.buffers.source, h.buffers.size, ?_⟩,
            h.sequence.performed hp, h.tickets.performed_of hp ?_,
            h.accounts.performed hp, h.files.performed hp (.refl _ _)
              h.files.target_le⟩, hp⟩)
            ⟨map_set_of_eq hs rfl, hsqes, rfl⟩
          · exact forall_set hok' fun j t _ ht => h.buffers.slots j t ht
          · intro g hg n hgn
            rcases List.mem_or_eq_of_mem_set hg with hg | rfl
            · obtain ⟨h₁, h₂, h₃⟩ := h.tickets.performed g hg n hgn
              refine ⟨h₁, h₂, fun t ht => h₃ t ?_⟩
              have hne := hother g hg n hgn
              rwa [List.getElem?_set_ne fun he => hne he.symm] at ht
            · cases hgn
              refine ⟨hpos, hle, fun t ht => ?_⟩
              cases (getElem?_set_of_some hs).symm.trans ht
              rw [hw]
              exact hfilled

end Performing

end PhotoBridge.IoUring
