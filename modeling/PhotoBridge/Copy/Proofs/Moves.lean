/-
The program's own moves keep the invariant of the copy: starting a read,
hashing a chunk and starting its write, going on after a short transfer,
and putting a slot to rest after a whole one.

Each move replaces one slot, and most of them post one request. The group
lemmas say what replacing a slot does to each group of the invariant; the
lemmas on `Inv` at the end put them together move by move.
-/
import PhotoBridge.Copy.Proofs.Invariant

namespace PhotoBridge.IoUring

open Overwrite

variable {src : Bytes} {args : Args} {hole : Option Nat} {c : Copy} {i : Nat}
  {s s' : BufferSlot} {w : Bool}

/-- Slot `i` becomes `s` and waits for a request for the rest of it. -/
def Copy.post (c : Copy) (i : Nat) (w : Bool) (s : BufferSlot) : Copy :=
  { c with
    slots := c.slots.set i { s with phase := busyPhase w }
    context := { c.context with
      sq := c.context.sq ++ [s.request i w] }
    queued := c.queued + 1 }

theorem busyPhase_ne_free : busyPhase w ≠ .free := by
  cases w <;> exact Phase.noConfusion

theorem busyPhase_ne_ready : busyPhase w ≠ .ready := by
  cases w <;> exact Phase.noConfusion

-- =========================================================== the tickets

private theorem requests_post : (c.post i w s).requests
    = c.requests ++ [s.request i w] := by
  unfold Copy.requests Copy.post
  rw [List.append_assoc]

/-- A slot that is neither reading nor writing has no request. -/
theorem Tickets.no_request (h : Tickets args hole c)
    (hs : c.slots[i]? = some s) (hidle : ∀ v, s.phase ≠ busyPhase v) :
    ∀ r ∈ c.requests, r.slot ≠ i := by
  rintro r hr rfl
  obtain ⟨t, ht, hphase, -⟩ := h.pending r hr
  rw [hs] at ht
  cases ht
  exact hidle _ hphase

/-- There is room for the request of a slot that has none. -/
theorem Tickets.room (h : Tickets args hole c) (hs : c.slots[i]? = some s)
    (hno : ∀ r ∈ c.requests, r.slot ≠ i) :
    c.context.sq.length < c.context.entries := by
  have hnodup : (i :: c.requests.map (·.slot)).Nodup := by
    rw [List.nodup_cons]
    refine ⟨?_, h.nodup⟩
    intro hmem
    obtain ⟨r, hr, hslot⟩ := List.mem_map.1 hmem
    exact hno r hr hslot
  have hsub : (i :: c.requests.map (·.slot)) ⊆ List.range c.slots.length := by
    intro j hj
    rw [List.mem_range]
    rcases List.mem_cons.1 hj with rfl | hj
    · exact (List.getElem?_eq_some_iff.1 hs).1
    · obtain ⟨r, hr, rfl⟩ := List.mem_map.1 hj
      obtain ⟨t, ht, -⟩ := h.pending r hr
      exact (List.getElem?_eq_some_iff.1 ht).1
  have hlen := hnodup.length_le_of_subset hsub
  rw [List.length_cons, List.length_map, List.length_range] at hlen
  have hsq : c.context.sq.length ≤ c.requests.length := by
    unfold Copy.requests
    rw [List.length_append]
    omega
  have hcount := h.count
  have hentries := h.entries
  have hslots : args.slotCount ≤ args.queueDepth := Nat.min_le_left _ _
  omega

/-- The tickets after a slot without a request gets one. -/
theorem Tickets.post (h : Tickets args hole c) (hs : c.slots[i]? = some s)
    (hno : ∀ r ∈ c.requests, r.slot ≠ i)
    (hhole : ∀ j, hole = some j → j = i) :
    Tickets args none (c.post i w s') := by
  have hget : ∀ r ∈ c.requests,
      (c.post i w s').slots[r.slot]? = c.slots[r.slot]? := by
    intro r hr
    exact List.getElem?_set_ne fun he => hno r hr he.symm
  have hself : (c.post i w s').slots[i]?
      = some { s' with phase := busyPhase w } := getElem?_set_of_some hs
  refine ⟨?_, h.entries, ?_, ?_, ?_, ?_, ?_, ?_⟩
  · unfold Copy.post
    rw [List.length_set]
    exact h.count
  · unfold Copy.post
    rw [List.length_append, h.queued]
    rfl
  · intro r hr
    rw [requests_post, List.mem_append, List.mem_singleton] at hr
    rcases hr with hr | rfl
    · rw [hget r hr]
      exact h.pending r hr
    · exact ⟨_, hself, rfl, rfl⟩
  · intro f hf n hn
    obtain ⟨h₁, h₂, h₃⟩ := h.performed f hf n hn
    refine ⟨h₁, h₂, fun t ht => h₃ t ?_⟩
    rwa [hget f.sqe (List.mem_append_left _ (List.mem_map_of_mem hf))] at ht
  · rw [requests_post, List.map_append, List.map_singleton,
      List.nodup_append]
    refine ⟨h.nodup, List.nodup_singleton _, ?_⟩
    intro a ha b hb hab
    obtain ⟨r, hr, rfl⟩ := List.mem_map.1 ha
    rw [List.mem_singleton] at hb
    exact hno r hr (hab.trans hb)
  · intro j t ht hbusy _
    rw [requests_post]
    by_cases hj : j = i
    · exact ⟨s'.request i w, List.mem_append_right _ (.head _), hj.symm⟩
    · rw [show (c.post i w s').slots[j]? = c.slots[j]? from
        List.getElem?_set_ne fun he => hj he.symm] at ht
      obtain ⟨r, hr, hslot⟩ :=
        h.busy j t ht hbusy fun he => hj (hhole j he)
      exact ⟨r, List.mem_append_left _ hr, hslot⟩
  · intro j hj
    cases hj

/-- The tickets after the slot of the completion is put to rest. -/
theorem Tickets.rest (h : Tickets args (some i) c)
    (hidle : ∀ v, s'.phase ≠ busyPhase v) :
    Tickets args none (c.setSlot i s') := by
  have hno := h.reaped i rfl
  have hget : ∀ r ∈ c.requests,
      (c.setSlot i s').slots[r.slot]? = c.slots[r.slot]? := by
    intro r hr
    exact List.getElem?_set_ne fun he => hno r hr he.symm
  refine ⟨?_, h.entries, h.queued, ?_, ?_, h.nodup, ?_, ?_⟩
  · unfold Copy.setSlot
    rw [List.length_set]
    exact h.count
  · intro r hr
    rw [hget r hr]
    exact h.pending r hr
  · intro f hf n hn
    obtain ⟨h₁, h₂, h₃⟩ := h.performed f hf n hn
    refine ⟨h₁, h₂, fun t ht => h₃ t ?_⟩
    rwa [hget f.sqe (List.mem_append_left _ (List.mem_map_of_mem hf))] at ht
  · refine forall_set ?_ ?_
    · rintro ⟨v, hv⟩
      exact absurd hv (hidle v)
    · intro j t hj ht hbusy _
      exact h.busy j t ht hbusy fun he => hj (Option.some.inj he).symm
  · intro j hj
    cases hj

-- ====================================================== the other groups

section Replaced

variable {c' : Copy} (hslots : c'.slots = c.slots.set i s')

include hslots

theorem Buffers.set (h : Buffers src args c) (hok : BufferOk args c.source
    c.target s') (hsource : c'.source = c.source)
    (htarget : c'.target = c.target) : Buffers src args c' := by
  refine ⟨hsource.trans h.source, hsource ▸ h.size, ?_⟩
  rw [hslots, hsource, htarget]
  exact forall_set hok fun j t _ ht => h.slots j t ht

/-- A slot goes on with its chunk, or lets go of it after hashing. -/
theorem Sequence.keep (h : Sequence args c) (hs : c.slots[i]? = some s)
    (hseq : s'.sequence = s.sequence) (hun : Unhashed s' ↔ Unhashed s)
    (hfree : s'.phase ≠ .free → s.phase ≠ .free)
    (hread : c'.nextRead = c.nextRead)
    (hhash : c'.nextHash = c.nextHash) : Sequence args c' := by
  refine ⟨?_, ?_, ?_, ?_, ?_, ?_⟩
  · rw [hread, hhash]
    exact h.hashed_le
  · rw [hread]
    exact h.read_le
  · rw [hslots, hread]
    refine forall_set ?_ fun j t _ ht => h.lt_read j t ht
    intro hf
    rw [hseq]
    exact h.lt_read i s hs (hfree hf)
  · rw [hslots, hhash]
    refine forall_set ?_ fun j t _ ht => h.ge_hash j t ht
    intro hu
    rw [hseq]
    exact h.ge_hash i s hs (hun.1 hu)
  · rw [hslots]
    refine forall_set ?_ ?_
    · intro hf
      refine forall_set (fun _ _ => rfl) ?_
      intro j t _ ht htf he
      rw [hseq] at he
      exact h.distinct i s hs (hfree hf) j t ht htf he
    · intro j t _ ht htf
      refine forall_set ?_ fun k u _ hu huf =>
        h.distinct j t ht htf k u hu huf
      intro hf he
      rw [hseq] at he
      exact h.distinct j t ht htf i s hs (hfree hf) he
  · rw [hread, hhash, hslots]
    intro k hk hk'
    obtain ⟨j, t, ht, htk, hu⟩ := h.covered k hk hk'
    by_cases hj : i = j
    · subst hj
      rw [hs] at ht
      cases ht
      exact ⟨i, s', getElem?_set_of_some hs, hseq.trans htk, hun.2 hu⟩
    · refine ⟨j, t, ?_, htk, hu⟩
      rw [List.getElem?_set_ne hj]
      exact ht

/-- A free slot takes the next chunk. -/
theorem Sequence.start (h : Sequence args c) (hs : c.slots[i]? = some s)
    (hfree : s.phase = .free) (hlt : c.nextRead < args.chunkCount)
    (hseq : s'.sequence = c.nextRead) (hphase : s'.phase = .reading)
    (hread : c'.nextRead = c.nextRead + 1)
    (hhash : c'.nextHash = c.nextHash) : Sequence args c' := by
  have hle := h.hashed_le
  refine ⟨?_, ?_, ?_, ?_, ?_, ?_⟩
  · omega
  · omega
  · rw [hslots, hread]
    refine forall_set ?_ ?_
    · intro _
      omega
    · intro j t _ ht htf
      have hlt' := h.lt_read j t ht htf
      omega
  · rw [hslots, hhash]
    refine forall_set ?_ fun j t _ ht => h.ge_hash j t ht
    intro _
    omega
  · -- the new sequence number is above all the others
    rw [hslots]
    refine forall_set ?_ ?_
    · intro _
      refine forall_set (fun _ _ => rfl) ?_
      intro j t _ ht htf he
      have hlt' := h.lt_read j t ht htf
      omega
    · intro j t _ ht htf
      refine forall_set ?_ fun k u _ hu huf =>
        h.distinct j t ht htf k u hu huf
      intro _ he
      have hlt' := h.lt_read j t ht htf
      omega
  · rw [hread, hhash, hslots]
    intro k hk hk'
    by_cases hnew : k = c.nextRead
    · exact ⟨i, s', getElem?_set_of_some hs, hseq.trans hnew.symm,
        .inl hphase⟩
    · obtain ⟨j, t, ht, htk, hu⟩ := h.covered k hk (by omega)
      refine ⟨j, t, ?_, htk, hu⟩
      rw [List.getElem?_set_ne]
      · exact ht
      · rintro rfl
        rw [hs] at ht
        cases ht
        unfold Unhashed at hu
        rw [hfree] at hu
        rcases hu with hu | hu <;> cases hu

/-- The next chunk is hashed. -/
theorem Sequence.hash (h : Sequence args c) (hs : c.slots[i]? = some s)
    (hready : s.phase = .ready) (hnext : s.sequence = c.nextHash)
    (hseq : s'.sequence = s.sequence) (hphase : s'.phase = .writing)
    (hread : c'.nextRead = c.nextRead)
    (hhash : c'.nextHash = c.nextHash + 1) : Sequence args c' := by
  have hsf : s.phase ≠ .free := by
    rw [hready]
    exact Phase.noConfusion
  have hlt := h.lt_read i s hs hsf
  refine ⟨?_, ?_, ?_, ?_, ?_, ?_⟩
  · omega
  · rw [hread]
    exact h.read_le
  · rw [hslots, hread]
    refine forall_set ?_ fun j t _ ht => h.lt_read j t ht
    intro _
    omega
  · rw [hslots, hhash]
    refine forall_set ?_ ?_
    · intro hu
      unfold Unhashed at hu
      rw [hphase] at hu
      rcases hu with hu | hu <;> cases hu
    · -- no other slot has the chunk that was next
      intro j t hj ht hu
      have hge := h.ge_hash j t ht hu
      have htf : t.phase ≠ .free := by
        rcases hu with hu | hu <;> rw [hu] <;> exact Phase.noConfusion
      have hne : t.sequence ≠ s.sequence := fun he =>
        hj (h.distinct j t ht htf i s hs hsf he)
      omega
  · rw [hslots]
    refine forall_set ?_ ?_
    · intro _
      refine forall_set (fun _ _ => rfl) ?_
      intro j t _ ht htf he
      rw [hseq] at he
      exact h.distinct i s hs hsf j t ht htf he
    · intro j t _ ht htf
      refine forall_set ?_ fun k u _ hu huf =>
        h.distinct j t ht htf k u hu huf
      intro _ he
      rw [hseq] at he
      exact h.distinct j t ht htf i s hs hsf he
  · rw [hread, hhash, hslots]
    intro k hk hk'
    obtain ⟨j, t, ht, htk, hu⟩ := h.covered k (by omega) hk'
    refine ⟨j, t, ?_, htk, hu⟩
    rw [List.getElem?_set_ne]
    · exact ht
    · rintro rfl
      rw [hs] at ht
      cases ht
      omega

theorem Accounts.keep (h : Accounts args c) (hs : c.slots[i]? = some s)
    (hfree : s.phase ≠ .free) (hfree' : s'.phase ≠ .free)
    (hlen : s'.length = s.length) (hread : c'.nextRead = c.nextRead)
    (hcompleted : c'.completed = c.completed)
    (hbytes : c'.bytesCopied = c.bytesCopied) : Accounts args c' := by
  have huse : inUse s' = inUse s := by
    unfold inUse
    rw [if_neg hfree, if_neg hfree']
  have hheld : held s' = held s := by
    unfold held
    rw [if_neg hfree, if_neg hfree', hlen]
  have h₁ := total_set (f := inUse) (b := s') hs
  have h₂ := total_set (f := held) (b := s') hs
  have h₃ := h.completed
  have h₄ := h.bytes
  refine ⟨?_, ?_⟩
  · rw [hslots, hread, hcompleted]
    omega
  · rw [hslots, hread, hbytes]
    omega

theorem Accounts.start (h : Accounts args c) (hs : c.slots[i]? = some s)
    (hfree : s.phase = .free) (hfree' : s'.phase ≠ .free)
    (hlen : s'.length
      = min args.chunkSize (args.sourceSize - c.nextRead * args.chunkSize))
    (hread : c'.nextRead = c.nextRead + 1)
    (hcompleted : c'.completed = c.completed)
    (hbytes : c'.bytesCopied = c.bytesCopied) : Accounts args c' := by
  have huse : inUse s = 0 ∧ inUse s' = 1 := by
    unfold inUse
    rw [if_pos hfree, if_neg hfree']
    exact ⟨rfl, rfl⟩
  have hheld : held s = 0 ∧ held s' = s'.length := by
    unfold held
    rw [if_pos hfree, if_neg hfree']
    exact ⟨rfl, rfl⟩
  have h₁ := total_set (f := inUse) (b := s') hs
  have h₂ := total_set (f := held) (b := s') hs
  have h₃ := h.completed
  have h₄ := h.bytes
  refine ⟨?_, ?_⟩
  · rw [hslots, hread, hcompleted]
    omega
  · rw [hslots, hread, hbytes, frontier_succ]
    omega

theorem Accounts.release (h : Accounts args c) (hs : c.slots[i]? = some s)
    (hfree : s.phase ≠ .free) (hfree' : s'.phase = .free)
    (hread : c'.nextRead = c.nextRead)
    (hcompleted : c'.completed = c.completed + 1)
    (hbytes : c'.bytesCopied = c.bytesCopied + s.length) :
    Accounts args c' := by
  have huse : inUse s = 1 ∧ inUse s' = 0 := by
    unfold inUse
    rw [if_neg hfree, if_pos hfree']
    exact ⟨rfl, rfl⟩
  have hheld : held s = s.length ∧ held s' = 0 := by
    unfold held
    rw [if_neg hfree, if_pos hfree']
    exact ⟨rfl, rfl⟩
  have h₁ := total_set (f := inUse) (b := s') hs
  have h₂ := total_set (f := held) (b := s') hs
  have h₃ := h.completed
  have h₄ := h.bytes
  refine ⟨?_, ?_⟩
  · rw [hslots, hread, hcompleted]
    omega
  · rw [hslots, hread, hbytes]
    omega

theorem Files.keep (h : Files args c) (hs : c.slots[i]? = some s)
    (hfree' : s'.phase ≠ .free) (hoffset : s'.offset = s.offset)
    (hlen : s'.length = s.length) (hread : c'.nextRead = c.nextRead)
    (hsource : c'.source = c.source) (htarget : c'.target = c.target)
    (hhasher : c'.hasher = ⟨(List.range c'.nextHash).map
      (piece c'.source args.chunkSize), false⟩) : Files args c' := by
  refine ⟨hhasher, ?_, ?_⟩
  · rw [htarget]
    exact h.target_le
  · rw [hread, hsource, htarget, hslots]
    intro pos hpos
    rcases h.written pos hpos with hw | ⟨j, t, ht, htf, hlo, hhi⟩
    · exact .inl hw
    · right
      by_cases hj : i = j
      · subst hj
        rw [hs] at ht
        cases ht
        exact ⟨i, s', getElem?_set_of_some hs, hfree', by omega, by omega⟩
      · refine ⟨j, t, ?_, htf, hlo, hhi⟩
        rw [List.getElem?_set_ne hj]
        exact ht

theorem Files.start (h : Files args c) (hs : c.slots[i]? = some s)
    (hfree : s.phase = .free) (hfree' : s'.phase ≠ .free)
    (hoffset : s'.offset = c.nextRead * args.chunkSize)
    (hlen : s'.length
      = min args.chunkSize (args.sourceSize - c.nextRead * args.chunkSize))
    (hread : c'.nextRead = c.nextRead + 1)
    (hhash : c'.nextHash = c.nextHash) (hhasher : c'.hasher = c.hasher)
    (hsource : c'.source = c.source) (htarget : c'.target = c.target) :
    Files args c' := by
  refine ⟨?_, ?_, ?_⟩
  · rw [hhasher, hhash, hsource]
    exact h.hasher
  · rw [htarget]
    exact h.target_le
  · rw [hread, hsource, htarget, hslots]
    intro pos hpos
    by_cases hold : pos < args.frontier c.nextRead
    · rcases h.written pos hold with hw | ⟨j, t, ht, htf, hlo, hhi⟩
      · exact .inl hw
      · refine .inr ⟨j, t, ?_, htf, hlo, hhi⟩
        rw [List.getElem?_set_ne]
        · exact ht
        · rintro rfl
          rw [hs] at ht
          cases ht
          exact htf hfree
    · -- the positions past the old frontier are the new chunk
      rw [frontier_succ] at hpos
      unfold Args.frontier at hpos hold
      exact .inr ⟨i, s', getElem?_set_of_some hs, hfree', by omega,
        by omega⟩

theorem Files.release (h : Files args c) (hs : c.slots[i]? = some s)
    (hlanded : Landed c.source c.target s s.length)
    (hread : c'.nextRead = c.nextRead) (hhash : c'.nextHash = c.nextHash)
    (hhasher : c'.hasher = c.hasher) (hsource : c'.source = c.source)
    (htarget : c'.target = c.target) : Files args c' := by
  refine ⟨?_, ?_, ?_⟩
  · rw [hhasher, hhash, hsource]
    exact h.hasher
  · rw [htarget]
    exact h.target_le
  · rw [hread, hsource, htarget, hslots]
    intro pos hpos
    rcases h.written pos hpos with hw | ⟨j, t, ht, htf, hlo, hhi⟩
    · exact .inl hw
    · by_cases hj : i = j
      · subst hj
        rw [hs] at ht
        cases ht
        left
        have hland := hlanded (pos - s.offset) (by omega)
        rwa [show s.offset + (pos - s.offset) = pos by omega] at hland
      · refine .inr ⟨j, t, ?_, htf, hlo, hhi⟩
        rw [List.getElem?_set_ne hj]
        exact ht

end Replaced

-- ============================================================= the moves

/-- The chunk of a filled slot. -/
theorem take_filled {source target : Bytes} (hok : BufferOk args source
    target s) (hshape : Shaped args s)
    (hsize : source.length = args.sourceSize)
    (hfilled : Filled source s s.length) :
    s.bytes.take s.length = piece source args.chunkSize s.sequence := by
  have hbytes := hok.size
  have hlength := hshape.length
  unfold piece
  rw [← hshape.offset]
  apply List.ext_getElem?
  intro j
  by_cases hj : j < s.length
  · rw [List.getElem?_take_of_lt hj, List.getElem?_take_of_lt (by omega),
      List.getElem?_drop]
    exact hfilled j hj
  · rw [List.getElem?_eq_none, List.getElem?_eq_none]
    · rw [List.length_take, List.length_drop]
      omega
    · rw [List.length_take]
      omega

/-- The slot with the next chunk to read. -/
def BufferSlot.starting (args : Args) (nextRead : Nat) (s : BufferSlot) :
    BufferSlot :=
  { s with
    sequence := nextRead
    offset := nextRead * args.chunkSize
    length := min args.chunkSize
      (args.sourceSize - nextRead * args.chunkSize)
    progress := 0 }

theorem Inv.start (h : Inv src args none c) (hc : 0 < args.chunkSize)
    (hs : c.slots[i]? = some s) (hfree : s.phase = .free)
    (hlt : c.nextRead < args.chunkCount) :
    Inv src args none (({ c with nextRead := c.nextRead + 1 } : Copy).post i
      false (s.starting args c.nextRead)) := by
  have hidle : ∀ v, s.phase ≠ busyPhase v := by
    intro v hv
    rw [hfree] at hv
    exact busyPhase_ne_free hv.symm
  have hno := h.tickets.no_request hs hidle
  have hinside := (lt_chunkCount_iff hc).1 hlt
  have hok := h.buffers.slots i s hs
  have hnew : BufferOk args c.source c.target
      { s.starting args c.nextRead with phase := .reading } := by
    refine ⟨hok.size, fun _ => ⟨rfl, hinside, rfl⟩, fun _ => ⟨?_, ?_⟩,
      fun hp => ?_, fun hp => ?_⟩
    · show 0 < min args.chunkSize _
      omega
    · intro j hj
      exact absurd hj (Nat.not_lt_zero j)
    · cases hp
    · cases hp
  have hslots : (({ c with nextRead := c.nextRead + 1 } : Copy).post i
      false (s.starting args c.nextRead)).slots = c.slots.set i
        { s.starting args c.nextRead with phase := .reading } := rfl
  refine ⟨h.buffers.set hslots hnew rfl rfl,
    h.sequence.start hslots hs hfree hlt rfl rfl rfl rfl, ?_,
    h.accounts.start hslots hs hfree Phase.noConfusion rfl rfl rfl rfl,
    h.files.start hslots hs hfree Phase.noConfusion rfl rfl rfl rfl rfl rfl
      rfl⟩
  have ht : Tickets args none { c with nextRead := c.nextRead + 1 } :=
    ⟨h.tickets.count, h.tickets.entries, h.tickets.queued,
      h.tickets.pending, h.tickets.performed, h.tickets.nodup,
      h.tickets.busy, h.tickets.reaped⟩
  exact ht.post hs hno fun j hj => nomatch hj

/-- The state in which the hasher has taken one more chunk. -/
def Copy.hashed (c : Copy) (chunk : Bytes) : Copy :=
  { c with
    hasher := ⟨c.hasher.updates ++ [chunk], false⟩
    nextHash := c.nextHash + 1 }

theorem Inv.hash (h : Inv src args none c) (hc : 0 < args.chunkSize)
    (hs : c.slots[i]? = some s) (hready : s.phase = .ready)
    (hnext : s.sequence = c.nextHash) :
    Inv src args none ((c.hashed (s.bytes.take s.length)).post i true
      { s with progress := 0 }) := by
  have hidle : ∀ v, s.phase ≠ busyPhase v := by
    intro v hv
    rw [hready] at hv
    exact busyPhase_ne_ready hv.symm
  have hno := h.tickets.no_request hs hidle
  have hsf : s.phase ≠ .free := by
    rw [hready]
    exact Phase.noConfusion
  have hok := h.buffers.slots i s hs
  have hshape := hok.shaped hsf
  have hfilled := hok.ready hready
  have hnew : BufferOk args c.source c.target
      { s with progress := 0, phase := .writing } := by
    refine ⟨hok.size, fun _ => ⟨hshape.offset, hshape.inside,
      hshape.length⟩, fun hp => ?_, fun hp => ?_, fun _ => ⟨?_, ?_, ?_⟩⟩
    · cases hp
    · cases hp
    · show 0 < s.length
      have hlen := hshape.length
      have hin := hshape.inside
      omega
    · exact hfilled
    · intro j hj
      exact absurd hj (Nat.not_lt_zero j)
  have hslots : ((c.hashed (s.bytes.take s.length)).post i true
      { s with progress := 0 }).slots
        = c.slots.set i { s with progress := 0, phase := .writing } := rfl
  refine ⟨h.buffers.set hslots hnew rfl rfl,
    h.sequence.hash hslots hs hready hnext rfl rfl rfl rfl, ?_,
    h.accounts.keep hslots hs hsf Phase.noConfusion rfl rfl rfl rfl,
    h.files.keep hslots hs Phase.noConfusion rfl rfl rfl rfl rfl ?_⟩
  · have ht : Tickets args none (c.hashed (s.bytes.take s.length)) :=
      ⟨h.tickets.count, h.tickets.entries, h.tickets.queued,
        h.tickets.pending, h.tickets.performed, h.tickets.nodup,
        h.tickets.busy, h.tickets.reaped⟩
    exact ht.post hs hno fun j hj => nomatch hj
  · show (⟨c.hasher.updates ++ [s.bytes.take s.length], false⟩ : Hasher)
      = ⟨(List.range (c.nextHash + 1)).map
          (piece c.source args.chunkSize), false⟩
    rw [h.files.hasher, take_filled hok hshape h.buffers.size hfilled,
      List.range_succ, List.map_append, hnext]
    rfl

/-- What the slot of a completion becomes. -/
def BufferSlot.advanced (s : BufferSlot) (n : Nat) : BufferSlot :=
  { s with progress := s.progress + n }

/-- After a short transfer the rest is asked for. -/
theorem Inv.resume (h : Inv src args (some i) c) (hs : c.slots[i]? = some s)
    (hphase : s.phase = busyPhase w) {n : Nat}
    (hmoved : Moved c.source c.target s w (s.progress + n))
    (hlt : s.progress + n < s.length) :
    Inv src args none (c.post i w (s.advanced n)) := by
  have hsf : s.phase ≠ .free := by
    rw [hphase]
    exact busyPhase_ne_free
  have hok := h.buffers.slots i s hs
  have hshape := hok.shaped hsf
  have hnew : BufferOk args c.source c.target
      { s.advanced n with phase := busyPhase w } := by
    refine ⟨hok.size, fun _ => ⟨hshape.offset, hshape.inside,
      hshape.length⟩, fun hp => ?_, fun hp => ?_, fun hp => ?_⟩
    · cases w with
      | true => cases hp
      | false => exact ⟨hlt, hmoved⟩
    · exact absurd hp busyPhase_ne_ready
    · cases w with
      | false => cases hp
      | true => exact ⟨hlt, (hok.writing hphase).2.1, hmoved⟩
  have hslots : (c.post i w (s.advanced n)).slots
      = c.slots.set i { s.advanced n with phase := busyPhase w } := rfl
  refine ⟨h.buffers.set hslots hnew rfl rfl,
    h.sequence.keep hslots hs rfl ?_ (fun _ => hsf) rfl rfl,
    h.tickets.post hs (h.tickets.reaped i rfl) ?_,
    h.accounts.keep hslots hs hsf busyPhase_ne_free rfl rfl rfl rfl,
    h.files.keep hslots hs busyPhase_ne_free rfl rfl rfl rfl rfl
      h.files.hasher⟩
  · unfold Unhashed
    rw [hphase]
  · intro j hj
    exact (Option.some.inj hj).symm

/-- A chunk is read. -/
theorem Inv.readDone (h : Inv src args (some i) c) (hs : c.slots[i]? = some s)
    (hphase : s.phase = .reading) {n : Nat}
    (hfilled : Filled c.source s (s.progress + n))
    (heq : s.progress + n = s.length) :
    Inv src args none (c.setSlot i { s.advanced n with phase := .ready }) := by
  have hsf : s.phase ≠ .free := by
    rw [hphase]
    exact Phase.noConfusion
  have hok := h.buffers.slots i s hs
  have hshape := hok.shaped hsf
  have hnew : BufferOk args c.source c.target
      { s.advanced n with phase := .ready } := by
    refine ⟨hok.size, fun _ => ⟨hshape.offset, hshape.inside,
      hshape.length⟩, fun hp => ?_, fun _ => ?_, fun hp => ?_⟩
    · cases hp
    · rw [heq] at hfilled
      exact hfilled
    · cases hp
  have hslots : (c.setSlot i { s.advanced n with phase := .ready }).slots
      = c.slots.set i { s.advanced n with phase := .ready } := rfl
  refine ⟨h.buffers.set hslots hnew rfl rfl,
    h.sequence.keep hslots hs rfl ?_ (fun _ => hsf) rfl rfl,
    h.tickets.rest fun v hv => busyPhase_ne_ready hv.symm,
    h.accounts.keep hslots hs hsf Phase.noConfusion rfl rfl rfl rfl,
    h.files.keep hslots hs Phase.noConfusion rfl rfl rfl rfl rfl
      h.files.hasher⟩
  exact ⟨fun _ => .inl hphase, fun _ => .inr rfl⟩

/-- The state in which one more chunk is counted. -/
def Copy.counted (c : Copy) (length : Nat) : Copy :=
  { c with
    bytesCopied := c.bytesCopied + length, completed := c.completed + 1 }

/-- A chunk is written. -/
theorem Inv.writeDone (h : Inv src args (some i) c) (hs : c.slots[i]? = some s)
    (hphase : s.phase = .writing) {n : Nat}
    (hlanded : Landed c.source c.target s (s.progress + n))
    (heq : s.progress + n = s.length) :
    Inv src args none ((c.counted s.length).setSlot i
      { s.advanced n with phase := .free }) := by
  have hsf : s.phase ≠ .free := by
    rw [hphase]
    exact Phase.noConfusion
  have hok := h.buffers.slots i s hs
  rw [heq] at hlanded
  have hnew : BufferOk args c.source c.target
      { s.advanced n with phase := .free } := by
    refine ⟨hok.size, fun hp => absurd rfl hp, fun hp => ?_, fun hp => ?_,
      fun hp => ?_⟩ <;> cases hp
  have hslots : ((c.counted s.length).setSlot i
      { s.advanced n with phase := .free }).slots
        = c.slots.set i { s.advanced n with phase := .free } := rfl
  refine ⟨h.buffers.set hslots hnew rfl rfl,
    h.sequence.keep hslots hs rfl ?_ (fun hp => absurd rfl hp) rfl rfl, ?_,
    h.accounts.release hslots hs hsf rfl rfl rfl rfl,
    h.files.release hslots hs hlanded rfl rfl rfl rfl rfl⟩
  · unfold Unhashed
    rw [hphase]
    constructor <;> rintro (hp | hp) <;> cases hp
  · have ht : Tickets args (some i) (c.counted s.length) :=
      ⟨h.tickets.count, h.tickets.entries, h.tickets.queued,
        h.tickets.pending, h.tickets.performed, h.tickets.nodup,
        h.tickets.busy, h.tickets.reaped⟩
    exact ht.rest fun v hv => busyPhase_ne_free hv.symm

end PhotoBridge.IoUring
