/-
One body, received by a handler nobody interferes with (`ReceiveBody` of
`http_server.cpp`). However the reader divides the body and however few
bytes a write takes, the digest returned is that of a body of just the
size registered, in the file; any other body leaves no file.

The count of what was received never passes the size registered, so the
subtraction in the receiver is one of whole numbers (`receiveChunks_exact`)
and no file grows beyond that size, not even where the handler is stopped
(`WithinBounds`).
-/
import PhotoBridge.Upload.Host
import PhotoBridge.Upload.Proofs.Handler

namespace PhotoBridge.Upload

open Concurrent SharedConnection

-- ======================================================== whole numbers

/-- The reader, as it would be with whole numbers of any size. -/
def receiveChunksExact (fd : Inode) (expected : Nat) (complete : Bool) :
    List Bytes → (hashed : Bytes) → ServerM Received
  | [], hashed => pure ⟨complete, false, UInt64.ofNat hashed.length, hashed⟩
  | chunk :: rest, hashed =>
      if expected < hashed.length + chunk.length then
        pure ⟨false, true, UInt64.ofNat hashed.length, hashed⟩
      else do
        let written ← writeAll fd chunk
        if !written then
          pure ⟨false, false, UInt64.ofNat hashed.length, hashed⟩
        else receiveChunksExact fd expected complete rest (hashed ++ chunk)

/-- The subtraction never goes below zero, and the sum does not wrap. -/
theorem receiveChunks_exact (fd : Inode) (expected : UInt64)
    (complete : Bool) (chunks : List Bytes) (hashed : Bytes)
    (hle : hashed.length ≤ expected.toNat) :
    receiveChunks fd expected complete chunks
        (UInt64.ofNat hashed.length) hashed
      = receiveChunksExact fd expected.toNat complete chunks hashed := by
  induction chunks generalizing hashed with
  | nil => rfl
  | cons chunk rest ih =>
      have hlt := expected.toNat_lt
      have hreceived : (UInt64.ofNat hashed.length).toNat = hashed.length := by
        rw [UInt64.toNat_ofNat', Nat.mod_eq_of_lt (by omega)]
      have hroom : (expected - UInt64.ofNat hashed.length).toNat
          = expected.toNat - hashed.length := by
        rw [UInt64.toNat_sub_of_le, hreceived]
        rw [UInt64.le_iff_toNat_le, hreceived]
        exact hle
      rw [receiveChunks, receiveChunksExact, hroom]
      by_cases hover : expected.toNat < hashed.length + chunk.length
      · rw [if_pos hover, if_pos (by omega)]
      · rw [if_neg hover, if_neg (by omega)]
        congr 1
        funext written
        cases written with
        | false => rfl
        | true =>
            have hsum : UInt64.ofNat hashed.length + UInt64.ofNat chunk.length
                = UInt64.ofNat (hashed ++ chunk).length := by
              rw [List.length_append, UInt64.ofNat_add]
            show receiveChunks fd expected complete rest
              (UInt64.ofNat hashed.length + UInt64.ofNat chunk.length)
                (hashed ++ chunk) = _
            rw [hsum]
            refine ih (hashed ++ chunk) ?_
            rw [List.length_append]
            omega

-- ============================================================ the bounds

section

variable (start : Disk) (path : Path) (expected : Nat)

/-- Of the files there were, and of their names but this one, nothing has
changed; a file made since is no larger than expected. -/
structure WithinBounds (disk : Disk) : Prop where
  bounded : disk.content start.next = start.content start.next
    ∨ (disk.content start.next).length ≤ expected
  contents : ∀ file, file ≠ start.next →
    disk.content file = start.content file
  files : ∀ other, other ≠ path → disk.files other = start.files other

/-- The new file is there, with this content. -/
structure Holds (data : Bytes) (disk : Disk) : Prop where
  content : disk.content start.next = data
  named : disk.files path = some start.next

/-- The program keeps within the bounds on its way from one assertion
about the disk to the other, with nobody else there. -/
abbrev Serves {α : Type} (faulty : Bool) (pre : Disk → Prop) (p : ServerM α)
    (post : α → Disk → Prop) : Prop :=
  Triple (Protocol.alone fun host : Host Disk =>
      WithinBounds start path expected host.system)
    (fun _ => hostActs (!faulty) (storeOnDisk faulty) (systemOnDisk faulty)) ()
    (fun host => pre host.system) p (fun a host => post a host.system)

end

variable {start : Disk} {path : Path} {expected : Nat} {faulty : Bool}
  {α : Type} {pre pre' : Disk → Prop} {post : α → Disk → Prop}

/-- A system call. -/
theorem Serves.system {c : SystemCall} {next : c.Answer → ServerM α}
    {m : c.Answer → Disk → Prop}
    (hc : ∀ disk r disk', WithinBounds start path expected disk → pre disk →
      systemOnDisk faulty c disk r disk' →
        WithinBounds start path expected disk' ∧ m r disk')
    (hnext : ∀ r, Serves start path expected faulty (m r) (next r) post) :
    Serves start path expected faulty pre
      (.call (I := serverCalls) (.inr c) next) post := by
  refine Triple.call .alone (fun host r host' hinv hpre hact => ?_) hnext
  obtain ⟨hwithin, hm⟩ := hc host.system r host'.system hinv hpre hact.1
  exact ⟨hwithin, trivial, hm⟩

theorem Serves.done {a : α}
    (h : ∀ disk, WithinBounds start path expected disk → pre disk →
      post a disk) :
    Serves start path expected faulty pre (.done a) post :=
  Triple.done .alone fun host hinv hpre => h host.system hinv hpre

theorem Serves.weaken {p : ServerM α}
    (h : Serves start path expected faulty pre' p post)
    (hpre : ∀ disk, pre disk → pre' disk) :
    Serves start path expected faulty pre p post :=
  Triple.weaken h fun host _ => hpre host.system

theorem Serves.given {p : ServerM α} {q : Prop}
    (h : q → Serves start path expected faulty pre p post) :
    Serves start path expected faulty (fun disk => q ∧ pre disk) p post :=
  Triple.given h

theorem Serves.bind {β : Type} {p : ServerM α} {k : α → ServerM β}
    {mid : α → Disk → Prop} {post : β → Disk → Prop}
    (hp : Serves start path expected faulty pre p mid)
    (hk : ∀ a, Serves start path expected faulty (mid a) (k a) post) :
    Serves start path expected faulty pre (p >>= k) post :=
  Triple.bind hp hk

/-- Bytes appended to the new file. -/
theorem Holds.append {disk : Disk} {data more : Bytes}
    (h : Holds start path data disk) :
    Holds start path (data ++ more) (disk.append start.next more) := by
  refine ⟨?_, h.named⟩
  rw [Disk.append_content_self, h.content]

theorem WithinBounds.append {disk : Disk} {data more : Bytes}
    (hw : WithinBounds start path expected disk) (h : Holds start path data disk)
    (hle : (data ++ more).length ≤ expected) :
    WithinBounds start path expected (disk.append start.next more) := by
  refine ⟨.inr ?_, fun file hne => ?_, hw.files⟩
  · rw [Disk.append_content_self, h.content]
    exact hle
  · exact (Function.update_of_ne hne ..).trans (hw.contents file hne)

private theorem writeLoop_serves (fuel : Nat) (rest data : Bytes)
    (hfuel : rest.length ≤ fuel) (hle : (data ++ rest).length ≤ expected) :
    Serves start path expected faulty (Holds start path data)
      (writeLoop start.next fuel rest)
      fun ok disk => ok = true ∧ Holds start path (data ++ rest) disk
        ∨ ok = false ∧ faulty = true ∧ ∃ data, Holds start path data disk := by
  induction fuel generalizing rest data with
  | zero =>
      cases rest with
      | cons byte rest => cases hfuel
      | nil =>
          refine .done fun disk _ hpre => .inl ⟨rfl, ?_⟩
          rw [List.append_nil]
          exact hpre
  | succ fuel ih =>
      cases rest with
      | nil =>
          refine .done fun disk _ hpre => .inl ⟨rfl, ?_⟩
          rw [List.append_nil]
          exact hpre
      | cons byte rest =>
      refine .system (m := fun r disk => r = 0 ∧ faulty = true
            ∧ Holds start path data disk
          ∨ r ≠ 0 ∧ Holds start path (data ++ (byte :: rest).take r) disk)
        (fun disk r disk' hw hpre hact => ?_) fun r => ?_
      · rcases hact with ⟨hpos, hr, rfl⟩ | ⟨hr, rfl, hfaulty⟩
        · have hshort : (data ++ (byte :: rest).take r).length ≤ expected := by
            rw [List.length_append] at hle ⊢
            have htake := List.length_take_le' r (byte :: rest)
            omega
          refine ⟨hw.append hpre hshort, .inr ⟨?_, hpre.append⟩⟩
          rcases hpos with hpos | hnil
          · exact Nat.ne_of_gt hpos
          · cases hnil
        · exact ⟨hw, .inl ⟨hr, hfaulty, hpre⟩⟩
      · by_cases hr : r = 0
        · subst hr
          refine .done fun disk _ hpre => .inr ⟨rfl, ?_⟩
          rcases hpre with ⟨-, hfaulty, hpre⟩ | ⟨hne, -⟩
          · exact ⟨hfaulty, data, hpre⟩
          · exact absurd rfl hne
        · have hdrop : ((byte :: rest).drop r).length ≤ fuel :=
            World.length_drop_le hr hfuel
          have hwhole : data ++ (byte :: rest).take r
              ++ (byte :: rest).drop r = data ++ byte :: rest := by
            rw [List.append_assoc, List.take_append_drop]
          have hrest := ih ((byte :: rest).drop r)
            (data ++ (byte :: rest).take r) hdrop (by rw [hwhole]; exact hle)
          rw [hwhole] at hrest
          show Serves _ _ _ _ _ (if r = 0 then _ else _) _
          rw [if_neg hr]
          refine hrest.weaken fun disk hpre => ?_
          rcases hpre with ⟨hzero, -⟩ | ⟨-, hpre⟩
          · exact absurd hzero hr
          · exact hpre

/-- What the reader leaves: the whole of `whole` hashed and in the file,
or why not. -/
inductive Delivered (start : Disk) (path : Path) (expected : Nat)
    (faulty complete : Bool) (whole : Bytes) (got : Received) (disk : Disk) :
    Prop
  | all (hgot : got = ⟨complete, false, UInt64.ofNat whole.length, whole⟩)
      (hle : whole.length ≤ expected) (h : Holds start path whole disk)
  | excess (hread : got.readOk = false) (hover : got.sizeOverflow = true)
      (hlong : expected < whole.length)
      (h : ∃ data, Holds start path data disk)
  | failed (hread : got.readOk = false) (hover : got.sizeOverflow = false)
      (hfaulty : faulty = true) (h : ∃ data, Holds start path data disk)

private theorem receiveChunks_serves (complete : Bool) (chunks : List Bytes)
    (hashed : Bytes) (hle : hashed.length ≤ expected) :
    Serves start path expected faulty (Holds start path hashed)
      (receiveChunksExact start.next expected complete chunks hashed)
      (Delivered start path expected faulty complete
        (hashed ++ chunks.flatten)) := by
  induction chunks generalizing hashed with
  | nil =>
      refine .done fun disk _ hpre => ?_
      rw [List.flatten_nil, List.append_nil]
      exact .all rfl hle hpre
  | cons chunk rest ih =>
      rw [receiveChunksExact, List.flatten_cons, ← List.append_assoc]
      by_cases hover : expected < hashed.length + chunk.length
      · rw [if_pos hover]
        refine .done fun disk _ hpre => .excess rfl rfl ?_ ⟨hashed, hpre⟩
        rw [List.length_append, List.length_append]
        omega
      · rw [if_neg hover]
        have hroom : (hashed ++ chunk).length ≤ expected := by
          rw [List.length_append]
          omega
        have hwrite := @writeLoop_serves start path expected faulty
          chunk.length chunk hashed (Nat.le_refl _) hroom
        refine .bind hwrite fun ok => ?_
        cases ok with
        | false =>
            show Serves _ _ _ _ _ (.done _) _
            refine .done fun disk _ hpre => ?_
            rcases hpre with ⟨hok, -⟩ | ⟨-, hfaulty, hdata⟩
            · cases hok
            · exact .failed rfl rfl hfaulty hdata
        | true =>
            show Serves _ _ _ _ _ (receiveChunksExact _ _ _ _ _) _
            refine (ih (hashed ++ chunk) hroom).weaken fun disk hpre => ?_
            rcases hpre with ⟨-, hpre⟩ | ⟨hok, -⟩
            · exact hpre
            · cases hok

-- ============================================================= one body

/-- A call that leaves the disk as it is. -/
theorem Serves.still {c : SystemCall} {next : c.Answer → ServerM α}
    {q : c.Answer → Prop}
    (hc : ∀ disk r disk', systemOnDisk faulty c disk r disk' →
      disk' = disk ∧ q r)
    (hnext : ∀ r, q r → Serves start path expected faulty pre (next r) post) :
    Serves start path expected faulty pre
      (.call (I := serverCalls) (.inr c) next) post := by
  refine .system (m := fun r disk => q r ∧ pre disk)
    (fun disk r disk' hw hpre hact => ?_) fun r => .given (hnext r)
  obtain ⟨rfl, hq⟩ := hc disk r disk' hact
  exact ⟨hw, hq, hpre⟩

/-- Nothing was made yet; without faults the name is free. -/
structure Vacant (start : Disk) (path : Path) (faulty : Bool)
    (disk : Disk) : Prop where
  next : disk.next = start.next
  free : faulty = false → disk = start.unlink path

/-- What `ReceiveBody` leaves. -/
structure Left (start : Disk) (path : Path) (expected : UInt64) (faulty : Bool)
    (blake3 : Bytes → Digest) (body : Body)
    (r : Except Status Digest × Bool) (disk : Disk) : Prop where
  exact : ∀ digest, r.1 = .ok digest → body.complete = true
    ∧ body.content.length = expected.toNat ∧ digest = blake3 body.content
    ∧ disk.files path = some start.next
    ∧ disk.content start.next = body.content
  otherwise : ∀ e, r.1 = .error e → faulty = false →
    ¬(body.complete = true ∧ body.content.length = expected.toNat)
      ∧ disk.files path = none
  overflow : faulty = false →
    (r.2 = true ↔ expected.toNat < body.content.length)

/-- The whole body came, and it has the size registered. -/
theorem Delivered.exact {expected : UInt64} {complete : Bool} {whole : Bytes}
    {got : Received} {disk : Disk}
    (h : Delivered start path expected.toNat faulty complete whole got disk)
    (hread : (got.readOk && got.received == expected) = true) :
    complete = true ∧ whole.length = expected.toNat ∧ got.hashed = whole
      ∧ got.sizeOverflow = false ∧ Holds start path whole disk := by
  rw [Bool.and_eq_true, beq_iff_eq] at hread
  obtain ⟨hok, hreceived⟩ := hread
  cases h with
  | all hgot hle h =>
      subst hgot
      have hlt := expected.toNat_lt
      have hlength := congrArg UInt64.toNat hreceived
      rw [UInt64.toNat_ofNat', Nat.mod_eq_of_lt (by omega)] at hlength
      exact ⟨hok, hlength, rfl, rfl, h⟩
  | excess hnot =>
      rw [hok] at hnot
      cases hnot
  | failed hnot =>
      rw [hok] at hnot
      cases hnot

/-- Without faults there is one reason why not. -/
theorem Delivered.why {expected : UInt64} {complete : Bool} {whole : Bytes}
    {got : Received} {disk : Disk}
    (h : Delivered start path expected.toNat faulty complete whole got disk)
    (hf : faulty = false) :
    (complete = true ∧ whole.length = expected.toNat →
        (got.readOk && got.received == expected) = true)
      ∧ (got.sizeOverflow = true ↔ expected.toNat < whole.length) := by
  cases h with
  | all hgot hle h =>
      subst hgot
      refine ⟨fun hexact => ?_, ?_⟩
      · rw [hexact.1, hexact.2, UInt64.ofNat_toNat]
        simp
      · constructor
        · intro hover
          cases hover
        · intro hlong
          omega
  | excess _ hover hlong _ =>
      refine ⟨fun hexact => ?_, ?_⟩
      · omega
      · rw [hover]
        exact iff_of_true rfl hlong
  | failed _ _ hfaulty _ =>
      rw [hf] at hfaulty
      cases hfaulty

private theorem syncReceived_serves (expected : UInt64) (bound : Nat)
    (got : Received) :
    Serves start path bound faulty pre
      (syncReceived start.next expected got)
      fun ok disk => (if got.readOk && got.received == expected then
        ok = true ∨ faulty = true else ok = false) ∧ pre disk := by
  unfold syncReceived
  by_cases hread : (got.readOk && got.received == expected) = true
  · rw [if_pos hread]
    simp only [if_pos hread]
    exact .still (fun _ _ _ h => h) fun r hr =>
      .done fun _ _ hpre => ⟨hr, hpre⟩
  · rw [if_neg hread]
    simp only [if_neg hread]
    exact .done fun _ _ hpre => ⟨rfl, hpre⟩

/-- Taking the name away. -/
theorem WithinBounds.unlink {disk : Disk}
    (hw : WithinBounds start path expected disk) :
    WithinBounds start path expected (disk.unlink path) :=
  ⟨hw.bounded, hw.contents, fun other hne =>
    (Function.update_of_ne hne ..).trans (hw.files other hne)⟩

/-- Making the file. -/
theorem WithinBounds.create {disk : Disk}
    (hw : WithinBounds start path expected disk)
    (hnext : disk.next = start.next) :
    WithinBounds start path expected (disk.create path)
      ∧ Holds start path [] (disk.create path) := by
  have hcontent : (disk.create path).content start.next = [] := by
    rw [← hnext]
    exact Function.update_self ..
  refine ⟨⟨.inr ?_, fun file hne => ?_, fun other hne => ?_⟩, hcontent, ?_⟩
  · rw [hcontent]
    exact Nat.zero_le _
  · rw [← hnext] at hne
    refine (Function.update_of_ne hne ..).trans (hw.contents file ?_)
    rw [← hnext]
    exact hne
  · exact (Function.update_of_ne hne ..).trans (hw.files other hne)
  · rw [← hnext]
    exact Function.update_self ..

private theorem receiveBody_serves (blake3 : Bytes → Digest) (expected : UInt64)
    (body : Body)
    (hroom : faulty = false → (start.unlink path).Admits path) :
    Serves start path expected.toNat faulty (fun disk => disk = start)
      (receiveBody blake3 path expected body)
      (Left start path expected faulty blake3 body) := by
  -- what was left under the name is taken away
  unfold receiveBody
  refine .system (m := fun _ => Vacant start path faulty)
    (fun disk r disk' hw hpre hact => ?_) fun _ => ?_
  · subst hpre
    rcases hact with rfl | ⟨rfl, hfaulty⟩
    · exact ⟨hw.unlink, rfl, fun _ => rfl⟩
    · refine ⟨hw, rfl, fun hf => ?_⟩
      rw [hf] at hfaulty
      cases hfaulty
  -- then the temp is made, or there is a reason that it is not
  refine .system (m := fun r disk =>
      (r = none → faulty = true)
        ∧ ∀ fd, r = some fd → fd = start.next ∧ Holds start path [] disk)
    (fun disk r disk' hw hpre hact => ?_) fun r => ?_
  · rcases hact with ⟨-, rfl, rfl⟩ | ⟨rfl, rfl, hwhy⟩
    · obtain ⟨hwithin, hholds⟩ := hw.create hpre.next
      refine ⟨hwithin, fun hnone => ?_, fun fd hfd => ?_⟩
      · cases hnone
      · cases hfd
        exact ⟨hpre.next, hholds⟩
    · refine ⟨hw, fun _ => ?_, fun fd hfd => ?_⟩
      · rcases hwhy with hfaulty | hnot
        · exact hfaulty
        · by_contra hf
          rw [Bool.not_eq_true] at hf
          rw [hpre.free hf] at hnot
          exact hnot (hroom hf)
      · cases hfd
  cases r with
  | none =>
      refine .done fun disk _ hpre => ?_
      have hfaulty := hpre.1 rfl
      refine ⟨fun digest hr => ?_, fun e _ hf => ?_, fun hf => ?_⟩
      · cases hr
      · rw [hf] at hfaulty
        cases hfaulty
      · rw [hf] at hfaulty
        cases hfaulty
  -- the chunks, the sync and the close, in turn
  | some fd =>
      have hchunks := @receiveChunks_serves start path expected.toNat faulty
        body.complete body.chunks [] (Nat.zero_le _)
      rw [← receiveChunks_exact _ _ _ _ _ (Nat.zero_le _), List.nil_append]
        at hchunks
      refine .weaken (.given (q := fd = start.next) fun hfd => ?_)
        fun disk hpre => hpre.2 fd rfl
      subst hfd
      show Serves _ _ _ _ _ (receiveChunks start.next expected body.complete
        body.chunks 0 [] >>= fun got => _) _
      refine .bind hchunks fun got => ?_
      refine .bind (syncReceived_serves expected _ got) fun syncOk => ?_
      refine .given fun hsync => .still
        (q := fun closed => closed = true ∨ faulty = true)
        (fun _ _ _ h => h) fun closed hclosed => ?_
      by_cases hfailed : (!syncOk || !closed) = true
      · -- the file is taken away again
        show Serves _ _ _ _ _ (if (!syncOk || !closed) = true then _ else _) _
        rw [if_pos hfailed]
        -- where nothing fails, the body is the only reason for giving up
        have hwhy : ∀ disk, Delivered start path expected.toNat faulty
            body.complete body.chunks.flatten got disk → faulty = false →
            ¬(body.complete = true
                ∧ body.content.length = expected.toNat)
              ∧ (got.sizeOverflow = true
                ↔ expected.toNat < body.content.length) := by
          intro disk h hf
          obtain ⟨hexact, hover⟩ := h.why hf
          refine ⟨fun hall => ?_, hover⟩
          rw [if_pos (hexact hall), hf] at hsync
          rw [hf] at hclosed
          rw [hsync.resolve_right Bool.false_ne_true,
            hclosed.resolve_right Bool.false_ne_true] at hfailed
          cases hfailed
        refine .system (m := fun _ disk => faulty = false →
            (¬(body.complete = true
                ∧ body.content.length = expected.toNat)
              ∧ (got.sizeOverflow = true
                ↔ expected.toNat < body.content.length))
            ∧ disk.files path = none)
          (fun disk r disk' hw hpre hact => ?_) fun _ => ?_
        · rcases hact with rfl | ⟨rfl, hfaulty⟩
          · exact ⟨hw.unlink, fun hf =>
              ⟨hwhy disk hpre hf, Function.update_self ..⟩⟩
          · refine ⟨hw, fun hf => ?_⟩
            rw [hf] at hfaulty
            cases hfaulty
        · show Serves _ _ _ _ _ (if got.sizeOverflow = true then _ else _) _
          by_cases hover : got.sizeOverflow = true
          · rw [if_pos hover]
            refine .done fun disk _ hpre => ⟨fun digest hr => ?_,
              fun e _ hf => ⟨(hpre hf).1.1, (hpre hf).2⟩,
              fun hf => iff_of_true rfl ((hpre hf).1.2.1 hover)⟩
            cases hr
          · rw [if_neg hover]
            refine .done fun disk _ hpre => ⟨fun digest hr => ?_,
              fun e _ hf => ⟨(hpre hf).1.1, (hpre hf).2⟩, fun hf => ?_⟩
            · cases hr
            · exact iff_of_false Bool.false_ne_true
                (mt (hpre hf).1.2.2 hover)
      · -- the digest is returned
        show Serves _ _ _ _ _ (if (!syncOk || !closed) = true then _ else _) _
        rw [if_neg hfailed]
        -- a sync that succeeded was asked for, so the body was read and
        -- counted
        have hread : (got.readOk && got.received == expected) = true := by
          by_contra hnot
          rw [if_neg hnot] at hsync
          rw [hsync] at hfailed
          exact hfailed rfl
        refine .done fun disk _ hpre => ?_
        obtain ⟨hcomplete, hlength, hhashed, hover, hholds⟩ :=
          hpre.exact hread
        refine ⟨fun digest hr => ?_, fun e hr => ?_, fun _ => ?_⟩
        · cases hr
          rw [hhashed]
          exact ⟨hcomplete, hlength, rfl, hholds.named, hholds.content⟩
        · cases hr
        · rw [hover]
          refine iff_of_false Bool.false_ne_true ?_
          unfold Body.content
          omega

-- ============================================================ statements

theorem WithinBounds.refl : WithinBounds start path expected start :=
  ⟨.inl rfl, fun _ _ => rfl, fun _ _ => rfl⟩

/-- A run to the end. -/
theorem Serves.returns {p : ServerM α} {link : Link UploadDb}
    {a : α} {host : Host Disk}
    (h : Serves start path expected faulty (fun disk => disk = start) p post)
    (hrun : Returns (hostActs (!faulty) (storeOnDisk faulty)
      (systemOnDisk faulty)) p ⟨link, start⟩ a host) : post a host.system := by
  have hbegin : WithinBounds start path expected
      (⟨link, start⟩ : Host Disk).system := .refl
  exact (Triple.returns h hbegin rfl hrun).2

/-- A run stopped anywhere. -/
theorem Serves.visits {p : ServerM α} {link : Link UploadDb}
    {host : Host Disk}
    (h : Serves start path expected faulty (fun disk => disk = start) p post)
    (hrun : Visits (hostActs (!faulty) (storeOnDisk faulty)
      (systemOnDisk faulty)) p ⟨link, start⟩ host) :
    WithinBounds start path expected host.system := by
  have hbegin : WithinBounds start path expected
      (⟨link, start⟩ : Host Disk).system := .refl
  exact Triple.visits h hbegin rfl hrun

/-- A body is received exactly. `disk` is how the handler finds the disk;
the reader returns true exactly if the body came to its end and all of
its chunks were taken. -/
structure BodiesExact (blake3 : Bytes → Digest) : Prop where
  /-- No count is ever less than zero or more than fits. -/
  counts : ∀ (fd : Inode) (expected : UInt64) (complete : Bool)
    (chunks : List Bytes),
    receiveChunks fd expected complete chunks 0 []
      = receiveChunksExact fd expected.toNat complete chunks []
  received : ∀ (link : Link UploadDb) (disk : Disk) (path : Path)
    (expected : UInt64) (body : Body) (r : Except Status Digest × Bool)
    (host : Host Disk), (disk.unlink path).Admits path →
    Returns (hostActs true (storeOnDisk false) (systemOnDisk false))
      (receiveBody blake3 path expected body) ⟨link, disk⟩ r host →
    ((∃ digest, r.1 = .ok digest)
        ↔ body.complete = true ∧ body.content.length = expected.toNat)
      ∧ (∀ digest, r.1 = .ok digest → digest = blake3 body.content
        ∧ ∃ file, host.system.files path = some file
          ∧ host.system.content file = body.content)
      ∧ (∀ e, r.1 = .error e → host.system.files path = none)
      ∧ (r.2 = true ↔ expected.toNat < body.content.length)
  /-- Also where calls fail and wherever the handler is stopped. -/
  bounded : ∀ (link : Link UploadDb) (disk : Disk) (path : Path)
    (expected : UInt64) (body : Body) (host : Host Disk),
    Visits (hostActs false (storeOnDisk true) (systemOnDisk true))
      (receiveBody blake3 path expected body) ⟨link, disk⟩ host →
    ∀ file, host.system.content file = disk.content file
      ∨ (host.system.content file).length ≤ expected.toNat

/-- Whatever the size, the body and its division. -/
theorem bodies_exact (blake3 : Bytes → Digest) : BodiesExact blake3 where
  counts := fun fd expected complete chunks =>
    receiveChunks_exact fd expected complete chunks [] (Nat.zero_le _)
  received := by
    intro link disk path expected body r host hroom hrun
    have h := (@receiveBody_serves disk path false blake3 expected body
      fun _ => hroom).returns hrun
    refine ⟨⟨fun hok => ?_, fun hexact => ?_⟩, fun digest hok => ?_,
      fun e herr => (h.otherwise e herr rfl).2, h.overflow rfl⟩
    · obtain ⟨digest, hok⟩ := hok
      obtain ⟨hcomplete, hlength, -⟩ := h.exact digest hok
      exact ⟨hcomplete, hlength⟩
    · cases hr : r.1 with
      | error e => exact absurd hexact (h.otherwise e hr rfl).1
      | ok digest => exact ⟨digest, rfl⟩
    · obtain ⟨-, -, hdigest, hnamed, hcontent⟩ := h.exact digest hok
      exact ⟨hdigest, disk.next, hnamed, hcontent⟩
  bounded := by
    intro link disk path expected body host hrun file
    have hfaulty : true = false → (disk.unlink path).Admits path := by
      intro h
      cases h
    have hwithin :=
      (receiveBody_serves blake3 expected body hfaulty).visits hrun
    by_cases hfile : file = disk.next
    · rw [hfile]
      exact hwithin.bounded
    · exact .inl (hwithin.contents file hfile)

/-- A disk with one directory, and nothing in it. -/
def stagingDisk : Disk where
  files _ := none
  directories path := path == [text "t"]
  content _ := []
  synced _ := false
  next := 0

def twoChunks : Body := ⟨[text "ab", text "c"], true⟩

/-- What becomes of the two chunks where no call fails. -/
def twoChunksReceived (expected : UInt64) :
    (Except Status Digest × Bool) × Host Disk :=
  (receiveBody (fun _ => .zero) [text "t", text "f"] expected twoChunks).eval
    hostAnswers ⟨Link.opened .empty, stagingDisk⟩

private theorem twoChunksReceived_returns (expected : UInt64) :
    Returns (hostActs true (storeOnDisk false) (systemOnDisk false))
      (receiveBody (fun _ => .zero) [text "t", text "f"] expected twoChunks)
      ⟨Link.opened .empty, stagingDisk⟩ (twoChunksReceived expected).1
      (twoChunksReceived expected).2 :=
  Program.eval_returns (hostAnswers_acts false) _ _

/-- They are taken as three bytes, and not as two: the second chunk is too
much. -/
theorem bodies_exact_twoChunks :
    ((∃ digest, (twoChunksReceived 3).1.1 = .ok digest)
        ∧ (twoChunksReceived 3).1.2 = false)
      ∧ (twoChunksReceived 2).2.system.files [text "t", text "f"] = none
      ∧ (twoChunksReceived 2).1.2 = true := by
  have hroom : (stagingDisk.unlink [text "t", text "f"]).Admits
      [text "t", text "f"] := by decide
  have hthree := (bodies_exact fun _ => .zero).received _ _ _ _ _ _ _ hroom
    (twoChunksReceived_returns 3)
  have htwo := (bodies_exact fun _ => .zero).received _ _ _ _ _ _ _ hroom
    (twoChunksReceived_returns 2)
  have hover : (twoChunksReceived 2).1.2 = true := htwo.2.2.2.2 (by decide)
  refine ⟨⟨hthree.1.2 ⟨rfl, rfl⟩, ?_⟩, ?_, hover⟩
  · exact Bool.eq_false_iff.2 fun h => by
      exact absurd (hthree.2.2.2.1 h) (by decide)
  · cases hr : (twoChunksReceived 2).1.1 with
    | error e => exact htwo.2.2.1 e hr
    | ok digest => exact absurd (htwo.1.1 ⟨digest, hr⟩).2 (by decide)

end PhotoBridge.Upload
