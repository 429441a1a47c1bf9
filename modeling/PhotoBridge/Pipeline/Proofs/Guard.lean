/-
What `VerifyBinary` and the guard make of a file nobody touches.

The loop of `VerifyBinary` has read what lies before the position of the
descriptor, and has fed the hasher with it in pieces; each round takes at
least a byte of what is left, so more rounds than there are bytes are
enough.
-/
import PhotoBridge.Pipeline.Guard
import PhotoBridge.Pipeline.Proofs.Files

namespace PhotoBridge

open Concurrent

-- ============================================================== versions

/-- The size of a file fits in 64 bits. -/
theorem FileVersion.length_le (v : FileVersion) :
    v.content.length ≤ uint64Max := by
  have hlt := v.identity.size.toNat_lt
  rw [v.size] at hlt
  unfold uint64Max
  omega

namespace DiskFile

variable {f g h : DiskFile}

theorem Becomes.refl (f : DiskFile) : f.Becomes f := List.suffix_refl _

theorem Becomes.trans (hfg : f.Becomes g) (hgh : g.Becomes h) : f.Becomes h :=
  List.IsSuffix.trans hfg hgh

/-- The versions of a file are its content, and all there is to know. -/
theorem current_of_versions (hsame : g.versions = f.versions) :
    g.current = f.current := (List.cons.inj hsame).1

/-- What is as it was at the end was so all the time. -/
theorem Becomes.unmodified (hfg : f.Becomes g) (hgh : g.Becomes h)
    (hsame : h.versions = f.versions) : g.versions = f.versions := by
  have hback : g.versions <:+ f.versions := hsame ▸ hgh
  have hlength := Nat.le_antisymm hback.length_le hfg.length_le
  exact hback.eq_of_length hlength

/-- No identity comes back: a file that has its identity again was not
modified. -/
theorem Becomes.of_identity (hfg : f.Becomes g)
    (hidentity : g.current.identity = f.current.identity) :
    g.versions = f.versions := by
  rcases List.suffix_cons_iff.1 hfg with hsame | hpast
  · exact hsame.symm
  · -- a modified file has the identity twice
    have hold : f.current ∈ g.past := hpast.subset List.mem_cons_self
    have hdistinct := List.nodup_cons.1 (List.map_cons ▸ g.distinct)
    rw [hidentity] at hdistinct
    exact absurd (List.mem_map_of_mem hold) hdistinct.1

end DiskFile

/-- What is left of a file, read in two pieces. -/
theorem take_drop_append {content : Bytes} {position n : Nat} :
    content.take position ++ (content.drop position).take n
      = content.take (position + n) := by
  rw [← List.take_add]

private theorem length_chunk {content : Bytes} {position n : Nat}
    (h : position + n ≤ content.length) :
    ((content.drop position).take n).length = n := by
  rw [List.length_take, List.length_drop]
  omega

-- ================================================================== quiet

section Quiet

variable {strerror : Nat → Bytes} {blake3 : Bytes → Digest} {w : Machine}
  {fd size : Nat} {o : OpenFile} {f : DiskFile}
  {fail : Status → Machine → Prop}

/-- The machine after a descriptor was moved. -/
def Machine.seek (w : Machine) (fd : Nat) (o : OpenFile) (position : Nat) :
    Machine :=
  { w with disk := w.disk.seek fd o position }

/-- The loop ends with all of the file read and hashed. -/
theorem verifyLoop_quiet (hsize : 0 < size) (rounds : Nat) :
    ∀ (w : Machine) (o : OpenFile) (hasher : Hasher),
      w.disk.openFile? fd = some (o, f) →
      o.position ≤ f.current.content.length →
      hasher.finalized = false →
      hasher.updates.flatten = f.current.content.take o.position →
      f.current.content.length - o.position < rounds →
      Yields (pipelineEffects strerror blake3 .none) False
        (fun r w' => r.1 = f.current.content.length ∧ r.2.finalized = false
          ∧ r.2.updates.flatten = f.current.content
          ∧ w' = w.seek fd o f.current.content.length)
        fail (verifyLoop fd size rounds o.position hasher) w := by
  induction rounds with
  | zero =>
      intro w o hasher _ _ _ _ hrounds
      omega
  | succ rounds ih =>
      intro w o hasher hopen hle hfresh hread hrounds
      have hmax := f.current.length_le
      rw [verifyLoop]
      refine .bind (read_quiet hopen fun n hn hrest hmoves => ?_)
      have hend : o.position + n ≤ f.current.content.length := by omega
      have hlength := length_chunk hend
      refine .ite (fun hlong => ?_) fun _ => .ite (fun hempty => ?_) fun hmore =>
        .ite (fun hover => ?_) fun _ => ?_
      · omega
      · -- the end of the file
        rw [hempty, List.length_nil] at hlength
        have hall : o.position = f.current.content.length := by
          have hdone := mt (hmoves hsize) (by omega)
          omega
        refine .pure ⟨hall, hfresh, ?_, ?_⟩
        · rw [hread, hall, List.take_length]
        · rw [← hlength, Nat.add_zero, hall]
          rfl
      · rw [hlength] at hover
        omega
      · have hpos : 0 < n := by
          rcases Nat.eq_zero_or_pos n with hzero | hpos
          · rw [hzero, List.take_zero] at hmore
            exact absurd rfl hmore
          · exact hpos
        refine .bind (.ofExcept (fun hasher' hupdate => ?_) fun e he => ?_)
        · simp only [Hasher.update, hfresh] at hupdate
          cases hupdate
          rw [hlength]
          have hrest := ih (w.seek fd o (o.position + n))
            { o with position := o.position + n }
            ⟨hasher.updates ++ [(f.current.content.drop o.position).take n],
              false⟩
            (Disk.openFile?_seek hopen _) hend rfl ?_ (by simp only; omega)
          · refine hrest.mono ?_ fun _ _ h => h
            rintro r w' ⟨hn, hf, hflat, rfl⟩
            refine ⟨hn, hf, hflat, ?_⟩
            unfold Machine.seek
            rw [Disk.seek_seek]
          · rw [List.flatten_append, hread, List.flatten_singleton,
              take_drop_append]
        · simp only [Hasher.update, hfresh] at he
          cases he

/-- What `VerifyBinary` returns for a file. -/
def verificationOf (blake3 : Bytes → Digest) (v : FileVersion)
    (expectedSize : Nat) (expectedDigest : Option Digest) :
    BinaryVerificationResult where
  status := binaryStatus expectedSize expectedDigest v.content.length
    (blake3 v.content)
  bytesRead := v.content.length
  targetDigest := blake3 v.content
  targetBefore := v.identity
  targetAfter := v.identity

/-- `VerifyBinary` of a file just opened. -/
theorem verifyBinary_quiet (hsize : 0 < size) {rounds expectedSize : Nat}
    {expectedDigest : Option Digest}
    (hopen : w.disk.openFile? fd = some (o, f)) (hstart : o.position = 0)
    (hrounds : f.current.content.length < rounds) :
    Yields (pipelineEffects strerror blake3 .none) False
      (fun r w' => r = verificationOf blake3 f.current expectedSize
          expectedDigest
        ∧ w' = w.seek fd o f.current.content.length)
      fail (verifyBinary blake3 .fresh fd expectedSize expectedDigest size
        rounds) w := by
  unfold verifyBinary
  refine .ite (fun hzero => by omega) fun _ => ?_
  refine .bind (statFd_quiet hopen ?_)
  have hloop := @verifyLoop_quiet strerror blake3 fd size f fail hsize rounds w o
    .fresh hopen (by omega) rfl (by rw [hstart]; rfl) (by omega)
  rw [hstart] at hloop
  refine hloop.andThen ?_
  rintro ⟨bytesRead, hasher⟩ w' ⟨rfl, hfresh, hflat, rfl⟩
  refine .bind (statFd_quiet (Disk.openFile?_seek hopen _) ?_)
  refine .ite (fun hne => absurd rfl hne) fun _ => ?_
  simp only at hfresh hflat
  refine .bind (.ofExcept (fun digest hdigest => ?_) fun e he => ?_)
  · simp only [Hasher.finalize, hfresh, hflat] at hdigest
    cases hdigest
    exact .pure ⟨rfl, rfl⟩
  · simp only [Hasher.finalize, hfresh] at he
    cases he

end Quiet

-- ================================================================== rough

section Rough

variable {strerror : Nat → Bytes} {blake3 : Bytes → Digest}
  {trouble : Trouble} {w : Machine} {fd size : Nat} {o : OpenFile}
  {f : DiskFile} {Q : Machine → Prop}

/-- What neither others nor reading from this descriptor change. -/
structure Lasting (trouble : Trouble) (fd : Nat) (Q : Machine → Prop) :
    Prop where
  drifts : ∀ {w disk}, w.disk.Disturbed trouble disk → Q w → Q { w with disk }
  seeks : ∀ {w o position}, Q w → Q (w.seek fd o position)

/-- A loop over a file nobody modifies: when it ends, all of the file is
read and hashed, however often it was interrupted. -/
theorem verifyLoop_rough (hQ : Lasting trouble fd Q) (hsize : 0 < size)
    (rounds : Nat) : ∀ (w : Machine) (o : OpenFile) (hasher : Hasher),
      w.disk.openFile? fd = some (o, f) → ¬trouble.disturbed o.file →
      o.position ≤ f.current.content.length → hasher.finalized = false →
      hasher.updates.flatten = f.current.content.take o.position → Q w →
      Yields (pipelineEffects strerror blake3 trouble) True
        (fun r w' => r.1 = f.current.content.length ∧ r.2.finalized = false
          ∧ r.2.updates.flatten = f.current.content
          ∧ (∃ o', w'.disk.openFile? fd = some (o', f)
            ∧ ¬trouble.disturbed o'.file) ∧ Q w')
        (fun _ w' => Q w') (verifyLoop fd size rounds o.position hasher) w := by
  induction rounds with
  | zero => exact fun _ _ _ _ _ _ _ _ _ => .given_up trivial
  | succ rounds ih =>
      intro w o hasher hopen hcalm hle hfresh hread hw
      rw [verifyLoop]
      refine .bind (read_rough hopen hcalm (fun disk n hdisk hn hrest hmoves => ?_)
        (fun disk chunk hdisk hlong => ?_) fun disk e hdisk => ?_)
      · have hend : o.position + n ≤ f.current.content.length := by omega
        have hlength := length_chunk hend
        have hopen' := Disk.openFile?_seek (hdisk.openFile? hopen hcalm)
          (o.position + n)
        have hw' : Q { w with disk := disk.seek fd o (o.position + n) } :=
          hQ.seeks (hQ.drifts hdisk hw)
        refine .ite (fun _ => .throw hw') fun _ => .ite (fun hempty => ?_)
          fun _ => .ite (fun _ => .throw hw') fun _ => ?_
        · -- the end of the file
          rw [hempty, List.length_nil] at hlength
          have hall : o.position = f.current.content.length := by
            have hdone := mt (hmoves hsize) (by omega)
            omega
          refine .pure ⟨hall, hfresh, ?_, ⟨_, hopen', hcalm⟩, hw'⟩
          rw [hread, hall, List.take_length]
        · refine .bind (.ofExcept (fun hasher' hupdate => ?_) fun e _ => hw')
          simp only [Hasher.update, hfresh] at hupdate
          cases hupdate
          rw [hlength]
          refine ih _ { o with position := o.position + n } _ hopen' hcalm hend
            rfl ?_ hw'
          rw [List.flatten_append, hread, List.flatten_singleton,
            take_drop_append]
      · exact .ite (fun _ => .throw (hQ.drifts hdisk hw)) fun hshort =>
          absurd hlong hshort
      · exact hQ.drifts hdisk hw

/-- `VerifyBinary` of a file nobody modifies. -/
theorem verifyBinary_rough (hQ : Lasting trouble fd Q) {rounds expectedSize : Nat}
    {expectedDigest : Option Digest}
    (hopen : w.disk.openFile? fd = some (o, f))
    (hcalm : ¬trouble.disturbed o.file) (hstart : o.position = 0) (hw : Q w) :
    Yields (pipelineEffects strerror blake3 trouble) True
      (fun r w' => r = verificationOf blake3 f.current expectedSize
        expectedDigest ∧ Q w')
      (fun _ w' => Q w') (verifyBinary blake3 .fresh fd expectedSize
        expectedDigest size rounds) w := by
  unfold verifyBinary
  refine .ite (fun _ => .throw hw) fun hsize => ?_
  refine .bind (statFd_rough hopen hcalm (fun disk hdisk => ?_) fun disk e hdisk =>
    hQ.drifts hdisk hw)
  have hloop := @verifyLoop_rough strerror blake3 trouble fd size f Q hQ
    (by omega) rounds _ o .fresh (hdisk.openFile? hopen hcalm) hcalm (by omega)
    rfl (by rw [hstart]; rfl) (hQ.drifts hdisk hw)
  rw [hstart] at hloop
  refine hloop.andThen ?_
  rintro ⟨bytesRead, hasher⟩ w' ⟨rfl, hfresh, hflat, ⟨o', hopen', hcalm'⟩, hw'⟩
  refine .bind (statFd_rough hopen' hcalm' (fun disk' hdisk' => ?_)
    fun disk' e hdisk' => hQ.drifts hdisk' hw')
  refine .ite (fun hne => absurd rfl hne) fun _ => ?_
  simp only at hfresh hflat
  refine .bind (.ofExcept (fun digest hdigest => ?_) fun e _ =>
    hQ.drifts hdisk' hw')
  simp only [Hasher.finalize, hfresh, hflat] at hdigest
  cases hdigest
  exact .pure ⟨rfl, hQ.drifts hdisk' hw'⟩

end Rough

end PhotoBridge
