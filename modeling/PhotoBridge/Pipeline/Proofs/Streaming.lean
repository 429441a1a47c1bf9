/-
What the two streaming loops come to, `CopyAndHash` and `VerifyBinary`,
however the kernel divides the bytes: each byte is processed once and in
order, up to the end of the file.
-/
import PhotoBridge.Copy.Proofs.CopyAndHash
import PhotoBridge.Pipeline.Proofs.Guard

namespace PhotoBridge

open Concurrent

private theorem binaryStatus_identical {expectedSize size : Nat}
    {expected : Option Digest} {digest : Digest} :
    binaryStatus expectedSize expected size digest = .identical
      ↔ size = expectedSize ∧ expected = some digest := by
  unfold binaryStatus
  cases expected with
  | none => simp
  | some expected =>
      by_cases hsame : size = expectedSize ∧ digest = expected
      · simp [hsame]
      · simp only [if_neg hsame, Option.some.injEq]
        constructor
        · intro h
          cases h
        · intro h
          exact absurd ⟨h.1, h.2.symm⟩ hsame

private theorem binaryStatus_mismatch {expectedSize size : Nat}
    {expected : Option Digest} {digest : Digest} :
    binaryStatus expectedSize expected size digest = .mismatch
      ↔ ∃ e, expected = some e ∧ (size ≠ expectedSize ∨ digest ≠ e) := by
  unfold binaryStatus
  cases expected with
  | none => simp
  | some expected =>
      simp only [Option.some.injEq, exists_eq_left']
      by_cases hsame : size = expectedSize ∧ digest = expected
      · rw [if_pos hsame]
        constructor
        · intro h
          cases h
        · intro h
          exact absurd hsame (by rwa [← not_and_or] at h)
      · rw [if_neg hsame]
        constructor
        · intro _
          exact Decidable.not_and_iff_or_not.1 hsame
        · intro _
          rfl

/-- Copying and verification process the whole file. -/
structure StreamsWhole : Prop where
  /-- `c` is where the descriptors are when the copy begins. -/
  copied : ∀ (ops : FileOps) (blake3 : Bytes → Digest) (size : Nat)
    (c : PlainCopy), ops.Moves → 0 < size → c.hasher = .fresh →
    c.targetPos = c.target.length →
    (c.source.drop c.sourcePos).length ≤ uint64Max →
    ∀ fuel, (c.source.drop c.sourcePos).length < fuel →
      ∃ c', copyAndHashFrom ops blake3 size fuel c
          = (some (.ok ⟨(c.source.drop c.sourcePos).length,
              blake3 (c.source.drop c.sourcePos)⟩), c')
        ∧ c'.target = c.target ++ c.source.drop c.sourcePos
  /-- However the reads are divided, the rounds suffice and no error
  comes up. -/
  verified : ∀ (strerror : Nat → Bytes) (blake3 : Bytes → Digest)
    (w : Machine) (fd size expectedSize : Nat)
    (expectedDigest : Option Digest) (o : OpenFile) (f : DiskFile),
    0 < size → w.disk.openFile? fd = some (o, f) → o.position = 0 →
    ∀ rounds, f.current.content.length < rounds →
      Yields (pipelineEffects strerror blake3 .none) False
        (fun result _ =>
          result.bytesRead = f.current.content.length
          ∧ result.targetDigest = blake3 f.current.content
          ∧ (result.status = .identical
            ↔ f.current.content.length = expectedSize
              ∧ expectedDigest = some (blake3 f.current.content))
          ∧ (result.status = .mismatch
            ↔ ∃ expected, expectedDigest = some expected
              ∧ (f.current.content.length ≠ expectedSize
                ∨ blake3 f.current.content ≠ expected)))
        (fun _ _ => False)
        (verifyBinary blake3 .fresh fd expectedSize expectedDigest size
          rounds) w

/-- Whatever the file, the buffer and the progress of the calls. -/
theorem streams_whole : StreamsWhole where
  copied := fun _ blake3 _ _ ho hsize hfresh hend hmax _ hfuel =>
    copyAndHashFrom_spec ho blake3 hsize hfresh hend hmax hfuel
  verified := by
    intro strerror blake3 w fd size expectedSize expectedDigest o f hsize
      hopen hstart rounds hrounds
    have hquiet := @verifyBinary_quiet strerror blake3 w fd size o f
      (fun _ _ => False) hsize rounds expectedSize expectedDigest hopen
      hstart hrounds
    refine hquiet.mono (fun result w' hresult => ?_) fun _ _ h => h
    obtain ⟨hresult, -⟩ := hresult
    rw [hresult]
    exact ⟨rfl, rfl, binaryStatus_identical, binaryStatus_mismatch⟩

end PhotoBridge
