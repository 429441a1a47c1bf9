/-
The plain copy: with file operations that keep moving, `CopyAndHash` ends
and returns the size and the digest of the source, with the source's bytes
in the target.

The invariant of the loop is that everything before the source position
has been written, hashed and counted.
-/
import PhotoBridge.Copy.CopyAndHash

namespace PhotoBridge

open Overwrite

variable {ops : FileOps}

/-- `WriteAll` appends to a file whose position is its end. -/
theorem writeAll_spec (ho : ops.Moves) (fuel : Nat) :
    ∀ (bytes : Bytes) (c : PlainCopy), bytes.length ≤ fuel →
      c.targetPos = c.target.length →
      ∃ t, writeAll ops fuel bytes c = (.ok (), { c with
        clock := t
        target := c.target ++ bytes
        targetPos := c.targetPos + bytes.length }) := by
  induction fuel with
  | zero =>
      intro bytes c hle _
      obtain rfl := List.eq_nil_of_length_eq_zero (Nat.le_zero.1 hle)
      refine ⟨c.clock, ?_⟩
      rw [writeAll, List.append_nil]
      rfl
  | succ fuel ih =>
      intro bytes c hle hend
      rw [writeAll]
      by_cases hnil : bytes = []
      · subst hnil
        refine ⟨c.clock, ?_⟩
        rw [if_pos rfl, List.append_nil]
        rfl
      · rw [if_neg hnil]
        have hlen := List.length_pos_iff.2 hnil
        obtain ⟨k, hwrite, hpos, hk⟩ := ho.write c.clock bytes.length hlen
        have hzero : ¬k = 0 := by omega
        have hover : ¬bytes.length < k := by omega
        simp only [hwrite, hzero, hover, if_false, hend, overwrite_length]
        obtain ⟨t, hrun⟩ := ih (bytes.drop k) { c with
            clock := c.clock + 1
            target := c.target ++ bytes.take k
            targetPos := c.target.length + k }
          (by rw [List.length_drop]; omega)
          (by simp only [List.length_append, List.length_take]; omega)
        have hsum : c.target.length + k + (bytes.length - k)
            = c.target.length + bytes.length := by omega
        refine ⟨t, ?_⟩
        rw [hrun]
        simp only [List.append_assoc, List.take_append_drop,
          List.length_drop, hsum]

/-- Of what was left of the source when `c₀` began, `done` is written,
hashed and counted, and `rest` is left. -/
structure PlainCopy.Copied (c₀ : PlainCopy) (done rest : Bytes)
    (c : PlainCopy) : Prop where
  left : c.source.drop c.sourcePos = rest
  target : c.target = c₀.target ++ done
  targetPos : c.targetPos = c.target.length
  counted : c.bytesCopied = done.length
  hashed : c.hasher.updates.flatten = c₀.hasher.updates.flatten ++ done
  open' : c.hasher.finalized = false

/-- The loop copies to the end of the source. -/
theorem copyLoop_copied (ho : ops.Moves) {size : Nat} (hsize : 0 < size)
    (c₀ : PlainCopy) (fuel : Nat) : ∀ (done rest : Bytes) (c : PlainCopy),
      c₀.Copied done rest c → done.length + rest.length ≤ uint64Max →
      rest.length < fuel →
      ∃ c', copyLoop ops size fuel c = (some (.ok ()), c')
        ∧ c₀.Copied (done ++ rest) [] c' := by
  induction fuel with
  | zero =>
      intro done rest c _ _ hlt
      exact absurd hlt (Nat.not_lt_zero _)
  | succ fuel ih =>
      intro done rest c h hmax hlt
      have hleft : c.source.length - c.sourcePos = rest.length := by
        rw [← List.length_drop, h.left]
      rw [copyLoop]
      by_cases hend : rest = []
      · -- the end of the source: a read of zero bytes
        subst hend
        have havail : min size (c.source.length - c.sourcePos) = 0 := by
          rw [hleft]
          exact Nat.min_zero _
        simp only [havail, ho.read_end, Nat.add_zero, if_true,
          Nat.not_lt_zero, if_false]
        refine ⟨_, rfl, h.left, ?_, h.targetPos, ?_, ?_, h.open'⟩
        · rw [List.append_nil]
          exact h.target
        · rw [List.append_nil]
          exact h.counted
        · rw [List.append_nil]
          exact h.hashed
      -- a chunk is read, and written and hashed whole
      · have hlen := List.length_pos_iff.2 hend
        rw [hleft]
        obtain ⟨n, hread, hpos, hn⟩ := ho.read c.clock
          (min size rest.length) (by omega)
        have hover : ¬size < n := by omega
        have hzero : ¬n = 0 := by omega
        have hchunk : (rest.take n).length = n := by
          rw [List.length_take]
          omega
        have hcount : ¬uint64Max - n < c.bytesCopied := by
          rw [h.counted]
          omega
        have hupdate : c.hasher.update (rest.take n) = .ok { c.hasher with
            updates := c.hasher.updates ++ [rest.take n] } := by
          unfold Hasher.update
          rw [if_neg (by rw [h.open']; exact Bool.false_ne_true)]
        simp only [h.left, hread, hover, hzero, hcount, if_false, hupdate,
          hchunk]
        obtain ⟨t, hwrite⟩ := writeAll_spec ho n (rest.take n) { c with
            clock := c.clock + 1
            sourcePos := c.sourcePos + n
            hasher := { c.hasher with
              updates := c.hasher.updates ++ [rest.take n] } }
          (Nat.le_of_eq hchunk) h.targetPos
        rw [hwrite]
        simp only [hchunk]
        -- the induction takes what is done and what is left one chunk further
        obtain ⟨c', hrun, hcopied⟩ := ih (done ++ rest.take n)
          (rest.drop n) { c with
            clock := t
            sourcePos := c.sourcePos + n
            hasher := { c.hasher with
              updates := c.hasher.updates ++ [rest.take n] }
            target := c.target ++ rest.take n
            targetPos := c.targetPos + n
            bytesCopied := c.bytesCopied + n }
          ⟨by rw [← h.left, List.drop_drop],
            by simp only [h.target, List.append_assoc],
            by simp only [h.targetPos, List.length_append, hchunk],
            by simp only [h.counted, List.length_append, hchunk],
            by simp only [List.flatten_append, List.flatten_singleton,
              h.hashed, List.append_assoc], h.open'⟩
          (by rw [List.length_append, hchunk, List.length_drop]; omega)
          (by rw [List.length_drop]; omega)
        rw [List.append_assoc, List.take_append_drop] at hcopied
        exact ⟨c', hrun, hcopied⟩

/-- `CopyAndHash` appends what is left of the source to the target. -/
theorem copyAndHashFrom_spec (ho : ops.Moves) (blake3 : Bytes → Digest)
    {size : Nat} (hsize : 0 < size) {c : PlainCopy}
    (hfresh : c.hasher = .fresh) (hend : c.targetPos = c.target.length)
    (hmax : (c.source.drop c.sourcePos).length ≤ uint64Max) {fuel : Nat}
    (hfuel : (c.source.drop c.sourcePos).length < fuel) :
    ∃ c', copyAndHashFrom ops blake3 size fuel c
        = (some (.ok ⟨(c.source.drop c.sourcePos).length,
            blake3 (c.source.drop c.sourcePos)⟩), c')
      ∧ c'.target = c.target ++ c.source.drop c.sourcePos := by
  obtain ⟨c', hrun, h⟩ := copyLoop_copied ho hsize c fuel []
    (c.source.drop c.sourcePos) { c with bytesCopied := 0 }
    ⟨rfl, (List.append_nil _).symm, hend, rfl, (List.append_nil _).symm,
      by rw [hfresh]; rfl⟩ (by simpa using hmax) hfuel
  have hdigest : c'.hasher.updates.flatten
      = c.source.drop c.sourcePos := by
    rw [h.hashed, hfresh]
    rfl
  have hcount : c'.bytesCopied = (c.source.drop c.sourcePos).length := by
    rw [h.counted, List.nil_append]
  refine ⟨{ c' with hasher := { c'.hasher with finalized := true } }, ?_,
    h.target⟩
  have hzero : ¬size = 0 := by omega
  unfold copyAndHashFrom
  simp only [hzero, if_false, hrun, Hasher.finalize, h.open',
    Bool.false_eq_true, hdigest, hcount]

/-- `CopyAndHash` from the beginning of both files. -/
theorem copyAndHash_eq (blake3 : Bytes → Digest) (size fuel : Nat)
    (w : World) :
    copyAndHash ops blake3 size fuel w
      = ((copyAndHashFrom ops blake3 size fuel
          { w with sourcePos := 0, targetPos := 0, bytesCopied := 0 }).1,
        (copyAndHashFrom ops blake3 size fuel
          { w with sourcePos := 0, targetPos := 0, bytesCopied := 0 }).2
            |>.toWorld) := by
  unfold copyAndHash copyAndHashFrom
  by_cases hzero : size = 0
  · rw [if_pos hzero, if_pos hzero]
  · rw [if_neg hzero, if_neg hzero]
    obtain ⟨result, c⟩ := copyLoop ops size fuel
      { w with sourcePos := 0, targetPos := 0, bytesCopied := 0 }
    cases result with
    | none => rfl
    | some result =>
        cases result with
        | error e => rfl
        | ok _ =>
            simp only
            cases c.hasher.finalize blake3 with
            | mk digest hasher =>
                cases digest with
                | error e => rfl
                | ok digest => rfl

theorem copyAndHash_spec (ho : ops.Moves) (blake3 : Bytes → Digest)
    {size : Nat} (hsize : 0 < size) (source : Bytes) (t : Nat)
    (hmax : source.length ≤ int64Max) {fuel : Nat}
    (hfuel : source.length < fuel) :
    ∃ w, copyAndHash ops blake3 size fuel ⟨source, [], .fresh, t⟩
        = (some (.ok ⟨source.length, blake3 source⟩), w)
      ∧ w.target = source := by
  have hbound : source.length ≤ uint64Max := by
    unfold int64Max at hmax
    unfold uint64Max
    omega
  obtain ⟨c, hrun, htarget⟩ := @copyAndHashFrom_spec ops ho blake3 size hsize
    { source, target := [], hasher := .fresh, clock := t, sourcePos := 0,
      targetPos := 0, bytesCopied := 0 } rfl rfl hbound fuel hfuel
  rw [copyAndHash_eq, hrun]
  exact ⟨c.toWorld, rfl, htarget⟩

end PhotoBridge
