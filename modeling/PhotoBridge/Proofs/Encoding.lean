/-
The byte encodings the source writes by hand: eight-byte integers, and
the 49-byte identity blob of a stored receipt, each with the decoder
that undoes it. A parsed path is the one case where nothing is encoded.
-/
import PhotoBridge.Db.Repository

namespace PhotoBridge

-- ======================================================= eight bytes

theorem uint64Bytes_eq (v : UInt64) :
    uint64Bytes v
      = [v.toUInt8, (v >>> 8).toUInt8, (v >>> 16).toUInt8,
          (v >>> 24).toUInt8, (v >>> 32).toUInt8, (v >>> 40).toUInt8,
          (v >>> 48).toUInt8, (v >>> 56).toUInt8] := by
  simp [uint64Bytes, List.range, List.range.loop, Nat.toUInt64]

@[simp] theorem length_uint64Bytes (v : UInt64) :
    (uint64Bytes v).length = 8 := by
  rw [uint64Bytes_eq]
  rfl

/-- Reading eight bytes back. -/
theorem uint64At_uint64Bytes (v : UInt64) (rest : Bytes) :
    uint64At (uint64Bytes v ++ rest) = v := by
  rw [uint64Bytes_eq]
  apply UInt64.toNat_inj.1
  have hv := v.toNat_lt
  simp only [uint64At, List.cons_append, List.nil_append,
    List.take_succ_cons, List.take_zero, List.foldr_cons, List.foldr_nil,
    UInt64.toNat_add, UInt64.toNat_mul, UInt8.toNat_toUInt64,
    UInt64.toNat_toUInt8, UInt64.toNat_shiftRight,
    Nat.shiftRight_eq_div_pow]
  simp only [UInt64.reduceToNat, Nat.reduceMod, Nat.reducePow, Nat.zero_mul,
    Nat.zero_mod, Nat.zero_add] at hv ⊢
  omega

private theorem drop_uint64Bytes (v : UInt64) (rest : Bytes) :
    (uint64Bytes v ++ rest).drop 8 = rest := by
  rw [List.drop_append_of_le_length (Nat.le_of_eq (length_uint64Bytes v).symm)]
  rw [List.drop_of_length_le (Nat.le_of_eq (length_uint64Bytes v))]
  rfl

-- ========================================================= identities

/-- `DecodeIdentity` undoes `EncodeIdentity`. -/
theorem decodeIdentity_encodeIdentity (identity : FileIdentity) :
    decodeIdentity (encodeIdentity identity) = .ok identity := by
  obtain ⟨device, inode, size, mtime, ctime, mount⟩ := identity
  -- the five fixed fields lie eight bytes apart, the marker after them
  have hsplit : ∀ tail : Bytes,
      let blob := uint64Bytes device ++ uint64Bytes inode ++ uint64Bytes size
        ++ uint64Bytes mtime.toUInt64 ++ uint64Bytes ctime.toUInt64 ++ tail
      uint64At blob = device ∧ uint64At (blob.drop 8) = inode
        ∧ uint64At (blob.drop 16) = size
        ∧ uint64At (blob.drop 24) = mtime.toUInt64
        ∧ uint64At (blob.drop 32) = ctime.toUInt64
        ∧ blob.drop 40 = tail := by
    intro tail blob
    have h₁ : blob.drop 8 = uint64Bytes inode ++ (uint64Bytes size
        ++ (uint64Bytes mtime.toUInt64 ++ (uint64Bytes ctime.toUInt64
          ++ tail))) := by
      show (uint64Bytes device ++ uint64Bytes inode ++ uint64Bytes size
        ++ uint64Bytes mtime.toUInt64 ++ uint64Bytes ctime.toUInt64
        ++ tail).drop 8 = _
      simp only [List.append_assoc]
      exact drop_uint64Bytes _ _
    have h₂ : blob.drop 16 = uint64Bytes size
        ++ (uint64Bytes mtime.toUInt64 ++ (uint64Bytes ctime.toUInt64
          ++ tail)) := by
      rw [show (16 : Nat) = 8 + 8 from rfl, ← List.drop_drop, h₁]
      exact drop_uint64Bytes _ _
    have h₃ : blob.drop 24 = uint64Bytes mtime.toUInt64
        ++ (uint64Bytes ctime.toUInt64 ++ tail) := by
      rw [show (24 : Nat) = 16 + 8 from rfl, ← List.drop_drop, h₂]
      exact drop_uint64Bytes _ _
    have h₄ : blob.drop 32 = uint64Bytes ctime.toUInt64 ++ tail := by
      rw [show (32 : Nat) = 24 + 8 from rfl, ← List.drop_drop, h₃]
      exact drop_uint64Bytes _ _
    have h₅ : blob.drop 40 = tail := by
      rw [show (40 : Nat) = 32 + 8 from rfl, ← List.drop_drop, h₄]
      exact drop_uint64Bytes _ _
    refine ⟨?_, ?_, ?_, ?_, ?_, h₅⟩
    · show uint64At (uint64Bytes device ++ uint64Bytes inode
        ++ uint64Bytes size ++ uint64Bytes mtime.toUInt64
        ++ uint64Bytes ctime.toUInt64 ++ tail) = _
      simp only [List.append_assoc]
      exact uint64At_uint64Bytes _ _
    · rw [h₁]
      exact uint64At_uint64Bytes _ _
    · rw [h₂]
      exact uint64At_uint64Bytes _ _
    · rw [h₃]
      exact uint64At_uint64Bytes _ _
    · rw [h₄]
      exact uint64At_uint64Bytes _ _
  cases mount with
  | none =>
      obtain ⟨h₁, h₂, h₃, h₄, h₅, h₆⟩ := hsplit (0 :: List.replicate 8 0)
      unfold decodeIdentity encodeIdentity
      simp only
      rw [if_neg (by simp)]
      rw [h₁, h₂, h₃, h₄, h₅, h₆]
      simp
  | some value =>
      obtain ⟨h₁, h₂, h₃, h₄, h₅, h₆⟩ := hsplit (1 :: uint64Bytes value)
      have h₇ : (uint64Bytes device ++ uint64Bytes inode ++ uint64Bytes size
          ++ uint64Bytes mtime.toUInt64 ++ uint64Bytes ctime.toUInt64
          ++ 1 :: uint64Bytes value).drop 41 = uint64Bytes value := by
        rw [show (41 : Nat) = 40 + 1 from rfl, ← List.drop_drop, h₆]
        rfl
      have h₈ := uint64At_uint64Bytes value []
      rw [List.append_nil] at h₈
      unfold decodeIdentity encodeIdentity
      simp only
      rw [if_neg (by simp)]
      rw [h₁, h₂, h₃, h₄, h₅, h₆, h₇, h₈]
      simp

-- ============================================================== paths

theorem RelativePath.parse_bytes {raw : Bytes} {path : RelativePath}
    (h : RelativePath.parse raw = .ok path) : path.bytes = raw := by
  unfold RelativePath.parse at h
  split at h
  · cases h
    rfl
  · cases h

end PhotoBridge
