/-
`src/filesystem/copy_and_hash.cpp`: the hasher and the plain copy loop.

# The hasher

BLAKE3 itself is a third-party library. Its documented contract is that the
digest depends on the concatenation of the updates only, so the hasher
keeps the list of the spans it was given and `finalize` applies a
parameter `blake3` to their concatenation. Keeping the spans apart, where
a concatenation would do for the digest, lets the theorems say which
chunk was hashed when.

# The files

`FileOps` is the interface the loop calls: how many bytes the `n`th call
of `Read` or `Write` moves, given how many it could. A file descriptor
has its own position; both start at the beginning of their files.

`PauseForTest` has no effect on the state and is left out.
-/
import PhotoBridge.Lib.Overwrite
import PhotoBridge.Posix

namespace PhotoBridge

open Overwrite

-- ============================================================ the hasher

/-- `Blake3Hasher`: the spans given to `Update`, in order. -/
structure Hasher where
  updates : List Bytes
  finalized : Bool
  deriving DecidableEq

namespace Hasher

def fresh : Hasher := ⟨[], false⟩

def update (h : Hasher) (bytes : Bytes) : Except Status Hasher :=
  if h.finalized then
    .error (.invalid "cannot update a finalized hasher")
  else .ok { h with updates := h.updates ++ [bytes] }

def finalize (blake3 : Bytes → Digest) (h : Hasher) :
    Except Status Digest × Hasher :=
  if h.finalized then
    (.error (.invalid "hasher was already finalized"), h)
  else (.ok (blake3 h.updates.flatten), { h with finalized := true })

end Hasher

structure CopyResult where
  bytesCopied : Nat
  sourceDigest : Digest
  deriving DecidableEq

-- ============================================================= the files

/-- The two open files of a copy, and the hasher fed from them. -/
structure World where
  source : Bytes
  target : Bytes
  hasher : Hasher
  /-- How often the kernel was asked so far. -/
  clock : Nat
  deriving DecidableEq

/-- What `Read` and `Write` answer: the call's number and the bytes it
could move, to a status or a count. -/
structure FileOps where
  read : Nat → Nat → Except Status Nat
  write : Nat → Nat → Except Status Nat

/-- Every call moves something as long as there is something to move, and
never more; `Read` at the end of the file returns zero. -/
structure FileOps.Moves (ops : FileOps) : Prop where
  read : ∀ t n, 0 < n → ∃ k, ops.read t n = .ok k ∧ 0 < k ∧ k ≤ n
  read_end : ∀ t, ops.read t 0 = .ok 0
  write : ∀ t n, 0 < n → ∃ k, ops.write t n = .ok k ∧ 0 < k ∧ k ≤ n

-- ====================================================== the plain copy

/-- The state of the loop of `CopyAndHash`. -/
structure PlainCopy extends World where
  sourcePos : Nat
  targetPos : Nat
  bytesCopied : Nat
  deriving DecidableEq

variable (ops : FileOps)

/-- `WriteAll` of the bytes that are left; each round writes at least one
of them, so their number bounds the rounds. -/
def writeAll : Nat → Bytes → PlainCopy → Except Status Unit × PlainCopy
  | 0, _, c => (.ok (), c)
  | fuel + 1, bytes, c =>
      if bytes = [] then (.ok (), c)
      else match ops.write c.clock bytes.length with
        | .error e => (.error e, { c with clock := c.clock + 1 })
        | .ok written =>
            let c := { c with
              clock := c.clock + 1
              target := overwrite 0 c.target c.targetPos (bytes.take written)
              targetPos := c.targetPos + written }
            if written = 0 then
              (.error (.ioError "target write made no progress"), c)
            else if bytes.length < written then
              (.error (.internal
                "target write exceeded requested byte count"), c)
            else writeAll fuel (bytes.drop written) c

/-- `std::numeric_limits<std::uint64_t>::max()`. -/
def uint64Max : Nat := 2 ^ 64 - 1

/-- The `for (;;)` loop over a buffer of `size` bytes; `none` when the
fuel runs out. -/
def copyLoop (size : Nat) :
    Nat → PlainCopy → Option (Except Status Unit) × PlainCopy
  | 0, c => (none, c)
  | fuel + 1, c =>
      let available := min size (c.source.length - c.sourcePos)
      match ops.read c.clock available with
      | .error e => (some (.error e), { c with clock := c.clock + 1 })
      | .ok n =>
          let chunk := (c.source.drop c.sourcePos).take n
          let c := { c with
            clock := c.clock + 1, sourcePos := c.sourcePos + n }
          if size < n then
            (some (.error (.internal
              "source read exceeded buffer capacity")), c)
          else if n = 0 then (some (.ok ()), c)
          else if uint64Max - n < c.bytesCopied then
            (some (.error (.internal "copied byte count overflowed")), c)
          else match c.hasher.update chunk with
            | .error e => (some (.error e), c)
            | .ok hasher =>
                match writeAll ops chunk.length chunk
                    { c with hasher } with
                | (.error e, c) => (some (.error e), c)
                | (.ok (), c) =>
                    copyLoop size fuel
                      { c with bytesCopied := c.bytesCopied + n }

/-- `CopyAndHash` with a buffer of `size` bytes. -/
def copyAndHash (blake3 : Bytes → Digest) (size fuel : Nat) (w : World) :
    Option (Except Status CopyResult) × World :=
  if size = 0 then
    (some (.error (.invalid "copy buffer must not be empty")), w)
  else match copyLoop ops size fuel
      { w with sourcePos := 0, targetPos := 0, bytesCopied := 0 } with
    | (none, c) => (none, c.toWorld)
    | (some (.error e), c) => (some (.error e), c.toWorld)
    | (some (.ok ()), c) =>
        match c.hasher.finalize blake3 with
        | (.error e, hasher) => (some (.error e), { c.toWorld with hasher })
        | (.ok digest, hasher) =>
            (some (.ok ⟨c.bytesCopied, digest⟩), { c.toWorld with hasher })

/-- `CopyAndHash` from wherever the two descriptors are. -/
def copyAndHashFrom (blake3 : Bytes → Digest) (size fuel : Nat)
    (c : PlainCopy) : Option (Except Status CopyResult) × PlainCopy :=
  if size = 0 then
    (some (.error (.invalid "copy buffer must not be empty")), c)
  else match copyLoop ops size fuel { c with bytesCopied := 0 } with
    | (none, c) => (none, c)
    | (some (.error e), c) => (some (.error e), c)
    | (some (.ok ()), c) =>
        match c.hasher.finalize blake3 with
        | (.error e, hasher) => (some (.error e), { c with hasher })
        | (.ok digest, hasher) =>
            (some (.ok ⟨c.bytesCopied, digest⟩), { c with hasher })

end PhotoBridge
