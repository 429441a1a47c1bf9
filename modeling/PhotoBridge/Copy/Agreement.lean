/-
What it means for the io_uring copy to agree with the plain one.

`Agrees P` is about the calls whose arguments satisfy `P`. Its first two
parts are for a kernel and file operations that keep moving, a source that
does not change and an empty target; the last is for every call whatever.
A branch that reports an error ends the function with that error, so
`only` says that no such branch is reached.
-/
import PhotoBridge.Copy.IoUring

namespace PhotoBridge.IoUring

open Overwrite

/-- A call in the setting of the first two parts. -/
structure Setting where
  kernel : Kernel
  blake3 : Bytes → Digest
  args : Args
  disabled : Option Bytes
  thread : Thread
  source : Bytes
  clock : Nat
  moves : kernel.Moves
  size : source.length = args.sourceSize
  enabled : disabled ≠ some (text "1")
  reachable : thread.Reachable
  ring : (thread.ring kernel args.queueDepth).result = 0

/-- The files and the hasher before the call. -/
def Setting.world (σ : Setting) : World := ⟨σ.source, [], .fresh, σ.clock⟩

def Setting.run (σ : Setting) (fuel : Nat) :
    Option (Except Status (Option CopyResult)) × Thread × World :=
  tryIoUringCopyAndHash σ.kernel σ.args σ.blake3 σ.disabled fuel σ.thread
    σ.world

/-- The size and the digest of the source. -/
def Setting.expected (σ : Setting) : CopyResult :=
  ⟨σ.source.length, σ.blake3 σ.source⟩

structure Agrees (P : Args → Prop) : Prop where
  /-- The call ends with the size and the digest of the source, its bytes
  in the target and its chunks hashed once each, in order; the plain copy
  ends with the same. -/
  returns : ∀ σ : Setting, P σ.args → ∀ (ops : FileOps), ops.Moves →
    ∀ size, 0 < size → ∃ bound, ∀ fuel, bound ≤ fuel → ∃ th w w',
      σ.run fuel = (some (.ok (some σ.expected)), th, w)
        ∧ w.target = σ.source
        ∧ w.hasher.updates = (List.range σ.args.chunkCount).map
            (piece σ.source σ.args.chunkSize)
        ∧ copyAndHash ops σ.blake3 size fuel σ.world
            = (some (.ok σ.expected), w')
        ∧ w'.target = σ.source
  /-- It never ends in another way. -/
  only : ∀ σ : Setting, P σ.args → ∀ fuel r th w,
    σ.run fuel = (some r, th, w) → r = .ok (some σ.expected)
  /-- A call that returns `nullopt` has read, written and hashed nothing,
  and put nothing into the ring. -/
  declines : ∀ kernel args blake3 disabled fuel th w th' w',
    tryIoUringCopyAndHash kernel args blake3 disabled fuel th w
      = (some (.ok none), th', w') → w' = w
        ∧ (th' = th ∨ th' = ⟨some (th.ring kernel args.queueDepth),
            args.queueDepth⟩)

end PhotoBridge.IoUring
