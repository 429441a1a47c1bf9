/-
`src/filesystem/io_uring_copy_engine.cpp`: the copy that keeps several
reads and writes under way in one io_uring.

# The ring

The kernel side of the ring is the submission queue `sq` and the requests
it has taken and the program has not reaped yet, `flights`. A request is
performed at some moment between its submission and its completion, with
a result that may be smaller than what was asked for; what the kernel does
and when is given by a `Kernel`, a strategy that sees the number of the
moment and the requests and answers for it. Quantifying over strategies is
quantifying over every order of completions and every split into short
transfers, failures included.

Requests are performed inside the calls that let the program see a
difference: `io_uring_submit`, `io_uring_wait_cqe`, and the moment just
before the hasher reads a buffer (`letPerform`). In between the program
touches neither the files nor a buffer. A strategy that names a request
that is not in flight delivers nothing, like an interrupted wait.

# The buffers

A pointer into a slot's buffer is the slot's index and a position in it.
The slots are a list as long as the source's vector. Sizes, offsets and
counters are natural numbers: every product and sum the function forms is
at most `source_size`, which the function checks against `off_t`.
-/
import PhotoBridge.Copy.CopyAndHash

namespace PhotoBridge.IoUring

open Overwrite

-- =============================================================== the ring

/-- A submission queue entry: what `io_uring_prep_read` or
`io_uring_prep_write` puts in it. -/
structure Sqe where
  write : Bool
  /-- Whose buffer, and where in it. -/
  slot : Nat
  position : Nat
  length : Nat
  /-- Where in the file. -/
  offset : Nat
  userData : Nat
  deriving DecidableEq

/-- A request in the kernel, with its result once it is performed. -/
structure Flight where
  sqe : Sqe
  res : Option Int
  deriving DecidableEq

/-- `IoUringContext`. -/
structure Context where
  result : Int
  entries : Nat
  sq : List Sqe
  flights : List Flight
  deriving DecidableEq

/-- What `io_uring_wait_cqe` does: fails, or delivers the completion of
one of the requests, performed now if it was not before. -/
inductive Wait
  | failed (errno : Nat)
  | completes (i : Nat) (res : Int)
  deriving DecidableEq

/-- The kernel's choices. The first argument is the number of the moment
at which it is asked. -/
structure Kernel where
  /-- `io_uring_queue_init` of so many entries. -/
  queueInit : Nat → Int
  /-- `io_uring_submit` of so many entries. -/
  submit : Nat → Nat → Int
  /-- A request is performed, with this result. -/
  perform : Nat → Sqe → Option Int
  wait : Nat → List Flight → Wait
  strerror : Nat → Bytes

/-- Submissions take between one and all of the entries, transfers move
between one and all of the bytes, a wait delivers something that is in
flight. A wait may be interrupted by signals, but not for ever. -/
structure Kernel.Moves (kernel : Kernel) : Prop where
  submit : ∀ t n, 0 < n → 0 < kernel.submit t n ∧ kernel.submit t n ≤ n
  perform : ∀ t sqe res, kernel.perform t sqe = some res →
    0 < res ∧ res ≤ sqe.length
  wait : ∀ t flights, flights ≠ [] →
    (∀ flight ∈ flights, 0 < flight.sqe.length) →
    kernel.wait t flights = .failed eINTR
      ∨ ∃ i flight res, kernel.wait t flights = .completes i res
        ∧ flights[i]? = some flight ∧ 0 < res ∧ res ≤ flight.sqe.length
  settles : ∀ t, ∃ u, t ≤ u ∧ ∀ flights,
    kernel.wait u flights ≠ .failed eINTR

/-- The kernel reports no more bytes moved than it was asked to move. It
may report fewer, none, or a failure. -/
structure Kernel.Honest (kernel : Kernel) : Prop where
  perform : ∀ t sqe res, kernel.perform t sqe = some res → res ≤ sqe.length
  wait : ∀ t flights i res flight, kernel.wait t flights = .completes i res →
    flights[i]? = some flight → res ≤ flight.sqe.length

-- ======================================================= the program's state

inductive Phase
  | free | reading | ready | writing
  deriving DecidableEq, Repr

structure BufferSlot where
  bytes : Bytes
  sequence : Nat
  offset : Nat
  length : Nat
  progress : Nat
  phase : Phase
  deriving DecidableEq

/-- A slot after `slot.bytes.resize(chunk_size)`. -/
def BufferSlot.sized (chunkSize : Nat) : BufferSlot :=
  ⟨List.replicate chunkSize 0, 0, 0, 0, 0, .free⟩

/-- The scalar arguments of `TryIoUringCopyAndHash`. -/
structure Args where
  sourceFd : Int
  targetFd : Int
  sourceSize : Nat
  chunkSize : Nat
  queueDepth : Nat
  deriving DecidableEq

def Args.chunkCount (a : Args) : Nat :=
  a.sourceSize / a.chunkSize + if a.sourceSize % a.chunkSize ≠ 0 then 1 else 0

def Args.slotCount (a : Args) : Nat := min a.queueDepth a.chunkCount

/-- The local variables of the function, the ring and the files. -/
structure Copy extends World where
  context : Context
  slots : List BufferSlot
  nextRead : Nat
  nextHash : Nat
  completed : Nat
  inFlight : Nat
  queued : Nat
  bytesCopied : Nat
  deriving DecidableEq

/-- `slots[index]`. -/
def Copy.slot (c : Copy) (index : Nat) : BufferSlot :=
  c.slots.getD index (.sized 0)

def Copy.setSlot (c : Copy) (index : Nat) (slot : BufferSlot) : Copy :=
  { c with slots := c.slots.set index slot }

-- ============================================== what the kernel performs

/-- The kernel moves `n` bytes for a request. -/
def Copy.transfer (c : Copy) (sqe : Sqe) (n : Nat) : Copy :=
  if sqe.write then
    { c with
      target := overwrite 0 c.target sqe.offset
        (((c.slot sqe.slot).bytes.drop sqe.position).take n) }
  else
    c.setSlot sqe.slot { c.slot sqe.slot with
      bytes := overwrite 0 (c.slot sqe.slot).bytes sqe.position
        ((c.source.drop sqe.offset).take n) }

/-- The `i`th request in flight is performed, unless it already is. -/
def Copy.performAt (c : Copy) (i : Nat) (res : Int) : Copy :=
  match c.context.flights[i]? with
  | some ⟨sqe, none⟩ =>
      let c := if 0 < res then c.transfer sqe res.toNat else c
      { c with context := { c.context with
          flights := c.context.flights.set i ⟨sqe, some res⟩ } }
  | _ => c

variable (kernel : Kernel)

/-- The kernel performs what it likes of the requests in flight. -/
def Copy.letPerform (c : Copy) : Copy :=
  (List.range c.context.flights.length).foldl
    (fun c i => match c.context.flights[i]? with
      | some flight => match kernel.perform c.clock flight.sqe with
          | some res => c.performAt i res
          | none => c
      | none => c) c

/-- The clock of the kernel's choices goes on. -/
def Copy.tick (c : Copy) : Copy := { c with clock := c.clock + 1 }

/-- `io_uring_submit`: the entries it takes are in flight. -/
def Copy.submit (c : Copy) : Int × Copy :=
  let c := c.letPerform kernel
  let n := kernel.submit c.clock c.context.sq.length
  let taken := (c.context.sq.take n.toNat).map fun sqe => Flight.mk sqe none
  (n, { c with
    clock := c.clock + 1
    context := { c.context with
      sq := c.context.sq.drop n.toNat
      flights := c.context.flights ++ taken } })

/-- `io_uring_wait_cqe` and `io_uring_cqe_seen`: an errno, or the user
data and the result of a completion. -/
def Copy.wait (c : Copy) : Except Nat (Nat × Int) × Copy :=
  let c := c.letPerform kernel
  match kernel.wait c.clock c.context.flights with
  | .failed errno => (.error errno, c.tick)
  | .completes i res =>
      let c := c.performAt i res
      match c.context.flights[i]? with
      | some ⟨sqe, some res⟩ =>
          (.ok (sqe.userData, res), { c with
            clock := c.clock + 1
            context := { c.context with
              flights := c.context.flights.eraseIdx i } })
      | _ => (.error eINTR, c.tick)

-- ======================================================== the lambdas

/-- `IoError`. -/
def Kernel.ioError (errno : Nat) (operation : String) : Status :=
  statusFromErrno kernel.strerror errno operation

/-- The loop of `flush`; each round that goes on submits at least one
entry, so `queued` bounds the rounds. -/
def flushLoop : Nat → Copy → Except Status Unit × Copy
  | 0, c => (.ok (), c)
  | fuel + 1, c =>
      if c.queued = 0 then (.ok (), c)
      else
        let (submitted, c) := c.submit kernel
        if submitted < 0 then
          (.error (kernel.ioError submitted.natAbs
            "submit io_uring copy I/O"), c)
        else if submitted = 0 ∨ c.queued < submitted.toNat then
          (.error (.internal "io_uring submitted an invalid I/O count"), c)
        else flushLoop fuel { c with
          queued := c.queued - submitted.toNat
          inFlight := c.inFlight + submitted.toNat }

def flush (c : Copy) : Except Status Unit × Copy :=
  flushLoop kernel c.queued c

/-- The request for what is left of a slot. -/
def BufferSlot.request (slot : BufferSlot) (index : Nat) (write : Bool) :
    Sqe where
  write := write
  slot := index
  position := slot.progress
  length := slot.length - slot.progress
  offset := slot.offset + slot.progress
  userData := index * 2 + if write then 1 else 0

def submitRequest (index : Nat) (write : Bool) (c : Copy) :
    Except Status Unit × Copy :=
  if c.context.entries ≤ c.context.sq.length then
    (.error (.internal "io_uring copy queue is full"), c)
  else
    let slot := c.slot index
    (.ok (), { c.setSlot index { slot with
        phase := if write then .writing else .reading } with
      context := { c.context with
        sq := c.context.sq ++ [slot.request index write] }
      queued := c.queued + 1 })

variable (args : Args)

def startRead (index : Nat) (c : Copy) : Except Status Unit × Copy :=
  let offset := c.nextRead * args.chunkSize
  submitRequest index false
    { c.setSlot index { c.slot index with
        sequence := c.nextRead
        offset := offset
        length := min args.chunkSize (args.sourceSize - offset)
        progress := 0 } with
      nextRead := c.nextRead + 1 }

/-- The loop of `hash_ready`; each round that goes on moves `next_hash`
towards `chunk_count`. -/
def hashLoop : Nat → Copy → Except Status Unit × Copy
  | 0, c => (.ok (), c)
  | fuel + 1, c =>
      if c.nextHash < args.chunkCount then
        match c.slots.findIdx? fun slot =>
            slot.phase = .ready ∧ slot.sequence = c.nextHash with
        | none => (.ok (), c)
        | some index =>
            let c := (c.letPerform kernel).tick
            let slot := c.slot index
            match c.hasher.update (slot.bytes.take slot.length) with
            | .error e => (.error e, c)
            | .ok hasher =>
                match submitRequest index true
                    { c.setSlot index { slot with progress := 0 } with
                      hasher, nextHash := c.nextHash + 1 } with
                | (.error e, c) => (.error e, c)
                | (.ok (), c) => hashLoop fuel c
      else (.ok (), c)

def hashReady (c : Copy) : Except Status Unit × Copy :=
  hashLoop kernel args (args.chunkCount - c.nextHash) c

/-- The reads started before the first wait; stops at the first error. -/
def startReads : List Nat → Copy → Except Status Unit × Copy
  | [], c => (.ok (), c)
  | index :: rest, c =>
      match startRead args index c with
      | (.error e, c) => (.error e, c)
      | (.ok (), c) => startReads rest c

-- ==================================================== the completion loop

/-- `if (failure.ok()) failure = step();`. -/
def andThen (r : Except Status Unit × Copy)
    (step : Copy → Except Status Unit × Copy) : Except Status Unit × Copy :=
  match r with
  | (.error e, c) => (.error e, c)
  | (.ok (), c) => step c

/-- A slot whose transfer is whole: a written one takes the next chunk, a
read one waits for the hasher. -/
def finishTransfer (index : Nat) (write : Bool) (c : Copy) :
    Except Status Unit × Copy :=
  let slot := c.slot index
  if write then
    let c := { c.setSlot index { slot with phase := .free } with
      bytesCopied := c.bytesCopied + slot.length
      completed := c.completed + 1 }
    if c.nextRead < args.chunkCount then startRead args index c
    else (.ok (), c)
  else (.ok (), c.setSlot index { slot with phase := .ready })

/-- What the loop does with a completion while nothing has failed. -/
def complete (userData : Nat) (transferred : Int) (c : Copy) :
    Except Status Unit × Copy :=
  let index := userData / 2
  let write := userData % 2 == 1
  if c.slots.length ≤ index then
    (.error (.internal "invalid io_uring copy completion"), c)
  else
    let slot := c.slot index
    if slot.phase ≠ (if write then Phase.writing else .reading) then
      (.error (.internal "unexpected io_uring copy phase"), c)
    else if transferred < 0 then
      (.error (kernel.ioError transferred.natAbs
        (if write then "write io_uring copy chunk"
        else "read io_uring copy chunk")), c)
    else if transferred = 0
        ∨ slot.length - slot.progress < transferred.toNat then
      (.error (.ioError (if write then "io_uring copy write made no progress"
        else "io_uring copy source ended before expected size")), c)
    else
      let slot := { slot with
        progress := slot.progress + transferred.toNat }
      let c := c.setSlot index slot
      if slot.progress < slot.length then
        andThen (submitRequest index write c) (flush kernel)
      else
        andThen (andThen (finishTransfer args index write c)
          (hashReady kernel args)) (flush kernel)

/-- `while (in_flight != 0)`, with the `failure` of the source; `none` when
the fuel runs out. A failed wait leaves the loop with its error, as the
source does by returning, and after a failure completions are only
counted. -/
def completionLoop :
    Nat → Except Status Unit × Copy → Option (Except Status Unit) × Copy
  | 0, (_, c) => (none, c)
  | fuel + 1, (failure, c) =>
      if c.inFlight = 0 then (some failure, c)
      else match c.wait kernel with
        | (.error errno, c) =>
            if errno = eINTR then completionLoop fuel (failure, c)
            else (some (.error (kernel.ioError errno
              "wait for io_uring copy completion")), c)
        | (.ok (userData, transferred), c) =>
            let c := { c with inFlight := c.inFlight - 1 }
            match failure with
            | .error e => completionLoop fuel (.error e, c)
            | .ok () =>
                completionLoop fuel
                  (complete kernel args userData transferred c)

-- ============================================================ the function

/-- The `thread_local` variables. -/
structure Thread where
  context : Option Context
  depth : Nat
  deriving DecidableEq

/-- The cached ring, or a new one for this depth. -/
def Thread.ring (th : Thread) (queueDepth : Nat) : Context :=
  let fresh : Context :=
    ⟨kernel.queueInit (max 8 queueDepth), max 8 queueDepth, [], []⟩
  match th.context with
  | none => fresh
  | some context => if th.depth = queueDepth then context else fresh

/-- The argument checks. -/
def Args.valid (a : Args) : Bool :=
  !(a.sourceFd < 0 || a.targetFd < 0 || a.chunkSize == 0
    || uint32Max < a.chunkSize || a.queueDepth == 0 || 16 < a.queueDepth
    || int64Max < a.sourceSize)

/-- The results of `io_uring_queue_init` that send the caller to the plain
copy. -/
def unavailable (result : Int) : Bool :=
  result == -eNOSYS || result == -ePERM || result == -eOPNOTSUPP
    || result == -eINVAL

/-- The state before the first read. -/
def Copy.begin (w : World) (context : Context) : Copy :=
  { w with
    context
    slots := List.replicate args.slotCount (.sized args.chunkSize)
    nextRead := 0, nextHash := 0, completed := 0, inFlight := 0
    queued := 0, bytesCopied := 0 }

/-- The reads, the flush and the completions. -/
def runCopy (fuel : Nat) (c : Copy) : Option (Except Status Unit) × Copy :=
  completionLoop kernel args fuel
    (andThen (startReads args (List.range args.slotCount) c) (flush kernel))

/-- What follows the loop: the ring is dropped after a failure, the
counters are checked and the digest is taken. -/
def conclude (blake3 : Bytes → Digest) :
    Option (Except Status Unit) × Copy →
      Option (Except Status (Option CopyResult)) × Thread × World
  | (none, c) => (none, ⟨some c.context, args.queueDepth⟩, c.toWorld)
  | (some (.error e), c) =>
      (some (.error e), ⟨none, args.queueDepth⟩, c.toWorld)
  | (some (.ok ()), c) =>
      let th : Thread := ⟨some c.context, args.queueDepth⟩
      if c.completed ≠ args.chunkCount ∨ c.nextHash ≠ args.chunkCount
          ∨ c.bytesCopied ≠ args.sourceSize then
        (some (.error (.internal "io_uring copy ended early")), th,
          c.toWorld)
      else match c.hasher.finalize blake3 with
        | (.error e, hasher) =>
            (some (.error e), th, { c.toWorld with hasher })
        | (.ok digest, hasher) =>
            (some (.ok (some ⟨c.bytesCopied, digest⟩)), th,
              { c.toWorld with hasher })

/-- `TryIoUringCopyAndHash`; `disabled` is the value of the variable
`PHOTOBRIDGE_TEST_DISABLE_IO_URING`. The result is `none` when the fuel
runs out. -/
def tryIoUringCopyAndHash (blake3 : Bytes → Digest)
    (disabled : Option Bytes) (fuel : Nat) (th : Thread) (w : World) :
    Option (Except Status (Option CopyResult)) × Thread × World :=
  if !args.valid then
    (some (.error (.invalid
      "invalid io_uring copy descriptors, size, or queue depth")), th, w)
  else if disabled = some (text "1") then (some (.ok none), th, w)
  else
    let ring := th.ring kernel args.queueDepth
    let th : Thread := ⟨some ring, args.queueDepth⟩
    if ring.result ≠ 0 then
      if unavailable ring.result then (some (.ok none), th, w)
      else (some (.error (kernel.ioError ring.result.natAbs
        "initialize io_uring copy queue")), th, w)
    else conclude args blake3
      (runCopy kernel args fuel (.begin args w ring))

/-- What the `thread_local` variables hold between calls, from the start of
the thread on: after any calls, with any arguments, under any kernel. -/
inductive Thread.Reachable : Thread → Prop
  | start : Reachable ⟨none, 0⟩
  | call {kernel : Kernel} {args : Args} {blake3 : Bytes → Digest}
      {disabled : Option Bytes} {fuel : Nat} {th th' : Thread}
      {w w' : World} {r : Except Status (Option CopyResult)}
      (h : Reachable th)
      (hrun : tryIoUringCopyAndHash kernel args blake3 disabled fuel th w
        = (some r, th', w')) : Reachable th'

end PhotoBridge.IoUring
