/-
The receiver as a system: PUT handlers on threads of their own, the other
requests' operations on the store between their calls, and the process
killed at any point and started again.

`World` carries an account that no call looks at: which thread made a
file RECEIVING and has not made it leave that state, which thread made a
file on disk, and whose `BeginUpload` answered `Started`.
-/
import PhotoBridge.Upload.Host

namespace PhotoBridge.Upload

open Concurrent SharedConnection

-- ============================================================== the world

structure World (τ : Type) where
  link : Link UploadDb
  disk : Disk
  /-- Who made the file RECEIVING and has not made it leave. -/
  holder : Bytes → Bytes → Option τ
  author : Inode → Option τ
  started : τ → Bool

/-- The row is RECEIVING. -/
def UploadDb.receiving (db : UploadDb) (sessionId fileId : Bytes) : Bool :=
  db.files.any fun row => row.isAt sessionId fileId && row.state == .receiving

/-- The answer is that of a `BeginUpload` that started an upload. -/
def answersStarted : (c : serverCalls.Call) → serverCalls.Answer c → Bool
  | .inl (.change (.beginUpload _ _)), .ok .started => true
  | _, _ => false

namespace World

variable {τ : Type} [DecidableEq τ]

def host (w : World τ) : Host Disk := ⟨w.link, w.disk⟩

/-- Who holds each file after a call of `t`. -/
def holderAfter (t : τ) (holder : Bytes → Bytes → Option τ)
    (db db' : UploadDb) (s f : Bytes) : Option τ :=
  if db'.receiving s f then
    if db.receiving s f then holder s f else some t
  else none

/-- Who made each file on disk after a call of `t`. -/
def authorAfter (t : τ) (author : Inode → Option τ) (disk disk' : Disk)
    (file : Inode) : Option τ :=
  if disk.next ≤ file ∧ file < disk'.next then some t else author file

/-- A call of thread `t`. -/
def Acts (faulty : Bool) (t : τ) : Effects serverCalls (World τ) :=
  fun c w r w' =>
    hostActs (!faulty) (storeOnDisk faulty) (systemOnDisk faulty) c w.host r
        w'.host
      ∧ w'.holder = holderAfter t w.holder w.link.committed w'.link.committed
      ∧ w'.author = authorAfter t w.author w.disk w'.disk
      ∧ w'.started = fun u => w.started u || (u == t && answersStarted c r)

/-- A call made while the store is being opened, by no thread. -/
def ActsAlone (faulty : Bool) : Effects serverCalls (World τ) :=
  fun c w r w' =>
    hostActs (!faulty) (storeOnDisk faulty) (systemOnDisk faulty) c w.host r
        w'.host
      ∧ w'.holder = w.holder ∧ w'.author = w.author ∧ w'.started = w.started

/-- A call of thread `t` where nothing fails. -/
def answers (t : τ) (c : serverCalls.Call) (w : World τ) :
    serverCalls.Answer c × World τ :=
  let p := hostAnswers c w.host
  (p.1, {
    link := p.2.link
    disk := p.2.system
    holder := holderAfter t w.holder w.link.committed p.2.link.committed
    author := authorAfter t w.author w.disk p.2.system
    started := fun u => w.started u || (u == t && answersStarted c p.1) })

theorem answers_acts (faulty : Bool) (t : τ) (c : serverCalls.Call)
    (w : World τ) : Acts faulty t c w (w.answers t c).1 (w.answers t c).2 :=
  ⟨hostAnswers_acts faulty c w.host, rfl, rfl, rfl⟩

/-- A call of no thread where nothing fails. -/
def answersAlone (c : serverCalls.Call) (w : World τ) :
    serverCalls.Answer c × World τ :=
  let p := hostAnswers c w.host
  (p.1, { w with link := p.2.link, disk := p.2.system })

omit [DecidableEq τ] in
theorem answersAlone_acts (faulty : Bool) (c : serverCalls.Call) (w : World τ) :
    ActsAlone faulty c w (w.answersAlone c).1 (w.answersAlone c).2 :=
  ⟨hostAnswers_acts faulty c w.host, rfl, rfl, rfl⟩

/-- The store opened where nothing fails, with its answer. -/
def openedAlone (blake3 : Bytes → Digest) (w : World τ) :
    Except Status Unit × World τ :=
  (openStore blake3).eval answersAlone
    { w with link := Link.opened w.link.committed }

/-- The machine without the process: nobody holds anything. -/
def forgotten (w : World τ) : World τ :=
  { w with holder := fun _ _ => none, started := fun _ => false }

end World

-- ============================================================= the system

inductive Phase (τ : Type)
  /-- No process. -/
  | down
  /-- What is left of `UploadSessionStore::Open`. -/
  | opening (rest : ServerM (Except Status Unit))
  | serving (pool : Pool τ serverCalls fun _ => Response)

structure System (τ : Type) where
  phase : Phase τ
  world : World τ

section

variable {τ : Type} [DecidableEq τ] (blake3 : Bytes → Digest)
  (quota : UploadQuota) (faulty : Bool) (requests : τ → PutRequest)

/-- An operation another request's handler makes, in one call. -/
def Operation.Aside (quota : UploadQuota) : Operation → Prop
  | .createSession quota' _ _ => quota' = quota
  | .completeSession _ => True
  | _ => False

/-- What happens to the receiver. Thread `t` handles the request
`requests t`. -/
inductive System.Step : System τ → System τ → Prop
  | starts {w : World τ} :
      Step ⟨.down, w⟩ ⟨.opening (openStore blake3),
        { w with link := Link.opened w.link.committed }⟩
  | opens {c : serverCalls.Call}
      {next : serverCalls.Answer c → ServerM (Except Status Unit)}
      {r : serverCalls.Answer c} {w w' : World τ}
      (hc : World.ActsAlone faulty c w r w') :
      Step ⟨.opening (.call c next), w⟩ ⟨.opening (next r), w'⟩
  | serves {w : World τ} :
      Step ⟨.opening (.done (.ok ())), w⟩ ⟨.serving fun _ => none, w⟩
  | refuses {e : Status} {w : World τ} :
      Step ⟨.opening (.done (.error e)), w⟩ ⟨.down, w.forgotten⟩
  | arrives {t : τ} {pool : Pool τ serverCalls fun _ => Response}
      {w : World τ} (hfree : pool t = none) :
      Step ⟨.serving pool, w⟩
        ⟨.serving (Function.update pool t (some (put blake3 (requests t)))), w⟩
  | moves {t : τ} {c : serverCalls.Call}
      {pool pool' : Pool τ serverCalls fun _ => Response} {w w' : World τ}
      (hmove : Moves (World.Acts faulty) t c pool w pool' w') :
      Step ⟨.serving pool, w⟩ ⟨.serving pool', w'⟩
  | aside {op : Operation} {r : Except Status op.Answer}
      {pool : Pool τ serverCalls fun _ => Response} {w w' : World τ}
      (hop : op.Aside quota)
      (hc : World.ActsAlone faulty (.inl (.change op)) w r w') :
      Step ⟨.serving pool, w⟩ ⟨.serving pool, w'⟩
  | killed {phase : Phase τ} {w : World τ} :
      Step ⟨phase, w⟩ ⟨.down, w.forgotten⟩

/-- A workspace nothing was uploaded to. -/
structure System.Fresh (sys : System τ) : Prop where
  down : sys.phase = .down
  tables : sys.world.link = Link.opened .empty
  files : ∀ path file, sys.world.disk.files path = some file →
    path.head? ≠ some (text "incoming") ∧ file < sys.world.disk.next
  holder : ∀ s f, sys.world.holder s f = none
  author : ∀ file, sys.world.author file = none
  started : ∀ t, sys.world.started t = false

end

end PhotoBridge.Upload
