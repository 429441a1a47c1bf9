/-
The receiver's tables over whole lifetimes of a workspace: operations one
after another with any arguments, and the store opened again, whatever
the file system answers and wherever the opening was stopped. The tables
are sound throughout, and a received file stays received.
-/
import PhotoBridge.Upload.Proofs.Host
import Mathlib.Logic.Relation

namespace PhotoBridge.Upload

open Concurrent SharedConnection

/-- The system calls, answered in any way. -/
def anySystem : Effects systemCalls Unit := fun _ _ _ _ => True

section

variable (blake3 : Bytes → Digest) (quota : UploadQuota)

/-- What happens to a store that is used by one caller at a time. -/
inductive Leads (link : Link UploadDb) : Link UploadDb → Prop
  /-- An operation, whatever it answers. -/
  | operation {op : Operation} {r : Except Status op.Answer}
      {link' : Link UploadDb} (hop : op.Under quota)
      (h : StoreOp.Acts false anyCall (.change op) ⟨link, ()⟩ r ⟨link', ()⟩) :
      Leads link link'
  /-- The store opened again, to the end or as far as it got. -/
  | opened {link' : Link UploadDb}
      (h : Visits (hostActs false anyCall anySystem) (openStore blake3)
        ⟨Link.opened link.committed, ()⟩ ⟨link', ()⟩) :
      Leads link link'

/-- The states a store comes to from tables just created. -/
def Reachable : Link UploadDb → Prop :=
  Relation.ReflTransGen (Leads blake3 quota) (Link.opened .empty)

end

variable {blake3 : Bytes → Digest} {quota : UploadQuota}
  {link link' : Link UploadDb}

-- ======================================================= opening a store

/-- The operations a program calls admit sessions under the quota. -/
def CallsUnder (quota : UploadQuota) : serverCalls.Call → Prop
  | .inl (.change op) => op.Under quota
  | _ => True

private theorem recoverCandidate_uses (row : UploadFileRow) :
    (recoverCandidate blake3 row).Uses (CallsUnder quota) := by
  have hgiveUp : (giveUpCandidate row).Uses (CallsUnder quota) :=
    ⟨trivial, fun _ => trivial⟩
  refine ⟨trivial, fun found => ?_⟩
  rcases found with _ | regular
  · exact hgiveUp
  cases regular with
  | false => exact hgiveUp
  | true =>
  refine ⟨trivial, fun size => ?_⟩
  cases size with
  | none => exact hgiveUp
  | some size =>
  refine Program.Uses.ite hgiveUp ⟨trivial, fun content => ?_⟩
  cases content with
  | none => exact hgiveUp
  | some content =>
  refine ⟨trivial, fun committed => ?_⟩
  cases committed with
  | error _ => exact hgiveUp
  | ok _ => exact ⟨trivial, fun _ => trivial⟩

theorem openStore_uses : (openStore blake3).Uses (CallsUnder quota) := by
  refine ⟨trivial, fun made => ?_⟩
  cases made with
  | some _ => exact trivial
  | none =>
  refine ⟨trivial, fun candidates => ?_⟩
  cases candidates with
  | error _ => exact trivial
  | ok candidates =>
      show (recoverCandidates blake3 candidates).Uses (CallsUnder quota)
      induction candidates with
      | nil => exact trivial
      | cons row rest ih =>
          refine Program.Uses.bind (recoverCandidate_uses row) fun r => ?_
          cases r with
          | error _ => exact trivial
          | ok _ => exact ih

-- ============================================================== invariant

/-- No transaction is open, and the tables follow these. -/
structure Link.Follows (quota : UploadQuota) (db : UploadDb)
    (link : Link UploadDb) : Prop where
  closed : link.txn = none
  follows : UploadDb.Follows quota db link.committed

theorem UploadDb.Follows.trans {db db' db'' : UploadDb}
    (h : Follows quota db db') (h' : Follows quota db' db'') :
    Follows quota db db'' :=
  ⟨h'.sound, fun row hrow hstate =>
    h'.received row (h.received row hrow hstate) hstate⟩

theorem Link.Follows.change {φ : Type} {quiet : Bool}
    {outside : Effects storeCalls φ} {db : UploadDb} {host host' : Host φ}
    (h : Link.Follows quota db host.link)
    (hquota : quota.maxReservedBytes.toNat < 2 ^ 63) {op : Operation}
    (hop : op.Under quota) {r : Except Status op.Answer}
    (hacts : StoreOp.Acts quiet outside (.change op) host r host') :
    Link.Follows quota db host'.link := by
  obtain ⟨hclosed, herror, hok⟩ := hacts.change h.closed
  refine ⟨hclosed, ?_⟩
  cases r with
  | error e =>
      rw [herror e rfl]
      exact h.follows
  | ok v =>
      exact h.follows.trans
        (Operation.effect_follows h.follows.sound hquota hop (hok v rfl))

/-- Every call of a program that admits sessions under the quota keeps
the tables sound and received files received. -/
theorem Link.Follows.call {φ : Type} {quiet : Bool}
    {outside : Effects storeCalls φ} {system : Effects systemCalls φ}
    {db : UploadDb} {host host' : Host φ}
    (h : Link.Follows quota db host.link)
    (hquota : quota.maxReservedBytes.toNat < 2 ^ 63) {c : serverCalls.Call}
    (hc : CallsUnder quota c) {r : serverCalls.Answer c}
    (hacts : hostActs quiet outside system c host r host') :
    Link.Follows quota db host'.link := by
  cases c with
  | inr c =>
      rw [hacts.2]
      exact h
  | inl op =>
      cases op with
      | change op => exact h.change hquota hc hacts
      | getFile s f =>
          rw [(StoreOp.Acts.getFile hacts h.closed).1]
          exact h
      | interrupted =>
          rw [(StoreOp.Acts.interrupted hacts h.closed).1]
          exact h

theorem Leads.follows (h : Leads blake3 quota link link')
    (hquota : quota.maxReservedBytes.toNat < 2 ^ 63)
    (hclosed : link.txn = none) (hsound : link.committed.Sound quota) :
    Link.Follows quota link.committed link' := by
  have hstart : Link.Follows quota link.committed link :=
    ⟨hclosed, hsound.follows⟩
  cases h with
  | operation hop h => exact hstart.change hquota hop h
  | opened h =>
      have hopened : Link.Follows quota link.committed
          (Link.opened link.committed) := ⟨rfl, hsound.follows⟩
      exact h.keeps (i := fun host => Link.Follows quota link.committed
          host.link) (fun c s r s' hc hs hacts => hs.call hquota hc hacts)
        openStore_uses hopened

/-- In every state the store comes to, a session's totals are the sums of
its files', a file's sizes, digest and state agree, a complete session has
only received files, and the quotas hold; and whatever happens next, a
received file stays as it is. -/
theorem reachable_sound (hquota : quota.maxReservedBytes.toNat < 2 ^ 63)
    (h : Reachable blake3 quota link) :
    link.committed.Sound quota ∧ ∀ link', Leads blake3 quota link link' →
      ∀ row ∈ link.committed.files, row.state = .received →
        row ∈ link'.committed.files := by
  have hinv : link.txn = none ∧ link.committed.Sound quota := by
    induction h with
    | refl => exact ⟨rfl, UploadDb.empty_sound⟩
    | tail _ hleads ih =>
        have hfollows := hleads.follows hquota ih.1 ih.2
        exact ⟨hfollows.closed, hfollows.follows.sound⟩
  exact ⟨hinv.2, fun link' hleads =>
    (hleads.follows hquota hinv.1 hinv.2).follows.received⟩

/-- The store after these operations, if nothing fails. -/
def performed (ops : List Operation) : Host Unit :=
  ops.foldl (fun host op => (StoreOp.answers (fun c s => match c with
    | .createDirectories _ => (none, s)
    | .rowsRead available => (available, s))
    (.change op) host).2) ⟨Link.opened .empty, ()⟩

private theorem performed_reachable {ops : List Operation}
    (hops : ∀ op ∈ ops, op.Under quota) :
    Reachable blake3 quota (performed ops).link := by
  unfold performed
  induction ops using List.reverseRecOn with
  | nil => exact .refl
  | append_singleton ops op ih =>
      rw [List.foldl_append]
      have hunder : op.Under quota :=
        hops op (List.mem_append_right _ (List.mem_singleton_self op))
      refine .tail (ih fun o ho => hops o (List.mem_append_left _ ho)) ?_
      exact .operation hunder (StoreOp.answers_acts (fun _ _ => trivial) _ _)

/-- The first session of a workspace: its one file of three bytes is
received, and it is completed. -/
def firstOperations : List Operation :=
  [.createSession .standard (digitNonces fun _ => 0) [⟨text "a.jpg", 3, none⟩],
    .beginUpload (text "session-0000000000000000")
      (text "file-0000000000000000"),
    .commitUpload (text "session-0000000000000000")
      (text "file-0000000000000000") 3 .zero,
    .completeSession (text "session-0000000000000000")]

/-- Where they leave the store. -/
def firstSession : Host Unit := performed firstOperations

/-- The first session is complete, its file is received, and a file
received stays so. -/
theorem reachable_sound_firstSession :
    firstSession.link.committed.sessions.map (·.state) = [.complete]
      ∧ firstSession.link.committed.files.map (·.state) = [.received]
      ∧ firstSession.link.committed.Sound .standard
      ∧ ∀ link', Leads (fun _ => .zero) .standard firstSession.link link' →
        ∀ row ∈ firstSession.link.committed.files, row.state = .received →
          row ∈ link'.committed.files := by
  have hunder : ∀ op ∈ firstOperations, op.Under .standard := by
    simp [firstOperations, Operation.Under]
  have hreach : Reachable (fun _ => .zero) .standard firstSession.link :=
    performed_reachable hunder
  have hquota : UploadQuota.standard.maxReservedBytes.toNat < 2 ^ 63 := by
    decide
  exact ⟨by decide, by decide, reachable_sound hquota hreach⟩

end PhotoBridge.Upload
