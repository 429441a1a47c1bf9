/-
Whether a received file would outlive a crash of the machine.

The handler synchronises the session's directory between publishing a
file and committing it. Recovery commits what it finds published and
synchronises nothing, so a process killed between the two leaves a name
that the next one commits as it is.
-/
import PhotoBridge.Upload.Proofs.Receiver

namespace PhotoBridge.Upload

open Concurrent SharedConnection

variable {τ : Type} [DecidableEq τ] {blake3 : Bytes → Digest}
  {quota : UploadQuota} {faulty : Bool} {requests : τ → PutRequest}
  {sys sys₀ : System τ}

/-- Where every start finds the published names of files still RECEIVING
durable, the final name of a file that is RECEIVED is durable. -/
theorem System.received_durable
    (hquota : quota.maxReservedBytes.toNat < 2 ^ 63) (hfresh : sys₀.Fresh)
    (hrun : Relation.ReflTransGen
      (System.StepsFrom true blake3 quota faulty requests) sys₀ sys) :
    ∀ row ∈ sys.world.db.files, row.state = .received →
      sys.world.disk.synced (finalPath row.sessionId row.safeFilename)
        = true := by
  intro row hrow hstate
  obtain ⟨hsound, -⟩ := System.Sound.run hquota hfresh.sound hrun
  exact hsound.world.durable rfl row hrow hstate

/-- An upload that was not interrupted. -/
theorem System.received_durable_upload :
    ∃ row ∈ (uploadAfter 20).2.db.files, row.state = .received
      ∧ (uploadAfter 20).2.disk.synced
        (finalPath row.sessionId row.safeFilename) = true := by
  have hreceived : ∃ row ∈ (uploadAfter 20).2.db.files,
      row.state = .received := by decide
  obtain ⟨row, hrow, hstate⟩ := hreceived
  have hrun : Relation.ReflTransGen
      (System.StepsFrom true blake3Of .standard false twoRequests) _ _ :=
    uploadAfter_run 20
  exact ⟨row, hrow, hstate,
    System.received_durable (by decide) freshWorld_fresh hrun row hrow hstate⟩

/-- The receiver started again after the upload was killed between the
rename and the synchronisation of the directory. -/
def restarted : World Bool := ((uploadAfter 8).2.forgotten.openedAlone blake3Of).2

/-- Recovery commits a name that a crash can undo. -/
theorem System.received_undurable :
    ∃ sys₀ sys : System Bool, sys₀.Fresh
      ∧ Relation.ReflTransGen
        (System.Step blake3Of .standard false twoRequests) sys₀ sys
      ∧ ∃ row ∈ sys.world.db.files, row.state = .received
        ∧ (sys.world.disk.files
          (finalPath row.sessionId row.safeFilename)).isSome = true
        ∧ sys.world.disk.synced (finalPath row.sessionId row.safeFilename)
          = false := by
  have hupload : Relation.ReflTransGen
      (System.StepsFrom false blake3Of .standard false twoRequests) _ _ :=
    uploadAfter_run 8
  have hkilled := (System.step_of_stepsFrom hupload).tail .killed
  have hrestarts : Relation.ReflTransGen
      (System.StepsFrom false blake3Of .standard false twoRequests)
      ⟨.down, (uploadAfter 8).2.forgotten⟩
      ⟨.serving fun _ => none, restarted⟩ :=
    System.opened_run nofun rfl
  refine ⟨_, _, freshWorld_fresh,
    hkilled.trans (System.step_of_stepsFrom hrestarts), ?_⟩
  show ∃ row ∈ restarted.db.files, _
  decide

end PhotoBridge.Upload
