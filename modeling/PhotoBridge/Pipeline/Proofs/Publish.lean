/-
What a killed `WritePlanFile` leaves, and what the next call makes of it.

The file is written under a temporary name and gets its own in one step,
so under its own name there is nothing or all of it. The temporary name
is the same in every call, though, and is created only where it is not
taken: what a kill leaves between the creation and the renaming is in the
way of every later call.
-/
import Mathlib.Tactic.Common
import PhotoBridge.Pipeline.Proofs.Planning
import PhotoBridge.Pipeline.Publish

namespace PhotoBridge

open Concurrent

variable {strerror : Nat → Bytes} {finalName bytes written : Bytes}
  {dir dir' : PlanFolder} {made : List PlanCall} {rest : PlanProgram}

private theorem planTempName_ne (finalName : Bytes) :
    planTempName finalName ≠ finalName := by
  intro h
  have hlength := congrArg List.length h
  have hprefix : (text ".pbtmp.").length = 7 := by decide +kernel
  rw [planTempName, List.length_append, hprefix] at hlength
  omega

-- ============================================================ as a whole

section Whole

variable {dir : PlanDir} {tempName : Bytes}

private theorem failCleaned_run (tempName : Bytes) (status : Status)
    (dir : PlanDir) :
    PlanProgram.run strerror (failCleaned tempName status) dir
      = (do cleanup tempName; throw status : PlanFiles Unit) dir := by
  rcases dir with ⟨nodes, _ | ⟨_ | fault, faults⟩, moves⟩ <;> rfl

private theorem renameTemp_run (tempName finalName : Bytes) (dir : PlanDir) :
    PlanProgram.run strerror (renameTemp tempName finalName) dir
      = (do
        renameNoReplace strerror tempName finalName
        systemCall : PlanFiles Unit) dir := by
  rw [files_bind]
  unfold PlanProgram.run renameTemp
  rw [Program.eval]
  generalize hrenamed : planAnswers strerror
    (.renameNoReplace tempName finalName) dir = renamed
  change renameNoReplace strerror tempName finalName dir = renamed at hrenamed
  rw [hrenamed]
  rcases renamed with ⟨_ | ⟨⟩, dir'⟩
  · rfl
  · rfl

private theorem publishTemp_run (tempName finalName : Bytes) (dir : PlanDir) :
    PlanProgram.run strerror (publishTemp tempName finalName) dir
      = (do
        callOrCleanup tempName
        renameNoReplace strerror tempName finalName
        systemCall : PlanFiles Unit) dir := by
  rcases dir with ⟨nodes, _ | ⟨_ | fault, faults⟩, moves⟩
  · exact renameTemp_run ..
  · exact renameTemp_run ..
  · cases faults with
    | nil => rfl
    | cons f rest => cases f <;> rfl

/-- A write appends to the file under its name. -/
theorem writeAnswer {nodes : Bytes → Option PlanNode} {written : Bytes}
    (h : nodes tempName = some (.file written))
    (faults : List (Option Status)) (moves : List Nat) (data : Bytes) :
    planAnswers strerror (.write tempName data) ⟨nodes, faults, moves⟩
      = (do
        systemCall
        let moved ← nextMove data.length
        assign tempName (some (.file (written ++ data.take moved)))
        return moved : PlanFiles Nat) ⟨nodes, faults, moves⟩ := by
  unfold planAnswers
  rcases faults with _ | ⟨_ | fault, faults⟩
  · rcases moves with _ | ⟨moved, moves⟩
    · simp only [files_bind, systemCall, nextMove, lookUp, h]
    · simp only [files_bind, systemCall, nextMove, lookUp, h]
  · rcases moves with _ | ⟨moved, moves⟩
    · simp only [files_bind, systemCall, nextMove, lookUp, h]
    · simp only [files_bind, systemCall, nextMove, lookUp, h]
  · rfl

/-- The write loop of both, `written` being in the temporary file. -/
theorem writeAndPublish_run (finalName : Bytes) {written remaining : Bytes}
    (rounds : Nat) (h : dir.nodes tempName = some (.file written)) :
    PlanProgram.run strerror
        (writeAndPublish tempName finalName remaining rounds) dir
      = (do
        writeRounds tempName written remaining rounds
        callOrCleanup tempName
        renameNoReplace strerror tempName finalName
        systemCall : PlanFiles Unit) dir := by
  induction rounds generalizing dir written remaining with
  | zero => exact publishTemp_run ..
  | succ rounds ih =>
    rw [writeAndPublish, writeRounds]
    by_cases hempty : remaining.isEmpty = true
    · rw [if_pos hempty, if_pos hempty]
      exact publishTemp_run ..
    · rw [if_neg hempty, if_neg hempty]
      -- one round, from where the size of the write is known
      have hround : ∀ (faults : List (Option Status)) (moves : List Nat)
          (moved : Nat),
          PlanProgram.run strerror
            (if moved = 0 then failCleaned tempName
              (.ioError "plan artifact write made no progress")
            else writeAndPublish tempName finalName (remaining.drop moved)
              rounds)
            ⟨Function.update dir.nodes tempName
              (some (.file (written ++ remaining.take moved))), faults, moves⟩
          = (do
            (if moved = 0 then do
              cleanup tempName
              throw (.ioError "plan artifact write made no progress")
            else do
              assign tempName (some (.file (written ++ remaining.take moved)))
              writeRounds tempName (written ++ remaining.take moved)
                (remaining.drop moved) rounds)
            callOrCleanup tempName
            renameNoReplace strerror tempName finalName
            systemCall : PlanFiles Unit) ⟨dir.nodes, faults, moves⟩ := by
        intro faults moves moved
        by_cases hmoved : moved = 0
        · have hsame : Function.update dir.nodes tempName
              (some (.file (written ++ remaining.take moved)))
                = dir.nodes := by
            rw [hmoved, List.take_zero, List.append_nil, ← h,
              Function.update_eq_self]
          rw [if_pos hmoved, if_pos hmoved, hsame, failCleaned_run]
          rcases faults with _ | ⟨_ | fault, faults⟩ <;> rfl
        · rw [if_neg hmoved, if_neg hmoved]
          exact ih (Function.update_self ..)
      rcases dir with ⟨nodes, _ | ⟨_ | fault, faults⟩, moves⟩
      · unfold PlanProgram.run
        rw [Program.eval, writeAnswer h]
        rcases moves with _ | ⟨moved, moves⟩
        · exact hround [] [] remaining.length
        · exact hround [] moves (min moved remaining.length)
      · unfold PlanProgram.run
        rw [Program.eval, writeAnswer h]
        rcases moves with _ | ⟨moved, moves⟩
        · exact hround faults [] remaining.length
        · exact hround faults moves (min moved remaining.length)
      · cases faults with
        | nil => rfl
        | cons f rest => cases f <;> rfl


private theorem createAnswer (name : Bytes) (dir : PlanDir) :
    planAnswers strerror (.createTempNoReplace name) dir
      = match systemCall dir with
        | (.ok (), dir₁) =>
            match dir₁.nodes name with
            | some _ => (.error (statusFromErrno strerror eEXIST
                "create temporary file"), dir₁)
            | none => (.ok (), { dir₁ with
                nodes := Function.update dir₁.nodes name (some (.file [])) })
        | (.error status, dir₁) => (.error status, dir₁) := by
  simp only [planAnswers, files_bind, lookUp]
  rcases systemCall dir with ⟨_ | ⟨⟩, dir₁⟩
  · rfl
  · cases hnode : dir₁.nodes name <;> simp only [hnode] <;> rfl

/-- From the temporary file on. -/
theorem createAndWrite_run (finalName bytes : Bytes) (dir : PlanDir) :
    PlanProgram.run strerror (createAndWrite finalName bytes) dir
      = (do
        systemCall
        match ← lookUp (planTempName finalName) with
        | some _ =>
            throw (statusFromErrno strerror eEXIST "create temporary file")
        | none => do
            assign (planTempName finalName) (some (.file []))
            writeRounds (planTempName finalName) [] bytes bytes.length
            callOrCleanup (planTempName finalName)
            renameNoReplace strerror (planTempName finalName) finalName
            systemCall : PlanFiles Unit) dir := by
  rw [files_bind]
  unfold PlanProgram.run createAndWrite
  rw [Program.eval, createAnswer]
  rcases systemCall dir with ⟨_ | ⟨⟩, dir₁⟩
  · rfl
  · simp only [files_bind, lookUp]
    cases hnode : dir₁.nodes (planTempName finalName) with
    | some node => rfl
    | none => exact writeAndPublish_run _ _ (Function.update_self ..)

private theorem compareExisting_run (finalName bytes : Bytes) {node : PlanNode}
    {dir : PlanDir} : dir.nodes finalName = some node →
    PlanProgram.run strerror (compareExisting finalName bytes) dir
      = (match node with
        | .directory => throw ⟨.alreadyExists,
            text "plan artifact path is a directory: " ++ finalName⟩
        | .file existing => do
            systemCall
            if existing = bytes then pure ()
            else throw ⟨.alreadyExists,
              text "plan artifact already exists with different bytes: "
                ++ finalName⟩ : PlanFiles Unit) dir := by
  intro h
  have hdirectory : planAnswers strerror (.isDirectory finalName) dir
      = (.ok (some node == some .directory), dir) := by
    rw [← h]
    rfl
  unfold PlanProgram.run compareExisting
  rw [Program.eval, hdirectory]
  cases node with
  | directory => rfl
  | file existing =>
      have hread : planAnswers strerror (.readFile finalName) dir
          = match systemCall dir with
            | (.ok (), dir₁) => (.ok existing, dir₁)
            | (.error status, dir₁) => (.error status, dir₁) := by
        unfold planAnswers
        rcases dir with ⟨nodes, _ | ⟨_ | fault, faults⟩, moves⟩
        · have h : nodes finalName = some (.file existing) := h
          simp only [files_bind, systemCall, lookUp, h]
          rfl
        · have h : nodes finalName = some (.file existing) := h
          simp only [files_bind, systemCall, lookUp, h]
          rfl
        · rfl
      change PlanProgram.run strerror (readExisting finalName bytes) dir = _
      unfold PlanProgram.run readExisting
      rw [Program.eval, hread]
      simp only [files_bind]
      rcases systemCall dir with ⟨_ | ⟨⟩, dir₁⟩
      · rfl
      · by_cases heq : existing = bytes
        · simp only [heq, if_true]
          rfl
        · simp only [heq, if_false]
          rfl

/-- On the directory of Planning.lean, the calls of the program come to
what is written there. -/
theorem writePlanProgram_run (strerror : Nat → Bytes)
    (finalName bytes : Bytes) (dir : PlanDir) :
    PlanProgram.run strerror (writePlanProgram finalName bytes) dir
      = writePlanFile strerror finalName bytes dir := by
  have hexists : planAnswers strerror (.exists_ finalName) dir
      = match systemCall dir with
        | (.ok (), dir₁) => (.ok (dir₁.nodes finalName).isSome, dir₁)
        | (.error status, dir₁) => (.error status, dir₁) := by
    simp only [planAnswers, files_bind, lookUp]
    rcases systemCall dir with ⟨_ | ⟨⟩, dir₁⟩ <;> rfl
  unfold PlanProgram.run writePlanProgram writePlanFile
  rw [Program.eval, hexists, files_bind]
  rcases systemCall dir with ⟨_ | ⟨⟩, dir₁⟩
  · rfl
  · simp only [files_bind, lookUp]
    cases hnode : dir₁.nodes finalName with
    | some node =>
        have hcompare := @compareExisting_run strerror finalName bytes node
          dir₁ hnode
        unfold PlanProgram.run at hcompare
        simp only [Option.isSome_some]
        rw [hcompare]
        cases node <;> rfl
    | none =>
        simp only [Option.isSome_none]
        rw [Program.eval]
        generalize hopened : planAnswers strerror .openParent dir₁ = opened
        change systemCall dir₁ = opened at hopened
        simp only [files_bind]
        rw [hopened]
        rcases opened with ⟨_ | ⟨⟩, dir₂⟩
        · rfl
        · have hcreate := @createAndWrite_run strerror finalName bytes dir₂
          simp only [files_bind] at hcreate
          exact hcreate

end Whole

-- ======================================================= where it stopped

/-- Stopped with a temporary file and no file. -/
structure Interrupted (finalName : Bytes) (made : List PlanCall)
    (rest : PlanProgram) (dir' : PlanFolder) : Prop where
  unrenamed : ∀ oldName newName, .renameNoReplace oldName newName ∉ made
  absent : dir' finalName = none
  temp : dir' (planTempName finalName) ≠ none
  running : ∀ r, rest ≠ .done r

/-- Stopped with the file and no temporary one. -/
structure Published (finalName bytes : Bytes) (made : List PlanCall)
    (rest : PlanProgram) (dir' : PlanFolder) : Prop where
  renamed : ∃ oldName newName, .renameNoReplace oldName newName ∈ made
  present : dir' finalName = some (.file bytes)
  noTemp : dir' (planTempName finalName) = none
  ok : ∀ r, rest = .done r → r = .ok ()

theorem Interrupted.cons {c : PlanCall}
    (h : Interrupted finalName made rest dir')
    (hc : ∀ oldName newName, c ≠ .renameNoReplace oldName newName) :
    Interrupted finalName (c :: made) rest dir' where
  unrenamed := by
    intro oldName newName hmem
    rcases List.mem_cons.1 hmem with heq | hmem
    · exact hc oldName newName heq.symm
    · exact h.unrenamed oldName newName hmem
  absent := h.absent
  temp := h.temp
  running := h.running

theorem Published.cons (c : PlanCall)
    (h : Published finalName bytes made rest dir') :
    Published finalName bytes (c :: made) rest dir' where
  renamed := by
    obtain ⟨oldName, newName, hmem⟩ := h.renamed
    exact ⟨oldName, newName, List.mem_cons_of_mem _ hmem⟩
  present := h.present
  noTemp := h.noTemp
  ok := h.ok

/-- The renamed file stands under its own name. -/
theorem renamed_final (finalName : Bytes)
    (htemp : dir (planTempName finalName) = some (.file bytes)) :
    Function.update (Function.update dir finalName
      (dir (planTempName finalName))) (planTempName finalName) none finalName
      = some (.file bytes) := by
  rw [Function.update_of_ne (planTempName_ne finalName).symm,
    Function.update_self, htemp]

/-- From the last write on. -/
theorem publishTemp_stops
    (htemp : dir (planTempName finalName) = some (.file bytes))
    (hfinal : dir finalName = none)
    (h : Concurrent.Stops (planEffects strerror)
      (publishTemp (planTempName finalName) finalName) dir made rest dir') :
    Interrupted finalName made rest dir'
      ∨ Published finalName bytes made rest dir' := by
  have hsome : dir (planTempName finalName) ≠ none := by
    rw [htemp]
    exact Option.some_ne_none _
  unfold publishTemp at h
  cases h with
  | here => exact .inl ⟨by simp, hfinal, hsome, by simp⟩
  | call hsync h =>
    obtain ⟨rfl, rfl⟩ := hsync
    change Concurrent.Stops _ (renameTemp _ _) _ _ _ _ at h
    unfold renameTemp at h
    cases h with
    | here => exact .inl ⟨by simp, hfinal, hsome, by simp⟩
    | call hrename h =>
      simp only [planEffects, hfinal] at hrename
      obtain ⟨rfl, rfl⟩ := hrename
      right
      have hpresent := renamed_final finalName htemp
      cases h with
      | here =>
          exact ⟨⟨planTempName finalName, finalName, by simp⟩, hpresent,
            Function.update_self .., by simp⟩
      | call hfsync h =>
        obtain ⟨rfl, rfl⟩ := hfsync
        cases h with
        | here =>
            refine ⟨⟨planTempName finalName, finalName, by simp⟩, hpresent,
              Function.update_self .., ?_⟩
            intro r hr
            exact (Program.done.inj hr).symm

/-- The write loop, and from there on. Before each round the temporary
file holds what was written, and `written ++ remaining` are the bytes. -/
theorem writeAndPublish_stops {remaining : Bytes} {rounds : Nat}
    (hrounds : remaining.length ≤ rounds)
    (htemp : dir (planTempName finalName) = some (.file written))
    (hfinal : dir finalName = none)
    (h : Concurrent.Stops (planEffects strerror)
      (writeAndPublish (planTempName finalName) finalName remaining rounds)
      dir made rest dir') :
    Interrupted finalName made rest dir'
      ∨ Published finalName (written ++ remaining) made rest dir' := by
  induction rounds generalizing dir made remaining written with
  | zero =>
      have hnil := List.length_eq_zero_iff.1 (Nat.le_zero.1 hrounds)
      subst hnil
      rw [List.append_nil]
      exact publishTemp_stops htemp hfinal h
  | succ rounds ih =>
      rw [writeAndPublish] at h
      split at h
      · next hnil =>
        rw [List.isEmpty_iff.1 hnil, List.append_nil]
        exact publishTemp_stops htemp hfinal h
      next hnonempty =>
      have hremaining : remaining ≠ [] := by
        intro hnil
        exact hnonempty (List.isEmpty_iff.2 hnil)
      cases h with
      | here =>
          refine .inl ⟨by simp, hfinal, ?_, by simp⟩
          rw [htemp]
          exact Option.some_ne_none _
      | call hwrite h =>
        obtain ⟨moved, rfl, hmoved, hprogress, hdir⟩ := hwrite
        have hpositive := hprogress hremaining
        have hdir := hdir written htemp
        subst hdir
        simp only [Nat.pos_iff_ne_zero.1 hpositive, if_false] at h
        have hshorter : (remaining.drop moved).length ≤ rounds := by
          rw [List.length_drop]
          omega
        have hnext := ih hshorter (Function.update_self ..)
          (by rw [Function.update_of_ne (planTempName_ne finalName).symm,
            hfinal]) h
        rw [List.append_assoc, List.take_append_drop] at hnext
        rcases hnext with hstopped | hpublished
        · exact .inl (hstopped.cons fun _ _ heq => by cases heq)
        · exact .inr (hpublished.cons _)

/-- The call on a path where nothing stands, nor a temporary file. -/
theorem writePlan_stops_vacant
    (htemp : dir (planTempName finalName) = none)
    (hfinal : dir finalName = none)
    (h : Concurrent.Stops (planEffects strerror)
      (writePlanProgram finalName bytes)
      dir made rest dir') :
    (dir' = dir ∧ (∀ name, .createTempNoReplace name ∉ made)
        ∧ ∀ r, rest ≠ .done r)
      ∨ ((∃ name, .createTempNoReplace name ∈ made)
        ∧ (Interrupted finalName made rest dir'
          ∨ Published finalName bytes made rest dir')) := by
  unfold writePlanProgram at h
  cases h with
  | here => exact .inl ⟨rfl, by simp, by simp⟩
  | call hexists h =>
    simp only [planEffects, hfinal, Option.isSome_none] at hexists
    obtain ⟨rfl, rfl⟩ := hexists
    cases h with
    | here => exact .inl ⟨rfl, by simp, by simp⟩
    | call hopen h =>
      obtain ⟨rfl, rfl⟩ := hopen
      change Concurrent.Stops _ (createAndWrite _ _) _ _ _ _ at h
      unfold createAndWrite at h
      cases h with
      | here => exact .inl ⟨rfl, by simp, by simp⟩
      | call hcreate h =>
        simp only [planEffects, htemp] at hcreate
        obtain ⟨rfl, rfl⟩ := hcreate
        right
        refine ⟨⟨planTempName finalName, by simp⟩, ?_⟩
        have hloop := writeAndPublish_stops (Nat.le_refl bytes.length)
          (Function.update_self ..)
          (by rw [Function.update_of_ne (planTempName_ne finalName).symm,
            hfinal]) h
        rw [List.nil_append] at hloop
        rcases hloop with hstopped | hpublished
        · left
          exact ((hstopped.cons fun _ _ heq => by cases heq).cons
            fun _ _ heq => by cases heq).cons fun _ _ heq => by cases heq
        · exact .inr (((hpublished.cons _).cons _).cons _)

/-- The call on a path where a temporary file is in the way. -/
theorem writePlan_stops_blocked
    (htemp : dir (planTempName finalName) ≠ none)
    (hfinal : dir finalName = none)
    (h : Concurrent.Stops (planEffects strerror)
      (writePlanProgram finalName bytes)
      dir made rest dir') :
    dir' = dir ∧ ∀ r, rest = .done r → r = .error
      (statusFromErrno strerror eEXIST "create temporary file") := by
  obtain ⟨node, hnode⟩ := Option.ne_none_iff_exists'.1 htemp
  unfold writePlanProgram at h
  cases h with
  | here => exact ⟨rfl, by simp⟩
  | call hexists h =>
    simp only [planEffects, hfinal, Option.isSome_none] at hexists
    obtain ⟨rfl, rfl⟩ := hexists
    cases h with
    | here => exact ⟨rfl, by simp⟩
    | call hopen h =>
      obtain ⟨rfl, rfl⟩ := hopen
      change Concurrent.Stops _ (createAndWrite _ _) _ _ _ _ at h
      unfold createAndWrite at h
      cases h with
      | here => exact ⟨rfl, by simp⟩
      | call hcreate h =>
        simp only [planEffects, hnode] at hcreate
        obtain ⟨rfl, rfl⟩ := hcreate
        cases h with
        | here =>
            refine ⟨rfl, fun r hr => ?_⟩
            exact (Program.done.inj hr).symm

/-- The call on a path where something stands. -/
theorem writePlan_stops_taken {node : PlanNode}
    (hfinal : dir finalName = some node)
    (h : Concurrent.Stops (planEffects strerror)
      (writePlanProgram finalName bytes)
      dir made rest dir') :
    dir' = dir ∧ (∀ name, .createTempNoReplace name ∉ made)
      ∧ ∀ r, rest = .done r → (r = .ok () ↔ node = .file bytes) := by
  unfold writePlanProgram at h
  cases h with
  | here => exact ⟨rfl, by simp, by simp⟩
  | call hexists h =>
    simp only [planEffects, hfinal, Option.isSome_some] at hexists
    obtain ⟨rfl, rfl⟩ := hexists
    unfold compareExisting at h
    cases h with
    | here => exact ⟨rfl, by simp, by simp⟩
    | call hdirectory h =>
      simp only [planEffects, hfinal] at hdirectory
      obtain ⟨rfl, rfl⟩ := hdirectory
      cases node with
      | directory =>
          cases h with
          | here =>
              refine ⟨rfl, by simp, fun r hr => ?_⟩
              rw [← Program.done.inj hr]
              simp
      | file existing =>
          change Concurrent.Stops _ (readExisting _ _) _ _ _ _ at h
          unfold readExisting at h
          cases h with
          | here => exact ⟨rfl, by simp, by simp⟩
          | call hread h =>
            obtain ⟨hread, rfl⟩ := hread
            have hread := hread existing hfinal
            subst hread
            by_cases heq : existing = bytes
            · simp only [heq, if_true] at h
              cases h with
              | here =>
                  refine ⟨rfl, by simp, fun r hr => ?_⟩
                  rw [← Program.done.inj hr, heq]
                  simp
            · simp only [heq, if_false] at h
              cases h with
              | here =>
                  refine ⟨rfl, by simp, fun r hr => ?_⟩
                  rw [← Program.done.inj hr]
                  simp [heq]

-- ============================================================== resuming

/-- The answers of a directory whose writes move all they are given. -/
def fullAnswers (strerror : Nat → Bytes) :
    (c : PlanCall) → PlanFolder → planCalls.Answer c × PlanFolder
  | .exists_ name, dir => (.ok (dir name).isSome, dir)
  | .isDirectory name, dir => (.ok (dir name == some .directory), dir)
  | .readFile name, dir =>
      match dir name with
      | some (.file bytes) => (.ok bytes, dir)
      | _ => (.ok [], dir)
  | .openParent, dir => (.ok (), dir)
  | .createTempNoReplace name, dir =>
      match dir name with
      | some _ =>
          (.error (statusFromErrno strerror eEXIST "create temporary file"),
            dir)
      | none => (.ok (), Function.update dir name (some (.file [])))
  | .write name data, dir =>
      match dir name with
      | some (.file written) => (.ok data.length,
          Function.update dir name (some (.file (written ++ data))))
      | _ => (.ok data.length, dir)
  | .fdatasync _, dir => (.ok (), dir)
  | .renameNoReplace oldName newName, dir =>
      match dir newName with
      | some _ =>
          (.error (statusFromErrno strerror eEXIST "rename without replace"),
            dir)
      | none => (.ok (), Function.update
          (Function.update dir newName (dir oldName)) oldName none)
  | .fsyncDirectory, dir => (.ok (), dir)
  | .unlinkAt name, dir => (.ok (), Function.update dir name none)

private theorem fullAnswers_effects (c : PlanCall) (dir : PlanFolder) :
    planEffects strerror c dir (fullAnswers strerror c dir).1
      (fullAnswers strerror c dir).2 := by
  cases c with
  | readFile name =>
      refine ⟨fun bytes hbytes => ?_, ?_⟩
      · simp only [fullAnswers, hbytes]
      · simp only [fullAnswers]
        split <;> rfl
  | createTempNoReplace name =>
      simp only [planEffects, fullAnswers]
      cases dir name <;> exact ⟨rfl, rfl⟩
  | renameNoReplace oldName newName =>
      simp only [planEffects, fullAnswers]
      cases dir newName <;> exact ⟨rfl, rfl⟩
  | write name data =>
      refine ⟨data.length, ?_, Nat.le_refl _, List.length_pos_iff.2,
        fun written hwritten => ?_⟩
      · simp only [fullAnswers]
        split <;> rfl
      · simp only [fullAnswers, hwritten, List.take_length]
  | _ => exact ⟨rfl, rfl⟩

/-- A later call succeeds exactly if the bytes are there already, or
nothing is, not even a temporary file. -/
theorem resumable_iff :
    Resumable strerror finalName bytes dir
      ↔ dir finalName = some (.file bytes)
        ∨ dir finalName = none ∧ dir (planTempName finalName) = none := by
  constructor
  · intro h
    obtain ⟨r, dir', hrun⟩ := h.returns
    obtain ⟨rfl, -⟩ := h.ok r dir' hrun
    obtain ⟨made, hstop⟩ := hrun.stops
    cases hfinal : dir finalName with
    | some node =>
        obtain ⟨-, -, hdone⟩ := writePlan_stops_taken hfinal hstop
        rw [(hdone _ rfl).1 rfl]
        exact .inl rfl
    | none =>
        refine .inr ⟨rfl, ?_⟩
        by_contra htemp
        obtain ⟨-, hdone⟩ := writePlan_stops_blocked htemp hfinal hstop
        cases hdone _ rfl
  · intro h
    refine ⟨⟨_, _, Program.eval_returns fullAnswers_effects _ dir⟩,
      fun r dir' hrun => ?_⟩
    obtain ⟨made, hstop⟩ := hrun.stops
    rcases h with hpresent | ⟨hfinal, htemp⟩
    · obtain ⟨rfl, -, hdone⟩ := writePlan_stops_taken hpresent hstop
      exact ⟨(hdone r rfl).2 rfl, hpresent⟩
    · rcases writePlan_stops_vacant htemp hfinal hstop with
        ⟨-, -, hrunning⟩ | ⟨-, hstopped | hpublished⟩
      · exact absurd rfl (hrunning r)
      · exact absurd rfl (hstopped.running r)
      · exact ⟨hpublished.ok r rfl, hpublished.present⟩

/-- No temporary file, and under the path nothing or these bytes. -/
def Ready (finalName bytes : Bytes) (dir : PlanFolder) : Prop :=
  dir (planTempName finalName) = none
    ∧ (dir finalName = none ∨ dir finalName = some (.file bytes))

theorem Ready.resumable (h : Ready finalName bytes dir) :
    Resumable strerror finalName bytes dir := by
  rw [resumable_iff]
  rcases h with ⟨htemp, hfinal | hfinal⟩
  · exact .inr ⟨hfinal, htemp⟩
  · exact .inl hfinal

/-- A kill that left no temporary file left the path ready, and after
any other no later call succeeds. -/
theorem Ready.stops (h : Ready finalName bytes dir)
    (hstop : Concurrent.Stops (planEffects strerror)
      (writePlanProgram finalName bytes)
      dir made rest dir') :
    (LeftNoTemp made → Ready finalName bytes dir')
      ∧ (¬LeftNoTemp made → ¬Resumable strerror finalName bytes dir') := by
  rcases h with ⟨htemp, hfinal | hfinal⟩
  · rcases writePlan_stops_vacant htemp hfinal hstop with
      ⟨rfl, hcreate, -⟩ | ⟨hcreate, hstopped | hpublished⟩
    · refine ⟨fun _ => ⟨htemp, .inl hfinal⟩, fun hleft => absurd ?_ hleft⟩
      rintro ⟨name, hname⟩
      exact absurd hname (hcreate name)
    · constructor
      · intro hleft
        obtain ⟨oldName, newName, hrenamed⟩ := hleft hcreate
        exact absurd hrenamed (hstopped.unrenamed oldName newName)
      · intro _ hresumable
        rcases resumable_iff.1 hresumable with hpresent | ⟨-, hnone⟩
        · rw [hstopped.absent] at hpresent
          cases hpresent
        · exact hstopped.temp hnone
    · exact ⟨fun _ => ⟨hpublished.noTemp, .inr hpublished.present⟩,
        fun hleft => absurd (fun _ => hpublished.renamed) hleft⟩
  · obtain ⟨rfl, hcreate, -⟩ := writePlan_stops_taken hfinal hstop
    refine ⟨fun _ => ⟨htemp, .inr hfinal⟩, fun hleft => absurd ?_ hleft⟩
    rintro ⟨name, hname⟩
    exact absurd hname (hcreate name)

/-- A call that ran to its end leaves the path ready. -/
theorem Ready.returns {r : Except Status Unit}
    (h : Ready finalName bytes dir)
    (hrun : Returns (planEffects strerror) (writePlanProgram finalName bytes)
      dir r dir') : Ready finalName bytes dir' := by
  obtain ⟨made, hstop⟩ := hrun.stops
  rcases h with ⟨htemp, hfinal | hfinal⟩
  · rcases writePlan_stops_vacant htemp hfinal hstop with
      ⟨-, -, hrunning⟩ | ⟨-, hstopped | hpublished⟩
    · exact absurd rfl (hrunning r)
    · exact absurd rfl (hstopped.running r)
    · exact ⟨hpublished.noTemp, .inr hpublished.present⟩
  · obtain ⟨rfl, -, -⟩ := writePlan_stops_taken hfinal hstop
    exact ⟨htemp, .inr hfinal⟩

-- ================================================================== runs

/-- Nothing, or the bytes of a call. -/
theorem stops_complete {calls : List Bytes}
    (h : dir finalName = none ∨ ∃ b ∈ calls, dir finalName = some (.file b))
    (hstop : Concurrent.Stops (planEffects strerror)
      (writePlanProgram finalName bytes)
      dir made rest dir') :
    dir' finalName = none
      ∨ ∃ b ∈ calls ++ [bytes], dir' finalName = some (.file b) := by
  rcases h with hfinal | ⟨b, hb, hfinal⟩
  · by_cases htemp : dir (planTempName finalName) = none
    · rcases writePlan_stops_vacant htemp hfinal hstop with
        ⟨rfl, -, -⟩ | ⟨-, hstopped | hpublished⟩
      · exact .inl hfinal
      · exact .inl hstopped.absent
      · exact .inr ⟨bytes, by simp, hpublished.present⟩
    · obtain ⟨rfl, -⟩ := writePlan_stops_blocked htemp hfinal hstop
      exact .inl hfinal
  · obtain ⟨rfl, -, -⟩ := writePlan_stops_taken hfinal hstop
    exact .inr ⟨b, List.mem_append_left _ hb, hfinal⟩

/-- Through calls with these bytes whose kills leave no temporary file,
the path stays ready. -/
theorem Attempts.ready {start : PlanFolder} {calls : List Bytes}
    (hstart : Ready finalName bytes start)
    (h : Attempts strerror finalName LeftNoTemp start calls dir)
    (hcalls : ∀ b ∈ calls, b = bytes) : Ready finalName bytes dir := by
  induction h with
  | start => exact hstart
  | returned _ hrun ih =>
      have hready := ih fun b hb => hcalls b (List.mem_append_left _ hb)
      rw [hcalls _ (List.mem_append_right _ (List.mem_singleton_self _))]
        at hrun
      exact hready.returns hrun
  | killed _ hstop hmay ih =>
      have hready := ih fun b hb => hcalls b (List.mem_append_left _ hb)
      rw [hcalls _ (List.mem_append_right _ (List.mem_singleton_self _))]
        at hstop
      exact (hready.stops hstop).1 hmay

/-- Through any calls and kills, the path holds nothing or all the bytes
of a call. -/
theorem Attempts.complete {may : List PlanCall → Prop} {start : PlanFolder}
    {calls : List Bytes} (hstart : start finalName = none)
    (h : Attempts strerror finalName may start calls dir) :
    dir finalName = none ∨ ∃ b ∈ calls, dir finalName = some (.file b) := by
  induction h with
  | start => exact .inl hstart
  | returned _ hrun ih =>
      obtain ⟨made, hstop⟩ := hrun.stops
      exact stops_complete ih hstop
  | killed _ hstop _ ih => exact stops_complete ih hstop

/-- After calls with the same bytes, of which the killed ones left no
temporary file, a later call succeeds and leaves the bytes; a call killed
then allows that exactly if it left no temporary file either. At every
moment of any calls, the path holds nothing or all the bytes of one. -/
theorem planFile_survives (strerror : Nat → Bytes) (finalName : Bytes)
    {start : PlanFolder} (hfinal : start finalName = none)
    (htemp : start (planTempName finalName) = none) :
    (∀ (bytes : Bytes) (calls : List Bytes) (dir : PlanFolder),
      Attempts strerror finalName LeftNoTemp start calls dir →
      (∀ b ∈ calls, b = bytes) →
      Resumable strerror finalName bytes dir
        ∧ ∀ made rest dir', Concurrent.Stops (planEffects strerror)
            (writePlanProgram finalName bytes) dir made rest dir' →
          (Resumable strerror finalName bytes dir' ↔ LeftNoTemp made))
      ∧ ∀ (calls : List Bytes) (dir : PlanFolder),
        Attempts strerror finalName (fun _ => True) start calls dir →
        dir finalName = none
          ∨ ∃ b ∈ calls, dir finalName = some (.file b) := by
  refine ⟨fun bytes calls dir hrun hcalls => ?_,
    fun calls dir hrun => hrun.complete hfinal⟩
  have hready := hrun.ready ⟨htemp, .inl hfinal⟩ hcalls
  refine ⟨hready.resumable, fun made rest dir' hstop => ?_⟩
  obtain ⟨hkept, hlost⟩ := hready.stops hstop
  constructor
  · intro hresumable
    by_contra hleft
    exact hlost hleft hresumable
  · exact fun hleft => (hkept hleft).resumable

/-- An empty directory. -/
def noFiles : PlanFolder := fun _ => none

/-- A file is published, and may be published again. -/
theorem planFile_survives_published :
    ∃ dir, Attempts (fun _ => []) (text "p") LeftNoTemp noFiles [[1, 2, 3]] dir
      ∧ dir (text "p") = some (.file [1, 2, 3])
      ∧ Resumable (fun _ => []) (text "p") [1, 2, 3] dir := by
  have hreturns := Program.eval_returns
    (@fullAnswers_effects fun _ => []) (writePlanProgram (text "p") [1, 2, 3])
    noFiles
  have hrun : Attempts (fun _ => []) (text "p") LeftNoTemp noFiles
      [[1, 2, 3]] _ := .returned .start hreturns
  refine ⟨_, hrun, by decide +kernel, ?_⟩
  exact ((planFile_survives (fun _ => []) (text "p") rfl rfl).1 [1, 2, 3] _ _
    hrun (by simp)).1

/-- Killed when the temporary file was there, the call leaves what every
later call fails over. -/
theorem planFile_not_survives :
    ∃ made rest dir, Concurrent.Stops (planEffects fun _ => [])
        (writePlanProgram (text "p") [1, 2, 3]) noFiles made rest dir
      ∧ ∃ r dir', Returns (planEffects fun _ => [])
          (writePlanProgram (text "p") [1, 2, 3]) dir r dir'
        ∧ r = .error (statusFromErrno (fun _ => []) eEXIST
          "create temporary file")
        ∧ dir' (text "p") = none := by
  refine ⟨_, _, _, .call ⟨rfl, rfl⟩ (.call ⟨rfl, rfl⟩
    (.call ⟨rfl, rfl⟩ (.here _ _))), _, _,
    Program.eval_returns fullAnswers_effects _ _, ?_, ?_⟩
  · decide +kernel
  · decide +kernel

end PhotoBridge
