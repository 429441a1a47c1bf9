/-
What identifies tasks, temp files and attempts (`task.cpp`,
`pipeline_shared.cpp`, `task_runtime_repository.cpp`). Three layouts, read
back in three ways: a task key's payload has binary lengths in front of
its fields, a temp name's has decimal ones, and an attempt id is bare
texts with dashes between them, in which only the fixed length of a task
id shows where the plan id ends.
-/
import PhotoBridge.Db.Repository
import PhotoBridge.Plan.Proofs.Canonical
import PhotoBridge.Plan.Proofs.Text

namespace PhotoBridge

open Delimited Sorting

-- ============================================================ task keys

/-- The sizes a task key's payload counts fit into 64 bits. -/
structure TaskSpec.FitsSize (task : TaskSpec) : Prop where
  assetId : PhotoBridge.FitsSize task.assetId
  targetPath : PhotoBridge.FitsSize task.targetPath.bytes
  sourceAssetId : ∀ source ∈ task.sourceAssetId, PhotoBridge.FitsSize source

theorem TaskType.name_fits (type : TaskType) : FitsSize type.name := by
  cases type <;> decide +kernel

theorem TaskType.name_inj {a b : TaskType} (h : a.name = b.name) : a = b := by
  cases a <;> cases b <;> first | rfl | exact absurd h (by decide +kernel)

private theorem optionalString_delimits :
    Delimits (fun o : Option Bytes => ∀ s ∈ o, FitsSize s) optionalString := by
  have heq : optionalString = optional 0 1 lengthPrefixed := by
    funext o
    cases o <;> rfl
  rw [heq]
  exact lengthPrefixed_delimits.optional (by decide)

/-- The fields of a task that its key is made of. -/
structure TaskSpec.SameKeyFields (a b : TaskSpec) : Prop where
  assetId : a.assetId = b.assetId
  type : a.type = b.type
  targetPath : a.targetPath = b.targetPath
  sourceAssetId : a.sourceAssetId = b.sourceAssetId

/-- The payload of a task key determines the fields it is made of. -/
theorem taskKeyPayload_inj {a b : TaskSpec} (ha : a.FitsSize)
    (hb : b.FitsSize) (h : taskKeyPayload a = taskKeyPayload b) :
    a.SameKeyFields b := by
  unfold taskKeyPayload at h
  simp only [List.append_assoc] at h
  obtain ⟨hasset, h₁⟩ := lengthPrefixed_delimits.peel ha.assetId hb.assetId
    (List.append_cancel_left h)
  obtain ⟨htype, h₂⟩ := lengthPrefixed_delimits.peel a.type.name_fits
    b.type.name_fits h₁
  obtain ⟨hpath, h₃⟩ := lengthPrefixed_delimits.peel ha.targetPath
    hb.targetPath h₂
  have hsource := optionalString_delimits.injective ha.sourceAssetId
    hb.sourceAssetId h₃
  exact ⟨hasset, TaskType.name_inj htype, RelativePath.eq_of_bytes hpath,
    hsource⟩

-- =========================================================== temp names

/-- The payload `TempNameFor` hashes. -/
def tempNamePayload (planId taskId attemptId : Bytes) : Bytes :=
  text "photobridge-temp-v1\n" ++ tempNameField planId
    ++ tempNameField taskId ++ tempNameField attemptId

private theorem tempNameFor_eq (blake3 : Bytes → Digest)
    (planId taskId attemptId : Bytes) :
    tempNameFor blake3 planId taskId attemptId
      = text ".photobridge."
        ++ (blake3 (tempNamePayload planId taskId attemptId)).toHex
        ++ text ".pbtmp" := rfl

/-- Up to a byte they do not contain, two texts are told apart. -/
theorem append_cons_inj {byte : UInt8} {a b r s : Bytes} (ha : byte ∉ a)
    (hb : byte ∉ b) (h : a ++ byte :: r = b ++ byte :: s) :
    a = b ∧ r = s := by
  induction a generalizing b with
  | nil =>
      cases b with
      | nil => exact ⟨rfl, (List.cons.inj h).2⟩
      | cons y ys =>
          have hy := (List.cons.inj h).1
          exact absurd (List.mem_cons.2 (Or.inl hy)) hb
  | cons x xs ih =>
      cases b with
      | nil =>
          have hx := (List.cons.inj h).1
          exact absurd (List.mem_cons.2 (Or.inl hx.symm)) ha
      | cons y ys =>
          obtain ⟨hxy, htail⟩ := List.cons.inj h
          obtain ⟨hxs, hrs⟩ := ih
            (fun hmem => ha (List.mem_cons_of_mem _ hmem))
            (fun hmem => hb (List.mem_cons_of_mem _ hmem)) htail
          exact ⟨by rw [hxy, hxs], hrs⟩

private theorem not_mem_decimal {n : Nat} {byte : UInt8}
    (h : byte < 48 ∨ 57 < byte) : byte ∉ decimal n := by
  intro hmem
  obtain ⟨hlow, hhigh⟩ := mem_decimal hmem
  rcases h with h | h
  · exact absurd hlow (UInt8.not_le.2 h)
  · exact absurd hhigh (UInt8.not_le.2 h)

/-- A field behind its length in decimal says where it ends. -/
theorem tempNameField_delimits :
    Delimits (fun _ : Bytes => True) tempNameField := by
  refine ⟨fun {a b} _ _ {r s} h => ?_⟩
  have hcolon : text ":" = [58] := rfl
  unfold tempNameField at h
  simp only [hcolon, List.append_assoc, List.singleton_append] at h
  obtain ⟨hlength, hrest⟩ := append_cons_inj (not_mem_decimal (by decide))
    (not_mem_decimal (by decide)) h
  exact List.append_inj hrest (decimal_inj hlength)

/-- The payload of a temp name determines what it is a name for. -/
theorem tempNamePayload_inj {p t a p' t' a' : Bytes}
    (h : tempNamePayload p t a = tempNamePayload p' t' a') :
    p = p' ∧ t = t' ∧ a = a' := by
  unfold tempNamePayload at h
  simp only [List.append_assoc] at h
  obtain ⟨hplan, h₁⟩ := tempNameField_delimits.peel trivial trivial
    (List.append_cancel_left h)
  obtain ⟨htask, h₂⟩ := tempNameField_delimits.peel trivial trivial h₁
  exact ⟨hplan, htask,
    tempNameField_delimits.injective trivial trivial h₂⟩

-- ========================================================== attempt ids

/-- A task id as `TaskKeyFor` makes them. -/
def IsTaskKey (id : Bytes) : Prop :=
  ∃ digest : Digest, id = text "task-" ++ digest.toHex

private theorem length_toHex (digest : Digest) : digest.toHex.length = 64 := by
  rw [toHex_eq, length_hexEncode, digest.size]

theorem IsTaskKey.length {id : Bytes} (h : IsTaskKey id) :
    id.length = 69 := by
  obtain ⟨digest, rfl⟩ := h
  rw [List.length_append, length_toHex]
  decide +kernel

theorem taskKeyFor_isTaskKey {blake3 : Bytes → Digest} {task : TaskSpec}
    {key : Bytes} (h : taskKeyFor blake3 task = .ok key) : IsTaskKey key := by
  unfold taskKeyFor at h
  split at h
  · cases h
  · split at h
    · cases h
    · cases h
      exact ⟨_, rfl⟩

/-- A generated attempt id determines its plan, its task and its number:
the number is what follows the last dash, and the task id in front of it
has a fixed length. -/
theorem generatedAttemptId_inj {p t p' t' : Bytes} {n n' : Nat}
    (ht : IsTaskKey t) (ht' : IsTaskKey t')
    (h : generatedAttemptId p t n = generatedAttemptId p' t' n') :
    p = p' ∧ t = t' ∧ n = n' := by
  have hdash : text "-" = [45] := rfl
  unfold generatedAttemptId at h
  -- read from the end, the number comes first
  have hreverse := congrArg List.reverse h
  simp only [hdash, List.reverse_append, List.reverse_cons, List.nil_append,
    List.append_assoc, List.cons_append] at hreverse
  have hdigits : ∀ m, (45 : UInt8) ∉ (decimal m).reverse := by
    intro m hmem
    exact not_mem_decimal (by decide) (List.mem_reverse.1 hmem)
  obtain ⟨hnumber, hfront⟩ := append_cons_inj (hdigits n) (hdigits n') hreverse
  have hlength : t.reverse.length = t'.reverse.length := by
    rw [List.length_reverse, List.length_reverse, ht.length, ht'.length]
  obtain ⟨htask, hplan⟩ := List.append_inj hfront hlength
  have hplans := List.append_cancel_right (List.cons.inj hplan).2
  exact ⟨List.reverse_inj.1 hplans, List.reverse_inj.1 htask,
    decimal_inj (List.reverse_inj.1 hnumber)⟩

-- =================================================== under a good hash

private theorem toHex_inj {a b : Digest} (h : a.toHex = b.toHex) : a = b := by
  have hread := congrArg Digest.fromHex h
  rw [fromHex_toHex, fromHex_toHex] at hread
  exact Except.ok.inj hread

theorem taskSpecForPlanAsset_id {blake3 : Bytes → Digest}
    {asset : MinimalPlanAsset} {spec : TaskSpec}
    (h : taskSpecForPlanAsset blake3 asset = .ok spec) :
    spec.id = text "task-"
      ++ (blake3 (taskKeyPayload (unkeyedTaskSpec asset))).toHex := by
  obtain ⟨key, hkey, hspec⟩ := except_bind_ok.1 h
  cases hspec
  unfold taskKeyFor at hkey
  split at hkey
  · cases hkey
  · split at hkey
    · cases hkey
    · cases hkey
      rfl

theorem MinimalPlanAsset.FitsSize.spec {asset : MinimalPlanAsset}
    (h : asset.FitsSize) : (unkeyedTaskSpec asset).FitsSize where
  assetId := h.logicalAssetId
  targetPath := h.targetPath
  sourceAssetId := by
    intro source hsource
    cases hsource
    exact h.sourceAssetId

/-- The hash tells the task key payloads of these assets apart. -/
def KeepsTasksApart (blake3 : Bytes → Digest)
    (assets : List MinimalPlanAsset) : Prop :=
  ∀ a ∈ assets, ∀ b ∈ assets,
    blake3 (taskKeyPayload (unkeyedTaskSpec a))
        = blake3 (taskKeyPayload (unkeyedTaskSpec b)) →
      taskKeyPayload (unkeyedTaskSpec a) = taskKeyPayload (unkeyedTaskSpec b)

/-- No two assets of a plan share a task. -/
theorem tasks_distinct {blake3 : Bytes → Digest} {input : MinimalPlanInput}
    {plan : CanonicalMinimalPlan}
    (hbuild : CanonicalMinimalPlan.build input = .ok plan)
    (hfits : ∀ asset ∈ plan.assets, asset.FitsSize)
    (hapart : KeepsTasksApart blake3 plan.assets) :
    plan.assets.Pairwise fun a b => ∀ s s',
      taskSpecForPlanAsset blake3 a = .ok s →
      taskSpecForPlanAsset blake3 b = .ok s' → s.id ≠ s'.id := by
  obtain ⟨haccepted, rfl⟩ := build_ok.1 hbuild
  have hperm : (CanonicalMinimalPlan.ofInput input).assets.Perm input.assets :=
    perm_sortBy _ _
  have hnodup := (hperm.map (·.logicalAssetId)).nodup_iff.2
    haccepted.logicalIds
  have hpairs := List.pairwise_map.1 hnodup
  refine hpairs.imp_of_mem fun {a b} ha hb hne s s' hs hs' hid => hne ?_
  rw [taskSpecForPlanAsset_id hs, taskSpecForPlanAsset_id hs'] at hid
  have hdigest := toHex_inj (List.append_cancel_left hid)
  have hpayload := hapart a ha b hb hdigest
  exact (taskKeyPayload_inj (hfits a ha).spec (hfits b hb).spec
    hpayload).assetId

/-- No two attempts share a temp name. -/
theorem tempNames_distinct {blake3 : Bytes → Digest}
    {p t a p' t' a' : Bytes}
    (hapart : blake3 (tempNamePayload p t a)
        = blake3 (tempNamePayload p' t' a') →
      tempNamePayload p t a = tempNamePayload p' t' a')
    (h : tempNameFor blake3 p t a = tempNameFor blake3 p' t' a') :
    p = p' ∧ t = t' ∧ a = a' := by
  rw [tempNameFor_eq, tempNameFor_eq] at h
  have hhex := List.append_cancel_left (List.append_cancel_right h)
  exact tempNamePayload_inj (hapart (toHex_inj hhex))

end PhotoBridge
