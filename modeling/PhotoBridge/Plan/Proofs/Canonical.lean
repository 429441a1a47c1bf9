/-
Canonical plans are canonical: an accepted input's plan depends on its
assets as a set only, and the payload determines the plan. The first
half is that accepted ids are distinct, so there is one sorted
arrangement; the second peels the payload field by field
(Lib/Delimited.lean).
-/
import PhotoBridge.Lib.Delimited
import PhotoBridge.Plan.Canonical
import PhotoBridge.Proofs.Encoding

namespace PhotoBridge

open Delimited Sorting

variable {input a b : MinimalPlanInput} {plan : CanonicalMinimalPlan}

-- ============================================================== ordering

/-- The order of byte strings is one to sort by. -/
theorem bytesLess_comparator : Comparator bytesLess where
  asymm := by
    intro a b h
    have hlt : a < b := of_decide_eq_true h
    exact decide_eq_false (List.lt_asymm hlt)
  trans := by
    intro a b c hab hbc
    have h₁ : a ≤ b := List.not_lt.1 (of_decide_eq_false hab)
    have h₂ : b ≤ c := List.not_lt.1 (of_decide_eq_false hbc)
    exact decide_eq_false (List.not_lt.2 (List.le_trans h₁ h₂))

/-- Strings neither of which comes first are equal. -/
theorem bytesLess_antisymm {a b : Bytes} (hab : bytesLess a b = false)
    (hba : bytesLess b a = false) : a = b :=
  List.le_antisymm (List.not_lt.1 (of_decide_eq_false hba))
    (List.not_lt.1 (of_decide_eq_false hab))

/-- The order of byte strings tells them all apart. -/
theorem bytesLess_separates (xs : List Bytes) : Separates bytesLess xs :=
  fun _ _ _ _ => bytesLess_antisymm

@[simp] theorem bytesLess_self (a : Bytes) : bytesLess a a = false :=
  decide_eq_false (List.lt_irrefl a)

/-- The comparator goes by the logical id, then by the source id. -/
theorem MinimalPlanAsset.before_eq :
    MinimalPlanAsset.before
      = thenBy (fun a b => bytesLess a.logicalAssetId b.logicalAssetId)
        fun a b => bytesLess a.sourceAssetId b.sourceAssetId := by
  funext a b
  by_cases h : a.logicalAssetId = b.logicalAssetId
  · simp [MinimalPlanAsset.before, thenBy, h]
  · cases hless : bytesLess a.logicalAssetId b.logicalAssetId with
    | true => simp [MinimalPlanAsset.before, thenBy, h, hless]
    | false =>
        cases hgreater : bytesLess b.logicalAssetId a.logicalAssetId with
        | true => simp [MinimalPlanAsset.before, thenBy, h, hless, hgreater]
        | false => exact absurd (bytesLess_antisymm hless hgreater) h

/-- The order of assets is one to sort by. -/
theorem MinimalPlanAsset.before_comparator :
    Comparator MinimalPlanAsset.before := by
  rw [MinimalPlanAsset.before_eq]
  exact (bytesLess_comparator.comap _).thenBy (bytesLess_comparator.comap _)

/-- Assets with distinct ids are told apart. -/
theorem MinimalPlanAsset.before_separates {assets : List MinimalPlanAsset}
    (hnodup : (assets.map (·.logicalAssetId)).Nodup) :
    Separates MinimalPlanAsset.before assets := by
  rw [MinimalPlanAsset.before_eq]
  exact (Separates.of_keys (bytesLess_separates _) hnodup).thenBy _

-- ============================================================ acceptance

/-- What an accepted input has. -/
structure MinimalPlanInput.Accepted (input : MinimalPlanInput) : Prop where
  sourceManifestId : input.sourceManifestId.isEmpty = false
    ∧ hasNul input.sourceManifestId = false
  targetRoot : input.targetRoot.isEmpty = false
    ∧ hasNul input.targetRoot = false
  capabilities : input.capabilities.validate = .ok ()
  policy : input.policy.validate = .ok ()
  assets : ∀ asset ∈ input.assets, asset.logicalAssetId.isEmpty = false
    ∧ asset.sourceAssetId.isEmpty = false
    ∧ asset.sourcePath.bytes.isEmpty = false
    ∧ asset.targetPath.bytes.isEmpty = false
  logicalIds : (input.assets.map (·.logicalAssetId)).Nodup
  sourceIds : (input.assets.map (·.sourceAssetId)).Nodup

/-- What `checkPlanAssets` accepts. -/
private theorem checkPlanAssets_ok {assets : List MinimalPlanAsset} :
    checkPlanAssets assets = .ok ()
      ↔ ∀ asset ∈ assets, asset.logicalAssetId.isEmpty = false
        ∧ asset.sourceAssetId.isEmpty = false
        ∧ asset.sourcePath.bytes.isEmpty = false
        ∧ asset.targetPath.bytes.isEmpty = false := by
  induction assets with
  | nil => simp [checkPlanAssets]
  | cons asset rest ih =>
      unfold checkPlanAssets
      rw [List.forall_mem_cons, ← ih]
      split
      · next hids =>
        simp only [Bool.or_eq_true] at hids
        constructor
        · intro h
          cases h
        · intro h
          rcases hids with hid | hid
          · rw [h.1.1] at hid
            cases hid
          · rw [h.1.2.1] at hid
            cases hid
      · next hids =>
        simp only [Bool.or_eq_true, not_or, Bool.not_eq_true] at hids
        split
        · next hpaths =>
          simp only [Bool.or_eq_true] at hpaths
          constructor
          · intro h
            cases h
          · intro h
            rcases hpaths with hpath | hpath
            · rw [h.1.2.2.1] at hpath
              cases hpath
            · rw [h.1.2.2.2] at hpath
              cases hpath
        · next hpaths =>
          simp only [Bool.or_eq_true, not_or, Bool.not_eq_true] at hpaths
          exact ⟨fun h => ⟨⟨hids.1, hids.2, hpaths.1, hpaths.2⟩, h⟩,
            fun h => h.2⟩

/-- Two steps that succeed. -/
theorem except_bind_ok {ε α β : Type} {x : Except ε α} {k : α → Except ε β}
    {r : β} : (x >>= k) = .ok r ↔ ∃ v, x = .ok v ∧ k v = .ok r := by
  cases x with
  | error e => simp [bind, Except.bind]
  | ok v => simp [bind, Except.bind]

/-- `ValidatePlanInput` accepts exactly these inputs. -/
theorem validatePlanInput_ok :
    validatePlanInput input = .ok () ↔ input.Accepted := by
  unfold validatePlanInput
  constructor
  · intro h
    split at h
    · cases h
    · next hid =>
      split at h
      · cases h
      · next hnul =>
        split at h
        · cases h
        · next hroot =>
          split at h
          · cases h
          · next hrootNul =>
            obtain ⟨_, hcapabilities, h₁⟩ := except_bind_ok.1 h
            obtain ⟨_, hpolicy, h₂⟩ := except_bind_ok.1 h₁
            obtain ⟨_, hassets, h₃⟩ := except_bind_ok.1 h₂
            split at h₃
            · cases h₃
            · next hlogical =>
              split at h₃
              · cases h₃
              · next hsource =>
                rw [Bool.not_eq_true] at hid hnul hroot hrootNul
                rw [Bool.not_eq_true, adjacentFind_sortBy
                  bytesLess_comparator (bytesLess_separates _)]
                  at hlogical hsource
                exact ⟨⟨hid, hnul⟩, ⟨hroot, hrootNul⟩, hcapabilities,
                  hpolicy, checkPlanAssets_ok.1 hassets, hlogical, hsource⟩
  · intro h
    have hlogical := (adjacentFind_sortBy bytesLess_comparator
      (bytesLess_separates _)).2 h.logicalIds
    have hsource := (adjacentFind_sortBy bytesLess_comparator
      (bytesLess_separates _)).2 h.sourceIds
    have hassets := checkPlanAssets_ok.2 h.assets
    simp only [h.sourceManifestId.1, h.sourceManifestId.2, h.targetRoot.1,
      h.targetRoot.2, h.capabilities, h.policy, hassets, hlogical, hsource,
      Bool.false_eq_true, if_false]
    rfl

/-- What `Build` makes of an input it accepts. -/
theorem build_ok :
    CanonicalMinimalPlan.build input = .ok plan
      ↔ input.Accepted ∧ plan = .ofInput input := by
  unfold CanonicalMinimalPlan.build
  rw [except_bind_ok]
  constructor
  · intro h
    obtain ⟨_, hvalid, hplan⟩ := h
    exact ⟨validatePlanInput_ok.1 hvalid, (Except.ok.inj hplan).symm⟩
  · intro h
    exact ⟨(), validatePlanInput_ok.2 h.1, by rw [h.2]; rfl⟩

/-- The order of the assets does not matter to the plan. -/
theorem MinimalPlanInput.Accepted.ofInput_eq (ha : a.Accepted)
    (hb : b.Accepted) (h : a.Agrees b) :
    CanonicalMinimalPlan.ofInput a = CanonicalMinimalPlan.ofInput b := by
  have hperm : a.assets.Perm b.assets :=
    (List.perm_ext_iff_of_nodup (List.Nodup.of_map _ ha.logicalIds)
      (List.Nodup.of_map _ hb.logicalIds)).2 h.assets
  unfold CanonicalMinimalPlan.ofInput
  rw [h.sourceManifestId, h.sourceManifestDigest, h.targetRoot,
    h.capabilities, h.policy,
    sortBy_congr MinimalPlanAsset.before_comparator
      (MinimalPlanAsset.before_separates ha.logicalIds) hperm]

-- =============================================================== layout

/-- Eight bytes are a number of a fixed width. -/
theorem uint64Bytes_delimits (P : UInt64 → Prop) : Delimits P uint64Bytes := by
  refine .of_width 8 length_uint64Bytes fun a b h => ?_
  have ha := uint64At_uint64Bytes a []
  rw [h, uint64At_uint64Bytes b []] at ha
  exact ha.symm

/-- A `std::size_t` is determined by its bytes. -/
theorem sizeBytes_delimits :
    Delimits (· < 2 ^ 64) fun n : Nat => uint64Bytes n.toUInt64 := by
  refine ⟨fun {m n} hm hn {r s} h => ?_⟩
  obtain ⟨hmn, hrs⟩ :=
    (uint64Bytes_delimits fun _ => True).peel trivial trivial h
  refine ⟨?_, hrs⟩
  have htoNat := congrArg UInt64.toNat hmn
  simp only [Nat.toUInt64, UInt64.toNat_ofNat'] at htoNat
  rw [Nat.mod_eq_of_lt hm, Nat.mod_eq_of_lt hn] at htoNat
  exact htoNat

/-- A string with its length before it can be told from what follows. -/
theorem lengthPrefixed_delimits :
    Delimits (fun xs : Bytes => FitsSize xs) lengthPrefixed :=
  sizeBytes_delimits.lengthPrefixed

/-- One byte is a truth value. -/
private theorem boolByte_delimits : Delimits (fun _ => True) boolByte := by
  refine .of_width 1 (fun _ => rfl) fun a b h => ?_
  cases a <;> cases b <;> simp [boolByte] at h ⊢

/-- A digest has a fixed width. -/
private theorem digestBytes_delimits :
    Delimits (fun _ => True) fun digest : Digest => digest.bytes := by
  refine .of_width 32 (fun digest => digest.size) fun a b h => ?_
  cases a
  cases b
  cases h
  rfl

/-- Kinds have different numbers. -/
theorem CapabilityKind.number_inj {a b : CapabilityKind}
    (h : a.number = b.number) : a = b := by
  revert h
  cases a <;> cases b <;> decide

/-- Levels have different numbers. -/
theorem SupportLevel.number_inj {a b : SupportLevel}
    (h : a.number = b.number) : a = b := by
  revert h
  cases a <;> cases b <;> decide

/-- The number of a kind fits. -/
theorem CapabilityKind.number_lt (kind : CapabilityKind) :
    kind.number < 2 ^ 64 := by
  cases kind <;> decide

/-- The number of a level fits. -/
theorem SupportLevel.number_lt (level : SupportLevel) :
    level.number < 2 ^ 64 := by
  cases level <;> decide

/-- The optional mount id: a marker, and the id behind it. -/
theorem mountBytes_delimits :
    Delimits (fun _ => True) fun mount : Option UInt64 =>
      boolByte mount.isSome ++ match mount with
        | some mount => uint64Bytes mount
        | none => [] := by
  have hword : Delimits (fun _ => True) uint64Bytes :=
    uint64Bytes_delimits _
  have hmark : (0 : UInt8) ≠ 1 := by decide
  refine ⟨fun {a b} _ _ {r s} h => ?_⟩
  refine (hword.optional hmark).peel (fun _ _ => trivial)
    (fun _ _ => trivial) ?_
  cases a <;> cases b <;> exact h

/-- An identity can be told from what follows. -/
private theorem identityPayload_delimits :
    Delimits (fun _ => True) identityPayload := by
  refine ⟨fun {a b} _ _ {r s} h => ?_⟩
  have hword : Delimits (fun _ => True) uint64Bytes :=
    uint64Bytes_delimits _
  unfold identityPayload at h
  simp only [List.append_assoc] at h
  obtain ⟨hdevice, h₁⟩ := hword.peel trivial trivial h
  obtain ⟨hinode, h₂⟩ := hword.peel trivial trivial h₁
  obtain ⟨hsize, h₃⟩ := hword.peel trivial trivial h₂
  obtain ⟨hmtime, h₄⟩ := hword.peel trivial trivial h₃
  obtain ⟨hctime, h₅⟩ := hword.peel trivial trivial h₄
  rw [← List.append_assoc, ← List.append_assoc (boolByte b.mountId.isSome)]
    at h₅
  obtain ⟨hmount, h₆⟩ := mountBytes_delimits.peel trivial trivial h₅
  have hm : a.mtimeNs = b.mtimeNs := by
    simpa using congrArg UInt64.toInt64 hmtime
  have hc : a.ctimeNs = b.ctimeNs := by
    simpa using congrArg UInt64.toInt64 hctime
  refine ⟨?_, h₆⟩
  cases a
  cases b
  simp only at hdevice hinode hsize hm hc hmount
  rw [hdevice, hinode, hsize, hm, hc, hmount]

/-- A capability can be told from what follows. -/
private theorem capabilityPayload_delimits :
    Delimits (fun c : Capability =>
      FitsSize c.representation ∧ FitsSize c.reason) capabilityPayload := by
  refine ⟨fun {a b} ha hb {r s} h => ?_⟩
  unfold capabilityPayload at h
  simp only [List.append_assoc] at h
  obtain ⟨hkind, h₁⟩ := sizeBytes_delimits.peel a.kind.number_lt b.kind.number_lt h
  obtain ⟨hlevel, h₂⟩ := sizeBytes_delimits.peel a.level.number_lt
    b.level.number_lt h₁
  obtain ⟨hrepresentation, h₃⟩ := lengthPrefixed_delimits.peel ha.1 hb.1 h₂
  obtain ⟨hreason, h₄⟩ := lengthPrefixed_delimits.peel ha.2 hb.2 h₃
  refine ⟨?_, h₄⟩
  have hkind' := CapabilityKind.number_inj hkind
  have hlevel' := SupportLevel.number_inj hlevel
  cases a
  cases b
  simp only at hkind' hlevel' hrepresentation hreason
  rw [hkind', hlevel', hrepresentation, hreason]

/-- A parsed path is its bytes. -/
theorem RelativePath.eq_of_bytes {p q : RelativePath}
    (h : p.bytes = q.bytes) : p = q := by
  obtain ⟨bytes, components, parsed⟩ := p
  obtain ⟨bytes', components', parsed'⟩ := q
  simp only at h
  subst h
  rw [parsed] at parsed'
  cases parsed'
  rfl

/-- An asset can be told from what follows. -/
private theorem assetPayload_delimits :
    Delimits MinimalPlanAsset.FitsSize assetPayload := by
  refine ⟨fun {a b} ha hb {r s} h => ?_⟩
  unfold assetPayload at h
  simp only [List.append_assoc] at h
  obtain ⟨hlogical, h₁⟩ := lengthPrefixed_delimits.peel ha.logicalAssetId
    hb.logicalAssetId h
  obtain ⟨hsource, h₂⟩ := lengthPrefixed_delimits.peel ha.sourceAssetId
    hb.sourceAssetId h₁
  obtain ⟨hsourcePath, h₃⟩ := lengthPrefixed_delimits.peel ha.sourcePath
    hb.sourcePath h₂
  obtain ⟨htargetPath, h₄⟩ := lengthPrefixed_delimits.peel ha.targetPath
    hb.targetPath h₃
  obtain ⟨hidentity, h₅⟩ := identityPayload_delimits.peel trivial trivial h₄
  refine ⟨?_, h₅⟩
  have hsourcePath' := RelativePath.eq_of_bytes hsourcePath
  have htargetPath' := RelativePath.eq_of_bytes htargetPath
  cases a
  cases b
  simp only at hlogical hsource hsourcePath' htargetPath' hidentity
  rw [hlogical, hsource, hsourcePath', htargetPath', hidentity]

-- ============================================================== payloads

/-- The plan's containers have the sizes of the input's. -/
structure CanonicalMinimalPlan.FitsSize (plan : CanonicalMinimalPlan) :
    Prop where
  sourceManifestId : PhotoBridge.FitsSize plan.sourceManifestId
  targetRoot : PhotoBridge.FitsSize plan.targetRoot
  version : PhotoBridge.FitsSize plan.capabilities.version
  targetPrefix : PhotoBridge.FitsSize plan.policy.targetPrefix
  entries : PhotoBridge.FitsSize plan.capabilities.entries
    ∧ ∀ c ∈ plan.capabilities.entries,
      PhotoBridge.FitsSize c.representation ∧ PhotoBridge.FitsSize c.reason
  assets : PhotoBridge.FitsSize plan.assets ∧ ∀ a ∈ plan.assets, a.FitsSize

/-- The canonical form has the sizes of the input. -/
theorem MinimalPlanInput.FitsSize.ofInput (h : input.FitsSize) :
    (CanonicalMinimalPlan.ofInput input).FitsSize := by
  refine ⟨h.sourceManifestId, h.targetRoot, h.version, h.targetPrefix,
    ⟨h.entries, h.representations⟩, ?_, fun a hmem => ?_⟩
  · show (sortBy _ input.assets).length < _
    rw [length_sortBy]
    exact h.assets
  · exact h.asset a (mem_sortBy.1 hmem)

/-- The payload determines the plan. -/
theorem canonicalPlanPayload_injective {p q : CanonicalMinimalPlan}
    (hp : p.FitsSize) (hq : q.FitsSize)
    (h : p.canonicalPlanPayload = q.canonicalPlanPayload) : p = q := by
  have happ : p.canonicalPlanPayload ++ [] = q.canonicalPlanPayload ++ [] := by
    rw [h]
  have hword : Delimits (fun _ => True) uint64Bytes :=
    uint64Bytes_delimits _
  unfold CanonicalMinimalPlan.canonicalPlanPayload at happ
  simp only [List.append_assoc] at happ
  obtain ⟨-, h₁⟩ := lengthPrefixed_delimits.peel (by decide) (by decide) happ
  obtain ⟨-, h₂⟩ := hword.peel trivial trivial h₁
  obtain ⟨hmanifest, h₃⟩ := lengthPrefixed_delimits.peel hp.sourceManifestId
    hq.sourceManifestId h₂
  obtain ⟨hdigest, h₄⟩ := digestBytes_delimits.peel trivial trivial h₃
  obtain ⟨hroot, h₅⟩ := lengthPrefixed_delimits.peel hp.targetRoot hq.targetRoot h₄
  obtain ⟨hversion, h₆⟩ := lengthPrefixed_delimits.peel hp.version hq.version h₅
  obtain ⟨htarget, h₇⟩ := lengthPrefixed_delimits.peel hp.targetPrefix
    hq.targetPrefix h₆
  obtain ⟨hpreserve, h₈⟩ := boolByte_delimits.peel trivial trivial h₇
  obtain ⟨hcomponent, h₉⟩ := hword.peel trivial trivial h₈
  obtain ⟨hpath, h₁₀⟩ := hword.peel trivial trivial h₉
  rw [← List.append_assoc, ← List.append_assoc (uint64Bytes
    q.capabilities.entries.length.toUInt64)] at h₁₀
  obtain ⟨hentries, h₁₁⟩ := (capabilityPayload_delimits.counted
    sizeBytes_delimits).peel hp.entries hq.entries h₁₀
  rw [← List.append_assoc, ← List.append_assoc (uint64Bytes
    q.assets.length.toUInt64)] at h₁₁
  obtain ⟨hassets, -⟩ := (assetPayload_delimits.counted
    sizeBytes_delimits).peel hp.assets hq.assets h₁₁
  obtain ⟨manifest, digest, root, ⟨version, entries⟩,
    ⟨target, preserve, component, path⟩, assets⟩ := p
  obtain ⟨manifest', digest', root', ⟨version', entries'⟩,
    ⟨target', preserve', component', path'⟩, assets'⟩ := q
  simp only at hmanifest hdigest hroot hversion htarget
  simp only at hpreserve hcomponent hpath hentries hassets
  subst hmanifest hdigest hroot hversion htarget
  subst hpreserve hcomponent hpath hentries hassets
  rfl

end PhotoBridge
