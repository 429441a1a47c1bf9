/-
Ids made of what they stand for (`logical_asset.cpp`,
`physical_asset.cpp`). The text a logical id is hashed from lists the
member ids in one order, each in quotes and escaped; it can be read back
item by item, so it is the same text exactly for the same members. A
physical id spells the path in hex and has nothing in it to escape.
-/
import PhotoBridge.Plan.Mapping
import PhotoBridge.Plan.Proofs.Canonical
import PhotoBridge.Plan.Proofs.Text
import PhotoBridge.Scan.Proofs.Builder

namespace PhotoBridge

open Delimited JsonText Sorting

-- ============================================================ the list

/-- A quoted string says where it ends. -/
theorem printString_delimits : Delimits (fun _ : Bytes => True) printString := by
  refine ⟨fun {a b} _ _ {r s} h => ?_⟩
  have hbody : a.flatMap escapeByte ++ 34 :: r
      = b.flatMap escapeByte ++ 34 :: s := by
    simpa [printString] using h
  have hread := parseString_print a r
  rw [hbody, parseString_print] at hread
  cases hread
  exact ⟨rfl, rfl⟩

/-- What follows an item of `CanonicalMembersJson`. -/
def membersTail : List Bytes → Bytes
  | [] => [93]
  | member :: rest => 44 :: (printString member ++ membersTail rest)

private theorem canonicalMembersJson_cons (member : Bytes) (rest : List Bytes) :
    canonicalMembersJson (member :: rest)
      = 91 :: (printString member ++ membersTail rest) := by
  unfold canonicalMembersJson
  congr 1
  induction rest generalizing member with
  | nil => simp [membersTail]
  | cons second tail ih =>
      rw [membersTail, ← ih second]
      simp

private theorem membersTail_inj {xs ys : List Bytes}
    (h : membersTail xs = membersTail ys) : xs = ys := by
  induction xs generalizing ys with
  | nil =>
      cases ys with
      | nil => rfl
      | cons y ys => exact absurd (List.cons.inj h).1 (by decide)
  | cons x xs ih =>
      cases ys with
      | nil => exact absurd (List.cons.inj h).1 (by decide)
      | cons y ys =>
          obtain ⟨hitem, htail⟩ :=
            printString_delimits.peel trivial trivial (List.cons.inj h).2
          rw [hitem, ih htail]

/-- The list in brackets determines its items. -/
theorem canonicalMembersJson_inj {xs ys : List Bytes}
    (h : canonicalMembersJson xs = canonicalMembersJson ys) : xs = ys := by
  have hempty : ∀ (member : Bytes) (rest : List Bytes),
      canonicalMembersJson [] ≠ canonicalMembersJson (member :: rest) := by
    intro member rest heq
    rw [canonicalMembersJson_cons] at heq
    have hfirst := (List.cons.inj (List.cons.inj heq).2).1
    exact absurd hfirst (by decide)
  cases xs with
  | nil =>
      cases ys with
      | nil => rfl
      | cons y ys => exact absurd h (hempty y ys)
  | cons x xs =>
      cases ys with
      | nil => exact absurd h.symm (hempty x xs)
      | cons y ys =>
          rw [canonicalMembersJson_cons, canonicalMembersJson_cons] at h
          obtain ⟨hitem, htail⟩ :=
            printString_delimits.peel trivial trivial (List.cons.inj h).2
          rw [hitem, membersTail_inj htail]

-- ========================================================= logical ids

/-- The text `LogicalAssetIdForMembers` hashes behind its domain. -/
def hashedMembers (members : List Bytes) : Bytes :=
  canonicalMembersJson (sortBy bytesLess members)

/-- The text is the same for the same members, in whatever order. -/
theorem hashedMembers_eq_iff (xs ys : List Bytes) :
    hashedMembers xs = hashedMembers ys ↔ xs.Perm ys := by
  constructor
  · intro h
    have hsorted := canonicalMembersJson_inj h
    have hperm := perm_sortBy bytesLess xs
    rw [hsorted] at hperm
    exact hperm.symm.trans (perm_sortBy bytesLess ys)
  · intro h
    unfold hashedMembers
    rw [sortBy_congr bytesLess_comparator (bytesLess_separates xs) h]

/-- An id of members that are an asset's: some, none empty, none twice. -/
theorem logicalAssetIdForMembers_eq (blake3 : Bytes → Digest)
    {members : List Bytes} (hne : members ≠ []) (hnone : [] ∉ members)
    (hnodup : members.Nodup) :
    logicalAssetIdForMembers blake3 members
      = .ok (text "logical-"
        ++ (blake3 (text "PB_LOGICAL_ASSET_V1"
          ++ hashedMembers members)).toHex) := by
  have hany : members.any List.isEmpty = false := by
    rw [List.any_eq_false]
    intro member hmember hempty
    rw [List.isEmpty_iff.1 hempty] at hmember
    exact hnone hmember
  have hadjacent := (adjacentFind_sortBy bytesLess_comparator
    (bytesLess_separates members)).2 hnodup
  unfold logicalAssetIdForMembers
  rw [if_neg (by rw [List.isEmpty_iff]; exact hne), hany, hadjacent]
  rfl

-- ======================================================== physical ids

private theorem hexDigit_table : ∀ k, k < 16 →
    escapeByte (hexDigit (UInt8.ofNat k)) = [hexDigit (UInt8.ofNat k)] := by
  decide

private theorem escapeByte_hexDigit {b : UInt8} (h : b.toNat < 16) :
    escapeByte (hexDigit b) = [hexDigit b] := by
  have htable := hexDigit_table b.toNat h
  rw [UInt8.ofNat_toNat] at htable
  exact htable

/-- Escaping leaves a text alone that has nothing to escape. -/
theorem printString_plain {value : Bytes}
    (h : ∀ b ∈ value, escapeByte b = [b]) :
    printString value = 34 :: (value ++ [34]) := by
  have hbody : value.flatMap escapeByte = value := by
    induction value with
    | nil => rfl
    | cons b rest ih =>
        rw [List.flatMap_cons, h b List.mem_cons_self,
          ih fun c hc => h c (List.mem_cons_of_mem _ hc)]
        rfl
  rw [printString, hbody]

private theorem printString_physicalAssetIdFor (asset : PhysicalAsset) :
    printString (physicalAssetIdFor asset)
      = 34 :: (physicalAssetIdFor asset ++ [34]) := by
  apply printString_plain
  have hdash : ∀ b ∈ text "path-", escapeByte b = [b] := by decide +kernel
  intro b hb
  rcases List.mem_append.1 hb with hb | hb
  · exact hdash b hb
  · obtain ⟨byte, -, hdigit⟩ := List.mem_flatMap.1 hb
    obtain ⟨hhigh, hlow⟩ := halves_lt byte
    rcases List.mem_cons.1 hdigit with hdigit | hdigit
    · rw [hdigit]
      exact escapeByte_hexDigit hhigh
    · rw [List.mem_singleton.1 hdigit]
      exact escapeByte_hexDigit hlow

-- ========================================================== both kinds

/-- Logical ids are hashed from a text that says which members they are
of, and nothing else; physical ids say which path they are of, and go
into that text as they are. -/
theorem ids_identify (blake3 : Bytes → Digest) :
    (∀ members, members ≠ [] → [] ∉ members → members.Nodup →
      logicalAssetIdForMembers blake3 members
        = .ok (text "logical-"
          ++ (blake3 (text "PB_LOGICAL_ASSET_V1"
            ++ hashedMembers members)).toHex))
    ∧ (∀ xs ys, hashedMembers xs = hashedMembers ys ↔ xs.Perm ys)
    ∧ (∀ a b, physicalAssetIdFor a = physicalAssetIdFor b
        ↔ a.relativePath = b.relativePath)
    ∧ ∀ asset, printString (physicalAssetIdFor asset)
        = 34 :: (physicalAssetIdFor asset ++ [34]) := by
  refine ⟨fun members hne hnone hnodup =>
    logicalAssetIdForMembers_eq blake3 hne hnone hnodup,
    hashedMembers_eq_iff, fun a b => ⟨fun h => ?_, fun h => ?_⟩,
    printString_physicalAssetIdFor⟩
  · exact RelativePath.eq_of_bytes (physicalAssetIdFor_inj h)
  · unfold physicalAssetIdFor
    rw [h]

end PhotoBridge
