/-
Tables of values grouped by a key, filled the way a hash map from keys to
lists is: values are appended to the list of their key.

What such a table holds is a function from keys to lists (`Tabulates`): it
has an entry for each key with values, and the order of the entries is the
only freedom left. A table of the values of a list by a key is a partition
of the list, so going through the entries, and through the values of each,
is going through the list in some order (`Tabulates.map_perm`).
`perm_flatMap_filter` is about keys that select what they group.
-/
import Mathlib.Data.List.Nodup
import Mathlib.Data.List.Perm.Basic

namespace Grouping

variable {κ α β : Type} {groups groups' : List (κ × List α)}
  {values : κ → List α}

-- ================================================================ tables

/-- The table has these values for each key. -/
structure Tabulates (groups : List (κ × List α)) (values : κ → List α) :
    Prop where
  nodup : (groups.map (·.1)).Nodup
  entry : ∀ group ∈ groups, group.2 = values group.1
  keys : ∀ key, key ∈ groups.map (·.1) ↔ values key ≠ []

theorem Tabulates.nil : Tabulates [] fun _ : κ => ([] : List α) where
  nodup := .nil
  entry := nofun
  keys := by simp

/-- The order of the entries is free. -/
theorem Tabulates.perm (h : Tabulates groups values)
    (hperm : groups'.Perm groups) : Tabulates groups' values where
  nodup := (hperm.map _).nodup_iff.2 h.nodup
  entry := fun group hmem => h.entry group (hperm.subset hmem)
  keys := fun key => ((hperm.map _).mem_iff).trans (h.keys key)

theorem Tabulates.ne_nil (h : Tabulates groups values) {group : κ × List α}
    (hmem : group ∈ groups) : group.2 ≠ [] := by
  rw [h.entry group hmem]
  exact (h.keys group.1).1 (List.mem_map_of_mem hmem)

/-- Looking a key up: nothing, or all its values. -/
theorem Tabulates.find? [BEq κ] [LawfulBEq κ] (h : Tabulates groups values)
    (key : κ) :
    (groups.find? (·.1 == key)).map (·.2)
      = if (values key).isEmpty then none else some (values key) := by
  cases hfind : groups.find? (·.1 == key) with
  | none =>
      have hempty : values key = [] := by
        by_contra hne
        obtain ⟨group, hmem, hkey⟩ := List.mem_map.1 ((h.keys key).2 hne)
        exact List.find?_eq_none.1 hfind group hmem (beq_iff_eq.2 hkey)
      rw [hempty]
      rfl
  | some group =>
      have hmem := List.mem_of_find?_eq_some hfind
      have hkey : group.1 = key :=
        beq_iff_eq.1 (List.find?_some (p := fun g : κ × List α => g.1 == key) hfind)
      have hentry := h.entry group hmem
      rw [hkey] at hentry
      have hne := h.ne_nil hmem
      rw [hentry] at hne
      rw [Option.map_some, hentry, if_neg (by simpa using hne)]

-- =============================================================== filling

/-- Append to the values of a key. -/
def append [DecidableEq κ] (groups : List (κ × List α)) (key : κ)
    (added : List α) : List (κ × List α) :=
  if groups.any (·.1 == key) then
    groups.map fun group =>
      if group.1 = key then (group.1, group.2 ++ added) else group
  else groups ++ [(key, added)]

theorem Tabulates.append [DecidableEq κ] (h : Tabulates groups values)
    {key : κ} {added : List α} (hadded : added ≠ []) :
    Tabulates (Grouping.append groups key added)
      fun k => if k = key then values k ++ added else values k := by
  unfold Grouping.append
  by_cases hany : groups.any (·.1 == key) = true
  · rw [if_pos hany]
    have hkeys : (groups.map fun group =>
        if group.1 = key then (group.1, group.2 ++ added) else group).map (·.1)
          = groups.map (·.1) := by
      rw [List.map_map]
      refine List.map_congr_left fun group _ => ?_
      simp only [Function.comp_apply]
      split <;> rfl
    refine ⟨hkeys ▸ h.nodup, fun group hmem => ?_, fun k => ?_⟩
    · obtain ⟨old, hold, rfl⟩ := List.mem_map.1 hmem
      by_cases hkey : old.1 = key
      · simp only [if_pos hkey, h.entry old hold]
      · simp only [if_neg hkey, h.entry old hold]
    · rw [hkeys, h.keys]
      by_cases hkey : k = key
      · subst hkey
        obtain ⟨group, hmem, hgroup⟩ := List.any_eq_true.1 hany
        have hin := (h.keys k).1
          (List.mem_map.2 ⟨group, hmem, beq_iff_eq.1 hgroup⟩)
        simp [hin]
      · rw [if_neg hkey]
  · rw [if_neg hany]
    have hnew : key ∉ groups.map (·.1) := fun hin => hany (by
      obtain ⟨group, hmem, hkey⟩ := List.mem_map.1 hin
      exact List.any_eq_true.2 ⟨group, hmem, beq_iff_eq.2 hkey⟩)
    have hempty : values key = [] := by
      by_contra hne
      exact hnew ((h.keys key).2 hne)
    refine ⟨?_, fun group hmem => ?_, fun k => ?_⟩
    · rw [List.map_append, List.nodup_append]
      refine ⟨h.nodup, List.nodup_singleton _, ?_⟩
      rintro k hk k' hk' rfl
      obtain rfl : k = key := List.mem_singleton.1 hk'
      exact hnew hk
    · rcases List.mem_append.1 hmem with hmem | hmem
      · have hne : group.1 ≠ key := fun heq =>
          hnew (heq ▸ List.mem_map_of_mem hmem)
        rw [if_neg hne, h.entry group hmem]
      · rw [List.mem_singleton.1 hmem, if_pos rfl, hempty]
        rfl
    · rw [List.map_append, List.mem_append, h.keys]
      by_cases hkey : k = key
      · subst hkey
        simp [hadded]
      · simp [hkey]

/-- A table filled from a list of keys and what is appended there. -/
theorem Tabulates.foldl [DecidableEq κ] {added : List (κ × List α)}
    (h : Tabulates groups values) (hadded : ∀ entry ∈ added, entry.2 ≠ []) :
    Tabulates
      (added.foldl (fun groups entry => Grouping.append groups entry.1 entry.2)
        groups)
      fun key => values key
        ++ (added.filter (·.1 = key)).flatMap (·.2) := by
  induction added generalizing groups values with
  | nil => simpa using h
  | cons entry rest ih =>
      have hentry : Tabulates (Grouping.append groups entry.1 entry.2) _ :=
        h.append (hadded entry List.mem_cons_self)
      have hnext := ih hentry fun other hother =>
        hadded other (List.mem_cons_of_mem _ hother)
      rw [List.foldl_cons]
      convert hnext using 2 with key
      by_cases hkey : key = entry.1
      · rw [if_pos hkey, List.filter_cons_of_pos (by simp [hkey]),
          List.flatMap_cons, List.append_assoc]
      · rw [if_neg hkey, List.filter_cons_of_neg
          (by simpa using fun heq : entry.1 = key => hkey heq.symm)]

-- ============================================================ partitions

section Partition

variable [DecidableEq κ] {key : α → κ} {items : List α}

/-- The values of a list by their keys. -/
abbrev byKey (key : α → κ) (items : List α) (k : κ) : List α :=
  items.filter (key · = k)

theorem Tabulates.flatMap_perm (h : Tabulates groups (byKey key items)) :
    (groups.flatMap (·.2)).Perm items := by
  induction groups generalizing items with
  | nil =>
      have hnone : items = [] := by
        refine List.eq_nil_iff_forall_not_mem.2 fun a ha => ?_
        have hin := (h.keys (key a)).2
          (List.ne_nil_of_mem (List.mem_filter.2 ⟨ha, by simp⟩))
        cases hin
      rw [hnone]
      rfl
  | cons group rest ih =>
      have hgroup := h.entry group List.mem_cons_self
      obtain ⟨hnew, hnodup⟩ := List.nodup_cons.1 h.nodup
      -- the other entries hold the values of the other keys
      have hrest : Tabulates rest
          (byKey key (items.filter (key · ≠ group.1))) := by
        have hvalues : ∀ k, k ≠ group.1 →
            byKey key (items.filter (key · ≠ group.1)) k = byKey key items k := by
          intro k hk
          rw [byKey, List.filter_filter]
          refine List.filter_congr fun a _ => ?_
          by_cases hkey : key a = k
          · simp [hkey, hk]
          · simp [hkey]
        refine ⟨hnodup, fun other hmem => ?_, fun k => ?_⟩
        · have hother : other.1 ∈ rest.map (·.1) := List.mem_map_of_mem hmem
          have hne : other.1 ≠ group.1 := fun heq => by
            rw [heq] at hother
            exact hnew hother
          rw [hvalues other.1 hne]
          exact h.entry other (List.mem_cons_of_mem _ hmem)
        · by_cases hk : k = group.1
          · subst hk
            refine iff_of_false hnew fun hne => hne ?_
            simp [byKey, List.filter_filter]
          · rw [hvalues k hk, ← h.keys k, List.map_cons, List.mem_cons,
              or_iff_right hk]
      rw [List.flatMap_cons, hgroup]
      refine ((ih hrest).append_left _).trans ?_
      have hsplit := List.filter_append_perm (fun a => decide (key a = group.1))
        items
      simpa using hsplit

/-- Through the entries, and through the values of each: through all. -/
theorem Tabulates.map_perm (h : Tabulates groups (byKey key items))
    (f : κ → List α → α → β) :
    (groups.flatMap fun group => group.2.map (f group.1 group.2)).Perm
      (items.map fun a => f (key a) (byKey key items (key a)) a) := by
  have hgroups : (groups.flatMap fun group => group.2.map (f group.1 group.2))
      = (groups.flatMap (·.2)).map
        fun a => f (key a) (byKey key items (key a)) a := by
    rw [List.map_flatMap]
    refine List.flatMap_congr fun group hmem => ?_
    refine List.map_congr_left fun a ha => ?_
    have hentry := h.entry group hmem
    have hkey : key a = group.1 := by
      rw [hentry] at ha
      simpa using (List.mem_filter.1 ha).2
    rw [hkey, ← hentry]
  rw [hgroups]
  exact h.flatMap_perm.map _

end Partition

-- ============================================================= selections

/-- Each value is selected by one of the keys: what the keys select, one
after the other, is the list in some order. -/
theorem perm_flatMap_filter {keys : List κ} {selects : κ → α → Bool}
    {items : List α} (h : ∀ a ∈ items, keys.countP (selects · a) = 1) :
    (keys.flatMap fun key => items.filter (selects key)).Perm items := by
  induction items with
  | nil => simp
  | cons a rest ih =>
      have hone : (keys.flatMap fun key => if selects key a then [a] else [])
          = [a] := by
        have hreplicate : ∀ keys : List κ,
            (keys.flatMap fun key => if selects key a then [a] else [])
              = List.replicate (keys.countP (selects · a)) a := by
          intro keys
          induction keys with
          | nil => rfl
          | cons key keys ih =>
              rw [List.flatMap_cons, ih, List.countP_cons]
              cases selects key a <;> simp [List.replicate_succ]
        rw [hreplicate, h a List.mem_cons_self]
        rfl
      have hsplit : (fun key => (a :: rest).filter (selects key))
          = fun key => (if selects key a then [a] else [])
            ++ rest.filter (selects key) := by
        funext key
        rw [List.filter_cons]
        split <;> rfl
      rw [hsplit]
      refine (List.flatMap_append_perm keys _ _).symm.trans ?_
      rw [hone]
      exact (ih fun b hb => h b (List.mem_cons_of_mem _ hb)).cons a

end Grouping
