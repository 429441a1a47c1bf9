/-
The entries a parse is made of: calls may fail during its walk, but a
walk that returns has found what one without failures finds
(`carried_walkDirectory`), so no two entries have one path
(`walkRoot_paths`).
-/
import PhotoBridge.Scan.Proofs.Walker
import PhotoBridge.Takeout.Parser

namespace PhotoBridge.Takeout

open Joining KeyTree Sorting

-- ========================================================= calls that fail

section Carried

variable {α β : Type} {x y : WalkM α}

/-- Where the first returns, so does the second, with the same entries;
it makes no calls. -/
def Carried (x y : WalkM α) : Prop :=
  ∀ state a state', x state = .ok (a, state') → ∀ calls,
    y { state with calls := calls } = .ok (a, { state' with calls := calls })

private theorem carried_pure (a : α) : Carried (pure a) (pure a) := by
  intro state b state' h calls
  cases h
  rfl

private theorem carried_throw (e : Status) :
    Carried (throw e : WalkM α) (throw e) := by
  intro state b state' h calls
  cases h

private theorem carried_ofExcept (r : Except Status α) :
    Carried (ofExcept r) (ofExcept r) := by
  cases r with
  | error e => exact carried_throw e
  | ok a => exact carried_pure a

private theorem carried_sinkAdd (entry : DirectoryEntry) :
    Carried (sinkAdd entry) (sinkAdd entry) := by
  intro state b state' h calls
  cases h
  rfl

private theorem carried_call (answers : Nat → String → Except Status Unit)
    (operation : String) :
    Carried (walkCall answers operation) (succeeds operation) := by
  intro state b state' h calls
  unfold walkCall at h
  split at h
  · cases h
  · cases h
    rfl

private theorem carried_bind {f g : α → WalkM β} (h : Carried x y)
    (hnext : ∀ a, Carried (f a) (g a)) : Carried (x >>= f) (y >>= g) := by
  intro state b state' hrun calls
  change (x state >>= fun p => f p.1 p.2) = _ at hrun
  show (y _ >>= fun p => g p.1 p.2) = _
  cases hx : x state with
  | error e =>
      rw [hx] at hrun
      cases hrun
  | ok p =>
      rw [hx] at hrun
      rw [h _ _ _ hx calls]
      exact hnext p.1 _ _ _ hrun calls

private theorem carried_foldlM {f g : β → α → WalkM β} {l : List α}
    (h : ∀ b, ∀ a ∈ l, Carried (f b a) (g b a)) (b : β) :
    Carried (l.foldlM f b) (l.foldlM g b) := by
  induction l generalizing b with
  | nil => exact carried_pure b
  | cons a rest ih =>
      rw [List.foldlM_cons, List.foldlM_cons]
      refine carried_bind (h b a List.mem_cons_self) fun b' => ?_
      exact ih (fun b a ha => h b a (List.mem_cons_of_mem _ ha)) b'

end Carried

-- ================================================================ the walk

section Walking

variable (strerror : Nat → Bytes)
  (answers : Nat → String → Except Status Unit)

private theorem carried_readNames (names : List Bytes) :
    Carried (readNames (walkCall answers) names)
      (readNames succeeds names) := by
  induction names with
  | nil => exact carried_bind (carried_call _ _) fun _ => carried_pure _
  | cons name rest ih =>
      rw [readNames, readNames]
      exact carried_bind (carried_call _ _) fun _ =>
        carried_bind ih fun _ => carried_pure _

theorem carried_walkDirectory (entries : Entries) (parents : List Bytes) :
    Carried (walkDirectory strerror (walkCall answers) sinkAdd entries parents)
      (walkDirectory strerror succeeds sinkAdd entries parents) := by
  induction entries using entries_induction generalizing parents with
  | step entries ih =>
    rw [walkDirectory, walkDirectory]
    refine carried_bind (carried_call _ _) fun _ =>
      carried_bind (carried_call _ _) fun _ =>
      carried_bind (carried_readNames _ _) fun names =>
      carried_foldlM (fun parents name _ => ?_) parents
    refine carried_bind (carried_call _ _) fun _ => ?_
    split
    · exact carried_throw _
    · next entry hentry =>
      refine carried_bind (carried_ofExcept _) fun identity =>
        carried_bind (carried_ofExcept _) fun path =>
        carried_bind (carried_sinkAdd _) fun _ => ?_
      split
      · exact carried_pure _
      · refine carried_bind (carried_call _ _) fun _ =>
          carried_bind ?_ fun _ => carried_pure _
        exact ih entry (List.mem_of_find?_eq_some hentry) _

/-- What a walk without failures adds. -/
theorem forM_visit_components {found : List (List Bytes × Node)}
    (hnames : ∀ file ∈ found, file.1 ≠ [] ∧ ∀ c ∈ file.1, IsFileName c)
    {state state' : WalkState}
    (h : forM found (visit sinkAdd) state = .ok ((), state')) :
    ∃ emitted, state'.entries = state.entries ++ emitted
      ∧ emitted.map DirectoryEntry.components = found.map Prod.fst := by
  induction found generalizing state with
  | nil =>
      cases h
      exact ⟨[], (List.append_nil _).symm, rfl⟩
  | cons file rest ih =>
      obtain ⟨hne, hfile⟩ := hnames file List.mem_cons_self
      obtain ⟨path, hpath, -, hcomponents⟩ := parse_pathOf hne hfile
      rw [List.forM_cons, visit, hpath] at h
      cases hidentity : fileIdentityFromStat file.2.value with
      | error e =>
          rw [hidentity] at h
          cases h
      | ok identity =>
          rw [hidentity] at h
          obtain ⟨emitted, hentries, hrest⟩ :=
            ih (fun other hother => hnames other (List.mem_cons_of_mem _ hother))
              h
          refine ⟨⟨path, identity, file.2.value.kind⟩ :: emitted, ?_, ?_⟩
          · rw [hentries]
            exact List.append_assoc _ _ _
          · rw [List.map_cons, List.map_cons, hrest]
            exact congrArg (· :: _) hcomponents

/-- No two entries of a walk that returns have one path. -/
theorem walkRoot_paths {tree : DirectoryTree} {state : WalkState}
    (h : walkRoot strerror answers tree.entries {} = .ok ((), state)) :
    (state.entries.map (·.relativePath)).Nodup := by
  have hwalk := carried_bind (carried_call answers "open directory root")
    fun _ => carried_bind (carried_walkDirectory strerror answers tree.entries [])
      fun _ => carried_pure ()
  have hrun : walk strerror succeeds sinkAdd tree.entries {}
      = .ok ((), { state with calls := 0 }) := hwalk _ _ _ h 0
  rw [walk_eq] at hrun
  obtain ⟨emitted, hentries, hcomponents⟩ :=
    forM_visit_components (fun file hfile =>
      Within.names (mem_entriesBelow.1 hfile) tree.directories) hrun
  obtain rfl : state.entries = emitted := hentries
  have hnodup := nodup_entriesBelow tree
  rw [← hcomponents] at hnodup
  refine List.Nodup.of_map RelativePath.components ?_
  rw [List.map_map]
  exact hnodup

end Walking

end PhotoBridge.Takeout
