/-
When `DiffFileStates` finds nothing.

The two maps hold, for each path, the first state with that path
(`mem_byPath`), and looking a path up in a map is looking it up in the
list it was made from (`find?_byPath`). So the diff is empty exactly when
the first states of each path agree, whatever states follow them.

A report that holds UTF-8 only can be written, whatever is in its diff.
-/
import PhotoBridge.Pipeline.Audit
import PhotoBridge.Plan.Proofs.Text

namespace PhotoBridge

open Sorting JsonText

/-- No two states have one path. -/
def DistinctPaths (states : List DiffFileState) : Prop :=
  ∀ s ∈ states, ∀ t ∈ states, s.path = t.path → s = t

variable {states : List DiffFileState} {s t : DiffFileState} {path : Bytes}

private theorem any_path : states.any (·.path == path) = true
    ↔ ∃ t ∈ states, t.path = path := by
  rw [List.any_eq_true]
  exact exists_congr fun t => and_congr_right fun _ => beq_iff_eq

private theorem path_of_find?
    (h : states.find? (·.path == path) = some s) : s.path = path := by
  have hs : (s.path == path) = true :=
    List.find?_some (p := fun u : DiffFileState => u.path == path) h
  exact beq_iff_eq.1 hs

private theorem find?_path (h : DistinctPaths states) :
    states.find? (·.path == path) = some s ↔ s ∈ states ∧ s.path = path := by
  constructor
  · intro hfind
    exact ⟨List.mem_of_find?_eq_some hfind, path_of_find? hfind⟩
  · rintro ⟨hmem, hpath⟩
    cases hfind : states.find? (·.path == path) with
    | none =>
        have hnone := List.find?_eq_none.1 hfind s hmem
        exact absurd (beq_iff_eq.2 hpath) hnone
    | some t =>
        have ht := path_of_find? hfind
        exact congrArg some (h t (List.mem_of_find?_eq_some hfind) s hmem
          (ht.trans hpath.symm))

-- =============================================================== emplace

theorem DistinctPaths.emplace (h : DistinctPaths states) :
    DistinctPaths (emplaceState states s) := by
  unfold emplaceState
  split
  · exact h
  · next hnew =>
    have hnew : ∀ t ∈ states, t.path ≠ s.path := fun t ht hpath =>
      hnew (any_path.2 ⟨t, ht, hpath⟩)
    intro t ht u hu hpath
    rcases List.mem_append.1 ht with ht | ht
    · rcases List.mem_append.1 hu with hu | hu
      · exact h t ht u hu hpath
      · rw [List.mem_singleton.1 hu] at hpath
        exact absurd hpath (hnew t ht)
    · rw [List.mem_singleton.1 ht] at hpath ⊢
      rcases List.mem_append.1 hu with hu | hu
      · exact absurd hpath.symm (hnew u hu)
      · exact (List.mem_singleton.1 hu).symm

/-- What `emplace` leaves out would not have been found anyway. -/
theorem find?_emplace : (emplaceState states s).find? (·.path == path)
    = (states ++ [s]).find? (·.path == path) := by
  unfold emplaceState
  split
  · next hany =>
    rw [List.find?_append]
    cases hfind : states.find? (·.path == path) with
    | some t => rfl
    | none =>
        obtain ⟨t, ht, hpath⟩ := any_path.1 hany
        have hne : ¬(s.path == path) = true := by
          rw [← hpath]
          exact List.find?_eq_none.1 hfind t ht
        rw [Option.none_or]
        simp only [List.find?_cons, hne, List.find?_nil]
  · rfl

/-- The map before its entries are put in order. -/
theorem emplaced_spec (states : List DiffFileState) :
    ∀ acc, DistinctPaths acc →
      DistinctPaths (states.foldl emplaceState acc)
        ∧ ∀ path, (states.foldl emplaceState acc).find? (·.path == path)
          = (acc ++ states).find? (·.path == path) := by
  induction states with
  | nil =>
      intro acc h
      exact ⟨h, fun path => by rw [List.append_nil]; rfl⟩
  | cons s rest ih =>
      intro acc h
      obtain ⟨hdistinct, hfind⟩ := ih (emplaceState acc s) h.emplace
      refine ⟨hdistinct, fun path => ?_⟩
      rw [List.foldl_cons, hfind, List.find?_append, find?_emplace,
        ← List.find?_append, List.append_assoc, List.singleton_append]

private theorem distinct_byPath (states : List DiffFileState) :
    DistinctPaths (byPath states) := by
  have h := (emplaced_spec states [] nofun).1
  intro s hs t ht
  exact h s (mem_sortBy.1 hs) t (mem_sortBy.1 ht)

private theorem find?_byPath : (byPath states).find? (·.path == path)
    = states.find? (·.path == path) := by
  obtain ⟨hdistinct, hfind⟩ := emplaced_spec states [] nofun
  have hsame : (byPath states).find? (·.path == path)
      = (states.foldl emplaceState []).find? (·.path == path) := by
    refine Option.ext fun s => ?_
    rw [find?_path (distinct_byPath states),
      find?_path hdistinct, byPath, mem_sortBy]
  rw [hsame, hfind, List.nil_append]

/-- The map holds the first state of each path. -/
private theorem mem_byPath : s ∈ byPath states
    ↔ states.find? (·.path == s.path) = some s := by
  rw [← find?_byPath, find?_path (distinct_byPath states)]
  exact ⟨fun h => ⟨h, rfl⟩, And.left⟩

-- ================================================================== diff

private theorem expectedEntry_eq_none {observed : List DiffFileState} :
    expectedEntry (byPath observed) s = none
      ↔ ∃ t, observed.find? (·.path == s.path) = some t
        ∧ s.size = t.size ∧ s.digest = t.digest := by
  unfold expectedEntry
  rw [find?_byPath]
  cases observed.find? (·.path == s.path) with
  | none => simp
  | some t => simp [or_iff_not_imp_left]

private theorem addedEntry_eq_none {expected : List DiffFileState} :
    addedEntry (byPath expected) t = none
      ↔ (expected.find? (·.path == t.path)).isSome := by
  rw [addedEntry, ← find?_byPath]
  have hany : (byPath expected).any (·.path == t.path)
      = ((byPath expected).find? (·.path == t.path)).isSome := by
    rw [Bool.eq_iff_iff, List.find?_isSome, List.any_eq_true]
  rw [hany]
  cases (byPath expected).find? (·.path == t.path) with
  | none => simp
  | some s => simp

/-- Nothing is found between two lists exactly when the first states of
each path agree. -/
theorem diffFileStates_eq_nil {expected observed : List DiffFileState} :
    diffFileStates expected observed = []
      ↔ (∀ s, expected.find? (·.path == s.path) = some s →
          ∃ t, observed.find? (·.path == s.path) = some t
            ∧ s.size = t.size ∧ s.digest = t.digest)
        ∧ ∀ t, observed.find? (·.path == t.path) = some t →
          (expected.find? (·.path == t.path)).isSome := by
  have hnil : ∀ xs : List DiffEntry, sortBy entryBefore xs = [] ↔ xs = [] := by
    intro xs
    rw [← List.length_eq_zero_iff, length_sortBy, List.length_eq_zero_iff]
  rw [diffFileStates, hnil, List.append_eq_nil_iff, List.filterMap_eq_nil_iff,
    List.filterMap_eq_nil_iff]
  simp only [mem_byPath, expectedEntry_eq_none, addedEntry_eq_none]

/-- The entries are about the files that were compared. -/
theorem path_of_diff {expected observed : List DiffFileState}
    {entry : DiffEntry} (h : entry ∈ diffFileStates expected observed) :
    ∃ s ∈ expected ++ observed, s.path = entry.path := by
  rw [diffFileStates, mem_sortBy, List.mem_append] at h
  rcases h with h | h
  · obtain ⟨s, hs, hentry⟩ := List.mem_filterMap.1 h
    have hmem := List.mem_of_find?_eq_some (mem_byPath.1 hs)
    refine ⟨s, List.mem_append_left _ hmem, ?_⟩
    unfold expectedEntry at hentry
    split at hentry
    · cases hentry
      rfl
    · split at hentry
      · cases hentry
        rfl
      · cases hentry
  · obtain ⟨s, hs, hentry⟩ := List.mem_filterMap.1 h
    have hmem := List.mem_of_find?_eq_some (mem_byPath.1 hs)
    refine ⟨s, List.mem_append_right _ hmem, ?_⟩
    unfold addedEntry at hentry
    split at hentry
    · cases hentry
    · cases hentry
      rfl

-- ================================================================ report

/-- Every string of the report is UTF-8. -/
structure AuditReport.Textual (report : AuditReport) : Prop where
  planId : IsUtf8 report.planId
  taskId : IsUtf8 report.taskId
  action : IsUtf8 report.action
  verification : IsUtf8 report.verification
  diff : ∀ entry ∈ report.diff, IsUtf8 entry.path
  error : IsUtf8 report.error

/-- Such a report can be written. -/
theorem renderAuditReport_ok {codec : Codec} (hcodec : codec.Lawful)
    {report : AuditReport} (h : report.Textual) :
    ∃ line, renderAuditReport codec report = .ok line := by
  have hentry : ∀ entry ∈ report.diff, (diffEntryJson entry).Textual := by
    intro entry hentry
    have hkeys : ([text "path", text "kind"] : List Bytes).Nodup := by
      decide +kernel
    refine .ofMembers hkeys ?_ ?_
    · intro m hm
      simp only [List.mem_cons, List.not_mem_nil, or_false] at hm
      rcases hm with rfl | rfl <;> exact isUtf8_text _
    · intro m hm
      simp only [List.mem_cons, List.not_mem_nil, or_false] at hm
      rcases hm with rfl | rfl
      · exact .string (h.diff entry hentry)
      · refine .string ?_
        cases entry.kind <;> exact isUtf8_text _
  have htextual : (auditReportJson report).Textual := by
    have hkeys : ([text "plan_id", text "task_id", text "action",
        text "verification", text "diff", text "error"] : List Bytes).Nodup := by
      decide +kernel
    refine .ofMembers hkeys ?_ ?_
    · intro m hm
      simp only [List.mem_cons, List.not_mem_nil, or_false] at hm
      rcases hm with rfl | rfl | rfl | rfl | rfl | rfl <;> exact isUtf8_text _
    · intro m hm
      simp only [List.mem_cons, List.not_mem_nil, or_false] at hm
      rcases hm with rfl | rfl | rfl | rfl | rfl | rfl
      · exact .string h.planId
      · exact .string h.taskId
      · exact .string h.action
      · exact .string h.verification
      · refine .array fun value hvalue => ?_
        obtain ⟨entry, hmem, rfl⟩ := List.mem_map.1 hvalue
        exact hentry entry hmem
      · exact .string h.error
  obtain ⟨line, hline, -⟩ := hcodec.round _ htextual
  exact ⟨line ++ [10], by rw [renderAuditReport, hline]⟩
end PhotoBridge
