/-
Logical assets are the connected components of the graph of confirmed
compositions (`buildLogicalAssets_components`).

The vertices are sorted, so a vertex is found at its index, and the edges
join indices. The forest that comes out represents the classes the edges
generate (Lib/Forest.lean); its roots depend on the edges as a set, and
with them the member lists do.
-/
import PhotoBridge.Lib.Joining
import PhotoBridge.Plan.Proofs.Canonical
import PhotoBridge.Takeout.Association

namespace PhotoBridge.Takeout

open DisjointSets DisjointSets.Forest Sorting Joining Relation

-- ================================================================= graphs

/-- A call of the graph's. -/
inductive GraphCall
  | vertex (id : Bytes)
  | edge (edge : AssociationEdge)

namespace AssociationGraph

def call (graph : AssociationGraph) :
    GraphCall → Except Status AssociationGraph
  | .vertex id => graph.addVertex id
  | .edge edge => graph.addEdge edge

/-- The graph after a call, which leaves it as it is if it fails. -/
def after (graph : AssociationGraph) (c : GraphCall) : AssociationGraph :=
  match graph.call c with
  | .ok next => next
  | .error _ => graph

/-- The graph after some calls. -/
def built (calls : List GraphCall) : AssociationGraph :=
  calls.foldl after {}

/-- An accepted edge that makes one logical asset of these vertices. -/
def Composed (graph : AssociationGraph) (a b : Bytes) : Prop :=
  ∃ edge ∈ graph.edges, edge.composes = true ∧ edge.lhs = a ∧ edge.rhs = b

/-- Vertices are connected by such edges. -/
def Connected (graph : AssociationGraph) : Bytes → Bytes → Prop :=
  EqvGen graph.Composed

/-- The logical assets are the connected components. -/
structure AreComponents (blake3 : Bytes → Digest) (graph : AssociationGraph)
    (assets : List LogicalAsset) : Prop where
  /-- Each vertex is in exactly one. -/
  each : ∀ v ∈ graph.vertices, (assets.filter (v ∈ ·.members)).length = 1
  vertices : ∀ asset ∈ assets, asset.members ≠ []
    ∧ ∀ v ∈ asset.members, v ∈ graph.vertices
  /-- Vertices share one if and only if they are connected. -/
  connected : ∀ asset ∈ assets, ∀ a ∈ asset.members, ∀ b ∈ graph.vertices,
    b ∈ asset.members ↔ graph.Connected a b
  /-- Members are sorted, without repetitions. -/
  sorted : ∀ asset ∈ assets,
    asset.members.Pairwise fun a b => bytesLess a b = true
  id : ∀ asset ∈ assets,
    logicalAssetIdForMembers blake3 asset.members = .ok asset.id
  ordered : assets.Pairwise fun a b => bytesLess b.id a.id = false

/-- What `AddVertex` and `AddEdge` see to. -/
structure Valid (graph : AssociationGraph) : Prop where
  nodup : graph.vertices.Nodup
  nonempty : ∀ v ∈ graph.vertices, v ≠ []
  ends : ∀ edge ∈ graph.edges,
    edge.lhs ∈ graph.vertices ∧ edge.rhs ∈ graph.vertices

theorem Valid.addVertex {graph next : AssociationGraph} {id : Bytes}
    (h : graph.Valid) (hnext : graph.addVertex id = .ok next) : next.Valid := by
  unfold AssociationGraph.addVertex at hnext
  split at hnext
  · cases hnext
  split at hnext
  · cases hnext
  · next hempty hold =>
    cases hnext
    rw [List.contains_iff_mem] at hold
    refine ⟨?_, fun v hv => ?_, fun edge hedge => ?_⟩
    · rw [List.nodup_append]
      refine ⟨h.nodup, List.nodup_singleton _, ?_⟩
      rintro v hv w hw rfl
      exact hold (List.mem_singleton.1 hw ▸ hv)
    · rcases List.mem_append.1 hv with hv | hv
      · exact h.nonempty v hv
      · rw [List.mem_singleton.1 hv]
        simpa using hempty
    · exact ⟨List.mem_append_left _ (h.ends edge hedge).1,
        List.mem_append_left _ (h.ends edge hedge).2⟩

theorem Valid.addEdge {graph next : AssociationGraph} {edge : AssociationEdge}
    (h : graph.Valid) (hnext : graph.addEdge edge = .ok next) : next.Valid := by
  unfold AssociationGraph.addEdge at hnext
  split at hnext
  · cases hnext
  split at hnext
  · cases hnext
  · next hknown =>
    split at hnext
    · cases hnext
    split at hnext
    · cases hnext
    cases hnext
    refine ⟨h.nodup, h.nonempty, fun other hother => ?_⟩
    rcases List.mem_append.1 hother with hother | hother
    · exact h.ends other hother
    · rw [List.mem_singleton.1 hother]
      simpa using hknown

theorem Valid.after {graph : AssociationGraph} (h : graph.Valid)
    (c : GraphCall) : (graph.after c).Valid := by
  unfold AssociationGraph.after
  split
  · next next hnext =>
    cases c with
    | vertex id => exact h.addVertex hnext
    | edge edge => exact h.addEdge hnext
  · exact h

private theorem valid_built (calls : List GraphCall) : (built calls).Valid := by
  have hfold : ∀ graph : AssociationGraph, graph.Valid →
      (calls.foldl AssociationGraph.after graph).Valid := by
    induction calls with
    | nil => exact fun _ h => h
    | cons c rest ih => exact fun graph h => ih _ (h.after c)
  exact hfold {} ⟨.nil, nofun, nofun⟩

end AssociationGraph

-- =============================================================== vertices

section Vertices

variable {vertices : List Bytes}

/-- Vertices in order, without repetitions. -/
abbrev Increasing (vertices : List Bytes) : Prop :=
  vertices.Pairwise fun a b => bytesLess a b = true

private theorem increasing_sortBy (h : vertices.Nodup) :
    Increasing (sortBy bytesLess vertices) := by
  have hnodup : (sortBy bytesLess vertices).Nodup :=
    (perm_sortBy bytesLess vertices).nodup_iff.2 h
  refine ((pairwise_sortBy bytesLess_comparator vertices).and hnodup).imp ?_
  rintro a b ⟨hnot, hne⟩
  by_contra hless
  rw [Bool.not_eq_true] at hless
  exact hne (bytesLess_antisymm hless hnot)

theorem Increasing.nodup (h : Increasing vertices) : vertices.Nodup := by
  refine h.imp ?_
  rintro a b hless rfl
  rw [bytesLess_self] at hless
  cases hless

theorem Increasing.index_inj (h : Increasing vertices)
    {i j : Fin vertices.length} (heq : vertices[i] = vertices[j]) : i = j :=
  Fin.ext ((List.Nodup.getElem_inj_iff h.nodup).1 heq)

/-- A vertex is found at its index. -/
theorem lowerBound_index (h : Increasing vertices) (i : Fin vertices.length) :
    lowerBound vertices vertices[i] = some i := by
  have hat : (fun vertex => !bytesLess vertex vertices[i]) vertices[i] = true := by
    simp
  have hlt : vertices.findIdx (fun vertex => !bytesLess vertex vertices[i])
      < vertices.length :=
    List.findIdx_lt_length_of_exists ⟨_, List.getElem_mem i.isLt, hat⟩
  unfold lowerBound
  rw [dif_pos hlt]
  refine congrArg some (Fin.ext ?_)
  have hle : vertices.findIdx (fun vertex => !bytesLess vertex vertices[i])
      ≤ i.val := by
    by_contra hlater
    have hnot := List.not_of_lt_findIdx (not_le.1 hlater)
    exact absurd (hat.symm.trans hnot) (by simp)
  rcases Nat.lt_or_eq_of_le hle with hearlier | heq
  · -- an earlier vertex comes before, and would not have been found
    have hfound := @List.findIdx_getElem _
      (fun vertex => !bytesLess vertex vertices[i]) _ hlt
    rw [Bool.not_eq_true'] at hfound
    have hless := List.pairwise_iff_getElem.1 h _ _ hlt i.isLt hearlier
    exact absurd (hless.symm.trans hfound) (by simp)
  · exact heq

end Vertices

-- ================================================================== edges

section Edges

variable {vertices : List Bytes} {edges : List AssociationEdge}

/-- Some edge is between these indices. -/
def Linked (vertices : List Bytes) (edges : List AssociationEdge)
    (i j : Fin vertices.length) : Prop :=
  ∃ edge ∈ edges, edge.lhs = vertices[i] ∧ edge.rhs = vertices[j]

private theorem joinEnds_index (h : Increasing vertices)
    (parent : Forest vertices.length) {edge : AssociationEdge}
    {i j : Fin vertices.length} (hi : edge.lhs = vertices[i])
    (hj : edge.rhs = vertices[j]) :
    joinEnds vertices parent edge = .ok (parent.join i j) := by
  unfold joinEnds
  rw [hi, hj, lowerBound_index h, lowerBound_index h]
  simp only [List.get_eq_getElem, Fin.getElem_fin, ne_eq, not_true_eq_false,
    or_self, if_false]
  exact (apply_ite Except.ok _ _ _).symm

/-- The forest of the edges represents the classes they generate. -/
theorem foldlM_joinEnds (h : Increasing vertices)
    (hends : ∀ edge ∈ edges, edge.lhs ∈ vertices ∧ edge.rhs ∈ vertices)
    {parent : Forest vertices.length}
    {r : Fin vertices.length → Fin vertices.length → Prop}
    (hparent : parent.Represents r) :
    ∃ joined, edges.foldlM (joinEnds vertices) parent = .ok joined
      ∧ joined.Represents fun i j => r i j ∨ Linked vertices edges i j := by
  induction edges generalizing parent r with
  | nil =>
      refine ⟨parent, rfl, ?_⟩
      simpa [Linked] using hparent
  | cons edge rest ih =>
      obtain ⟨hlhs, hrhs⟩ := hends edge List.mem_cons_self
      obtain ⟨i, hi, hlhs⟩ := List.mem_iff_getElem.1 hlhs
      obtain ⟨j, hj, hrhs⟩ := List.mem_iff_getElem.1 hrhs
      have hstep := joinEnds_index (i := ⟨i, hi⟩) (j := ⟨j, hj⟩) h parent
        hlhs.symm hrhs.symm
      obtain ⟨joined, hjoined, hrepresents⟩ :=
        ih (fun other hother => hends other (List.mem_cons_of_mem _ hother))
          (hparent.join ⟨i, hi⟩ ⟨j, hj⟩)
      refine ⟨joined, ?_, ?_⟩
      · rw [List.foldlM_cons, hstep]
        exact hjoined
      · convert hrepresents using 3 with a b
        have hat : ∀ {k : Nat} (hk : k < vertices.length) {v : Bytes},
            vertices[k] = v → ∀ c : Fin vertices.length,
            v = vertices[c] ↔ c = ⟨k, hk⟩ := by
          rintro k hk v rfl c
          constructor
          · exact fun heq => h.index_inj heq.symm
          · rintro rfl
            rfl
        unfold Linked
        simp only [List.mem_cons, or_and_right, exists_or, exists_eq_left]
        rw [hat hi hlhs, hat hj hrhs, or_assoc]

end Edges

-- ================================================================= groups

section Groups

variable {vertices : List Bytes} {forest : Forest vertices.length}

/-- The vertices with a root. -/
def membersOf (vertices : List Bytes) (forest : Forest vertices.length)
    (r : Fin vertices.length) : List Bytes :=
  ((List.finRange vertices.length).filter (forest.root · = r)).map
    fun i => vertices[i]

private theorem mem_membersOf {r : Fin vertices.length} {v : Bytes} :
    v ∈ membersOf vertices forest r
      ↔ ∃ i : Fin vertices.length, forest.root i = r ∧ vertices[i] = v := by
  simp [membersOf, List.mem_map, List.mem_filter]

/-- Filing members leaves the roots where they are. -/
theorem foldl_fileMember (indices : List (Fin vertices.length))
    (state : Forest vertices.length × Groups vertices.length) :
    (indices.foldl (fileMember vertices) state).2 = fun r =>
      state.2 r ++ (indices.filter (state.1.root · = r)).map
        fun i => vertices[i] := by
  induction indices generalizing state with
  | nil =>
      funext r
      exact (List.append_nil _).symm
  | cons index rest ih =>
      rw [List.foldl_cons, ih]
      funext r
      have hroots : ∀ i, (fileMember vertices state index).1.root i
          = state.1.root i := state.1.root_find index
      have hgroup : (fileMember vertices state index).2 r
          = if r = state.1.root index then state.2 r ++ [vertices[index]]
            else state.2 r := rfl
      simp only [hroots]
      rw [hgroup]
      by_cases hr : state.1.root index = r
      · rw [if_pos hr.symm, List.filter_cons_of_pos (by simpa using hr),
          List.map_cons, List.append_assoc]
        rfl
      · rw [if_neg fun heq => hr heq.symm,
          List.filter_cons_of_neg (by simpa using hr)]

private theorem memberLists_eq (vertices : List Bytes)
    (forest : Forest vertices.length) :
    memberLists vertices forest
      = ((List.finRange vertices.length).map (membersOf vertices forest)).filter
        (!·.isEmpty) := by
  unfold memberLists
  dsimp only
  rw [foldl_fileMember]
  rfl

private theorem root_mem_membersOf (i : Fin vertices.length) :
    vertices[i] ∈ membersOf vertices forest (forest.root i) :=
  mem_membersOf.2 ⟨i, rfl, rfl⟩

/-- The lists are those of the roots. -/
theorem mem_memberLists {members : List Bytes} :
    members ∈ memberLists vertices forest
      ↔ ∃ i : Fin vertices.length,
        members = membersOf vertices forest (forest.root i) := by
  rw [memberLists_eq, List.mem_filter, List.mem_map]
  simp only [List.mem_finRange, true_and]
  constructor
  · rintro ⟨⟨r, rfl⟩, hne⟩
    obtain ⟨v, hv⟩ := List.exists_mem_of_ne_nil _ (by simpa using hne)
    obtain ⟨i, rfl, -⟩ := mem_membersOf.1 hv
    exact ⟨i, rfl⟩
  · rintro ⟨i, rfl⟩
    refine ⟨⟨_, rfl⟩, ?_⟩
    simpa using List.ne_nil_of_mem (root_mem_membersOf i)

/-- A vertex is in the list of its root, and in no other. -/
theorem filter_memberLists (h : Increasing vertices)
    (i : Fin vertices.length) :
    (memberLists vertices forest).filter (vertices[i] ∈ ·)
      = [membersOf vertices forest (forest.root i)] := by
  have hmem : ∀ r, vertices[i] ∈ membersOf vertices forest r
      ↔ r = forest.root i := by
    intro r
    rw [mem_membersOf]
    constructor
    · rintro ⟨j, rfl, heq⟩
      rw [h.index_inj heq]
    · rintro rfl
      exact ⟨i, rfl, rfl⟩
  have hkeep : ∀ r, (decide (vertices[i] ∈ membersOf vertices forest r)
      && !(membersOf vertices forest r).isEmpty) = decide (r = forest.root i) := by
    intro r
    rw [Bool.eq_iff_iff, Bool.and_eq_true, decide_eq_true_eq, decide_eq_true_eq,
      hmem]
    refine ⟨And.left, fun hr => ⟨hr, ?_⟩⟩
    rw [hr]
    simpa using List.ne_nil_of_mem (root_mem_membersOf i)
  rw [memberLists_eq, List.filter_filter, List.filter_map]
  simp only [Function.comp_def, hkeep]
  rw [List.filter_eq, List.count_eq_one_of_mem (List.nodup_finRange _)
    (List.mem_finRange _)]
  rfl

private theorem increasing_membersOf (h : Increasing vertices)
    (r : Fin vertices.length) :
    Increasing (membersOf vertices forest r) := by
  refine List.Pairwise.map _ (fun i j hij => ?_)
    (List.Pairwise.filter _ (List.pairwise_lt_finRange _))
  exact List.pairwise_iff_getElem.1 h _ _ i.isLt j.isLt hij

end Groups

-- ========================================================= logical assets

section Assets

variable {blake3 : Bytes → Digest} {graph : AssociationGraph}
  {members : List Bytes} {asset : LogicalAsset}

theorem logicalAssetOf_spec (h : logicalAssetOf blake3 members = .ok asset) :
    asset.members = members
      ∧ logicalAssetIdForMembers blake3 members = .ok asset.id := by
  obtain ⟨id, hid, hasset⟩ := bind_ok.1 h
  cases hasset
  exact ⟨rfl, hid⟩

/-- Members in order have an id. -/
theorem logicalAssetOf_ok (blake3 : Bytes → Digest) (h : Increasing members)
    (hne : members ≠ []) (hnonempty : ∀ v ∈ members, v ≠ []) :
    ∃ asset, logicalAssetOf blake3 members = .ok asset := by
  have hany : members.any List.isEmpty = false := by
    rw [List.any_eq_false]
    intro v hv
    simpa using hnonempty v hv
  have hdistinct := (adjacentFind_sortBy bytesLess_comparator
    (bytesLess_separates _)).2 h.nodup
  unfold logicalAssetOf logicalAssetIdForMembers
  rw [if_neg (by simpa using hne), hany, hdistinct]
  exact ⟨_, rfl⟩

namespace AssociationGraph

/-- The vertices as they are indexed. -/
abbrev sortedVertices (graph : AssociationGraph) : List Bytes :=
  sortBy bytesLess graph.vertices

/-- The edges that join. -/
abbrev joining (graph : AssociationGraph) : List AssociationEdge :=
  graph.edges.filter (·.composes)

theorem Valid.increasing (h : graph.Valid) : Increasing graph.sortedVertices :=
  increasing_sortBy h.nodup

private theorem exists_index {v : Bytes} (hv : v ∈ graph.vertices) :
    ∃ i : Fin graph.sortedVertices.length, graph.sortedVertices[i] = v := by
  obtain ⟨i, hi, heq⟩ := List.mem_iff_getElem.1 (mem_sortBy.2 hv)
  exact ⟨⟨i, hi⟩, heq⟩

/-- What is built depends on a forest that represents the edges. -/
theorem Valid.build (h : graph.Valid) (blake3 : Bytes → Digest) :
    ∃ forest, forest.Represents (Linked graph.sortedVertices graph.joining)
      ∧ graph.buildLogicalAssets blake3
        = (do
          let result ← (memberLists graph.sortedVertices forest).mapM
            (logicalAssetOf blake3)
          pure (sortBy (fun left right => bytesLess left.id right.id) result)) := by
  have hends : ∀ edge ∈ sortBy AssociationEdge.before graph.joining,
      edge.lhs ∈ graph.sortedVertices ∧ edge.rhs ∈ graph.sortedVertices := by
    intro edge hedge
    rw [mem_sortBy] at hedge
    rw [mem_sortBy, mem_sortBy]
    exact h.ends edge (List.mem_of_mem_filter hedge)
  obtain ⟨forest, hforest, hrepresents⟩ :=
    foldlM_joinEnds h.increasing hends Forest.represents_discrete
  refine ⟨forest, ?_, ?_⟩
  · convert hrepresents using 3 with i j
    simp [Linked]
  · unfold buildLogicalAssets
    dsimp only
    rw [hforest]
    rfl

/-- Indices are connected if and only if their vertices are. -/
theorem Valid.connected_iff (h : graph.Valid)
    (i j : Fin graph.sortedVertices.length) :
    EqvGen (Linked graph.sortedVertices graph.joining) i j
      ↔ graph.Connected graph.sortedVertices[i] graph.sortedVertices[j] := by
  constructor
  · intro hlinked
    induction hlinked with
    | rel i j hlink =>
        obtain ⟨edge, hedge, hlhs, hrhs⟩ := hlink
        obtain ⟨hedge, hcomposes⟩ := List.mem_filter.1 hedge
        exact .rel _ _ ⟨edge, hedge, hcomposes, hlhs, hrhs⟩
    | refl => exact .refl _
    | symm _ _ _ ih => exact ih.symm _ _
    | trans _ _ _ _ _ ih ih' => exact ih.trans _ _ _ ih'
  · -- on the way from one vertex to another all are vertices
    have hall : ∀ {a b}, graph.Connected a b → a = b
        ∨ ∃ i j : Fin graph.sortedVertices.length,
          graph.sortedVertices[i] = a ∧ graph.sortedVertices[j] = b
            ∧ EqvGen (Linked graph.sortedVertices graph.joining) i j := by
      intro a b hconnected
      induction hconnected with
      | rel a b hedge =>
          obtain ⟨edge, hedge, hcomposes, rfl, rfl⟩ := hedge
          obtain ⟨hlhs, hrhs⟩ := h.ends edge hedge
          obtain ⟨i, hi⟩ := exists_index hlhs
          obtain ⟨j, hj⟩ := exists_index hrhs
          exact .inr ⟨i, j, hi, hj, .rel _ _ ⟨edge,
            List.mem_filter.2 ⟨hedge, hcomposes⟩, hi.symm, hj.symm⟩⟩
      | refl => exact .inl rfl
      | symm a b _ ih =>
          rcases ih with heq | ⟨i, j, hi, hj, hij⟩
          · exact .inl heq.symm
          · exact .inr ⟨j, i, hj, hi, hij.symm _ _⟩
      | trans a b c _ _ ih ih' =>
          rcases ih with rfl | ⟨i, j, hi, hj, hij⟩
          · exact ih'
          · rcases ih' with rfl | ⟨k, l, hk, hl, hkl⟩
            · exact .inr ⟨i, j, hi, hj, hij⟩
            · obtain rfl := h.increasing.index_inj (hj.trans hk.symm)
              exact .inr ⟨i, l, hi, hl, hij.trans _ _ _ hkl⟩
    intro hconnected
    rcases hall hconnected with heq | ⟨k, l, hk, hl, hkl⟩
    · rw [h.increasing.index_inj heq]
      exact .refl _
    · rw [← h.increasing.index_inj hk, ← h.increasing.index_inj hl]
      exact hkl

/-- The logical assets of the member lists, in any order, are components. -/
theorem Valid.components (h : graph.Valid)
    {forest : Forest graph.sortedVertices.length}
    (hforest : forest.Represents (Linked graph.sortedVertices graph.joining))
    {result : List LogicalAsset}
    (hresult : (memberLists graph.sortedVertices forest).mapM
      (logicalAssetOf blake3) = .ok result) :
    AreComponents blake3 graph
      (sortBy (fun left right => bytesLess left.id right.id) result) := by
  -- each list of members became one logical asset
  have hpairs := mapM_ok.1 hresult
  have hlists : memberLists graph.sortedVertices forest
      = result.map (·.members) := by
    rw [← forall₂_map_eq (f := id) hpairs fun _ _ hasset =>
      (logicalAssetOf_spec hasset).1.symm, List.map_id]
  have hperm := perm_sortBy (fun left right : LogicalAsset =>
    bytesLess left.id right.id) result
  have hof : ∀ asset ∈ sortBy (fun left right : LogicalAsset =>
      bytesLess left.id right.id) result,
      ∃ i : Fin graph.sortedVertices.length, asset.members
        = membersOf graph.sortedVertices forest (forest.root i) := by
    intro asset hasset
    refine mem_memberLists.1 ?_
    rw [hlists]
    exact List.mem_map_of_mem (mem_sortBy.1 hasset)
  constructor
  -- each vertex is in one of them
  case each =>
    intro v hv
    obtain ⟨i, rfl⟩ := exists_index hv
    have hone := congrArg List.length
      (@filter_memberLists _ forest h.increasing i)
    rw [hlists, List.filter_map, List.length_map] at hone
    rw [(hperm.filter _).length_eq]
    exact hone
  case vertices =>
    intro asset hasset
    obtain ⟨i, hmembers⟩ := hof asset hasset
    rw [hmembers]
    refine ⟨List.ne_nil_of_mem (root_mem_membersOf i), fun v hv => ?_⟩
    obtain ⟨j, -, rfl⟩ := mem_membersOf.1 hv
    exact mem_sortBy.1 (List.getElem_mem j.isLt)
  -- two vertices are in one exactly if their roots are the same
  case connected =>
    intro asset hasset a ha b hb
    obtain ⟨i, hmembers⟩ := hof asset hasset
    rw [hmembers] at ha ⊢
    obtain ⟨k, hk, rfl⟩ := mem_membersOf.1 ha
    obtain ⟨l, rfl⟩ := exists_index hb
    rw [← h.connected_iff, ← hforest, hk, mem_membersOf]
    constructor
    · rintro ⟨m, hm, heq⟩
      rw [← hm, h.increasing.index_inj heq]
    · exact fun heq => ⟨l, heq.symm, rfl⟩
  case sorted =>
    intro asset hasset
    obtain ⟨i, hmembers⟩ := hof asset hasset
    rw [hmembers]
    exact increasing_membersOf h.increasing _
  case id =>
    intro asset hasset
    obtain ⟨members, -, hnamed⟩ :=
      forall₂_exists_left hpairs (mem_sortBy.1 hasset)
    obtain ⟨hmembers, hid⟩ := logicalAssetOf_spec hnamed
    rw [hmembers]
    exact hid
  case ordered =>
    exact pairwise_sortBy (bytesLess_comparator.comap LogicalAsset.id) _

/-- All member lists get their ids. -/
theorem Valid.named (h : graph.Valid) (blake3 : Bytes → Digest)
    (forest : Forest graph.sortedVertices.length) :
    ∃ result, (memberLists graph.sortedVertices forest).mapM
      (logicalAssetOf blake3) = .ok result := by
  have hall : ∀ members ∈ memberLists graph.sortedVertices forest,
      ∃ asset, logicalAssetOf blake3 members = .ok asset := by
    intro members hmembers
    obtain ⟨i, rfl⟩ := mem_memberLists.1 hmembers
    refine logicalAssetOf_ok blake3 (increasing_membersOf h.increasing _)
      (List.ne_nil_of_mem (root_mem_membersOf i)) fun v hv => ?_
    obtain ⟨j, -, rfl⟩ := mem_membersOf.1 hv
    exact h.nonempty _ (mem_sortBy.1 (List.getElem_mem j.isLt))
  obtain ⟨result, hresult⟩ := exists_forall₂ hall
  exact ⟨result, mapM_ok.2 hresult⟩

/-- Graphs with the same vertices and edges have the same logical assets. -/
theorem Valid.build_eq {other : AssociationGraph} (h : graph.Valid)
    (hother : other.Valid) (hvertices : ∀ v, v ∈ other.vertices ↔ v ∈ graph.vertices)
    (hedges : ∀ edge, edge ∈ other.edges ↔ edge ∈ graph.edges)
    (blake3 : Bytes → Digest) :
    other.buildLogicalAssets blake3 = graph.buildLogicalAssets blake3 := by
  have hperm : other.vertices.Perm graph.vertices :=
    (List.perm_ext_iff_of_nodup hother.nodup h.nodup).2 hvertices
  have hsorted : other.sortedVertices = graph.sortedVertices :=
    sortBy_congr bytesLess_comparator (bytesLess_separates _) hperm
  obtain ⟨forest, hforest, hbuild⟩ := h.build blake3
  obtain ⟨forest', hforest', hbuild'⟩ := hother.build blake3
  rw [hbuild, hbuild']
  clear hbuild hbuild'
  have hlinked : ∀ vertices, Linked vertices other.joining
      = Linked vertices graph.joining := by
    intro vertices
    funext i j
    simp only [Linked, List.mem_filter, hedges]
  rw [hlinked] at hforest'
  generalize other.sortedVertices = vertices at hsorted forest' hforest'
  subst hsorted
  have hroots : forest'.root = forest.root :=
    funext (hforest'.root_eq hforest)
  have hlists : memberLists graph.sortedVertices forest'
      = memberLists graph.sortedVertices forest := by
    rw [memberLists_eq, memberLists_eq]
    unfold membersOf
    rw [hroots]
  rw [hlists]

/-- Whatever the calls, the logical assets are the connected components;
the order of the calls does not matter; and with any links there can be,
both loops of `find_root` end. -/
theorem buildLogicalAssets_components (blake3 : Bytes → Digest)
    (calls : List GraphCall) :
    (∃ assets, (built calls).buildLogicalAssets blake3 = .ok assets
        ∧ AreComponents blake3 (built calls) assets)
      ∧ (∀ calls', (∀ v, v ∈ (built calls').vertices
            ↔ v ∈ (built calls).vertices) →
          (∀ edge, edge ∈ (built calls').edges
            ↔ edge ∈ (built calls).edges) →
          (built calls').buildLogicalAssets blake3
            = (built calls).buildLogicalAssets blake3)
      ∧ ∀ (forest : Forest (built calls).vertices.length)
          (index : Fin (built calls).vertices.length),
          walkUp forest.parent (index.val + 1) index
              = some (forest.find index).1
            ∧ repoint (forest.find index).1 (index.val + 1) forest.parent index
              = some (forest.find index).2.parent := by
  have h := valid_built calls
  refine ⟨?_, fun calls' hvertices hedges =>
    h.build_eq (valid_built calls') hvertices hedges blake3, fun forest index =>
    ⟨forest.walkUp_eq (Nat.lt_succ_self _),
      forest.repoint_eq rfl (Nat.lt_succ_self _)⟩⟩
  obtain ⟨forest, hforest, hbuild⟩ := h.build blake3
  obtain ⟨result, hresult⟩ := h.named blake3 forest
  rw [hbuild, hresult]
  exact ⟨_, rfl, h.components hforest hresult⟩

end AssociationGraph

end Assets

end PhotoBridge.Takeout
