/-
Finite trees whose branches have keys, and the order in which a
depth-first traversal meets their nodes: every list of branches in the
order of the keys, each node before what is below it.

Only nodes whose value says so are entered; what lies below the others
is no part of the traversal. `Below` says what a traversal has to meet
and `listing` in which order; that the one is the other is `mem_listing`,
and the order is the lexicographic one of the paths
(`pairwise_listing`).
-/
import Mathlib.Data.List.Lex
import PhotoBridge.Lib.Sorting

open Sorting

/-- A node, and the branches that leave it. -/
inductive KeyTree (κ α : Type)
  | node (value : α) (entries : List (κ × KeyTree κ α))

namespace KeyTree

variable {κ α : Type}

def value : KeyTree κ α → α
  | .node value _ => value

def entries : KeyTree κ α → List (κ × KeyTree κ α)
  | .node _ entries => entries

theorem sizeOf_entries_lt [SizeOf κ] [SizeOf α]
    {entries : List (κ × KeyTree κ α)} {entry : κ × KeyTree κ α} (h : entry ∈ entries) :
    sizeOf entry.2.entries < sizeOf entries := by
  have hmem := List.sizeOf_lt_of_mem h
  obtain ⟨key, value, below⟩ := entry
  simp only [Prod.mk.sizeOf_spec, node.sizeOf_spec] at hmem
  show sizeOf below < sizeOf entries
  omega

-- ======================================================= what is below

variable (enter : α → Bool)

/-- `tree` is where the path ends. -/
inductive Below : List (κ × KeyTree κ α) → List κ → KeyTree κ α → Prop
  | here {entries key tree} (h : (key, tree) ∈ entries) :
      Below entries [key] tree
  | down {entries key keys tree} {parent : KeyTree κ α}
      (h : (key, parent) ∈ entries) (henter : enter parent.value = true)
      (rest : Below parent.entries keys tree) :
      Below entries (key :: keys) tree

/-- Every list of branches a traversal meets satisfies `P`. -/
structure Throughout (P : List (κ × KeyTree κ α) → Prop)
    (entries : List (κ × KeyTree κ α)) : Prop where
  here : P entries
  down : ∀ {keys tree}, Below enter entries keys tree →
    enter tree.value = true → P tree.entries

variable {enter} in
theorem Throughout.child {P : List (κ × KeyTree κ α) → Prop}
    {entries : List (κ × KeyTree κ α)} (h : Throughout enter P entries)
    {key : κ} {tree : KeyTree κ α} (hmem : (key, tree) ∈ entries)
    (henter : enter tree.value = true) :
    Throughout enter P tree.entries where
  here := h.down (.here hmem) henter
  down := fun hbelow => h.down (.down hmem henter hbelow)

variable {enter} in
/-- Where keys are distinct, a path ends in one place. -/
theorem Below.unique {entries : List (κ × KeyTree κ α)} {keys : List κ}
    {tree tree' : KeyTree κ α} (h : Below enter entries keys tree)
    (h' : Below enter entries keys tree')
    (hkeys : Throughout enter (fun entries => (entries.map Prod.fst).Nodup)
      entries) : tree = tree' := by
  induction h with
  | here hmem =>
      cases h' with
      | here hmem' =>
          exact congrArg Prod.snd
            (List.inj_on_of_nodup_map hkeys.here hmem hmem' rfl)
      | down _ _ hrest => cases hrest
  | @down entries key keys tree parent hmem henter hrest ih =>
      cases h' with
      | here _ => cases hrest
      | @down _ _ _ _ parent' hmem' _ hrest' =>
          have hsame : (key, parent) = (key, parent') :=
            List.inj_on_of_nodup_map hkeys.here hmem hmem' rfl
          cases hsame
          exact ih hrest' (hkeys.child hmem henter)

variable {enter} in
@[simp] theorem below_nil {keys : List κ} {tree : KeyTree κ α} :
    ¬Below enter [] keys tree := by
  intro h
  cases h with
  | here hmem => cases hmem
  | down hmem => cases hmem

variable {enter} in
/-- Below the first branch, or below another. -/
theorem below_cons {key : κ} {parent tree : KeyTree κ α}
    {entries : List (κ × KeyTree κ α)} {keys : List κ} :
    Below enter ((key, parent) :: entries) keys tree
      ↔ keys = [key] ∧ tree = parent
        ∨ enter parent.value = true
          ∧ (∃ rest, keys = key :: rest ∧ Below enter parent.entries rest tree)
        ∨ Below enter entries keys tree := by
  constructor
  · intro h
    cases h with
    | here hmem =>
        rcases List.mem_cons.1 hmem with heq | hmem
        · cases heq
          exact .inl ⟨rfl, rfl⟩
        · exact .inr (.inr (.here hmem))
    | down hmem henter hrest =>
        rcases List.mem_cons.1 hmem with heq | hmem
        · cases heq
          exact .inr (.inl ⟨henter, _, rfl, hrest⟩)
        · exact .inr (.inr (.down hmem henter hrest))
  · rintro (⟨rfl, rfl⟩ | ⟨henter, rest, rfl, hrest⟩ | h)
    · exact .here List.mem_cons_self
    · exact .down List.mem_cons_self henter hrest
    · cases h with
      | here hmem => exact .here (List.mem_cons_of_mem _ hmem)
      | down hmem henter hrest =>
          exact .down (List.mem_cons_of_mem _ hmem) henter hrest

-- ============================================================= listing

variable (less : κ → κ → Bool)

/-- Branches by their keys. -/
def byKey (a b : κ × KeyTree κ α) : Bool := less a.1 b.1

/-- The nodes in the order of a traversal, with their paths below
`above`. -/
def listing (entries : List (κ × KeyTree κ α)) (above : List κ) :
    List (List κ × KeyTree κ α) :=
  (sortBy (byKey less) entries).attach.flatMap fun ⟨entry, _⟩ =>
    (above ++ [entry.1], entry.2)
      :: if enter entry.2.value then
           listing entry.2.entries (above ++ [entry.1])
         else []
termination_by sizeOf entries
decreasing_by exact sizeOf_entries_lt (mem_sortBy.1 ‹_›)

/-- A node and what a traversal meets below it. -/
def listingOf (above : List κ) (entry : κ × KeyTree κ α) :
    List (List κ × KeyTree κ α) :=
  (above ++ [entry.1], entry.2)
    :: if enter entry.2.value then
         listing enter less entry.2.entries (above ++ [entry.1])
       else []

theorem listing_eq (entries : List (κ × KeyTree κ α)) (above : List κ) :
    listing enter less entries above
      = (sortBy (byKey less) entries).flatMap (listingOf enter less above) := by
  rw [listing]
  show (sortBy (byKey less) entries).attach.flatMap
    (fun x => listingOf enter less above x.val) = _
  rw [List.flatMap_def, List.flatMap_def]
  congr 1
  exact List.attach_map_val

/-- An induction along the traversal: what holds of a list of branches if
it holds of the branches of the nodes entered there. -/
theorem entries_induction {motive : List (κ × KeyTree κ α) → Prop}
    (step : ∀ entries, (∀ entry ∈ entries, motive entry.2.entries)
      → motive entries) (entries : List (κ × KeyTree κ α)) :
    motive entries :=
  step entries fun entry _ => entries_induction step entry.2.entries
termination_by sizeOf entries
decreasing_by exact sizeOf_entries_lt ‹_›

variable {enter less}

/-- A traversal meets exactly what is below. -/
theorem mem_listing {entries : List (κ × KeyTree κ α)} {above path : List κ}
    {tree : KeyTree κ α} :
    (path, tree) ∈ listing enter less entries above
      ↔ ∃ keys, path = above ++ keys ∧ Below enter entries keys tree := by
  induction entries using entries_induction generalizing above path tree with
  | step entries ih =>
    rw [listing_eq, List.mem_flatMap]
    constructor
    · rintro ⟨⟨key, child⟩, hentry, hmem⟩
      have hentry' : (key, child) ∈ entries := mem_sortBy.1 hentry
      rcases List.mem_cons.1 hmem with heq | hbelow
      · cases heq
        exact ⟨[key], rfl, .here hentry'⟩
      · cases henter : enter child.value with
        | false => simp [henter] at hbelow
        | true =>
            simp only [henter, if_true] at hbelow
            obtain ⟨keys, hpath, hkeys⟩ := (ih (key, child) hentry').1 hbelow
            refine ⟨key :: keys, ?_, .down hentry' henter hkeys⟩
            rw [hpath, List.append_assoc]
            rfl
    · rintro ⟨keys, hpath, hbelow⟩
      cases hbelow with
      | @here _ key _ hmem =>
          refine ⟨(key, tree), mem_sortBy.2 hmem, ?_⟩
          rw [hpath]
          exact List.mem_cons_self
      | @down _ key keys _ parent hmem henter hrest =>
          refine ⟨(key, parent), mem_sortBy.2 hmem, ?_⟩
          refine List.mem_cons_of_mem _ ?_
          simp only [henter, if_true]
          refine (ih (key, parent) hmem).2 ⟨keys, ?_, hrest⟩
          rw [hpath, List.append_assoc]
          rfl

-- =============================================================== order

/-- The lexicographic order of paths. -/
abbrev PathLess (less : κ → κ → Bool) : List κ → List κ → Prop :=
  List.Lex fun a b => less a b = true

/-- A path comes before the paths that continue it. -/
theorem pathLess_continued (above : List κ) (key : κ) (keys : List κ) :
    PathLess less above (above ++ key :: keys) := by
  have hnil : PathLess less [] (key :: keys) := .nil
  have happend := List.Lex.append_left _ hnil above
  rwa [List.append_nil] at happend

/-- Paths that part at some point are ordered as they part. -/
theorem pathLess_parted (above : List κ) {a b : κ} (hab : less a b = true)
    (keys keys' : List κ) :
    PathLess less (above ++ a :: keys) (above ++ b :: keys') := by
  have hrel : PathLess less (a :: keys) (b :: keys') := .rel hab
  exact List.Lex.append_left _ hrel above

theorem pathLess_asymm (hless : Comparator less) {p q : List κ}
    (h : PathLess less p q) : ¬PathLess less q p := by
  have hasymm : Std.Asymm fun a b => less a b = true :=
    ⟨fun a b hab hba => by rw [hless.asymm hab] at hba; cases hba⟩
  exact asymm h

/-- What is listed below a branch continues its path. -/
theorem listingOf_path {above : List κ} {entry : κ × KeyTree κ α}
    {found : List κ × KeyTree κ α} (h : found ∈ listingOf enter less above entry) :
    ∃ keys, found.1 = above ++ entry.1 :: keys := by
  rcases List.mem_cons.1 h with heq | hbelow
  · exact ⟨[], by rw [heq]⟩
  · split at hbelow
    · obtain ⟨keys, hpath, -⟩ := mem_listing.1 hbelow
      refine ⟨keys, ?_⟩
      rw [hpath, List.append_assoc]
      rfl
    · cases hbelow

/-- The keys of a list of branches are distinct and told apart. -/
def Keyed (less : κ → κ → Bool) (entries : List (κ × KeyTree κ α)) : Prop :=
  (entries.map Prod.fst).Nodup ∧ Separates less (entries.map Prod.fst)

/-- Branches with distinct keys, sorted, have increasing keys. -/
theorem sortBy_increasing (hless : Comparator less)
    {entries : List (κ × KeyTree κ α)} (h : Keyed less entries) :
    (sortBy (byKey less) entries).Pairwise fun a b => less a.1 b.1 = true := by
  have hsorted := pairwise_sortBy (hless.comap Prod.fst) entries
  have hnodup : ((sortBy (byKey less) entries).map Prod.fst).Nodup :=
    ((perm_sortBy (byKey less) entries).map Prod.fst).nodup_iff.2 h.1
  have hne := List.pairwise_map.1 hnodup
  refine (hsorted.and hne).imp_of_mem fun {a b} ha hb hboth => ?_
  cases hab : less a.1 b.1 with
  | true => rfl
  | false =>
      refine absurd (h.2 a.1 ?_ b.1 ?_ hab hboth.1) hboth.2
      · exact List.mem_map_of_mem (mem_sortBy.1 ha)
      · exact List.mem_map_of_mem (mem_sortBy.1 hb)

/-- The paths of a traversal increase. -/
theorem pairwise_listing (hless : Comparator less)
    {entries : List (κ × KeyTree κ α)}
    (hkeys : Throughout enter (Keyed less) entries) (above : List κ) :
    (listing enter less entries above).Pairwise fun p q =>
      PathLess less p.1 q.1 := by
  induction entries using entries_induction generalizing above with
  | step entries ih =>
    rw [listing_eq, List.pairwise_flatMap]
    constructor
    · intro entry hentry
      have hmem := mem_sortBy.1 hentry
      refine List.pairwise_cons.2 ⟨?_, ?_⟩
      · intro found hfound
        split at hfound
        · next henter =>
          obtain ⟨keys, hpath, hbelow⟩ := mem_listing.1 hfound
          rw [hpath]
          cases hbelow <;> exact pathLess_continued _ _ _
        · cases hfound
      · split
        · next henter =>
          exact ih entry hmem (hkeys.child hmem henter) _
        · exact .nil
    · refine (sortBy_increasing hless hkeys.here).imp fun {a b} hab => ?_
      intro p hp q hq
      obtain ⟨keys, hp⟩ := listingOf_path hp
      obtain ⟨keys', hq⟩ := listingOf_path hq
      rw [hp, hq]
      exact pathLess_parted above hab keys keys'

/-- In a list along an order, the smaller of two members stands first. -/
theorem sublist_of_pairwise {β : Type} {R : β → β → Prop}
    (hasymm : ∀ {a b}, R a b → ¬R b a) {xs : List β} (h : xs.Pairwise R)
    {x y : β} (hx : x ∈ xs) (hy : y ∈ xs) (hxy : R x y) :
    [x, y].Sublist xs := by
  induction h with
  | nil => cases hx
  | @cons a rest hfirst hrest ih =>
      rcases List.mem_cons.1 hx with hxa | hxrest
      · rcases List.mem_cons.1 hy with hya | hyrest
        · rw [hxa, hya] at hxy
          exact absurd hxy (hasymm hxy)
        · rw [hxa]
          exact (List.singleton_sublist.2 hyrest).cons_cons _
      · rcases List.mem_cons.1 hy with hya | hyrest
        · rw [hya] at hxy
          exact absurd (hfirst x hxrest) (hasymm hxy)
        · exact (ih hxrest hyrest).cons _

end KeyTree
