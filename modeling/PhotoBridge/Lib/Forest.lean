/-
Disjoint sets kept as a forest of parent links, with path compression.

The links never point to a later element, so following them ends: the
bound is a field of `Forest`, and every operation here keeps it. The
root of an element stands for its set. `find` returns it and moves the
elements on the way there; `link` makes one set of two, under the
earlier of their roots. A forest that links some pairs has the classes
they generate for its sets (`Represents`), and since a root is the first
of its set, the roots are determined by the pairs (`Represents.root_eq`).
-/
import Mathlib.Logic.Relation
import Mathlib.Order.Fin.Basic
import Mathlib.Tactic.Common

namespace DisjointSets

/-- Parent links among `n` elements, none of them to a later element. -/
structure Forest (n : Nat) where
  parent : Fin n → Fin n
  le : ∀ i, parent i ≤ i

namespace Forest

variable {n : Nat}

/-- Every element is a set of its own. -/
def discrete (n : Nat) : Forest n := ⟨id, fun _ => Fin.le_refl _⟩

private theorem parent_lt {f : Forest n} {i : Fin n} (h : f.parent i ≠ i) :
    f.parent i < i :=
  lt_of_le_of_ne (f.le i) h

/-- Follow the links as far as they go. -/
def root (f : Forest n) (i : Fin n) : Fin n :=
  if f.parent i = i then i else f.root (f.parent i)
termination_by i.val
decreasing_by exact parent_lt ‹_›

/-- Point an element at an earlier one. -/
def point (f : Forest n) (i above : Fin n) (h : above ≤ i) : Forest n where
  parent := fun j => if j = i then above else f.parent j
  le := by
    intro j
    by_cases hj : j = i
    · rw [if_pos hj, hj]
      exact h
    · rw [if_neg hj]
      exact f.le j

-- =============================================================== roots

private theorem root_of_fixed {f : Forest n} {i : Fin n} (h : f.parent i = i) :
    f.root i = i := by
  rw [root, if_pos h]

/-- An element and its parent have the same root. -/
theorem root_parent (f : Forest n) (i : Fin n) :
    f.root (f.parent i) = f.root i := by
  by_cases h : f.parent i = i
  · rw [h]
  · rw [root.eq_1 f i, if_neg h]

/-- The root of an element is its own parent, and no later. -/
theorem root_spec (f : Forest n) (i : Fin n) :
    f.parent (f.root i) = f.root i ∧ f.root i ≤ i := by
  induction i using root.induct f with
  | case1 i h =>
      rw [root_of_fixed h]
      exact ⟨h, Fin.le_refl _⟩
  | case2 i h ih =>
      rw [← root_parent]
      exact ⟨ih.1, le_trans ih.2 (f.le i)⟩

theorem root_le (f : Forest n) (i : Fin n) : f.root i ≤ i := (f.root_spec i).2

/-- Pointing an element at its root moves no other root. -/
theorem root_point {f : Forest n} {i : Fin n} (h : f.root i ≤ i)
    (j : Fin n) : (f.point i (f.root i) h).root j = f.root j := by
  induction j using root.induct f with
  | case1 j hj =>
      rw [root_of_fixed hj]
      refine root_of_fixed ?_
      show (if j = i then f.root i else f.parent j) = j
      by_cases hji : j = i
      · rw [if_pos hji, ← hji]
        exact root_of_fixed hj
      · rw [if_neg hji]
        exact hj
  | case2 j hj ih =>
      rw [← root_parent (f.point i (f.root i) h)]
      by_cases hji : j = i
      · subst hji
        have hparent : (f.point j (f.root j) h).parent j = f.root j :=
          if_pos rfl
        rw [hparent]
        refine root_of_fixed ?_
        show (if f.root j = j then f.root j else f.parent (f.root j)) = _
        by_cases hroot : f.root j = j
        · rw [if_pos hroot]
        · rw [if_neg hroot]
          exact (f.root_spec j).1
      · have hparent : (f.point i (f.root i) h).parent j = f.parent j :=
          if_neg hji
        rw [hparent, ih, root_parent]

-- ========================================================== operations

/-- Point everything on the way from an element to its root at that
root. -/
def compress (f : Forest n) (root i : Fin n) (h : f.root i = root) : Forest n :=
  if hfixed : f.parent i = i then f
  else
    have hle : f.root i ≤ i := f.root_le i
    (f.point i root (h ▸ hle)).compress root (f.parent i) (by
      subst h
      rw [root_point, root_parent])
termination_by i.val
decreasing_by exact parent_lt hfixed

/-- The root of an element, and the forest with the way there made
short. -/
def find (f : Forest n) (i : Fin n) : Fin n × Forest n :=
  (f.root i, f.compress (f.root i) i rfl)

/-- One set of two, given their roots. -/
def link (f : Forest n) (left right : Fin n) : Forest n :=
  if h : left < right then f.point right left (le_of_lt h)
  else f.point left right (not_lt.1 h)

/-- One set of two, given an element of each. -/
def join (f : Forest n) (a b : Fin n) : Forest n :=
  let (left, f) := f.find a
  let (right, f) := f.find b
  if left = right then f else f.link left right

theorem root_compress (f : Forest n) (root i : Fin n) (h : f.root i = root)
    (j : Fin n) : (f.compress root i h).root j = f.root j := by
  fun_induction compress f root i h with
  | case1 f i h hfixed => rfl
  | case2 f i h hfixed hle ih =>
      rw [ih]
      subst h
      exact root_point _ j

/-- Finding a root moves none. -/
theorem root_find (f : Forest n) (i j : Fin n) :
    (f.find i).2.root j = f.root j :=
  f.root_compress _ i rfl j

/-- Pointing a root at another moves its set. -/
theorem root_point_root {f : Forest n} {r above : Fin n}
    (hr : f.parent r = r) (habove : f.parent above = above) (hle : above ≤ r)
    (hne : above ≠ r) (j : Fin n) :
    (f.point r above hle).root j = if f.root j = r then above else f.root j := by
  induction j using root.induct f with
  | case1 j hj =>
      rw [root_of_fixed hj]
      by_cases hjr : j = r
      · subst hjr
        have hparent : (f.point j above hle).parent j = above := if_pos rfl
        have hfixed : (f.point j above hle).parent above = above := by
          show (if above = j then above else f.parent above) = above
          rw [if_neg hne, habove]
        rw [if_pos rfl, ← root_parent, hparent, root_of_fixed hfixed]
      · have hfixed : (f.point r above hle).parent j = j := by
          show (if j = r then above else f.parent j) = j
          rw [if_neg hjr, hj]
        rw [if_neg hjr, root_of_fixed hfixed]
  | case2 j hj ih =>
      have hjr : j ≠ r := by
        rintro rfl
        exact hj hr
      have hparent : (f.point r above hle).parent j = f.parent j := if_neg hjr
      rw [← root_parent, hparent, ih, root_parent]

private theorem root_link {f : Forest n} {left right : Fin n}
    (hleft : f.parent left = left) (hright : f.parent right = right)
    (hne : left ≠ right) (j : Fin n) :
    (f.link left right).root j
      = if f.root j = left ∨ f.root j = right then min left right
        else f.root j := by
  unfold link
  by_cases hlt : left < right
  · rw [dif_pos hlt, root_point_root hright hleft _ hne,
      min_eq_left (le_of_lt hlt)]
    by_cases hj : f.root j = right
    · rw [if_pos hj, if_pos (.inr hj)]
    · by_cases hj' : f.root j = left
      · rw [if_neg hj, if_pos (.inl hj'), hj']
      · rw [if_neg hj, if_neg (by simp [hj, hj'])]
  · rw [dif_neg hlt, root_point_root hleft hright _ hne.symm,
      min_eq_right (not_lt.1 hlt)]
    by_cases hj : f.root j = left
    · rw [if_pos hj, if_pos (.inl hj)]
    · by_cases hj' : f.root j = right
      · rw [if_neg hj, if_pos (.inr hj'), hj']
      · rw [if_neg hj, if_neg (by simp [hj, hj'])]

private theorem root_join (f : Forest n) (a b j : Fin n) :
    (f.join a b).root j
      = if f.root j = f.root a ∨ f.root j = f.root b
        then min (f.root a) (f.root b) else f.root j := by
  have hroots : ∀ k, ((f.find a).2.find b).2.root k = f.root k := fun k => by
    rw [root_find, root_find]
  have hright : ((f.find a).2.find b).1 = f.root b := root_find f a b
  have hfixed : ∀ k, ((f.find a).2.find b).2.parent (f.root k) = f.root k := by
    intro k
    rw [← hroots k]
    exact (root_spec _ k).1
  have hjoin : f.join a b
      = if f.root a = ((f.find a).2.find b).1 then ((f.find a).2.find b).2
        else ((f.find a).2.find b).2.link (f.root a) ((f.find a).2.find b).1 :=
    rfl
  rw [hjoin, hright]
  by_cases hsame : f.root a = f.root b
  · rw [if_pos hsame, hroots, ← hsame, min_self]
    simp only [or_self]
    split
    · next hj => exact hj
    · rfl
  · rw [if_neg hsame, root_link (hfixed a) (hfixed b) hsame]
    simp only [hroots]

-- =============================================================== classes

open Relation

/-- The sets of the forest are the classes the relation generates. -/
def Represents (f : Forest n) (r : Fin n → Fin n → Prop) : Prop :=
  ∀ i j, f.root i = f.root j ↔ EqvGen r i j

theorem represents_discrete : (discrete n).Represents fun _ _ => False := by
  intro i j
  rw [root_of_fixed rfl, root_of_fixed rfl]
  constructor
  · rintro rfl
    exact .refl _
  · intro h
    induction h with
    | rel _ _ hnone => exact hnone.elim
    | refl => rfl
    | symm _ _ _ ih => exact ih.symm
    | trans _ _ _ _ _ ih ih' => exact ih.trans ih'

theorem Represents.join {f : Forest n} {r : Fin n → Fin n → Prop}
    (h : f.Represents r) (a b : Fin n) :
    (f.join a b).Represents fun i j => r i j ∨ (i = a ∧ j = b) := by
  intro i j
  have hold : ∀ {i j}, f.root i = f.root j →
      EqvGen (fun i j => r i j ∨ (i = a ∧ j = b)) i j :=
    fun heq => ((h _ _).1 heq).mono fun _ _ => .inl
  have hab : EqvGen (fun i j => r i j ∨ (i = a ∧ j = b)) a b :=
    .rel _ _ (.inr ⟨rfl, rfl⟩)
  constructor
  · intro hroots
    rw [root_join, root_join] at hroots
    -- an element of a joined set is connected to both
    have hjoined : ∀ {k}, f.root k = f.root a ∨ f.root k = f.root b →
        EqvGen (fun i j => r i j ∨ (i = a ∧ j = b)) k a := by
      rintro k (hk | hk)
      · exact hold hk
      · exact (hold hk).trans _ _ _ (hab.symm _ _)
    have hmin : min (f.root a) (f.root b) = f.root a
        ∨ min (f.root a) (f.root b) = f.root b := (le_total _ _).imp min_eq_left min_eq_right
    split at hroots
    · next hi =>
      split at hroots
      · next hj => exact (hjoined hi).trans _ _ _ ((hjoined hj).symm _ _)
      · next hj =>
        rw [hroots] at hmin
        exact absurd hmin hj
    · next hi =>
      split at hroots
      · rw [← hroots] at hmin
        exact absurd hmin hi
      · exact hold hroots
  · intro heqv
    induction heqv with
    | rel i j hrel =>
        rw [root_join, root_join]
        rcases hrel with hrel | ⟨rfl, rfl⟩
        · rw [(h i j).2 (.rel _ _ hrel)]
        · rw [if_pos (.inl rfl), if_pos (.inr rfl)]
    | refl => rfl
    | symm _ _ _ ih => exact ih.symm
    | trans _ _ _ _ _ ih ih' => exact ih.trans ih'

theorem root_root (f : Forest n) (i : Fin n) : f.root (f.root i) = f.root i :=
  root_of_fixed (f.root_spec i).1

/-- The roots are determined by the classes: each is the first of its own. -/
theorem Represents.root_eq {f g : Forest n} {r : Fin n → Fin n → Prop}
    (hf : f.Represents r) (hg : g.Represents r) (i : Fin n) :
    f.root i = g.root i := by
  have hle : ∀ {f g : Forest n}, f.Represents r → g.Represents r →
      g.root i ≤ f.root i := by
    intro f g hf hg
    rw [← (hg _ _).2 ((hf _ _).1 (f.root_root i))]
    exact g.root_le _
  exact le_antisymm (hle hg hf) (hle hf hg)

-- ================================================================= loops

/-- The loop that looks for a root, in at most so many rounds. -/
def walkUp (parent : Fin n → Fin n) : Nat → Fin n → Option (Fin n)
  | 0, _ => none
  | rounds + 1, root =>
      if parent root = root then some root
      else walkUp parent rounds (parent root)

/-- The loop that points what is on the way at the root. -/
def repoint (root : Fin n) :
    Nat → (Fin n → Fin n) → Fin n → Option (Fin n → Fin n)
  | 0, _, _ => none
  | rounds + 1, parent, index =>
      if parent index = index then some parent
      else repoint root rounds
        (fun j => if j = index then root else parent j) (parent index)

/-- The first loop ends, at the root. -/
theorem walkUp_eq (f : Forest n) {rounds : Nat} {i : Fin n}
    (h : i.val < rounds) : walkUp f.parent rounds i = some (f.root i) := by
  induction rounds generalizing i with
  | zero => cases h
  | succ rounds ih =>
      rw [walkUp]
      by_cases hfixed : f.parent i = i
      · rw [if_pos hfixed, root_of_fixed hfixed]
      · have hlt : (f.parent i).val < i.val := parent_lt hfixed
        rw [if_neg hfixed, ih (by omega), root_parent]

/-- The second loop ends, with what `compress` makes of the links. -/
theorem repoint_eq (f : Forest n) {rounds : Nat} {root i : Fin n}
    (hroot : f.root i = root) (h : i.val < rounds) :
    repoint root rounds f.parent i = some (f.compress root i hroot).parent := by
  induction rounds generalizing f i with
  | zero => cases h
  | succ rounds ih =>
      rw [repoint, compress]
      by_cases hfixed : f.parent i = i
      · rw [if_pos hfixed, dif_pos hfixed]
      · have hlt : (f.parent i).val < i.val := parent_lt hfixed
        rw [if_neg hfixed, dif_neg hfixed]
        exact ih (f.point i root _) _ (by omega)

end Forest

end DisjointSets
