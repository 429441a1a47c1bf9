/-
Lists that are joined by looking for equal keys: a pass over a list that
can fail pairs its inputs with its results, pairings compose and move
along permutations, and a search by a key nobody shares finds the one
value that has it.
-/
import Mathlib.Data.List.Forall2
import Mathlib.Data.List.Nodup
import Mathlib.Data.List.Perm.Basic

namespace Joining

variable {α β γ κ ε : Type}

-- ============================================================== passes

/-- A sequence of two steps that can fail. -/
theorem bind_ok {x : Except ε α} {k : α → Except ε β} {r : β} :
    (x >>= k) = .ok r ↔ ∃ v, x = .ok v ∧ k v = .ok r := by
  cases x with
  | error e => simp [bind, Except.bind]
  | ok v => simp [bind, Except.bind]

/-- A pass that succeeds pairs inputs and results. -/
theorem mapM_ok {f : α → Except ε β} {xs : List α} {ys : List β} :
    xs.mapM f = .ok ys ↔ List.Forall₂ (fun x y => f x = .ok y) xs ys := by
  induction xs generalizing ys with
  | nil =>
      rw [List.mapM_nil, List.forall₂_nil_left_iff]
      constructor
      · intro h
        cases h
        rfl
      · intro h
        rw [h]
        rfl
  | cons x rest ih =>
      rw [List.mapM_cons, bind_ok, List.forall₂_cons_left_iff]
      constructor
      · intro h
        obtain ⟨y, hy, htail⟩ := h
        obtain ⟨tail, hrest, hys⟩ := bind_ok.1 htail
        cases hys
        exact ⟨y, tail, hy, ih.1 hrest, rfl⟩
      · intro h
        obtain ⟨y, tail, hy, hrest, rfl⟩ := h
        exact ⟨y, hy, bind_ok.2 ⟨tail, ih.2 hrest, rfl⟩⟩

-- ============================================================ pairings

variable {R : α → β → Prop} {S : β → γ → Prop}

/-- `mapM` in `Option`. -/
theorem mapM_some {f : α → Option β} {xs : List α} {ys : List β} :
    xs.mapM f = some ys ↔ List.Forall₂ (fun x y => f x = some y) xs ys := by
  induction xs generalizing ys with
  | nil =>
      rw [List.mapM_nil, List.forall₂_nil_left_iff]
      exact ⟨fun h => (Option.some.inj h).symm, fun h => by rw [h]; rfl⟩
  | cons x rest ih =>
      rw [List.mapM_cons, List.forall₂_cons_left_iff]
      constructor
      · intro h
        obtain ⟨y, hy, hrest⟩ := Option.bind_eq_some_iff.1 h
        obtain ⟨tail, htail, heq⟩ := Option.bind_eq_some_iff.1 hrest
        exact ⟨y, tail, hy, ih.1 htail, (Option.some.inj heq).symm⟩
      · rintro ⟨y, tail, hy, htail, rfl⟩
        exact Option.bind_eq_some_iff.2
          ⟨y, hy, Option.bind_eq_some_iff.2 ⟨tail, ih.2 htail, rfl⟩⟩


/-- Pairs are made of members. -/
theorem forall₂_mem {xs : List α} {ys : List β} (h : List.Forall₂ R xs ys) :
    List.Forall₂ (fun x y => (x ∈ xs ∧ y ∈ ys) ∧ R x y) xs ys := by
  induction h with
  | nil => exact .nil
  | cons hxy hrest ih =>
      refine .cons ⟨⟨List.mem_cons_self, List.mem_cons_self⟩, hxy⟩ ?_
      refine ih.imp fun a b hab => ?_
      exact ⟨⟨List.mem_cons_of_mem _ hab.1.1, List.mem_cons_of_mem _ hab.1.2⟩,
        hab.2⟩

theorem forall₂_exists_right {xs : List α} {ys : List β}
    (h : List.Forall₂ R xs ys) {x : α} (hx : x ∈ xs) : ∃ y ∈ ys, R x y := by
  induction h with
  | nil => cases hx
  | cons hxy hrest ih =>
      rcases List.mem_cons.1 hx with rfl | hx
      · exact ⟨_, List.mem_cons_self, hxy⟩
      · obtain ⟨y, hy, hR⟩ := ih hx
        exact ⟨y, List.mem_cons_of_mem _ hy, hR⟩

/-- Values that each have a partner are paired with a list of partners. -/
theorem exists_forall₂ {xs : List α} (h : ∀ x ∈ xs, ∃ y, R x y) :
    ∃ ys, List.Forall₂ R xs ys := by
  induction xs with
  | nil => exact ⟨[], .nil⟩
  | cons x rest ih =>
      obtain ⟨y, hxy⟩ := h x List.mem_cons_self
      obtain ⟨ys, hrest⟩ := ih fun x' hx' => h x' (List.mem_cons_of_mem _ hx')
      exact ⟨y :: ys, .cons hxy hrest⟩

theorem forall₂_exists_left {xs : List α} {ys : List β}
    (h : List.Forall₂ R xs ys) {y : β} (hy : y ∈ ys) : ∃ x ∈ xs, R x y :=
  forall₂_exists_right (R := fun y x => R x y) h.flip hy

theorem forall₂_comp {xs : List α} {ys : List β} {zs : List γ}
    (h : List.Forall₂ R xs ys) (h' : List.Forall₂ S ys zs) :
    List.Forall₂ (fun x z => ∃ y, R x y ∧ S y z) xs zs := by
  induction h generalizing zs with
  | nil =>
      cases h'
      exact .nil
  | cons hxy hrest ih =>
      cases h' with
      | cons hyz hrest' => exact .cons ⟨_, hxy, hyz⟩ (ih hrest')

/-- Rearranging one side rearranges the other. -/
theorem forall₂_perm {xs : List α} {ys ys' : List β}
    (h : List.Forall₂ R xs ys) (hp : ys.Perm ys') :
    ∃ xs', xs'.Perm xs ∧ List.Forall₂ R xs' ys' := by
  have hcomp : Relation.Comp (List.Forall₂ R) List.Perm xs ys' := ⟨ys, h, hp⟩
  rw [List.forall₂_comp_perm_eq_perm_comp_forall₂] at hcomp
  obtain ⟨xs', hperm, hforall⟩ := hcomp
  exact ⟨xs', hperm.symm, hforall⟩

theorem forall₂_map_eq {f : α → κ} {g : β → κ} {xs : List α} {ys : List β}
    (h : List.Forall₂ R xs ys) (hkey : ∀ x y, R x y → f x = g y) :
    xs.map f = ys.map g := by
  induction h with
  | nil => rfl
  | cons hxy hrest ih =>
      rw [List.map_cons, List.map_cons, hkey _ _ hxy, ih]

/-- If equal keys on the one side mean equal keys on the other, distinct
keys there are distinct keys here. -/
theorem forall₂_nodup {κ' : Type} {f : α → κ} {g : β → κ'} {xs : List α}
    {ys : List β} (h : List.Forall₂ R xs ys)
    (hkey : ∀ x y x' y', R x y → R x' y' → f x = f x' → g y = g y')
    (hnodup : (ys.map g).Nodup) : (xs.map f).Nodup := by
  induction h with
  | nil => exact List.nodup_nil
  | @cons x y xs ys hxy hrest ih =>
      rw [List.map_cons, List.nodup_cons] at hnodup ⊢
      refine ⟨fun hmem => hnodup.1 ?_, ih hnodup.2⟩
      obtain ⟨x', hx', heq⟩ := List.mem_map.1 hmem
      obtain ⟨y', hy', hxy'⟩ := forall₂_exists_right hrest hx'
      rw [hkey x y x' y' hxy hxy' heq.symm]
      exact List.mem_map_of_mem hy'

-- ============================================================ searching

/-- A search by a key nobody shares. -/
theorem find?_key [BEq κ] [LawfulBEq κ] {key : α → κ} {xs : List α}
    (hnodup : (xs.map key).Nodup) {x : α} (hx : x ∈ xs) :
    xs.find? (fun y => key y == key x) = some x := by
  cases hfind : xs.find? fun y => key y == key x with
  | none =>
      have hnone := List.find?_eq_none.1 hfind x hx
      exact absurd (beq_self_eq_true (key x)) hnone
  | some found =>
      have hkey := List.find?_some (p := fun y => key y == key x) hfind
      have hmem := List.mem_of_find?_eq_some hfind
      rw [List.inj_on_of_nodup_map hnodup hmem hx (beq_iff_eq.1 hkey)]

theorem filter_key [BEq κ] [LawfulBEq κ] {key : α → κ} {xs : List α}
    (hnodup : (xs.map key).Nodup) {x : α} (hx : x ∈ xs) :
    xs.filter (fun y => key y == key x) = [x] := by
  induction xs with
  | nil => cases hx
  | cons y rest ih =>
      rw [List.map_cons, List.nodup_cons] at hnodup
      rcases List.mem_cons.1 hx with rfl | hmem
      · rw [List.filter_cons, if_pos (beq_self_eq_true (key x)),
          List.filter_eq_nil_iff.2]
        intro z hz hkey
        rw [← beq_iff_eq.1 hkey] at hnodup
        exact hnodup.1 (List.mem_map_of_mem hz)
      · have hne : ¬(key y == key x) = true := by
          intro hkey
          rw [beq_iff_eq.1 hkey] at hnodup
          exact hnodup.1 (List.mem_map_of_mem hmem)
        rw [List.filter_cons, if_neg hne]
        exact ih hnodup.2 hmem

end Joining
