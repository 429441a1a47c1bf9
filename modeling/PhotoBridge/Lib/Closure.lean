/-
What can be reached along the edges of a finite relation, computed by
rounds: a round adds the targets of edges that leave what has been
reached so far, and a round that adds nothing is the last.

Every productive round uses up an edge, so one more round than there are
edges is enough whatever the relation looks like, cycles included
(`expand_close`), and what is there then is what a path leads to
(`mem_close`). The second half is about relations without cycles: an edge
added to one closes a cycle exactly if a path leads back.
-/
import Mathlib.Data.List.Basic
import Mathlib.Logic.Relation

namespace Closure

open Relation

variable {α : Type} [BEq α]

-- ============================================================== rounds

/-- There is an edge. -/
def Edge (edges : List (α × α)) (a b : α) : Prop := (a, b) ∈ edges

/-- The targets of edges that leave `reached`. -/
def expand (edges : List (α × α)) (reached : List α) : List α :=
  edges.filterMap fun e =>
    if reached.contains e.1 && !reached.contains e.2 then some e.2 else none

/-- At most `fuel` rounds. -/
def close (edges : List (α × α)) : Nat → List α → List α
  | 0, reached => reached
  | fuel + 1, reached =>
      match expand edges reached with
      | [] => reached
      | more => close edges fuel (reached ++ more.eraseDups)

variable {edges : List (α × α)} {reached : List α}

/-- Edges that lead out of what was reached, or nowhere in it. -/
def unused (edges : List (α × α)) (reached : List α) : Nat :=
  edges.countP fun e => !reached.contains e.2

theorem unused_le (edges : List (α × α)) (reached : List α) :
    unused edges reached ≤ edges.length :=
  List.countP_le_length

theorem subset_close (fuel : Nat) : reached ⊆ close edges fuel reached := by
  induction fuel generalizing reached with
  | zero => exact List.Subset.refl _
  | succ fuel ih =>
      unfold close
      cases hexpand : expand edges reached with
      | nil => exact List.Subset.refl _
      | cons b more =>
          exact fun x hx => ih (List.mem_append_left _ hx)

variable [LawfulBEq α]

private theorem mem_expand {b : α} :
    b ∈ expand edges reached
      ↔ b ∉ reached ∧ ∃ a ∈ reached, Edge edges a b := by
  unfold expand
  rw [List.mem_filterMap]
  constructor
  · intro h
    obtain ⟨e, he, hb⟩ := h
    split at hb
    · next hleaves =>
      cases hb
      simp only [Bool.and_eq_true, Bool.not_eq_true', List.contains_eq_mem,
        decide_eq_true_eq, decide_eq_false_iff_not] at hleaves
      exact ⟨hleaves.2, e.1, hleaves.1, he⟩
    · cases hb
  · intro h
    obtain ⟨hb, a, ha, he⟩ := h
    refine ⟨(a, b), he, ?_⟩
    simp [ha, hb]

private theorem countP_lt {β : Type} {p q : β → Bool} {xs : List β} {x : β}
    (hpq : ∀ y ∈ xs, p y = true → q y = true) (hx : x ∈ xs)
    (hq : q x = true) (hp : p x = false) : xs.countP p < xs.countP q := by
  induction xs with
  | nil => cases hx
  | cons y rest ih =>
      have hrest := fun z hz => hpq z (List.mem_cons_of_mem y hz)
      rw [List.countP_cons, List.countP_cons]
      rcases List.mem_cons.1 hx with hxy | hx
      · have hle := List.countP_mono_left hrest
        rw [← hxy, hp, hq]
        simp only [Bool.false_eq_true, if_false, if_true]
        omega
      · have hlt := ih hrest hx
        by_cases hy : p y = true
        · rw [if_pos hy, if_pos (hpq y List.mem_cons_self hy)]
          omega
        · rw [if_neg hy]
          omega

/-- A round that adds something uses up an edge. -/
theorem unused_expand (h : expand edges reached ≠ []) :
    unused edges (reached ++ (expand edges reached).eraseDups)
      < unused edges reached := by
  obtain ⟨b, hb⟩ := List.exists_mem_of_ne_nil _ h
  obtain ⟨hnew, a, ha, he⟩ := mem_expand.1 hb
  refine countP_lt (x := (a, b)) (fun e _ hout => ?_) he ?_ ?_
  · simp only [Bool.not_eq_true', List.contains_eq_mem,
      decide_eq_false_iff_not, List.mem_append, not_or] at hout ⊢
    exact hout.1
  · simpa using hnew
  · simpa using fun _ => hb

/-- With more rounds than unused edges the last round adds nothing. -/
theorem expand_close {fuel : Nat} (h : unused edges reached < fuel) :
    expand edges (close edges fuel reached) = [] := by
  induction fuel generalizing reached with
  | zero => omega
  | succ fuel ih =>
      unfold close
      cases hexpand : expand edges reached with
      | nil => exact hexpand
      | cons b more =>
          have hsome : expand edges reached ≠ [] := by
            rw [hexpand]
            exact List.cons_ne_nil _ _
          have hlt := unused_expand hsome
          rw [hexpand] at hlt
          exact ih (by omega)

/-- Whatever is added, a path leads to. -/
theorem path_of_mem_close {fuel : Nat} {b : α}
    (h : b ∈ close edges fuel reached) :
    ∃ a ∈ reached, ReflTransGen (Edge edges) a b := by
  induction fuel generalizing reached with
  | zero => exact ⟨b, h, .refl⟩
  | succ fuel ih =>
      unfold close at h
      cases hexpand : expand edges reached with
      | nil =>
          rw [hexpand] at h
          exact ⟨b, h, .refl⟩
      | cons first more =>
          rw [hexpand] at h
          obtain ⟨c, hc, hpath⟩ := ih h
          rcases List.mem_append.1 hc with hc | hc
          · exact ⟨c, hc, hpath⟩
          · rw [List.mem_eraseDups, ← hexpand] at hc
            obtain ⟨-, a, ha, hedge⟩ := mem_expand.1 hc
            exact ⟨a, ha, .head hedge hpath⟩

/-- What no round adds to holds everything a path leads to. -/
theorem mem_of_path {closed : List α} (hclosed : expand edges closed = [])
    {a b : α} (ha : a ∈ closed) (hpath : ReflTransGen (Edge edges) a b) :
    b ∈ closed := by
  induction hpath with
  | refl => exact ha
  | @tail c d _ hedge hc =>
      by_contra hd
      have hexpand := mem_expand.2 ⟨hd, c, hc, hedge⟩
      rw [hclosed] at hexpand
      cases hexpand

/-- One more round than there are edges finds what paths lead to. -/
theorem mem_close {fuel : Nat} (hfuel : edges.length < fuel) {b : α} :
    b ∈ close edges fuel reached
      ↔ ∃ a ∈ reached, ReflTransGen (Edge edges) a b := by
  constructor
  · exact path_of_mem_close
  · intro h
    obtain ⟨a, ha, hpath⟩ := h
    have hclosed := expand_close
      (Nat.lt_of_le_of_lt (unused_le edges reached) hfuel)
    exact mem_of_path hclosed (subset_close fuel ha) hpath

-- ============================================================== cycles

/-- No path of at least one edge leads back to where it started. -/
def Acyclic {β : Type} (r : β → β → Prop) : Prop := ∀ x, ¬TransGen r x x

/-- The relation with one more edge. -/
def Adding {β : Type} (r : β → β → Prop) (a b x y : β) : Prop :=
  r x y ∨ x = a ∧ y = b

/-- A path that uses a new edge leads to it and on from it. -/
theorem transGen_adding {β : Type} {r : β → β → Prop} {a b x y : β}
    (hback : ¬ReflTransGen r b a) (h : TransGen (Adding r a b) x y) :
    TransGen r x y ∨ ReflTransGen r x a ∧ ReflTransGen r b y := by
  induction h with
  | single hedge =>
      rcases hedge with hedge | ⟨rfl, rfl⟩
      · exact Or.inl (.single hedge)
      · exact Or.inr ⟨.refl, .refl⟩
  | tail _ hedge ih =>
      rcases hedge with hedge | ⟨rfl, rfl⟩
      · rcases ih with hold | ⟨hto, hon⟩
        · exact Or.inl (hold.tail hedge)
        · exact Or.inr ⟨hto, hon.tail hedge⟩
      · rcases ih with hold | ⟨-, hon⟩
        · exact Or.inr ⟨hold.to_reflTransGen, .refl⟩
        · exact absurd hon hback

/-- An edge keeps a relation acyclic if no path leads back. -/
theorem Acyclic.adding {β : Type} {r : β → β → Prop} (h : Acyclic r)
    {a b : β} (hback : ¬ReflTransGen r b a) : Acyclic (Adding r a b) := by
  intro x hcycle
  rcases transGen_adding hback hcycle with hold | ⟨hto, hon⟩
  · exact h x hold
  · exact hback (hon.trans hto)

/-- A relation with fewer edges. -/
theorem Acyclic.mono {β : Type} {r s : β → β → Prop} (h : Acyclic s)
    (hrs : ∀ x y, r x y → s x y) : Acyclic r :=
  fun x hcycle => h x (TransGen.mono hrs x x hcycle)

end Closure
