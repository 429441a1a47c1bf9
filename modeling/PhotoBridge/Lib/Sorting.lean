/-
Sorting by a strict comparator, the way `std::sort` is called, and
finding equal neighbours in what comes out (`std::adjacent_find`).

A comparator is a boolean "comes before". Nothing is said about the
order in which equivalent values end up: the results here are about
values the comparator tells apart (`Separates`), where there is only one
sorted arrangement.
-/
import Mathlib.Data.List.Sort

namespace Sorting

variable {α κ : Type}

-- ========================================================= comparators

/-- A strict weak order. -/
structure Comparator (less : α → α → Bool) : Prop where
  asymm : ∀ {a b}, less a b = true → less b a = false
  /-- Not coming before is transitive. -/
  trans : ∀ {a b c}, less b a = false → less c b = false → less c a = false

/-- The comparator tells these values apart. -/
def Separates (less : α → α → Bool) (xs : List α) : Prop :=
  ∀ a ∈ xs, ∀ b ∈ xs, less a b = false → less b a = false → a = b

theorem Separates.perm {less : α → α → Bool} {xs ys : List α}
    (h : Separates less xs) (hp : xs.Perm ys) : Separates less ys :=
  fun a ha b hb => h a (hp.symm.subset ha) b (hp.symm.subset hb)

/-- A comparator read through a key. -/
theorem Comparator.comap {less : κ → κ → Bool} (h : Comparator less)
    (key : α → κ) : Comparator fun a b => less (key a) (key b) where
  asymm := h.asymm
  trans := h.trans

/-- Values with distinct keys are told apart by a comparator that tells
the keys apart. -/
theorem Separates.of_keys {less : κ → κ → Bool} {key : α → κ}
    {xs : List α} (hkeys : Separates less (xs.map key))
    (hnodup : (xs.map key).Nodup) :
    Separates (fun a b => less (key a) (key b)) xs := by
  intro a ha b hb hab hba
  have hkey := hkeys _ (List.mem_map_of_mem ha) _ (List.mem_map_of_mem hb)
    hab hba
  exact List.inj_on_of_nodup_map hnodup ha hb hkey

/-- Values are compared by `first`, and by `second` where that does not
tell them apart. -/
def thenBy (first second : α → α → Bool) (a b : α) : Bool :=
  first a b || (!first b a && second a b)

theorem thenBy_eq_false {first second : α → α → Bool} {a b : α} :
    thenBy first second a b = false
      ↔ first a b = false ∧ (first b a = false → second a b = false) := by
  unfold thenBy
  cases first a b <;> cases first b a <;> simp

theorem Comparator.thenBy {first second : α → α → Bool}
    (h : Comparator first) (h' : Comparator second) :
    Comparator (Sorting.thenBy first second) where
  asymm := by
    intro a b hab
    rw [thenBy_eq_false]
    cases hfirst : first a b with
    | true => exact ⟨h.asymm hfirst, fun hno => by cases hno⟩
    | false =>
        have hboth : first b a = false ∧ second a b = true := by
          unfold Sorting.thenBy at hab
          rw [hfirst] at hab
          simpa using hab
        exact ⟨hboth.1, fun _ => h'.asymm hboth.2⟩
  trans := by
    intro a b c hab hbc
    rw [thenBy_eq_false] at hab hbc ⊢
    refine ⟨h.trans hab.1 hbc.1, fun hac => ?_⟩
    -- `first` does not tell the outer two apart, nor the one in between
    have hcb : first a b = false := h.trans hbc.1 hac
    have hba : first b c = false := h.trans hac hab.1
    exact h'.trans (hab.2 hcb) (hbc.2 hba)

theorem Separates.thenBy {first : α → α → Bool} {xs : List α}
    (h : Separates first xs) (second : α → α → Bool) :
    Separates (Sorting.thenBy first second) xs := by
  intro a ha b hb hab hba
  rw [thenBy_eq_false] at hab hba
  exact h a ha b hb hab.1 hba.1

/-- The order of a type compares its values. -/
theorem Comparator.of_lt {κ : Type} [LinearOrder κ] :
    Comparator fun a b : κ => decide (a < b) where
  asymm := by
    intro a b h
    exact decide_eq_false (lt_asymm (of_decide_eq_true h))
  trans := by
    intro a b c hab hbc
    have h₁ := not_lt.1 (of_decide_eq_false hab)
    have h₂ := not_lt.1 (of_decide_eq_false hbc)
    exact decide_eq_false (not_lt.2 (le_trans h₁ h₂))

-- ============================================================= sorting

/-- `std::sort`. -/
def sortBy (less : α → α → Bool) (xs : List α) : List α :=
  xs.insertionSort fun a b => less b a = false

variable {less : α → α → Bool}

theorem perm_sortBy (less : α → α → Bool) (xs : List α) :
    (sortBy less xs).Perm xs :=
  List.perm_insertionSort _ xs

@[simp] theorem mem_sortBy {xs : List α} {a : α} :
    a ∈ sortBy less xs ↔ a ∈ xs :=
  (perm_sortBy less xs).mem_iff

@[simp] theorem length_sortBy (xs : List α) :
    (sortBy less xs).length = xs.length :=
  (perm_sortBy less xs).length_eq

theorem pairwise_sortBy (h : Comparator less) (xs : List α) :
    (sortBy less xs).Pairwise fun a b => less b a = false := by
  have htotal : Std.Total fun a b => less b a = false := by
    refine ⟨fun a b => ?_⟩
    cases hab : less b a with
    | false => exact .inl rfl
    | true => exact .inr (h.asymm hab)
  have htrans : IsTrans α fun a b => less b a = false :=
    ⟨fun _ _ _ => h.trans⟩
  exact List.pairwise_insertionSort _ xs

/-- Sorting what is sorted changes nothing. -/
theorem sortBy_of_pairwise {xs : List α}
    (h : xs.Pairwise fun a b => less b a = false) : sortBy less xs = xs :=
  h.insertionSort_eq

/-- There is one sorted arrangement of values that are told apart. -/
theorem eq_of_sorted {xs ys : List α} (hxs : Separates less xs)
    (hp : xs.Perm ys) (hx : xs.Pairwise fun a b => less b a = false)
    (hy : ys.Pairwise fun a b => less b a = false) : xs = ys := by
  refine hp.eq_of_pairwise (fun a b ha hb hab hba => ?_) hx hy
  exact hxs a ha b (hp.symm.subset hb) hba hab

/-- The order in which the values came does not matter. -/
theorem sortBy_congr (h : Comparator less) {xs ys : List α}
    (hxs : Separates less xs) (hp : xs.Perm ys) :
    sortBy less xs = sortBy less ys := by
  refine eq_of_sorted (hxs.perm (perm_sortBy less xs).symm) ?_
    (pairwise_sortBy h xs) (pairwise_sortBy h ys)
  exact (perm_sortBy less xs).trans (hp.trans (perm_sortBy less ys).symm)

/-- Values the comparator does not tell apart come out in the order they
went in. -/
theorem filter_sortBy {keep : α → Bool} {xs : List α}
    (h : ∀ a ∈ xs, ∀ b ∈ xs, keep a = true → keep b = true →
      less b a = false) :
    (sortBy less xs).filter keep = xs.filter keep := by
  have hkept : (xs.filter keep).Pairwise fun a b => less b a = false := by
    refine List.pairwise_iff_forall_sublist.2 fun {a b} hab => ?_
    have ha := List.mem_filter.1 (hab.subset List.mem_cons_self)
    have hb := List.mem_filter.1
      (hab.subset (List.mem_cons_of_mem _ List.mem_cons_self))
    exact h a ha.1 b hb.1 ha.2 hb.2
  have hsub : (xs.filter keep).Sublist (sortBy less xs) :=
    List.sublist_insertionSort hkept List.filter_sublist
  have hsub' := hsub.filter keep
  rw [List.filter_filter] at hsub'
  simp only [Bool.and_self] at hsub'
  exact (hsub'.eq_of_length
    ((perm_sortBy less xs).filter keep).length_eq.symm).symm

/-- Two values not told apart come out as they went in. -/
theorem sortBy_swap_ne (h : Comparator less) {a b : α} (hne : a ≠ b)
    (hab : less a b = false) (hba : less b a = false) (rest : List α) :
    sortBy less (a :: b :: rest) ≠ sortBy less (b :: a :: rest) := by
  intro heq
  let keep : α → Bool := fun c => !less a c && !less c a
  have hself : less a a = false := by
    cases hless : less a a with
    | false => rfl
    | true => exact hless ▸ h.asymm hless
  have halike : ∀ xs : List α, ∀ u ∈ xs, ∀ v ∈ xs, keep u = true →
      keep v = true → less v u = false := by
    intro xs u _ v _ hu hv
    simp only [keep, Bool.and_eq_true, Bool.not_eq_true'] at hu hv
    exact h.trans hu.1 hv.2
  have hfilter := congrArg (List.filter keep) heq
  rw [filter_sortBy (halike _), filter_sortBy (halike _)] at hfilter
  have hkeepA : keep a = true := by simp [keep, hself]
  have hkeepB : keep b = true := by simp [keep, hab, hba]
  simp only [List.filter_cons, hkeepA, hkeepB, if_true] at hfilter
  exact hne (List.cons.inj hfilter).1

/-- The order in which values came does not matter exactly if they are
told apart. -/
theorem sortBy_perm_iff (h : Comparator less) {xs : List α} :
    (∀ ys : List α, ys.Perm xs → sortBy less ys = sortBy less xs)
      ↔ Separates less xs := by
  constructor
  · intro hsame a ha b hb hab hba
    by_contra hne
    classical
    have hb' : b ∈ xs.erase a := (List.mem_erase_of_ne (Ne.symm hne)).2 hb
    have hperm : (a :: b :: (xs.erase a).erase b).Perm xs :=
      ((List.perm_cons_erase hb').symm.cons a).trans
        (List.perm_cons_erase ha).symm
    refine sortBy_swap_ne h hne hab hba ((xs.erase a).erase b) ?_
    rw [hsame _ hperm, hsame _ ((List.Perm.swap a b _).trans hperm)]
  · intro hxs ys hperm
    exact sortBy_congr h (hxs.perm hperm.symm) hperm

-- ==================================================== equal neighbours

/-- `std::adjacent_find` finds something. -/
def adjacentFind [DecidableEq α] : List α → Bool
  | a :: b :: rest => a == b || adjacentFind (b :: rest)
  | _ => false

/-- In a sorted list of values told apart, a value occurs twice exactly
if it has an equal neighbour. -/
theorem adjacentFind_sorted [DecidableEq α] {xs : List α}
    (hxs : Separates less xs)
    (hsorted : xs.Pairwise fun a b => less b a = false) :
    adjacentFind xs = false ↔ xs.Nodup := by
  induction xs with
  | nil => simp [adjacentFind]
  | cons a rest ih =>
      have hrest : Separates less rest := fun u hu v hv =>
        hxs u (List.mem_cons_of_mem _ hu) v (List.mem_cons_of_mem _ hv)
      rw [List.pairwise_cons] at hsorted
      have hih := ih hrest hsorted.2
      cases rest with
      | nil => simp [adjacentFind]
      | cons b tail =>
          show (a == b || adjacentFind (b :: tail)) = false ↔ _
          rw [Bool.or_eq_false_iff, hih, beq_eq_false_iff_ne]
          constructor
          · intro hboth
            refine List.nodup_cons.2 ⟨fun hmem => ?_, hboth.2⟩
            rcases List.mem_cons.1 hmem with heq | htail
            · exact hboth.1 heq
            · -- between two equal values everything is equal to them
              refine hboth.1 (hxs a List.mem_cons_self b
                (List.mem_cons_of_mem _ List.mem_cons_self) ?_ ?_)
              · exact (List.pairwise_cons.1 hsorted.2).1 a htail
              · exact hsorted.1 b List.mem_cons_self
          · intro hnodup
            obtain ⟨hnot, htail⟩ := List.nodup_cons.1 hnodup
            refine ⟨fun heq => hnot ?_, htail⟩
            rw [heq]
            exact List.mem_cons_self

/-- Sorting and looking for equal neighbours finds out whether a value
occurs twice. -/
theorem adjacentFind_sortBy [DecidableEq α] (h : Comparator less)
    {xs : List α} (hxs : Separates less xs) :
    adjacentFind (sortBy less xs) = false ↔ xs.Nodup := by
  rw [adjacentFind_sorted (hxs.perm (perm_sortBy less xs).symm)
    (pairwise_sortBy h xs)]
  exact (perm_sortBy less xs).nodup_iff

end Sorting
