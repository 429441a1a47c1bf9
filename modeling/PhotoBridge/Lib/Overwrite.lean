/-
Overwriting a stretch of a list, and totals over a list of which one entry
is replaced.

`overwrite` is what `pwrite` does to a file and what a read does to the
buffer it fills: the bytes from a position on are replaced, and a gap
between the end and the position is filled with a default. The lemmas say
where the new list reads the written bytes and where it reads the old
ones.

A list is also cut into pieces of one size; put together again in order
they are the list.

`total` adds a weight over the entries of a list. Replacing one entry
changes the total by the difference of the two weights, stated without
subtraction.
-/
import Mathlib.Algebra.GroupWithZero.Nat
import Mathlib.Tactic.Common

namespace Overwrite

variable {α β : Type}

-- ============================================================ overwriting

/-- `ys` over `xs` from `pos` on; a gap is filled with `d`. -/
def overwrite (d : α) (xs : List α) (pos : Nat) (ys : List α) : List α :=
  (xs.rightpad pos d).take pos ++ ys ++ xs.drop (pos + ys.length)

variable {d : α} {xs ys : List α} {pos i : Nat}

private theorem length_take_rightpad :
    ((xs.rightpad pos d).take pos).length = pos := by
  rw [List.length_take, List.rightpad, List.length_append,
    List.length_replicate]
  omega

theorem length_overwrite :
    (overwrite d xs pos ys).length = max xs.length (pos + ys.length) := by
  unfold overwrite
  rw [List.length_append, List.length_append, length_take_rightpad,
    List.length_drop]
  omega

/-- Inside the written stretch. -/
theorem getElem?_overwrite_in (h : pos ≤ i) (h' : i < pos + ys.length) :
    (overwrite d xs pos ys)[i]? = ys[i - pos]? := by
  unfold overwrite
  rw [List.getElem?_append_left, List.getElem?_append_right,
    length_take_rightpad]
  · rw [length_take_rightpad]
    exact h
  · rw [List.length_append, length_take_rightpad]
    exact h'

/-- Outside of it, as long as the position was there before. -/
theorem getElem?_overwrite_out (h : i < pos ∨ pos + ys.length ≤ i)
    (hi : i < xs.length) : (overwrite d xs pos ys)[i]? = xs[i]? := by
  unfold overwrite
  rcases h with h | h
  · rw [List.getElem?_append_left, List.getElem?_append_left,
      List.getElem?_take_of_lt h, List.rightpad,
      List.getElem?_append_left hi]
    · rw [length_take_rightpad]
      exact h
    · rw [List.length_append, length_take_rightpad]
      omega
  · rw [List.getElem?_append_right, List.length_append,
      length_take_rightpad, List.getElem?_drop]
    · congr 1
      omega
    · rw [List.length_append, length_take_rightpad]
      exact h

/-- Writing at the end appends. -/
theorem overwrite_length : overwrite d xs xs.length ys = xs ++ ys := by
  unfold overwrite
  rw [List.rightpad, Nat.sub_self, List.replicate_zero, List.append_nil,
    List.take_length, List.drop_eq_nil_of_le (by omega), List.append_nil]

variable {zs : List α}

/-- A stretch of `zs` written at its own place is there afterwards. -/
theorem getElem?_overwrite_of_stretch
    (hys : ∀ j, j < ys.length → ys[j]? = zs[pos + j]?) (h : pos ≤ i)
    (h' : i < pos + ys.length) : (overwrite d xs pos ys)[i]? = zs[i]? := by
  rw [getElem?_overwrite_in h h', hys (i - pos) (by omega)]
  congr 1
  omega

/-- And whatever else of `zs` was there still is. -/
theorem getElem?_overwrite_keeps
    (hys : ∀ j, j < ys.length → ys[j]? = zs[pos + j]?) (hi : i < zs.length)
    (h : xs[i]? = zs[i]?) : (overwrite d xs pos ys)[i]? = zs[i]? := by
  by_cases hin : pos ≤ i ∧ i < pos + ys.length
  · exact getElem?_overwrite_of_stretch hys hin.1 hin.2
  · have hx : i < xs.length := by
      rw [List.getElem?_eq_getElem hi] at h
      exact (List.getElem?_eq_some_iff.1 h).1
    rw [getElem?_overwrite_out (by omega) hx, h]

-- ================================================================ totals

/-- The sum of a weight over a list. -/
def total (f : β → Nat) (l : List β) : Nat := (l.map f).sum

variable {f : β → Nat} {l : List β} {a b : β}

theorem total_set (h : l[i]? = some a) :
    total f (l.set i b) + f a = total f l + f b := by
  unfold total
  induction l generalizing i with
  | nil => simp at h
  | cons x l ih =>
      cases i with
      | zero =>
          rw [List.getElem?_cons_zero, Option.some.injEq] at h
          subst h
          simp only [List.set_cons_zero, List.map_cons, List.sum_cons]
          omega
      | succ i =>
          rw [List.getElem?_cons_succ] at h
          have hrec := ih h
          simp only [List.set_cons_succ, List.map_cons, List.sum_cons]
          omega

/-- A weight that is zero everywhere. -/
theorem total_eq_zero (h : ∀ x ∈ l, f x = 0) : total f l = 0 := by
  unfold total
  induction l with
  | nil => rfl
  | cons x l ih =>
      rw [List.map_cons, List.sum_cons, h x (.head l),
        ih fun y hy => h y (.tail x hy)]

-- ================================================== one entry replaced

/-- A property of the entries, after one of them is replaced. -/
theorem forall_set {P : Nat → β → Prop} (hnew : P i b)
    (hold : ∀ j x, j ≠ i → l[j]? = some x → P j x) :
    ∀ j x, (l.set i b)[j]? = some x → P j x := by
  intro j x hx
  by_cases hj : i = j
  · subst hj
    obtain ⟨hlt, -⟩ := List.getElem?_eq_some_iff.1 hx
    rw [List.length_set] at hlt
    rw [List.getElem?_set_self hlt, Option.some.injEq] at hx
    rw [← hx]
    exact hnew
  · rw [List.getElem?_set_ne hj] at hx
    exact hold j x (fun h => hj h.symm) hx

/-- The replaced entry, where there was one. -/
theorem getElem?_set_of_some (h : l[i]? = some a) :
    (l.set i b)[i]? = some b := by
  obtain ⟨hlt, -⟩ := List.getElem?_eq_some_iff.1 h
  exact List.getElem?_set_self hlt

/-- A map that does not see the difference. -/
theorem map_set_of_eq {γ : Type} {k : β → γ} (h : l[i]? = some a)
    (hk : k b = k a) : (l.set i b).map k = l.map k := by
  apply List.ext_getElem?
  intro j
  rw [List.getElem?_map, List.getElem?_map]
  by_cases hj : i = j
  · subst hj
    rw [getElem?_set_of_some h, h, Option.map_some, Option.map_some, hk]
  · rw [List.getElem?_set_ne hj]

-- ================================================================ pieces

/-- The `k`th piece of `c` entries. -/
def piece (xs : List α) (c k : Nat) : List α := (xs.drop (k * c)).take c

/-- The first `n` pieces, put together again. -/
theorem flatten_pieces (xs : List α) (c n : Nat) :
    ((List.range n).map (piece xs c)).flatten = xs.take (n * c) := by
  induction n with
  | zero => simp
  | succ n ih =>
      rw [List.range_succ, List.map_append, List.flatten_append, ih,
        List.map_singleton, List.flatten_singleton, piece, ← List.take_add,
        Nat.add_mul, Nat.one_mul]

end Overwrite
