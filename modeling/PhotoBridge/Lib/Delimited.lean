/-
Self-delimiting encodings: byte layouts in which every part says itself
where it ends, by a fixed width, a length in front or a count in front.

The one notion is `Delimits P encode`: among the values `P` holds of,
what follows an encoded value can be told from it. Layouts are read back
by peeling one part after the other, so a record that is a concatenation
of delimited parts determines all of its fields, and no separate decoder
is needed to say so.
-/
import Mathlib.Tactic.Common

namespace Delimited

variable {α β : Type}

/-- Among the values `P` holds of, an encoded value ends where it says. -/
structure Delimits (P : α → Prop) (encode : α → List β) : Prop where
  peel : ∀ {a b : α}, P a → P b → ∀ {r s : List β},
    encode a ++ r = encode b ++ s → a = b ∧ r = s

variable {P : α → Prop} {encode : α → List β}

/-- What is delimited is determined. -/
theorem Delimits.injective (h : Delimits P encode) {a b : α} (ha : P a)
    (hb : P b) (heq : encode a = encode b) : a = b := by
  have happ : encode a ++ [] = encode b ++ [] := by rw [heq]
  exact (h.peel ha hb happ).1

/-- Encodings of one width. -/
theorem Delimits.of_width (width : Nat)
    (hwidth : ∀ a, (encode a).length = width)
    (hinj : ∀ a b, encode a = encode b → a = b) : Delimits P encode := by
  refine ⟨fun {a b} _ _ {r s} h => ?_⟩
  have hlength : (encode a).length = (encode b).length := by
    rw [hwidth, hwidth]
  obtain ⟨hab, hrs⟩ := List.append_inj h hlength
  exact ⟨hinj a b hab, hrs⟩

/-- A list behind its length: the length is delimited, the items are as
many as it says. -/
theorem Delimits.lengthPrefixed {size : Nat → List β} {bound : Nat}
    (hsize : Delimits (· < bound) size) :
    Delimits (fun xs : List β => xs.length < bound)
      fun xs => size xs.length ++ xs := by
  refine ⟨fun {a b} ha hb {r s} h => ?_⟩
  rw [List.append_assoc, List.append_assoc] at h
  obtain ⟨hlength, hrest⟩ := hsize.peel ha hb h
  exact List.append_inj hrest hlength

/-- Items one after the other, when it is known how many. -/
theorem Delimits.flatMap (h : Delimits P encode) :
    ∀ {xs ys : List α}, (∀ x ∈ xs, P x) → (∀ y ∈ ys, P y) →
      xs.length = ys.length → ∀ {r s : List β},
      xs.flatMap encode ++ r = ys.flatMap encode ++ s → xs = ys ∧ r = s := by
  intro xs
  induction xs with
  | nil =>
      intro ys _ _ hlength r s heq
      obtain rfl : ys = [] := List.length_eq_zero_iff.1 hlength.symm
      exact ⟨rfl, heq⟩
  | cons x rest ih =>
      intro ys hxs hys hlength r s heq
      cases ys with
      | nil => cases hlength
      | cons y rest' =>
          simp only [List.flatMap_cons, List.append_assoc] at heq
          obtain ⟨rfl, htail⟩ := h.peel (hxs x List.mem_cons_self)
            (hys y List.mem_cons_self) heq
          obtain ⟨rfl, hrs⟩ := ih
            (fun z hz => hxs z (List.mem_cons_of_mem _ hz))
            (fun z hz => hys z (List.mem_cons_of_mem _ hz))
            (Nat.succ.inj hlength) htail
          exact ⟨rfl, hrs⟩

/-- Items one after the other to the end, none of which is empty. -/
theorem Delimits.flatMap_injective (h : Delimits P encode)
    (hne : ∀ x, encode x ≠ []) {xs ys : List α} (hxs : ∀ x ∈ xs, P x)
    (hys : ∀ y ∈ ys, P y) (heq : xs.flatMap encode = ys.flatMap encode) :
    xs = ys := by
  induction xs generalizing ys with
  | nil =>
      cases ys with
      | nil => rfl
      | cons y rest =>
          rw [List.flatMap_nil, List.flatMap_cons] at heq
          exact absurd (List.append_eq_nil_iff.1 heq.symm).1 (hne y)
  | cons x rest ih =>
      cases ys with
      | nil =>
          rw [List.flatMap_nil, List.flatMap_cons] at heq
          exact absurd (List.append_eq_nil_iff.1 heq).1 (hne x)
      | cons y rest' =>
          rw [List.flatMap_cons, List.flatMap_cons] at heq
          obtain ⟨rfl, htail⟩ := h.peel (hxs x List.mem_cons_self)
            (hys y List.mem_cons_self) heq
          rw [ih (fun z hz => hxs z (List.mem_cons_of_mem _ hz))
            (fun z hz => hys z (List.mem_cons_of_mem _ hz)) htail]

/-- A list of items behind their number. -/
theorem Delimits.counted (h : Delimits P encode) {size : Nat → List β}
    {bound : Nat} (hsize : Delimits (· < bound) size) :
    Delimits (fun xs : List α => xs.length < bound ∧ ∀ x ∈ xs, P x)
      fun xs => size xs.length ++ xs.flatMap encode := by
  refine ⟨fun {a b} ha hb {r s} heq => ?_⟩
  rw [List.append_assoc, List.append_assoc] at heq
  obtain ⟨hlength, hrest⟩ := hsize.peel ha.1 hb.1 heq
  exact h.flatMap ha.2 hb.2 hlength hrest

/-- An optional value behind a marker. -/
def optional (absent present : β) (encode : α → List β) :
    Option α → List β
  | none => [absent]
  | some a => present :: encode a

theorem Delimits.optional (h : Delimits P encode) {absent present : β}
    (hmark : absent ≠ present) :
    Delimits (fun o : Option α => ∀ a ∈ o, P a)
      (optional absent present encode) := by
  refine ⟨fun {a b} ha hb {r s} heq => ?_⟩
  cases a with
  | none =>
      cases b with
      | none => exact ⟨rfl, List.cons.inj heq |>.2⟩
      | some v => exact absurd (List.cons.inj heq).1 hmark
  | some u =>
      cases b with
      | none => exact absurd (List.cons.inj heq).1.symm hmark
      | some v =>
          obtain ⟨rfl, hrs⟩ := h.peel (ha u rfl) (hb v rfl)
            (List.cons.inj heq).2
          exact ⟨rfl, hrs⟩

end Delimited
