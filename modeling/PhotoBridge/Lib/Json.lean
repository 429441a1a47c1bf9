/-
JSON values, and what a program relies on when it hands one to a JSON
library and reads it back.

A value is what the library keeps in memory; an object is a map, so its
members are in key order and no key occurs twice (`Json.ofMembers`).
Numbers are literals no one looks into. A `Codec` is the library; it may
throw in either direction. `Codec.Lawful` is what its documentation
promises of compact output: values made of UTF-8 strings, booleans,
null, arrays and objects come back as they were, on one line.
-/
import PhotoBridge.Lib.Sorting

namespace JsonText

open Sorting

inductive Json
  | null
  | bool (value : Bool)
  | number (literal : List UInt8)
  | string (value : List UInt8)
  | array (items : List Json)
  | object (members : List (List UInt8 × Json))

-- ============================================================== objects

/-- Look a member up; in anything but an object there is none. -/
def Json.find? (value : Json) (key : List UInt8) : Option Json :=
  match value with
  | .object members => (members.find? (·.1 == key)).map (·.2)
  | _ => none

def Json.isObject : Json → Bool
  | .object _ => true
  | _ => false

/-- Members are kept in the order of their keys. -/
def memberBefore (left right : List UInt8 × Json) : Bool :=
  decide (left.1 < right.1)

/-- The object with these members, of distinct keys. -/
def Json.ofMembers (members : List (List UInt8 × Json)) : Json :=
  .object (sortBy memberBefore members)

-- ================================================================ values

/-- The bytes are the UTF-8 encoding of some text. -/
def IsUtf8 (bytes : List UInt8) : Prop :=
  ∃ s : String, s.toUTF8.data.toList = bytes

/-- Values without numbers, all of whose strings are UTF-8. -/
inductive Json.Textual : Json → Prop
  | null : Textual .null
  | bool (value : Bool) : Textual (.bool value)
  | string {value : List UInt8} (h : IsUtf8 value) : Textual (.string value)
  | array {items : List Json} (h : ∀ item ∈ items, item.Textual) :
      Textual (.array items)
  | object {members : List (List UInt8 × Json)}
      (horder : (members.map (·.1)).Pairwise (· < ·))
      (hkeys : ∀ m ∈ members, IsUtf8 m.1)
      (hvalues : ∀ m ∈ members, m.2.Textual) : Textual (.object members)

-- ============================================================== a library

/-- A JSON library: writing a value on one line and reading a line. An
error carries the text of an exception. -/
structure Codec where
  dump : Json → Except (List UInt8) (List UInt8)
  parse : List UInt8 → Except (List UInt8) Json

/-- What the library's documentation promises. -/
structure Codec.Lawful (codec : Codec) : Prop where
  round : ∀ value : Json, value.Textual →
    ∃ line, codec.dump value = .ok line ∧ codec.parse line = .ok value
  /-- Output is compact: no line feed, which strings have escaped. -/
  oneLine : ∀ (value : Json) (line : List UInt8), value.Textual →
    codec.dump value = .ok line → 10 ∉ line
  /-- An object is written in braces. -/
  braces : ∀ (members : List (List UInt8 × Json)) (line : List UInt8),
    codec.dump (.object members) = .ok line →
    line.head? = some 123 ∧ line.getLast? = some 125

/-- Where UTF-8 is checked strictly, no object is written whose own
strings are anything else. -/
def Codec.Strict (codec : Codec) : Prop :=
  ∀ (members : List (List UInt8 × Json)) (line : List UInt8),
    codec.dump (.object members) = .ok line →
    ∀ m ∈ members, ∀ value, m.2 = .string value → IsUtf8 value

/-- Where UTF-8 is checked strictly, the strings of an object that is read
are nothing else. -/
def Codec.Encoded (codec : Codec) : Prop :=
  ∀ line value, codec.parse line = .ok value → ∀ key string,
    value.find? key = some (.string string) → IsUtf8 string

-- ==================================================== objects, in order

private theorem memberBefore_comparator : Comparator memberBefore where
  asymm := by
    intro a b h
    exact decide_eq_false (List.lt_asymm (of_decide_eq_true h))
  trans := by
    intro a b c hab hbc
    have h₁ := List.not_lt.1 (of_decide_eq_false hab)
    have h₂ := List.not_lt.1 (of_decide_eq_false hbc)
    exact decide_eq_false (List.not_lt.2 (List.le_trans h₁ h₂))

/-- Members of distinct keys are put in strict order. -/
theorem sortBy_memberBefore {members : List (List UInt8 × Json)}
    (hnodup : (members.map (·.1)).Nodup) :
    ((sortBy memberBefore members).map (·.1)).Pairwise (· < ·) := by
  have hperm := (perm_sortBy memberBefore members).map (·.1)
  have hdistinct := hperm.nodup_iff.2 hnodup
  have hsorted := pairwise_sortBy memberBefore_comparator members
  rw [List.pairwise_map]
  rw [List.Nodup, List.pairwise_map] at hdistinct
  refine (hsorted.and hdistinct).imp fun {a b} h => ?_
  have hle := List.not_lt.1 (of_decide_eq_false h.1)
  by_contra hnot
  exact h.2 (List.le_antisymm hle (List.not_lt.1 hnot))

/-- An object made of textual members is textual. -/
theorem Json.Textual.ofMembers {members : List (List UInt8 × Json)}
    (hnodup : (members.map (·.1)).Nodup)
    (hkeys : ∀ m ∈ members, IsUtf8 m.1)
    (hvalues : ∀ m ∈ members, m.2.Textual) :
    (Json.ofMembers members).Textual :=
  .object (sortBy_memberBefore hnodup)
    (fun m hm => hkeys m (mem_sortBy.1 hm))
    fun m hm => hvalues m (mem_sortBy.1 hm)

/-- A member is found under its key. -/
theorem Json.find?_ofMembers {members : List (List UInt8 × Json)}
    (hnodup : (members.map (·.1)).Nodup) {key : List UInt8} {value : Json}
    (hmem : (key, value) ∈ members) :
    (Json.ofMembers members).find? key = some value := by
  show ((sortBy memberBefore members).find? (·.1 == key)).map (·.2) = _
  have hsorted : (key, value) ∈ sortBy memberBefore members :=
    mem_sortBy.2 hmem
  cases hfind : (sortBy memberBefore members).find? (·.1 == key) with
  | none =>
      have hnone := List.find?_eq_none.1 hfind _ hsorted
      exact absurd (beq_self_eq_true key) hnone
  | some found =>
      have hkey := List.find?_some hfind
      have hfound := mem_sortBy.1 (List.mem_of_find?_eq_some hfind)
      have hsame := List.inj_on_of_nodup_map hnodup hfound hmem
        (beq_iff_eq.1 hkey)
      rw [hsame]
      rfl

end JsonText
